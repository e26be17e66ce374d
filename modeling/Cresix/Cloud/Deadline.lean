import Cresix.Cloud.Moves
import Cresix.Relay.Fidelity

/-!
# One total deadline

A request has one deadline, 30 seconds after its headers arrived.  The session
that takes it up computes another one for the connector, 30 seconds after that
moment, and sends the `RequestStart` whether or not the request has been
answered in the meantime.

`QueueInvariant` says whose the exchanges in the queues and sessions are: each
has its own request, whose reply is pending.  So only the deadline lets such a
request be answered with a timeout, and in a run whose steps are `Prompt` no
`RequestStart` follows it.
-/

namespace Cresix.Cloud

open Relay
open Rust (Uuid)
open Transition (System Event)

/-- The handler has sent its exchange, or will send none. -/
def ProxyTask.Sent : ProxyTask → Prop
  | .lookup | .reading _ _ | .sending _ _ => False
  | _ => True

namespace Process

/-- The exchange is in a place of a session. -/
def At (cloud : Process) (number : Nat) (slot : Session.Slot) (exchange : ProxyExchange) : Prop :=
  ∃ session, cloud.sessions[number]? = some session ∧ session.slot slot = some exchange

/-- The request of an exchange, as long as it is in a session. -/
structure Awaits (cloud : Process) (exchange : ProxyExchange) (proxy : Proxy) : Prop where
  handler : cloud.proxies[exchange.reply]? = some proxy
  deadline : proxy.deadline = exchange.deadline
  sent : proxy.task.Sent
  pending : proxy.reply = .pending
  expired : ∀ {reply : ProxyReply}, proxy.task = .answered reply → reply.IsTimeout → proxy.deadline ≤ cloud.now

structure QueueInvariant (cloud : Process) : Prop where
  /-- Nobody replies before the exchange is sent. -/
  fresh : ∀ {number : Nat} {proxy : Proxy}, cloud.proxies[number]? = some proxy →
    ¬ proxy.task.Sent → proxy.reply = .pending
  awaits : ∀ {number slot exchange}, cloud.At number slot exchange →
    ∃ proxy, cloud.Awaits exchange proxy
  unique : ∀ {number number' slot slot' exchange exchange'}, cloud.At number slot exchange →
    cloud.At number' slot' exchange' → exchange.reply = exchange'.reply →
    number = number' ∧ slot = slot'

end Process

/-! ## Where exchanges are -/

section

variable {cloud cloud' : Process} {a : Action} {number : Nat} {slot : Session.Slot}
variable {exchange : ProxyExchange}

theorem Move.now_le (h : Move cloud a cloud') : cloud.now ≤ cloud'.now := by
  cases h with
  | tick => exact Nat.le_add_right _ _
  | settle =>
      rw [Process.setReply_now]
      exact Nat.le_refl _
  | leave =>
      rw [Process.dropQueue_now]
      exact Nat.le_refl _
  | _ => exact Nat.le_refl _

/-- An exchange was in its place before, has just been taken up, or has just been queued. -/
theorem Move.at (h : Move cloud a cloud') (hat : cloud'.At number slot exchange) :
    cloud.At number slot exchange ∨
    (slot = .running ∧ cloud.At number .queue exchange ∧
      ∀ other, ¬ cloud'.At number .queue other) ∨
    (slot = .queue ∧ ∃ proxy, cloud.proxies[exchange.reply]? = some proxy ∧
      proxy.task = .sending ⟨number⟩ exchange.request ∧ proxy.deadline = exchange.deadline ∧
      cloud'.proxies[exchange.reply]? = some { proxy with task := .waiting ⟨number⟩ }) := by
  obtain ⟨session', hsession', hslot⟩ := hat
  have hmove := h.sessionMove hsession'
  cases hmove with
  | @calm session _ hsession hcalm hrunning =>
      refine .inl ⟨session, hsession, ?_⟩
      cases slot with
      | queue => exact hcalm.queue.symm.trans hslot
      | running =>
          have hslot : session'.running = some exchange := hslot
          rcases hrunning with hsame | hnone
          · exact hsame.symm.trans hslot
          · rw [hnone] at hslot
            cases hslot
  | @admitted session queued proxy hsession hqueue hproxy htask hdeadline hnew =>
      cases slot with
      | queue =>
          cases hslot
          exact .inr (.inr ⟨rfl, proxy, hproxy, htask, hdeadline, hnew⟩)
      | running => exact .inl ⟨session, hsession, hslot⟩
  | @taken session taken requestId hsession htask hqueue _ =>
      cases slot with
      | queue => cases hslot
      | running =>
          cases hslot
          refine .inr (.inl ⟨rfl, ⟨session, hsession, hqueue⟩, ?_⟩)
          rintro other ⟨session'', hsession'', hother⟩
          rw [hsession'] at hsession''
          cases hsession''
          cases hother
  | @registered session route hsession =>
      cases slot with
      | queue => exact .inl ⟨session, hsession, hslot⟩
      | running => cases hslot
  | left => cases slot <;> cases hslot
  | connected => cases slot <;> cases hslot

/-- A released exchange is in no place any more. -/
theorem Process.QueueInvariant.not_released (h : cloud.QueueInvariant) (hmove : Move cloud a cloud')
    (hat : cloud'.At number slot exchange) (hold : ∃ slot, cloud.At number slot exchange) :
    ¬ Released cloud cloud' exchange.reply := by
  rintro ⟨n, session, session', slot', exchange', hsession, hslot, hreply, hsession', hnone, hidle⟩
  obtain ⟨slot₀, hbefore⟩ := hold
  obtain ⟨rfl, rfl⟩ := h.unique ⟨session, hsession, hslot⟩ hbefore hreply
  have hbusy : ∀ {slot exchange}, cloud'.At n slot exchange → session'.slot slot = some exchange := by
    rintro slot exchange ⟨session'', hsession'', hslot''⟩
    rw [hsession'] at hsession''
    cases hsession''
    exact hslot''
  rcases hmove.at hat with hsame | ⟨rfl, -, -⟩ | ⟨rfl, proxy, hproxy, htask, -⟩
  · obtain ⟨-, rfl⟩ := h.unique hsame hbefore rfl
    rw [hbusy hat] at hnone
    cases hnone
  · have hrunning : session'.running = some exchange := hbusy hat
    rw [hidle] at hrunning
    cases hrunning
  · obtain ⟨other, hawaits⟩ := h.awaits hbefore
    obtain rfl := Option.some.inj (hawaits.handler.symm.trans hproxy)
    have hsent := hawaits.sent
    rw [htask] at hsent
    exact hsent

/-! ## Requests stay -/

theorem Move.length_proxies (h : Move cloud a cloud') :
    cloud.proxies.length ≤ cloud'.proxies.length := by
  cases h with
  | request =>
      rw [List.length_append]
      exact Nat.le_add_right _ _
  | proxy => exact (List.length_set).ge
  | enqueue => exact (List.length_set).ge
  | settle =>
      rw [Process.length_setReply]
      exact Nat.le_refl _
  | leave =>
      rw [Process.length_dropQueue]
      exact Nat.le_refl _
  | _ => exact Nat.le_refl _

/-- A request that arrived is still there after a step. -/
theorem Move.proxy_kept (h : Move cloud a cloud') {proxy : Proxy}
    (hproxy : cloud.proxies[number]? = some proxy) :
    ∃ proxy', cloud'.proxies[number]? = some proxy' := by
  obtain ⟨hlt, -⟩ := List.getElem?_eq_some_iff.mp hproxy
  have hlt' : number < cloud'.proxies.length := Nat.lt_of_lt_of_le hlt h.length_proxies
  exact ⟨_, List.getElem?_eq_getElem hlt'⟩

/-- An answer is final. -/
theorem Move.answered_kept (h : Move cloud a cloud') {proxy : Proxy} {reply : ProxyReply}
    (hproxy : cloud.proxies[number]? = some proxy) (htask : proxy.task = .answered reply) :
    ∃ proxy', cloud'.proxies[number]? = some proxy' ∧ proxy'.task = .answered reply := by
  obtain ⟨proxy', hproxy'⟩ := h.proxy_kept hproxy
  refine ⟨proxy', hproxy', ?_⟩
  cases h.proxyStep hproxy' with
  | moved hold hmove =>
      obtain rfl := Option.some.inj (hproxy.symm.trans hold)
      cases hmove with
      | fetch hlookup => rw [htask] at hlookup; cases hlookup
      | body hreading => rw [htask] at hreading; cases hreading
      | answer hanswer => exact absurd htask (hanswer.unanswered reply)
      | drop hwaits => exact absurd htask (hwaits reply)
  | admitted hold hsending =>
      obtain rfl := Option.some.inj (hproxy.symm.trans hold)
      rw [htask] at hsending
      cases hsending
  | replied hold =>
      obtain rfl := Option.some.inj (hproxy.symm.trans hold)
      exact htask
  | arrived hlength =>
      obtain ⟨hlt, -⟩ := List.getElem?_eq_some_iff.mp hproxy
      omega

/-! ## The invariant -/

theorem Process.QueueInvariant.of_started (h : cloud.Started) : cloud.QueueInvariant where
  fresh hproxy := by
    rw [h.proxies] at hproxy
    cases hproxy
  awaits hat := by
    obtain ⟨session, hsession, -⟩ := hat
    rw [h.sessions] at hsession
    cases hsession
  unique hat := by
    obtain ⟨session, hsession, -⟩ := hat
    rw [h.sessions] at hsession
    cases hsession

theorem Process.QueueInvariant.fresh_move (h : cloud.QueueInvariant) (hmove : Move cloud a cloud')
    {proxy' : Proxy} (hproxy' : cloud'.proxies[number]? = some proxy')
    (hsent : ¬ proxy'.task.Sent) : proxy'.reply = .pending := by
  cases hmove.proxyStep hproxy' with
  | @moved proxy _ hold hstep =>
      have hfresh : ¬ proxy.task.Sent → proxy.reply = .pending := h.fresh hold
      cases hstep with
      | fetch htask _ =>
          rw [htask] at hfresh
          exact hfresh id
      | body htask =>
          rw [htask] at hfresh
          exact hfresh id
      | answer _ => exact absurd trivial hsent
      | drop _ => exact absurd trivial hsent
  | admitted _ _ => exact absurd trivial hsent
  | @replied proxy reply hold hreply =>
      rcases hreply with rfl | ⟨n, session, session', slot, exchange, hsession, hslot, rfl, -⟩
      · exact h.fresh hold hsent
      · obtain ⟨waiting, hawaits⟩ := h.awaits ⟨session, hsession, hslot⟩
        obtain rfl := Option.some.inj (hawaits.handler.symm.trans hold)
        exact absurd hawaits.sent hsent
  | arrived => rfl

/-- The request of an exchange that stays in a session awaits it after the step. -/
theorem Process.QueueInvariant.awaits_kept (h : cloud.QueueInvariant) (hmove : Move cloud a cloud')
    (hat : cloud'.At number slot exchange) (hold : ∃ slot, cloud.At number slot exchange) :
    ∃ proxy, cloud'.Awaits exchange proxy := by
  have hreleased := h.not_released hmove hat hold
  obtain ⟨slot₀, hbefore⟩ := hold
  obtain ⟨proxy, hawaits⟩ := h.awaits hbefore
  obtain ⟨proxy', hproxy'⟩ := hmove.proxy_kept hawaits.handler
  have hnow := hmove.now_le
  cases hmove.proxyStep hproxy' with
  | moved hhandler hstep =>
      obtain rfl := Option.some.inj (hawaits.handler.symm.trans hhandler)
      have hsent := hawaits.sent
      cases hstep with
      | fetch htask _ => rw [htask] at hsent; exact absurd hsent id
      | body htask => rw [htask] at hsent; exact absurd hsent id
      | answer hanswer =>
          refine ⟨_, hproxy', hawaits.deadline, trivial, hawaits.pending, ?_⟩
          intro reply htask htimeout
          cases htask
          rcases hanswer.timeout htimeout with hdeadline | ⟨-, hclosed⟩
          · exact Nat.le_trans hdeadline hnow
          · rw [hawaits.pending] at hclosed
            cases hclosed
      | drop _ => exact ⟨_, hproxy', hawaits.deadline, trivial, hawaits.pending, nofun⟩
  | admitted hhandler htask =>
      obtain rfl := Option.some.inj (hawaits.handler.symm.trans hhandler)
      have hsent := hawaits.sent
      rw [htask] at hsent
      exact absurd hsent id
  | replied hhandler hreply =>
      obtain rfl := Option.some.inj (hawaits.handler.symm.trans hhandler)
      rcases hreply with rfl | hrelease
      · exact ⟨_, hproxy', hawaits.deadline, hawaits.sent, hawaits.pending,
          fun htask htimeout => Nat.le_trans (hawaits.expired htask htimeout) hnow⟩
      · exact absurd hrelease hreleased
  | arrived hlength =>
      obtain ⟨hlt, -⟩ := List.getElem?_eq_some_iff.mp hawaits.handler
      omega

/-- A handler that still sends has no exchange in a session. -/
theorem Process.QueueInvariant.not_sending (h : cloud.QueueInvariant) {proxy : Proxy}
    {registration : RelayRegistration} {request : ProxyRequest} (hat : cloud.At number slot exchange)
    (hproxy : cloud.proxies[exchange.reply]? = some proxy) :
    proxy.task ≠ .sending registration request := by
  intro htask
  obtain ⟨other, hawaits⟩ := h.awaits hat
  obtain rfl := Option.some.inj (hawaits.handler.symm.trans hproxy)
  have hsent := hawaits.sent
  rw [htask] at hsent
  exact hsent

theorem Process.QueueInvariant.unique_move (h : cloud.QueueInvariant) (hmove : Move cloud a cloud')
    {number' : Nat} {slot' : Session.Slot} {exchange' : ProxyExchange}
    (hat : cloud'.At number slot exchange) (hat' : cloud'.At number' slot' exchange')
    (hreply : exchange.reply = exchange'.reply) : number = number' ∧ slot = slot' := by
  rcases hmove.at hat with hold | ⟨rfl, hold, hempty⟩ | ⟨rfl, proxy, hproxy, htask, -⟩
  · rcases hmove.at hat' with hold' | ⟨rfl, hold', hempty'⟩ | ⟨rfl, proxy', hproxy', htask', -⟩
    · exact h.unique hold hold' hreply
    · obtain ⟨rfl, rfl⟩ := h.unique hold hold' hreply
      exact absurd hat (hempty' _)
    · exact absurd htask' (h.not_sending hold (hreply ▸ hproxy'))
  · rcases hmove.at hat' with hold' | ⟨rfl, hold', -⟩ | ⟨rfl, proxy', hproxy', htask', -⟩
    · obtain ⟨rfl, rfl⟩ := h.unique hold hold' hreply
      exact absurd hat' (hempty _)
    · exact ⟨(h.unique hold hold' hreply).1, rfl⟩
    · exact absurd htask' (h.not_sending hold (hreply ▸ hproxy'))
  · rcases hmove.at hat' with hold' | ⟨rfl, hold', -⟩ | ⟨rfl, proxy', hproxy', htask', -⟩
    · exact absurd htask (h.not_sending hold' (hreply ▸ hproxy))
    · exact absurd htask (h.not_sending hold' (hreply ▸ hproxy))
    · rw [← hreply, hproxy] at hproxy'
      cases hproxy'
      obtain ⟨hnumber, -⟩ := ProxyTask.sending.inj (htask.symm.trans htask')
      exact ⟨RelayRegistration.mk.inj hnumber, rfl⟩

theorem Process.QueueInvariant.move (h : cloud.QueueInvariant) (hmove : Move cloud a cloud') :
    cloud'.QueueInvariant where
  fresh := h.fresh_move hmove
  awaits {number slot exchange} hat := by
    rcases hmove.at hat with hold | ⟨-, hold, -⟩ | ⟨-, proxy, hproxy, htask, hdeadline, hnew⟩
    · exact h.awaits_kept hmove hat ⟨slot, hold⟩
    · exact h.awaits_kept hmove hat ⟨.queue, hold⟩
    · have hpending : proxy.reply = .pending := h.fresh hproxy (by rw [htask]; exact id)
      exact ⟨_, hnew, hdeadline, trivial, hpending, nofun⟩
  unique := h.unique_move hmove

/-! ## The deadline of the connector -/

/-- Every `RequestStart` that is to be sent keeps to the deadline of its exchange. -/
def Process.Bounded (cloud : Process) : Prop :=
  ∀ (number : Nat) (session : Session) (exchange : ProxyExchange) (frame : RequestStartFrame),
    cloud.sessions[number]? = some session → session.WillStart exchange frame →
    frame.deadlineUnixMs.toNat * millisecond ≤ exchange.deadline

/-- The step keeps to the deadline: an exchange is taken up in the millisecond
its request arrived in, and its `RequestStart` is sent before the deadline. -/
def Prompt (cloud : Process) : Action → Process → Prop
  | .session number (.take _), _ =>
      ∀ session exchange, cloud.sessions[number]? = some session →
        session.queue = some exchange →
        cloud.now / millisecond * millisecond + 30 * second ≤ exchange.deadline
  | .session number .send, _ =>
      ∀ session exchange frame, cloud.sessions[number]? = some session →
        session.startsNext = some (exchange, frame) → cloud.now < exchange.deadline
  | _, _ => True

/-- The deadline of the connector, counted in nanoseconds. -/
theorem deadlineUnixMs_le (now : Nat) :
    (deadlineUnixMs now).toNat * millisecond ≤ now / millisecond * millisecond + 30 * second := by
  have hmod : (deadlineUnixMs now).toNat ≤ max 1 ((now + 30 * second) / millisecond) := by
    unfold deadlineUnixMs
    rw [UInt64.toNat_ofNat']
    exact Nat.mod_le _ _
  have hquotient : (now + 30 * second) / millisecond = now / millisecond + 30000 := by
    unfold second millisecond
    omega
  have hms : (deadlineUnixMs now).toNat ≤ now / millisecond + 30000 := by
    rw [hquotient] at hmod
    generalize now / millisecond = n at hmod ⊢
    omega
  calc (deadlineUnixMs now).toNat * millisecond
      ≤ (now / millisecond + 30000) * millisecond := Nat.mul_le_mul_right _ hms
    _ = now / millisecond * millisecond + 30 * second := by rw [Nat.add_mul]; rfl

/-- An exchange that is taken up has its `RequestStart` with the new deadline. -/
theorem Session.willStart_take {session : Session} {now : Nat} {taken : ProxyExchange}
    {requestId : Uuid} {frame : RequestStartFrame}
    (h : (session.take now taken requestId).WillStart exchange frame) :
    exchange = taken ∧ frame.deadlineUnixMs = deadlineUnixMs now := by
  obtain ⟨id, frames, htask, hmem⟩ := h
  obtain ⟨rfl, -, hsending⟩ := SessionTask.executing.inj htask
  refine ⟨rfl, ?_⟩
  unfold executeExchange at hsending
  dsimp only at hsending
  split at hsending
  next => cases hsending
  next start hstart =>
    cases hsending
    obtain ⟨-, hdeadline, -⟩ := Tunnel.startFrame_eq hstart
    rcases control_mem_requestFrames hmem with hframe | hend
    · cases hframe
      exact hdeadline
    · cases hend

theorem Process.Bounded.move (h : cloud.Bounded) (hmove : Move cloud a cloud')
    (hprompt : Prompt cloud a cloud') : cloud'.Bounded := by
  intro number session' exchange frame hsession' hwill
  cases hmove.sessionMove hsession' with
  | calm hold hcalm _ => exact h _ _ _ _ hold (hcalm.willStart hwill)
  | admitted hold => exact h _ _ _ _ hold hwill
  | taken hold htask hqueue ha =>
      subst ha
      obtain ⟨rfl, hdeadline⟩ := Session.willStart_take hwill
      rw [hdeadline]
      exact Nat.le_trans (deadlineUnixMs_le _) (hprompt _ _ hold hqueue)
  | registered => exact absurd hwill.running nofun
  | left => exact absurd hwill.running nofun
  | connected => exact absurd hwill.running nofun

end

/-! ## Runs -/

/-- A request that was answered with a timeout is not started, and no
`RequestStart` has a later deadline than its exchange. -/
structure OneDeadline (tr : List (Event Process Action)) : Prop where
  silent : tr.Pairwise fun e later => ∀ number reply, answered e = some (number, reply) →
    reply.IsTimeout → ∀ session exchange frame,
    startSent later = some (session, exchange, frame) → exchange.reply ≠ number
  bounded : ∀ e ∈ tr, ∀ session exchange frame, startSent e = some (session, exchange, frame) →
    frame.deadlineUnixMs.toNat * millisecond ≤ exchange.deadline

/-- What has been answered with a timeout stays so, up to the state of a run. -/
structure Expires (tr : List (Event Process Action)) (cloud : Process) : Prop where
  queue : cloud.QueueInvariant
  bounded : cloud.Bounded
  answered : ∀ e ∈ tr, ∀ number reply, answered e = some (number, reply) →
    ∃ proxy, cloud.proxies[number]? = some proxy ∧ proxy.task = .answered reply
  law : OneDeadline tr

section

variable {cloud cloud' : Process} {a : Action} {tr : List (Event Process Action)}

theorem Expires.of_started (h : cloud.Started) : Expires [] cloud where
  queue := .of_started h
  bounded := by
    intro number session exchange frame hsession
    rw [h.sessions] at hsession
    cases hsession
  answered := by
    intro e he
    cases he
  law := by
    refine ⟨.nil, ?_⟩
    intro e he
    cases he

/-- The exchange of a `RequestStart` has a request that was not answered with a timeout. -/
theorem Expires.silent (h : Expires tr cloud) (hprompt : Prompt cloud a cloud')
    {session : Session} {exchange : ProxyExchange} {frame : RequestStartFrame}
    (hstart : startSent ⟨cloud, a, cloud'⟩ = some (session, exchange, frame))
    {e : Event Process Action} (he : e ∈ tr) {reply : ProxyReply}
    (hanswered : Cloud.answered e = some (exchange.reply, reply)) : ¬ reply.IsTimeout := by
  intro htimeout
  obtain ⟨number, hlabel, hsession, hnext⟩ := startSent_eq_some hstart
  have hrunning := (Session.willStart_of_startsNext hnext).running
  have hat : cloud.At number .running exchange := ⟨session, hsession, hrunning⟩
  obtain ⟨proxy, hawaits⟩ := h.queue.awaits hat
  obtain ⟨proxy', hproxy, htask⟩ := h.answered e he _ _ hanswered
  obtain rfl := Option.some.inj (hawaits.handler.symm.trans hproxy)
  have hexpired : proxy.deadline ≤ cloud.now := hawaits.expired htask htimeout
  rw [hawaits.deadline] at hexpired
  have hlabel : a = .session number .send := hlabel
  subst hlabel
  have hnow : cloud.now < exchange.deadline := hprompt _ _ _ hsession hnext
  omega

theorem Expires.step (h : Expires tr cloud) (hmove : Move cloud a cloud')
    (hprompt : Prompt cloud a cloud') : Expires (tr ++ [⟨cloud, a, cloud'⟩]) cloud' where
  queue := h.queue.move hmove
  bounded := h.bounded.move hmove hprompt
  answered := by
    refine Transition.forall_mem_snoc ?_ ?_
    · intro e hold number reply hanswered
      obtain ⟨proxy, hproxy, htask⟩ := h.answered e hold number reply hanswered
      exact hmove.answered_kept hproxy htask
    · intro number reply hanswered
      exact answered_eq_some hanswered
  law := by
    refine ⟨?_, ?_⟩
    · refine Transition.pairwise_snoc h.law.silent ?_
      intro e he number reply hanswered htimeout session exchange frame hstart hreply
      subst hreply
      exact h.silent hprompt hstart he hanswered htimeout
    · refine Transition.forall_mem_snoc ?_ ?_
      · intro e hold session exchange frame hstart
        exact h.law.bounded e hold session exchange frame hstart
      · intro session exchange frame hstart
        obtain ⟨number, -, hsession, hnext⟩ := startSent_eq_some hstart
        exact h.bounded _ _ _ _ hsession (Session.willStart_of_startsNext hnext)

end

/-- In every run whose steps keep to the deadlines, a request that was answered
with a timeout is not started, and no `RequestStart` has a later deadline than
its exchange. -/
theorem one_deadline_of_prompt (codec : ControlCodec) (hash : List UInt8 → String)
    {cloud cloud' : Process} {tr : List (Event Process Action)} (hstart : cloud.Started)
    (hrun : ((Process.system codec hash).restrict Prompt).Run cloud tr cloud') :
    OneDeadline tr := by
  have hexpires : Expires tr cloud' := by
    refine hrun.history (.of_started hstart) ?_
    intro tr t a u _ hexpires hstep
    exact hexpires.step (step_move hstep.1) hstep.2
  exact hexpires.law

/-! ### Two requests -/

/-- The check of `Prompt` on a state. -/
def isPrompt (cloud : Process) : Action → Bool
  | .session number (.take _) =>
      (cloud.sessions[number]?).all fun session => session.queue.all fun exchange =>
        decide (cloud.now / millisecond * millisecond + 30 * second ≤ exchange.deadline)
  | .session number .send =>
      (cloud.sessions[number]?).all fun session => session.startsNext.all fun (exchange, _) =>
        decide (cloud.now < exchange.deadline)
  | _ => true

theorem Prompt.of_isPrompt {cloud cloud' : Process} {a : Action} (h : isPrompt cloud a = true) :
    Prompt cloud a cloud' := by
  unfold isPrompt at h
  split at h
  next number _ =>
    intro session exchange hsession hqueue
    rw [hsession, Option.all_some, hqueue, Option.all_some] at h
    exact of_decide_eq_true h
  next number =>
    intro session exchange frame hsession hnext
    rw [hsession, Option.all_some, hnext, Option.all_some] at h
    exact of_decide_eq_true h
  next htake hsend =>
    unfold Prompt
    split
    next => exact absurd rfl (htake _ _)
    next => exact absurd rfl (hsend _)
    next => trivial

/-- A request is taken up when it arrives. -/
def promptSteps : List Action :=
  connectSteps ++ [.request "home" (getRequest "now"), .proxy 0 .lookup, .proxy 0 (.body []),
    .proxy 0 .send, .session 0 (.take 5), .session 0 .send]

theorem one_deadline_promptSteps : OneDeadline (eventsOf promptSteps) ∧
    ∃ e ∈ eventsOf promptSteps, (startSent e).isSome := by
  refine ⟨?_, by decide⟩
  obtain ⟨cloud', hrun⟩ : ∃ cloud', (Process.system sampleCodec sampleHash).Run emptyCloud
      (eventsOf promptSteps) cloud' := System.Run.events (by decide)
  have hprompt : ∀ e ∈ eventsOf promptSteps, isPrompt e.pre e.label = true := by decide
  exact one_deadline_of_prompt sampleCodec sampleHash emptyCloud_started
    (hrun.restrict fun e he => .of_isPrompt (hprompt e he))

/-- The frames of a connector that answers request `5`. -/
def answerFrames : List RelayControlFrame :=
  sampleFrames ++ [.responseStart ⟨5, 200, []⟩, .responseEnd ⟨5⟩]

/-- JSON, read for these frames. -/
def answeringCodec : ControlCodec :=
  jsonCodec fun text => answerFrames.find? fun frame => frame.toJson.render = text

/-- The first request waits for its body.  The second one arrives 28 seconds
later and occupies the session for 12 seconds; in the meantime the first is
queued and answered with a timeout. -/
def overtakenSteps : List Action :=
  connectSteps ++ [.request "home" (getRequest "slow"), .proxy 0 .lookup, .tick (28 * second),
    .request "home" (getRequest "busy"), .proxy 1 .lookup, .proxy 1 (.body []), .proxy 1 .send,
    .session 0 (.take 5), .session 0 .send, .session 0 .send, .tick second,
    .proxy 0 (.body []), .proxy 0 .send, .tick second, .proxy 0 .receiveTimeout,
    .tick (10 * second),
    .session 0 (.receive (.text (answeringCodec.toString (.responseStart ⟨5, 200, []⟩)))),
    .session 0 (.receive (.text (answeringCodec.toString (.responseEnd ⟨5⟩)))),
    .session 0 .finish, .session 0 (.take 6), .session 0 .send]

def overtakenEvents : List (Event Process Action) :=
  System.events (Process.step answeringCodec sampleHash) emptyCloud overtakenSteps

/-- The request is started ten seconds after it was answered with a timeout,
and the connector is given another 30 seconds. -/
theorem not_one_deadline : ∃ cloud',
    (Process.system answeringCodec sampleHash).Run emptyCloud overtakenEvents cloud' ∧
    overtakenEvents[18]?.bind answered = some (0, replyTimeout) ∧
    (overtakenEvents[24]?.bind startSent).map
      (fun sent => (sent.2.1.reply, sent.2.1.deadline,
        sent.2.2.deadlineUnixMs.toNat * millisecond)) =
      some (0, 30 * second, 70 * second) ∧
    ¬ OneDeadline overtakenEvents := by
  obtain ⟨cloud', hrun⟩ : ∃ cloud', (Process.system answeringCodec sampleHash).Run emptyCloud
      overtakenEvents cloud' := System.Run.events (by decide +kernel)
  have hanswered : overtakenEvents[18]?.bind answered = some (0, replyTimeout) := by decide +kernel
  have hstarted : (overtakenEvents[24]?.bind startSent).map
      (fun sent => (sent.2.1.reply, sent.2.1.deadline,
        sent.2.2.deadlineUnixMs.toNat * millisecond)) =
      some (0, 30 * second, 70 * second) := by decide +kernel
  refine ⟨cloud', hrun, hanswered, hstarted, fun h => ?_⟩
  obtain ⟨start, hstart, hvalues⟩ := Option.map_eq_some_iff.mp hstarted
  obtain ⟨session, exchange, frame⟩ := start
  obtain ⟨e, he, hsent⟩ := Option.bind_eq_some_iff.mp hstart
  have hbound := h.bounded e (List.mem_of_getElem? he) session exchange frame hsent
  obtain ⟨-, hvalues⟩ := Prod.mk.inj hvalues
  obtain ⟨hdeadline, hlate⟩ := Prod.mk.inj hvalues
  rw [hdeadline, hlate] at hbound
  exact absurd hbound (by decide)

end Cresix.Cloud
