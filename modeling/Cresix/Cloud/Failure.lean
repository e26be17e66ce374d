import Cresix.Cloud.Deadline
import Cresix.Cloud.Revocation

/-!
# A failed exchange

The loop of a session ends with the first exchange that fails, whether or not
the two ends still agree on the protocol.  The client is answered with an
error, and the next request finds no session.

`Ending` follows such a session: its exchange has failed and nobody knows yet,
or the handler has been told and the session has left its loop for good.
-/

namespace Cresix.Cloud

open Relay
open Relay.RelaySessionState (Accepted)
open Rust (Uuid)
open Transition (System Event)

/-! ## The handshake -/

/-- The session has done the handshake and no exchange has failed in it. -/
def Session.Busy (session : Session) : Prop :=
  match session.task with
  | .registering | .idle | .executing _ _ (.sending _) | .executing _ _ (.receiving _ _ _) => True
  | _ => False

/-- A session that works has a protocol that is ready. -/
def Session.Greeted (session : Session) : Prop :=
  session.Busy → session.protocol.handshake = .ready

section

variable {session : Session} {codec : ControlCodec}

theorem Session.greeted_greet {authorization : String} (message : Message) :
    (session.greet codec authorization message).Greeted := by
  unfold greet
  repeat' split
  all_goals try exact fun hbusy => absurd hbusy id
  next hready =>
    intro _
    cases RelaySessionState.accepted_of_observeControl hready with
    | serverReady => rfl
    | move _ _ hid => cases hid
    | finish _ _ hid => cases hid

theorem Session.greeted_receive (hgreeted : session.Greeted) (htask : session.task = .idle)
    (message : Message) : (session.receive codec message).Greeted := by
  have hready : session.protocol.handshake = .ready := hgreeted (by simp [Busy, htask])
  unfold receive
  repeat' split
  all_goals try exact fun hbusy => absurd hbusy id
  · exact hgreeted
  next hping _ _ hpong =>
    intro _
    have hpinged := (RelaySessionState.accepted_of_observeControl hping).handshake_eq hready
    exact (RelaySessionState.accepted_of_observeControl hpong).handshake_eq hpinged

/-- A frame that is sent leaves the handshake done. -/
theorem Session.greeted_send {exchange : ProxyExchange} {requestId : Uuid} {frame : Frame}
    {rest : List Frame} (hgreeted : session.Greeted)
    (htask : session.task = .executing exchange requestId (.sending (frame :: rest))) :
    (session.execute exchange (RelayEnd.send codec
      ⟨session.protocol, requestId, .sending (frame :: rest)⟩ frame rest).1).Greeted := by
  have hready : session.protocol.handshake = .ready := hgreeted (by simp [Busy, htask])
  unfold RelayEnd.send
  split
  next => exact fun hbusy => absurd hbusy id
  next hobserve =>
    split
    next => exact fun hbusy => absurd hbusy id
    next => exact fun _ => (Accepted.of_observe hobserve).handshake_eq hready

theorem RelayEnd.receiveControl_handshake {relay : RelayEnd} {status : Option UInt16}
    {headers : List HeaderField} {body : List UInt8} (frame : RelayControlFrame)
    (hready : relay.state.handshake = .ready) :
    (relay.receiveControl codec status headers body frame).1.state.handshake = .ready ∨
      ∃ error, (relay.receiveControl codec status headers body frame).1.task =
        .returned (.error error) := by
  unfold RelayEnd.receiveControl
  repeat' split
  all_goals first
    | exact .inr ⟨_, rfl⟩
    | exact .inl hready
    | skip
  next hpong =>
    exact .inl ((RelaySessionState.accepted_of_observeControl hpong).handshake_eq hready)

/-- A message that does not end the exchange leaves the handshake done. -/
theorem Session.greeted_receiveExchange {exchange : ProxyExchange} {requestId : Uuid}
    {status : Option UInt16} {headers : List HeaderField} {body : List UInt8}
    (hgreeted : session.Greeted)
    (htask : session.task = .executing exchange requestId (.receiving status headers body))
    (message : Message) :
    (session.execute exchange (RelayEnd.receive codec
      ⟨session.protocol, requestId, .receiving status headers body⟩
      status headers body message).1).Greeted := by
  have hready : session.protocol.handshake = .ready := hgreeted (by simp [Busy, htask])
  have hreceived : ∀ relay : RelayEnd, (relay.state.handshake = .ready ∨
      ∃ error, relay.task = .returned (.error error)) → (session.execute exchange relay).Greeted := by
    rintro relay (hready | ⟨error, herror⟩) hbusy
    · exact hready
    · simp [Busy, execute, herror] at hbusy
  refine hreceived _ ?_
  unfold RelayEnd.receive
  repeat' split
  all_goals first
    | exact .inr ⟨_, rfl⟩
    | exact .inl hready
    | skip
  next hobserve =>
    exact RelayEnd.receiveControl_handshake _
      ((RelaySessionState.accepted_of_observeControl hobserve).handshake_eq hready)
  next hobserve _ =>
    exact .inl ((RelaySessionState.accepted_of_observeBody hobserve).handshake_eq hready)

theorem Session.greeted_afterExchange (session : Session) (result : Except String ProxyResult) :
    (session.afterExchange result).Greeted := by
  unfold afterExchange
  split
  next => exact fun hbusy => absurd hbusy id
  next =>
    split
    next hready => exact fun _ => of_decide_eq_true hready
    next => exact fun hbusy => absurd hbusy id

theorem Session.greeted_take {exchange : ProxyExchange} {requestId : Uuid} {now : Nat}
    (hgreeted : session.Greeted) (htask : session.task = .idle) :
    (session.take now exchange requestId).Greeted :=
  fun _ => hgreeted (by simp [Busy, htask])

end

/-! ## What a step leaves alone -/

section

variable {codec : ControlCodec} {hash : List UInt8 → String} {cloud cloud' : Process}
variable {number other : Nat} {session : Session} {proxy : Proxy}

/-- A handler changes nothing of a session but its queue. -/
theorem stepProxy_session {action : ProxyAction}
    (h : cloud.stepProxy number proxy action = some cloud')
    (hsession : cloud.sessions[other]? = some session) :
    ∃ queue, cloud'.sessions[other]? = some { session with queue } := by
  cases action with
  | send =>
      simp only [Process.stepProxy] at h
      split at h
      next registration request _ =>
        split at h
        next admitting hadmitting =>
          split_ifs at h
          cases h
          obtain ⟨hold, -⟩ := receiver_eq_some hadmitting
          rcases eq_or_ne other registration.sessionId with rfl | hne
          · obtain rfl := Option.some.inj (hold.symm.trans hsession)
            exact ⟨_, Process.setSession_self hold _⟩
          · exact ⟨session.queue, (Process.setSession_of_ne hne _).trans hsession⟩
        next => cases h
      next => cases h
  | _ =>
      simp only [Process.stepProxy] at h
      repeat' split at h
      all_goals cases h
      all_goals exact ⟨session.queue, hsession⟩

/-- A session changes no other session. -/
theorem stepSession_other {action : SessionAction} (hne : other ≠ number)
    (h : cloud.stepSession codec number session action = some cloud') :
    cloud'.sessions[other]? = cloud.sessions[other]? := by
  cases action <;> simp only [Process.stepSession] at h
  all_goals
    repeat' split at h
  all_goals cases h
  all_goals
    try simp only [Process.setReply_sessions, Process.dropQueue_sessions]
    exact Process.setSession_of_ne hne _

/-- Only its own steps change more of a session than its queue. -/
theorem step_session {a : Action} (h : Process.step codec hash cloud a = some cloud')
    (hother : ∀ action, a ≠ .session number action)
    (hsession : cloud.sessions[number]? = some session) :
    ∃ queue, cloud'.sessions[number]? = some { session with queue } := by
  have kept : cloud'.sessions[number]? = cloud.sessions[number]? →
      ∃ queue, cloud'.sessions[number]? = some { session with queue } :=
    fun hsame => ⟨session.queue, hsame.trans hsession⟩
  cases a with
  | tick time => cases h; exact kept rfl
  | registerInstallation =>
      obtain ⟨db, -, rfl⟩ := Option.map_eq_some_iff.mp h
      exact kept rfl
  | revoke account id =>
      simp only [Process.step] at h
      repeat' split at h
      all_goals cases h
      exact kept rfl
  | revoked =>
      simp only [Process.step] at h
      split at h
      all_goals cases h
      exact kept rfl
  | request => cases h; exact kept rfl
  | proxy other action =>
      simp only [Process.step] at h
      split at h
      next => exact stepProxy_session h hsession
      next => cases h
  | connect token =>
      simp only [Process.step] at h
      split at h
      all_goals cases h
      obtain ⟨hlt, -⟩ := List.getElem?_eq_some_iff.mp hsession
      exact kept (List.getElem?_append_left hlt)
  | session other action =>
      simp only [Process.step] at h
      split at h
      next =>
        refine kept (stepSession_other ?_ h)
        rintro rfl
        exact hother action rfl
      next => cases h

/-- An exchange that has failed is only reported. -/
theorem stepSession_failed {action : SessionAction} {exchange : ProxyExchange} {requestId : Uuid}
    {message : String}
    (htask : session.task = .executing exchange requestId (.returned (.error message)))
    (h : cloud.stepSession codec number session action = some cloud') :
    cloud' = (cloud.setSession number { session with task := .closing }).setReply exchange
      (.sent (.error message)) := by
  cases action <;> simp only [Process.stepSession, htask] at h
  all_goals first
    | cases h; rfl
    | cases h

/-- The steps of a session keep the handshake done. -/
theorem stepSession_greeted {action : SessionAction}
    (hsession : cloud.sessions[number]? = some session) (hgreeted : session.Greeted)
    (h : cloud.stepSession codec number session action = some cloud') :
    ∃ session', cloud'.sessions[number]? = some session' ∧ session'.Greeted := by
  have idle : ∀ {next : Session}, ¬ next.Busy → next.Greeted :=
    fun hidle hbusy => absurd hbusy hidle
  have set : ∀ {next : Session}, next.Greeted →
      ∃ session', (cloud.setSession number next).sessions[number]? = some session' ∧
        session'.Greeted :=
    fun hnext => ⟨_, Process.setSession_self hsession _, hnext⟩
  cases action with
  | hello message =>
      simp only [Process.stepSession] at h
      split at h
      all_goals cases h
      exact set (Session.greeted_greet message)
  | abort =>
      simp only [Process.stepSession] at h
      split at h
      all_goals cases h
      all_goals exact set (idle id)
  | register =>
      simp only [Process.stepSession] at h
      split at h
      next htask =>
        repeat' split at h
        all_goals cases h
        · exact set (idle id)
        · exact ⟨_, Process.setSession_self hsession _,
            fun _ => hgreeted (by simp [Session.Busy, htask])⟩
      next => cases h
  | take requestId =>
      simp only [Process.stepSession] at h
      split at h
      next htask _ =>
        cases h
        exact set (Session.greeted_take hgreeted htask)
      next => cases h
  | send =>
      simp only [Process.stepSession] at h
      split at h
      next htask =>
        cases h
        exact set (Session.greeted_send hgreeted htask)
      next => cases h
  | receive message =>
      simp only [Process.stepSession] at h
      split at h
      next htask =>
        cases h
        exact set (Session.greeted_receiveExchange hgreeted htask message)
      next => cases h
  | lost =>
      simp only [Process.stepSession] at h
      split at h
      all_goals cases h
      all_goals exact set (idle id)
  | finish =>
      simp only [Process.stepSession] at h
      split at h
      all_goals cases h
      simp only [Process.setReply_sessions]
      exact set (session.greeted_afterExchange _)
  | timeout =>
      simp only [Process.stepSession] at h
      repeat' split at h
      all_goals cases h
      simp only [Process.setReply_sessions]
      exact set (idle id)
  | message message =>
      simp only [Process.stepSession] at h
      split at h
      next htask =>
        cases h
        exact set (Session.greeted_receive hgreeted htask message)
      next => cases h
  | noSenders =>
      simp only [Process.stepSession] at h
      repeat' split at h
      all_goals cases h
      exact set (idle id)
  | unregister =>
      simp only [Process.stepSession] at h
      repeat' split at h
      all_goals cases h
      · exact ⟨_, Process.setSession_self hsession _, idle id⟩
      · exact set (idle id)
  | disconnected =>
      simp only [Process.stepSession] at h
      split at h
      all_goals cases h
      simp only [Process.dropQueue_sessions]
      exact ⟨_, Process.setSession_self hsession _, idle id⟩

end

/-! ## The invariant -/

/-- A registration of a session is on the route the session was given. -/
def Process.Routed (cloud : Process) : Prop :=
  ∀ route registration, cloud.relays.lookup route = some registration →
    ∃ session, cloud.sessions[registration.sessionId]? = some session ∧ session.Joined ∧
      session.route = some route

/-- Only a result is answered with something else than an error. -/
def Process.Honest (cloud : Process) : Prop :=
  ∀ (number : Nat) (proxy : Proxy) (reply : ProxyReply), cloud.proxies[number]? = some proxy →
    proxy.task = .answered reply → ¬ reply.IsError → ∃ result, proxy.reply = .sent (.ok result)

/-- What every state of a run satisfies. -/
structure Process.Sound (cloud : Process) : Prop where
  queue : cloud.QueueInvariant
  honest : cloud.Honest
  routed : cloud.Routed
  greeted : ∀ (number : Nat) (session : Session), cloud.sessions[number]? = some session →
    session.Greeted

section

variable {codec : ControlCodec} {hash : List UInt8 → String} {cloud cloud' : Process}
variable {a : Action} {number : Nat} {exchange : ProxyExchange}

theorem Process.Sound.of_started (h : cloud.Started) : cloud.Sound where
  queue := .of_started h
  honest := by
    intro number proxy reply hproxy
    rw [h.proxies] at hproxy
    cases hproxy
  routed := by
    intro route registration hlookup
    rw [h.relays] at hlookup
    exact absurd hlookup (by simp)
  greeted := by
    intro number session hsession
    rw [h.sessions] at hsession
    cases hsession

/-- What is released was pending. -/
theorem Process.QueueInvariant.pending_of_released (h : cloud.QueueInvariant) {proxy : Proxy}
    (hreleased : Released cloud cloud' number) (hproxy : cloud.proxies[number]? = some proxy) :
    proxy.reply = .pending := by
  obtain ⟨n, session, session', slot, exchange, hsession, hslot, rfl, -⟩ := hreleased
  obtain ⟨waiting, hawaits⟩ := h.awaits ⟨session, hsession, hslot⟩
  obtain rfl := Option.some.inj (hawaits.handler.symm.trans hproxy)
  exact hawaits.pending

theorem Process.Honest.move (h : cloud.Honest) (hqueue : cloud.QueueInvariant)
    (hmove : Move cloud a cloud') : cloud'.Honest := by
  intro number proxy' reply hproxy' htask herror
  cases hmove.proxyStep hproxy' with
  | moved hold hstep =>
      cases hstep with
      | fetch => cases htask
      | body => cases htask
      | answer hanswer =>
          cases htask
          exact hanswer.result herror
      | drop => cases htask
  | admitted => cases htask
  | replied hold hreply =>
      obtain ⟨result, hresult⟩ := h _ _ reply hold htask herror
      rcases hreply with rfl | hreleased
      · exact ⟨result, hresult⟩
      · rw [hqueue.pending_of_released hreleased hold] at hresult
        cases hresult
  | arrived => cases htask

theorem Process.Routed.move (h : cloud.Routed) (hmove : Move cloud a cloud') : cloud'.Routed := by
  intro route registration hlookup
  rcases hmove.lookup_relays hlookup with hold | ⟨session, -, -, -, -, hsession⟩
  · obtain ⟨session, hsession, hjoined, hroute⟩ := h route registration hold
    obtain ⟨session', hsession', -, hkept⟩ := hmove.session_kept hsession
    refine ⟨session', hsession', hkept hjoined, ?_⟩
    cases hmove.sessionMove hsession' with
    | calm hbefore hcalm =>
        obtain rfl := Option.some.inj (hbefore.symm.trans hsession)
        exact hcalm.route.trans hroute
    | admitted hbefore =>
        obtain rfl := Option.some.inj (hbefore.symm.trans hsession)
        exact hroute
    | taken hbefore =>
        obtain rfl := Option.some.inj (hbefore.symm.trans hsession)
        exact hroute
    | registered hbefore htask =>
        obtain rfl := Option.some.inj (hbefore.symm.trans hsession)
        simp [Session.Joined, htask] at hjoined
    | left hbefore =>
        obtain rfl := Option.some.inj (hbefore.symm.trans hsession)
        exact hroute
    | connected hlength =>
        obtain ⟨hlt, -⟩ := List.getElem?_eq_some_iff.mp hsession
        omega
  · exact ⟨_, hsession, trivial, rfl⟩

/-- A session is an old one, or it waits for its hello. -/
theorem Move.session_old (hmove : Move cloud a cloud') {session' : Session}
    (hsession' : cloud'.sessions[number]? = some session') :
    (∃ session, cloud.sessions[number]? = some session) ∨ ¬ session'.Busy := by
  cases hmove.sessionMove hsession' with
  | calm hold => exact .inl ⟨_, hold⟩
  | admitted hold => exact .inl ⟨_, hold⟩
  | taken hold => exact .inl ⟨_, hold⟩
  | registered hold => exact .inl ⟨_, hold⟩
  | left hold => exact .inl ⟨_, hold⟩
  | connected => exact .inr id

theorem Process.Sound.step (h : cloud.Sound)
    (hstep : Process.step codec hash cloud a = some cloud') : cloud'.Sound where
  queue := h.queue.move (step_move hstep)
  honest := h.honest.move h.queue (step_move hstep)
  routed := h.routed.move (step_move hstep)
  greeted := by
    intro number session' hsession'
    rcases (step_move hstep).session_old hsession' with ⟨session, hsession⟩ | hidle
    · have hgreeted := h.greeted number session hsession
      by_cases hown : ∃ action, a = .session number action
      · obtain ⟨action, rfl⟩ := hown
        simp only [Process.step, hsession] at hstep
        obtain ⟨next, hnext, hkept⟩ := stepSession_greeted hsession hgreeted hstep
        obtain rfl := Option.some.inj (hnext.symm.trans hsession')
        exact hkept
      · obtain ⟨queue, hsame⟩ :=
          step_session hstep (fun action heq => hown ⟨action, heq⟩) hsession
        obtain rfl := Option.some.inj (hsame.symm.trans hsession')
        exact hgreeted
    · exact fun hbusy => absurd hbusy hidle

end

/-! ## Failures -/

/-- The exchange of a session fails in the event, and both ends agree on the protocol. -/
inductive AgreedFailure (codec : ControlCodec) (e : Event Process Action) (number : Nat)
    (exchange : ProxyExchange) : Prop where
  /-- The validation of the frames rejects the exchange before anything of it is sent. -/
  | rejected {session : Session} {requestId : Uuid} {frame : RequestStartFrame}
      {rest : List Frame} :
      e.label = .session number .send → e.pre.sessions[number]? = some session →
      session.task = .executing exchange requestId (.sending (.control (.requestStart frame) :: rest)) →
      frame.validate ≠ .ok () →
      AgreedFailure codec e number exchange
  /-- The connector answers with `RequestFailed` before the deadline. -/
  | answered {session : Session} {status : Option UInt16} {headers : List HeaderField}
      {body : List UInt8} {text : String} {frame : RequestFailedFrame} :
      e.label = .session number (.receive (.text text)) →
      e.pre.sessions[number]? = some session →
      session.task = .executing exchange frame.requestId (.receiving status headers body) →
      codec.fromStr text = some (.requestFailed frame) →
      (session.protocol.observeControl (.requestFailed frame)).1 = .ok () →
      e.pre.now < exchange.deadline →
      AgreedFailure codec e number exchange

/-- The exchange has failed: the session is about to report it, or the handler
has the error and the session has left its loop. -/
inductive Process.Ending (cloud : Process) (number : Nat) (exchange : ProxyExchange)
    (message : String) : Prop where
  | failing {session : Session} {requestId : Uuid} :
      cloud.sessions[number]? = some session →
      session.task = .executing exchange requestId (.returned (.error message)) →
      Ending cloud number exchange message
  | ended {session : Session} {proxy : Proxy} :
      cloud.sessions[number]? = some session → session.Joined → ¬ session.Serving →
      cloud.proxies[exchange.reply]? = some proxy → proxy.reply = .sent (.error message) →
      Ending cloud number exchange message

section

variable {codec : ControlCodec} {hash : List UInt8 → String} {cloud cloud' : Process}
variable {a : Action} {number : Nat} {exchange : ProxyExchange} {message : String}
variable {e : Event Process Action}

theorem RelayEnd.receiveControl_failed {s : RelayEnd} (codec : ControlCodec)
    (status : Option UInt16) (headers : List HeaderField) (body : List UInt8)
    (frame : RequestFailedFrame) (hid : frame.requestId = s.requestId) :
    ∃ error, s.receiveControl codec status headers body (.requestFailed frame) = s.fail error := by
  simp only [RelayEnd.receiveControl, if_pos hid]
  split
  next => exact ⟨_, rfl⟩
  next => exact ⟨_, rfl⟩

/-- Such a failure leaves the protocol ready. -/
theorem AgreedFailure.fails (h : AgreedFailure codec e number exchange) (hsound : e.pre.Sound)
    (hstep : Process.step codec hash e.pre e.label = some e.post) :
    ∃ session requestId message, e.post.sessions[number]? = some session ∧
      session.task = .executing exchange requestId (.returned (.error message)) ∧
      session.protocol.isReady = true := by
  cases h with
  | @rejected session requestId frame rest hlabel hsession htask hinvalid =>
      have hready : session.protocol.handshake = .ready :=
        hsound.greeted _ _ hsession (by simp [Session.Busy, htask])
      obtain ⟨error, herror⟩ : ∃ error, frame.validate = .error error := by
        cases hvalidate : frame.validate with
        | error error => exact ⟨error, rfl⟩
        | ok _ => exact absurd hvalidate hinvalid
      have hobserve : session.protocol.observe (.control (.requestStart frame)) =
          (.error error, session.protocol) := by
        simp [RelaySessionState.observe, RelaySessionState.observeControl, hready,
          RelaySessionState.observeReadyControl, herror]
      rw [hlabel] at hstep
      simp only [Process.step, hsession, Process.stepSession, htask, RelayEnd.send,
        hobserve, Option.some.injEq] at hstep
      refine ⟨_, requestId, _, hstep ▸ Process.setSession_self hsession _, rfl, ?_⟩
      exact decide_eq_true hready
  | @answered session status headers body text frame hlabel hsession htask htext hok _ =>
      have hready : session.protocol.handshake = .ready :=
        hsound.greeted _ _ hsession (by simp [Session.Busy, htask])
      obtain ⟨protocol, hobserve⟩ : ∃ protocol,
          session.protocol.observeControl (.requestFailed frame) = (.ok (), protocol) :=
        ⟨_, Prod.ext hok rfl⟩
      have hready' : protocol.isReady = true := decide_eq_true
        ((RelaySessionState.accepted_of_observeControl hobserve).handshake_eq hready)
      obtain ⟨error, herror⟩ := RelayEnd.receiveControl_failed
        (s := ⟨protocol, frame.requestId, .receiving status headers body⟩) codec status headers
        body frame rfl
      rw [hlabel] at hstep
      simp only [Process.step, hsession, Process.stepSession, htask, RelayEnd.receive, htext,
        hobserve, herror, Option.some.injEq] at hstep
      exact ⟨_, frame.requestId, error, hstep ▸ Process.setSession_self hsession _, rfl, hready'⟩

/-- A session that has left its loop does not come back to it. -/
theorem Move.not_serving (hmove : Move cloud a cloud') {session : Session}
    (hsession : cloud.sessions[number]? = some session) (hjoined : session.Joined)
    (hended : ¬ session.Serving) :
    ∃ session', cloud'.sessions[number]? = some session' ∧ session'.Joined ∧
      ¬ session'.Serving := by
  obtain ⟨session', hsession', -, hkept⟩ := hmove.session_kept hsession
  refine ⟨session', hsession', hkept hjoined, ?_⟩
  cases hmove.sessionMove hsession' with
  | calm hold hcalm =>
      obtain rfl := Option.some.inj (hold.symm.trans hsession)
      exact fun hserving => hended (hcalm.serving hserving)
  | admitted hold =>
      obtain rfl := Option.some.inj (hold.symm.trans hsession)
      exact hended
  | taken hold htask =>
      obtain rfl := Option.some.inj (hold.symm.trans hsession)
      simp [Session.Serving, htask] at hended
  | registered hold htask =>
      obtain rfl := Option.some.inj (hold.symm.trans hsession)
      simp [Session.Joined, htask] at hjoined
  | left => exact id
  | connected => exact id

/-- What was replied stays replied. -/
theorem Move.sent_kept (hmove : Move cloud a cloud') (hqueue : cloud.QueueInvariant)
    {proxy : Proxy} {result : Except String ProxyResult}
    (hproxy : cloud.proxies[number]? = some proxy) (hsent : proxy.reply = .sent result) :
    ∃ proxy', cloud'.proxies[number]? = some proxy' ∧ proxy'.reply = .sent result := by
  obtain ⟨proxy', hproxy'⟩ := hmove.proxy_kept hproxy
  refine ⟨proxy', hproxy', ?_⟩
  cases hmove.proxyStep hproxy' with
  | moved hold hstep =>
      obtain rfl := Option.some.inj (hold.symm.trans hproxy)
      cases hstep with
      | fetch => exact hsent
      | body => exact hsent
      | answer => exact hsent
      | drop => exact hsent
  | admitted hold =>
      obtain rfl := Option.some.inj (hold.symm.trans hproxy)
      exact hsent
  | replied hold hreply =>
      obtain rfl := Option.some.inj (hold.symm.trans hproxy)
      rcases hreply with rfl | hreleased
      · exact hsent
      · rw [hqueue.pending_of_released hreleased hold] at hsent
        cases hsent
  | arrived hlength =>
      obtain ⟨hlt, -⟩ := List.getElem?_eq_some_iff.mp hproxy
      omega

theorem Process.Ending.step (h : cloud.Ending number exchange message) (hsound : cloud.Sound)
    (hstep : Process.step codec hash cloud a = some cloud') :
    cloud'.Ending number exchange message := by
  cases h with
  | @failing session requestId hsession htask =>
      by_cases hown : ∃ action, a = .session number action
      · obtain ⟨action, rfl⟩ := hown
        simp only [Process.step, hsession] at hstep
        have hrunning : session.running = some exchange := by simp [Session.running, htask]
        have hat : cloud.At number .running exchange := ⟨session, hsession, hrunning⟩
        obtain ⟨proxy, hawaits⟩ := hsound.queue.awaits hat
        have hhandler : (cloud.setSession number
            { session with task := .closing }).proxies[exchange.reply]? = some proxy :=
          hawaits.handler
        have hclosing : ((cloud.setSession number { session with task := .closing }).setReply
            exchange (.sent (.error message))).sessions[number]? =
            some { session with task := .closing } := by
          rw [Process.setReply_sessions]
          exact Process.setSession_self hsession _
        rw [stepSession_failed htask hstep]
        exact .ended hclosing trivial id (Process.setReply_self hhandler _) rfl
      · obtain ⟨queue, hsame⟩ :=
          step_session hstep (fun action heq => hown ⟨action, heq⟩) hsession
        exact .failing hsame htask
  | ended hsession hjoined hended hproxy hsent =>
      obtain ⟨session', hsession', hjoined', hended'⟩ :=
        (step_move hstep).not_serving hsession hjoined hended
      obtain ⟨proxy', hproxy', hsent'⟩ := (step_move hstep).sent_kept hsound.queue hproxy hsent
      exact .ended hsession' hjoined' hended' hproxy' hsent'

/-- A client of such an exchange is not answered with a result. -/
theorem Process.Ending.isError (h : cloud.Ending number exchange message) (hsound : cloud.Sound)
    {proxy : Proxy} {reply : ProxyReply} (hproxy : cloud.proxies[exchange.reply]? = some proxy)
    (htask : proxy.task = .answered reply) : reply.IsError := by
  by_contra herror
  obtain ⟨result, hresult⟩ := hsound.honest _ _ _ hproxy htask herror
  cases h with
  | @failing session requestId hsession hfailed =>
      have hrunning : session.running = some exchange := by simp [Session.running, hfailed]
      have hat : cloud.At number .running exchange := ⟨session, hsession, hrunning⟩
      obtain ⟨waiting, hawaits⟩ := hsound.queue.awaits hat
      obtain rfl := Option.some.inj (hawaits.handler.symm.trans hproxy)
      rw [hawaits.pending] at hresult
      cases hresult
  | ended _ _ _ hhandler hsent =>
      obtain rfl := Option.some.inj (hhandler.symm.trans hproxy)
      rw [hsent] at hresult
      cases hresult

/-- A handler that waits can give the error at once, or after the session has reported it. -/
theorem Process.Ending.answers (h : cloud.Ending number exchange message)
    {proxy : Proxy} {registration : RelayRegistration}
    (hproxy : cloud.proxies[exchange.reply]? = some proxy)
    (htask : proxy.task = .waiting registration) :
    ∃ tr t, (Process.system codec hash).Run cloud tr t ∧
      ∃ e ∈ tr, answered e = some (exchange.reply, upstreamFailed message) := by
  have receives : ∀ {cloud : Process} {proxy : Proxy},
      cloud.proxies[exchange.reply]? = some proxy → proxy.task = .waiting registration →
      proxy.reply = .sent (.error message) →
      ∃ t, (Process.system codec hash).step cloud (.proxy exchange.reply .receive) t ∧
        answered ⟨cloud, .proxy exchange.reply .receive, t⟩ =
          some (exchange.reply, upstreamFailed message) := by
    intro cloud proxy hproxy htask hsent
    refine ⟨cloud.setProxy exchange.reply
      { proxy with task := .answered (upstreamFailed message) }, ?_, ?_⟩
    · show Process.step codec hash cloud (.proxy exchange.reply .receive) = _
      simp only [Process.step, hproxy, Process.stepProxy, htask, hsent, replyOf]
    · simp only [answered, Process.setProxy_self hproxy, Option.map_some]
  cases h with
  | @failing session requestId hsession hfailed =>
      have hhandler : (cloud.setSession number
          { session with task := .closing }).proxies[exchange.reply]? = some proxy := hproxy
      obtain ⟨t, hreceive, hanswered⟩ :=
        receives (Process.setReply_self hhandler (.sent (.error message))) htask rfl
      have hfinish : (Process.system codec hash).step cloud (.session number .finish)
          ((cloud.setSession number { session with task := .closing }).setReply exchange
            (.sent (.error message))) := by
        show Process.step codec hash cloud (.session number .finish) = _
        simp only [Process.step, hsession, Process.stepSession, hfailed, Session.afterExchange]
      exact ⟨_, t, .snoc (.single hfinish) hreceive, _,
        List.mem_append_right _ List.mem_cons_self, hanswered⟩
  | ended _ _ _ hhandler hsent =>
      obtain rfl := Option.some.inj (hhandler.symm.trans hproxy)
      obtain ⟨t, hreceive, hanswered⟩ := receives hproxy htask hsent
      exact ⟨_, t, .single hreceive, _, List.mem_cons_self, hanswered⟩

/-- After its cleanup no route leads to a session. -/
theorem Process.Routed.unregister (h : cloud.Routed)
    (hstep : Process.step codec hash cloud (.session number .unregister) = some cloud')
    (route : String) : cloud'.relays.lookup route ≠ some ⟨number⟩ := by
  simp only [Process.step] at hstep
  split at hstep
  next session hsession =>
    simp only [Process.stepSession] at hstep
    split at hstep
    next own _ hown =>
      have hroute : cloud.relays.lookup route = some ⟨number⟩ → route = own := by
        intro hlookup
        obtain ⟨session', hsession', -, hroute⟩ := h route ⟨number⟩ hlookup
        obtain rfl := Option.some.inj (hsession.symm.trans hsession')
        exact Option.some.inj (hroute.symm.trans hown)
      split_ifs at hstep with _ hlookup
      · cases hstep
        have herased : (cloud.relays.erase own).lookup route ≠ some ⟨number⟩ := by
          rw [Finmap.lookup_erase_eq_ite]
          split
          next => exact (Option.some_ne_none _).symm
          next hother => exact fun hlookup => hother (hroute hlookup)
        exact herased
      · cases hstep
        intro hsame
        have hsame : cloud.relays.lookup route = some ⟨number⟩ := hsame
        exact hlookup (hroute hsame ▸ hsame)
    next => cases hstep
  next => cases hstep

/-- A session that has joined is not registered again. -/
theorem Move.not_registered (hmove : Move cloud a cloud') {session : Session}
    (hsession : cloud.sessions[number]? = some session) (hjoined : session.Joined)
    {route : String} (hnone : cloud.relays.lookup route ≠ some ⟨number⟩) :
    cloud'.relays.lookup route ≠ some ⟨number⟩ := by
  intro hlookup
  rcases hmove.lookup_relays hlookup with hold | ⟨session', hsession', htask, -⟩
  · exact hnone hold
  · obtain rfl := Option.some.inj (hsession.symm.trans hsession')
    simp [Session.Joined, htask] at hjoined

end

/-! ## Runs -/

section

variable {codec : ControlCodec} {hash : List UInt8 → String} {cloud cloud' : Process}
variable {tr : List (Event Process Action)} {number : Nat} {exchange : ProxyExchange}
variable {message : String}

theorem Process.Sound.of_run (h : cloud.Sound)
    (hrun : (Process.system codec hash).Run cloud tr cloud') : cloud'.Sound :=
  System.Run.invariant (I := Process.Sound) (fun _ _ _ hsound hstep => hsound.step hstep) hrun h

theorem answered_of_run (hrun : (Process.system codec hash).Run cloud tr cloud') {proxy : Proxy}
    {reply : ProxyReply} (hproxy : cloud.proxies[number]? = some proxy)
    (htask : proxy.task = .answered reply) :
    ∃ proxy', cloud'.proxies[number]? = some proxy' ∧ proxy'.task = .answered reply := by
  induction hrun with
  | refl => exact ⟨proxy, hproxy, htask⟩
  | snoc _ hstep ih =>
      obtain ⟨proxy', hproxy', htask'⟩ := ih
      exact (step_move hstep).answered_kept hproxy' htask'

/-- What holds of a run from a state in which the exchange has failed. -/
structure EndsSession (number : Nat) (exchange : ProxyExchange) (message : String)
    (tr : List (Event Process Action)) (cloud : Process) : Prop where
  sound : cloud.Sound
  ending : cloud.Ending number exchange message
  /-- The session takes no exchange. -/
  takes : ∀ e ∈ tr, ∀ requestId, e.label ≠ .session number (.take requestId)
  /-- Its cleanup takes it out of the registry. -/
  cleanup : ∀ e ∈ tr, e.label = .session number .unregister →
    ∀ route, cloud.relays.lookup route ≠ some ⟨number⟩

theorem Process.Ending.joined (h : cloud.Ending number exchange message) :
    ∃ session, cloud.sessions[number]? = some session ∧ session.Joined ∧ session.task ≠ .idle := by
  cases h with
  | failing hsession htask =>
      refine ⟨_, hsession, ?_, ?_⟩
      · simp [Session.Joined, htask]
      · simp [htask]
  | ended hsession hjoined hended =>
      refine ⟨_, hsession, hjoined, fun htask => hended ?_⟩
      simp [Session.Serving, htask]

theorem EndsSession.of_run (hsound : cloud.Sound) (hending : cloud.Ending number exchange message)
    (hrun : (Process.system codec hash).Run cloud tr cloud') :
    EndsSession number exchange message tr cloud' := by
  induction hrun with
  | refl =>
      refine ⟨hsound, hending, ?_, ?_⟩
      · intro e he
        cases he
      · intro e he
        cases he
  | @snoc tr t u a hrun hstep ih =>
      obtain ⟨session, hsession, hjoined, hbusy⟩ := ih.ending.joined
      refine ⟨ih.sound.step hstep, ih.ending.step ih.sound hstep, ?_, ?_⟩
      · refine Transition.forall_mem_snoc ?_ ?_
        · intro e hold requestId hlabel
          exact ih.takes e hold requestId hlabel
        · intro requestId hlabel
          have hlabel : a = .session number (.take requestId) := hlabel
          subst hlabel
          have hstep : Process.step codec hash t (.session number (.take requestId)) = some u :=
            hstep
          simp only [Process.step, hsession, Process.stepSession] at hstep
          split at hstep
          next htask _ => exact hbusy htask
          next => cases hstep
      · refine Transition.forall_mem_snoc ?_ ?_
        · intro e hold hlabel route
          exact (step_move hstep).not_registered hsession hjoined (ih.cleanup e hold hlabel route)
        · intro hlabel route
          have hlabel : a = .session number .unregister := hlabel
          subst hlabel
          exact ih.sound.routed.unregister hstep route

end

/-- When an exchange fails, the protocol is still ready, its client is only
answered with an error, and can be; but the session takes no exchange any more
and its cleanup takes it out of the registry. -/
theorem failed_exchange_ends_session (codec : ControlCodec) (hash : List UInt8 → String)
    {cloud cloud' : Process} {before after : List (Event Process Action)}
    {e : Event Process Action} {number : Nat} {exchange : ProxyExchange}
    (hstart : cloud.Started)
    (hrun : (Process.system codec hash).Run cloud (before ++ e :: after) cloud')
    (hfails : AgreedFailure codec e number exchange) :
    (∃ session, e.post.sessions[number]? = some session ∧ session.protocol.isReady = true) ∧
    (∀ e' ∈ before ++ e :: after, ∀ reply, answered e' = some (exchange.reply, reply) →
      reply.IsError) ∧
    (∀ proxy registration, cloud'.proxies[exchange.reply]? = some proxy →
      proxy.task = .waiting registration → ∃ tr t, (Process.system codec hash).Run cloud' tr t ∧
        ∃ e' ∈ tr, ∃ reply, answered e' = some (exchange.reply, reply) ∧ reply.IsError) ∧
    (∀ e' ∈ after, ∀ requestId, e'.label ≠ .session number (.take requestId)) ∧
    ∀ e' ∈ after, e'.label = .session number .unregister →
      ∀ route, cloud'.relays.lookup route ≠ some ⟨number⟩ := by
  obtain ⟨hbefore, hstep, hafter⟩ := hrun.split_at
  have hpre : e.pre.Sound := (Process.Sound.of_started hstart).of_run hbefore
  have hpost : e.post.Sound := hpre.step hstep
  obtain ⟨session, requestId, message, hsession, htask, hready⟩ := hfails.fails hpre hstep
  have hends : EndsSession number exchange message after cloud' :=
    .of_run hpost (.failing hsession htask) hafter
  refine ⟨⟨session, hsession, hready⟩, ?_, ?_, hends.takes, hends.cleanup⟩
  · intro e' he' reply hanswered
    obtain ⟨proxy, hproxy, hanswer⟩ := answered_eq_some hanswered
    obtain ⟨_, _, _, _, _, hlater⟩ := hrun.split he'
    obtain ⟨proxy', hproxy', hanswer'⟩ := answered_of_run hlater hproxy hanswer
    exact hends.ending.isError hends.sound hproxy' hanswer'
  · intro proxy registration hproxy hwaiting
    obtain ⟨tr, t, hmore, e', he', hanswered⟩ := hends.ending.answers hproxy hwaiting
    exact ⟨tr, t, hmore, e', he', _, hanswered, _, rfl⟩

/-! ### A path with two slashes -/

/-- A visitor asks for `//x`, and another one for `/x` after that. -/
def rejectedSteps : List Action :=
  connectSteps ++ [.request "home" (getRequest "/x"), .proxy 0 .lookup, .proxy 0 (.body []),
    .proxy 0 .send, .session 0 (.take 5), .session 0 .send, .session 0 .finish,
    .session 0 .unregister, .session 0 .disconnected, .proxy 0 .receive,
    .request "home" (getRequest "x"), .proxy 1 .lookup]

/-- The exchange whose first frame is not valid, if the session is about to send it. -/
def Session.startsInvalid (session : Session) : Option ProxyExchange :=
  match session.task with
  | .executing exchange _ (.sending (.control (.requestStart frame) :: _)) =>
      if frame.validate = .ok () then none else some exchange
  | _ => none

/-- The send of the first session that is rejected. -/
def rejectedSend (e : Event Process Action) : Option ProxyExchange :=
  match e.label with
  | .session 0 .send => e.pre.sessions[0]?.bind Session.startsInvalid
  | _ => none

theorem AgreedFailure.of_rejectedSend {codec : ControlCodec} {e : Event Process Action}
    {exchange : ProxyExchange} (h : rejectedSend e = some exchange) :
    AgreedFailure codec e 0 exchange := by
  unfold rejectedSend at h
  split at h
  next hlabel =>
    obtain ⟨session, hsession, hstarts⟩ := Option.bind_eq_some_iff.mp h
    unfold Session.startsInvalid at hstarts
    split at hstarts
    next htask =>
      split_ifs at hstarts with hinvalid
      cases hstarts
      exact .rejected hlabel hsession htask hinvalid
    next => cases hstarts
  next => cases h

/-- The exchange of the first visitor fails before anything of it is sent. -/
theorem rejectedSteps_fail : ∃ cloud' e,
    (Process.system sampleCodec sampleHash).Run emptyCloud (eventsOf rejectedSteps) cloud' ∧
    eventsOf rejectedSteps = (eventsOf rejectedSteps).take 9 ++
      e :: (eventsOf rejectedSteps).drop 10 ∧
    AgreedFailure sampleCodec e 0 ⟨⟨"GET", "//x", [], []⟩, 30 * second, 0⟩ := by
  obtain ⟨cloud', hrun⟩ : ∃ cloud', (Process.system sampleCodec sampleHash).Run emptyCloud
      (eventsOf rejectedSteps) cloud' := System.Run.events (by decide +kernel)
  have hsend : (eventsOf rejectedSteps)[9]?.bind rejectedSend =
      some ⟨⟨"GET", "//x", [], []⟩, 30 * second, 0⟩ := by decide +kernel
  obtain ⟨e, he, hrejected⟩ := Option.bind_eq_some_iff.mp hsend
  exact ⟨cloud', e, hrun, eq_append_of_getElem? he, .of_rejectedSend hrejected⟩

/-- The tunnel takes nothing up after that failure. -/
theorem failed_exchange_ends_session_rejected :
    (eventsOf rejectedSteps).length = 16 ∧
      ∀ e ∈ (eventsOf rejectedSteps).drop 10, ∀ requestId,
        e.label ≠ .session 0 (.take requestId) := by
  obtain ⟨cloud', e, hrun, hsplit, hfails⟩ := rejectedSteps_fail
  rw [hsplit] at hrun
  obtain ⟨-, -, -, htakes, -⟩ :=
    failed_exchange_ends_session sampleCodec sampleHash emptyCloud_started hrun hfails
  exact ⟨by decide +kernel, htakes⟩

/-- The first visitor takes the tunnel of the second one down. -/
theorem failed_exchange_drops_tunnel :
    (∃ cloud' e,
      (Process.system sampleCodec sampleHash).Run emptyCloud (eventsOf rejectedSteps) cloud' ∧
      eventsOf rejectedSteps = (eventsOf rejectedSteps).take 9 ++
        e :: (eventsOf rejectedSteps).drop 10 ∧
      AgreedFailure sampleCodec e 0 ⟨⟨"GET", "//x", [], []⟩, 30 * second, 0⟩) ∧
    (eventsOf rejectedSteps)[15]?.bind answered = some (1, notConnected) :=
  ⟨rejectedSteps_fail, by decide +kernel⟩

end Cresix.Cloud
