import Cresix.Cloud.Relay
import Cresix.Relay.Streams

/-!
# What a step of the cloud does

`Move` lists the ways a step changes the state, with what the later arguments
need of each: which exchanges are queued and executed, what a session has
still to start, and what a request is answered.  `step_move` reads them off
the steps once, so that an invariant is a case analysis on `Move`.
-/

namespace Cresix.Cloud

open Relay
open Rust (Uuid)

/-! ## Sessions -/

namespace Session

/-- The exchange the session executes. -/
def running (session : Session) : Option ProxyExchange :=
  match session.task with
  | .executing exchange _ _ => some exchange
  | _ => none

/-- The places of an exchange in a session. -/
inductive Slot where
  | queue
  | running
deriving DecidableEq

def slot (session : Session) : Slot → Option ProxyExchange
  | .queue => session.queue
  | .running => session.running

/-- The loop of the session runs. -/
def Serving (session : Session) : Prop :=
  match session.task with
  | .idle | .executing _ _ _ => True
  | _ => False

/-- The session was registered. -/
def Joined (session : Session) : Prop :=
  match session.task with
  | .hello _ | .registering => False
  | _ => True

/-- The session has still to send this `RequestStart` for the exchange. -/
def WillStart (session : Session) (exchange : ProxyExchange) (frame : RequestStartFrame) : Prop :=
  ∃ requestId frames, session.task = .executing exchange requestId (.sending frames) ∧
    .control (.requestStart frame) ∈ frames

/-- A step of a session that takes no exchange up. -/
structure Calm (session session' : Session) : Prop where
  installationId : session'.installationId = session.installationId
  route : session'.route = session.route
  queue : session'.queue = session.queue
  joined : session.Joined → session'.Joined
  serving : session'.Serving → session.Serving
  willStart : ∀ {exchange frame}, session'.WillStart exchange frame →
    session.WillStart exchange frame

section

variable {session : Session} {exchange : ProxyExchange} {frame : RequestStartFrame}

theorem willStart_of_startsNext (h : session.startsNext = some (exchange, frame)) :
    session.WillStart exchange frame := by
  unfold startsNext at h
  split at h
  next exchange' requestId frame' rest htask =>
    split_ifs at h
    cases h
    exact ⟨requestId, _, htask, List.mem_cons_self⟩
  next => cases h

theorem WillStart.running (h : session.WillStart exchange frame) :
    session.running = some exchange := by
  obtain ⟨requestId, frames, htask, -⟩ := h
  rw [Session.running, htask]

theorem WillStart.serving (h : session.WillStart exchange frame) : session.Serving := by
  obtain ⟨requestId, frames, htask, -⟩ := h
  rw [Serving, htask]
  trivial

theorem Serving.joined (h : session.Serving) : session.Joined := by
  unfold Serving at h
  unfold Joined
  split
  next htask => rw [htask] at h; exact h
  next htask => rw [htask] at h; exact h
  next => trivial

end

end Session

/-! ## Requests -/

/-- What a handler says that answers the client. -/
structure Answerable (cloud : Process) (proxy : Proxy) (reply : ProxyReply) : Prop where
  /-- It answers once. -/
  unanswered : ∀ reply, proxy.task ≠ .answered reply
  timeout : reply.IsTimeout →
    proxy.deadline ≤ cloud.now ∨ ((∃ registration, proxy.task = .waiting registration) ∧
      proxy.reply = .closed)
  result : ¬ reply.IsError → ∃ result, proxy.reply = .sent (.ok result)

/-- A step of a handler on its own. -/
inductive ProxyMove (cloud : Process) (proxy : Proxy) : Proxy → Prop where
  | fetch {registration : RelayRegistration} {request : ProxyRequest} :
      proxy.task = .lookup → cloud.relays.lookup proxy.route = some registration →
      ProxyMove cloud proxy { proxy with task := .reading registration request }
  | body {registration : RelayRegistration} {request request' : ProxyRequest} :
      proxy.task = .reading registration request →
      ProxyMove cloud proxy { proxy with task := .sending registration request' }
  | answer {reply : ProxyReply} :
      Answerable cloud proxy reply →
      ProxyMove cloud proxy { proxy with task := .answered reply }
  | drop :
      (∀ reply, proxy.task ≠ .answered reply) →
      ProxyMove cloud proxy { proxy with task := .dropped }

/-! ## The cloud -/

/-- The ways a step changes the state. -/
inductive Move (cloud : Process) : Action → Process → Prop where
  | tick {a : Action} {time : Nat} : Move cloud a { cloud with now := cloud.now + time }
  | registerInstallation {a : Action} {db : Database} :
      Database.Keeps cloud.db db →
      Move cloud a { cloud with db }
  | revoke {a : Action} {installation : Installation} :
      cloud.revoking = none → installation ∈ cloud.db.installations →
      Move cloud a { cloud with
        db := cloud.db.revoke installation.id cloud.now, revoking := some installation }
  | revoked {a : Action} {installation : Installation} :
      cloud.revoking = some installation →
      Move cloud a { cloud with
        relays := cloud.relays.erase installation.routeId, revoking := none }
  | request {a : Action} {route : String} {request : HttpRequest} :
      Move cloud a { cloud with
        proxies := cloud.proxies ++ [⟨route, request, cloud.now + 30 * second, .lookup, .pending⟩] }
  | proxy {a : Action} {number : Nat} {proxy proxy' : Proxy} :
      cloud.proxies[number]? = some proxy → ProxyMove cloud proxy proxy' →
      Move cloud a (cloud.setProxy number proxy')
  | enqueue {a : Action} {number : Nat} {proxy : Proxy} {registration : RelayRegistration}
      {request : ProxyRequest} {session : Session} :
      cloud.proxies[number]? = some proxy → proxy.task = .sending registration request →
      cloud.sessions[registration.sessionId]? = some session → session.queue = none →
      session.task ≠ .ended →
      Move cloud a ((cloud.setSession registration.sessionId
          { session with queue := some ⟨request, proxy.deadline, number⟩ }).setProxy number
        { proxy with task := .waiting registration })
  | connect {a : Action} {id : Uuid} {token : String} :
      Move cloud a { cloud with sessions := cloud.sessions ++ [⟨id, none, .default, none, .hello token⟩] }
  | register {a : Action} {number : Nat} {session : Session} {route : String} :
      cloud.sessions[number]? = some session → session.task = .registering →
      cloud.revoking = none → cloud.db.activeRoute session.installationId = some route →
      Move cloud a ({ cloud with
        db := cloud.db.setConnected session.installationId (some cloud.now)
        relays := cloud.relays.insert route ⟨number⟩ }.setSession number
          { session with route := some route, task := .idle })
  | take {number : Nat} {session : Session} {exchange : ProxyExchange} {requestId : Uuid} :
      cloud.sessions[number]? = some session → session.task = .idle →
      session.queue = some exchange →
      Move cloud (.session number (.take requestId))
        (cloud.setSession number (session.take cloud.now exchange requestId))
  | session {a : Action} {number : Nat} {session session' : Session} :
      cloud.sessions[number]? = some session → session.Calm session' →
      session'.running = session.running →
      Move cloud a (cloud.setSession number session')
  | settle {a : Action} {number : Nat} {session session' : Session} {exchange : ProxyExchange}
      {result : Except String ProxyResult} :
      cloud.sessions[number]? = some session → session.Calm session' →
      session.running = some exchange → session'.running = none →
      Move cloud a ((cloud.setSession number session').setReply exchange (.sent result))
  | unregister {a : Action} {number : Nat} {session : Session} {route : String} :
      cloud.sessions[number]? = some session → session.task = .closing →
      cloud.revoking = none → cloud.relays.lookup route = some ⟨number⟩ →
      Move cloud a ({ cloud with relays := cloud.relays.erase route }.setSession number
        { session with task := .unregistered true })
  | leave {a : Action} {number : Nat} {session : Session} {removed : Bool} {db : Database} :
      cloud.sessions[number]? = some session → session.task = .unregistered removed →
      Database.Keeps cloud.db db →
      Move cloud a (({ cloud with db }.setSession number
        { session with queue := none, task := .ended }).dropQueue session.queue)

/-! ## Every step is a move -/

namespace Session

section

variable {session : Session} {protocol : RelaySessionState} {task : SessionTask}

/-- A session that leaves its loop, or never was in it. -/
theorem calm_of_not_serving (hjoined : session.Joined → { session with protocol, task }.Joined)
    (hserving : ¬ { session with protocol, task }.Serving) :
    session.Calm { session with protocol, task } where
  installationId := rfl
  route := rfl
  queue := rfl
  joined := hjoined
  serving h := absurd h hserving
  willStart h := absurd h.serving hserving

/-- A session that stays in its loop. -/
theorem calm_of_serving (hserving : session.Serving)
    (hserving' : { session with protocol, task }.Serving)
    (hwill : ∀ {exchange frame}, { session with protocol, task }.WillStart exchange frame →
      session.WillStart exchange frame) :
    session.Calm { session with protocol, task } where
  installationId := rfl
  route := rfl
  queue := rfl
  joined _ := hserving'.joined
  serving _ := hserving
  willStart h := hwill h

theorem calm_greet (codec : ControlCodec) (session : Session) {authorization : String}
    (htask : session.task = .hello authorization) (message : Message) :
    session.Calm (session.greet codec authorization message) ∧
      (session.greet codec authorization message).running = session.running := by
  have hjoined : ¬ session.Joined := by simp [Joined, htask]
  have hrunning : session.running = none := by simp [running, htask]
  unfold greet
  repeat' split
  all_goals
    refine ⟨calm_of_not_serving (fun h => absurd h hjoined) ?_, hrunning.symm⟩
    simp [Serving]

theorem calm_receive (codec : ControlCodec) (session : Session) (htask : session.task = .idle)
    (message : Message) :
    session.Calm (session.receive codec message) ∧
      (session.receive codec message).running = session.running := by
  have hserving : session.Serving := by simp [Serving, htask]
  have hrunning : session.running = none := by simp [running, htask]
  have hwill : ∀ protocol exchange frame,
      ¬ { session with protocol }.WillStart exchange frame := by
    rintro protocol exchange frame ⟨requestId, frames, h, -⟩
    rw [show ({ session with protocol } : Session).task = session.task from rfl, htask] at h
    cases h
  unfold receive
  repeat' split
  all_goals first
    | exact ⟨calm_of_serving hserving (by simpa [Serving] using hserving)
        fun h => absurd h (hwill _ _ _), rfl⟩
    | exact ⟨calm_of_not_serving (fun _ => trivial) (by simp [Serving]), hrunning.symm⟩

theorem calm_afterExchange (session : Session) {exchange : ProxyExchange}
    (hrunning : session.running = some exchange) (result : Except String ProxyResult) :
    session.Calm (session.afterExchange result) ∧ (session.afterExchange result).running = none := by
  have hserving : session.Serving := by
    unfold running at hrunning
    split at hrunning
    next htask => simp [Serving, htask]
    next => cases hrunning
  have hclosing : session.Calm { session with task := .closing } :=
    calm_of_not_serving (fun _ => trivial) (by simp [Serving])
  cases result with
  | error message => exact ⟨hclosing, rfl⟩
  | ok result =>
      simp only [afterExchange]
      split
      next =>
        refine ⟨calm_of_serving hserving trivial ?_, rfl⟩
        rintro exchange frame ⟨requestId, frames, h, -⟩
        cases h
      next => exact ⟨hclosing, rfl⟩

/-- A step of an exchange that adds nothing to be sent. -/
theorem calm_execute {exchange : ProxyExchange} {requestId : Uuid} {old : ExchangeTask}
    (relay : RelayEnd) (htask : session.task = .executing exchange requestId old)
    (hsending : ∀ {frames}, relay.task = .sending frames →
      ∃ before, old = .sending (before ++ frames)) :
    session.Calm (session.execute exchange relay) ∧
      (session.execute exchange relay).running = session.running := by
  refine ⟨calm_of_serving (by simp [Serving, htask]) trivial ?_, by simp [running, execute, htask]⟩
  rintro exchange' frame ⟨requestId', frames, h, hmem⟩
  injection h with hexchange hid hrelay
  subst hexchange
  obtain ⟨before, rfl⟩ := hsending hrelay
  exact ⟨requestId, _, htask, List.mem_append_right _ hmem⟩

end

end Session

section

variable {cloud cloud' : Process} {a : Action} {number : Nat} {proxy : Proxy} {session : Session}

/-- A handler that waits answers with an error. -/
theorem Answerable.error {error : ApiError} (hwaits : ∀ reply, proxy.task ≠ .answered reply)
    (htimeout : error.code = "relay_timeout" → proxy.deadline ≤ cloud.now) :
    Answerable cloud proxy (.error error) where
  unanswered := hwaits
  timeout h := .inl (htimeout h.code)
  result h := absurd ⟨error, rfl⟩ h

theorem receiver_eq_some {registration : RelayRegistration}
    (h : cloud.receiver registration = some session) :
    cloud.sessions[registration.sessionId]? = some session ∧ session.task ≠ .ended := by
  unfold Process.receiver at h
  split at h
  next session' hsession =>
    split at h
    next => cases h
    next htask =>
      cases h
      exact ⟨hsession, htask⟩
  next => cases h

theorem stepProxy_move {action : ProxyAction} (hproxy : cloud.proxies[number]? = some proxy)
    (h : cloud.stepProxy number proxy action = some cloud') : Move cloud a cloud' := by
  have refused : ∀ {error : ApiError}, (∀ reply, proxy.task ≠ .answered reply) →
      error.code ≠ "relay_timeout" →
      Move cloud a (cloud.setProxy number { proxy with task := .answered (.error error) }) :=
    fun hwaits hcode => .proxy hproxy (.answer (.error hwaits fun h => absurd h hcode))
  have expired : ∀ {error : ApiError}, (∀ reply, proxy.task ≠ .answered reply) →
      proxy.deadline ≤ cloud.now →
      Move cloud a (cloud.setProxy number { proxy with task := .answered (.error error) }) :=
    fun hwaits hdeadline => .proxy hproxy (.answer (.error hwaits fun _ => hdeadline))
  cases action with
  | lookup =>
      simp only [Process.stepProxy] at h
      split at h
      next htask =>
        have hwaits : ∀ reply, proxy.task ≠ .answered reply := by simp [htask]
        split at h
        next => cases h
        next =>
          split at h
          next =>
            cases h
            exact refused hwaits (by decide)
          next registration hregistration =>
            split at h
            next error herror =>
              cases h
              refine refused hwaits ?_
              rw [HttpRequest.prepare_error herror]
              decide
            next request _ =>
              cases h
              exact .proxy hproxy (.fetch htask hregistration)
      next => cases h
  | body bytes =>
      simp only [Process.stepProxy] at h
      split at h
      next registration request htask =>
        split_ifs at h
        cases h
        exact .proxy hproxy (.body htask)
      next => cases h
  | bodyFailed =>
      simp only [Process.stepProxy] at h
      split at h
      next htask =>
        cases h
        exact refused (by simp [htask]) (by decide)
      next => cases h
  | bodyTimeout =>
      simp only [Process.stepProxy] at h
      split at h
      next htask =>
        split_ifs at h with hdeadline
        cases h
        exact expired (by simp [htask]) hdeadline
      next => cases h
  | send =>
      simp only [Process.stepProxy] at h
      split at h
      next registration request htask =>
        split at h
        next session hsession =>
          obtain ⟨hsession, hended⟩ := receiver_eq_some hsession
          split_ifs at h with hqueue
          cases h
          rw [Bool.not_eq_true, Option.isSome_eq_false_iff, Option.isNone_iff_eq_none] at hqueue
          exact .enqueue hproxy htask hsession hqueue hended
        next => cases h
      next => cases h
  | sendFailed =>
      simp only [Process.stepProxy] at h
      split at h
      next htask =>
        split_ifs at h
        cases h
        exact refused (by simp [htask]) (by decide)
      next => cases h
  | sendTimeout =>
      simp only [Process.stepProxy] at h
      split at h
      next htask =>
        split_ifs at h with hdeadline
        cases h
        exact expired (by simp [htask]) hdeadline
      next => cases h
  | receive =>
      simp only [Process.stepProxy] at h
      split at h
      next registration result htask hreply =>
        cases h
        refine .proxy hproxy (.answer ⟨by simp [htask], ?_, ?_⟩)
        · intro htimeout
          exact absurd htimeout (replyOf_not_isTimeout result)
        · intro hresult
          cases result with
          | ok result => exact ⟨result, hreply⟩
          | error message => exact absurd (replyOf_error_isError message) hresult
      next registration htask hreply =>
        cases h
        refine .proxy hproxy (.answer ⟨by simp [htask], ?_, ?_⟩)
        · intro _
          exact .inr ⟨⟨registration, htask⟩, hreply⟩
        · intro hresult
          exact absurd ⟨_, rfl⟩ hresult
      next => cases h
  | receiveTimeout =>
      simp only [Process.stepProxy] at h
      split at h
      next htask _ =>
        split_ifs at h with hdeadline
        cases h
        exact expired (by simp [htask]) hdeadline
      next => cases h
  | drop =>
      simp only [Process.stepProxy] at h
      split at h
      next => cases h
      next => cases h
      next hanswered _ =>
        cases h
        exact .proxy hproxy (.drop hanswered)

theorem afterSending_eq {frames rest : List Frame}
    (h : ExchangeTask.afterSending rest = .sending frames) : rest = frames := by
  cases rest with
  | nil => cases h
  | cons frame rest =>
      cases h
      rfl

theorem stepSession_move {codec : ControlCodec} {action : SessionAction}
    (hsession : cloud.sessions[number]? = some session)
    (h : cloud.stepSession codec number session action = some cloud') :
    Move cloud (.session number action) cloud' := by
  have ended : ∀ {protocol task}, session.Calm { session with protocol, task } →
      Session.running { session with protocol, task } = session.running →
      Move cloud (.session number action) (cloud.setSession number { session with protocol, task }) :=
    fun hcalm hrunning => .session hsession hcalm hrunning
  cases action with
  | hello message =>
      simp only [Process.stepSession] at h
      split at h
      next authorization htask =>
        cases h
        obtain ⟨hcalm, hrunning⟩ := session.calm_greet codec htask message
        exact .session hsession hcalm hrunning
      next => cases h
  | abort =>
      simp only [Process.stepSession] at h
      split at h
      next htask =>
        cases h
        refine ended (Session.calm_of_not_serving ?_ (by simp [Session.Serving])) ?_
        · simp [Session.Joined, htask]
        · simp [Session.running, htask]
      next htask =>
        cases h
        refine ended (Session.calm_of_not_serving ?_ (by simp [Session.Serving])) ?_
        · simp [Session.Joined, htask]
        · simp [Session.running, htask]
      next => cases h
  | register =>
      simp only [Process.stepSession] at h
      split at h
      next htask =>
        split at h
        next => cases h
        next hlock =>
          rw [Bool.not_eq_true, Option.isSome_eq_false_iff, Option.isNone_iff_eq_none] at hlock
          split at h
          next =>
            cases h
            refine ended (Session.calm_of_not_serving ?_ (by simp [Session.Serving])) ?_
            · simp [Session.Joined, htask]
            · simp [Session.running, htask]
          next route hroute =>
            cases h
            exact .register hsession htask hlock hroute
      next => cases h
  | take requestId =>
      simp only [Process.stepSession] at h
      split at h
      next exchange htask hqueue =>
        cases h
        exact .take hsession htask hqueue
      next => cases h
  | send =>
      simp only [Process.stepSession] at h
      split at h
      next exchange requestId frame rest htask =>
        cases h
        obtain ⟨-, hsent⟩ := RelayEnd.send_task codec
          ⟨session.protocol, requestId, .sending (frame :: rest)⟩ frame rest
        have hrest : ∀ {frames}, (RelayEnd.send codec
            ⟨session.protocol, requestId, .sending (frame :: rest)⟩ frame rest).1.task =
              .sending frames → ∃ before, ExchangeTask.sending (frame :: rest) =
                .sending (before ++ frames) := by
          intro frames hframes
          rcases hsent with hafter | ⟨result, hreturned⟩
          · rw [hafter] at hframes
            rw [afterSending_eq hframes]
            exact ⟨[frame], rfl⟩
          · rw [hreturned] at hframes
            cases hframes
        obtain ⟨hcalm, hrunning⟩ := Session.calm_execute _ htask hrest
        exact .session hsession hcalm hrunning
      next => cases h
  | receive message =>
      simp only [Process.stepSession] at h
      split at h
      next exchange requestId status headers body htask =>
        cases h
        obtain ⟨hcalm, hrunning⟩ := Session.calm_execute (RelayEnd.receive codec
          ⟨session.protocol, requestId, .receiving status headers body⟩ status headers body
          message).1 htask fun hframes => by cases RelayEnd.receive_task _ _ _ _ _ _ hframes
        exact .session hsession hcalm hrunning
      next => cases h
  | lost =>
      simp only [Process.stepSession] at h
      split at h
      next => cases h
      next exchange requestId task _ htask =>
        cases h
        obtain ⟨hcalm, hrunning⟩ := Session.calm_execute
          ⟨session.protocol, requestId, .returned (.error "connector disconnected")⟩ htask
          fun hframes => by cases hframes
        exact .session hsession hcalm hrunning
      next htask =>
        cases h
        refine ended (Session.calm_of_not_serving (fun _ => trivial) (by simp [Session.Serving])) ?_
        simp [Session.running, htask]
      next => cases h
  | finish =>
      simp only [Process.stepSession] at h
      split at h
      next exchange requestId result htask =>
        cases h
        have hrunning : session.running = some exchange := by simp [Session.running, htask]
        obtain ⟨hcalm, hnone⟩ := session.calm_afterExchange hrunning result
        exact .settle hsession hcalm hrunning hnone
      next => cases h
  | timeout =>
      simp only [Process.stepSession] at h
      split at h
      next => cases h
      next exchange requestId task _ htask =>
        split_ifs at h
        cases h
        have hrunning : session.running = some exchange := by simp [Session.running, htask]
        exact .settle hsession (Session.calm_of_not_serving (fun _ => trivial)
          (by simp [Session.Serving])) hrunning rfl
      next => cases h
  | message message =>
      simp only [Process.stepSession] at h
      split at h
      next htask =>
        cases h
        obtain ⟨hcalm, hrunning⟩ := session.calm_receive codec htask message
        exact .session hsession hcalm hrunning
      next => cases h
  | noSenders =>
      simp only [Process.stepSession] at h
      split at h
      next htask _ =>
        split at h
        next => cases h
        next =>
          cases h
          refine ended
            (Session.calm_of_not_serving (fun _ => trivial) (by simp [Session.Serving])) ?_
          simp [Session.running, htask]
      next => cases h
  | unregister =>
      simp only [Process.stepSession] at h
      split at h
      next route htask hroute =>
        split at h
        next => cases h
        next hlock =>
          rw [Bool.not_eq_true, Option.isSome_eq_false_iff, Option.isNone_iff_eq_none] at hlock
          split at h
          next hlookup =>
            cases h
            exact .unregister hsession htask hlock hlookup
          next =>
            cases h
            refine ended
              (Session.calm_of_not_serving (fun _ => trivial) (by simp [Session.Serving])) ?_
            simp [Session.running, htask]
      next => cases h
  | disconnected =>
      simp only [Process.stepSession] at h
      split at h
      next removed htask =>
        cases h
        refine .leave hsession htask ?_
        split
        next => exact Database.keeps_setConnected _ _ _
        next => exact .refl _
      next => cases h

theorem step_move {codec : ControlCodec} {hash : List UInt8 → String}
    (h : cloud.step codec hash a = some cloud') : Move cloud a cloud' := by
  cases a with
  | tick time =>
      cases h
      exact .tick
  | registerInstallation id account localServerId routeId publicId secretHash =>
      obtain ⟨db, hdb, rfl⟩ := Option.map_eq_some_iff.mp h
      exact .registerInstallation (Database.keeps_registerInstallation hdb)
  | revoke account id =>
      simp only [Process.step] at h
      split at h
      next => cases h
      next hlock =>
        rw [Bool.not_eq_true, Option.isSome_eq_false_iff, Option.isNone_iff_eq_none] at hlock
        split at h
        next installation _ hfind =>
          cases h
          obtain ⟨hmem, rfl⟩ := Database.installationById_eq_some hfind
          exact .revoke hlock hmem
        next => cases h
  | revoked =>
      simp only [Process.step] at h
      split at h
      next installation hlock =>
        cases h
        exact .revoked hlock
      next => cases h
  | request route request =>
      cases h
      exact .request
  | proxy number action =>
      simp only [Process.step] at h
      split at h
      next proxy hproxy => exact stepProxy_move hproxy h
      next => cases h
  | connect token =>
      simp only [Process.step] at h
      split at h
      next =>
        cases h
        exact .connect
      next => cases h
  | session number action =>
      simp only [Process.step] at h
      split at h
      next session hsession => exact stepSession_move hsession h
      next => cases h

end

/-! ## One session -/

namespace Process

section

variable (cloud : Process) (exchange : ProxyExchange) (reply : Reply)

@[simp] theorem setReply_sessions : (cloud.setReply exchange reply).sessions = cloud.sessions := by
  unfold setReply
  split <;> rfl

@[simp] theorem setReply_db : (cloud.setReply exchange reply).db = cloud.db := by
  unfold setReply
  split <;> rfl

@[simp] theorem setReply_relays : (cloud.setReply exchange reply).relays = cloud.relays := by
  unfold setReply
  split <;> rfl

@[simp] theorem setReply_revoking : (cloud.setReply exchange reply).revoking = cloud.revoking := by
  unfold setReply
  split <;> rfl

@[simp] theorem setReply_now : (cloud.setReply exchange reply).now = cloud.now := by
  unfold setReply
  split <;> rfl

theorem length_setReply :
    (cloud.setReply exchange reply).proxies.length = cloud.proxies.length := by
  unfold setReply
  split
  next => exact List.length_set
  next => rfl

variable (queue : Option ProxyExchange)

@[simp] theorem dropQueue_sessions : (cloud.dropQueue queue).sessions = cloud.sessions := by
  cases queue <;> simp [dropQueue]

@[simp] theorem dropQueue_db : (cloud.dropQueue queue).db = cloud.db := by
  cases queue <;> simp [dropQueue]

@[simp] theorem dropQueue_relays : (cloud.dropQueue queue).relays = cloud.relays := by
  cases queue <;> simp [dropQueue]

@[simp] theorem dropQueue_revoking : (cloud.dropQueue queue).revoking = cloud.revoking := by
  cases queue <;> simp [dropQueue]

@[simp] theorem dropQueue_now : (cloud.dropQueue queue).now = cloud.now := by
  cases queue <;> simp [dropQueue]

theorem length_dropQueue : (cloud.dropQueue queue).proxies.length = cloud.proxies.length := by
  cases queue with
  | none => rfl
  | some exchange => exact length_setReply cloud exchange .closed

end

theorem setSession_cases {cloud : Process} {m n : Nat} {session session' : Session}
    (h : (cloud.setSession m session).sessions[n]? = some session') :
    (n = m ∧ session' = session) ∨ (n ≠ m ∧ cloud.sessions[n]? = some session') := by
  simp only [setSession, List.getElem?_set] at h
  split_ifs at h with hn hlt
  · exact .inl ⟨hn.symm, (Option.some.inj h).symm⟩
  · exact .inr ⟨fun he => hn he.symm, h⟩

theorem setSession_self {cloud : Process} {n : Nat} {session : Session}
    (h : cloud.sessions[n]? = some session) (session' : Session) :
    (cloud.setSession n session').sessions[n]? = some session' := by
  obtain ⟨hlt, -⟩ := List.getElem?_eq_some_iff.mp h
  simp [setSession, hlt]

theorem setSession_of_ne {cloud : Process} {m n : Nat} (hne : n ≠ m) (session : Session) :
    (cloud.setSession m session).sessions[n]? = cloud.sessions[n]? := by
  simp [setSession, hne.symm]

end Process

namespace Process

theorem setProxy_cases {cloud : Process} {m n : Nat} {proxy proxy' : Proxy}
    (h : (cloud.setProxy m proxy).proxies[n]? = some proxy') :
    (n = m ∧ proxy' = proxy) ∨ (n ≠ m ∧ cloud.proxies[n]? = some proxy') := by
  simp only [setProxy, List.getElem?_set] at h
  split_ifs at h with hn hlt
  · exact .inl ⟨hn.symm, (Option.some.inj h).symm⟩
  · exact .inr ⟨fun he => hn he.symm, h⟩

theorem setProxy_self {cloud : Process} {n : Nat} {proxy : Proxy}
    (h : cloud.proxies[n]? = some proxy) (proxy' : Proxy) :
    (cloud.setProxy n proxy').proxies[n]? = some proxy' := by
  obtain ⟨hlt, -⟩ := List.getElem?_eq_some_iff.mp h
  simp [setProxy, hlt]

theorem setReply_self {cloud : Process} {exchange : ProxyExchange} {proxy : Proxy}
    (h : cloud.proxies[exchange.reply]? = some proxy) (reply : Reply) :
    (cloud.setReply exchange reply).proxies[exchange.reply]? = some { proxy with reply } := by
  rw [setReply, h]
  exact setProxy_self h _

theorem setReply_cases {cloud : Process} {exchange : ProxyExchange} {reply : Reply} {n : Nat}
    {proxy' : Proxy} (h : (cloud.setReply exchange reply).proxies[n]? = some proxy') :
    (∃ proxy, cloud.proxies[n]? = some proxy ∧ n = exchange.reply ∧ proxy' = { proxy with reply }) ∨
      (n ≠ exchange.reply ∧ cloud.proxies[n]? = some proxy') := by
  unfold setReply at h
  split at h
  next proxy hproxy =>
    rcases setProxy_cases h with ⟨rfl, rfl⟩ | hother
    · exact .inl ⟨proxy, hproxy, rfl, rfl⟩
    · exact .inr hother
  next hnone =>
    refine .inr ⟨?_, h⟩
    rintro rfl
    rw [hnone] at h
    cases h

theorem dropQueue_cases {cloud : Process} {queue : Option ProxyExchange} {n : Nat}
    {proxy' : Proxy} (h : (cloud.dropQueue queue).proxies[n]? = some proxy') :
    (∃ exchange proxy, queue = some exchange ∧ cloud.proxies[n]? = some proxy ∧
      n = exchange.reply ∧ proxy' = { proxy with reply := .closed }) ∨
      cloud.proxies[n]? = some proxy' := by
  cases queue with
  | none => exact .inr h
  | some exchange =>
      rcases setReply_cases h with ⟨proxy, hproxy, hreply, rfl⟩ | ⟨-, hold⟩
      · exact .inl ⟨exchange, proxy, rfl, hproxy, hreply, rfl⟩
      · exact .inr hold

end Process

theorem Session.Calm.refl (session : Session) : session.Calm session :=
  ⟨rfl, rfl, rfl, id, id, id⟩

/-- How a session came to be as it is after a step. -/
inductive SessionMove (cloud : Process) (a : Action) (cloud' : Process) (number : Nat) :
    Session → Prop where
  | calm {session session' : Session} :
      cloud.sessions[number]? = some session → session.Calm session' →
      (session'.running = session.running ∨ session'.running = none) →
      SessionMove cloud a cloud' number session'
  | admitted {session : Session} {exchange : ProxyExchange} {proxy : Proxy} :
      cloud.sessions[number]? = some session → session.queue = none →
      cloud.proxies[exchange.reply]? = some proxy →
      proxy.task = .sending ⟨number⟩ exchange.request → proxy.deadline = exchange.deadline →
      cloud'.proxies[exchange.reply]? = some { proxy with task := .waiting ⟨number⟩ } →
      SessionMove cloud a cloud' number { session with queue := some exchange }
  | taken {session : Session} {exchange : ProxyExchange} {requestId : Uuid} :
      cloud.sessions[number]? = some session → session.task = .idle →
      session.queue = some exchange → a = .session number (.take requestId) →
      SessionMove cloud a cloud' number (session.take cloud.now exchange requestId)
  | registered {session : Session} {route : String} :
      cloud.sessions[number]? = some session → session.task = .registering →
      cloud.revoking = none → cloud.db.activeRoute session.installationId = some route →
      SessionMove cloud a cloud' number { session with route := some route, task := .idle }
  | left {session : Session} {removed : Bool} :
      cloud.sessions[number]? = some session → session.task = .unregistered removed →
      SessionMove cloud a cloud' number { session with queue := none, task := .ended }
  | connected {id : Uuid} {token : String} :
      number = cloud.sessions.length →
      SessionMove cloud a cloud' number ⟨id, none, .default, none, .hello token⟩

/-- An exchange of the request left its session, which executes nothing now. -/
def Released (cloud cloud' : Process) (number : Nat) : Prop :=
  ∃ (n : Nat) (session session' : Session) (slot : Session.Slot) (exchange : ProxyExchange),
    cloud.sessions[n]? = some session ∧ session.slot slot = some exchange ∧
    exchange.reply = number ∧ cloud'.sessions[n]? = some session' ∧ session'.slot slot = none ∧ session'.running = none

/-- How a request came to be as it is after a step. -/
inductive ProxyStep (cloud cloud' : Process) (number : Nat) : Proxy → Prop where
  | moved {proxy proxy' : Proxy} :
      cloud.proxies[number]? = some proxy → ProxyMove cloud proxy proxy' →
      ProxyStep cloud cloud' number proxy'
  | admitted {proxy : Proxy} {registration : RelayRegistration} {request : ProxyRequest} :
      cloud.proxies[number]? = some proxy → proxy.task = .sending registration request →
      ProxyStep cloud cloud' number { proxy with task := .waiting registration }
  | replied {proxy : Proxy} {reply : Reply} :
      cloud.proxies[number]? = some proxy → (reply = proxy.reply ∨ Released cloud cloud' number) →
      ProxyStep cloud cloud' number { proxy with reply }
  | arrived {route : String} {request : HttpRequest} :
      number = cloud.proxies.length →
      ProxyStep cloud cloud' number ⟨route, request, cloud.now + 30 * second, .lookup, .pending⟩

section

variable {cloud cloud' : Process} {a : Action} {number : Nat} {session' : Session}

theorem Move.proxyStep (h : Move cloud a cloud') {proxy' : Proxy}
    (hproxy : cloud'.proxies[number]? = some proxy') : ProxyStep cloud cloud' number proxy' := by
  have kept : ∀ {proxy}, cloud.proxies[number]? = some proxy → ProxyStep cloud cloud' number proxy :=
    fun hold => .replied hold (.inl rfl)
  cases h with
  | tick => exact kept hproxy
  | registerInstallation => exact kept hproxy
  | revoke => exact kept hproxy
  | revoked => exact kept hproxy
  | request =>
      obtain ⟨hlen, -⟩ := List.getElem?_eq_some_iff.mp hproxy
      rw [List.length_append, List.length_singleton] at hlen
      rcases Nat.lt_or_eq_of_le (Nat.le_of_lt_succ hlen) with hlt | rfl
      · exact kept ((List.getElem?_append_left hlt).symm.trans hproxy)
      · simp only [List.getElem?_concat_length] at hproxy
        cases hproxy
        exact .arrived rfl
  | proxy hold hmove =>
      rcases Process.setProxy_cases hproxy with ⟨rfl, rfl⟩ | ⟨-, hold'⟩
      · exact .moved hold hmove
      · exact kept hold'
  | enqueue hold htask =>
      rcases Process.setProxy_cases hproxy with ⟨rfl, rfl⟩ | ⟨-, hold'⟩
      · exact .admitted hold htask
      · exact kept hold'
  | connect => exact kept hproxy
  | register => exact kept hproxy
  | take => exact kept hproxy
  | session => exact kept hproxy
  | @settle _ n session session' exchange result hsession _ hrunning hnone =>
      rcases Process.setReply_cases hproxy with ⟨proxy, hold, hreply, rfl⟩ | ⟨-, hold⟩
      · refine .replied hold (.inr ⟨n, session, session', .running, exchange, hsession, hrunning,
          hreply.symm, ?_, hnone, hnone⟩)
        rw [Process.setReply_sessions]
        exact Process.setSession_self hsession _
      · exact kept hold
  | unregister => exact kept hproxy
  | @leave _ n session removed db hsession =>
      rcases Process.dropQueue_cases hproxy with ⟨exchange, proxy, hqueue, hold, hreply, rfl⟩ | hold
      · refine .replied hold (.inr ⟨n, session, { session with queue := none, task := .ended },
          .queue, exchange, hsession, hqueue, hreply.symm, ?_, rfl, rfl⟩)
        rw [Process.dropQueue_sessions]
        exact Process.setSession_self hsession _
      · exact kept hold

theorem Move.sessionMove (h : Move cloud a cloud') (hsession : cloud'.sessions[number]? = some session') :
    SessionMove cloud a cloud' number session' := by
  have kept : cloud.sessions[number]? = some session' → SessionMove cloud a cloud' number session' :=
    fun hold => .calm hold (.refl _) (.inl rfl)
  cases h with
  | tick => exact kept hsession
  | registerInstallation => exact kept hsession
  | revoke => exact kept hsession
  | revoked => exact kept hsession
  | request => exact kept hsession
  | proxy => exact kept hsession
  | @enqueue _ other proxy registration request session hproxy htask hold hqueue =>
      rcases Process.setSession_cases hsession with ⟨rfl, rfl⟩ | ⟨-, hold'⟩
      · exact .admitted hold hqueue hproxy htask rfl (Process.setProxy_self hproxy _)
      · exact kept hold'
  | connect =>
      obtain ⟨hlen, -⟩ := List.getElem?_eq_some_iff.mp hsession
      rw [List.length_append, List.length_singleton] at hlen
      rcases Nat.lt_or_eq_of_le (Nat.le_of_lt_succ hlen) with hlt | rfl
      · exact kept ((List.getElem?_append_left hlt).symm.trans hsession)
      · simp only [List.getElem?_concat_length] at hsession
        cases hsession
        exact .connected rfl
  | register hold htask hlock hroute =>
      rcases Process.setSession_cases hsession with ⟨rfl, rfl⟩ | ⟨-, hold'⟩
      · exact .registered hold htask hlock hroute
      · exact kept hold'
  | take hold htask hqueue =>
      rcases Process.setSession_cases hsession with ⟨rfl, rfl⟩ | ⟨-, hold'⟩
      · exact .taken hold htask hqueue rfl
      · exact kept hold'
  | session hold hcalm hrunning =>
      rcases Process.setSession_cases hsession with ⟨rfl, rfl⟩ | ⟨-, hold'⟩
      · exact .calm hold hcalm (.inl hrunning)
      · exact kept hold'
  | settle hold hcalm _ hrunning =>
      rw [Process.setReply_sessions] at hsession
      rcases Process.setSession_cases hsession with ⟨rfl, rfl⟩ | ⟨-, hold'⟩
      · exact .calm hold hcalm (.inr hrunning)
      · exact kept hold'
  | unregister hold htask =>
      rcases Process.setSession_cases hsession with ⟨rfl, rfl⟩ | ⟨-, hold'⟩
      · refine .calm hold (Session.calm_of_not_serving (fun _ => trivial) ?_) (.inr rfl)
        simp [Session.Serving]
      · exact kept hold'
  | leave hold htask =>
      rw [Process.dropQueue_sessions] at hsession
      rcases Process.setSession_cases hsession with ⟨rfl, rfl⟩ | ⟨-, hold'⟩
      · exact .left hold htask
      · exact kept hold'

/-- A session keeps its installation, and stays registered once it was. -/
theorem Move.session_kept (h : Move cloud a cloud') {session : Session}
    (hsession : cloud.sessions[number]? = some session) :
    ∃ session', cloud'.sessions[number]? = some session' ∧
      session'.installationId = session.installationId ∧ (session.Joined → session'.Joined) := by
  have kept : cloud'.sessions[number]? = cloud.sessions[number]? →
      ∃ session', cloud'.sessions[number]? = some session' ∧
        session'.installationId = session.installationId ∧ (session.Joined → session'.Joined) :=
    fun hsame => ⟨session, hsame.trans hsession, rfl, id⟩
  have set : ∀ {other old new}, cloud'.sessions = (cloud.setSession other new).sessions →
      cloud.sessions[other]? = some old → new.installationId = old.installationId →
      (old.Joined → new.Joined) → ∃ session', cloud'.sessions[number]? = some session' ∧
        session'.installationId = session.installationId ∧ (session.Joined → session'.Joined) := by
    intro other old new hset hold hid hjoined
    by_cases hne : number = other
    · subst hne
      obtain rfl := Option.some.inj (hold.symm.trans hsession)
      exact ⟨new, hset ▸ Process.setSession_self hold new, hid, hjoined⟩
    · exact kept (hset ▸ Process.setSession_of_ne hne new)
  cases h with
  | tick => exact kept rfl
  | registerInstallation => exact kept rfl
  | revoke => exact kept rfl
  | revoked => exact kept rfl
  | request => exact kept rfl
  | proxy => exact kept rfl
  | enqueue _ _ hold _ _ => exact set rfl hold rfl id
  | connect =>
      obtain ⟨hlt, -⟩ := List.getElem?_eq_some_iff.mp hsession
      exact kept (List.getElem?_append_left hlt)
  | register hold _ _ _ => exact set rfl hold rfl fun _ => trivial
  | take hold _ _ => exact set rfl hold rfl fun _ => trivial
  | session hold hcalm _ => exact set rfl hold hcalm.installationId hcalm.joined
  | settle hold hcalm _ _ =>
      exact set (Process.setReply_sessions _ _ _) hold hcalm.installationId hcalm.joined
  | unregister hold _ _ _ => exact set rfl hold rfl fun _ => trivial
  | leave hold _ _ => exact set (Process.dropQueue_sessions _ _) hold rfl fun _ => trivial

end

end Cresix.Cloud
