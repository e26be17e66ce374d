import Cresix.Cloud.Relay
import Cresix.Relay.Fidelity
import Cresix.Rust.Serde

/-!
# The budget of a session

Requests to one installation, one after another, over one session.  The
session gives each of them to `execute_exchange`, and both ends take their
steps in any order.  A session sees a bounded number of request identifiers.
It serves the requests for which the budget lasts, and it is the next request
that finds the budget used up (`servesAll_iff`).
-/

namespace Cresix.Cloud

open Relay
open Relay.Tunnel (Stage)
open Rust (Uuid)
open Transition (System Event)

/-! ## One session and its requests -/

/-- A request to the relay route, with what it meets. -/
structure Call where
  exchange : ProxyExchange
  /-- The identifier that is drawn for it. -/
  requestId : Uuid
  /-- When the session takes it. -/
  takenAt : Nat
  /-- What the installation answers. -/
  response : ProxyResponse

namespace Call

/-- The deadline the connector is told. -/
def deadline (call : Call) : UInt64 := deadlineUnixMs call.takenAt

/-- The response of the connector, as the client receives it. -/
def answer (call : Call) : ProxyReply :=
  proxyResponse ⟨call.response.status, call.response.headers, call.response.body⟩

/-- Both ends accept the frames of the request and of the response. -/
def Valid (codec : ControlCodec) (call : Call) : Prop :=
  ∃ start, call.exchange.request.startFrame call.requestId call.deadline = .ok start ∧
    Exchangeable codec start call.exchange.request.body call.response

/-- How many steps are taken for the request. -/
def steps (call : Call) : Nat :=
  match call.exchange.request.startFrame call.requestId call.deadline with
  | .ok start =>
      2 * (requestFrames start call.exchange.request.body).length + 2 +
        2 * (responseFrames start.requestId call.response).length + 2
  | .error _ => 0

end Call

/-- A session, its connector, and the requests to the installation. -/
structure Line where
  session : Session
  connector : ConnectorEnd
  toConnector : List Message
  toRelay : List Message
  /-- The requests without an answer.  The first of them may be submitted. -/
  calls : List Call
  /-- What the clients received. -/
  answers : List ProxyReply

inductive LineAction where
  /-- The next request is submitted, and the session takes it. -/
  | submit
  /-- A step of the exchange. -/
  | tunnel (action : TunnelAction)
  /-- The session replies. -/
  | finish

namespace Line

/-- The exchange the session is in. -/
def exchanging (x : Line) : Option (ProxyExchange × Tunnel) :=
  match x.session.task with
  | .executing exchange requestId task =>
      some (exchange,
        ⟨⟨x.session.protocol, requestId, task⟩, x.connector, x.toConnector, x.toRelay⟩)
  | _ => none

/-- The exchange goes on. -/
def carry (x : Line) (exchange : ProxyExchange) (t : Tunnel) : Line :=
  { x with
    session := x.session.execute exchange t.relay
    connector := t.connector
    toConnector := t.toConnector
    toRelay := t.toRelay }

/-- One step; `none` when it cannot be taken. -/
def step (codec : ControlCodec) (config : LoadedConfig) (x : Line) : LineAction → Option Line
  | .submit =>
      match x.session.task, x.calls with
      | .idle, call :: _ =>
          some { x with session := x.session.take call.takenAt call.exchange call.requestId }
      | _, _ => none
  | .tunnel action =>
      match x.exchanging with
      | some (exchange, t) => (t.step codec config action).map (x.carry exchange)
      | none => none
  | .finish =>
      match x.session.task, x.calls with
      | .executing _ _ (.returned result), _ :: calls =>
          some { x with
            session := x.session.afterExchange result
            calls
            answers := x.answers ++ [replyOf result] }
      | _, _ => none

/-- No deadline expires, and the installation answers each request with its response. -/
def InTime : Line → LineAction → Line → Prop
  | x, .tunnel action, _ => ∀ call, x.calls.head? = some call →
      ∀ t u, Tunnel.InTime call.deadline call.response t action u
  | _, _, _ => True

/-- The session waits for requests. -/
def opened (installationId : Uuid) (route : Option String) (relay connector : RelaySessionState)
    (calls : List Call) : Line where
  session := ⟨installationId, route, relay, none, .idle⟩
  connector := .idle connector
  toConnector := []
  toRelay := []
  calls := calls
  answers := []

/-- The session with a connector that is there and answers in time. -/
def system (codec : ControlCodec) (config : LoadedConfig) (start : Line → Prop) :
    System Line LineAction :=
  (System.ofOption start (step codec config)).restrict InTime

end Line

/-- Each end has done its handshake and has no request in flight, and both have seen the same
identifiers. -/
structure Healthy (relay connector : RelaySessionState) : Prop where
  relay_ready : relay.handshake = .ready
  relay_flows : relay.flows = ∅
  connector_ready : connector.handshake = .ready
  connector_flows : connector.flows = ∅
  seen : connector.seenRequestIds = relay.seenRequestIds
  budget : relay.seenRequestIds.card ≤ maxRequestIdsPerSession

/-- The identifiers that are drawn are new. -/
structure FreshIds (relay : RelaySessionState) (calls : List Call) : Prop where
  nodup : (calls.map Call.requestId).Nodup
  unseen : ∀ call ∈ calls, call.requestId ∉ relay.seenRequestIds

/-- Every run of the session gives each client the response of the connector: none of them anything
else, and no run stops or goes on for ever before all have it. -/
def ServesAll (codec : ControlCodec) (config : LoadedConfig) (x : Line) : Prop :=
  ∃ bound, ∀ tr y, (Line.system codec config (· = x)).Run x tr y →
    tr.length ≤ bound ∧ y.answers <+: x.calls.map Call.answer ∧
      (y.answers = x.calls.map Call.answer ∨
        ∃ a z, (Line.system codec config (· = x)).step y a z)

/-! ## Steps -/

section

variable {codec : ControlCodec} {config : LoadedConfig} {installationId : Uuid}
  {route : Option String} {relay connector : RelaySessionState} {calls done todo : List Call}
  {call : Call} {x y : Line} {n k : Nat} {t u : Tunnel} {start : RequestStartFrame}
  {init : Line → Prop} {a : LineAction}

/-- The session has answered some requests and waits. -/
def Line.waiting (installationId : Uuid) (route : Option String)
    (relay connector : RelaySessionState) (done todo : List Call) : Line where
  session := ⟨installationId, route, relay.finishedAll (done.map Call.requestId), none, .idle⟩
  connector := .idle (connector.finishedAll (done.map Call.requestId))
  toConnector := []
  toRelay := []
  calls := todo
  answers := done.map Call.answer

/-- The exchange of the next request begins. -/
def Line.beginning (relay connector : RelaySessionState) (done : List Call) (call : Call) :
    Tunnel :=
  .begin (relay.finishedAll (done.map Call.requestId))
    (connector.finishedAll (done.map Call.requestId)) call.requestId call.deadline
    call.exchange.request

theorem Line.step_submit :
    (Line.waiting installationId route relay connector done (call :: todo)).step codec config
      .submit =
      some ((Line.waiting installationId route relay connector done (call :: todo)).carry
        call.exchange (Line.beginning relay connector done call)) :=
  rfl

theorem Line.step_tunnel (exchange : ProxyExchange) (action : TunnelAction) :
    (x.carry exchange t).step codec config (.tunnel action) =
      (t.step codec config action).map (x.carry exchange) :=
  rfl

theorem Line.step_carry {action : TunnelAction} (exchange : ProxyExchange)
    (h : t.step codec config action = some u) :
    (x.carry exchange t).step codec config (.tunnel action) = some (x.carry exchange u) := by
  rw [step_tunnel, h]
  rfl

/-- What the session replies. -/
theorem Line.step_finish {result : Except String ProxyResult}
    (h : t.relay.task = .returned result) :
    ((Line.waiting installationId route relay connector done (call :: todo)).carry call.exchange
      t).step codec config .finish =
      some ⟨Session.afterExchange ⟨installationId, route, t.relay.state, none,
          .executing call.exchange t.relay.requestId t.relay.task⟩ result,
        t.connector, t.toConnector, t.toRelay, todo,
        done.map Call.answer ++ [replyOf result]⟩ := by
  simp only [step, carry, waiting, Session.execute, h]

/-- A condition on the steps does not look at the states. -/
theorem inTime_any {deadline : UInt64} {response : ProxyResponse} {action : TunnelAction}
    (h : Tunnel.InTime deadline response t action u) (t' u' : Tunnel) :
    Tunnel.InTime deadline response t' action u' := by
  cases action with
  | connectorReceive now => exact h
  | answer id answer => exact h
  | _ => trivial

/-! ## Where the requests are -/

/-- After `n` steps some requests are answered, and the next one may be on its way. -/
inductive Line.At (codec : ControlCodec) (installationId : Uuid) (route : Option String)
    (relay connector : RelaySessionState) (calls : List Call) : Nat → Line → Prop where
  | waiting {done todo : List Call} {n : Nat} : calls = done ++ todo →
      n ≤ (done.map Call.steps).sum →
      At codec installationId route relay connector calls n
        (.waiting installationId route relay connector done todo)
  | exchanging {done todo : List Call} {call : Call} {start : RequestStartFrame} {n k : Nat}
      {t : Tunnel} : calls = done ++ call :: todo →
      call.exchange.request.startFrame call.requestId call.deadline = .ok start →
      Stage codec start call.exchange.request.body call.response
        (relay.finishedAll (done.map Call.requestId))
        (connector.finishedAll (done.map Call.requestId)) k t →
      n ≤ (done.map Call.steps).sum + 1 + k →
      At codec installationId route relay connector calls n
        ((Line.waiting installationId route relay connector done (call :: todo)).carry
          call.exchange t)

/-- The identifiers that were drawn so far, and the next one. -/
theorem FreshIds.next (hfresh : FreshIds relay (done ++ call :: todo)) :
    (done.map Call.requestId ++ [call.requestId]).Nodup ∧
      ∀ id ∈ done.map Call.requestId ++ [call.requestId], id ∉ relay.seenRequestIds := by
  have hids : (done ++ call :: todo).map Call.requestId =
      (done.map Call.requestId ++ [call.requestId]) ++ todo.map Call.requestId := by simp
  refine ⟨(List.nodup_append.mp (hids ▸ hfresh.nodup)).1, ?_⟩
  intro id hid
  have hmem : id ∈ (done ++ call :: todo).map Call.requestId := by
    rw [hids]
    exact List.mem_append_left _ hid
  obtain ⟨other, hother, rfl⟩ := List.mem_map.mp hmem
  exact hfresh.unseen other hother

/-- Both ends can take a request while the budget lasts. -/
theorem Healthy.idle (h : Healthy relay connector)
    (hfresh : FreshIds relay (done ++ call :: todo))
    (hroom : relay.seenRequestIds.card + done.length < maxRequestIdsPerSession) :
    (relay.finishedAll (done.map Call.requestId)).Idle call.requestId ∧
      (connector.finishedAll (done.map Call.requestId)).Idle call.requestId := by
  obtain ⟨hnodup, hunseen⟩ := hfresh.next
  rw [← List.length_map Call.requestId] at hroom
  refine ⟨RelaySessionState.idle_finishedAll h.relay_ready h.relay_flows hnodup hunseen hroom, ?_⟩
  rw [← h.seen] at hunseen hroom
  exact RelaySessionState.idle_finishedAll h.connector_ready h.connector_flows hnodup hunseen hroom

/-- Both ends accept the frames of the next request and of its response. -/
theorem Healthy.accepts (h : Healthy relay connector)
    (hfresh : FreshIds relay (done ++ call :: todo)) (hvalid : call.Valid codec)
    (hroom : relay.seenRequestIds.card + done.length < maxRequestIdsPerSession)
    (hstart : call.exchange.request.startFrame call.requestId call.deadline = .ok start) :
    Exchangeable codec start call.exchange.request.body call.response ∧
      (∃ r, (relay.finishedAll (done.map Call.requestId)).observeAll
        (requestFrames start call.exchange.request.body ++
          responseFrames start.requestId call.response) = some r) ∧
      ∃ c, (connector.finishedAll (done.map Call.requestId)).observeAll
        (requestFrames start call.exchange.request.body ++
          responseFrames start.requestId call.response) = some c := by
  obtain ⟨start', hstart', hex⟩ := hvalid
  cases hstart.symm.trans hstart'
  obtain ⟨hidle, hidle'⟩ := h.idle hfresh hroom
  obtain ⟨hid, -, -⟩ := Tunnel.startFrame_eq hstart
  rw [← hid] at hidle hidle'
  exact ⟨hex, ⟨_, Tunnel.observeAll_exchange hidle hex⟩, ⟨_, Tunnel.observeAll_exchange hidle' hex⟩⟩

/-- An exchange that returned has answered its request, and both ends wait for the next one. -/
theorem Line.finish_stage (config : LoadedConfig) (installationId : Uuid)
    (route : Option String) (todo : List Call)
    (hidle : (relay.finishedAll (done.map Call.requestId)).Idle call.requestId)
    (hidle' : (connector.finishedAll (done.map Call.requestId)).Idle call.requestId)
    (hstart : call.exchange.request.startFrame call.requestId call.deadline = .ok start)
    (hex : Exchangeable codec start call.exchange.request.body call.response)
    (hstage : Stage codec start call.exchange.request.body call.response
      (relay.finishedAll (done.map Call.requestId))
      (connector.finishedAll (done.map Call.requestId)) k t)
    {result : Except String ProxyResult} (htask : t.relay.task = .returned result) :
    ((Line.waiting installationId route relay connector done (call :: todo)).carry call.exchange
      t).step codec config .finish =
      some (.waiting installationId route relay connector (done ++ [call]) todo) := by
  obtain ⟨hid, -, -⟩ := Tunnel.startFrame_eq hstart
  rw [← hid] at hidle hidle'
  obtain ⟨rfl, -, r, c, hr, hc, rfl⟩ := hstage.task_returned htask
  rw [Tunnel.observeAll_exchange hidle hex] at hr
  rw [Tunnel.observeAll_exchange hidle' hex] at hc
  cases hr
  cases hc
  have hready : ((relay.finishedAll (done.map Call.requestId)).finished
      call.requestId).isReady = true := decide_eq_true hidle.ready
  rw [step_finish htask]
  simp only [Session.afterExchange, hready, if_true, waiting, List.map_append, List.map_cons,
    List.map_nil, RelaySessionState.finishedAll_append, hid]
  rfl

theorem Call.steps_eq
    (hstart : call.exchange.request.startFrame call.requestId call.deadline = .ok start) :
    call.steps = 2 * (requestFrames start call.exchange.request.body).length + 2 +
      2 * (responseFrames start.requestId call.response).length + 2 := by
  unfold steps
  rw [hstart]

theorem sum_steps_snoc (done : List Call) (call : Call) :
    ((done ++ [call]).map Call.steps).sum = (done.map Call.steps).sum + call.steps := by
  simp

/-- A step goes on with the request on its way, or with the next one. -/
theorem Line.At.step (hhealthy : Healthy relay connector) (hfresh : FreshIds relay calls)
    (hcalls : ∀ call ∈ calls, call.Valid codec)
    (hroom : relay.seenRequestIds.card + calls.length ≤ maxRequestIdsPerSession)
    (h : At codec installationId route relay connector calls n x)
    (hstep : x.step codec config a = some y) (htime : Line.InTime x a y) :
    At codec installationId route relay connector calls (n + 1) y := by
  cases h with
  | @waiting done todo _ hsplit hn =>
      cases a with
      | submit =>
          cases todo with
          | nil => cases hstep
          | cons call todo =>
              obtain ⟨start, hstart, hex⟩ := hcalls call (hsplit ▸ by simp)
              rw [Line.step_submit] at hstep
              cases hstep
              exact .exchanging hsplit hstart (Tunnel.stage_begin codec call.response _ _ hstart)
                (by omega)
      | tunnel action => cases hstep
      | finish => cases hstep
  | @exchanging done todo call start _ k t hsplit hstart hstage hn =>
      have hlast : relay.seenRequestIds.card + done.length < maxRequestIdsPerSession := by
        rw [hsplit, List.length_append, List.length_cons] at hroom
        omega
      obtain ⟨hex, haccepts, haccepts'⟩ :=
        hhealthy.accepts (hsplit ▸ hfresh) (hcalls call (hsplit ▸ by simp)) hlast hstart
      obtain ⟨hidle, hidle'⟩ := hhealthy.idle (hsplit ▸ hfresh) hlast
      obtain ⟨-, hdeadline, -⟩ := Tunnel.startFrame_eq hstart
      cases a with
      | submit => cases hstep
      | tunnel action =>
          rw [Line.step_tunnel] at hstep
          obtain ⟨u, hu, rfl⟩ := Option.map_eq_some_iff.mp hstep
          have htime' : Tunnel.InTime start.deadlineUnixMs call.response t action u := by
            rw [hdeadline]
            exact htime call rfl t u
          exact .exchanging hsplit hstart
            (hstage.step hex haccepts haccepts' hu htime') (by omega)
      | finish =>
          cases htask : t.relay.task with
          | sending frames => simp [Line.step, Line.carry, Session.execute, htask] at hstep
          | receiving status headers body =>
              simp [Line.step, Line.carry, Session.execute, htask] at hstep
          | returned result =>
              rw [Line.finish_stage _ _ _ _ hidle hidle' hstart hex hstage htask] at hstep
              cases hstep
              refine .waiting (by rw [hsplit, List.append_cons]) ?_
              have hle := hstage.le
              rw [sum_steps_snoc, Call.steps_eq hstart]
              omega

/-- Some step can be taken while a request has no answer. -/
theorem Line.At.progress (config : LoadedConfig) (hhealthy : Healthy relay connector)
    (hfresh : FreshIds relay calls) (hcalls : ∀ call ∈ calls, call.Valid codec)
    (hroom : relay.seenRequestIds.card + calls.length ≤ maxRequestIdsPerSession)
    (h : At codec installationId route relay connector calls n x) :
    x.answers = calls.map Call.answer ∨
      ∃ a y, x.step codec config a = some y ∧ Line.InTime x a y := by
  cases h with
  | @waiting done todo _ hsplit hn =>
      cases todo with
      | nil =>
          left
          rw [hsplit, List.append_nil]
          rfl
      | cons call todo => exact .inr ⟨.submit, _, Line.step_submit, trivial⟩
  | @exchanging done todo call start _ k t hsplit hstart hstage hn =>
      have hlast : relay.seenRequestIds.card + done.length < maxRequestIdsPerSession := by
        rw [hsplit, List.length_append, List.length_cons] at hroom
        omega
      obtain ⟨hex, haccepts, haccepts'⟩ :=
        hhealthy.accepts (hsplit ▸ hfresh) (hcalls call (hsplit ▸ by simp)) hlast hstart
      obtain ⟨hidle, hidle'⟩ := hhealthy.idle (hsplit ▸ hfresh) hlast
      obtain ⟨-, hdeadline, -⟩ := Tunnel.startFrame_eq hstart
      right
      rcases hstage.progress config hex haccepts haccepts' with
        ⟨result, htask⟩ | ⟨action, u, hu, htime⟩
      · have hfinish := Line.finish_stage config installationId route todo hidle hidle' hstart hex
          hstage htask
        exact ⟨.finish, _, hfinish, trivial⟩
      · refine ⟨.tunnel action, _, Line.step_carry call.exchange hu, ?_⟩
        intro other hother t' u'
        cases hother
        rw [hdeadline] at htime
        exact inTime_any htime t' u'

/-- The answers so far are the responses of the connector, and the steps are bounded. -/
theorem Line.At.answers (h : At codec installationId route relay connector calls n x) :
    n ≤ (calls.map Call.steps).sum ∧ x.answers <+: calls.map Call.answer := by
  cases h with
  | @waiting done todo _ hsplit hn =>
      rw [hsplit, List.map_append, List.map_append, List.sum_append]
      exact ⟨by omega, List.prefix_append _ _⟩
  | @exchanging done todo call start _ k t hsplit hstart hstage hn =>
      have hle := hstage.le
      rw [hsplit, List.map_append, List.map_append, List.map_cons, List.map_cons, List.sum_append,
        List.sum_cons, Call.steps_eq hstart]
      exact ⟨by omega, List.prefix_append _ _⟩

/-- A session serves the requests for which its budget lasts. -/
theorem servesAll_of_budget (config : LoadedConfig) (hhealthy : Healthy relay connector)
    (hfresh : FreshIds relay calls) (hcalls : ∀ call ∈ calls, call.Valid codec)
    (hroom : relay.seenRequestIds.card + calls.length ≤ maxRequestIdsPerSession) :
    ServesAll codec config (.opened installationId route relay connector calls) := by
  refine ⟨(calls.map Call.steps).sum, fun tr y hrun => ?_⟩
  have hat : Line.At codec installationId route relay connector calls tr.length y := by
    refine hrun.history (I := fun tr y =>
      Line.At codec installationId route relay connector calls tr.length y) ?_ ?_
    · exact @Line.At.waiting codec installationId route relay connector calls [] calls 0 rfl
        (Nat.zero_le _)
    · intro tr t a u _ h hstep
      rw [List.length_append]
      exact h.step hhealthy hfresh hcalls hroom hstep.1 hstep.2
  exact ⟨hat.answers.1, hat.answers.2, hat.progress config hhealthy hfresh hcalls hroom⟩

/-! ## When the budget is used up -/

/-- The steps of an exchange are steps of the session. -/
theorem Line.run_tunnel (init : Line → Prop) {head : Call} {tr : List (Event Tunnel TunnelAction)}
    {begun : Tunnel → Prop} (hhead : x.calls.head? = some head)
    (hrun : (Tunnel.timely codec config head.deadline head.response begun).Run t tr u) :
    ∃ tr', (Line.system codec config init).Run (x.carry head.exchange t) tr'
      (x.carry head.exchange u) := by
  induction hrun with
  | refl => exact ⟨[], .refl⟩
  | snoc _ hstep ih =>
      obtain ⟨tr', hrun⟩ := ih
      refine ⟨_, hrun.snoc ⟨Line.step_carry head.exchange hstep.1, ?_⟩⟩
      intro other hother t' u'
      cases hhead.symm.trans hother
      exact inTime_any hstep.2 t' u'

/-- A request is served. -/
theorem Line.serve_one (init : Line → Prop) (hhealthy : Healthy relay connector)
    (hfresh : FreshIds relay (done ++ call :: todo)) (hvalid : call.Valid codec)
    (hroom : relay.seenRequestIds.card + done.length < maxRequestIdsPerSession) :
    ∃ tr, (Line.system codec config init).Run
      (.waiting installationId route relay connector done (call :: todo)) tr
      (.waiting installationId route relay connector (done ++ [call]) todo) := by
  obtain ⟨start, hstart, hex⟩ := hvalid
  obtain ⟨-, haccepts, haccepts'⟩ :=
    hhealthy.accepts hfresh ⟨start, hstart, hex⟩ hroom hstart
  obtain ⟨hidle, hidle'⟩ := hhealthy.idle hfresh hroom
  obtain ⟨-, hdeadline, -⟩ := Tunnel.startFrame_eq hstart
  have hbegin := Tunnel.stage_begin codec call.response
    (relay.finishedAll (done.map Call.requestId)) (connector.finishedAll (done.map Call.requestId))
    hstart
  obtain ⟨tr, t, result, hrun, htask⟩ :=
    hbegin.completes config (fun _ => True) hex haccepts haccepts'
  have hstage := (hbegin.run hex haccepts haccepts' hrun).1
  rw [hdeadline] at hrun
  have hhead : (Line.waiting installationId route relay connector done
      (call :: todo)).calls.head? = some call := rfl
  obtain ⟨tr', hrun'⟩ := Line.run_tunnel init hhead hrun
  have hfinish := Line.finish_stage config installationId route todo hidle hidle' hstart hex hstage
    htask
  exact ⟨_, .cons ⟨Line.step_submit, trivial⟩ (hrun'.snoc ⟨hfinish, trivial⟩)⟩

/-- And so are requests that come one after another. -/
theorem Line.serve_many (init : Line → Prop) (hhealthy : Healthy relay connector)
    (front : List Call) (hfresh : FreshIds relay (done ++ (front ++ todo)))
    (hvalid : ∀ call ∈ front, call.Valid codec)
    (hroom : relay.seenRequestIds.card + (done ++ front).length ≤ maxRequestIdsPerSession) :
    ∃ tr, (Line.system codec config init).Run
      (.waiting installationId route relay connector done (front ++ todo)) tr
      (.waiting installationId route relay connector (done ++ front) todo) := by
  induction front generalizing done with
  | nil =>
      rw [List.append_nil]
      exact ⟨[], .refl⟩
  | cons call front ih =>
      rw [List.append_cons] at hroom ⊢
      have hlast : relay.seenRequestIds.card + done.length < maxRequestIdsPerSession := by
        simp only [List.length_append, List.length_singleton] at hroom
        omega
      have hrest : FreshIds relay (done ++ [call] ++ (front ++ todo)) := by
        rwa [List.cons_append, List.append_cons] at hfresh
      obtain ⟨tr, hrun⟩ := Line.serve_one init hhealthy hfresh (hvalid call List.mem_cons_self) hlast
      obtain ⟨tr', hrun'⟩ := ih hrest (fun other hmem => hvalid other (List.mem_cons_of_mem _ hmem))
        hroom
      exact ⟨_, hrun.trans hrun'⟩

/-- The request that finds the budget used up fails at its first frame. -/
theorem Line.beginning_full (hhealthy : Healthy relay connector)
    (hfresh : FreshIds relay (done ++ call :: todo)) (hvalid : call.Valid codec)
    (hfull : relay.seenRequestIds.card + done.length = maxRequestIdsPerSession) :
    ∃ t, (beginning relay connector done call).step codec config .relaySend = some t ∧
      t.relay.task = .returned (.error "relay state rejected control frame") := by
  obtain ⟨start, hstart, hex⟩ := hvalid
  obtain ⟨hnodup, hunseen⟩ := hfresh.next
  obtain ⟨hid, -, -⟩ := Tunnel.startFrame_eq hstart
  obtain ⟨hnew, hcard⟩ := RelaySessionState.fresh_finishedAll hnodup hunseen
  rw [List.length_map, hfull] at hcard
  rw [← hid] at hnew
  have hready : (relay.finishedAll (done.map Call.requestId)).handshake = .ready := by
    rw [RelaySessionState.finishedAll_eq]
    exact hhealthy.relay_ready
  have hflows : (relay.finishedAll (done.map Call.requestId)).flows = ∅ := by
    rw [RelaySessionState.finishedAll_eq]
    exact hhealthy.relay_flows
  have hobserve :=
    RelaySessionState.observe_start_full hready hflows hnew hcard.ge hex.start_valid
  have htask : (beginning relay connector done call).relay.task =
      .sending (requestFrames start call.exchange.request.body) := by
    simp only [beginning, Tunnel.begin, executeExchange, hstart]
  refine ⟨{ beginning relay connector done call with
    relay := ⟨relay.finishedAll (done.map Call.requestId), call.requestId,
      .returned (.error "relay state rejected control frame")⟩ }, ?_, rfl⟩
  simp only [Tunnel.step, htask, requestFrames, List.cons_append, RelayEnd.send]
  simp only [beginning, Tunnel.begin, executeExchange, hobserve, RelayEnd.fail, RelayEnd.sendError,
    List.append_nil]

/-- A session fails the request that finds its budget used up. -/
theorem not_servesAll_of_budget (config : LoadedConfig) (hhealthy : Healthy relay connector)
    (hfresh : FreshIds relay calls) (hcalls : ∀ call ∈ calls, call.Valid codec)
    (hmore : maxRequestIdsPerSession < relay.seenRequestIds.card + calls.length) :
    ¬ServesAll codec config (.opened installationId route relay connector calls) := by
  rintro ⟨bound, hserves⟩
  -- the requests for which the budget lasts, and the next one
  obtain ⟨front, call, todo, rfl, hfull⟩ : ∃ front call todo, calls = front ++ call :: todo ∧
      relay.seenRequestIds.card + front.length = maxRequestIdsPerSession := by
    have hbudget := hhealthy.budget
    generalize hroom : maxRequestIdsPerSession - relay.seenRequestIds.card = room
    have hlt : room < calls.length := by omega
    refine ⟨calls.take room, calls[room], calls.drop (room + 1), ?_, ?_⟩
    · rw [List.cons_getElem_drop_succ, List.take_append_drop]
    · rw [List.length_take]
      omega
  have hfront : ∀ call ∈ front, call.Valid codec := fun other hmem =>
    hcalls other (List.mem_append_left _ hmem)
  have hcall : call.Valid codec := hcalls call (List.mem_append_right _ List.mem_cons_self)
  obtain ⟨tr, hrun⟩ := @Line.serve_many codec config installationId route relay connector []
    (call :: todo) (· = .opened installationId route relay connector (front ++ call :: todo))
    hhealthy front hfresh hfront hfull.le
  obtain ⟨t, hsend, htask⟩ := @Line.beginning_full codec config relay connector front todo call
    hhealthy hfresh hcall hfull
  have hrun' := ((hrun.snoc ⟨Line.step_submit, trivial⟩).snoc
    ⟨Line.step_carry call.exchange hsend, fun _ _ _ _ => trivial⟩).snoc
    ⟨Line.step_finish htask, trivial⟩
  have hanswers : front.map Call.answer ++
      [replyOf (.error "relay state rejected control frame")] <+:
        (front ++ call :: todo).map Call.answer := (hserves _ _ hrun').2.1
  rw [List.map_append, List.map_cons, List.prefix_append_right_inj, List.cons_prefix_cons]
    at hanswers
  exact absurd (hanswers.1 ▸ replyOf_error_isError _) (proxyResponse_not_isError _)

/-- A session gives every client the response of the connector if and only if its budget lasts for
all the requests. -/
theorem servesAll_iff (config : LoadedConfig) (installationId : Uuid) (route : Option String)
    (hhealthy : Healthy relay connector) (hfresh : FreshIds relay calls)
    (hcalls : ∀ call ∈ calls, call.Valid codec) :
    ServesAll codec config (.opened installationId route relay connector calls) ↔
      relay.seenRequestIds.card + calls.length ≤ maxRequestIdsPerSession := by
  constructor
  · intro hserves
    by_contra hmore
    exact not_servesAll_of_budget config hhealthy hfresh hcalls (not_le.mp hmore) hserves
  · exact servesAll_of_budget config hhealthy hfresh hcalls

end

/-! ## One request too many -/

/-- What JSON writes of a control frame before the identifier of its request. -/
def textBefore (typeName : String) : String :=
  "\x7b" ++ (Json.renderString "type" ++ ":" ++ Json.renderString typeName ++ "," ++
    (Json.renderString "data" ++ ":" ++ ("\x7b" ++ (Json.renderString "requestId" ++ ":" ++ "\""))))

theorem render_requestId {frame : RelayControlFrame} {id : Uuid}
    {fields : List (String × Json.Value)}
    (h : frame.data = ("requestId", .str (Rust.hyphenated id)) :: fields) :
    ∃ rest, frame.toJson.render = textBefore frame.typeName ++ (Rust.hyphenated id ++ rest) := by
  cases fields with
  | nil =>
      refine ⟨"\"" ++ "\x7d" ++ "\x7d", ?_⟩
      simp only [RelayControlFrame.toJson, h, Json.Value.render, Json.renderFields,
        Rust.renderString_hyphenated, textBefore, String.append_assoc]
  | cons next fields =>
      refine ⟨"\"" ++ "," ++ Json.renderFields (next :: fields) ++ "\x7d" ++ "\x7d", ?_⟩
      simp only [RelayControlFrame.toJson, h, Json.Value.render, Json.renderFields,
        Rust.renderString_hyphenated, textBefore, String.append_assoc]

/-- The start of `postRequest` under an identifier. -/
def startOf (id : Uuid) : RequestStartFrame := { Tunnel.postStart with requestId := id }

/-- The control frames of an exchange. -/
inductive FrameKind where
  | requestStart
  | requestEnd
  | responseStart
  | responseEnd
deriving DecidableEq

namespace FrameKind

def all : List FrameKind := [requestStart, requestEnd, responseStart, responseEnd]

theorem mem_all (kind : FrameKind) : kind ∈ all := by
  cases kind <;> decide

/-- The frame in the exchange of `postRequest`, under another identifier. -/
def frame (id : Uuid) : FrameKind → RelayControlFrame
  | requestStart => .requestStart (startOf id)
  | requestEnd => .requestEnd ⟨id⟩
  | responseStart => .responseStart ⟨id, 200, []⟩
  | responseEnd => .responseEnd ⟨id⟩

def typeName (kind : FrameKind) : String := (kind.frame 0).typeName

end FrameKind

/-- Reads the control frames of these exchanges. -/
def readFrameKind (text : String) : Option RelayControlFrame :=
  (FrameKind.all.find? fun kind =>
    (textBefore kind.typeName).toList.isPrefixOf text.toList).map fun kind =>
      kind.frame (BitVec.ofNat 128 (Rust.ofHex
        ((text.toList.drop (textBefore kind.typeName).toList.length).take 36)))

theorem textBefore_prefix_iff {kind kind' : FrameKind} (rest : List Char) :
    (textBefore kind'.typeName).toList <+: (textBefore kind.typeName).toList ++ rest ↔
      kind' = kind := by
  constructor
  · intro h
    have hclosed : ∀ first ∈ FrameKind.all, ∀ second ∈ FrameKind.all, first ≠ second →
        ¬(textBefore first.typeName).toList <+: (textBefore second.typeName).toList := by
      decide +kernel
    by_contra hne
    rcases List.prefix_or_prefix_of_prefix h (List.prefix_append _ rest) with hshort | hlong
    · exact hclosed _ kind'.mem_all _ kind.mem_all hne hshort
    · exact hclosed _ kind.mem_all _ kind'.mem_all (Ne.symm hne) hlong
  · rintro rfl
    exact List.prefix_append _ _

/-- What is written of such a frame is read as the frame. -/
theorem readFrameKind_render (kind : FrameKind) (id : Uuid) :
    readFrameKind (kind.frame id).toJson.render = some (kind.frame id) := by
  obtain ⟨rest, htext⟩ : ∃ rest, (kind.frame id).toJson.render =
      textBefore kind.typeName ++ (Rust.hyphenated id ++ rest) := by
    cases kind with
    | requestStart => exact render_requestId rfl
    | requestEnd => exact render_requestId rfl
    | responseStart => exact render_requestId rfl
    | responseEnd => exact render_requestId rfl
  have hfind : (FrameKind.all.find? fun kind' => (textBefore kind'.typeName).toList.isPrefixOf
      (kind.frame id).toJson.render.toList) = some kind := by
    have hkind : ∀ kind' : FrameKind, (textBefore kind'.typeName).toList.isPrefixOf
        (kind.frame id).toJson.render.toList = decide (kind' = kind) := by
      intro kind'
      rw [htext, String.toList_append, Bool.eq_iff_iff, List.isPrefixOf_iff_prefix,
        textBefore_prefix_iff, decide_eq_true_iff]
    simp only [hkind]
    cases kind with
    | requestStart => rfl
    | requestEnd => rfl
    | responseStart => rfl
    | responseEnd => rfl
  rw [readFrameKind, hfind, Option.map_some, htext, String.toList_append, String.toList_append,
    List.drop_left, List.take_left' (Rust.length_hyphenated id), Rust.ofHex_hyphenated,
    BitVec.ofNat_toNat, BitVec.setWidth_eq]

/-- The JSON of these frames. -/
def exchangeCodec : ControlCodec := jsonCodec readFrameKind

/-- The `n`th request. -/
def sampleCall (n : Nat) : Call where
  exchange := ⟨Tunnel.postRequest, 30 * second, n⟩
  requestId := BitVec.ofNat 128 n
  takenAt := 0
  response := Tunnel.postResponse

/-- As many requests as there are identifiers in the budget, and one more. -/
def sampleCalls : List Call := (List.range (maxRequestIdsPerSession + 1)).map sampleCall

theorem carries_frameKind (kind : FrameKind) (id : Uuid) :
    exchangeCodec.Carries (kind.frame id) := by
  simp only [ControlCodec.Carries, exchangeCodec, jsonCodec, readFrameKind_render]

theorem short_requestStart (id : Uuid) :
    Rust.len (exchangeCodec.toString (.requestStart (startOf id))) ≤ maxControlBytes := by
  have hsize : Rust.len (exchangeCodec.toString (.requestStart (startOf id))) =
      (RelayControlFrame.requestStart (startOf id)).toJson.size := Json.utf8ByteSize_render _
  have hvalid : (Frame.control (.requestStart (startOf id))).Valid :=
    Tunnel.post_exchangeable.start_valid
  -- the identifier does not count
  have hfits : (RelayControlFrame.requestStart Tunnel.postStart).FitsControl := by
    unfold RelayControlFrame.FitsControl
    decide +kernel
  rw [hsize]
  exact (RelayControlFrame.fitsControl_iff hvalid).mp hfits

theorem short_requestEnd (id : Uuid) :
    Rust.len (exchangeCodec.toString (.requestEnd ⟨id⟩)) ≤ maxControlBytes := by
  have hsize : Rust.len (exchangeCodec.toString (.requestEnd ⟨id⟩)) =
      (RelayControlFrame.requestEnd ⟨id⟩).toJson.size := Json.utf8ByteSize_render _
  have hvalid : (Frame.control (.requestEnd ⟨id⟩)).Valid := trivial
  rw [hsize]
  exact (RelayControlFrame.fitsControl_iff hvalid).mp trivial

theorem sampleCall_valid (n : Nat) : (sampleCall n).Valid exchangeCodec := by
  have hdeadline : deadlineUnixMs 0 = 30000 := by decide +kernel
  have hstart : Tunnel.postRequest.startFrame (sampleCall n).requestId (deadlineUnixMs 0) =
      .ok (startOf (sampleCall n).requestId) := by
    rw [hdeadline]
    rfl
  refine ⟨_, hstart, ?_⟩
  exact {
    start_valid := Tunnel.post_exchangeable.start_valid
    body_le := Tunnel.post_exchangeable.body_le
    response_valid := Tunnel.post_exchangeable.response_valid
    responseBody_le := Tunnel.post_exchangeable.responseBody_le
    carries := by
      intro frame hframe
      rcases List.mem_append.mp hframe with hrequest | hresponse
      · rcases control_mem_requestFrames hrequest with rfl | rfl
        · exact carries_frameKind .requestStart (sampleCall n).requestId
        · exact carries_frameKind .requestEnd (sampleCall n).requestId
      · rcases control_mem_responseFrames hresponse with rfl | rfl
        · exact carries_frameKind .responseStart (sampleCall n).requestId
        · exact carries_frameKind .responseEnd (sampleCall n).requestId
    short := by
      intro frame hframe
      rcases control_mem_requestFrames hframe with rfl | rfl
      · exact short_requestStart _
      · exact short_requestEnd _ }

theorem healthy_ready : Healthy .ready .ready where
  relay_ready := rfl
  relay_flows := rfl
  connector_ready := rfl
  connector_flows := rfl
  seen := rfl
  budget := Nat.zero_le _

/-- The numbers are drawn as identifiers once each. -/
theorem freshIds_sample {n : Nat} (h : n ≤ 2 ^ 128) :
    FreshIds .ready ((List.range n).map sampleCall) where
  nodup := by
    rw [List.map_map]
    refine List.Nodup.map_on ?_ List.nodup_range
    intro i hi j hj heq
    have hval : BitVec.ofNat 128 i = BitVec.ofNat 128 j := heq
    have hmod := congrArg BitVec.toNat hval
    have hi' := List.mem_range.mp hi
    have hj' := List.mem_range.mp hj
    rwa [BitVec.toNat_ofNat, BitVec.toNat_ofNat, Nat.mod_eq_of_lt (by omega),
      Nat.mod_eq_of_lt (by omega)] at hmod
  unseen := by
    intro call _ hseen
    exact absurd hseen (Finset.notMem_empty _)

theorem servesAll_iff_one :
    ServesAll exchangeCodec ⟨1, by decide⟩
        (.opened 0 none .ready .ready ((List.range 1).map sampleCall)) ↔
      0 + 1 ≤ maxRequestIdsPerSession := by
  refine servesAll_iff ⟨1, by decide⟩ 0 none healthy_ready (freshIds_sample (by decide)) ?_
  intro call hcall
  obtain ⟨n, -, rfl⟩ := List.mem_map.mp hcall
  exact sampleCall_valid n

/-- A healthy session does not serve every request. -/
theorem session_fails_request :
    Healthy .ready .ready ∧ FreshIds .ready sampleCalls ∧
      (∀ call ∈ sampleCalls, call.Valid exchangeCodec) ∧
      ¬ServesAll exchangeCodec ⟨1, by decide⟩ (.opened 0 none .ready .ready sampleCalls) := by
  have hfresh : FreshIds .ready sampleCalls := freshIds_sample (by decide)
  have hcalls : ∀ call ∈ sampleCalls, call.Valid exchangeCodec := by
    intro call hcall
    obtain ⟨n, -, rfl⟩ := List.mem_map.mp hcall
    exact sampleCall_valid n
  refine ⟨healthy_ready, hfresh, hcalls, not_servesAll_of_budget _ healthy_ready hfresh hcalls ?_⟩
  rw [sampleCalls, List.length_map, List.length_range]
  exact Nat.lt_of_lt_of_le (Nat.lt_succ_self _) (Nat.le_add_left _ _)

end Cresix.Cloud
