import Cresix.Relay.SessionSafety
import Cresix.Relay.Streams

/-!
# Body fidelity

What the relay puts on the wire is what the connector reconstructs, and what
the upstream answers is what the relay returns.

`Stage` says what both drivers hold while the frames of a direction are
divided into the received ones, those in flight and those still to be sent.
Every step goes from a stage to the next one, and from each stage but the last
some step can be taken, so every exchange ends with the whole response at the
relay.
-/

namespace Cresix.Relay

open Rust (Uuid)
open Transition (System Event)
open RelaySessionState (Idle observeAll)

namespace Tunnel

/-- An exchange begins between two ends without a request in flight. -/
def begin (relay connector : RelaySessionState) (id : Uuid) (deadline : UInt64)
    (request : ProxyRequest) : Tunnel where
  relay := executeExchange relay id deadline request
  connector := .idle connector
  toConnector := []
  toRelay := []

/-- No deadline expires, and the upstream answers with the response. -/
def InTime (deadline : UInt64) (response : ProxyResponse) : Tunnel → TunnelAction → Tunnel → Prop
  | _, .connectorReceive now, _ => now < deadline
  | _, .answer _ answer, _ => answer = .ok response
  | _, _, _ => True

/-! ## Steps -/

section

variable {codec : ControlCodec} {config : LoadedConfig} {t : Tunnel}
variable {state : RelaySessionState} {frame : Frame} {rest : List Frame}
variable {message : Message} {messages : List Message}

theorem step_relaySend (htask : t.relay.task = .afterSending (frame :: rest))
    (hobs : t.relay.state.observe frame = (.ok (), state)) :
    t.step codec config .relaySend =
      some { t with
        relay := { t.relay with state, task := .afterSending rest }
        toConnector := t.toConnector ++ [frame.message codec] } := by
  simp only [step, htask, ExchangeTask.afterSending, RelayEnd.send_ok rest hobs]

theorem step_relayReceive {status : Option UInt16} {headers : List HeaderField}
    {bytes : List UInt8} {relay : RelayEnd} (htask : t.relay.task = .receiving status headers bytes)
    (hqueue : t.toRelay = message :: messages)
    (hreceive : t.relay.receive codec status headers bytes message = (relay, [])) :
    t.step codec config .relayReceive = some { t with relay, toRelay := messages } := by
  simp only [step, htask, hqueue, hreceive, List.append_nil]

theorem step_connectorReceive {now : UInt64} {connector : ConnectorEnd} (hfree : t.connector.Free)
    (hqueue : t.toConnector = message :: messages)
    (hreceive : t.connector.receive codec config now message = (connector, [])) :
    t.step codec config (.connectorReceive now) =
      some { t with connector, toConnector := messages } := by
  simp only [step, if_pos hfree, hqueue, hreceive, List.append_nil]

theorem step_connectorSend (hresult : t.connector.result = none)
    (houtbox : t.connector.outbox = frame :: rest)
    (hobs : t.connector.state.observe frame = (.ok (), state)) :
    t.step codec config .connectorSend =
      some { t with
        connector := { t.connector with state, outbox := rest }
        toRelay := t.toRelay ++ [frame.message codec] } := by
  simp only [step, hresult, houtbox, ConnectorEnd.send_ok rest hobs, Option.isSome_none,
    Bool.false_eq_true, if_false]

end

/-! ## Stages -/

section

variable {codec : ControlCodec} {config : LoadedConfig}
variable {start : RequestStartFrame} {body : List UInt8} {response : ProxyResponse}
variable {r₀ c₀ : RelaySessionState}

/-- Where an exchange is after `n` steps. -/
inductive Stage (codec : ControlCodec) (start : RequestStartFrame) (body : List UInt8)
    (response : ProxyResponse) (r₀ c₀ : RelaySessionState) : Nat → Tunnel → Prop where
  /-- The request is on its way. -/
  | requesting {received flight rest : List Frame} {r c : RelaySessionState} :
      received ++ (flight ++ rest) = requestFrames start body → flight ++ rest ≠ [] →
      r₀.observeAll (received ++ flight) = some r → c₀.observeAll received = some c →
      Stage codec start body response r₀ c₀ (2 * received.length + flight.length)
        { relay := ⟨r, start.requestId, .afterSending rest⟩
          connector := .collecting start c received
          toConnector := flight.map (Frame.message codec)
          toRelay := [] }
  /-- The upstream executes the request. -/
  | executing {r c : RelaySessionState} :
      r₀.observeAll (requestFrames start body) = some r →
      c₀.observeAll (requestFrames start body) = some c →
      Stage codec start body response r₀ c₀ (2 * (requestFrames start body).length)
        { relay := ⟨r, start.requestId, .afterSending []⟩
          connector := .executing start c (start.request body)
          toConnector := []
          toRelay := [] }
  /-- The answer waits for the session loop. -/
  | answered {r c : RelaySessionState} :
      r₀.observeAll (requestFrames start body) = some r →
      c₀.observeAll (requestFrames start body) = some c →
      Stage codec start body response r₀ c₀ (2 * (requestFrames start body).length + 1)
        { relay := ⟨r, start.requestId, .afterSending []⟩
          connector := { ConnectorEnd.idle c with
            active := {start.requestId}
            outgoing := [(start.requestId, .ok response)] }
          toConnector := []
          toRelay := [] }
  /-- The response is on its way. -/
  | responding {received flight rest : List Frame} {r c : RelaySessionState} :
      received ++ (flight ++ rest) = responseFrames start.requestId response →
      flight ++ rest ≠ [] →
      r₀.observeAll (requestFrames start body ++ received) = some r →
      c₀.observeAll (requestFrames start body ++ (received ++ flight)) = some c →
      Stage codec start body response r₀ c₀
        (2 * (requestFrames start body).length + 2 + (2 * received.length + flight.length))
        { relay := ⟨r, start.requestId, .collecting response received⟩
          connector := { ConnectorEnd.idle c with outbox := rest }
          toConnector := []
          toRelay := flight.map (Frame.message codec) }
  /-- The relay returned the response. -/
  | returned {r c : RelaySessionState} :
      r₀.observeAll (requestFrames start body ++ responseFrames start.requestId response) = some r →
      c₀.observeAll (requestFrames start body ++ responseFrames start.requestId response) = some c →
      Stage codec start body response r₀ c₀
        (2 * (requestFrames start body).length + 2 +
          2 * (responseFrames start.requestId response).length)
        { relay := ⟨r, start.requestId,
            .returned (.ok ⟨response.status, response.headers, response.body⟩)⟩
          connector := .idle c
          toConnector := []
          toRelay := [] }

variable {n m : Nat} {s t : Tunnel}

theorem Stage.congr (h : Stage codec start body response r₀ c₀ n s) (hn : n = m) (hs : s = t) :
    Stage codec start body response r₀ c₀ m t :=
  hn ▸ hs ▸ h

/-- The session accepts the frames of the exchange. -/
def Accepts (start : RequestStartFrame) (body : List UInt8) (response : ProxyResponse)
    (s : RelaySessionState) : Prop :=
  ∃ u, s.observeAll (requestFrames start body ++ responseFrames start.requestId response) = some u

/-- The next frame of the exchange is accepted. -/
theorem Accepts.next {s s' : RelaySessionState} {frames rest : List Frame} {frame : Frame}
    (h : Accepts start body response s)
    (hsplit : frames ++ frame :: rest =
      requestFrames start body ++ responseFrames start.requestId response)
    (hs : s.observeAll frames = some s') :
    ∃ s'', s'.observe frame = (.ok (), s'') ∧ s.observeAll (frames ++ [frame]) = some s'' := by
  obtain ⟨u, hall⟩ := h
  rw [← hsplit] at hall
  exact RelaySessionState.observeAll_next hall hs

/-! ### The steps that can be taken -/

theorem requesting_relaySend {received flight rest : List Frame} {frame : Frame}
    {r c : RelaySessionState} (hrelay : Accepts start body response r₀)
    (hframes : received ++ (flight ++ frame :: rest) = requestFrames start body)
    (hr : r₀.observeAll (received ++ flight) = some r) (hc : c₀.observeAll received = some c) :
    ∃ t, Tunnel.step codec config
      { relay := ⟨r, start.requestId, .afterSending (frame :: rest)⟩
        connector := .collecting start c received
        toConnector := flight.map (Frame.message codec)
        toRelay := [] } .relaySend = some t ∧
      Stage codec start body response r₀ c₀ (2 * received.length + flight.length + 1) t := by
  have hsplit : (received ++ flight) ++ frame :: (rest ++ responseFrames start.requestId response) =
      requestFrames start body ++ responseFrames start.requestId response := by
    rw [← hframes]
    simp
  obtain ⟨r', hobs, hr'⟩ := hrelay.next hsplit hr
  refine ⟨_, step_relaySend rfl hobs, ?_⟩
  rw [List.append_assoc] at hr'
  have hstage : Stage codec start body response r₀ c₀ _ _ :=
    .requesting (by simpa using hframes) (by simp) hr' hc
  exact hstage.congr (by simp; omega) (by simp)

theorem requesting_connectorReceive {received flight rest : List Frame} {frame : Frame}
    {r c : RelaySessionState} {now : UInt64} (hex : Exchangeable codec start body response)
    (hconnector : Accepts start body response c₀)
    (hframes : received ++ (frame :: flight ++ rest) = requestFrames start body)
    (hr : r₀.observeAll (received ++ frame :: flight) = some r)
    (hc : c₀.observeAll received = some c) (htime : now < start.deadlineUnixMs) :
    ∃ t, Tunnel.step codec config
      { relay := ⟨r, start.requestId, .afterSending rest⟩
        connector := .collecting start c received
        toConnector := (frame :: flight).map (Frame.message codec)
        toRelay := [] } (.connectorReceive now) = some t ∧
      Stage codec start body response r₀ c₀
        (2 * received.length + (frame :: flight).length + 1) t := by
  have hsplit : received ++ frame :: (flight ++ rest ++ responseFrames start.requestId response) =
      requestFrames start body ++ responseFrames start.requestId response := by
    rw [← hframes]
    simp
  obtain ⟨c', hobs, hc'⟩ := hconnector.next hsplit hc
  have hfree : (ConnectorEnd.collecting start c received).Free := by
    cases received <;> exact ⟨rfl, rfl⟩
  refine ⟨_, step_connectorReceive hfree rfl
    (ConnectorEnd.receive_next hex hframes htime hobs), ?_⟩
  split
  next hlast =>
    obtain ⟨rfl, rfl⟩ := List.append_eq_nil_iff.mp hlast
    have hwhole : received ++ [frame] = requestFrames start body := by simpa using hframes
    have hstage : Stage codec start body response r₀ c₀ _ _ :=
      .executing (hwhole ▸ hr) (hwhole ▸ hc')
    exact hstage.congr (by rw [← hwhole]; simp; omega) rfl
  next hmore =>
    have hstage : Stage codec start body response r₀ c₀ _ _ :=
      .requesting (by simpa using hframes) hmore (by simpa using hr) hc'
    exact hstage.congr (by simp; omega) rfl

theorem executing_answer {r c : RelaySessionState}
    (hr : r₀.observeAll (requestFrames start body) = some r)
    (hc : c₀.observeAll (requestFrames start body) = some c) :
    ∃ t, Tunnel.step codec config
      { relay := ⟨r, start.requestId, .afterSending []⟩
        connector := .executing start c (start.request body)
        toConnector := []
        toRelay := [] } (.answer start.requestId (.ok response)) = some t ∧
      Stage codec start body response r₀ c₀ (2 * (requestFrames start body).length + 1) t := by
  refine ⟨_, ?_, .answered hr hc⟩
  simp [Tunnel.step, ConnectorEnd.executing, ConnectorEnd.idle]

theorem answered_connectorTake {r c : RelaySessionState}
    (hr : r₀.observeAll (requestFrames start body) = some r)
    (hc : c₀.observeAll (requestFrames start body) = some c) :
    ∃ t, Tunnel.step codec config
      { relay := ⟨r, start.requestId, .afterSending []⟩
        connector := { ConnectorEnd.idle c with
          active := {start.requestId}
          outgoing := [(start.requestId, .ok response)] }
        toConnector := []
        toRelay := [] } .connectorTake = some t ∧
      Stage codec start body response r₀ c₀ (2 * (requestFrames start body).length + 2) t := by
  have hframes : [] ++ ([] ++ responseFrames start.requestId response) =
      responseFrames start.requestId response := rfl
  have hstage : Stage codec start body response r₀ c₀ _ _ :=
    .responding hframes nofun (by simpa using hr) (by simpa using hc)
  refine ⟨_, ?_, hstage⟩
  simp [Tunnel.step, ConnectorEnd.idle, ConnectorEnd.Free, ConnectorEnd.takeOutgoing,
    ExchangeTask.afterSending, ExchangeTask.collecting]

theorem responding_connectorSend {received flight rest : List Frame} {frame : Frame}
    {r c : RelaySessionState} (hconnector : Accepts start body response c₀)
    (hframes : received ++ (flight ++ frame :: rest) = responseFrames start.requestId response)
    (hr : r₀.observeAll (requestFrames start body ++ received) = some r)
    (hc : c₀.observeAll (requestFrames start body ++ (received ++ flight)) = some c) :
    ∃ t, Tunnel.step codec config
      { relay := ⟨r, start.requestId, .collecting response received⟩
        connector := { ConnectorEnd.idle c with outbox := frame :: rest }
        toConnector := []
        toRelay := flight.map (Frame.message codec) } .connectorSend = some t ∧
      Stage codec start body response r₀ c₀
        (2 * (requestFrames start body).length + 2 + (2 * received.length + flight.length) + 1)
          t := by
  have hsplit : (requestFrames start body ++ (received ++ flight)) ++ frame :: rest =
      requestFrames start body ++ responseFrames start.requestId response := by
    rw [← hframes]
    simp
  obtain ⟨c', hobs, hc'⟩ := hconnector.next hsplit hc
  refine ⟨_, step_connectorSend rfl rfl hobs, ?_⟩
  rw [List.append_assoc, List.append_assoc] at hc'
  have hstage : Stage codec start body response r₀ c₀ _ _ :=
    .responding (by simpa using hframes) (by simp) hr hc'
  exact hstage.congr (by simp; omega) (by simp [ConnectorEnd.idle])

theorem responding_relayReceive {received flight rest : List Frame} {frame : Frame}
    {r c : RelaySessionState} (hex : Exchangeable codec start body response)
    (hrelay : Accepts start body response r₀)
    (hframes : received ++ (frame :: flight ++ rest) = responseFrames start.requestId response)
    (hr : r₀.observeAll (requestFrames start body ++ received) = some r)
    (hc : c₀.observeAll (requestFrames start body ++ (received ++ frame :: flight)) = some c) :
    ∃ t, Tunnel.step codec config
      { relay := ⟨r, start.requestId, .collecting response received⟩
        connector := { ConnectorEnd.idle c with outbox := rest }
        toConnector := []
        toRelay := (frame :: flight).map (Frame.message codec) } .relayReceive = some t ∧
      Stage codec start body response r₀ c₀
        (2 * (requestFrames start body).length + 2 +
          (2 * received.length + (frame :: flight).length) + 1) t := by
  have hsplit : (requestFrames start body ++ received) ++ frame :: (flight ++ rest) =
      requestFrames start body ++ responseFrames start.requestId response := by
    rw [← hframes]
    simp
  obtain ⟨r', hobs, hr'⟩ := hrelay.next hsplit hr
  have hmem : frame ∈ responseFrames start.requestId response := by
    rw [← hframes]
    simp
  have hcarries : ∀ control, frame = .control control → codec.Carries control := by
    rintro control rfl
    exact hex.carries control (List.mem_append_right _ hmem)
  obtain ⟨status, headers, bytes, htask, hreceive⟩ :=
    RelayEnd.receive_next hcarries hex.responseBody_le hframes hobs
  refine ⟨_, step_relayReceive htask rfl hreceive, ?_⟩
  split
  next hlast =>
    obtain ⟨rfl, rfl⟩ := List.append_eq_nil_iff.mp hlast
    have hwhole : received ++ [frame] = responseFrames start.requestId response := by
      simpa using hframes
    have hstage : Stage codec start body response r₀ c₀ _ _ :=
      .returned (by rw [← hwhole]; simpa using hr') (by rw [← hwhole]; exact hc)
    exact hstage.congr (by rw [← hwhole]; simp; omega) rfl
  next hmore =>
    rw [List.append_assoc] at hr'
    have hstage : Stage codec start body response r₀ c₀ _ _ :=
      .responding (by simpa using hframes) hmore hr' (by simpa using hc)
    exact hstage.congr (by simp; omega) rfl

/-! ### Runs -/

theorem of_step_known {o : Option Tunnel} {P : Tunnel → Prop} (hstep : o = some t)
    (h : ∃ t', o = some t' ∧ P t') : P t := by
  obtain ⟨t', ht', hP⟩ := h
  rw [hstep] at ht'
  exact Option.some.inj ht' ▸ hP

/-- Every step goes to the next stage. -/
theorem Stage.step {a : TunnelAction} (hex : Exchangeable codec start body response)
    (hrelay : Accepts start body response r₀) (hconnector : Accepts start body response c₀)
    (h : Stage codec start body response r₀ c₀ n s) (hstep : s.step codec config a = some t)
    (htime : InTime start.deadlineUnixMs response s a t) :
    Stage codec start body response r₀ c₀ (n + 1) t := by
  cases h with
  | @requesting received flight rest r c hframes hmore hr hc =>
      cases a with
      | relaySend =>
          cases rest with
          | nil => cases hstep
          | cons frame rest => exact of_step_known hstep (requesting_relaySend hrelay hframes hr hc)
      | relayReceive => cases rest <;> cases hstep
      | connectorReceive now =>
          cases flight with
          | nil => cases received <;> cases hstep
          | cons frame flight =>
              exact of_step_known hstep
                (requesting_connectorReceive hex hconnector hframes hr hc htime)
      | answer id answer => cases received <;> cases hstep
      | connectorTake => cases received <;> cases hstep
      | connectorSend => cases received <;> cases hstep
  | executing hr hc =>
      cases a with
      | relaySend => cases hstep
      | relayReceive => cases hstep
      | connectorReceive now => cases hstep
      | answer id answer =>
          obtain rfl : answer = .ok response := htime
          rcases eq_or_ne start.requestId id with rfl | hne
          · exact of_step_known hstep (executing_answer hr hc)
          · simp [Tunnel.step, ConnectorEnd.executing, hne] at hstep
      | connectorTake => cases hstep
      | connectorSend => cases hstep
  | answered hr hc =>
      cases a with
      | relaySend => cases hstep
      | relayReceive => cases hstep
      | connectorReceive now => cases hstep
      | answer id answer => cases hstep
      | connectorTake => exact of_step_known hstep (answered_connectorTake hr hc)
      | connectorSend => cases hstep
  | @responding received flight rest r c hframes hmore hr hc =>
      cases a with
      | relaySend => cases received <;> cases hstep
      | relayReceive =>
          cases flight with
          | nil => cases received <;> cases hstep
          | cons frame flight =>
              exact of_step_known hstep (responding_relayReceive hex hrelay hframes hr hc)
      | connectorReceive now => cases rest <;> cases hstep
      | answer id answer => cases hstep
      | connectorTake => cases rest <;> cases hstep
      | connectorSend =>
          cases rest with
          | nil => cases hstep
          | cons frame rest =>
              exact of_step_known hstep (responding_connectorSend hconnector hframes hr hc)
  | returned hr hc =>
      cases a with
      | relaySend => cases hstep
      | relayReceive => cases hstep
      | connectorReceive now => cases hstep
      | answer id answer => cases hstep
      | connectorTake => cases hstep
      | connectorSend => cases hstep

/-- A valid request start has a deadline. -/
theorem deadline_pos (h : start.validate = .ok ()) : 0 < start.deadlineUnixMs := by
  unfold RequestStartFrame.validate at h
  split at h
  next => cases h
  next =>
    split at h
    next => cases h
    next hpos => exact UInt64.pos_iff_ne_zero.mpr hpos

/-- From every stage but the last one some step can be taken. -/
theorem Stage.progress (config : LoadedConfig) (hex : Exchangeable codec start body response)
    (hrelay : Accepts start body response r₀) (hconnector : Accepts start body response c₀)
    (h : Stage codec start body response r₀ c₀ n s) :
    (∃ result, s.relay.task = .returned result) ∨
      ∃ a t, s.step codec config a = some t ∧ InTime start.deadlineUnixMs response s a t := by
  cases h with
  | @requesting received flight rest r c hframes hmore hr hc =>
      cases flight with
      | cons frame flight =>
          have htime : 0 < start.deadlineUnixMs := deadline_pos hex.start_valid
          obtain ⟨t, hstep, _⟩ := requesting_connectorReceive hex hconnector hframes hr hc htime
          exact .inr ⟨.connectorReceive 0, t, hstep, htime⟩
      | nil =>
          cases rest with
          | nil => exact absurd rfl hmore
          | cons frame rest =>
              obtain ⟨t, hstep, _⟩ := requesting_relaySend hrelay hframes hr hc
              exact .inr ⟨.relaySend, t, hstep, trivial⟩
  | executing hr hc =>
      obtain ⟨t, hstep, _⟩ := executing_answer hr hc
      exact .inr ⟨.answer start.requestId (.ok response), t, hstep, rfl⟩
  | answered hr hc =>
      obtain ⟨t, hstep, _⟩ := answered_connectorTake hr hc
      exact .inr ⟨.connectorTake, t, hstep, trivial⟩
  | @responding received flight rest r c hframes hmore hr hc =>
      cases flight with
      | cons frame flight =>
          obtain ⟨t, hstep, _⟩ := responding_relayReceive hex hrelay hframes hr hc
          exact .inr ⟨.relayReceive, t, hstep, trivial⟩
      | nil =>
          cases rest with
          | nil => exact absurd rfl hmore
          | cons frame rest =>
              obtain ⟨t, hstep, _⟩ := responding_connectorSend hconnector hframes hr hc
              exact .inr ⟨.connectorSend, t, hstep, trivial⟩
  | returned hr hc => exact .inl ⟨_, rfl⟩

/-- The request an answer is for. -/
def answeredRequest (t : Tunnel) : TunnelAction → Option (Uuid × ProxyRequest)
  | .answer id _ => t.connector.upstream.find? (·.1 = id)
  | _ => none

/-- The requests that the upstream executed, in the order of its answers. -/
def executed (tr : List (Event Tunnel TunnelAction)) : List (Uuid × ProxyRequest) :=
  tr.filterMap fun e => e.pre.answeredRequest e.label

theorem executed_snoc (tr : List (Event Tunnel TunnelAction)) (e : Event Tunnel TunnelAction) :
    executed (tr ++ [e]) = executed tr ++ (e.pre.answeredRequest e.label).toList := by
  rw [executed, List.filterMap_append]
  rfl

/-- The upstream answers the one request, when all of it has arrived. -/
theorem Stage.answeredRequest_eq {a : TunnelAction} (h : Stage codec start body response r₀ c₀ n s)
    (hstep : s.step codec config a = some t) :
    s.answeredRequest a = if n = 2 * (requestFrames start body).length
      then some (start.requestId, start.request body) else none := by
  cases h with
  | @requesting received flight rest r c hframes hmore hr hc =>
      have hlength := congrArg List.length hframes
      have hpos := List.length_pos_of_ne_nil hmore
      rw [List.length_append] at hlength hpos
      rw [List.length_append] at hlength
      rw [if_neg (by omega)]
      cases a with
      | answer id answer => cases received <;> cases hstep
      | _ => rfl
  | executing hr hc =>
      rw [if_pos rfl]
      cases a with
      | answer id answer =>
          rcases eq_or_ne start.requestId id with rfl | hne
          · simp [answeredRequest, ConnectorEnd.executing]
          · simp [Tunnel.step, ConnectorEnd.executing, hne] at hstep
      | _ => cases hstep
  | answered hr hc =>
      rw [if_neg (by omega)]
      cases a <;> rfl
  | responding hframes hmore hr hc =>
      rw [if_neg (by omega)]
      cases a <;> rfl
  | returned hr hc =>
      rw [if_neg (by omega)]
      cases a <;> rfl

/-- The stages are numbered up to the last one. -/
theorem Stage.le (h : Stage codec start body response r₀ c₀ n s) :
    n ≤ 2 * (requestFrames start body).length + 2 +
      2 * (responseFrames start.requestId response).length := by
  cases h with
  | requesting hframes =>
      have hlength := congrArg List.length hframes
      rw [List.length_append, List.length_append] at hlength
      omega
  | executing => omega
  | answered => omega
  | responding hframes =>
      have hlength := congrArg List.length hframes
      rw [List.length_append, List.length_append] at hlength
      omega
  | returned => omega

/-- At every stage the drivers go on, or the relay returned the response. -/
theorem Stage.task_returned {result : Except String ProxyResult}
    (h : Stage codec start body response r₀ c₀ n s) (htask : s.relay.task = .returned result) :
    result = .ok ⟨response.status, response.headers, response.body⟩ ∧
      2 * (requestFrames start body).length < n ∧
      ∃ r c, r₀.observeAll (requestFrames start body ++
          responseFrames start.requestId response) = some r ∧
        c₀.observeAll (requestFrames start body ++
          responseFrames start.requestId response) = some c ∧
        s = ⟨⟨r, start.requestId, .returned result⟩, .idle c, [], []⟩ := by
  cases h with
  | @requesting received flight rest r c => cases rest <;> cases htask
  | executing => cases htask
  | answered => cases htask
  | @responding received flight rest r c => cases received <;> cases htask
  | returned hr hc =>
      cases htask
      exact ⟨rfl, by omega, _, _, hr, hc, rfl⟩

theorem Stage.result_none (h : Stage codec start body response r₀ c₀ n s) :
    s.connector.result = none := by
  cases h with
  | @requesting received => cases received <;> rfl
  | executing => rfl
  | answered => rfl
  | responding => rfl
  | returned => rfl

/-- The upstream executes nothing but the request. -/
theorem Stage.upstream_eq (h : Stage codec start body response r₀ c₀ n s) :
    ∀ entry ∈ s.connector.upstream, entry = (start.requestId, start.request body) := by
  cases h with
  | @requesting received => cases received <;> nofun
  | executing => exact fun _ hentry => List.mem_singleton.mp hentry
  | answered => nofun
  | responding => nofun
  | returned => nofun

/-- The connection with no deadline expiring. -/
def timely (codec : ControlCodec) (config : LoadedConfig) (deadline : UInt64)
    (response : ProxyResponse) (start : Tunnel → Prop) : System Tunnel TunnelAction :=
  (system codec config start).restrict (InTime deadline response)

/-- The run lemma: after `n` steps an exchange is at a stage `n`. -/
theorem Stage.run {init : Tunnel → Prop} {tr : List (Event Tunnel TunnelAction)}
    (hstart : Stage codec start body response r₀ c₀ 0 s)
    (hex : Exchangeable codec start body response) (hrelay : Accepts start body response r₀)
    (hconnector : Accepts start body response c₀)
    (hrun : (timely codec config start.deadlineUnixMs response init).Run s tr t) :
    Stage codec start body response r₀ c₀ tr.length t ∧
      executed tr = if tr.length ≤ 2 * (requestFrames start body).length
        then [] else [(start.requestId, start.request body)] := by
  refine hrun.history (I := fun tr t => Stage codec start body response r₀ c₀ tr.length t ∧
    executed tr = if tr.length ≤ 2 * (requestFrames start body).length
      then [] else [(start.requestId, start.request body)]) ⟨hstart, rfl⟩ ?_
  rintro tr t a u - ⟨hstage, hexecuted⟩ ⟨hstep, htime⟩
  have hstep : t.step codec config a = some u := hstep
  refine ⟨?_, ?_⟩
  · rw [List.length_append]
    exact hstage.step hex hrelay hconnector hstep htime
  · rw [executed_snoc, hexecuted, hstage.answeredRequest_eq hstep, List.length_append,
      List.length_singleton]
    rcases Nat.lt_trichotomy tr.length (2 * (requestFrames start body).length) with
      hlt | heq | hgt
    · rw [if_pos (by omega), if_neg (by omega), if_pos (by omega)]
      rfl
    · rw [if_pos (by omega), if_pos heq, if_neg (by omega)]
      rfl
    · rw [if_neg (by omega), if_neg (by omega), if_neg (by omega)]
      rfl

/-- Some run leads from every stage to the last one. -/
theorem Stage.completes {n : Nat} {s : Tunnel} (config : LoadedConfig) (init : Tunnel → Prop)
    (hex : Exchangeable codec start body response) (hrelay : Accepts start body response r₀)
    (hconnector : Accepts start body response c₀)
    (h : Stage codec start body response r₀ c₀ n s) :
    ∃ tr t result, (timely codec config start.deadlineUnixMs response init).Run s tr t ∧
      t.relay.task = .returned result := by
  rcases h.progress config hex hrelay hconnector with ⟨result, hreturned⟩ | ⟨a, u, hstep, htime⟩
  · exact ⟨[], s, result, .refl, hreturned⟩
  · have hnext := h.step hex hrelay hconnector hstep htime
    have hle := hnext.le
    obtain ⟨tr, t, result, hrun, hreturned⟩ :=
      Stage.completes config init hex hrelay hconnector hnext
    exact ⟨_, t, result, .cons ⟨hstep, htime⟩ hrun, hreturned⟩
termination_by 2 * (requestFrames start body).length + 2 +
  2 * (responseFrames start.requestId response).length - n

end

/-! ## Fidelity -/

section

variable {codec : ControlCodec} {config : LoadedConfig} {relay connector : RelaySessionState}
variable {id : Uuid} {deadline : UInt64} {request : ProxyRequest} {start : RequestStartFrame}
variable {response : ProxyResponse}

/-- The exchange of a request and its response, with no deadline expiring. -/
def exchange (codec : ControlCodec) (config : LoadedConfig) (relay connector : RelaySessionState)
    (id : Uuid) (deadline : UInt64) (request : ProxyRequest) (response : ProxyResponse) :
    System Tunnel TunnelAction :=
  timely codec config deadline response (· = begin relay connector id deadline request)

/-- The relay returned the response and both ends can take the next request. -/
def completed (relay connector : RelaySessionState) (id : Uuid) (response : ProxyResponse) :
    Tunnel where
  relay := ⟨relay.finished id, id,
    .returned (.ok ⟨response.status, response.headers, response.body⟩)⟩
  connector := .idle (connector.finished id)
  toConnector := []
  toRelay := []

theorem startFrame_eq (h : request.startFrame id deadline = .ok start) :
    start.requestId = id ∧ start.deadlineUnixMs = deadline ∧ start.request request.body = request := by
  unfold ProxyRequest.startFrame HttpMethod.new at h
  split at h
  next hmethod =>
    cases h
    exact ⟨rfl, rfl, rfl⟩
  next => cases h

theorem observeAll_exchange {s : RelaySessionState} {body : List UInt8} (hidle : s.Idle start.requestId)
    (hex : Exchangeable codec start body response) :
    s.observeAll (requestFrames start body ++ responseFrames start.requestId response) =
      some (s.finished start.requestId) := by
  rw [RelaySessionState.observeAll_append
    (RelaySessionState.observeAll_requestFrames hidle hex.start_valid hex.body_le)]
  exact RelaySessionState.observeAll_responseFrames hidle hex.response_valid hex.responseBody_le

theorem stage_begin (codec : ControlCodec) (response : ProxyResponse)
    (relay connector : RelaySessionState) (hstart : request.startFrame id deadline = .ok start) :
    Stage codec start request.body response relay connector 0
      (begin relay connector id deadline request) := by
  obtain ⟨rfl, rfl, _⟩ := startFrame_eq hstart
  have hframes : [] ++ ([] ++ requestFrames start request.body) =
      requestFrames start request.body := rfl
  have hstage : Stage codec start request.body response relay connector _ _ :=
    .requesting hframes nofun rfl rfl
  refine hstage.congr rfl ?_
  unfold begin executeExchange
  rw [hstart]
  rfl

/-- In every order of the steps neither end's session state rejects a frame, since a driver whose
state does ends with an error; the upstream executes the request given to `execute_exchange`; what
`execute_exchange` returns is the upstream's response; and it does return. -/
theorem exchange_fidelity (hrelay : relay.Idle id) (hconnector : connector.Idle id)
    (hstart : request.startFrame id deadline = .ok start)
    (hex : Exchangeable codec start request.body response)
    {tr : List (Event Tunnel TunnelAction)} {t : Tunnel}
    (hrun : (exchange codec config relay connector id deadline request response).Run
      (begin relay connector id deadline request) tr t) :
    (∀ e, t.relay.task ≠ .returned (.error e)) ∧ t.connector.result = none ∧
    (∀ entry ∈ t.connector.upstream ++ executed tr, entry = (id, request)) ∧
    (∀ result, t.relay.task = .returned (.ok result) →
      result = ⟨response.status, response.headers, response.body⟩ ∧
      executed tr = [(id, request)] ∧ t = completed relay connector id response) ∧
    tr.length ≤ 2 * (requestFrames start request.body).length + 2 +
      2 * (responseFrames id response).length ∧
    ((∃ result, t.relay.task = .returned result) ∨
      ∃ a u, (exchange codec config relay connector id deadline request response).step t a u) := by
  obtain ⟨rfl, rfl, hrequest⟩ := startFrame_eq hstart
  have hrelayAll := observeAll_exchange hrelay hex
  have hconnectorAll := observeAll_exchange hconnector hex
  have hbegin := stage_begin codec response relay connector hstart
  obtain ⟨hstage, hexecuted⟩ := hbegin.run hex ⟨_, hrelayAll⟩ ⟨_, hconnectorAll⟩ hrun
  rw [hrequest] at hexecuted
  refine ⟨?_, hstage.result_none, ?_, ?_, hstage.le, ?_⟩
  · intro e htask
    cases (hstage.task_returned htask).1
  · intro entry hentry
    rcases List.mem_append.mp hentry with hnow | hbefore
    · rw [hstage.upstream_eq entry hnow, hrequest]
    · rw [hexecuted] at hbefore
      split at hbefore
      next => cases hbefore
      next => exact List.mem_singleton.mp hbefore
  · intro result htask
    obtain ⟨hresult, hlate, r, c, hr, hc, hfinal⟩ := hstage.task_returned htask
    rw [hrelayAll] at hr
    rw [hconnectorAll] at hc
    cases hr
    cases hc
    cases hresult
    exact ⟨rfl, hexecuted.trans (if_neg (Nat.not_le.mpr hlate)), hfinal⟩
  · rcases hstage.progress config hex ⟨_, hrelayAll⟩ ⟨_, hconnectorAll⟩ with
      hreturned | ⟨a, u, hstep, htime⟩
    · exact .inl hreturned
    · exact .inr ⟨a, u, hstep, htime⟩

/-- Some run returns. -/
theorem exchange_completes (config : LoadedConfig) (hrelay : relay.Idle id)
    (hconnector : connector.Idle id) (hstart : request.startFrame id deadline = .ok start)
    (hex : Exchangeable codec start request.body response) :
    ∃ tr t result, (exchange codec config relay connector id deadline request response).Run
      (begin relay connector id deadline request) tr t ∧ t.relay.task = .returned result := by
  have hbegin := stage_begin codec response relay connector hstart
  obtain ⟨rfl, rfl, _⟩ := startFrame_eq hstart
  exact hbegin.completes config _ hex ⟨_, observeAll_exchange hrelay hex⟩
    ⟨_, observeAll_exchange hconnector hex⟩

end

/-! ### A concrete exchange -/

/-- A request start as `execute_exchange` builds it. -/
def postStart : RequestStartFrame where
  requestId := 0
  method := ⟨"POST", by decide⟩
  target := "/echo"
  headers := [⟨"accept", "text/plain"⟩]
  deadlineUnixMs := 30000

def postRequest : ProxyRequest where
  method := "POST"
  target := "/echo"
  headers := [⟨"accept", "text/plain"⟩]
  body := [104, 105]

def postResponse : ProxyResponse where
  status := 200
  headers := []
  body := [111, 107]

/-- The JSON of the control frames of the exchange. -/
def postJson : List (RelayControlFrame × String) :=
  [(.requestStart postStart,
      "\x7b\"type\":\"request_start\",\"data\":\x7b\"requestId\":\"00000000-0000-0000-0000-000000000000\",\"method\":\"POST\",\"target\":\"/echo\",\"headers\":[\x7b\"name\":\"accept\",\"value\":\"text/plain\"\x7d],\"deadlineUnixMs\":30000\x7d\x7d"),
    (.requestEnd ⟨0⟩,
      "\x7b\"type\":\"request_end\",\"data\":\x7b\"requestId\":\"00000000-0000-0000-0000-000000000000\"\x7d\x7d"),
    (.responseStart ⟨0, 200, []⟩,
      "\x7b\"type\":\"response_start\",\"data\":\x7b\"requestId\":\"00000000-0000-0000-0000-000000000000\",\"status\":200,\"headers\":[]\x7d\x7d"),
    (.responseEnd ⟨0⟩,
      "\x7b\"type\":\"response_end\",\"data\":\x7b\"requestId\":\"00000000-0000-0000-0000-000000000000\"\x7d\x7d")]

def postCodec : ControlCodec where
  toString frame := ((postJson.find? (·.1 = frame)).map Prod.snd).getD ""
  fromStr text := (postJson.find? (·.2 = text)).map Prod.fst

theorem post_exchangeable : Exchangeable postCodec postStart postRequest.body postResponse where
  start_valid := by decide
  body_le := by decide
  response_valid := by decide
  responseBody_le := by decide
  carries := by
    intro frame hframe
    rcases List.mem_append.mp hframe with hrequest | hresponse
    · rcases control_mem_requestFrames hrequest with rfl | rfl
      · decide +kernel
      · decide +kernel
    · rcases control_mem_responseFrames hresponse with rfl | rfl
      · decide +kernel
      · decide +kernel
  short := by
    intro frame hframe
    rcases control_mem_requestFrames hframe with rfl | rfl
    · decide +kernel
    · decide

theorem exchange_fidelity_post :
    ∃ tr t, (exchange postCodec ⟨1, by decide⟩ .ready .ready 0 30000 postRequest
      postResponse).Run (begin .ready .ready 0 30000 postRequest) tr t ∧
      executed tr = [(0, postRequest)] ∧
      t.relay.task = .returned (.ok ⟨200, [], [111, 107]⟩) := by
  have hidle : RelaySessionState.ready.Idle 0 := ⟨rfl, rfl, by decide, by decide⟩
  have hstart : postRequest.startFrame 0 30000 = .ok postStart := rfl
  obtain ⟨tr, t, result, hrun, hreturned⟩ :=
    exchange_completes ⟨1, by decide⟩ hidle hidle hstart post_exchangeable
  obtain ⟨hfail, _, _, hok, _⟩ := exchange_fidelity hidle hidle hstart post_exchangeable hrun
  cases result with
  | error e => exact absurd hreturned (hfail e)
  | ok result =>
      obtain ⟨rfl, hexecuted, _⟩ := hok result hreturned
      exact ⟨tr, t, hrun, hexecuted, hreturned⟩

end Tunnel

end Cresix.Relay
