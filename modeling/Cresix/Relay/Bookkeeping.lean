import Cresix.Relay.Conversation
import Cresix.Relay.Streams

/-!
# The bookkeeping of the connector

The session loop of the connector keeps three sets of request identifiers next
to its `RelaySessionState`: `pending`, `active` and `cancelled`.  Here it runs
against any relay: every message may arrive at the head of the loop, and the
upstream answers what it executes in any order.

`Agrees` says how the sets follow the flows of the session.  While a handler
sends its frames, one request is in none of the sets: the one it answers.
`Phase` names it.  `Tasks` counts the local requests and holds to the end of
the loop.
-/

namespace Cresix.Relay

open Rust (Uuid)
open Transition (System Event)

/-! ## What an accepted frame says of its flow -/

namespace RelaySessionState

variable {s s' : RelaySessionState}

theorem lookup_setFlow (id id' : Uuid) (flow : FlowState) :
    (s.setFlow id flow).flows.lookup id' = if id' = id then some flow else s.flows.lookup id' :=
  Finmap.lookup_insert_eq_ite _ _

theorem lookup_removeFlow (id id' : Uuid) :
    (s.removeFlow id).flows.lookup id' = if id' = id then none else s.flows.lookup id' :=
  Finmap.lookup_erase_eq_ite _

theorem accepted_start {frame : RequestStartFrame}
    (h : Accepted s (.control (.requestStart frame)) s') :
    frame.requestId ∉ s.seenRequestIds ∧
      s'.seenRequestIds = insert frame.requestId s.seenRequestIds ∧
      s'.flows = s.flows.insert frame.requestId (.requestBody 0 0) := by
  cases h with
  | start hready hvalid hfresh hfull hbudget => exact ⟨hfresh, rfl, rfl⟩
  | @move _ _ flow _ _ _ _ _ hnext => cases flow <;> simp [FlowState.next] at hnext
  | @finish _ _ flow _ _ _ _ hnext => cases flow <;> simp [FlowState.next] at hnext

theorem accepted_end {frame : RequestIdFrame}
    (h : Accepted s (.control (.requestEnd frame)) s') :
    (∃ n bytes, s.flows.lookup frame.requestId = some (.requestBody n bytes)) ∧
      s' = s.setFlow frame.requestId .awaitingResponse := by
  cases h with
  | @move _ id flow flow' _ _ hid hflow hnext =>
      obtain rfl := Option.some.inj hid
      cases flow with
      | requestBody n bytes =>
          simp only [FlowState.next, Option.some.injEq, FlowStatus.active.injEq] at hnext
          exact ⟨⟨n, bytes, hflow⟩, by rw [hnext]⟩
      | awaitingResponse => simp [FlowState.next] at hnext
      | responseBody n bytes => simp [FlowState.next] at hnext
  | @finish _ _ flow _ _ _ _ hnext => cases flow <;> simp [FlowState.next] at hnext

theorem accepted_responseStart {frame : ResponseStartFrame}
    (h : Accepted s (.control (.responseStart frame)) s') :
    s.flows.lookup frame.requestId = some .awaitingResponse ∧
      s' = s.setFlow frame.requestId (.responseBody 0 0) := by
  cases h with
  | @move _ id flow flow' _ _ hid hflow hnext =>
      obtain rfl := Option.some.inj hid
      cases flow with
      | awaitingResponse =>
          simp only [FlowState.next, Option.some.injEq, FlowStatus.active.injEq] at hnext
          exact ⟨hflow, by rw [hnext]⟩
      | requestBody n bytes => simp [FlowState.next] at hnext
      | responseBody n bytes => simp [FlowState.next] at hnext
  | @finish _ _ flow _ _ _ _ hnext => cases flow <;> simp [FlowState.next] at hnext

theorem accepted_responseEnd {frame : RequestIdFrame}
    (h : Accepted s (.control (.responseEnd frame)) s') :
    (∃ n bytes, s.flows.lookup frame.requestId = some (.responseBody n bytes)) ∧
      s' = s.removeFlow frame.requestId := by
  cases h with
  | @move _ _ flow _ _ _ _ _ hnext => cases flow <;> simp [FlowState.next] at hnext
  | @finish _ id flow _ _ hid hflow hnext =>
      obtain rfl := Option.some.inj hid
      cases flow with
      | responseBody n bytes => exact ⟨⟨n, bytes, hflow⟩, rfl⟩
      | requestBody n bytes => simp [FlowState.next] at hnext
      | awaitingResponse => simp [FlowState.next] at hnext

theorem accepted_cancel {frame : RequestIdFrame}
    (h : Accepted s (.control (.cancel frame)) s') : s' = s.removeFlow frame.requestId := by
  cases h with
  | move _ _ _ _ hnext => simp [FlowState.next] at hnext
  | finish _ _ hid _ _ =>
      obtain rfl := Option.some.inj hid
      rfl

theorem accepted_requestFailed {frame : RequestFailedFrame}
    (h : Accepted s (.control (.requestFailed frame)) s') :
    s' = s.removeFlow frame.requestId := by
  cases h with
  | move _ _ _ _ hnext => simp [FlowState.next] at hnext
  | finish _ _ hid _ _ =>
      obtain rfl := Option.some.inj hid
      rfl

theorem accepted_body {frame : RelayBodyFrame} (h : Accepted s (.body frame) s') :
    ∃ n bytes n' bytes', s.flows.lookup frame.requestId = some (frame.kind.body n bytes) ∧
      s' = s.setFlow frame.requestId (frame.kind.body n' bytes') := by
  cases h with
  | @move _ id flow flow' _ _ hid hflow hnext =>
      obtain rfl := Option.some.inj hid
      cases hkind : frame.kind <;> cases flow <;> simp only [FlowState.next, hkind] at hnext
      all_goals try (exact absurd hnext (by simp))
      all_goals
        unfold FlowState.nextChunk at hnext
        split_ifs at hnext
        simp only [Option.some.injEq, FlowStatus.active.injEq] at hnext
        exact ⟨_, _, _, _, hflow, by rw [← hnext]; rfl⟩
  | @finish _ _ flow _ _ _ _ hnext =>
      cases hkind : frame.kind <;> cases flow <;>
        simp [FlowState.next, FlowState.nextChunk, hkind] at hnext

end RelaySessionState

/-! ## The connector on its own -/

inductive ConnectorAction where
  /-- The next message arrives at the head of the loop, at a reading of the
  clock. -/
  | receive (now : UInt64) (message : Message)
  /-- The upstream answers a request. -/
  | answer (id : Uuid) (response : Except ProxyError ProxyResponse)
  /-- The next answer is taken at the head of the loop. -/
  | take
  /-- The next frame is sent. -/
  | send

namespace ConnectorEnd

/-- One step with what it puts on the wire; `none` when it cannot be taken. -/
def step (codec : ControlCodec) (config : LoadedConfig) (s : ConnectorEnd) :
    ConnectorAction → Option (ConnectorEnd × List Message)
  | .receive now message =>
      if s.Free then some (s.receive codec config now message) else none
  | .answer id response =>
      match s.upstream.find? (·.1 = id) with
      | none => none
      | some entry =>
          some ({ s with
            upstream := s.upstream.erase entry
            outgoing := s.outgoing ++ [(id, response)] }, [])
  | .take =>
      if s.Free then
        match s.outgoing with
        | [] => none
        | (id, response) :: outgoing => some ({ s with outgoing }.takeOutgoing id response, [])
      else none
  | .send =>
      if s.result.isSome then none
      else
        match s.outbox with
        | [] => none
        | frame :: rest => some (s.send codec frame rest)

/-- `run_session` gets to its loop: it has sent its `ClientHello` and received
a `ServerReady`, and its session accepted both. -/
def Connected (s : ConnectorEnd) : Prop :=
  ∃ (hello : ClientHelloFrame) (server : ServerReadyFrame) (mid state : RelaySessionState),
    RelaySessionState.default.observeControl (.clientHello hello) = (.ok (), mid) ∧
    mid.observeControl (.serverReady server) = (.ok (), state) ∧ s = .idle state

/-- The session loop against any relay and any upstream. -/
def system (codec : ControlCodec) (config : LoadedConfig) : System ConnectorEnd ConnectorAction :=
  .ofOption Connected fun s a => (s.step codec config a).map Prod.fst

end ConnectorEnd

/-- In a tunnel the connector takes these steps and no others. -/
theorem Tunnel.connector_step {codec : ControlCodec} {config : LoadedConfig} {t t' : Tunnel}
    {a : TunnelAction} (h : t.step codec config a = some t') :
    t'.connector = t.connector ∨
      ∃ b sent, t.connector.step codec config b = some (t'.connector, sent) := by
  cases a with
  | relaySend =>
      simp only [step] at h
      split at h
      next =>
        cases h
        exact .inl rfl
      next => cases h
  | relayReceive =>
      simp only [step] at h
      split at h
      next =>
        cases h
        exact .inl rfl
      next => cases h
  | connectorReceive now =>
      simp only [step] at h
      split at h
      next hfree =>
        split at h
        next => cases h
        next message rest hqueue =>
          cases h
          exact .inr ⟨.receive now message, _, if_pos hfree⟩
      next => cases h
  | answer id response =>
      simp only [step] at h
      split at h
      next => cases h
      next entry hentry =>
        cases h
        exact .inr ⟨.answer id response, [], by simp only [ConnectorEnd.step, hentry]⟩
  | connectorTake =>
      simp only [step] at h
      split at h
      next hfree =>
        split at h
        next => cases h
        next id response outgoing hqueue =>
          cases h
          exact .inr ⟨.take, [], by simp only [ConnectorEnd.step, if_pos hfree, hqueue]⟩
      next => cases h
  | connectorSend =>
      simp only [step] at h
      split at h
      next => cases h
      next hresult =>
        split at h
        next => cases h
        next frame rest hqueue =>
          cases h
          exact .inr ⟨.send, _, by simp only [ConnectorEnd.step, if_neg hresult, hqueue]; rfl⟩

/-! ## The sets and the flows -/

/-- How far the handler of the last message or answer got. -/
inductive Phase where
  /-- No answer is being sent. -/
  | free
  /-- The first frame of the answer to the request is next. -/
  | opening (id : Uuid)
  /-- The response to the request has started. -/
  | responding (id : Uuid)

/-- What the handler has still to send. -/
inductive Phase.Sends : Phase → List Frame → Prop where
  | nothing : Sends .free []
  | pong (frame : KeepaliveFrame) : Sends .free [.control (.pong frame)]
  | failure (frame : RequestFailedFrame) :
      Sends (.opening frame.requestId) [.control (.requestFailed frame)]
  | response (id : Uuid) (response : ProxyResponse) :
      Sends (.opening id) (responseFrames id response)
  | rest (id : Uuid) (chunks : List Frame) :
      (∀ frame ∈ chunks, ∃ chunk : RelayBodyFrame,
        frame = .body chunk ∧ chunk.kind = .responseChunk ∧ chunk.requestId = id) →
      Sends (.responding id) (chunks ++ [.control (.responseEnd ⟨id⟩)])

namespace ConnectorEnd

/-- The sets follow the flows of the session. -/
structure Agrees (s : ConnectorEnd) (phase : Phase) : Prop where
  sends : phase.Sends s.outbox
  /-- A request whose body is being received is pending. -/
  pending : ∀ id, id ∈ s.pending ↔
    ∃ n bytes, s.state.flows.lookup id = some (.requestBody n bytes)
  /-- A request that awaits its response is active, until its answer is sent. -/
  awaiting : ∀ id, s.state.flows.lookup id = some .awaitingResponse ↔
    (id ∈ s.active ∧ id ∉ s.cancelled) ∨ phase = .opening id
  cancelled : s.cancelled ⊆ s.active
  seen : s.active ⊆ s.state.seenRequestIds
  separate : ∀ id ∈ s.active, id ∉ s.pending
  opened : ∀ id, phase = .opening id → id ∉ s.active

/-- The pending requests that will be executed. -/
def admitted (s : ConnectorEnd) : Finset Uuid :=
  s.pending.keys.filter fun id => (s.pending.lookup id).any (!·.rejected)

/-- The identifiers of the local requests that were started and whose answer
was not taken. -/
def tasks (s : ConnectorEnd) : List Uuid := s.upstream.map Prod.fst ++ s.outgoing.map Prod.fst

/-- There are no more local requests than the configuration allows. -/
structure Tasks (config : LoadedConfig) (s : ConnectorEnd) : Prop where
  nodup : s.tasks.Nodup
  active : ∀ id, id ∈ s.active ↔ id ∈ s.tasks
  room : s.admitted.card + s.active.card ≤ config.maxInFlight

/-- What holds of every connector that got to its loop. -/
structure Bookkeeping (config : LoadedConfig) (s : ConnectorEnd) : Prop where
  session : RelaySessionState.SessionInvariant s.state
  tasks : Tasks config s
  agrees : s.result = none → ∃ phase, Agrees s phase

section

variable {codec : ControlCodec} {config : LoadedConfig} {now : UInt64}
variable {s t : ConnectorEnd} {state : RelaySessionState}

theorem mem_admitted {id : Uuid} :
    id ∈ s.admitted ↔ ∃ request, s.pending.lookup id = some request ∧ request.rejected = false := by
  unfold admitted
  rw [Finset.mem_filter, Finmap.mem_keys]
  constructor
  · rintro ⟨-, hany⟩
    cases hlookup : s.pending.lookup id with
    | none => simp [hlookup] at hany
    | some request => exact ⟨request, rfl, by simpa [hlookup] using hany⟩
  · rintro ⟨request, hlookup, hrejected⟩
    exact ⟨Finmap.mem_of_lookup_eq_some hlookup, by simp [hlookup, hrejected]⟩

/-! ### The start of a request -/

/-- A request whose start is accepted is not pending. -/
theorem Agrees.start_new {frame : RequestStartFrame} (h : Agrees s .free)
    (hsession : s.state.flows.keys ⊆ s.state.seenRequestIds)
    (hacc : s.state.Accepted (.control (.requestStart frame)) state) :
    frame.requestId ∉ s.pending := by
  obtain ⟨hfresh, -, -⟩ := RelaySessionState.accepted_start hacc
  intro hmem
  obtain ⟨n, bytes, hflow⟩ := (h.pending _).mp hmem
  exact hfresh (hsession (Finmap.mem_keys.mpr (Finmap.mem_of_lookup_eq_some hflow)))

theorem Agrees.start {frame : RequestStartFrame} {request : PendingRequest} (h : Agrees s .free)
    (hacc : s.state.Accepted (.control (.requestStart frame)) state) :
    Agrees { s with state, pending := s.pending.insert frame.requestId request } .free := by
  obtain ⟨hfresh, hseen, hflows⟩ := RelaySessionState.accepted_start hacc
  have hnotActive : frame.requestId ∉ s.active := fun hmem => hfresh (h.seen hmem)
  refine ⟨h.sends, ?_, ?_, h.cancelled, ?_, ?_, nofun⟩
  · intro id
    rw [hflows, Finmap.lookup_insert_eq_ite, Finmap.mem_insert]
    split
    next heq => simp [heq]
    next hne => simpa [hne] using h.pending id
  · intro id
    rw [hflows, Finmap.lookup_insert_eq_ite]
    split
    next heq => simp [heq, hnotActive]
    next hne => exact h.awaiting id
  · rw [hseen]
    exact h.seen.trans (Finset.subset_insert _ _)
  · intro id hactive
    rw [Finmap.mem_insert, not_or]
    exact ⟨fun heq => hnotActive (heq ▸ hactive), h.separate id hactive⟩

/-- A request that is not rejected still fits. -/
theorem Tasks.start {frame : RequestStartFrame} {request : PendingRequest} (h : Tasks config s)
    (hrejected : request.rejected = decide (config.maxInFlight ≤
      Rust.saturatingAdd s.pending.keys.card s.active.card)) :
    Tasks config { s with state, pending := s.pending.insert frame.requestId request } := by
  refine ⟨h.nodup, h.active, ?_⟩
  have hkeys : s.admitted ⊆ s.pending.keys := Finset.filter_subset _ _
  cases hrej : request.rejected with
  | true =>
      have hsub : admitted { s with state, pending := s.pending.insert frame.requestId request } ⊆
          s.admitted := by
        intro id hid
        obtain ⟨found, hlookup, hfound⟩ := mem_admitted.mp hid
        rw [Finmap.lookup_insert_eq_ite] at hlookup
        split at hlookup
        next =>
          cases hlookup
          simp [hrej] at hfound
        next => exact mem_admitted.mpr ⟨found, hlookup, hfound⟩
      exact (Nat.add_le_add_right (Finset.card_le_card hsub) _).trans h.room
  | false =>
      have hmax : config.maxInFlight < Rust.u64Max := by
        have hvalid := config.valid.2
        unfold Rust.u64Max
        omega
      have hroom : s.pending.keys.card + s.active.card < config.maxInFlight := by
        have hlt : Rust.saturatingAdd s.pending.keys.card s.active.card < config.maxInFlight := by
          simpa [hrej] using hrejected
        unfold Rust.saturatingAdd at hlt
        omega
      have hsub : admitted { s with state, pending := s.pending.insert frame.requestId request } ⊆
          insert frame.requestId s.pending.keys := by
        intro id hid
        obtain ⟨found, hlookup, -⟩ := mem_admitted.mp hid
        have hmem := Finmap.mem_of_lookup_eq_some hlookup
        rwa [← Finmap.mem_keys, Finmap.keys_insert] at hmem
      have hcard := (Finset.card_le_card hsub).trans (Finset.card_insert_le _ _)
      show _ + s.active.card ≤ _
      omega

/-! ### A chunk of a request -/

theorem Agrees.chunk {frame : RelayBodyFrame} (h : Agrees s .free)
    (hkind : frame.kind = .requestChunk) (hacc : s.state.Accepted (.body frame) state) :
    ∃ request, s.pending.lookup frame.requestId = some request ∧
      ∀ request', Agrees { s with state, pending := s.pending.insert frame.requestId request' }
        .free := by
  obtain ⟨n, bytes, n', bytes', hflow, rfl⟩ := RelaySessionState.accepted_body hacc
  rw [hkind] at hflow ⊢
  have hmem : frame.requestId ∈ s.pending := (h.pending _).mpr ⟨n, bytes, hflow⟩
  obtain ⟨request, hrequest⟩ := Finmap.mem_iff.mp hmem
  refine ⟨request, hrequest, fun request' => ⟨h.sends, ?_, ?_, h.cancelled, h.seen, ?_, nofun⟩⟩
  · intro id
    rw [RelaySessionState.lookup_setFlow, Finmap.mem_insert]
    split
    next heq => simp [heq, RelayBodyKind.body]
    next hne => simpa [hne] using h.pending id
  · intro id
    rw [RelaySessionState.lookup_setFlow]
    split
    next heq =>
      have hawaiting := h.awaiting id
      rw [heq, hflow] at hawaiting
      simpa [heq, RelayBodyKind.body] using hawaiting
    next hne => exact h.awaiting id
  · intro id hactive
    rw [Finmap.mem_insert, not_or]
    exact ⟨fun heq => h.separate id hactive (heq ▸ hmem), h.separate id hactive⟩

theorem Tasks.chunk {id : Uuid} {request request' : PendingRequest} (h : Tasks config s)
    (hrequest : s.pending.lookup id = some request) (hsame : request'.rejected = request.rejected) :
    Tasks config { s with state, pending := s.pending.insert id request' } := by
  refine ⟨h.nodup, h.active, ?_⟩
  have hsub : admitted { s with state, pending := s.pending.insert id request' } ⊆ s.admitted := by
    intro other hother
    obtain ⟨found, hlookup, hfound⟩ := mem_admitted.mp hother
    rw [Finmap.lookup_insert_eq_ite] at hlookup
    split at hlookup
    next heq =>
      cases hlookup
      exact mem_admitted.mpr ⟨request, heq ▸ hrequest, hsame ▸ hfound⟩
    next => exact mem_admitted.mpr ⟨found, hlookup, hfound⟩
  exact (Nat.add_le_add_right (Finset.card_le_card hsub) _).trans h.room

/-! ### The end of a request -/

/-- A request whose end is accepted is pending and nothing else. -/
theorem Agrees.end_pending {frame : RequestIdFrame} (h : Agrees s .free)
    (hacc : s.state.Accepted (.control (.requestEnd frame)) state) :
    frame.requestId ∈ s.pending ∧ frame.requestId ∉ s.active ∧ frame.requestId ∉ s.cancelled := by
  obtain ⟨⟨n, bytes, hflow⟩, -⟩ := RelaySessionState.accepted_end hacc
  have hmem : frame.requestId ∈ s.pending := (h.pending _).mpr ⟨n, bytes, hflow⟩
  have hactive : frame.requestId ∉ s.active := fun hid => h.separate _ hid hmem
  exact ⟨hmem, hactive, fun hid => hactive (h.cancelled hid)⟩

/-- The other requests whose bodies are being received are still pending. -/
theorem Agrees.pending_end {phase : Phase} (h : Agrees s phase) (id other : Uuid) :
    other ∈ s.pending.erase id ↔
      ∃ n bytes, (s.state.setFlow id .awaitingResponse).flows.lookup other =
        some (.requestBody n bytes) := by
  rw [RelaySessionState.lookup_setFlow, Finmap.mem_erase]
  split
  next heq => simp [heq]
  next hne => simpa [hne] using h.pending other

/-- The request is answered at once. -/
theorem Agrees.end_failure {id : Uuid} {code : RelayFailureCode} {message : String}
    (h : Agrees s .free) (hacc : s.state.Accepted (.control (.requestEnd ⟨id⟩)) state) :
    Agrees ({ s with state, pending := s.pending.erase id }.sendFailure id code message)
      (.opening id) := by
  obtain ⟨hmem, hactive, hcancelled⟩ := h.end_pending hacc
  obtain ⟨-, rfl⟩ := RelaySessionState.accepted_end hacc
  refine ⟨.failure ⟨id, code, message⟩, ?_, ?_, h.cancelled, h.seen, ?_, ?_⟩
  · exact h.pending_end id
  · intro other
    show (s.state.setFlow id .awaitingResponse).flows.lookup other = _ ↔
      (other ∈ s.active ∧ other ∉ s.cancelled) ∨ _
    rw [RelaySessionState.lookup_setFlow]
    split
    next heq => simp [heq]
    next hne => simpa [hne, Ne.symm hne] using h.awaiting other
  · intro other hother
    show other ∉ s.pending.erase id
    rw [Finmap.mem_erase, not_and]
    exact fun _ => h.separate other hother
  · intro other hother
    cases hother
    exact hactive

theorem Tasks.erase {id : Uuid} (h : Tasks config s) {outbox : List Frame} :
    Tasks config { s with state, pending := s.pending.erase id, outbox } := by
  refine ⟨h.nodup, h.active, ?_⟩
  have hsub : admitted { s with state, pending := s.pending.erase id, outbox } ⊆ s.admitted := by
    intro other hother
    obtain ⟨found, hlookup, hfound⟩ := mem_admitted.mp hother
    rw [Finmap.lookup_erase_eq_ite] at hlookup
    split at hlookup
    next => cases hlookup
    next => exact mem_admitted.mpr ⟨found, hlookup, hfound⟩
  exact (Nat.add_le_add_right (Finset.card_le_card hsub) _).trans h.room

/-- The connector with the request handed to the upstream. -/
def handOver (s : ConnectorEnd) (id : Uuid) (request : ProxyRequest) : ConnectorEnd :=
  { s with
    pending := s.pending.erase id
    active := insert id s.active
    upstream := s.upstream ++ [(id, request)] }

/-- The request is handed to the upstream. -/
theorem Agrees.end_handOver {id : Uuid} {request : ProxyRequest} (h : Agrees s .free)
    (hsession : s.state.flows.keys ⊆ s.state.seenRequestIds)
    (hacc : s.state.Accepted (.control (.requestEnd ⟨id⟩)) state) :
    Agrees ({ s with state }.handOver id request) .free := by
  obtain ⟨hmem, hactive, hcancelled⟩ := h.end_pending hacc
  obtain ⟨⟨n, bytes, hflow⟩, rfl⟩ := RelaySessionState.accepted_end hacc
  refine ⟨h.sends, ?_, ?_, h.cancelled.trans (Finset.subset_insert _ _), ?_, ?_, nofun⟩
  · exact h.pending_end id
  · intro other
    show (s.state.setFlow id .awaitingResponse).flows.lookup other = _ ↔
      (other ∈ insert id s.active ∧ other ∉ s.cancelled) ∨ _
    rw [RelaySessionState.lookup_setFlow, Finset.mem_insert]
    split
    next heq => simpa [heq] using hcancelled
    next hne => simpa [hne] using h.awaiting other
  · intro other hother
    rcases Finset.mem_insert.mp hother with rfl | hold
    · exact hsession (Finmap.mem_keys.mpr (Finmap.mem_of_lookup_eq_some hflow))
    · exact h.seen hold
  · intro other hother
    show other ∉ s.pending.erase id
    rw [Finmap.mem_erase, not_and]
    intro hne
    exact h.separate other ((Finset.mem_insert.mp hother).resolve_left hne)

theorem Tasks.handOver {id : Uuid} {request : PendingRequest} {upstream : ProxyRequest}
    (h : Tasks config s) (hrequest : s.pending.lookup id = some request)
    (hrejected : request.rejected = false) (hactive : id ∉ s.active) :
    Tasks config ({ s with state }.handOver id upstream) := by
  have htasks : (ConnectorEnd.handOver { s with state } id upstream).tasks.Perm (id :: s.tasks) := by
    show ((s.upstream ++ [(id, upstream)]).map Prod.fst ++ _).Perm _
    rw [List.map_append, List.append_assoc]
    exact List.perm_middle
  refine ⟨htasks.nodup_iff.mpr (List.nodup_cons.mpr ⟨?_, h.nodup⟩), ?_, ?_⟩
  · rwa [← h.active]
  · intro other
    show other ∈ insert id s.active ↔ _
    rw [Finset.mem_insert, htasks.mem_iff, List.mem_cons, h.active]
  · have hmem : id ∈ s.admitted := mem_admitted.mpr ⟨request, hrequest, hrejected⟩
    have hsub : (ConnectorEnd.handOver { s with state } id upstream).admitted ⊆
        s.admitted.erase id := by
      intro other hother
      obtain ⟨found, hlookup, hfound⟩ := mem_admitted.mp hother
      have hlookup : (s.pending.erase id).lookup other = some found := hlookup
      rw [Finmap.lookup_erase_eq_ite] at hlookup
      split at hlookup
      next => cases hlookup
      next hne => exact Finset.mem_erase.mpr ⟨hne, mem_admitted.mpr ⟨found, hlookup, hfound⟩⟩
    have hadmitted := Finset.card_le_card hsub
    rw [Finset.card_erase_of_mem hmem] at hadmitted
    have hpos : 0 < s.admitted.card := Finset.card_pos.mpr ⟨id, hmem⟩
    have hcard : (insert id s.active).card = s.active.card + 1 :=
      Finset.card_insert_of_notMem hactive
    have hroom := h.room
    show _ + (insert id s.active).card ≤ _
    omega

/-! ### The cancellation of a request -/

theorem Agrees.cancel_pending {id : Uuid} (h : Agrees s .free) (hmem : id ∈ s.pending) :
    Agrees { s with state := s.state.removeFlow id, pending := s.pending.erase id } .free := by
  refine ⟨h.sends, ?_, ?_, h.cancelled, h.seen, ?_, nofun⟩
  · intro other
    rw [RelaySessionState.lookup_removeFlow, Finmap.mem_erase]
    split
    next heq => simp [heq]
    next hne => simpa [hne] using h.pending other
  · intro other
    rw [RelaySessionState.lookup_removeFlow]
    split
    next heq =>
      have hactive : id ∉ s.active := fun hid => h.separate id hid hmem
      simp [heq, hactive]
    next hne => exact h.awaiting other
  · intro other hother
    rw [Finmap.mem_erase, not_and]
    exact fun _ => h.separate other hother

theorem Agrees.cancel_active {id : Uuid} (h : Agrees s .free) (hmem : id ∈ s.active) :
    Agrees { s with state := s.state.removeFlow id, cancelled := insert id s.cancelled } .free := by
  refine ⟨h.sends, ?_, ?_, Finset.insert_subset hmem h.cancelled, h.seen, h.separate, nofun⟩
  · intro other
    rw [RelaySessionState.lookup_removeFlow]
    split
    next heq => simpa [heq] using h.separate id hmem
    next hne => exact h.pending other
  · intro other
    rw [RelaySessionState.lookup_removeFlow, Finset.mem_insert]
    split
    next heq => simp [heq]
    next hne => simpa [hne] using h.awaiting other

theorem Agrees.cancel_other {id : Uuid} (h : Agrees s .free) (hpending : id ∉ s.pending)
    (hactive : id ∉ s.active) : Agrees { s with state := s.state.removeFlow id } .free := by
  refine ⟨h.sends, ?_, ?_, h.cancelled, h.seen, h.separate, nofun⟩
  · intro other
    rw [RelaySessionState.lookup_removeFlow]
    split
    next heq => simpa [heq] using hpending
    next hne => exact h.pending other
  · intro other
    rw [RelaySessionState.lookup_removeFlow]
    split
    next heq => simp [heq, hactive]
    next hne => exact h.awaiting other

/-! ### An answer of the upstream -/

/-- The answer to a cancelled request is dropped. -/
theorem Agrees.take_cancelled {id : Uuid} (h : Agrees s .free) (hcancelled : id ∈ s.cancelled) :
    Agrees { s with active := s.active.erase id, cancelled := s.cancelled.erase id } .free := by
  refine ⟨h.sends, h.pending, ?_, Finset.erase_subset_erase id h.cancelled,
    (Finset.erase_subset id s.active).trans h.seen, ?_, nofun⟩
  · intro other
    rw [h.awaiting]
    by_cases heq : other = id
    · simp [heq, hcancelled]
    · simp [heq]
  · intro other hother
    exact h.separate other (Finset.mem_of_mem_erase hother)

/-- Any other answer is sent. -/
theorem Agrees.take_open {id : Uuid} {outbox : List Frame} (h : Agrees s .free)
    (hactive : id ∈ s.active) (hcancelled : id ∉ s.cancelled)
    (hsends : Phase.Sends (.opening id) outbox) :
    Agrees { s with active := s.active.erase id, outbox } (.opening id) := by
  refine ⟨hsends, h.pending, ?_, ?_, (Finset.erase_subset id s.active).trans h.seen, ?_, ?_⟩
  · intro other
    rw [h.awaiting]
    by_cases heq : other = id
    · simp [heq, hactive, hcancelled]
    · simp [heq, Ne.symm heq]
  · intro other hother
    exact Finset.mem_erase.mpr ⟨fun heq => hcancelled (heq ▸ hother), h.cancelled hother⟩
  · intro other hother
    exact h.separate other (Finset.mem_of_mem_erase hother)
  · intro other hother
    cases hother
    exact Finset.notMem_erase id s.active

@[simp] theorem takeOutgoing_state (s : ConnectorEnd) (id : Uuid)
    (response : Except ProxyError ProxyResponse) : (s.takeOutgoing id response).state = s.state := by
  simp only [takeOutgoing]
  split
  next => rfl
  next => cases response <;> rfl

@[simp] theorem takeOutgoing_result (s : ConnectorEnd) (id : Uuid)
    (response : Except ProxyError ProxyResponse) :
    (s.takeOutgoing id response).result = s.result := by
  simp only [takeOutgoing]
  split
  next => rfl
  next => cases response <;> rfl

theorem Agrees.take {id : Uuid} (h : Agrees s .free) (hactive : id ∈ s.active)
    (response : Except ProxyError ProxyResponse) :
    ∃ phase, Agrees (s.takeOutgoing id response) phase := by
  unfold takeOutgoing
  by_cases hcancelled : id ∈ s.cancelled
  · rw [if_pos hcancelled]
    exact ⟨.free, h.take_cancelled hcancelled⟩
  · rw [if_neg hcancelled]
    cases response with
    | ok response => exact ⟨.opening id, h.take_open hactive hcancelled (.response id response)⟩
    | error e =>
        exact ⟨.opening id, h.take_open hactive hcancelled (.failure ⟨id, _, _⟩)⟩

theorem Tasks.take {id : Uuid} {response : Except ProxyError ProxyResponse}
    {outgoing : List (Uuid × Except ProxyError ProxyResponse)} (h : Tasks config s)
    (hnext : s.outgoing = (id, response) :: outgoing) :
    Tasks config ({ s with outgoing }.takeOutgoing id response) := by
  have htasks : s.tasks.Perm (id :: tasks { s with outgoing }) := by
    unfold tasks
    rw [hnext]
    exact List.perm_middle
  obtain ⟨hid, hnodup⟩ := List.nodup_cons.mp (htasks.nodup_iff.mp h.nodup)
  have hactive : ∀ other, other ∈ s.active.erase id ↔ other ∈ tasks { s with outgoing } := by
    intro other
    rw [Finset.mem_erase, h.active, htasks.mem_iff, List.mem_cons]
    constructor
    · rintro ⟨hne, hother⟩
      exact hother.resolve_left hne
    · intro hother
      exact ⟨fun heq => hid (heq ▸ hother), .inr hother⟩
  have hroom : s.admitted.card + (s.active.erase id).card ≤ config.maxInFlight :=
    (Nat.add_le_add_left (Finset.card_le_card (Finset.erase_subset _ _)) _).trans h.room
  unfold takeOutgoing
  by_cases hcancelled : id ∈ s.cancelled
  · simp only [if_pos hcancelled]
    exact ⟨hnodup, hactive, hroom⟩
  · simp only [if_neg hcancelled]
    cases response with
    | ok response => exact ⟨hnodup, hactive, hroom⟩
    | error e => exact ⟨hnodup, hactive, hroom⟩

/-- An answer moves a task from the upstream to the channel. -/
theorem Tasks.answer {id : Uuid} {response : Except ProxyError ProxyResponse}
    {entry : Uuid × ProxyRequest} (h : Tasks config s)
    (hentry : s.upstream.find? (·.1 = id) = some entry) :
    Tasks config { s with
      upstream := s.upstream.erase entry
      outgoing := s.outgoing ++ [(id, response)] } := by
  have hmem : entry ∈ s.upstream := List.mem_of_find?_eq_some hentry
  have hid : entry.1 = id := by
    have hfound := List.find?_some hentry
    simpa using hfound
  have htasks : s.tasks.Perm (tasks { s with
      upstream := s.upstream.erase entry
      outgoing := s.outgoing ++ [(id, response)] }) := by
    have hupstream := ((List.perm_cons_erase hmem).map Prod.fst).append_right
      (s.outgoing.map Prod.fst)
    refine hupstream.trans ?_
    show (entry.1 :: (s.upstream.erase entry).map Prod.fst ++ _).Perm
      ((s.upstream.erase entry).map Prod.fst ++ (s.outgoing ++ [(id, response)]).map Prod.fst)
    rw [hid, List.map_append, ← List.append_assoc]
    exact (List.perm_append_singleton id _).symm
  refine ⟨htasks.nodup_iff.mp h.nodup, ?_, h.room⟩
  intro other
  rw [← htasks.mem_iff]
  exact h.active other

/-! ### The next frame -/

/-- A flow in the part of a request that the connector answers. -/
def Answering : FlowState → Prop
  | .requestBody _ _ => False
  | .awaitingResponse => True
  | .responseBody _ _ => True

/-- The frame of an answer moves the flow of its request on, or ends it. -/
theorem Agrees.answered {phase phase' : Phase} {id : Uuid} {flow : FlowState}
    {flow' : Option FlowState} {rest : List Frame} (h : Agrees s phase)
    (hsends : phase'.Sends rest) (hclosed : ∀ other, phase' ≠ .opening other)
    (hseen : state.seenRequestIds = s.state.seenRequestIds)
    (hlookup : ∀ other, state.flows.lookup other =
      if other = id then flow' else s.state.flows.lookup other)
    (hflow : s.state.flows.lookup id = some flow) (hanswering : Answering flow)
    (hphase : ∀ other, phase = .opening other ↔ flow = .awaitingResponse ∧ other = id)
    (hnew : ∀ flow, flow' = some flow → ∃ n bytes, flow = .responseBody n bytes) :
    Agrees { s with state, outbox := rest } phase' := by
  refine ⟨hsends, ?_, ?_, h.cancelled, ?_, h.separate, fun other hother =>
    absurd hother (hclosed other)⟩
  · intro other
    rw [hlookup]
    split
    next heq =>
      have hpending : id ∉ s.pending := by
        intro hmem
        obtain ⟨n, bytes, hbody⟩ := (h.pending id).mp hmem
        rw [hflow] at hbody
        cases hbody
        exact hanswering
      subst heq
      refine iff_of_false hpending ?_
      rintro ⟨n, bytes, hbody⟩
      obtain ⟨n', bytes', heq⟩ := hnew _ hbody
      cases heq
    next => exact h.pending other
  · intro other
    rw [hlookup]
    split
    next heq =>
      subst heq
      refine iff_of_false ?_ ?_
      · intro hawaiting
        obtain ⟨n, bytes, heq⟩ := hnew _ hawaiting
        cases heq
      · rintro (⟨hactive, hcancelled⟩ | hopening)
        · have hawaiting := (h.awaiting other).mpr (.inl ⟨hactive, hcancelled⟩)
          rw [hflow] at hawaiting
          exact h.opened other ((hphase other).mpr ⟨Option.some.inj hawaiting, rfl⟩) hactive
        · exact hclosed other hopening
    next hne =>
      rw [h.awaiting, or_iff_left fun hopening => hne ((hphase other).mp hopening).2,
        or_iff_left (hclosed other)]
  · rw [hseen]
    exact h.seen

/-- The handler moves on when a frame of its answer is accepted. -/
theorem Agrees.send {phase : Phase} {frame : Frame} {rest : List Frame} (h : Agrees s phase)
    (hnext : s.outbox = frame :: rest) (hacc : s.state.Accepted frame state) :
    ∃ phase, Agrees { s with state, outbox := rest } phase := by
  have hsends := h.sends
  rw [hnext] at hsends
  generalize hframes : frame :: rest = frames at hsends
  cases hsends with
  | nothing => cases hframes
  | pong ping =>
      cases hframes
      cases hacc with
      | pong _ =>
          exact ⟨.free, .nothing, h.pending, h.awaiting, h.cancelled, h.seen, h.separate, nofun⟩
      | move _ _ hid _ _ => cases hid
      | finish _ _ hid _ _ => cases hid
  | failure failed =>
      cases hframes
      obtain rfl := RelaySessionState.accepted_requestFailed hacc
      exact ⟨.free, h.answered .nothing nofun rfl (RelaySessionState.lookup_removeFlow _)
        ((h.awaiting _).mpr (.inr rfl)) trivial (by simp [eq_comm]) nofun⟩
  | response id response =>
      cases hframes
      obtain ⟨hflow, rfl⟩ := RelaySessionState.accepted_responseStart hacc
      have hrest : Phase.Sends (.responding id)
          (bodyFrames .responseChunk id response.body ++ [.control (.responseEnd ⟨id⟩)]) :=
        .rest id _ fun frame hmem => of_mem_chunkFrames hmem
      exact ⟨.responding id, h.answered hrest nofun rfl (RelaySessionState.lookup_setFlow _ · _)
        hflow trivial (by simp [eq_comm]) fun flow hnew => ⟨0, 0, (Option.some.inj hnew).symm⟩⟩
  | rest id chunks hchunks =>
      cases chunks with
      | nil =>
          cases hframes
          obtain ⟨⟨n, bytes, hflow⟩, rfl⟩ := RelaySessionState.accepted_responseEnd hacc
          exact ⟨.free, h.answered .nothing nofun rfl (RelaySessionState.lookup_removeFlow _)
            hflow trivial (by simp) nofun⟩
      | cons first chunks =>
          cases hframes
          obtain ⟨chunk, rfl, hkind, rfl⟩ := hchunks _ List.mem_cons_self
          obtain ⟨n, bytes, n', bytes', hflow, rfl⟩ := RelaySessionState.accepted_body hacc
          rw [hkind] at hflow ⊢
          have hrest : Phase.Sends (.responding chunk.requestId)
              (chunks ++ [.control (.responseEnd ⟨chunk.requestId⟩)]) :=
            .rest _ chunks fun frame hmem => hchunks frame (List.mem_cons_of_mem _ hmem)
          exact ⟨.responding chunk.requestId, h.answered hrest nofun rfl
            (RelaySessionState.lookup_setFlow _ · _) hflow trivial (by simp [RelayBodyKind.body])
            fun flow hnew => ⟨n', bytes', (Option.some.inj hnew).symm⟩⟩

/-! ### A step -/

/-- The loop has ended and nothing else changed. -/
theorem Tasks.ended {result : Option (Except RuntimeError Unit)} (h : Tasks config s) :
    Tasks config { s with state, result } :=
  ⟨h.nodup, h.active, h.room⟩

theorem Bookkeeping.ended {result : Except RuntimeError Unit} (h : Bookkeeping config s)
    (hsession : RelaySessionState.SessionInvariant state) :
    Bookkeeping config { s with state, result := some result } :=
  ⟨hsession, h.tasks.ended, nofun⟩

/-- The loop handles an accepted control frame. -/
theorem Bookkeeping.receiveControl {frame : RelayControlFrame} (h : Bookkeeping config s)
    (hagrees : Agrees s .free) (hacc : s.state.Accepted (.control frame) state) :
    Bookkeeping config ({ s with state }.receiveControl config now frame).1 := by
  have hsession := h.session.accepted hacc
  cases frame with
  | requestStart frame =>
      have hnew := hagrees.start_new h.session.keys_seen hacc
      simp only [ConnectorEnd.receiveControl, if_neg hnew]
      exact ⟨hsession, h.tasks.start rfl, fun _ => ⟨_, hagrees.start hacc⟩⟩
  | requestEnd frame =>
      obtain ⟨hmem, hactive, hcancelled⟩ := hagrees.end_pending hacc
      obtain ⟨request, hrequest⟩ := Finmap.mem_iff.mp hmem
      simp only [ConnectorEnd.receiveControl, if_neg hcancelled, hrequest]
      split_ifs with hrejected hexpired
      · exact ⟨hsession, h.tasks.erase, fun _ => ⟨_, hagrees.end_failure hacc⟩⟩
      · exact ⟨hsession, h.tasks.erase, fun _ => ⟨_, hagrees.end_failure hacc⟩⟩
      · exact ⟨hsession, h.tasks.handOver hrequest (by simpa using hrejected) hactive,
          fun _ => ⟨_, hagrees.end_handOver h.session.keys_seen hacc⟩⟩
  | cancel frame =>
      obtain rfl := RelaySessionState.accepted_cancel hacc
      simp only [ConnectorEnd.receiveControl]
      split_ifs with hpending hactive
      · exact ⟨hsession, h.tasks.erase, fun _ => ⟨_, hagrees.cancel_pending hpending⟩⟩
      · exact ⟨hsession, ⟨h.tasks.nodup, h.tasks.active, h.tasks.room⟩,
          fun _ => ⟨_, hagrees.cancel_active hactive⟩⟩
      · exact ⟨hsession, h.tasks.ended, fun _ => ⟨_, hagrees.cancel_other hpending hactive⟩⟩
  | ping frame =>
      cases hacc with
      | ping _ =>
          exact ⟨hsession, ⟨h.tasks.nodup, h.tasks.active, h.tasks.room⟩, fun _ => ⟨.free,
            .pong _, hagrees.pending, hagrees.awaiting, hagrees.cancelled, hagrees.seen,
            hagrees.separate, fun _ hopening => by cases hopening⟩⟩
      | move _ _ hid _ _ => cases hid
      | finish _ _ hid _ _ => cases hid
  | pong frame =>
      cases hacc with
      | pong _ => exact h
      | move _ _ hid _ _ => cases hid
      | finish _ _ hid _ _ => cases hid
  | clientHello frame => exact h.ended hsession
  | serverReady frame => exact h.ended hsession
  | responseStart frame => exact h.ended hsession
  | responseEnd frame => exact h.ended hsession
  | requestFailed frame => exact h.ended hsession

/-- The loop handles a message. -/
theorem Bookkeeping.receive {message : Message} (h : Bookkeeping config s)
    (hagrees : Agrees s .free) :
    Bookkeeping config (s.receive codec config now message).1 := by
  cases message with
  | text text =>
      simp only [ConnectorEnd.receive]
      split
      next => exact h.ended h.session
      next frame _ =>
        have hsession := h.session.observe (.control frame)
        split
        next e state hobs =>
          rw [RelaySessionState.observe, hobs] at hsession
          exact h.ended hsession
        next state hobs => exact h.receiveControl hagrees (.of_observe hobs)
  | binary bytes =>
      simp only [ConnectorEnd.receive]
      split
      next => exact h.ended h.session
      next frame _ =>
        have hsession := h.session.observe (.body frame)
        split
        next e state hobs =>
          rw [RelaySessionState.observe, hobs] at hsession
          exact h.ended hsession
        next state hobs =>
          rw [RelaySessionState.observe, hobs] at hsession
          split
          next => exact h.ended hsession
          next hkind =>
            obtain ⟨request, hrequest, hchunk⟩ := hagrees.chunk (not_not.mp hkind) (.of_observe hobs)
            simp only [hrequest]
            exact ⟨hsession, h.tasks.chunk hrequest rfl, fun _ => ⟨_, hchunk _⟩⟩
  | ping bytes => exact h
  | pong bytes => exact h
  | close => exact h.ended h.session

/-- At the head of the loop no answer is being sent. -/
theorem Bookkeeping.free (h : Bookkeeping config s) (hfree : s.Free) : Agrees s .free := by
  obtain ⟨phase, hagrees⟩ := h.agrees hfree.1
  have hsends := hagrees.sends
  rw [hfree.2] at hsends
  generalize hnil : [] = frames at hsends
  cases hsends with
  | nothing => exact hagrees
  | pong frame => cases hnil
  | failure frame => cases hnil
  | response id response => simp [responseFrames] at hnil
  | rest id chunks _ => simp at hnil

theorem Bookkeeping.step {a : ConnectorAction} {sent : List Message} (h : Bookkeeping config s)
    (hstep : s.step codec config a = some (t, sent)) : Bookkeeping config t := by
  cases a with
  | receive now message =>
      simp only [ConnectorEnd.step] at hstep
      split at hstep
      next hfree =>
        obtain ⟨rfl, -⟩ := Prod.mk.inj (Option.some.inj hstep)
        exact h.receive (h.free hfree)
      next => cases hstep
  | answer id response =>
      simp only [ConnectorEnd.step] at hstep
      split at hstep
      next => cases hstep
      next entry hentry =>
        cases hstep
        refine ⟨h.session, h.tasks.answer hentry, fun hresult => ?_⟩
        obtain ⟨phase, hagrees⟩ := h.agrees hresult
        exact ⟨phase, hagrees.sends, hagrees.pending, hagrees.awaiting, hagrees.cancelled,
          hagrees.seen, hagrees.separate, hagrees.opened⟩
  | take =>
      simp only [ConnectorEnd.step] at hstep
      split at hstep
      next hfree =>
        split at hstep
        next => cases hstep
        next id response outgoing hnext =>
          cases hstep
          have hagrees := h.free hfree
          have hactive : id ∈ s.active := by
            rw [h.tasks.active]
            simp [ConnectorEnd.tasks, hnext]
          have hwithout : Agrees { s with outgoing } .free :=
            ⟨hagrees.sends, hagrees.pending, hagrees.awaiting, hagrees.cancelled, hagrees.seen,
              hagrees.separate, hagrees.opened⟩
          refine ⟨?_, h.tasks.take hnext, fun _ => hwithout.take hactive response⟩
          rw [takeOutgoing_state]
          exact h.session
      next => cases hstep
  | send =>
      simp only [ConnectorEnd.step] at hstep
      split at hstep
      next => cases hstep
      next hresult =>
        split at hstep
        next => cases hstep
        next frame rest hnext =>
          have hsession := h.session.observe frame
          have hresult : s.result = none := by simpa using hresult
          obtain ⟨phase, hagrees⟩ := h.agrees hresult
          simp only [ConnectorEnd.send] at hstep
          split at hstep
          next e state hobs =>
            rw [hobs] at hsession
            cases hstep
            exact h.ended hsession
          next state hobs =>
            rw [hobs] at hsession
            split at hstep
            next =>
              cases hstep
              exact h.ended hsession
            next =>
              cases hstep
              exact ⟨hsession, ⟨h.tasks.nodup, h.tasks.active, h.tasks.room⟩,
                fun _ => hagrees.send hnext (.of_observe hobs)⟩

/-! ## Whole runs -/

theorem Connected.state_eq (h : Connected s) : s = .idle RelaySessionState.ready := by
  obtain ⟨hello, server, mid, state, hhello, hserver, rfl⟩ := h
  have hmid : mid = ⟨.awaitingReady, ∅, ∅⟩ := by
    cases RelaySessionState.accepted_of_observeControl hhello with
    | clientHello => rfl
    | move _ _ hid _ _ => cases hid
    | finish _ _ hid _ _ => cases hid
  subst hmid
  have hstate : state = RelaySessionState.ready := by
    cases RelaySessionState.accepted_of_observeControl hserver with
    | serverReady => rfl
    | move _ _ hid _ _ => cases hid
    | finish _ _ hid _ _ => cases hid
  rw [hstate]

theorem bookkeeping_start (h : Connected s) : Bookkeeping config s := by
  obtain rfl := h.state_eq
  have hsession : RelaySessionState.SessionInvariant RelaySessionState.ready :=
    RelaySessionState.sessionInvariant_of_reachable RelaySessionState.reachable_ready
  refine ⟨hsession, ⟨List.nodup_nil, ?_, Nat.zero_le _⟩, fun _ => ⟨.free, .nothing, ?_, ?_,
    Finset.Subset.refl _, Finset.empty_subset _, ?_, nofun⟩⟩
  · intro id
    exact Iff.rfl
  · intro id
    simp [ConnectorEnd.idle, RelaySessionState.ready, Finmap.notMem_empty]
  · intro id
    simp [ConnectorEnd.idle, RelaySessionState.ready]
  · intro id hid
    cases hid

end

end ConnectorEnd

end Cresix.Relay
