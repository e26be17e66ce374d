import Cresix.Library.FiniteMap
import Cresix.Relay.Exchange
import Cresix.Relay.SessionSafety

/-!
# The streams of an exchange

A session accepts the frames of a whole exchange one after the other
(`observeAll_requestFrames`, `observeAll_responseFrames`).  A driver that
receives a beginning of the frames has collected the chunks in it: the next
frame adds to them (`ConnectorEnd.receive_next`, `RelayEnd.receive_next`), and
with the last one it has the whole body.
-/

namespace Cresix.Relay

open Rust (Uuid)

/-! ## A session and a whole exchange -/

namespace RelaySessionState

variable {s s' u : RelaySessionState}

/-- Accepts frames one after the other. -/
def observeAll : RelaySessionState → List Frame → Option RelaySessionState
  | s, [] => some s
  | s, frame :: frames =>
      match s.observe frame with
      | (.ok (), s') => s'.observeAll frames
      | (.error _, _) => none

theorem observeAll_cons {frame : Frame} (frames : List Frame) (h : s.observe frame = (.ok (), s')) :
    s.observeAll (frame :: frames) = s'.observeAll frames := by
  simp only [observeAll, h]

theorem observeAll_append {frames frames' : List Frame} (h : s.observeAll frames = some s') :
    s.observeAll (frames ++ frames') = s'.observeAll frames' := by
  induction frames generalizing s with
  | nil =>
      cases h
      rfl
  | cons frame frames ih =>
      simp only [observeAll] at h
      split at h
      next mid hobs => exact (observeAll_cons _ hobs).trans (ih h)
      next => cases h

/-- The next frame of accepted frames is accepted. -/
theorem observeAll_next {frames rest : List Frame} {frame : Frame}
    (hall : s.observeAll (frames ++ frame :: rest) = some u) (h : s.observeAll frames = some s') :
    ∃ s'', s'.observe frame = (.ok (), s'') ∧ s.observeAll (frames ++ [frame]) = some s'' := by
  rw [observeAll_append h] at hall
  rw [observeAll_append h]
  simp only [observeAll] at hall
  split at hall
  next s'' hobs => exact ⟨s'', hobs, observeAll_cons [] hobs⟩
  next => cases hall

variable {id : Uuid}

@[simp] theorem setFlow_setFlow (flow flow' : FlowState) :
    (s.setFlow id flow).setFlow id flow' = s.setFlow id flow' := by
  show RelaySessionState.mk _ _ _ = RelaySessionState.mk _ _ _
  congr 1
  exact Finmap.insert_insert s.flows

@[simp] theorem removeFlow_setFlow (flow : FlowState) :
    (s.setFlow id flow).removeFlow id = s.removeFlow id := by
  show RelaySessionState.mk _ _ _ = RelaySessionState.mk _ _ _
  congr 1
  refine Finmap.ext_lookup fun other => ?_
  rw [Finmap.lookup_erase_eq_ite, Finmap.lookup_erase_eq_ite]
  split
  next => rfl
  next hne => exact Finmap.lookup_insert_of_ne _ hne

@[simp] theorem lookup_setFlow_self (flow : FlowState) :
    (s.setFlow id flow).flows.lookup id = some flow :=
  Finmap.lookup_insert _

/-- The request moves. -/
theorem observe_move {frame : Frame} {flow flow' : FlowState} (hready : s.handshake = .ready)
    (hflow : s.flows.lookup id = some flow) (hvalid : frame.Valid)
    (hid : frame.requestId? = some id) (hnext : flow.next frame = some (.active flow')) :
    s.observe frame = (.ok (), s.setFlow id flow') :=
  observe_of_next hready hvalid hid hflow hnext

/-- The request ends. -/
theorem observe_finish {frame : Frame} {flow : FlowState} (hready : s.handshake = .ready)
    (hflow : s.flows.lookup id = some flow) (hvalid : frame.Valid)
    (hid : frame.requestId? = some id) (hnext : flow.next frame = some .closed) :
    s.observe frame = (.ok (), s.removeFlow id) :=
  observe_of_next hready hvalid hid hflow hnext

/-- The chunks of a body that fits are accepted. -/
theorem observeAll_chunks {k : RelayBodyKind} {chunks : List (List UInt8)} {n b : Nat}
    (hready : s.handshake = .ready) (hflow : s.flows.lookup id = some (k.body (UInt32.ofNat n) b))
    (hsize : ∀ chunk ∈ chunks, chunk.length ≤ maxBodyChunkBytes)
    (hbytes : b + chunks.flatten.length ≤ k.limit)
    (hcount : n + chunks.length ≤ Rust.u32Max) :
    s.observeAll (chunkFrames k id n chunks) =
      some (s.setFlow id (k.body (UInt32.ofNat (n + chunks.length))
        (b + chunks.flatten.length))) := by
  induction chunks generalizing s n b with
  | nil => exact congrArg some (setFlow_eq_self hflow).symm
  | cons chunk chunks ih =>
      rw [List.length_cons] at hcount
      rw [List.flatten_cons, List.length_append] at hbytes
      have hnat : (UInt32.ofNat n).toNat = n := by
        refine UInt32.toNat_ofNat_of_lt' ?_
        have hmax : Rust.u32Max < UInt32.size := by decide
        omega
      have hnext : (k.body (UInt32.ofNat n) b).next
          (.body ⟨k, id, UInt32.ofNat n, chunk⟩) =
            some (.active (k.body (UInt32.ofNat (n + 1)) (b + chunk.length))) := by
        have hcond : (UInt32.ofNat n).toNat < Rust.u32Max := by
          rw [hnat]
          omega
        have hfit : b + chunk.length ≤ k.limit := by omega
        rw [UInt32.ofNat_add]
        cases k with
        | requestChunk => exact if_pos ⟨rfl, hcond, hfit⟩
        | responseChunk => exact if_pos ⟨rfl, hcond, hfit⟩
      have hvalid : (Frame.body ⟨k, id, UInt32.ofNat n, chunk⟩).Valid :=
        hsize chunk List.mem_cons_self
      have hobs := observe_move hready hflow hvalid rfl hnext
      have hrest := ih (s := s.setFlow id (k.body (UInt32.ofNat (n + 1)) (b + chunk.length)))
        hready (lookup_setFlow_self _) (fun c hc => hsize c (List.mem_cons_of_mem _ hc))
        (by omega) (by omega)
      rw [chunkFrames, observeAll_cons _ hobs, hrest, setFlow_setFlow, List.length_cons,
        List.flatten_cons, List.length_append, Nat.add_right_comm n, Nat.add_assoc b]
      rfl

/-- The frames of a body that fits are accepted. -/
theorem observeAll_body (kind : RelayBodyKind) {body : List UInt8} (hready : s.handshake = .ready)
    (hflow : s.flows.lookup id = some (kind.body 0 0)) (hbody : body.length ≤ kind.limit) :
    ∃ n, s.observeAll (bodyFrames kind id body) = some (s.setFlow id (kind.body n body.length)) := by
  have hflat : (body.chunks maxBodyChunkBytes).flatten = body :=
    List.flatten_chunks (by decide) body
  have hlimit : kind.limit ≤ Rust.u32Max := by cases kind <;> decide
  have hcount : (body.chunks maxBodyChunkBytes).length ≤ body.length := List.length_chunks_le body
  have hall := observeAll_chunks (n := 0) (b := 0) (k := kind) hready hflow
    (fun chunk => List.length_le_of_mem_chunks) (by rw [hflat]; omega) (by omega)
  rw [hflat, Nat.zero_add, Nat.zero_add] at hall
  exact ⟨_, hall⟩

theorem observeAll_stream {s₁ s₂ : RelaySessionState} {first last : Frame} {chunks : List Frame}
    (hfirst : s.observe first = (.ok (), s₁)) (hchunks : s₁.observeAll chunks = some s₂)
    (hlast : s₂.observe last = (.ok (), s')) : s.observeAll (first :: chunks ++ [last]) = some s' := by
  rw [List.cons_append, observeAll_cons _ hfirst, observeAll_append hchunks]
  exact observeAll_cons [] hlast

/-- A whole response is accepted for a request that awaits it. -/
theorem observeAll_response {response : ProxyResponse} (hready : s.handshake = .ready)
    (hflow : s.flows.lookup id = some .awaitingResponse)
    (hresponse : (⟨id, response.status, response.headers⟩ : ResponseStartFrame).validate = .ok ())
    (hbody : response.body.length ≤ maxResponseBodyBytes) :
    s.observeAll (responseFrames id response) = some (s.removeFlow id) := by
  have hstatus : s.observe (.control (.responseStart ⟨id, response.status, response.headers⟩)) =
      (.ok (), s.setFlow id (.responseBody 0 0)) := observe_move hready hflow hresponse rfl rfl
  obtain ⟨n, hchunks⟩ := observeAll_body (s := s.setFlow id (.responseBody 0 0)) .responseChunk
    hready (lookup_setFlow_self _) hbody
  rw [setFlow_setFlow] at hchunks
  have hvalid : (Frame.control (.responseEnd ⟨id⟩)).Valid := trivial
  have hend := observe_finish (s := s.setFlow id (.responseBody n response.body.length)) hready
    (lookup_setFlow_self _) hvalid rfl rfl
  rw [removeFlow_setFlow] at hend
  exact observeAll_stream hstatus hchunks hend

/-! ### One request at a time -/

/-- The session can take a request under the identifier and has none in
flight. -/
structure Idle (s : RelaySessionState) (id : Uuid) : Prop where
  ready : s.handshake = .ready
  flows : s.flows = ∅
  fresh : id ∉ s.seenRequestIds
  budget : s.seenRequestIds.card < maxRequestIdsPerSession

/-- The session with the one request in flight. -/
def carrying (s : RelaySessionState) (id : Uuid) (flow : FlowState) : RelaySessionState :=
  { s with
    seenRequestIds := insert id s.seenRequestIds
    flows := Finmap.singleton id flow }

/-- The session after the request. -/
def finished (s : RelaySessionState) (id : Uuid) : RelaySessionState :=
  { s with seenRequestIds := insert id s.seenRequestIds }

/-- The session after requests that came one after another. -/
def finishedAll (s : RelaySessionState) (ids : List Uuid) : RelaySessionState :=
  ids.foldl finished s

theorem finishedAll_append (ids : List Uuid) (id : Uuid) :
    s.finishedAll (ids ++ [id]) = (s.finishedAll ids).finished id := by
  rw [finishedAll, List.foldl_append]
  rfl

theorem finishedAll_eq (ids : List Uuid) :
    s.finishedAll ids = { s with seenRequestIds := s.seenRequestIds ∪ ids.toFinset } := by
  induction ids using List.reverseRecOn with
  | nil => simp [finishedAll]
  | append_singleton ids id ih =>
      rw [finishedAll_append, ih]
      simp [finished]

/-- Each of the requests takes an identifier. -/
theorem card_finishedAll {ids : List Uuid} (hnodup : ids.Nodup)
    (hunseen : ∀ id ∈ ids, id ∉ s.seenRequestIds) :
    (s.finishedAll ids).seenRequestIds.card = s.seenRequestIds.card + ids.length := by
  rw [finishedAll_eq, Finset.card_union_of_disjoint, List.toFinset_card_of_nodup hnodup]
  rw [Finset.disjoint_right]
  intro id hid
  exact hunseen id (List.mem_toFinset.mp hid)

theorem lookup_carrying (id : Uuid) (flow : FlowState) :
    (s.carrying id flow).flows.lookup id = some flow :=
  Finmap.lookup_singleton_eq

theorem setFlow_carrying (id : Uuid) (flow flow' : FlowState) :
    (s.carrying id flow).setFlow id flow' = s.carrying id flow' := by
  show RelaySessionState.mk _ _ _ = RelaySessionState.mk _ _ _
  congr 1
  exact Finmap.insert_singleton_eq

theorem removeFlow_carrying (hidle : s.Idle id) (flow : FlowState) :
    (s.carrying id flow).removeFlow id = s.finished id := by
  show RelaySessionState.mk _ _ _ = RelaySessionState.mk _ _ _
  congr 1
  exact (Finmap.erase_singleton id flow).trans hidle.flows.symm

theorem observe_start {start : RequestStartFrame} (hidle : s.Idle start.requestId)
    (hvalid : start.validate = .ok ()) :
    s.observe (.control (.requestStart start)) =
      (.ok (), s.carrying start.requestId (.requestBody 0 0)) := by
  have hflight : s.inFlight < maxConcurrentRequests := by
    rw [inFlight, hidle.flows]
    decide
  refine (Accepted.start hidle.ready hvalid hidle.fresh hflight hidle.budget).observe.trans ?_
  show (_, RelaySessionState.mk _ _ _) = (_, RelaySessionState.mk _ _ _)
  rw [hidle.flows]
  rfl

/-- An identifier that is not drawn twice is new after some requests. -/
theorem fresh_finishedAll {ids : List Uuid} (hnodup : (ids ++ [id]).Nodup)
    (hunseen : ∀ id' ∈ ids ++ [id], id' ∉ s.seenRequestIds) :
    id ∉ (s.finishedAll ids).seenRequestIds ∧
      (s.finishedAll ids).seenRequestIds.card = s.seenRequestIds.card + ids.length := by
  obtain ⟨hids, -, hnew⟩ := List.nodup_append.mp hnodup
  refine ⟨?_, card_finishedAll hids fun id' hid => hunseen id' (List.mem_append_left _ hid)⟩
  rw [finishedAll_eq, Finset.mem_union, not_or, List.mem_toFinset]
  exact ⟨hunseen id (List.mem_append_right _ List.mem_cons_self),
    fun hid => hnew id hid id List.mem_cons_self rfl⟩

/-- After some requests the session is idle as long as its budget lasts. -/
theorem idle_finishedAll {ids : List Uuid} (hready : s.handshake = .ready) (hflows : s.flows = ∅)
    (hnodup : (ids ++ [id]).Nodup) (hunseen : ∀ id' ∈ ids ++ [id], id' ∉ s.seenRequestIds)
    (hroom : s.seenRequestIds.card + ids.length < maxRequestIdsPerSession) :
    (s.finishedAll ids).Idle id := by
  obtain ⟨hfresh, hcard⟩ := fresh_finishedAll hnodup hunseen
  refine ⟨?_, ?_, hfresh, hcard ▸ hroom⟩
  · rw [finishedAll_eq]
    exact hready
  · rw [finishedAll_eq]
    exact hflows

/-- A session whose budget is used up takes no request. -/
theorem observe_start_full {start : RequestStartFrame} (hready : s.handshake = .ready)
    (hflows : s.flows = ∅) (hfresh : start.requestId ∉ s.seenRequestIds)
    (hfull : maxRequestIdsPerSession ≤ s.seenRequestIds.card)
    (hvalid : start.validate = .ok ()) :
    s.observe (.control (.requestStart start)) = (.error .requestIdBudgetExhausted, s) := by
  have hflight : ¬maxConcurrentRequests ≤ s.inFlight := by
    rw [inFlight, hflows]
    decide
  simp only [observe, observeControl, observeReadyControl, hready, hvalid, hfresh, hflight, hfull,
    ne_eq, not_true_eq_false, if_false, if_true]

theorem observeAll_requestFrames {start : RequestStartFrame} {body : List UInt8}
    (hidle : s.Idle start.requestId) (hstart : start.validate = .ok ())
    (hbody : body.length ≤ maxRequestBodyBytes) :
    s.observeAll (requestFrames start body) =
      some (s.carrying start.requestId .awaitingResponse) := by
  obtain ⟨n, hchunks⟩ := observeAll_body (s := s.carrying start.requestId (.requestBody 0 0))
    .requestChunk hidle.ready (lookup_carrying _ _) hbody
  rw [setFlow_carrying] at hchunks
  have hvalid : (Frame.control (.requestEnd ⟨start.requestId⟩)).Valid := trivial
  have hend := observe_move (s := s.carrying start.requestId (.requestBody n body.length))
    hidle.ready (lookup_carrying _ _) hvalid rfl rfl
  rw [setFlow_carrying] at hend
  exact observeAll_stream (observe_start hidle hstart) hchunks hend

theorem observeAll_responseFrames {response : ProxyResponse} (hidle : s.Idle id)
    (hresponse : (⟨id, response.status, response.headers⟩ : ResponseStartFrame).validate = .ok ())
    (hbody : response.body.length ≤ maxResponseBodyBytes) :
    (s.carrying id .awaitingResponse).observeAll (responseFrames id response) =
      some (s.finished id) := by
  have hall := observeAll_response (s := s.carrying id .awaitingResponse) hidle.ready
    (lookup_carrying _ _) hresponse hbody
  rwa [removeFlow_carrying hidle] at hall

end RelaySessionState

/-! ## Streams -/

/-- The bytes of the chunks among the frames. -/
def payload : List Frame → List UInt8
  | [] => []
  | .body frame :: frames => frame.payload ++ payload frames
  | .control _ :: frames => payload frames

theorem payload_append (frames frames' : List Frame) :
    payload (frames ++ frames') = payload frames ++ payload frames' := by
  induction frames with
  | nil => rfl
  | cons first frames ih =>
      cases first with
      | body first =>
          show first.payload ++ payload (frames ++ frames') = first.payload ++ payload frames ++ _
          rw [ih, List.append_assoc]
      | control first => exact ih

theorem payload_snoc (frames : List Frame) (frame : RelayBodyFrame) :
    payload (frames ++ [.body frame]) = payload frames ++ frame.payload := by
  rw [payload_append]
  exact congrArg _ (List.append_nil _)

theorem payload_chunkFrames (kind : RelayBodyKind) (id : Uuid) (n : Nat)
    (chunks : List (List UInt8)) : payload (chunkFrames kind id n chunks) = chunks.flatten := by
  induction chunks generalizing n with
  | nil => rfl
  | cons chunk chunks ih =>
      show chunk ++ payload (chunkFrames kind id (n + 1) chunks) = chunk ++ chunks.flatten
      rw [ih]

/-- The chunks of a body put together are the body. -/
theorem payload_bodyFrames (kind : RelayBodyKind) (id : Uuid) (body : List UInt8) :
    payload (bodyFrames kind id body) = body := by
  rw [bodyFrames, payload_chunkFrames]
  exact List.flatten_chunks (by decide) body

theorem of_mem_chunkFrames {kind : RelayBodyKind} {id : Uuid} {n : Nat}
    {chunks : List (List UInt8)} {frame : Frame} (h : frame ∈ chunkFrames kind id n chunks) :
    ∃ chunk, frame = .body chunk ∧ chunk.kind = kind ∧ chunk.requestId = id := by
  induction chunks generalizing n with
  | nil => cases h
  | cons chunk chunks ih =>
      rcases List.mem_cons.mp h with rfl | hrest
      · exact ⟨_, rfl, rfl, rfl⟩
      · exact ih hrest

/-- Only the first and the last frame of a stream are control frames. -/
theorem control_mem_stream {kind : RelayBodyKind} {id : Uuid} {body : List UInt8}
    {first last : Frame} {frame : RelayControlFrame}
    (h : .control frame ∈ first :: bodyFrames kind id body ++ [last]) :
    .control frame = first ∨ .control frame = last := by
  rcases List.mem_append.mp h with hfront | hlast
  · rcases List.mem_cons.mp hfront with hfirst | hchunk
    · exact .inl hfirst
    · obtain ⟨chunk, hbody, _⟩ := of_mem_chunkFrames hchunk
      cases hbody
  · exact .inr (List.mem_singleton.mp hlast)

theorem control_mem_requestFrames {start : RequestStartFrame} {body : List UInt8}
    {frame : RelayControlFrame} (h : .control frame ∈ requestFrames start body) :
    frame = .requestStart start ∨ frame = .requestEnd ⟨start.requestId⟩ :=
  (control_mem_stream h).imp Frame.control.inj Frame.control.inj

theorem control_mem_responseFrames {id : Uuid} {response : ProxyResponse}
    {frame : RelayControlFrame} (h : .control frame ∈ responseFrames id response) :
    frame = .responseStart ⟨id, response.status, response.headers⟩ ∨ frame = .responseEnd ⟨id⟩ :=
  (control_mem_stream h).imp Frame.control.inj Frame.control.inj

/-- A frame of a stream is the first one, a chunk or the last one. -/
theorem stream_cases {first last frame : Frame} {chunks received rest : List Frame}
    (h : received ++ frame :: rest = first :: chunks ++ [last]) :
    (received = [] ∧ frame = first ∧ rest = chunks ++ [last]) ∨
    (∃ before after, received = first :: before ∧ chunks = before ++ frame :: after ∧
      rest = after ++ [last]) ∨
    (received = first :: chunks ∧ frame = last ∧ rest = []) := by
  cases received with
  | nil =>
      obtain ⟨rfl, rfl⟩ := List.cons.inj h
      exact .inl ⟨rfl, rfl, rfl⟩
  | cons head before =>
      obtain ⟨rfl, htail⟩ := List.cons.inj h
      rcases List.eq_nil_or_concat rest with rfl | ⟨rest, final, rfl⟩
      · obtain ⟨rfl, hlast⟩ := List.append_inj' htail rfl
        exact .inr (.inr ⟨rfl, (List.cons.inj hlast).1, rfl⟩)
      · have htail : (before ++ frame :: rest) ++ [final] = chunks ++ [last] := by
          simpa using htail
        obtain ⟨rfl, hlast⟩ := List.append_inj' htail rfl
        obtain rfl := (List.cons.inj hlast).1
        exact .inr (.inl ⟨before, rest, rfl, rfl, List.concat_eq_append⟩)

/-! ## What the relay has still to send -/

/-- A sent frame leaves the frames behind it, unless the exchange ends. -/
theorem RelayEnd.send_task (codec : ControlCodec) (s : RelayEnd) (frame : Frame)
    (rest : List Frame) :
    (s.send codec frame rest).1.requestId = s.requestId ∧
      ((s.send codec frame rest).1.task = .afterSending rest ∨
        ∃ result, (s.send codec frame rest).1.task = .returned result) := by
  unfold RelayEnd.send
  split
  next => exact ⟨rfl, .inr ⟨_, rfl⟩⟩
  next =>
    split
    next => exact ⟨rfl, .inr ⟨_, rfl⟩⟩
    next => exact ⟨rfl, .inl rfl⟩

theorem RelayEnd.receiveControl_task (codec : ControlCodec) (s : RelayEnd)
    (status : Option UInt16) (headers : List HeaderField) (body : List UInt8)
    (frame : RelayControlFrame) {frames : List Frame}
    (h : (s.receiveControl codec status headers body frame).1.task = .sending frames) :
    s.task = .sending frames := by
  unfold RelayEnd.receiveControl at h
  repeat' split at h
  all_goals first | exact h | cases h

/-- What is received gives nothing to send. -/
theorem RelayEnd.receive_task (codec : ControlCodec) (s : RelayEnd) (status : Option UInt16)
    (headers : List HeaderField) (body : List UInt8) (message : Message) {frames : List Frame}
    (h : (s.receive codec status headers body message).1.task = .sending frames) :
    s.task = .sending frames := by
  unfold RelayEnd.receive at h
  repeat' split at h
  all_goals first
    | exact h
    | cases h
    | exact (RelayEnd.receiveControl_task _ _ _ _ _ _ h :)

/-! ## The drivers on frames that are accepted -/

section

variable {codec : ControlCodec} {config : LoadedConfig} {now : UInt64}
variable {state : RelaySessionState}

theorem RelayEnd.send_ok {s : RelayEnd} {frame : Frame} (rest : List Frame)
    (hobs : s.state.observe frame = (.ok (), state)) :
    s.send codec frame rest =
      ({ s with state, task := .afterSending rest }, [frame.message codec]) := by
  simp only [send, hobs, encodeFrame_of_valid codec (RelaySessionState.Accepted.of_observe hobs).valid]

theorem ConnectorEnd.send_ok {s : ConnectorEnd} {frame : Frame} (rest : List Frame)
    (hobs : s.state.observe frame = (.ok (), state)) :
    s.send codec frame rest = ({ s with state, outbox := rest }, [frame.message codec]) := by
  simp only [send, hobs, encodeFrame_of_valid codec (RelaySessionState.Accepted.of_observe hobs).valid]

theorem RelayEnd.receive_control {s : RelayEnd} {frame : RelayControlFrame}
    (status : Option UInt16) (headers : List HeaderField) (body : List UInt8)
    (hcarries : codec.Carries frame) (hobs : s.state.observe (.control frame) = (.ok (), state)) :
    s.receive codec status headers body (Frame.message codec (.control frame)) =
      { s with state }.receiveControl codec status headers body frame := by
  have hobs : s.state.observeControl frame = (.ok (), state) := hobs
  simp only [Frame.message, receive, show codec.fromStr _ = _ from hcarries, hobs]

theorem ConnectorEnd.receive_control {s : ConnectorEnd} {frame : RelayControlFrame}
    (hcarries : codec.Carries frame) (hshort : Rust.len (codec.toString frame) ≤ maxControlBytes)
    (hobs : s.state.observe (.control frame) = (.ok (), state)) :
    s.receive codec config now (Frame.message codec (.control frame)) =
      { s with state }.receiveControl config now frame := by
  have hobs : s.state.observeControl frame = (.ok (), state) := hobs
  have hdecode : decodeControl codec (codec.toString frame) = .ok frame := by
    simp only [decodeControl, show codec.fromStr _ = _ from hcarries, Nat.not_lt.mpr hshort, if_false]
  simp only [Frame.message, receive, hdecode, hobs]

theorem RelayEnd.receive_body {s : RelayEnd} {frame : RelayBodyFrame}
    (status : Option UInt16) (headers : List HeaderField) {body : List UInt8}
    (hkind : frame.kind = .responseChunk) (hid : frame.requestId = s.requestId)
    (hfit : (body ++ frame.payload).length ≤ maxResponseBodyBytes)
    (hobs : s.state.observe (.body frame) = (.ok (), state)) :
    s.receive codec status headers body (Frame.message codec (.body frame)) =
      ({ s with state, task := .receiving status headers (body ++ frame.payload) }, []) := by
  have hvalid : frame.payload.length ≤ maxBodyChunkBytes :=
    (RelaySessionState.Accepted.of_observe hobs).valid
  have hobs : s.state.observeBody frame = (.ok (), state) := hobs
  simp only [Frame.message, receive, RelayBodyFrame.decode_wire hvalid, hkind, hid, hobs, ne_eq,
    not_true_eq_false, or_self, if_false, Nat.not_lt.mpr hfit]

theorem ConnectorEnd.receive_body {s : ConnectorEnd} {frame : RelayBodyFrame}
    {request : PendingRequest} (hkind : frame.kind = .requestChunk)
    (hpending : s.pending.lookup frame.requestId = some request)
    (hobs : s.state.observe (.body frame) = (.ok (), state)) :
    s.receive codec config now (Frame.message codec (.body frame)) =
      ({ s with
        state
        pending := s.pending.insert frame.requestId
          { request with body := request.body ++ frame.payload } }, []) := by
  have hvalid : frame.payload.length ≤ maxBodyChunkBytes :=
    (RelaySessionState.Accepted.of_observe hobs).valid
  have hobs : s.state.observeBody frame = (.ok (), state) := hobs
  simp only [Frame.message, receive, RelayBodyFrame.decode_wire hvalid, hkind, hobs, hpending, ne_eq,
    not_true_eq_false, if_false]

end

/-! ## What the drivers have collected -/

/-- The connector between two requests. -/
def ConnectorEnd.idle (state : RelaySessionState) : ConnectorEnd where
  state := state
  pending := ∅
  active := ∅
  cancelled := ∅
  upstream := []
  outgoing := []
  outbox := []
  result := none

/-- A request that was taken on, with the part of its body that arrived. -/
def RequestStartFrame.pending (start : RequestStartFrame) (body : List UInt8) : PendingRequest where
  method := start.method.value
  target := start.target
  headers := start.headers
  body := body
  deadlineUnixMs := start.deadlineUnixMs
  rejected := false

/-- The connector that received frames of the request. -/
def ConnectorEnd.collecting (start : RequestStartFrame) (state : RelaySessionState) :
    List Frame → ConnectorEnd
  | [] => .idle state
  | _ :: chunks => { ConnectorEnd.idle state with
      pending := Finmap.singleton start.requestId (start.pending (payload chunks)) }

/-- The connector while the upstream executes the request. -/
def ConnectorEnd.executing (start : RequestStartFrame) (state : RelaySessionState)
    (request : ProxyRequest) : ConnectorEnd :=
  { ConnectorEnd.idle state with
    active := {start.requestId}
    upstream := [(start.requestId, request)] }

/-- The relay that received frames of the response. -/
def ExchangeTask.collecting (response : ProxyResponse) : List Frame → ExchangeTask
  | [] => .receiving none [] []
  | _ :: chunks => .receiving (some response.status) response.headers (payload chunks)

section

variable {codec : ControlCodec} {config : LoadedConfig} {now : UInt64}
variable {start : RequestStartFrame} {body : List UInt8} {response : ProxyResponse}
variable {state state' : RelaySessionState} {received rest : List Frame} {frame : Frame}

/-- A request is taken on when there is room for it. -/
theorem ConnectorEnd.receiveControl_start {s : ConnectorEnd} (hnew : start.requestId ∉ s.pending)
    (hroom : Rust.saturatingAdd s.pending.keys.card s.active.card < config.maxInFlight) :
    s.receiveControl config now (.requestStart start) =
      ({ s with pending := s.pending.insert start.requestId (start.pending []) }, []) := by
  simp only [receiveControl, if_neg hnew, decide_eq_false (Nat.not_le.mpr hroom)]
  rfl

/-- A collected request in time goes to the upstream. -/
theorem ConnectorEnd.receiveControl_end {s : ConnectorEnd} {id : Uuid} {request : PendingRequest}
    (hcancelled : id ∉ s.cancelled) (hpending : s.pending.lookup id = some request)
    (hrejected : request.rejected = false) (htime : now < request.deadlineUnixMs) :
    s.receiveControl config now (.requestEnd ⟨id⟩) =
      ({ s with
        pending := s.pending.erase id
        active := insert id s.active
        upstream := s.upstream ++ [(id,
          ProxyRequest.mk request.method request.target request.headers request.body)] },
        []) := by
  simp only [receiveControl, if_neg hcancelled, hpending, hrejected, Bool.false_eq_true, if_false,
    if_neg (UInt64.not_le.mpr htime)]

theorem ConnectorEnd.receive_start
    (hcarries : codec.Carries (.requestStart start))
    (hshort : Rust.len (codec.toString (.requestStart start)) ≤ maxControlBytes)
    (hobs : state.observe (.control (.requestStart start)) = (.ok (), state')) :
    (ConnectorEnd.collecting start state []).receive codec config now
        (Frame.message codec (.control (.requestStart start))) =
      (.collecting start state' [.control (.requestStart start)], []) := by
  have hroom : Rust.saturatingAdd 0 0 < config.maxInFlight := config.valid.1
  refine (receive_control hcarries hshort hobs).trans ?_
  exact receiveControl_start (s := .idle state') Finmap.notMem_empty hroom

theorem ConnectorEnd.receive_chunk {first : Frame} {chunks : List Frame} {frame : RelayBodyFrame}
    (hkind : frame.kind = .requestChunk) (hid : frame.requestId = start.requestId)
    (hobs : state.observe (.body frame) = (.ok (), state')) :
    (ConnectorEnd.collecting start state (first :: chunks)).receive codec config now
        (Frame.message codec (.body frame)) =
      (.collecting start state' (first :: chunks ++ [.body frame]), []) := by
  have hpending : (collecting start state (first :: chunks)).pending.lookup frame.requestId =
      some (start.pending (payload chunks)) := by
    rw [hid]
    exact Finmap.lookup_singleton_eq
  have hinsert : (collecting start state (first :: chunks)).pending.insert frame.requestId
      (start.pending (payload chunks ++ frame.payload)) =
        Finmap.singleton start.requestId (start.pending (payload (chunks ++ [.body frame]))) := by
    rw [hid, payload_snoc]
    exact Finmap.insert_singleton_eq
  refine (receive_body hkind hpending hobs).trans ?_
  exact congrArg (fun pending => ({ ConnectorEnd.idle state' with pending }, [])) hinsert

theorem ConnectorEnd.receive_end {first : Frame}
    (hcarries : codec.Carries (.requestEnd ⟨start.requestId⟩))
    (hshort : Rust.len (codec.toString (.requestEnd ⟨start.requestId⟩)) ≤ maxControlBytes)
    (htime : now < start.deadlineUnixMs)
    (hobs : state.observe (.control (.requestEnd ⟨start.requestId⟩)) = (.ok (), state')) :
    (ConnectorEnd.collecting start state
        (first :: bodyFrames .requestChunk start.requestId body)).receive codec config now
          (Frame.message codec (.control (.requestEnd ⟨start.requestId⟩))) =
      (.executing start state' ⟨start.method.value, start.target, start.headers, body⟩, []) := by
  refine (receive_control hcarries hshort hobs).trans ?_
  refine (receiveControl_end (s := { collecting start state _ with state := state' })
    (Finset.notMem_empty _) Finmap.lookup_singleton_eq rfl htime).trans ?_
  rw [payload_bodyFrames]
  exact congrArg (fun pending => ({ ConnectorEnd.executing start state' _ with pending }, []))
    (Finmap.erase_singleton _ _)

theorem RelayEnd.receive_start {id : Uuid} {task : ExchangeTask}
    (hcarries : codec.Carries (.responseStart ⟨id, response.status, response.headers⟩))
    (hobs : state.observe (.control (.responseStart ⟨id, response.status, response.headers⟩)) =
      (.ok (), state')) :
    (RelayEnd.mk state id task).receive codec none [] []
        (Frame.message codec (.control (.responseStart ⟨id, response.status, response.headers⟩))) =
      (⟨state', id, .receiving (some response.status) response.headers []⟩, []) := by
  refine (receive_control none [] [] hcarries hobs).trans ?_
  exact if_pos rfl

theorem RelayEnd.receive_end {id : Uuid} {task : ExchangeTask}
    (hcarries : codec.Carries (.responseEnd ⟨id⟩))
    (hobs : state.observe (.control (.responseEnd ⟨id⟩)) = (.ok (), state')) :
    (RelayEnd.mk state id task).receive codec (some response.status) response.headers response.body
        (Frame.message codec (.control (.responseEnd ⟨id⟩))) =
      (⟨state', id, .returned (.ok ⟨response.status, response.headers, response.body⟩)⟩, []) := by
  refine (receive_control _ _ _ hcarries hobs).trans ?_
  exact if_pos rfl

end

/-! ## The next frame -/

/-- What the drivers rely on when they exchange a request and its response. -/
structure Exchangeable (codec : ControlCodec) (start : RequestStartFrame) (body : List UInt8)
    (response : ProxyResponse) : Prop where
  /-- The request start passes its validation. -/
  start_valid : start.validate = .ok ()
  /-- The request body is at most 16 MiB. -/
  body_le : body.length ≤ maxRequestBodyBytes
  /-- The response start passes its validation. -/
  response_valid : (⟨start.requestId, response.status, response.headers⟩ :
    ResponseStartFrame).validate = .ok ()
  /-- The response body is at most 64 MiB. -/
  responseBody_le : response.body.length ≤ maxResponseBodyBytes
  /-- JSON carries the control frames of the exchange. -/
  carries : ∀ frame : RelayControlFrame,
    .control frame ∈ requestFrames start body ++ responseFrames start.requestId response →
      codec.Carries frame
  /-- The control frames of the request are at most 64 KiB of JSON. -/
  short : ∀ frame : RelayControlFrame, .control frame ∈ requestFrames start body →
    Rust.len (codec.toString frame) ≤ maxControlBytes

/-- The request as it was given to `execute_exchange`. -/
def RequestStartFrame.request (start : RequestStartFrame) (body : List UInt8) : ProxyRequest where
  method := start.method.value
  target := start.target
  headers := start.headers
  body := body

section

variable {codec : ControlCodec} {config : LoadedConfig} {now : UInt64}
variable {start : RequestStartFrame} {body : List UInt8} {response : ProxyResponse}
variable {state state' : RelaySessionState} {received rest : List Frame} {frame : Frame}

/-- The connector receives the next frame of a request. -/
theorem ConnectorEnd.receive_next (hex : Exchangeable codec start body response)
    (hframes : received ++ frame :: rest = requestFrames start body)
    (htime : now < start.deadlineUnixMs) (hobs : state.observe frame = (.ok (), state')) :
    (ConnectorEnd.collecting start state received).receive codec config now
        (frame.message codec) =
      (if rest = [] then .executing start state' (start.request body)
        else .collecting start state' (received ++ [frame]), []) := by
  have hmem : frame ∈ requestFrames start body := by
    rw [← hframes]
    exact List.mem_append_right _ List.mem_cons_self
  have hcarries : ∀ control, frame = .control control → codec.Carries control := by
    rintro control rfl
    exact hex.carries control (List.mem_append_left _ hmem)
  have hshort : ∀ control, frame = .control control →
      Rust.len (codec.toString control) ≤ maxControlBytes := by
    rintro control rfl
    exact hex.short control hmem
  rcases stream_cases hframes with
    ⟨rfl, rfl, hrest⟩ | ⟨before, after, rfl, hchunks, hrest⟩ | ⟨rfl, rfl, rfl⟩
  · rw [if_neg (by simp [hrest])]
    exact receive_start (hcarries _ rfl) (hshort _ rfl) hobs
  · have hchunk : frame ∈ bodyFrames .requestChunk start.requestId body := by
      rw [hchunks]
      exact List.mem_append_right _ List.mem_cons_self
    obtain ⟨chunk, rfl, hkind, hid⟩ := of_mem_chunkFrames hchunk
    rw [if_neg (by simp [hrest])]
    exact receive_chunk hkind hid hobs
  · exact receive_end (hcarries _ rfl) (hshort _ rfl) htime hobs

/-- The relay receives the next frame of a response. -/
theorem RelayEnd.receive_next {id : Uuid} {task : ExchangeTask}
    (hcarries : ∀ control, frame = .control control → codec.Carries control)
    (hbody : response.body.length ≤ maxResponseBodyBytes)
    (hframes : received ++ frame :: rest = responseFrames id response)
    (hobs : state.observe frame = (.ok (), state')) :
    ∃ status headers bytes,
      ExchangeTask.collecting response received = .receiving status headers bytes ∧
      (RelayEnd.mk state id task).receive codec status headers bytes (frame.message codec) =
        (⟨state', id, if rest = []
          then .returned (.ok ⟨response.status, response.headers, response.body⟩)
          else .collecting response (received ++ [frame])⟩, []) := by
  rcases stream_cases hframes with
    ⟨rfl, rfl, hrest⟩ | ⟨before, after, rfl, hchunks, hrest⟩ | ⟨rfl, rfl, rfl⟩
  · refine ⟨none, [], [], rfl, ?_⟩
    rw [if_neg (by simp [hrest])]
    exact receive_start (hcarries _ rfl) hobs
  · have hchunk : frame ∈ bodyFrames .responseChunk id response.body := by
      rw [hchunks]
      exact List.mem_append_right _ List.mem_cons_self
    obtain ⟨chunk, rfl, hkind, hid⟩ := of_mem_chunkFrames hchunk
    have hfit : (payload before ++ chunk.payload).length ≤ maxResponseBodyBytes := by
      have hwhole : payload (before ++ [.body chunk]) ++ payload after = response.body := by
        rw [← payload_append, List.append_assoc, List.singleton_append, ← hchunks,
          payload_bodyFrames]
      have hlength := congrArg List.length hwhole
      rw [List.length_append] at hlength
      rw [← payload_snoc]
      omega
    refine ⟨some response.status, response.headers, payload before, rfl, ?_⟩
    rw [if_neg (by simp [hrest])]
    refine (receive_body _ _ hkind hid hfit hobs).trans ?_
    show _ = (RelayEnd.mk state' id (.receiving _ _ (payload (before ++ [_]))), _)
    rw [payload_snoc]
  · refine ⟨some response.status, response.headers, response.body, ?_, ?_⟩
    · show ExchangeTask.receiving _ _ (payload (bodyFrames _ _ _)) = _
      rw [payload_bodyFrames]
    · exact receive_end (hcarries _ rfl) hobs

end

end Cresix.Relay
