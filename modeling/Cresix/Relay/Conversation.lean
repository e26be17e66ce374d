import Cresix.Relay.SessionSafety

/-!
# The frames of one request

`Exchange` is the complete conversation about a request.  `Conversation` is
what a session ever accepts about it: a beginning of an exchange, or a proper
beginning cut short by one terminating frame.

`Shape` ties the frames accepted so far to the status of the request.  It is
kept by every frame that is offered, so it holds in every run.
-/

namespace Cresix.Relay

open Rust (Uuid)

/-! ## The grammar -/

/-- The chunks of a body, numbered from zero. -/
def Chunks (kind : RelayBodyKind) (id : Uuid) (frames : List Frame) : Prop :=
  ∀ i (h : i < frames.length), ∃ frame, frames[i] = .body frame ∧
    frame.kind = kind ∧ frame.requestId = id ∧ frame.sequence.toNat = i

/-- The complete conversation about a request. -/
def Exchange (id : Uuid) (frames : List Frame) : Prop :=
  ∃ start request response chunks,
    start.requestId = id ∧ Chunks .requestChunk id request ∧
    response.requestId = id ∧ Chunks .responseChunk id chunks ∧
    frames = .control (.requestStart start) :: request ++
      .control (.requestEnd ⟨id⟩) :: .control (.responseStart response) :: chunks ++
      [.control (.responseEnd ⟨id⟩)]

/-- The frames that cut a request short. -/
inductive Cut (id : Uuid) : Frame → Prop where
  | cancel : Cut id (.control (.cancel ⟨id⟩))
  | failed {frame : RequestFailedFrame} : frame.requestId = id →
      Cut id (.control (.requestFailed frame))

/-- The frame opens a request. -/
def Frame.isStart : Frame → Bool
  | .control (.requestStart _) => true
  | _ => false

/-- The frame ends the request it names. -/
def Frame.terminates : Frame → Bool
  | .control (.responseEnd _) | .control (.cancel _) | .control (.requestFailed _) => true
  | _ => false

/-- What a session accepts about a request. -/
def Conversation (id : Uuid) (frames : List Frame) : Prop :=
  (∃ exchange, Exchange id exchange ∧ frames <+: exchange) ∨
  ∃ begun last exchange, frames = begun ++ [last] ∧ Cut id last ∧
    Exchange id exchange ∧ begun <+: exchange ∧ begun ≠ [] ∧ begun ≠ exchange

theorem chunks_nil (kind : RelayBodyKind) (id : Uuid) : Chunks kind id [] := by
  intro i h
  simp at h

theorem Chunks.snoc {kind : RelayBodyKind} {id : Uuid} {frames : List Frame}
    {frame : RelayBodyFrame} (h : Chunks kind id frames) (hkind : frame.kind = kind)
    (hid : frame.requestId = id) (hseq : frame.sequence.toNat = frames.length) :
    Chunks kind id (frames ++ [.body frame]) := by
  intro i hi
  by_cases hlt : i < frames.length
  · obtain ⟨f, hf, hrest⟩ := h i hlt
    exact ⟨f, by rw [List.getElem_append_left hlt, hf], hrest⟩
  · have hlen : i = frames.length := by
      simp only [List.length_append, List.length_cons, List.length_nil] at hi
      omega
    subst hlen
    exact ⟨frame, by simp, hkind, hid, hseq⟩

/-! ## The shape of an open request -/

/-- The frames accepted for a request whose flow is open. -/
def OpenShape (id : Uuid) (frames : List Frame) : FlowState → Prop
  | .requestBody nextSequence _ => ∃ start request,
      start.requestId = id ∧ Chunks .requestChunk id request ∧
      request.length = nextSequence.toNat ∧
      frames = .control (.requestStart start) :: request
  | .awaitingResponse => ∃ start request,
      start.requestId = id ∧ Chunks .requestChunk id request ∧
      frames = .control (.requestStart start) :: request ++ [.control (.requestEnd ⟨id⟩)]
  | .responseBody nextSequence _ => ∃ start request response chunks,
      start.requestId = id ∧ Chunks .requestChunk id request ∧
      response.requestId = id ∧ Chunks .responseChunk id chunks ∧
      chunks.length = nextSequence.toNat ∧
      frames = .control (.requestStart start) :: request ++
        .control (.requestEnd ⟨id⟩) :: .control (.responseStart response) :: chunks

/-- The frames accepted for a request, by its status. -/
def Shape (id : Uuid) (frames : List Frame) : FlowStatus → Prop
  | .unseen => frames = []
  | .active flow => OpenShape id frames flow
  | .closed => Exchange id frames ∨
      ∃ begun last flow, frames = begun ++ [last] ∧ OpenShape id begun flow ∧ Cut id last

/-- The counted bytes do not matter to the shape. -/
theorem openShape_body {id : Uuid} {frames : List Frame} {kind : RelayBodyKind} {n : UInt32}
    {bytes bytes' : Nat} (h : OpenShape id frames (kind.body n bytes)) :
    OpenShape id frames (kind.body n bytes') := by
  cases kind <;> exact h

theorem toNat_succ {n : UInt32} (h : n.toNat < Rust.u32Max) : (n + 1).toNat = n.toNat + 1 := by
  rw [UInt32.toNat_add]
  exact Nat.mod_eq_of_lt (by unfold Rust.u32Max at h; simp; omega)

/-- A chunk extends the shape of an open body. -/
theorem OpenShape.chunk {id : Uuid} {frames : List Frame} {frame : RelayBodyFrame}
    {flow : FlowState} {status : FlowStatus} (h : OpenShape id frames flow)
    (hid : frame.requestId = id) (hnext : flow.next (.body frame) = some status) :
    Shape id (frames ++ [.body frame]) status := by
  cases hkind : frame.kind <;> cases flow <;> simp only [FlowState.next, hkind] at hnext
  all_goals try (exact absurd hnext (by simp))
  all_goals
    unfold FlowState.nextChunk at hnext
    split_ifs at hnext with hcond
    obtain ⟨hseq, hlast, -⟩ := hcond
    obtain rfl := Option.some.inj hnext
  · obtain ⟨start, request, hstart, hrequest, hlen, rfl⟩ := h
    refine ⟨start, request ++ [.body frame], hstart,
      hrequest.snoc hkind hid (by rw [hseq, hlen]), ?_, by simp⟩
    simp [hlen, toNat_succ hlast]
  · obtain ⟨start, request, response, chunks, hstart, hrequest, hresponse, hchunks, hlen, rfl⟩ := h
    refine ⟨start, request, response, chunks ++ [.body frame], hstart, hrequest, hresponse,
      hchunks.snoc hkind hid (by rw [hseq, hlen]), ?_, by simp⟩
    simp [hlen, toNat_succ hlast]

/-- Each frame that moves an open request extends its shape. -/
theorem OpenShape.next {id : Uuid} {frames : List Frame} {frame : Frame} {flow : FlowState}
    {status : FlowStatus} (h : OpenShape id frames flow) (hid : frame.requestId? = some id)
    (hnext : flow.next frame = some status) : Shape id (frames ++ [frame]) status := by
  cases frame with
  | body frame => exact h.chunk (Option.some.inj hid) hnext
  | control frame =>
      cases frame with
      | requestEnd f =>
          obtain rfl := Option.some.inj hid
          cases flow <;> simp only [FlowState.next, Option.some.injEq, reduceCtorEq] at hnext
          subst hnext
          obtain ⟨start, request, hstart, hrequest, hlen, rfl⟩ := h
          exact ⟨start, request, hstart, hrequest, rfl⟩
      | responseStart f =>
          obtain rfl := Option.some.inj hid
          cases flow <;> simp only [FlowState.next, Option.some.injEq, reduceCtorEq] at hnext
          subst hnext
          obtain ⟨start, request, hstart, hrequest, rfl⟩ := h
          exact ⟨start, request, f, [], hstart, hrequest, rfl, chunks_nil _ _, rfl, by simp⟩
      | responseEnd f =>
          obtain rfl := Option.some.inj hid
          cases flow <;> simp only [FlowState.next, Option.some.injEq, reduceCtorEq] at hnext
          subst hnext
          obtain ⟨start, request, response, chunks, hstart, hrequest, hresponse, hchunks, hlen,
            rfl⟩ := h
          exact .inl ⟨start, request, response, chunks, hstart, hrequest, hresponse, hchunks,
            by simp⟩
      | cancel f =>
          obtain rfl := Option.some.inj hid
          obtain rfl := Option.some.inj hnext
          exact .inr ⟨frames, _, flow, rfl, h, .cancel⟩
      | requestFailed f =>
          obtain rfl := Option.some.inj hnext
          exact .inr ⟨frames, _, flow, rfl, h, .failed (Option.some.inj hid)⟩
      | requestStart f => cases flow <;> simp [FlowState.next] at hnext
      | clientHello f => cases hid
      | serverReady f => cases hid
      | ping f => cases hid
      | pong f => cases hid

theorem Shape.next {id : Uuid} {frames : List Frame} {frame : Frame} {st st' : FlowStatus}
    (h : Shape id frames st) (hid : frame.requestId? = some id)
    (hnext : st.next frame = some st') : Shape id (frames ++ [frame]) st' := by
  cases st with
  | unseen =>
      cases frame with
      | body frame => simp [FlowStatus.next] at hnext
      | control frame =>
          cases frame <;> simp [FlowStatus.next] at hnext
          next start =>
            subst hnext
            obtain rfl : frames = [] := h
            exact ⟨start, [], Option.some.inj hid, chunks_nil _ _, rfl, rfl⟩
  | active flow => exact OpenShape.next h hid hnext
  | closed => simp [FlowStatus.next] at hnext

/-! ## From shapes to conversations -/

/-- An open request can still be completed. -/
theorem OpenShape.completes {id : Uuid} {frames : List Frame} {flow : FlowState}
    (h : OpenShape id frames flow) :
    ∃ exchange, Exchange id exchange ∧ frames <+: exchange ∧ frames ≠ [] ∧ frames ≠ exchange := by
  have hanswer : (⟨id, 200, []⟩ : ResponseStartFrame).requestId = id := rfl
  cases flow with
  | requestBody n bytes =>
      obtain ⟨start, request, hstart, hrequest, hlen, rfl⟩ := h
      refine ⟨_, ⟨start, request, ⟨id, 200, []⟩, [], hstart, hrequest, hanswer, chunks_nil _ _,
        rfl⟩, ⟨[.control (.requestEnd ⟨id⟩), .control (.responseStart ⟨id, 200, []⟩),
          .control (.responseEnd ⟨id⟩)], by simp⟩, by simp, by simp⟩
  | awaitingResponse =>
      obtain ⟨start, request, hstart, hrequest, rfl⟩ := h
      refine ⟨_, ⟨start, request, ⟨id, 200, []⟩, [], hstart, hrequest, hanswer, chunks_nil _ _,
        rfl⟩, ⟨[.control (.responseStart ⟨id, 200, []⟩), .control (.responseEnd ⟨id⟩)],
          by simp⟩, by simp, by simp⟩
  | responseBody n bytes =>
      obtain ⟨start, request, response, chunks, hstart, hrequest, hresponse, hchunks, hlen, rfl⟩ :=
        h
      refine ⟨_, ⟨start, request, response, chunks, hstart, hrequest, hresponse, hchunks, rfl⟩,
        ⟨[.control (.responseEnd ⟨id⟩)], by simp⟩, by simp, by simp⟩

theorem Shape.conversation {id : Uuid} {frames : List Frame} {st : FlowStatus}
    (h : Shape id frames st) : Conversation id frames := by
  cases st with
  | unseen =>
      obtain rfl : frames = [] := h
      refine .inl ⟨_, ⟨⟨id, ⟨"GET", by decide⟩, "/", [], 1⟩, [], ⟨id, 200, []⟩, [], rfl,
        chunks_nil _ _, rfl, chunks_nil _ _, rfl⟩, List.nil_prefix⟩
  | active flow =>
      obtain ⟨exchange, hexchange, hbegun, -, -⟩ := OpenShape.completes h
      exact .inl ⟨exchange, hexchange, hbegun⟩
  | closed =>
      rcases h with hexchange | ⟨begun, last, flow, rfl, hopen, hcut⟩
      · exact .inl ⟨frames, hexchange, List.prefix_rfl⟩
      · obtain ⟨exchange, hexchange, hbegun, hne, hproper⟩ := hopen.completes
        exact .inr ⟨begun, last, exchange, rfl, hcut, hexchange, hbegun, hne, hproper⟩

/-! ## Starts and ends -/

theorem Chunks.inert {kind : RelayBodyKind} {id : Uuid} {frames : List Frame}
    (h : Chunks kind id frames) {frame : Frame} (hmem : frame ∈ frames) :
    frame.isStart = false ∧ frame.terminates = false := by
  obtain ⟨i, hi, rfl⟩ := List.getElem_of_mem hmem
  obtain ⟨f, hf, -⟩ := h i hi
  rw [hf]
  exact ⟨rfl, rfl⟩

theorem Exchange.tail_not_start {id : Uuid} {frames : List Frame} (h : Exchange id frames) :
    ∀ frame ∈ frames.tail, frame.isStart = false := by
  obtain ⟨start, request, response, chunks, -, hrequest, -, hchunks, rfl⟩ := h
  intro frame hmem
  simp only [List.cons_append, List.tail_cons, List.append_assoc, List.mem_append, List.mem_cons,
    List.not_mem_nil, or_false] at hmem
  rcases hmem with hmem | rfl | rfl | hmem | rfl
  · exact (hrequest.inert hmem).1
  · rfl
  · rfl
  · exact (hchunks.inert hmem).1
  · rfl

theorem Exchange.dropLast_not_terminates {id : Uuid} {frames : List Frame}
    (h : Exchange id frames) : ∀ frame ∈ frames.dropLast, frame.terminates = false := by
  obtain ⟨start, request, response, chunks, -, hrequest, -, hchunks, rfl⟩ := h
  intro frame hmem
  rw [List.dropLast_concat] at hmem
  simp only [List.mem_append, List.mem_cons] at hmem
  rcases hmem with (rfl | hmem) | rfl | rfl | hmem
  · rfl
  · exact (hrequest.inert hmem).2
  · rfl
  · rfl
  · exact (hchunks.inert hmem).2

/-- A proper beginning of a list has none of its last element. -/
theorem subset_dropLast_of_proper {α : Type} {begun whole : List α} (h : begun <+: whole)
    (hne : begun ≠ whole) : begun ⊆ whole.dropLast := by
  obtain ⟨rest, rfl⟩ := h
  have hrest : rest ≠ [] := by
    rintro rfl
    simp at hne
  rw [List.dropLast_append_of_ne_nil hrest]
  exact List.subset_append_left _ _

theorem tail_subset_of_begun {α : Type} {begun whole : List α} (h : begun <+: whole) :
    begun.tail ⊆ whole.tail := by
  obtain ⟨rest, rfl⟩ := h
  cases begun with
  | nil => simp
  | cons a l => simp

/-- Only the first accepted frame starts the request. -/
theorem Conversation.tail_not_start {id : Uuid} {frames : List Frame}
    (h : Conversation id frames) : ∀ frame ∈ frames.tail, frame.isStart = false := by
  rcases h with ⟨exchange, hexchange, hbegun⟩ |
    ⟨begun, last, exchange, rfl, hcut, hexchange, hbegun, hne, -⟩
  · intro frame hmem
    exact hexchange.tail_not_start frame (tail_subset_of_begun hbegun hmem)
  · intro frame hmem
    rw [List.tail_append_of_ne_nil hne, List.mem_append, List.mem_singleton] at hmem
    rcases hmem with hmem | rfl
    · exact hexchange.tail_not_start frame (tail_subset_of_begun hbegun hmem)
    · cases hcut <;> rfl

/-- Only the last accepted frame ends the request. -/
theorem Conversation.dropLast_not_terminates {id : Uuid} {frames : List Frame}
    (h : Conversation id frames) : ∀ frame ∈ frames.dropLast, frame.terminates = false := by
  rcases h with ⟨exchange, hexchange, hbegun⟩ |
    ⟨begun, last, exchange, rfl, hcut, hexchange, hbegun, -, hproper⟩
  · intro frame hmem
    apply hexchange.dropLast_not_terminates frame
    by_cases hwhole : frames = exchange
    · exact hwhole ▸ hmem
    · exact subset_dropLast_of_proper hbegun hwhole (List.dropLast_subset _ hmem)
  · intro frame hmem
    rw [List.dropLast_concat] at hmem
    exact hexchange.dropLast_not_terminates frame (subset_dropLast_of_proper hbegun hproper hmem)

/-! ## Runs -/

namespace RelaySessionState

open Transition

variable {s s' : RelaySessionState}

/-- The frames naming a request that a run accepted, in order. -/
def acceptedFrames (id : Uuid) (tr : List (Event RelaySessionState Frame)) : List Frame :=
  (tr.filter fun e => (e.pre.observe e.label).1 = .ok () ∧ e.label.requestId? = some id).map
    (·.label)

theorem acceptedFrames_snoc (id : Uuid) (tr : List (Event RelaySessionState Frame))
    (e : Event RelaySessionState Frame) :
    acceptedFrames id (tr ++ [e]) =
      if (e.pre.observe e.label).1 = .ok () ∧ e.label.requestId? = some id then
        acceptedFrames id tr ++ [e.label]
      else acceptedFrames id tr := by
  unfold acceptedFrames
  rw [List.filter_append, List.map_append]
  split
  next h => simp [h]
  next h => simp [h]

/-- An accepted frame moves the request it names along `FlowStatus.next`. -/
theorem Accepted.status_next {frame : Frame} {id : Uuid} (hinv : SessionInvariant s)
    (h : Accepted s frame s') (hid : frame.requestId? = some id) :
    (s.status id).next frame = some (s'.status id) := by
  cases h with
  | clientHello => cases hid
  | serverReady => cases hid
  | ping => cases hid
  | pong => cases hid
  | @start f hready hvalid hfresh hfull hbudget =>
      obtain rfl := Option.some.inj hid
      rw [(status_eq_unseen hinv.keys_seen).mpr hfresh]
      simp [FlowStatus.next, status]
  | @move _ id' flow flow' hready hvalid hid' hflow hnext =>
      obtain rfl : id' = id := Option.some.inj (hid'.symm.trans hid)
      rw [status_eq_active_iff.mpr hflow, status_setFlow_self]
      exact hnext
  | @finish _ id' flow hready hvalid hid' hflow hnext =>
      obtain rfl : id' = id := Option.some.inj (hid'.symm.trans hid)
      have hseen : id' ∈ s.seenRequestIds :=
        hinv.keys_seen (Finmap.mem_keys.mpr (Finmap.mem_of_lookup_eq_some hflow))
      rw [status_eq_active_iff.mpr hflow, status_removeFlow_self hseen]
      exact hnext

/-- An accepted frame leaves every other request alone. -/
theorem Accepted.status_of_ne {frame : Frame} {id : Uuid} (h : Accepted s frame s')
    (hid : frame.requestId? ≠ some id) : s'.status id = s.status id := by
  cases h with
  | clientHello => rfl
  | serverReady => rfl
  | ping => rfl
  | pong => rfl
  | @start f hready hvalid hfresh hfull hbudget =>
      have hne : id ≠ f.requestId := fun heq => hid (by rw [heq]; rfl)
      simp [status, Finmap.lookup_insert_of_ne _ hne, hne]
  | @move _ id' flow flow' hready hvalid hid' hflow hnext =>
      exact status_setFlow_of_ne _ fun heq => hid (heq ▸ hid')
  | @finish _ id' flow hready hvalid hid' hflow hnext =>
      exact status_removeFlow_of_ne fun heq => hid (heq ▸ hid')

/-- A rejected frame keeps every shape. -/
theorem shape_observe_error {frame : Frame} {e : RelayValidationError} {id : Uuid}
    {frames : List Frame} (hobs : s.observe frame = (.error e, s'))
    (h : Shape id frames (s.status id)) : Shape id frames (s'.status id) := by
  cases frame with
  | control frame => rwa [observeControl_error hobs]
  | body frame =>
      rcases observeBody_error hobs with rfl | ⟨bytes, -, -, -, hflow, -, rfl⟩
      · exact h
      · by_cases hid : id = frame.requestId
        · subst hid
          rw [status_eq_active_iff.mpr hflow] at h
          rw [status_setFlow_self]
          exact openShape_body h
        · rwa [status_setFlow_of_ne _ hid]

/-- One offered frame keeps the shape of every request. -/
theorem shape_step {id : Uuid} {tr : List (Event RelaySessionState Frame)} {frame : Frame}
    (hinv : SessionInvariant s) (h : Shape id (acceptedFrames id tr) (s.status id)) :
    Shape id (acceptedFrames id (tr ++ [⟨s, frame, (s.observe frame).2⟩]))
      ((s.observe frame).2.status id) := by
  rw [acceptedFrames_snoc]
  rcases hobs : s.observe frame with ⟨verdict, t⟩
  cases verdict with
  | error e => simpa [hobs] using shape_observe_error hobs h
  | ok _ =>
      have hacc : Accepted s frame t := .of_observe hobs
      by_cases hid : frame.requestId? = some id
      · simpa [hobs, hid] using h.next hid (hacc.status_next hinv hid)
      · simpa [hobs, hid, hacc.status_of_ne hid] using h

theorem shape_of_run {tr : List (Event RelaySessionState Frame)}
    (h : sessionSystem.Run default tr s) (id : Uuid) :
    Shape id (acceptedFrames id tr) (s.status id) := by
  refine h.history (I := fun tr s => Shape id (acceptedFrames id tr) (s.status id)) rfl ?_
  rintro tr t frame u hrun hshape rfl
  exact shape_step (sessionInvariant_of_reachable ⟨_, _, rfl, hrun⟩) hshape

/-- The safety of a session that is offered any frames in any order. -/
theorem session_safety {tr : List (Event RelaySessionState Frame)}
    (h : sessionSystem.Run default tr s) :
    (∀ id ∈ s.flows.keys, id ∈ s.seenRequestIds) ∧
    s.inFlight ≤ 32 ∧ s.seenRequestIds.card ≤ 4096 ∧
    (s.isReady = false → s.inFlight = 0) ∧
    (∀ id n bytes, s.flows.lookup id = some (.requestBody n bytes) → bytes ≤ 16 * 1024 * 1024) ∧
    (∀ id n bytes, s.flows.lookup id = some (.responseBody n bytes) → bytes ≤ 64 * 1024 * 1024) ∧
    ∀ id, Conversation id (acceptedFrames id tr) ∧
      (∀ frame ∈ (acceptedFrames id tr).tail, frame.isStart = false) ∧
      ∀ frame ∈ (acceptedFrames id tr).dropLast, frame.terminates = false := by
  have hinv : SessionInvariant s := sessionInvariant_of_reachable ⟨_, _, rfl, h⟩
  refine ⟨fun id hid => hinv.keys_seen hid, hinv.inFlight_le, hinv.seen_le, ?_,
    fun id n bytes hflow => hinv.bounded id _ hflow,
    fun id n bytes hflow => hinv.bounded id _ hflow, ?_⟩
  · intro hready
    have hempty : s.flows = ∅ := hinv.idle (by simpa [isReady] using hready)
    simp [inFlight, hempty]
  · intro id
    have hconv := (shape_of_run h id).conversation
    exact ⟨hconv, hconv.tail_not_start, hconv.dropLast_not_terminates⟩

/-- The handshake and the start of request `1`, and what is accepted of it. -/
theorem session_safety_started : ∃ tr,
    sessionSystem.Run default tr (drained 0) ∧ (drained 0).inFlight ≤ 32 ∧
    acceptedFrames 1 tr = [.control (.requestStart ⟨1, ⟨"GET", by decide⟩, "/", [], 1⟩)] ∧
    Conversation 1 (acceptedFrames 1 tr) := by
  have hhello : (⟨.awaitingReady, ∅, ∅⟩ : RelaySessionState) =
      (default.observe (.control (.clientHello ⟨1, testToken⟩))).2 := by decide
  have hready : ready = (RelaySessionState.observe ⟨.awaitingReady, ∅, ∅⟩
      (.control (.serverReady ⟨0, 1, 1, 65536⟩))).2 := by decide
  have hstart : drained 0 = (ready.observe
      (.control (.requestStart ⟨1, ⟨"GET", by decide⟩, "/", [], 1⟩))).2 := by decide
  have hrun : sessionSystem.Run default _ (drained 0) :=
    ((System.Run.single hhello).snoc hready).snoc hstart
  obtain ⟨-, hflight, -, -, -, -, hconv⟩ := session_safety hrun
  exact ⟨_, hrun, hflight, by decide, (hconv 1).1⟩

end RelaySessionState

end Cresix.Relay
