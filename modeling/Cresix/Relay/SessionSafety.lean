import Cresix.Library.FiniteMap
import Cresix.Library.Transition
import Cresix.Relay.Session

/-!
# Safety of a relay session

A session is offered frames in any order, and some of them are rejected.
`SessionInvariant` bounds the state of every reachable session.  `Shape` is
what the frames accepted for one request look like while its flow is where it
is, so the accepted frames of a request are always a beginning of one
`Exchange`, or such a beginning cut short once.

One rejection does change the state.  `SequenceExhausted` says which, and
`observe_error` that there is no other.
-/

namespace Cresix.Relay

open Rust (Uuid)

/-- The counted bytes of a body are within its limit. -/
def FlowState.Bounded : FlowState → Prop
  | .requestBody _ bytes => bytes ≤ maxRequestBodyBytes
  | .awaitingResponse => True
  | .responseBody _ bytes => bytes ≤ maxResponseBodyBytes

namespace RelaySessionState

variable {s s' : RelaySessionState}

/-! ## The status of a request under updates -/

@[simp] theorem status_setFlow_self (id : Uuid) (flow : FlowState) :
    (s.setFlow id flow).status id = .active flow := by
  simp [status, setFlow]

theorem status_setFlow_of_ne {id other : Uuid} (flow : FlowState) (h : other ≠ id) :
    (s.setFlow id flow).status other = s.status other := by
  unfold status setFlow
  rw [Finmap.lookup_insert_of_ne _ h]

theorem status_removeFlow_self {id : Uuid} (h : id ∈ s.seenRequestIds) :
    (s.removeFlow id).status id = .closed := by
  simp [status, removeFlow, h]

theorem status_removeFlow_of_ne {id other : Uuid} (h : other ≠ id) :
    (s.removeFlow id).status other = s.status other := by
  unfold status removeFlow
  rw [Finmap.lookup_erase_ne h]

theorem status_eq_active_iff {id : Uuid} {flow : FlowState} :
    s.status id = .active flow ↔ s.flows.lookup id = some flow := by
  unfold status
  cases s.flows.lookup id with
  | some f => simp
  | none =>
      simp only [reduceCtorEq, iff_false]
      split <;> simp

theorem status_eq_unseen (hkeys : s.flows.keys ⊆ s.seenRequestIds) {id : Uuid} :
    s.status id = .unseen ↔ id ∉ s.seenRequestIds := by
  unfold status
  cases hflow : s.flows.lookup id with
  | some f =>
      have hmem : id ∈ s.flows.keys := Finmap.mem_keys.mpr (Finmap.mem_of_lookup_eq_some hflow)
      simp [hkeys hmem]
  | none => by_cases hseen : id ∈ s.seenRequestIds <;> simp [hseen]

/-! ## The invariant -/

/-- What holds of every reachable session. -/
structure SessionInvariant (s : RelaySessionState) : Prop where
  /-- An open request was started. -/
  keys_seen : s.flows.keys ⊆ s.seenRequestIds
  /-- The requests in flight are bounded. -/
  inFlight_le : s.inFlight ≤ maxConcurrentRequests
  /-- The identifiers ever seen are bounded. -/
  seen_le : s.seenRequestIds.card ≤ maxRequestIdsPerSession
  /-- No request is open before the handshake is done. -/
  idle : s.handshake ≠ .ready → s.flows = ∅
  /-- Every body is within its limit. -/
  bounded : ∀ id flow, s.flows.lookup id = some flow → flow.Bounded

theorem sessionInvariant_default : SessionInvariant default where
  keys_seen := by simp [default]
  inFlight_le := by simp [default, inFlight]
  seen_le := by simp [default]
  idle := fun _ => rfl
  bounded := by simp [default]

theorem bounded_of_next {flow flow' : FlowState} {frame : Frame}
    (h : flow.next frame = some (.active flow')) : flow'.Bounded := by
  cases frame with
  | control frame =>
      cases frame <;> cases flow <;> simp [FlowState.next] at h
      all_goals subst h
      all_goals simp [FlowState.Bounded]
  | body frame =>
      cases hkind : frame.kind <;> cases flow <;> simp [FlowState.next, hkind] at h
      all_goals
        unfold FlowState.nextChunk at h
        split_ifs at h with hnext
        simp only [Option.some.injEq, FlowStatus.active.injEq] at h
        subst h
        exact hnext.2.2

theorem SessionInvariant.setFlow {id : Uuid} {flow flow' : FlowState} (h : SessionInvariant s)
    (hready : s.handshake = .ready) (hflow : s.flows.lookup id = some flow)
    (hbounded : flow'.Bounded) : SessionInvariant (s.setFlow id flow') := by
  have hkeys : (s.setFlow id flow').flows.keys = s.flows.keys :=
    Finmap.keys_insert_of_mem (Finmap.mem_of_lookup_eq_some hflow)
  refine ⟨?_, ?_, h.seen_le, fun hne => absurd hready hne, ?_⟩
  · rw [hkeys]
    exact h.keys_seen
  · unfold inFlight
    rw [hkeys]
    exact h.inFlight_le
  · intro other f hf
    rw [RelaySessionState.setFlow, Finmap.lookup_insert_eq_ite] at hf
    split at hf
    next => exact Option.some.inj hf ▸ hbounded
    next => exact h.bounded other f hf

theorem SessionInvariant.removeFlow {id : Uuid} (h : SessionInvariant s)
    (hready : s.handshake = .ready) : SessionInvariant (s.removeFlow id) := by
  refine ⟨?_, ?_, h.seen_le, fun hne => absurd hready hne, ?_⟩
  · simp only [RelaySessionState.removeFlow, Finmap.keys_erase]
    exact (Finset.erase_subset _ _).trans h.keys_seen
  · exact (Finmap.card_keys_erase_le id s.flows).trans h.inFlight_le
  · intro other f hf
    rw [RelaySessionState.removeFlow, Finmap.lookup_erase_eq_ite] at hf
    split at hf
    next => cases hf
    next => exact h.bounded other f hf

/-- An accepted frame keeps the invariant. -/
theorem SessionInvariant.accepted {frame : Frame} (h : SessionInvariant s)
    (hacc : Accepted s frame s') : SessionInvariant s' := by
  cases hacc with
  | clientHello hawaiting hversion hclass =>
      have hempty : s.flows = ∅ := h.idle (by simp [hawaiting])
      exact ⟨h.keys_seen, h.inFlight_le, h.seen_le, fun _ => hempty, h.bounded⟩
  | serverReady hawaiting hlimits =>
      exact ⟨h.keys_seen, h.inFlight_le, h.seen_le, fun hne => absurd rfl hne, h.bounded⟩
  | ping hready => exact h
  | pong hready => exact h
  | @start frame hready hvalid hfresh hfull hbudget =>
      refine ⟨?_, ?_, ?_, fun hne => absurd hready hne, ?_⟩
      · simp only [Finmap.keys_insert]
        exact Finset.insert_subset_insert _ h.keys_seen
      · exact (Finmap.card_keys_insert_le _ _ _).trans hfull
      · exact (Finset.card_insert_le _ _).trans hbudget
      · intro other f hf
        rw [Finmap.lookup_insert_eq_ite] at hf
        split at hf
        next => exact Option.some.inj hf ▸ Nat.zero_le _
        next => exact h.bounded other f hf
  | move hready hvalid hid hflow hnext => exact h.setFlow hready hflow (bounded_of_next hnext)
  | finish hready hvalid hid hflow hnext => exact h.removeFlow hready

/-! ## Rejected frames -/

/-- Writing a flow back over itself changes nothing. -/
theorem setFlow_eq_self {id : Uuid} {flow : FlowState} (h : s.flows.lookup id = some flow) :
    s.setFlow id flow = s := by
  have hflows : s.flows.insert id flow = s.flows := by
    apply Finmap.ext_lookup
    intro other
    rw [Finmap.lookup_insert_eq_ite]
    split
    next heq => rw [heq, h]
    next => rfl
  simp [setFlow, hflows]

theorem observeReadyControl_error {frame : RelayControlFrame} {e : RelayValidationError}
    (h : s.observeReadyControl frame = (.error e, s')) : s' = s := by
  cases frame <;> simp only [observeReadyControl] at h
  case requestStart f =>
    split at h
    next => exact (Prod.mk.inj h).2.symm
    next => split_ifs at h <;> first | exact (Prod.mk.inj h).2.symm | simp at h
  case requestEnd f | responseEnd f =>
    split at h <;> first | exact (Prod.mk.inj h).2.symm | simp at h
  case responseStart f =>
    split at h
    next => exact (Prod.mk.inj h).2.symm
    next =>
      split at h
      next => exact (Prod.mk.inj h).2.symm
      next => split_ifs at h <;> first | exact (Prod.mk.inj h).2.symm | simp at h
  case cancel f | requestFailed f =>
    split_ifs at h <;> first | exact (Prod.mk.inj h).2.symm | simp at h
  all_goals simp at h

/-- A rejected control frame leaves the session as it was. -/
theorem observeControl_error {frame : RelayControlFrame} {e : RelayValidationError}
    (h : s.observeControl frame = (.error e, s')) : s' = s := by
  cases frame <;> simp only [observeControl] at h <;> split_ifs at h
  all_goals first
    | exact (Prod.mk.inj h).2.symm
    | exact observeReadyControl_error h
    | simp at h

/-- A chunk that would be accepted if its sequence number were not the last
one, and that counts at least one byte. -/
def SequenceExhausted (s : RelaySessionState) : Frame → Prop
  | .control _ => False
  | .body frame =>
      s.handshake = .ready ∧ frame.payload.length ≤ maxBodyChunkBytes ∧ frame.payload ≠ [] ∧
      frame.sequence.toNat = Rust.u32Max ∧
      ∃ bytes, s.flows.lookup frame.requestId = some (frame.kind.body frame.sequence bytes) ∧
        bytes + frame.payload.length ≤ frame.kind.limit

/-- `observe_body`, with the two kinds of chunk in one case. -/
theorem observeBody_of_lookup {frame : RelayBodyFrame} {nextSequence : UInt32} {bytes : Nat}
    (hready : s.handshake = .ready) (hsize : frame.payload.length ≤ maxBodyChunkBytes)
    (hflow : s.flows.lookup frame.requestId = some (frame.kind.body nextSequence bytes)) :
    s.observeBody frame =
      s.observeChunk frame nextSequence bytes frame.kind.limit frame.kind.body := by
  cases hkind : frame.kind <;>
    simp [observeBody, hready, Nat.not_lt.mpr hsize, hflow, hkind, RelayBodyKind.body,
      RelayBodyKind.limit]

theorem observeBody_error {frame : RelayBodyFrame} {e : RelayValidationError}
    (h : s.observeBody frame = (.error e, s')) :
    s' = s ∨ ∃ bytes, s.handshake = .ready ∧ frame.payload.length ≤ maxBodyChunkBytes ∧
      frame.sequence.toNat = Rust.u32Max ∧
      s.flows.lookup frame.requestId = some (frame.kind.body frame.sequence bytes) ∧
      bytes + frame.payload.length ≤ frame.kind.limit ∧
      s' = s.setFlow frame.requestId
        (frame.kind.body frame.sequence (bytes + frame.payload.length)) := by
  by_cases hready : s.handshake = .ready
  · by_cases hsize : frame.payload.length ≤ maxBodyChunkBytes
    · by_cases hflow : ∃ nextSequence bytes,
          s.flows.lookup frame.requestId = some (frame.kind.body nextSequence bytes)
      · obtain ⟨nextSequence, bytes, hflow⟩ := hflow
        simp only [observeBody_of_lookup hready hsize hflow, observeChunk] at h
        split_ifs at h with hseq hfit hlast
        · exact .inl (Prod.mk.inj h).2.symm
        · exact .inl (Prod.mk.inj h).2.symm
        · rw [not_not] at hseq
          subst hseq
          have hlimit : frame.kind.limit < Rust.u64Max := by cases frame.kind <;> decide
          have hsum := Rust.saturatingAdd_eq hlimit (Nat.not_lt.mp hfit)
          rw [hsum] at h hfit
          exact .inr ⟨bytes, hready, hsize, hlast, hflow, Nat.not_lt.mp hfit,
            (Prod.mk.inj h).2.symm⟩
        · simp at h
      · left
        simp only [observeBody, hready, ne_eq, not_true_eq_false, if_false,
          Nat.not_lt.mpr hsize] at h
        split at h
        next => exact (Prod.mk.inj h).2.symm
        next flow hlookup =>
          split at h
          next nextSequence bytes hkind =>
            exact absurd ⟨nextSequence, bytes, by rw [hlookup, hkind]; rfl⟩ hflow
          next nextSequence bytes hkind =>
            exact absurd ⟨nextSequence, bytes, by rw [hlookup, hkind]; rfl⟩ hflow
          next => exact (Prod.mk.inj h).2.symm
    · left
      simp only [observeBody, hready, ne_eq, not_true_eq_false, if_false,
        Nat.lt_of_not_le hsize, if_true] at h
      exact (Prod.mk.inj h).2.symm
  · left
    simp only [observeBody, hready, ne_eq, not_false_eq_true, if_true] at h
    exact (Prod.mk.inj h).2.symm

/-- Rejection keeps the state, except on the chunk of `SequenceExhausted`. -/
theorem observe_error {frame : Frame} {e : RelayValidationError}
    (h : s.observe frame = (.error e, s')) (hne : ¬ s.SequenceExhausted frame) : s' = s := by
  cases frame with
  | control frame => exact observeControl_error h
  | body frame =>
      rcases observeBody_error h with rfl | ⟨bytes, hready, hsize, hlast, hflow, hfit, rfl⟩
      · rfl
      · by_cases hempty : frame.payload = []
        · simpa [hempty] using setFlow_eq_self hflow
        · exact absurd ⟨hready, hsize, hempty, hlast, bytes, hflow, hfit⟩ hne

/-- The chunk of `SequenceExhausted` is rejected, and its bytes are counted. -/
theorem observe_of_sequenceExhausted {frame : Frame} (h : s.SequenceExhausted frame) :
    ∃ s', s.observe frame = (.error .invalidSequence, s') ∧ s' ≠ s := by
  cases frame with
  | control frame => exact h.elim
  | body frame =>
      obtain ⟨hready, hsize, hne, hlast, bytes, hflow, hfit⟩ := h
      have hlimit : frame.kind.limit < Rust.u64Max := by cases frame.kind <;> decide
      have hsum := Rust.saturatingAdd_eq hlimit ((Rust.saturatingAdd_le_iff hlimit).mpr hfit)
      refine ⟨s.setFlow frame.requestId
        (frame.kind.body frame.sequence (bytes + frame.payload.length)), ?_, ?_⟩
      · simp only [observe, observeBody_of_lookup hready hsize hflow, observeChunk, ne_eq,
          not_true_eq_false, if_false, hsum, Nat.not_lt.mpr hfit, hlast, if_true]
      · intro heq
        have hlookup := congrArg (fun t => t.flows.lookup frame.requestId) heq
        simp only [setFlow, Finmap.lookup_insert, hflow, Option.some.injEq] at hlookup
        have hpos := List.length_pos_of_ne_nil hne
        cases hkind : frame.kind <;> simp [RelayBodyKind.body, hkind] at hlookup <;>
          exact hne hlookup

/-! ## Whole sessions -/

/-- A session that is offered one frame after another. -/
def sessionSystem : Transition.System RelaySessionState Frame :=
  .ofFunction (· = default) fun s frame => (s.observe frame).2

/-- Any frame keeps the invariant, accepted or not. -/
theorem SessionInvariant.observe (h : SessionInvariant s) (frame : Frame) :
    SessionInvariant (s.observe frame).2 := by
  rcases hobs : s.observe frame with ⟨verdict, s'⟩
  cases verdict with
  | ok _ => exact h.accepted (.of_observe hobs)
  | error e =>
      cases frame with
      | control frame => rw [observeControl_error hobs]; exact h
      | body frame =>
          rcases observeBody_error hobs with rfl | ⟨bytes, hready, _, _, hflow, hfit, rfl⟩
          · exact h
          · refine h.setFlow hready hflow ?_
            cases hkind : frame.kind <;> simpa [FlowState.Bounded, RelayBodyKind.body, hkind,
              RelayBodyKind.limit] using hfit

theorem sessionInvariant_of_reachable (h : sessionSystem.Reachable s) : SessionInvariant s := by
  refine h.invariant ?_ ?_
  · rintro s rfl
    exact sessionInvariant_default
  · rintro s frame t hs rfl
    exact hs.observe frame

/-- A rejected frame changes nothing if and only if it is not the chunk of
`SequenceExhausted`. -/
theorem rejection_atomic_iff (s : RelaySessionState) (frame : Frame) :
    (∀ e s', s.observe frame = (.error e, s') → s' = s) ↔ ¬ s.SequenceExhausted frame := by
  constructor
  · intro hatomic hexhausted
    obtain ⟨s', hobs, hne⟩ := observe_of_sequenceExhausted hexhausted
    exact hne (hatomic _ _ hobs)
  · intro hne e s' hobs
    exact observe_error hobs hne

/-! ## A session whose sequence numbers are used up -/

/-- A connector credential, as the tests of the crate write it. -/
def testToken : CloudCore.SecretToken where
  value := "c6x_v1_AAAAAAAAAAAAAAAA_BBBBBBBBBBBBBBBBBBBBBBBBBBBBBBBB"
  valid := ⟨⟨.connector, List.replicate 16 0x41, List.replicate 32 0x42⟩, by decide⟩

/-- A session after the handshake. -/
def ready : RelaySessionState := ⟨.ready, ∅, ∅⟩

theorem reachable_ready : sessionSystem.Reachable ready := by
  have hhello : (⟨.awaitingReady, ∅, ∅⟩ : RelaySessionState) =
      (default.observe (.control (.clientHello ⟨1, testToken⟩))).2 := by decide
  have hready : ready =
      (RelaySessionState.observe ⟨.awaitingReady, ∅, ∅⟩
        (.control (.serverReady ⟨0, 1, 1, 65536⟩))).2 := by decide
  have hstart : sessionSystem.Reachable default := .of_start rfl
  exact (hstart.step hhello).step hready

/-- The session that has accepted `n` empty chunks for request `1`. -/
def drained (n : Nat) : RelaySessionState :=
  ⟨.ready, Finmap.singleton 1 (.requestBody (UInt32.ofNat n) 0), {1}⟩

/-- The chunk with sequence number `n` and the payload. -/
def requestChunk (n : Nat) (payload : List UInt8) : Frame :=
  .body ⟨.requestChunk, 1, UInt32.ofNat n, payload⟩

theorem observe_drained {n : Nat} (h : n < Rust.u32Max) :
    (drained n).observe (requestChunk n []) = (.ok (), drained (n + 1)) := by
  have hn : (UInt32.ofNat n).toNat = n := by
    rw [UInt32.toNat_ofNat']
    exact Nat.mod_eq_of_lt (by unfold Rust.u32Max at h; omega)
  have hnext : (FlowState.requestBody (UInt32.ofNat n) 0).next (requestChunk n []) =
      some (.active (.requestBody (UInt32.ofNat (n + 1)) 0)) := by
    simp [FlowState.next, FlowState.nextChunk, requestChunk, hn, h]
  have hlookup : (drained n).flows.lookup 1 = some (.requestBody (UInt32.ofNat n) 0) :=
    Finmap.lookup_singleton_eq
  refine (observe_of_next rfl (Nat.zero_le _) rfl hlookup hnext).trans ?_
  simp [drained, setFlow, Finmap.insert_singleton_eq]

theorem reachable_drained : ∀ n, n ≤ Rust.u32Max → sessionSystem.Reachable (drained n)
  | 0, _ => by
      refine reachable_ready.step (a := .control (.requestStart
        ⟨1, ⟨"GET", by decide⟩, "/", [], 1⟩)) ?_
      show drained 0 = (ready.observe _).2
      decide
  | n + 1, h => by
      refine (reachable_drained n (by omega)).step (a := requestChunk n []) ?_
      show drained (n + 1) = ((drained n).observe _).2
      rw [observe_drained (by omega)]

/-- After `2 ^ 32 - 1` empty chunks the next chunk is rejected, and its byte
is counted. -/
theorem rejection_not_atomic :
    sessionSystem.Reachable (drained Rust.u32Max) ∧
    (drained Rust.u32Max).observe (requestChunk Rust.u32Max [0]) =
      (.error .invalidSequence,
        (drained Rust.u32Max).setFlow 1 (.requestBody (UInt32.ofNat Rust.u32Max) 1)) ∧
    (drained Rust.u32Max).setFlow 1 (.requestBody (UInt32.ofNat Rust.u32Max) 1) ≠
      drained Rust.u32Max :=
  ⟨reachable_drained _ (Nat.le_refl _), by decide, by decide⟩

end RelaySessionState

end Cresix.Relay
