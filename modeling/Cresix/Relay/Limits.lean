import Cresix.Relay.SessionSafety

/-!
# The limits of a session

A `ServerReady` announces how many requests the session may have in flight and
how large a chunk may be.  The session checks that both are within the ceilings
of the protocol and keeps neither, so the state after it is the same for all of
them (`accepted_serverReady`) and later frames are held to the ceilings alone.
-/

namespace Cresix.Relay

open Transition
open Rust (Uuid)

namespace RelaySessionState

variable {s t : RelaySessionState}

/-! ## The state after the handshake -/

/-- Nothing was started in a session whose handshake is not done. -/
def Unstarted (s : RelaySessionState) : Prop :=
  s.handshake ≠ .ready → s.flows = ∅ ∧ s.seenRequestIds = ∅

theorem Unstarted.accepted {frame : Frame} (h : Unstarted s) (hacc : Accepted s frame t) :
    Unstarted t := by
  cases hacc with
  | clientHello hawaiting _ _ => exact fun _ => h (by simp [hawaiting])
  | serverReady _ _ => exact fun hne => absurd rfl hne
  | ping _ | pong _ => exact h
  | start hready _ _ _ _ => exact fun hne => absurd hready hne
  | move hready _ _ _ _ => exact fun hne => absurd hready hne
  | finish hready _ _ _ _ => exact fun hne => absurd hready hne

theorem Unstarted.observe (h : Unstarted s) (frame : Frame) : Unstarted (s.observe frame).2 := by
  rcases hobs : s.observe frame with ⟨verdict, t⟩
  cases verdict with
  | ok _ => exact h.accepted (.of_observe hobs)
  | error e =>
      cases frame with
      | control frame =>
          rw [observeControl_error hobs]
          exact h
      | body frame =>
          rcases observeBody_error hobs with rfl | ⟨_, hready, _, _, _, _, rfl⟩
          · exact h
          · exact fun hne => absurd hready hne

theorem unstarted_of_reachable (h : sessionSystem.Reachable s) : Unstarted s := by
  refine h.invariant ?_ ?_
  · rintro s rfl _
    exact ⟨rfl, rfl⟩
  · rintro s frame t hs rfl
    exact hs.observe frame

/-- Whatever a `ServerReady` announces, the session after it is the same. -/
theorem accepted_serverReady {server : ServerReadyFrame} (hs : sessionSystem.Reachable s)
    (hready : s.observeControl (.serverReady server) = (.ok (), t)) :
    t = ready ∧ 1 ≤ server.maxConcurrentRequests.toNat ∧
      server.maxConcurrentRequests.toNat ≤ maxConcurrentRequests ∧
      server.maxChunkBytes.toNat ≤ maxBodyChunkBytes := by
  have hacc := accepted_of_observeControl hready
  cases hacc with
  | serverReady hawaiting hlimits =>
      obtain ⟨hflows, hseen⟩ := unstarted_of_reachable hs (by simp [hawaiting])
      simp only [not_or, Nat.not_lt] at hlimits
      obtain ⟨_, hnonzero, hrequests, hchunk⟩ := hlimits
      refine ⟨?_, ?_, hrequests, hchunk⟩
      · rw [hflows, hseen]
        rfl
      · exact Nat.pos_of_ne_zero fun hzero => hnonzero (UInt16.toNat_inj.mp hzero)
  | move _ _ hid _ _ => cases hid
  | finish _ _ hid _ _ => cases hid

/-! ## What is held to the ceilings -/

/-- The body frames that a run accepted, in order. -/
def acceptedBodies (tr : List (Event RelaySessionState Frame)) : List RelayBodyFrame :=
  tr.filterMap fun e => match e.label with
    | .body frame => if (e.pre.observe (.body frame)).1 = .ok () then some frame else none
    | .control _ => none

theorem length_le_of_acceptedBodies {tr : List (Event RelaySessionState Frame)}
    {frame : RelayBodyFrame} (h : frame ∈ acceptedBodies tr) :
    frame.payload.length ≤ maxBodyChunkBytes := by
  obtain ⟨e, _, hframe⟩ := List.mem_filterMap.mp h
  split at hframe
  next body _ =>
    split_ifs at hframe with hok
    cases hframe
    rcases hobs : e.pre.observe (.body frame) with ⟨verdict, u⟩
    rw [hobs] at hok
    cases hok
    exact (Accepted.of_observe hobs).valid
  next => cases hframe

/-! ## How far they are used -/

/-- A request start with an identifier of its own. -/
def startOf (n : Nat) : RequestStartFrame where
  requestId := BitVec.ofNat 128 n
  method := ⟨"GET", get_mem_httpMethods⟩
  target := "/"
  headers := []
  deadlineUnixMs := 1

/-- A session after the starts of that many requests. -/
def opened : Nat → RelaySessionState
  | 0 => ready
  | n + 1 => ((opened n).observe (.control (.requestStart (startOf n)))).2

theorem run_opened (n : Nat) : ∃ tr, sessionSystem.Run ready tr (opened n) := by
  induction n with
  | zero => exact ⟨[], .refl⟩
  | succ n ih =>
      obtain ⟨tr, hrun⟩ := ih
      exact ⟨_, hrun.snoc rfl⟩

theorem inFlight_opened : (opened maxConcurrentRequests).inFlight = maxConcurrentRequests := by
  decide +kernel

/-- A chunk of zeros. -/
def zeros (size : Nat) : RelayBodyFrame := ⟨.requestChunk, 1, 0, List.replicate size 0⟩

theorem run_zeros {size : Nat} (h : size ≤ maxBodyChunkBytes) : ∃ tr u,
    sessionSystem.Run ready tr u ∧ zeros size ∈ acceptedBodies tr := by
  have hflow : (drained 0).flows.lookup 1 = some (.requestBody 0 0) := Finmap.lookup_singleton_eq
  have hsize : size ≤ maxRequestBodyBytes := h.trans (by decide)
  have hnext : (FlowState.requestBody 0 0).next (.body (zeros size)) =
      some (.active (.requestBody 1 size)) := by
    simp [FlowState.next, FlowState.nextChunk, zeros, hsize, Rust.u32Max]
  have hvalid : (Frame.body (zeros size)).Valid := by
    show (List.replicate size _).length ≤ maxBodyChunkBytes
    rwa [List.length_replicate]
  have hobs := observe_of_next rfl hvalid rfl hflow hnext
  have hstart : drained 0 = (ready.observe
      (.control (.requestStart ⟨1, ⟨"GET", by decide⟩, "/", [], 1⟩))).2 := by decide
  have hchunk : sessionSystem.step (drained 0) (.body (zeros size))
      ((drained 0).observe (.body (zeros size))).2 := rfl
  refine ⟨_, _, (System.Run.single hstart).snoc hchunk, ?_⟩
  simp [acceptedBodies, hobs]

/-- Whatever a `ServerReady` announces within the ceilings, the requests in
flight and the body frames after it are bounded by the ceilings and by nothing
less. -/
theorem ceilings_enforced {server : ServerReadyFrame} (hs : sessionSystem.Reachable s)
    (hready : s.observeControl (.serverReady server) = (.ok (), t)) :
    (∀ n, (∀ tr u, sessionSystem.Run t tr u → u.inFlight ≤ n) ↔ maxConcurrentRequests ≤ n) ∧
    (∀ n, (∀ tr u, sessionSystem.Run t tr u → ∀ frame ∈ acceptedBodies tr,
      frame.payload.length ≤ n) ↔ maxBodyChunkBytes ≤ n) ∧
    server.maxConcurrentRequests.toNat ≤ maxConcurrentRequests ∧
    server.maxChunkBytes.toNat ≤ maxBodyChunkBytes := by
  obtain ⟨rfl, _, hrequests, hchunk⟩ := accepted_serverReady hs hready
  refine ⟨fun n => ⟨?_, ?_⟩, fun n => ⟨?_, ?_⟩, hrequests, hchunk⟩
  · intro hbound
    obtain ⟨tr, hrun⟩ := run_opened maxConcurrentRequests
    rw [← inFlight_opened]
    exact hbound tr _ hrun
  · intro hle tr u hrun
    have hinv := sessionInvariant_of_reachable (reachable_ready.run hrun)
    exact hinv.inFlight_le.trans hle
  · intro hbound
    obtain ⟨tr, u, hrun, hmem⟩ := run_zeros (Nat.le_refl maxBodyChunkBytes)
    have hlength := hbound tr u hrun _ hmem
    rwa [zeros, List.length_replicate] at hlength
  · intro hle tr u _ frame hmem
    exact (length_le_of_acceptedBodies hmem).trans hle

/-! ### A session that is announced less -/

/-- A session that was sent a hello. -/
def greeted : RelaySessionState := ⟨.awaitingReady, ∅, ∅⟩

theorem reachable_greeted : sessionSystem.Reachable greeted := by
  have hhello : greeted = (default.observe (.control (.clientHello ⟨1, testToken⟩))).2 := by
    decide
  have hstart : sessionSystem.Reachable default := .of_start rfl
  exact hstart.step hhello

/-- After an announcement of one request and chunks of one byte. -/
theorem ceilings_enforced_one :
    greeted.observeControl (.serverReady ⟨0, 1, 1, 1⟩) = (.ok (), ready) ∧
    ∀ n, (∀ tr u, sessionSystem.Run ready tr u → u.inFlight ≤ n) ↔ maxConcurrentRequests ≤ n := by
  have hready : greeted.observeControl (.serverReady ⟨0, 1, 1, 1⟩) = (.ok (), ready) := by decide
  exact ⟨hready, (ceilings_enforced reachable_greeted hready).1⟩

/-- Two requests are in flight and a chunk of two bytes is accepted where one
request and chunks of one byte were announced. -/
theorem negotiated_limits_exceeded : ∃ (s t : RelaySessionState) (server : ServerReadyFrame),
    sessionSystem.Reachable s ∧ s.observeControl (.serverReady server) = (.ok (), t) ∧
    (∃ tr u, sessionSystem.Run t tr u ∧ server.maxConcurrentRequests.toNat < u.inFlight) ∧
    ∃ tr u, sessionSystem.Run t tr u ∧
      ∃ frame ∈ acceptedBodies tr, server.maxChunkBytes.toNat < frame.payload.length := by
  have hready : greeted.observeControl (.serverReady ⟨0, 1, 1, 1⟩) = (.ok (), ready) := by decide
  refine ⟨greeted, ready, ⟨0, 1, 1, 1⟩, reachable_greeted, hready, ?_, ?_⟩
  · obtain ⟨tr, hrun⟩ := run_opened 2
    exact ⟨tr, _, hrun, by decide⟩
  · obtain ⟨tr, u, hrun, hmem⟩ := run_zeros (show 2 ≤ maxBodyChunkBytes by decide)
    exact ⟨tr, u, hrun, _, hmem, by decide⟩

end RelaySessionState

end Cresix.Relay
