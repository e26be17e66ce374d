import Cresix.Relay.Frame
import Mathlib.Data.Finmap

/-!
# The relay session validator

`RelaySessionState` is what either end of a relay connection keeps to check
every frame it sends and receives.  `observeControl` and `observeBody` follow
the Rust methods branch by branch.  They take `&mut self`, so a rejected
frame also gives a state back, and that state need not be the old one.

`FlowState.next` is the same protocol seen from one request.  `Accepted` says
what an accepted frame did: it moved the handshake, did nothing, opened a
request, or moved one open request along `FlowState.next`.
`observe_ok_iff` proves that these are all the cases.
-/

namespace Cresix.Relay

open Rust (Uuid)

inductive HandshakeState where
  | awaitingHello
  | awaitingReady
  | ready
deriving DecidableEq, Repr

/-- Where an open request is. -/
inductive FlowState where
  | requestBody (nextSequence : UInt32) (bytes : Nat)
  | awaitingResponse
  | responseBody (nextSequence : UInt32) (bytes : Nat)
deriving DecidableEq, Repr

/-- The flow a chunk of the kind is part of. -/
def RelayBodyKind.body : RelayBodyKind → UInt32 → Nat → FlowState
  | .requestChunk => .requestBody
  | .responseChunk => .responseBody

/-- The session validator of one end. -/
structure RelaySessionState where
  /-- How far the handshake got. -/
  handshake : HandshakeState
  /-- The requests in flight. -/
  flows : Finmap fun _ : Uuid => FlowState
  /-- Every request identifier that was ever started. -/
  seenRequestIds : Finset Uuid
deriving DecidableEq

/-- The verdict on a frame. -/
abbrev Verdict := Except RelayValidationError Unit

namespace RelaySessionState

/-- `RelaySessionState::default`. -/
def default : RelaySessionState := ⟨.awaitingHello, ∅, ∅⟩

/-- `is_ready`. -/
def isReady (s : RelaySessionState) : Bool := s.handshake = .ready

/-- `in_flight`. -/
def inFlight (s : RelaySessionState) : Nat := s.flows.keys.card

/-- `*flow = flow'` for the flow of a request. -/
def setFlow (s : RelaySessionState) (id : Uuid) (flow : FlowState) : RelaySessionState :=
  { s with flows := s.flows.insert id flow }

/-- `self.flows.remove(&id)`. -/
def removeFlow (s : RelaySessionState) (id : Uuid) : RelaySessionState :=
  { s with flows := s.flows.erase id }

/-- The arms of `observe_control` behind the handshake check. -/
def observeReadyControl (s : RelaySessionState) :
    RelayControlFrame → Verdict × RelaySessionState
  | .requestStart frame =>
      match frame.validate with
      | .error e => (.error e, s)
      | .ok () =>
        if frame.requestId ∈ s.seenRequestIds then (.error .duplicateRequest, s)
        else if maxConcurrentRequests ≤ s.inFlight then (.error .concurrencyLimit, s)
        else if maxRequestIdsPerSession ≤ s.seenRequestIds.card then
          (.error .requestIdBudgetExhausted, s)
        else
          (.ok (),
            { s with
              seenRequestIds := insert frame.requestId s.seenRequestIds
              flows := s.flows.insert frame.requestId (.requestBody 0 0) })
  | .requestEnd frame =>
      match s.flows.lookup frame.requestId with
      | none => (.error .unknownRequest, s)
      | some (.requestBody _ _) => (.ok (), s.setFlow frame.requestId .awaitingResponse)
      | some _ => (.error .illegalTransition, s)
  | .responseStart frame =>
      match frame.validate with
      | .error e => (.error e, s)
      | .ok () =>
        match s.flows.lookup frame.requestId with
        | none => (.error .unknownRequest, s)
        | some flow =>
          if flow ≠ .awaitingResponse then (.error .illegalTransition, s)
          else (.ok (), s.setFlow frame.requestId (.responseBody 0 0))
  | .responseEnd frame =>
      match s.flows.lookup frame.requestId with
      | none => (.error .unknownRequest, s)
      | some (.responseBody _ _) => (.ok (), s.removeFlow frame.requestId)
      | some _ => (.error .illegalTransition, s)
  | .cancel frame =>
      if (s.flows.lookup frame.requestId).isNone then (.error .unknownRequest, s)
      else (.ok (), s.removeFlow frame.requestId)
  | .requestFailed frame =>
      if !frame.validMessage then (.error .illegalTransition, s)
      else if (s.flows.lookup frame.requestId).isNone then (.error .unknownRequest, s)
      else (.ok (), s.removeFlow frame.requestId)
  | .ping _ | .pong _ => (.ok (), s)
  -- The arms above the handshake check take these frames.
  | .clientHello _ | .serverReady _ => (.ok (), s)

/-- `RelaySessionState::observe_control`. -/
def observeControl (s : RelaySessionState) : RelayControlFrame → Verdict × RelaySessionState
  | .clientHello frame =>
      if s.handshake ≠ .awaitingHello then (.error .illegalTransition, s)
      else if frame.protocolVersion ≠ relayProtocolVersion then
        (.error .unsupportedProtocol, s)
      else if frame.connectorToken.parsed.tokenClass ≠ .connector then
        (.error .illegalTransition, s)
      else (.ok (), { s with handshake := .awaitingReady })
  | .serverReady frame =>
      if s.handshake ≠ .awaitingReady then (.error .illegalTransition, s)
      else if frame.generation = 0 ∨ frame.maxConcurrentRequests = 0
          ∨ maxConcurrentRequests < frame.maxConcurrentRequests.toNat
          ∨ maxBodyChunkBytes < frame.maxChunkBytes.toNat then
        (.error .illegalTransition, s)
      else (.ok (), { s with handshake := .ready })
  | frame =>
      if s.handshake ≠ .ready then (.error .illegalTransition, s)
      else s.observeReadyControl frame

/-- The end of `observe_body`, once the flow and its limit are known. -/
def observeChunk (s : RelaySessionState) (frame : RelayBodyFrame) (nextSequence : UInt32)
    (bytes limit : Nat) (body : UInt32 → Nat → FlowState) : Verdict × RelaySessionState :=
  if frame.sequence ≠ nextSequence then (.error .invalidSequence, s)
  else
    let updated := Rust.saturatingAdd bytes frame.payload.length
    if limit < updated then (.error .bodyTooLarge, s)
    else if nextSequence.toNat = Rust.u32Max then
      -- `*bytes = updated` runs before `checked_add` fails.
      (.error .invalidSequence, s.setFlow frame.requestId (body nextSequence updated))
    else (.ok (), s.setFlow frame.requestId (body (nextSequence + 1) updated))

/-- `RelaySessionState::observe_body`. -/
def observeBody (s : RelaySessionState) (frame : RelayBodyFrame) :
    Verdict × RelaySessionState :=
  if s.handshake ≠ .ready then (.error .illegalTransition, s)
  else if maxBodyChunkBytes < frame.payload.length then (.error .chunkTooLarge, s)
  else
    match s.flows.lookup frame.requestId with
    | none => (.error .unknownRequest, s)
    | some flow =>
      match frame.kind, flow with
      | .requestChunk, .requestBody nextSequence bytes =>
          s.observeChunk frame nextSequence bytes maxRequestBodyBytes .requestBody
      | .responseChunk, .responseBody nextSequence bytes =>
          s.observeChunk frame nextSequence bytes maxResponseBodyBytes .responseBody
      | _, _ => (.error .illegalTransition, s)

/-- Check a frame of either kind. -/
def observe (s : RelaySessionState) : Frame → Verdict × RelaySessionState
  | .control frame => s.observeControl frame
  | .body frame => s.observeBody frame

end RelaySessionState

/-! ## One request -/

/-- What a session knows of a request identifier. -/
inductive FlowStatus where
  | unseen
  | active (flow : FlowState)
  | closed
deriving DecidableEq, Repr

/-- A chunk moves an open body along when it is the next one and fits. -/
def FlowState.nextChunk (frame : RelayBodyFrame) (nextSequence : UInt32) (bytes limit : Nat)
    (body : UInt32 → Nat → FlowState) : Option FlowStatus :=
  if frame.sequence = nextSequence ∧ nextSequence.toNat < Rust.u32Max
      ∧ bytes + frame.payload.length ≤ limit then
    some (.active (body (nextSequence + 1) (bytes + frame.payload.length)))
  else none

/-- How a frame moves the open request it names. -/
def FlowState.next (flow : FlowState) : Frame → Option FlowStatus
  | .control (.requestEnd _) =>
      match flow with
      | .requestBody _ _ => some (.active .awaitingResponse)
      | _ => none
  | .control (.responseStart _) =>
      match flow with
      | .awaitingResponse => some (.active (.responseBody 0 0))
      | _ => none
  | .control (.responseEnd _) =>
      match flow with
      | .responseBody _ _ => some .closed
      | _ => none
  | .control (.cancel _) | .control (.requestFailed _) => some .closed
  | .body frame =>
      match frame.kind, flow with
      | .requestChunk, .requestBody nextSequence bytes =>
          nextChunk frame nextSequence bytes maxRequestBodyBytes .requestBody
      | .responseChunk, .responseBody nextSequence bytes =>
          nextChunk frame nextSequence bytes maxResponseBodyBytes .responseBody
      | _, _ => none
  | .control _ => none

/-- How a frame moves the request it names, open or not. -/
def FlowStatus.next : FlowStatus → Frame → Option FlowStatus
  | .unseen, .control (.requestStart _) => some (.active (.requestBody 0 0))
  | .active flow, frame => flow.next frame
  | _, _ => none

namespace RelaySessionState

/-- What the session knows of a request identifier. -/
def status (s : RelaySessionState) (id : Uuid) : FlowStatus :=
  match s.flows.lookup id with
  | some flow => .active flow
  | none => if id ∈ s.seenRequestIds then .closed else .unseen

/-- What an accepted frame did to the session. -/
inductive Accepted (s : RelaySessionState) : Frame → RelaySessionState → Prop where
  | clientHello {frame : ClientHelloFrame} :
      s.handshake = .awaitingHello →
      frame.protocolVersion = relayProtocolVersion →
      frame.connectorToken.parsed.tokenClass = .connector →
      Accepted s (.control (.clientHello frame)) { s with handshake := .awaitingReady }
  | serverReady {frame : ServerReadyFrame} :
      s.handshake = .awaitingReady →
      ¬(frame.generation = 0 ∨ frame.maxConcurrentRequests = 0
        ∨ maxConcurrentRequests < frame.maxConcurrentRequests.toNat
        ∨ maxBodyChunkBytes < frame.maxChunkBytes.toNat) →
      Accepted s (.control (.serverReady frame)) { s with handshake := .ready }
  | ping {frame : KeepaliveFrame} : s.handshake = .ready → Accepted s (.control (.ping frame)) s
  | pong {frame : KeepaliveFrame} : s.handshake = .ready → Accepted s (.control (.pong frame)) s
  | start {frame : RequestStartFrame} :
      s.handshake = .ready →
      frame.validate = .ok () →
      frame.requestId ∉ s.seenRequestIds →
      s.inFlight < maxConcurrentRequests →
      s.seenRequestIds.card < maxRequestIdsPerSession →
      Accepted s (.control (.requestStart frame))
        { s with
          seenRequestIds := insert frame.requestId s.seenRequestIds
          flows := s.flows.insert frame.requestId (.requestBody 0 0) }
  | move {frame : Frame} {id : Uuid} {flow flow' : FlowState} :
      s.handshake = .ready → frame.Valid → frame.requestId? = some id →
      s.flows.lookup id = some flow → flow.next frame = some (.active flow') →
      Accepted s frame (s.setFlow id flow')
  | finish {frame : Frame} {id : Uuid} {flow : FlowState} :
      s.handshake = .ready → frame.Valid → frame.requestId? = some id →
      s.flows.lookup id = some flow → flow.next frame = some .closed →
      Accepted s frame (s.removeFlow id)

/-! ### Every accepted frame is `Accepted` -/

section

variable {s s' : RelaySessionState}

theorem observeChunk_ok_iff {frame : RelayBodyFrame} {nextSequence : UInt32} {bytes limit : Nat}
    {body : UInt32 → Nat → FlowState} (hlimit : limit < Rust.u64Max) :
    s.observeChunk frame nextSequence bytes limit body = (.ok (), s') ↔
      ∃ flow', FlowState.nextChunk frame nextSequence bytes limit body = some (.active flow') ∧
        s' = s.setFlow frame.requestId flow' := by
  have hmax : nextSequence.toNat ≤ Rust.u32Max := by
    have := nextSequence.toNat_lt
    unfold Rust.u32Max
    omega
  unfold observeChunk FlowState.nextChunk
  by_cases hseq : frame.sequence = nextSequence
  · by_cases hfit : Rust.saturatingAdd bytes frame.payload.length ≤ limit
    · have hsum := Rust.saturatingAdd_eq hlimit hfit
      have hle : bytes + frame.payload.length ≤ limit := by omega
      by_cases htop : nextSequence.toNat = Rust.u32Max
      · simp [hseq, Nat.not_lt.mpr hfit, htop]
      · have hlt : nextSequence.toNat < Rust.u32Max := by omega
        simp [hseq, hsum, hle, htop, hlt, Nat.not_lt.mpr hle, eq_comm]
    · have hgt : ¬ bytes + frame.payload.length ≤ limit :=
        fun h => hfit ((Rust.saturatingAdd_le_iff hlimit).mpr h)
      simp [hseq, Nat.lt_of_not_le hfit, hgt]
  · simp [hseq]

theorem accepted_of_observeReadyControl {frame : RelayControlFrame} (hready : s.handshake = .ready)
    (hshake : (∀ f, frame ≠ .clientHello f) ∧ ∀ f, frame ≠ .serverReady f)
    (h : s.observeReadyControl frame = (.ok (), s')) : Accepted s (.control frame) s' := by
  cases frame with
  | clientHello f => exact absurd rfl (hshake.1 f)
  | serverReady f => exact absurd rfl (hshake.2 f)
  | requestStart f =>
      simp only [observeReadyControl] at h
      split at h
      next => simp at h
      next hvalid =>
        split_ifs at h with hseen hfull hbudget
        all_goals try simp at h
        subst h
        exact .start hready hvalid hseen (Nat.lt_of_not_le hfull) (Nat.lt_of_not_le hbudget)
  | requestEnd f =>
      simp only [observeReadyControl] at h
      split at h
      next => simp at h
      next nextSequence bytes hflow =>
        obtain rfl := (Prod.mk.inj h).2
        exact .move hready trivial rfl hflow rfl
      next => simp at h
  | responseStart f =>
      simp only [observeReadyControl] at h
      split at h
      next => simp at h
      next hvalid =>
        split at h
        next => simp at h
        next flow hflow =>
          split_ifs at h with hawaiting
          · simp at h
          · rw [not_not] at hawaiting
            subst hawaiting
            obtain rfl := (Prod.mk.inj h).2
            exact .move hready hvalid rfl hflow rfl
  | responseEnd f =>
      simp only [observeReadyControl] at h
      split at h
      next => simp at h
      next nextSequence bytes hflow =>
        obtain rfl := (Prod.mk.inj h).2
        exact .finish hready trivial rfl hflow rfl
      next => simp at h
  | cancel f =>
      simp only [observeReadyControl] at h
      split_ifs at h with hnone
      · simp at h
      · obtain rfl := (Prod.mk.inj h).2
        obtain ⟨flow, hflow⟩ := Option.ne_none_iff_exists'.mp (mt Option.isNone_iff_eq_none.mpr hnone)
        exact .finish hready trivial rfl hflow rfl
  | requestFailed f =>
      simp only [observeReadyControl] at h
      split_ifs at h with hmessage hnone
      · simp at h
      · simp at h
      · obtain rfl := (Prod.mk.inj h).2
        obtain ⟨flow, hflow⟩ := Option.ne_none_iff_exists'.mp (mt Option.isNone_iff_eq_none.mpr hnone)
        have hvalid : f.validMessage = true := by simpa using hmessage
        exact .finish hready hvalid rfl hflow rfl
  | ping f =>
      obtain rfl := (Prod.mk.inj h).2
      exact .ping hready
  | pong f =>
      obtain rfl := (Prod.mk.inj h).2
      exact .pong hready

theorem accepted_of_observeControl {frame : RelayControlFrame}
    (h : s.observeControl frame = (.ok (), s')) : Accepted s (.control frame) s' := by
  by_cases hhello : ∃ f, frame = .clientHello f
  · obtain ⟨f, rfl⟩ := hhello
    simp only [observeControl] at h
    split_ifs at h with hawaiting hversion hclass
    all_goals try simp at h
    subst h
    exact .clientHello (not_not.mp hawaiting) (not_not.mp hversion) (not_not.mp hclass)
  · by_cases hready : ∃ f, frame = .serverReady f
    · obtain ⟨f, rfl⟩ := hready
      simp only [observeControl] at h
      split_ifs at h with hawaiting hlimits
      all_goals try simp at h
      subst h
      exact .serverReady (not_not.mp hawaiting) hlimits
    · simp only [not_exists] at hhello hready
      have hobserve : s.observeControl frame =
          if s.handshake ≠ .ready then (.error .illegalTransition, s)
          else s.observeReadyControl frame := by
        cases frame with
        | clientHello f => exact absurd rfl (hhello f)
        | serverReady f => exact absurd rfl (hready f)
        | _ => rfl
      rw [hobserve] at h
      split_ifs at h with hstate
      · simp at h
      · exact accepted_of_observeReadyControl (not_not.mp hstate) ⟨hhello, hready⟩ h

theorem accepted_of_observeBody {frame : RelayBodyFrame}
    (h : s.observeBody frame = (.ok (), s')) : Accepted s (.body frame) s' := by
  simp only [observeBody] at h
  split_ifs at h with hready hsize
  · simp at h
  · simp at h
  · rw [not_not] at hready
    have hvalid : (Frame.body frame).Valid := Nat.not_lt.mp hsize
    split at h
    next => simp at h
    next flow hflow =>
      split at h
      next nextSequence bytes hkind =>
        obtain ⟨flow', hnext, rfl⟩ := (observeChunk_ok_iff (by decide)).mp h
        exact .move hready hvalid rfl hflow (by simpa [FlowState.next, hkind] using hnext)
      next nextSequence bytes hkind =>
        obtain ⟨flow', hnext, rfl⟩ := (observeChunk_ok_iff (by decide)).mp h
        exact .move hready hvalid rfl hflow (by simpa [FlowState.next, hkind] using hnext)
      next => simp at h

theorem Accepted.of_observe {frame : Frame} (h : s.observe frame = (.ok (), s')) :
    Accepted s frame s' := by
  cases frame with
  | control frame => exact accepted_of_observeControl h
  | body frame => exact accepted_of_observeBody h

theorem Accepted.handshake_eq {frame : Frame} (h : Accepted s frame s')
    (hready : s.handshake = .ready) : s'.handshake = .ready := by
  cases h with
  | serverReady => rfl
  | clientHello hawaiting =>
      rw [hready] at hawaiting
      cases hawaiting
  | _ => exact hready

/-! ### Every `Accepted` frame is accepted -/

/-- A frame that moves an open request passes the session. -/
theorem observe_of_next {frame : Frame} {id : Uuid} {flow : FlowState} {status : FlowStatus}
    (hready : s.handshake = .ready) (hvalid : frame.Valid) (hid : frame.requestId? = some id)
    (hflow : s.flows.lookup id = some flow) (hnext : flow.next frame = some status) :
    s.observe frame =
      (.ok (), match status with
        | .active flow' => s.setFlow id flow'
        | _ => s.removeFlow id) := by
  cases frame with
  | body frame =>
      obtain rfl := Option.some.inj hid
      have hsize : ¬ maxBodyChunkBytes < frame.payload.length := Nat.not_lt.mpr hvalid
      simp only [observe, observeBody, hready, ne_eq, not_true_eq_false, if_false, hsize, hflow]
      cases hkind : frame.kind <;> cases flow <;> simp only [FlowState.next, hkind] at hnext
      all_goals try (exact absurd hnext (by simp))
      all_goals
        obtain ⟨flow', rfl⟩ : ∃ flow', status = .active flow' := by
          unfold FlowState.nextChunk at hnext
          split_ifs at hnext
          exact ⟨_, (Option.some.inj hnext).symm⟩
        exact (observeChunk_ok_iff (by decide)).mpr ⟨flow', hnext, rfl⟩
  | control frame =>
      cases frame with
      | requestEnd f =>
          obtain rfl := Option.some.inj hid
          cases flow <;> simp only [FlowState.next, Option.some.injEq, reduceCtorEq] at hnext
          subst hnext
          simp [observe, observeControl, observeReadyControl, hready, hflow]
      | responseStart f =>
          obtain rfl := Option.some.inj hid
          cases flow <;> simp only [FlowState.next, Option.some.injEq, reduceCtorEq] at hnext
          subst hnext
          have hvalid : f.validate = .ok () := hvalid
          simp [observe, observeControl, observeReadyControl, hready, hflow, hvalid]
      | responseEnd f =>
          obtain rfl := Option.some.inj hid
          cases flow <;> simp only [FlowState.next, Option.some.injEq, reduceCtorEq] at hnext
          subst hnext
          simp [observe, observeControl, observeReadyControl, hready, hflow]
      | cancel f =>
          obtain rfl := Option.some.inj hid
          obtain rfl := Option.some.inj hnext
          simp [observe, observeControl, observeReadyControl, hready, hflow]
      | requestFailed f =>
          obtain rfl := Option.some.inj hid
          obtain rfl := Option.some.inj hnext
          have hvalid : f.validMessage = true := hvalid
          simp [observe, observeControl, observeReadyControl, hready, hflow, hvalid]
      | requestStart f => cases flow <;> simp [FlowState.next] at hnext
      | clientHello f => cases hid
      | serverReady f => cases hid
      | ping f => cases hid
      | pong f => cases hid

theorem Accepted.observe {frame : Frame} (h : Accepted s frame s') :
    s.observe frame = (.ok (), s') := by
  cases h with
  | clientHello hawaiting hversion hclass =>
      simp [RelaySessionState.observe, observeControl, hawaiting, hversion, hclass]
  | serverReady hawaiting hlimits =>
      simp only [RelaySessionState.observe, observeControl, hawaiting, ne_eq, not_true_eq_false,
        if_false, hlimits]
  | ping hready => simp [RelaySessionState.observe, observeControl, observeReadyControl, hready]
  | pong hready => simp [RelaySessionState.observe, observeControl, observeReadyControl, hready]
  | start hready hvalid hfresh hfull hbudget =>
      simp [RelaySessionState.observe, observeControl, observeReadyControl, hready, hvalid, hfresh,
        Nat.not_le.mpr hfull, Nat.not_le.mpr hbudget]
  | move hready hvalid hid hflow hnext => exact observe_of_next hready hvalid hid hflow hnext
  | finish hready hvalid hid hflow hnext => exact observe_of_next hready hvalid hid hflow hnext

theorem Accepted.valid {frame : Frame} (h : Accepted s frame s') : frame.Valid := by
  cases h with
  | clientHello => trivial
  | serverReady => trivial
  | ping => trivial
  | pong => trivial
  | start _ hvalid => exact hvalid
  | move _ hvalid => exact hvalid
  | finish _ hvalid => exact hvalid

/-- The session accepts exactly the frames that are `Accepted`. -/
theorem observe_ok_iff {frame : Frame} : s.observe frame = (.ok (), s') ↔ Accepted s frame s' :=
  ⟨Accepted.of_observe, Accepted.observe⟩

end

end RelaySessionState

end Cresix.Relay
