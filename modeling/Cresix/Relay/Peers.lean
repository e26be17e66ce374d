import Cresix.Relay.Link

/-!
# Two ends of a session

A relay and a connector that check every frame they send and receive with
their own `RelaySessionState`, connected by two FIFO queues.  A side whose
state rejects a frame is done with the session.

`Consistent` holds after every run: each request is linked, and the requests
that are on their way to the connector will find room there (`Budget`).  So a
side rejects a frame exactly when it has ended the request of the frame
itself, and then the request is unknown to it.
-/

namespace Cresix.Relay

open Rust (Uuid)
open Transition (System Event)

/-! ## The system -/

/-- Both ends and what is on its way to them. -/
structure Peers where
  /-- The validator of each side. -/
  state : Side → RelaySessionState
  /-- The frames on their way to each side. -/
  queue : Side → List Frame
  /-- The sides that rejected a frame. -/
  failed : Side → Bool

inductive PeerAction where
  /-- A side sends a frame that its own state accepts. -/
  | send (side : Side) (frame : Frame)
  /-- A side receives the next frame. -/
  | receive (side : Side)
deriving DecidableEq

namespace Peers

/-- Both ends after the handshake. -/
def start : Peers where
  state _ := RelaySessionState.ready
  queue _ := []
  failed _ := false

/-- One step; `none` when it cannot be taken. -/
def step (s : Peers) : PeerAction → Option Peers
  | .send side frame =>
      if s.failed side ∨ side.sends frame = false then none
      else match (s.state side).observe frame with
        | (.ok (), state) =>
            some { s with
              state := Function.update s.state side state
              queue := Function.update s.queue side.other (s.queue side.other ++ [frame]) }
        | (.error _, _) => none
  | .receive side =>
      if s.failed side then none
      else match s.queue side with
        | [] => none
        | frame :: rest =>
            match (s.state side).observe frame with
            | (.ok (), state) =>
                some { s with
                  state := Function.update s.state side state
                  queue := Function.update s.queue side rest }
            | (.error _, state) =>
                some {
                  state := Function.update s.state side state
                  queue := Function.update s.queue side rest
                  failed := Function.update s.failed side true }

/-- A session after the handshake under any order of sends and deliveries. -/
def session : System Peers PeerAction := .ofOption (· = start) step

/-- The ways a step goes. -/
inductive Step (s : Peers) : PeerAction → Peers → Prop where
  | send {side : Side} {frame : Frame} {state : RelaySessionState} :
      side.sends frame = true → (s.state side).observe frame = (.ok (), state) →
      Step s (.send side frame)
        { s with
          state := Function.update s.state side state
          queue := Function.update s.queue side.other (s.queue side.other ++ [frame]) }
  | receive {side : Side} {frame : Frame} {rest : List Frame} {state : RelaySessionState} :
      s.queue side = frame :: rest → (s.state side).observe frame = (.ok (), state) →
      Step s (.receive side)
        { s with
          state := Function.update s.state side state
          queue := Function.update s.queue side rest }
  | reject {side : Side} {frame : Frame} {rest : List Frame} {e : RelayValidationError}
      {state : RelaySessionState} :
      s.queue side = frame :: rest → (s.state side).observe frame = (.error e, state) →
      Step s (.receive side)
        { state := Function.update s.state side state
          queue := Function.update s.queue side rest
          failed := Function.update s.failed side true }

theorem Step.of_step {s t : Peers} {a : PeerAction} (hstep : s.step a = some t) :
    Step s a t := by
  cases a with
  | send side frame =>
      simp only [step] at hstep
      split at hstep
      next => cases hstep
      next hguard =>
        have hsends : side.sends frame = true := by
          cases hsends : side.sends frame with
          | true => rfl
          | false => exact absurd (.inr hsends) hguard
        split at hstep
        next hobs => cases hstep; exact .send hsends hobs
        next => cases hstep
  | receive side =>
      simp only [step] at hstep
      split at hstep
      next => cases hstep
      next =>
        split at hstep
        next => cases hstep
        next hqueue =>
          split at hstep
          next hobs => cases hstep; exact .receive hqueue hobs
          next hobs => cases hstep; exact .reject hqueue hobs

end Peers

/-! ## Verdicts -/

namespace RelaySessionState

variable {s s' : RelaySessionState}

/-- A frame that moves the request it names is accepted, when there is room
for a request it opens. -/
theorem observe_of_status {frame : Frame} {id : Uuid} {status : FlowStatus}
    (hinv : SessionInvariant s) (hready : s.handshake = .ready) (hvalid : frame.Valid)
    (hid : frame.requestId? = some id) (hnext : (s.status id).next frame = some status)
    (hroom : frame.isStart = true →
      s.inFlight < maxConcurrentRequests ∧ s.seenRequestIds.card < maxRequestIdsPerSession) :
    ∃ s', s.observe frame = (.ok (), s') := by
  cases hstatus : s.status id with
  | closed =>
      rw [hstatus] at hnext
      cases hnext
  | active flow =>
      rw [hstatus] at hnext
      exact ⟨_, observe_of_next hready hvalid hid (status_eq_active_iff.mp hstatus) hnext⟩
  | unseen =>
      rw [hstatus] at hnext
      cases frame with
      | body => cases hnext
      | control frame =>
          cases frame with
          | requestStart frame =>
              obtain rfl := Option.some.inj hid
              obtain ⟨hflight, hbudget⟩ := hroom rfl
              have hfresh := (status_eq_unseen hinv.keys_seen).mp hstatus
              exact ⟨_, Accepted.observe (.start hready hvalid hfresh hflight hbudget)⟩
          | _ => cases hnext

/-- A request that is over was seen and is not in flight. -/
theorem of_status_closed {id : Uuid} (hclosed : s.status id = .closed) :
    id ∈ s.seenRequestIds ∧ s.flows.lookup id = none ∧ id ∉ s.flows.keys := by
  have hnone : s.flows.lookup id = none := by
    cases hflow : s.flows.lookup id with
    | none => rfl
    | some flow =>
        rw [status_eq_active_iff.mpr hflow] at hclosed
        cases hclosed
  refine ⟨?_, hnone, fun hkey => ?_⟩
  · by_contra hseen
    simp only [status, hnone, if_neg hseen, reduceCtorEq] at hclosed
  · obtain ⟨flow, hflow⟩ := Finmap.mem_iff.mp (Finmap.mem_keys.mp hkey)
    rw [hnone] at hflow
    cases hflow

/-- A frame for a request that is over is rejected, and the state stays. -/
theorem observe_of_closed {frame : Frame} {id : Uuid} (hready : s.handshake = .ready)
    (hvalid : frame.Valid) (hid : frame.requestId? = some id) (hstart : frame.isStart = false)
    (hclosed : s.status id = .closed) : s.observe frame = (.error .unknownRequest, s) := by
  obtain ⟨_, hnone, _⟩ := of_status_closed hclosed
  cases frame with
  | body frame =>
      obtain rfl := Option.some.inj hid
      simp [observe, observeBody, hready, Nat.not_lt.mpr (show _ ≤ _ from hvalid), hnone]
  | control frame =>
      cases frame with
      | requestStart => cases hstart
      | clientHello => cases hid
      | serverReady => cases hid
      | ping => cases hid
      | pong => cases hid
      | requestEnd frame =>
          obtain rfl := Option.some.inj hid
          simp [observe, observeControl, observeReadyControl, hready, hnone]
      | responseStart frame =>
          obtain rfl := Option.some.inj hid
          have hvalid : frame.validate = .ok () := hvalid
          simp [observe, observeControl, observeReadyControl, hready, hvalid, hnone]
      | responseEnd frame =>
          obtain rfl := Option.some.inj hid
          simp [observe, observeControl, observeReadyControl, hready, hnone]
      | cancel frame =>
          obtain rfl := Option.some.inj hid
          simp [observe, observeControl, observeReadyControl, hready, hnone]
      | requestFailed frame =>
          obtain rfl := Option.some.inj hid
          have hvalid : frame.validMessage = true := hvalid
          simp [observe, observeControl, observeReadyControl, hready, hvalid, hnone]

/-- The requests in flight after a frame is accepted. -/
def keysAfter (keys : Finset Uuid) (frame : Frame) : Finset Uuid :=
  match frame.requestId? with
  | none => keys
  | some id =>
      if frame.isStart then insert id keys
      else if frame.terminates then keys.erase id
      else keys

theorem Accepted.keys_eq {frame : Frame} (h : Accepted s frame s') :
    s'.flows.keys = keysAfter s.flows.keys frame := by
  cases h with
  | clientHello => rfl
  | serverReady => rfl
  | ping => rfl
  | pong => rfl
  | start => exact Finmap.keys_insert ..
  | move _ _ hid hflow hnext =>
      obtain ⟨hstart, hclosed⟩ := FlowState.next_closed_iff hnext
      have hends : frame.terminates = false := by
        cases hends : frame.terminates with
        | false => rfl
        | true => cases hclosed.mpr hends
      simp only [keysAfter, hid, hstart, hends]
      exact Finmap.keys_insert_of_mem (Finmap.mem_of_lookup_eq_some hflow)
  | finish _ _ hid hflow hnext =>
      obtain ⟨hstart, hclosed⟩ := FlowState.next_closed_iff hnext
      simp only [keysAfter, hid, hstart, hclosed.mp rfl, if_true]
      exact Finmap.keys_erase ..

/-- The identifier the frame opens a request under. -/
def startId? : Frame → Option Uuid
  | .control (.requestStart frame) => some frame.requestId
  | _ => none

theorem startId?_eq_none {frame : Frame} (hstart : frame.isStart = false) :
    startId? frame = none := by
  cases frame with
  | body => rfl
  | control frame =>
      cases frame with
      | requestStart => cases hstart
      | _ => rfl

theorem Accepted.seen_eq {frame : Frame} (h : Accepted s frame s') :
    s'.seenRequestIds = s.seenRequestIds ∪ (startId? frame).toFinset := by
  cases h with
  | clientHello => simp [startId?]
  | serverReady => simp [startId?]
  | ping => simp [startId?]
  | pong => simp [startId?]
  | start => simp [startId?]
  | move _ _ _ _ hnext =>
      simp [startId?_eq_none (FlowState.next_closed_iff hnext).1, setFlow]
  | finish _ _ _ _ hnext =>
      simp [startId?_eq_none (FlowState.next_closed_iff hnext).1, removeFlow]

/-- A request is opened under a new identifier and within the limits. -/
theorem Accepted.start_fresh {frame : Frame} {id : Uuid} (h : Accepted s frame s')
    (hid : startId? frame = some id) : id ∉ s.seenRequestIds ∧ s.inFlight < maxConcurrentRequests := by
  cases h with
  | start _ _ hfresh hflight _ =>
      obtain rfl := Option.some.inj hid
      exact ⟨hfresh, hflight⟩
  | clientHello => cases hid
  | serverReady => cases hid
  | ping => cases hid
  | pong => cases hid
  | move _ _ _ _ hnext =>
      rw [startId?_eq_none (FlowState.next_closed_iff hnext).1] at hid
      cases hid
  | finish _ _ _ _ hnext =>
      rw [startId?_eq_none (FlowState.next_closed_iff hnext).1] at hid
      cases hid

end RelaySessionState

/-! ## Room at the connector -/

open RelaySessionState

/-- The identifiers the frames open requests under. -/
def startIds (frames : List Frame) : List Uuid := frames.filterMap startId?

/-- The requests in flight after the frames are accepted. -/
def openAfter (keys : Finset Uuid) : List Frame → Finset Uuid
  | [] => keys
  | frame :: frames => openAfter (keysAfter keys frame) frames

/-- Each request finds room when its turn comes. -/
def Room (keys : Finset Uuid) : List Frame → Prop
  | [] => True
  | frame :: frames =>
      (frame.isStart = true → keys.card < maxConcurrentRequests) ∧
        Room (keysAfter keys frame) frames

theorem keysAfter_mono {keys keys' : Finset Uuid} (frame : Frame) (h : keys ⊆ keys') :
    keysAfter keys frame ⊆ keysAfter keys' frame := by
  simp only [keysAfter]
  split
  next => exact h
  next =>
    split
    next => exact Finset.insert_subset_insert _ h
    next =>
      split
      next => exact Finset.erase_subset_erase _ h
      next => exact h

theorem keysAfter_subset {keys : Finset Uuid} {frame : Frame} (hstart : frame.isStart = false) :
    keysAfter keys frame ⊆ keys := by
  simp only [keysAfter, hstart]
  split
  next => exact Finset.Subset.refl _
  next =>
    split
    next h => cases h
    next =>
      split
      next => exact Finset.erase_subset ..
      next => exact Finset.Subset.refl _

theorem openAfter_mono {keys keys' : Finset Uuid} {frames : List Frame} (h : keys ⊆ keys') :
    openAfter keys frames ⊆ openAfter keys' frames := by
  induction frames generalizing keys keys' with
  | nil => exact h
  | cons frame frames ih => exact ih (keysAfter_mono frame h)

theorem openAfter_snoc (keys : Finset Uuid) (frames : List Frame) (frame : Frame) :
    openAfter keys (frames ++ [frame]) = keysAfter (openAfter keys frames) frame := by
  induction frames generalizing keys with
  | nil => rfl
  | cons first frames ih => exact ih _

theorem Room.anti {keys keys' : Finset Uuid} {frames : List Frame} (h : keys ⊆ keys')
    (hroom : Room keys' frames) : Room keys frames := by
  induction frames generalizing keys keys' with
  | nil => trivial
  | cons frame frames ih =>
      refine ⟨fun hstart => ?_, ih (keysAfter_mono frame h) hroom.2⟩
      exact Nat.lt_of_le_of_lt (Finset.card_le_card h) (hroom.1 hstart)

theorem Room.snoc {keys : Finset Uuid} {frames : List Frame} {frame : Frame}
    (hroom : Room keys frames)
    (hlast : frame.isStart = true → (openAfter keys frames).card < maxConcurrentRequests) :
    Room keys (frames ++ [frame]) := by
  induction frames generalizing keys with
  | nil => exact ⟨hlast, trivial⟩
  | cons first frames ih => exact ⟨hroom.1, ih hroom.2 hlast⟩

/-- A frame adds no request but the one it opens. -/
theorem not_mem_openAfter {keys : Finset Uuid} {frames : List Frame} {id : Uuid}
    (hkeys : id ∉ keys) (hstarts : id ∉ startIds frames) : id ∉ openAfter keys frames := by
  induction frames generalizing keys with
  | nil => exact hkeys
  | cons frame frames ih =>
      cases hfirst : startId? frame with
      | some other =>
          simp only [startIds, List.filterMap_cons, hfirst, List.mem_cons, not_or] at hstarts
          refine ih ?_ hstarts.2
          cases frame with
          | body => cases hfirst
          | control frame =>
              cases frame with
              | requestStart frame =>
                  obtain rfl := Option.some.inj hfirst
                  exact fun hmem => (Finset.mem_insert.mp hmem).elim hstarts.1 hkeys
              | _ => cases hfirst
      | none =>
          simp only [startIds, List.filterMap_cons, hfirst] at hstarts
          refine ih (fun hmem => hkeys (keysAfter_subset ?_ hmem)) hstarts
          cases frame with
          | body => rfl
          | control frame =>
              cases frame with
              | requestStart => cases hfirst
              | _ => rfl

/-- The requests on their way to the connector are new there, and it has room
for them. -/
structure Budget (relay connector : RelaySessionState) (queue : List Frame) : Prop where
  /-- No request is opened twice. -/
  starts : (startIds queue).Nodup
  /-- The connector has not seen the requests that are on their way. -/
  fresh : ∀ id ∈ startIds queue, id ∉ connector.seenRequestIds
  /-- The relay has seen all requests. -/
  seen : ∀ id, id ∈ startIds queue ∨ id ∈ connector.seenRequestIds → id ∈ relay.seenRequestIds
  /-- What the connector will have in flight the relay has in flight. -/
  opened : openAfter connector.flows.keys queue ⊆ relay.flows.keys
  room : Room connector.flows.keys queue

section

variable {relay connector next : RelaySessionState} {queue : List Frame} {frame : Frame}

theorem Budget.relaySend (h : Budget relay connector queue) (hacc : Accepted relay frame next) :
    Budget next connector (queue ++ [frame]) := by
  have hstarts : startIds (queue ++ [frame]) = startIds queue ++ (startId? frame).toList := by
    cases hid : startId? frame <;> simp [startIds, hid]
  have hnew : ∀ id ∈ (startId? frame).toList, id ∉ relay.seenRequestIds := by
    intro id hmem
    exact (hacc.start_fresh (Option.mem_toList.mp hmem)).1
  refine ⟨?_, ?_, ?_, ?_, ?_⟩
  · rw [hstarts, List.nodup_append]
    refine ⟨h.starts, ?_, ?_⟩
    · cases startId? frame <;> simp
    · rintro id hold _ hmem rfl
      exact hnew id hmem (h.seen id (.inl hold))
  · intro id hmem hseen
    rw [hstarts, List.mem_append] at hmem
    rcases hmem with hold | hmem
    · exact h.fresh id hold hseen
    · exact hnew id hmem (h.seen id (.inr hseen))
  · intro id hmem
    rw [hacc.seen_eq, Finset.mem_union]
    rw [hstarts, List.mem_append] at hmem
    rcases hmem with (hold | hmem) | hseen
    · exact .inl (h.seen id (.inl hold))
    · exact .inr (by simpa using hmem)
    · exact .inl (h.seen id (.inr hseen))
  · rw [openAfter_snoc, hacc.keys_eq]
    exact keysAfter_mono frame h.opened
  · refine h.room.snoc fun hstart => ?_
    obtain ⟨id, hid⟩ : ∃ id, startId? frame = some id := by
      cases frame with
      | body => cases hstart
      | control frame =>
          cases frame with
          | requestStart frame => exact ⟨_, rfl⟩
          | _ => cases hstart
    exact Nat.lt_of_le_of_lt (Finset.card_le_card h.opened) (hacc.start_fresh hid).2

theorem Budget.connectorSend (h : Budget relay connector queue)
    (hacc : Accepted connector frame next) (hstart : frame.isStart = false) :
    Budget relay next queue := by
  have hseen : next.seenRequestIds = connector.seenRequestIds := by
    rw [hacc.seen_eq, startId?_eq_none hstart]
    simp
  have hkeys : next.flows.keys ⊆ connector.flows.keys :=
    hacc.keys_eq ▸ keysAfter_subset hstart
  exact ⟨h.starts, hseen ▸ h.fresh, hseen ▸ h.seen,
    (openAfter_mono hkeys).trans h.opened, h.room.anti hkeys⟩

theorem Budget.connectorReceive (h : Budget relay connector (frame :: queue))
    (hacc : Accepted connector frame next) : Budget relay next queue := by
  have hstarts : startIds (frame :: queue) = (startId? frame).toList ++ startIds queue := by
    cases hid : startId? frame <;> simp [startIds, hid]
  have hnodup := h.starts
  rw [hstarts, List.nodup_append] at hnodup
  refine ⟨hnodup.2.1, ?_, ?_, ?_, ?_⟩
  · intro id hmem hseen
    rw [hacc.seen_eq, Finset.mem_union] at hseen
    rcases hseen with hseen | hnew
    · exact h.fresh id (by rw [hstarts]; exact List.mem_append_right _ hmem) hseen
    · exact hnodup.2.2 id (by simpa using hnew) id hmem rfl
  · intro id hmem
    rw [hacc.seen_eq, Finset.mem_union] at hmem
    rcases hmem with hmem | hseen | hnew
    · exact h.seen id (.inl (by rw [hstarts]; exact List.mem_append_right _ hmem))
    · exact h.seen id (.inr hseen)
    · refine h.seen id (.inl ?_)
      rw [hstarts]
      exact List.mem_append_left _ (by simpa using hnew)
  · rw [hacc.keys_eq]
    exact h.opened
  · rw [hacc.keys_eq]
    exact h.room.2

theorem Budget.relayReceive (h : Budget relay connector queue) (hacc : Accepted relay frame next)
    (hstart : frame.isStart = false)
    (hover : frame.terminates = true → ∀ id, frame.requestId? = some id →
      connector.status id = .closed) : Budget next connector queue := by
  have hseen : next.seenRequestIds = relay.seenRequestIds := by
    rw [hacc.seen_eq, startId?_eq_none hstart]
    simp
  refine ⟨h.starts, h.fresh, hseen ▸ h.seen, ?_, h.room⟩
  intro id hmem
  rw [hacc.keys_eq, keysAfter]
  split
  next => exact h.opened hmem
  next named hid =>
    rw [hstart, if_neg Bool.false_ne_true]
    split
    next hends =>
      refine Finset.mem_erase.mpr ⟨?_, h.opened hmem⟩
      rintro rfl
      obtain ⟨hseen, _, hkey⟩ := of_status_closed (hover hends id hid)
      exact not_mem_openAfter hkey (fun hid => h.fresh id hid hseen) hmem
    next => exact h.opened hmem

theorem Budget.drop (h : Budget relay connector (frame :: queue)) {id : Uuid}
    (hid : frame.requestId? = some id) (hstart : frame.isStart = false)
    (hclosed : connector.status id = .closed) : Budget relay connector queue := by
  have hstarts : startIds (frame :: queue) = startIds queue := by
    simp [startIds, startId?_eq_none hstart]
  obtain ⟨_, _, hkey⟩ := of_status_closed hclosed
  have hkeys : keysAfter connector.flows.keys frame = connector.flows.keys := by
    simp only [keysAfter, hid, hstart, Finset.erase_eq_of_notMem hkey]
    simp
  have hopened := h.opened
  have hroom := h.room.2
  rw [openAfter, hkeys] at hopened
  rw [hkeys] at hroom
  exact ⟨hstarts ▸ h.starts, hstarts ▸ h.fresh, hstarts ▸ h.seen, hopened, hroom⟩

end

/-- The connector opens no request. -/
theorem Side.not_start_of_sends {frame : Frame} (hsends : Side.connector.sends frame = true) :
    frame.isStart = false := by
  cases frame with
  | body => rfl
  | control frame =>
      cases frame with
      | requestStart => cases hsends
      | _ => rfl

theorem Frame.startId?_of_isStart {frame : Frame} (hstart : frame.isStart = true) :
    ∃ id, startId? frame = some id ∧ frame.requestId? = some id := by
  cases frame with
  | body => cases hstart
  | control frame =>
      cases frame with
      | requestStart frame => exact ⟨_, rfl, rfl⟩
      | _ => cases hstart

/-! ## Runs -/

/-- A side has ended a request by a frame of its own. -/
def endedBy (tr : List (Event Peers PeerAction)) (id : Uuid) (side : Side) : Bool :=
  tr.any fun e => match e.label with
    | .send p frame => p = side && frame.terminates && frame.requestId? = some id
    | .receive _ => false

namespace Peers

/-- The frames about a request on their way to a side. -/
def about (s : Peers) (id : Uuid) (side : Side) : List Frame :=
  (s.queue side).filter fun frame => frame.requestId? = some id

/-- What holds after any run. -/
structure Consistent (tr : List (Event Peers PeerAction)) (s : Peers) : Prop where
  ready : ∀ side, (s.state side).handshake = .ready
  invariant : ∀ side, SessionInvariant (s.state side)
  /-- A frame was checked by the side that sent it. -/
  queued : ∀ side, ∀ frame ∈ s.queue side, side.other.sends frame = true ∧ frame.Valid
  link : ∀ id, Link (fun side => (s.state side).status id) (s.about id) (endedBy tr id)
  budget : Budget (s.state .relay) (s.state .connector) (s.queue .connector)

variable {s t : Peers} {tr : List (Event Peers PeerAction)} {side : Side} {frame : Frame}
  {rest : List Frame} {state : RelaySessionState}

theorem Consistent.start : Consistent [] start where
  ready _ := rfl
  invariant _ := sessionInvariant_of_reachable reachable_ready
  queued _ _ hmem := by cases hmem
  link _ := .agree .relay (fun _ => rfl) rfl rfl nofun
  budget := ⟨List.nodup_nil, nofun, by simp [Peers.start, startIds],
    Finset.Subset.refl _, trivial⟩

/-- The state of a side after it accepted a frame. -/
theorem Consistent.accepted (h : Consistent tr s) (hacc : Accepted (s.state side) frame state) :
    (∀ p, (Function.update s.state side state p).handshake = .ready) ∧
    (∀ p, SessionInvariant (Function.update s.state side state p)) := by
  constructor
  · intro p
    rcases eq_or_ne p side with rfl | hne
    · rw [Function.update_self]
      exact hacc.handshake_eq (h.ready p)
    · rw [Function.update_of_ne hne]
      exact h.ready p
  · intro p
    rcases eq_or_ne p side with rfl | hne
    · rw [Function.update_self]
      exact (h.invariant p).accepted hacc
    · rw [Function.update_of_ne hne]
      exact h.invariant p

/-- The statuses of a request after a side accepted a frame. -/
theorem status_update (id : Uuid) (p : Side) :
    (Function.update s.state side state p).status id =
      Function.update (fun p => (s.state p).status id) side (state.status id) p := by
  rcases eq_or_ne p side with rfl | hne
  · rw [Function.update_self, Function.update_self]
  · rw [Function.update_of_ne hne, Function.update_of_ne hne]

/-- The frames about a request after a queue changed. -/
theorem about_update (id : Uuid) (q : List Frame) (p : Side) :
    (Function.update s.queue side q p).filter (fun frame => frame.requestId? = some id) =
      Function.update (s.about id) side
        (q.filter fun frame => frame.requestId? = some id) p := by
  rcases eq_or_ne p side with rfl | hne
  · rw [Function.update_self, Function.update_self]
  · rw [Function.update_of_ne hne, Function.update_of_ne hne]
    rfl

theorem endedBy_snoc (e : Event Peers PeerAction) (id : Uuid) (p : Side) :
    endedBy (tr ++ [e]) id p = (endedBy tr id p || endedBy [e] id p) := by
  simp [endedBy]

theorem Consistent.send (h : Consistent tr s) (hsends : side.sends frame = true)
    (hacc : Accepted (s.state side) frame state)
    (ht : t = { s with
      state := Function.update s.state side state
      queue := Function.update s.queue side.other (s.queue side.other ++ [frame]) }) :
    Consistent (tr ++ [⟨s, .send side frame, t⟩]) t := by
  subst ht
  refine ⟨(h.accepted hacc).1, (h.accepted hacc).2, ?_, ?_, ?_⟩
  · intro p sent hmem
    rcases eq_or_ne p side.other with rfl | hne
    · simp only [Function.update_self, List.mem_append, List.mem_singleton] at hmem
      rcases hmem with hold | rfl
      · exact h.queued _ sent hold
      · rw [Side.other_other]
        exact ⟨hsends, hacc.valid⟩
    · simp only [Function.update_of_ne hne] at hmem
      exact h.queued p sent hmem
  · intro id
    rcases eq_or_ne frame.requestId? (some id) with hid | hne
    · have hqueue : ∀ sent ∈ s.about id side, side.other.sends sent = true := fun sent hmem =>
        (h.queued side sent (List.mem_of_mem_filter hmem)).1
      have hnext := hacc.status_next (h.invariant side) hid
      refine ((h.link id).send hsends hqueue hnext).congr (status_update id) ?_ ?_
      · intro p
        refine (about_update id _ p).trans ?_
        rw [List.filter_append, List.filter_cons_of_pos (by simpa using hid)]
        rfl
      · intro p
        rw [endedBy_snoc]
        rcases eq_or_ne p side with rfl | hp
        · simp [endedBy, hid]
        · simp [endedBy, Function.update_of_ne hp, hp.symm]
    · refine (h.link id).congr ?_ ?_ ?_
      · intro p
        rw [status_update, hacc.status_of_ne hne, Function.update_eq_self]
      · intro p
        refine (about_update id _ p).trans ?_
        rw [List.filter_append, List.filter_cons_of_neg (by simpa using hne), List.filter_nil,
          List.append_nil]
        exact congrFun (Function.update_eq_self side.other (s.about id)) p
      · intro p
        rw [endedBy_snoc]
        simp [endedBy, hne]
  · cases side with
    | relay => exact h.budget.relaySend hacc
    | connector =>
        exact h.budget.connectorSend hacc (Side.not_start_of_sends hsends)

/-- What a side does with the next frame. -/
theorem Consistent.verdict (h : Consistent tr s) (hqueue : s.queue side = frame :: rest) :
    if frame.requestId?.any (endedBy tr · side) then
      (s.state side).observe frame = (.error .unknownRequest, s.state side)
    else ∃ state, (s.state side).observe frame = (.ok (), state) := by
  obtain ⟨hsends, hvalid⟩ := h.queued side frame (by rw [hqueue]; exact List.mem_cons_self)
  cases hid : frame.requestId? with
  | none =>
      have hready := h.ready side
      cases frame with
      | body => cases hid
      | control frame =>
          cases frame with
          | ping => exact ⟨_, Accepted.observe (.ping hready)⟩
          | pong => exact ⟨_, Accepted.observe (.pong hready)⟩
          | clientHello => cases side <;> cases hsends
          | serverReady => cases side <;> cases hsends
          | _ => cases hid
  | some id =>
      have habout : s.about id side = frame :: rest.filter (·.requestId? = some id) := by
        rw [about, hqueue]
        exact List.filter_cons_of_pos (by simpa using hid)
      have hhead := (h.link id).head habout
      have hfresh : ∀ other, startId? frame = some other →
          side = .connector ∧ other ∉ (s.state side).seenRequestIds := by
        intro other hother
        cases side with
        | relay => rw [startId?_eq_none (Side.not_start_of_sends hsends)] at hother; cases hother
        | connector =>
            refine ⟨rfl, h.budget.fresh other ?_⟩
            rw [hqueue]
            exact List.mem_filterMap.mpr ⟨frame, List.mem_cons_self, hother⟩
      show if endedBy tr id side then _ else _
      cases hended : endedBy tr id side with
      | true =>
          rw [hended] at hhead
          refine observe_of_closed (h.ready side) hvalid hid ?_ hhead
          cases hstart : frame.isStart with
          | false => rfl
          | true =>
              obtain ⟨other, hother, hsame⟩ := Frame.startId?_of_isStart hstart
              rw [hid] at hsame
              cases hsame
              exact absurd (of_status_closed hhead).1 (hfresh id hother).2
      | false =>
          rw [hended] at hhead
          obtain ⟨status, hnext⟩ := hhead
          refine observe_of_status (h.invariant side) (h.ready side) hvalid hid hnext ?_
          intro hstart
          obtain ⟨other, hother, _⟩ := Frame.startId?_of_isStart hstart
          obtain ⟨rfl, hnew⟩ := hfresh other hother
          have hbudget := h.budget
          rw [hqueue] at hbudget
          refine ⟨hbudget.room.1 hstart, ?_⟩
          -- the relay has seen the new identifier and all the connector has seen
          have hsubset : insert other (s.state .connector).seenRequestIds ⊆
              (s.state .relay).seenRequestIds := by
            intro i hi
            rcases Finset.mem_insert.mp hi with rfl | hseen
            · refine hbudget.seen i (.inl ?_)
              exact List.mem_filterMap.mpr ⟨frame, List.mem_cons_self, hother⟩
            · exact hbudget.seen i (.inr hseen)
          calc (s.state .connector).seenRequestIds.card
              < (insert other (s.state .connector).seenRequestIds).card := by
                rw [Finset.card_insert_of_notMem hnew]
                exact Nat.lt_succ_self _
            _ ≤ (s.state .relay).seenRequestIds.card := Finset.card_le_card hsubset
            _ ≤ maxRequestIdsPerSession := (h.invariant .relay).seen_le

/-- A step that sends nothing ends nothing. -/
theorem endedBy_receive (p : Side) (id : Uuid) :
    endedBy (tr ++ [⟨s, .receive p, t⟩]) id = endedBy tr id := by
  funext q
  simp [endedBy]

/-- What stays in the queues was checked. -/
theorem Consistent.queued_rest (h : Consistent tr s) (hqueue : s.queue side = frame :: rest)
    (p : Side) : ∀ sent ∈ Function.update s.queue side rest p,
      p.other.sends sent = true ∧ sent.Valid := by
  intro sent hmem
  rcases eq_or_ne p side with rfl | hne
  · rw [Function.update_self] at hmem
    exact h.queued p sent (by rw [hqueue]; exact List.mem_cons_of_mem _ hmem)
  · rw [Function.update_of_ne hne] at hmem
    exact h.queued p sent hmem

theorem Consistent.receive (h : Consistent tr s) (hqueue : s.queue side = frame :: rest)
    (hacc : Accepted (s.state side) frame state)
    (ht : t = { s with
      state := Function.update s.state side state
      queue := Function.update s.queue side rest }) :
    Consistent (tr ++ [⟨s, .receive side, t⟩]) t := by
  subst ht
  refine ⟨(h.accepted hacc).1, (h.accepted hacc).2, h.queued_rest hqueue, ?_, ?_⟩
  · intro id
    rw [endedBy_receive]
    rcases eq_or_ne frame.requestId? (some id) with hid | hne
    · have habout : s.about id side = frame :: rest.filter (·.requestId? = some id) := by
        rw [about, hqueue]
        exact List.filter_cons_of_pos (by simpa using hid)
      have hnext := hacc.status_next (h.invariant side) hid
      exact ((h.link id).receive habout hnext).congr (status_update id) (about_update id _)
        fun _ => rfl
    · refine (h.link id).congr ?_ ?_ fun _ => rfl
      · intro p
        rw [status_update, hacc.status_of_ne hne, Function.update_eq_self]
      · intro p
        refine (about_update id _ p).trans ?_
        have habout : s.about id side = rest.filter (·.requestId? = some id) := by
          rw [about, hqueue]
          exact List.filter_cons_of_neg (by simpa using hne)
        rw [← habout, Function.update_eq_self]
  · have hsends := (h.queued side frame (by rw [hqueue]; exact List.mem_cons_self)).1
    cases side with
    | relay =>
        refine h.budget.relayReceive hacc (Side.not_start_of_sends hsends) ?_
        intro hends id hid
        have habout : s.about id .relay = frame :: rest.filter (·.requestId? = some id) := by
          rw [about, hqueue]
          exact List.filter_cons_of_pos (by simpa using hid)
        have hnext := hacc.status_next (h.invariant .relay) hid
        have hclosed := (FlowStatus.closed_iff_terminates hsends hnext).mpr hends
        rw [hclosed] at hnext
        exact (h.link id).closed_of_closes habout hnext
    | connector =>
        have hbudget := h.budget
        rw [hqueue] at hbudget
        exact hbudget.connectorReceive hacc

/-- A rejected frame is late: its request was ended by the side itself. -/
theorem Consistent.late (h : Consistent tr s) {e : RelayValidationError}
    (hqueue : s.queue side = frame :: rest)
    (hobs : (s.state side).observe frame = (.error e, state)) :
    state = s.state side ∧ ∃ id, frame.requestId? = some id ∧ endedBy tr id side = true := by
  have hverdict := h.verdict hqueue
  split at hverdict
  next hany =>
    rw [hobs] at hverdict
    cases hid : frame.requestId? with
    | none =>
        rw [hid] at hany
        cases hany
    | some id =>
        rw [hid] at hany
        exact ⟨(Prod.mk.inj hverdict).2, id, rfl, hany⟩
  next =>
    obtain ⟨_, hok⟩ := hverdict
    rw [hobs] at hok
    cases hok

/-- A request that a side ended is over there. -/
theorem Consistent.closed_of_ended (h : Consistent tr s) {id : Uuid}
    (hqueue : s.queue side = frame :: rest) (hid : frame.requestId? = some id)
    (hended : endedBy tr id side = true) : (s.state side).status id = .closed := by
  have habout : s.about id side = frame :: rest.filter (·.requestId? = some id) := by
    rw [about, hqueue]
    exact List.filter_cons_of_pos (by simpa using hid)
  have hhead := (h.link id).head habout
  rw [hended] at hhead
  exact hhead

theorem Consistent.reject (h : Consistent tr s) {e : RelayValidationError}
    (hqueue : s.queue side = frame :: rest)
    (hobs : (s.state side).observe frame = (.error e, state))
    (ht : t = {
      state := Function.update s.state side state
      queue := Function.update s.queue side rest
      failed := Function.update s.failed side true }) :
    Consistent (tr ++ [⟨s, .receive side, t⟩]) t := by
  subst ht
  obtain ⟨rfl, id, hid, hended⟩ := h.late hqueue hobs
  rw [Function.update_eq_self]
  refine ⟨h.ready, h.invariant, h.queued_rest hqueue, ?_, ?_⟩
  · intro other
    rw [endedBy_receive]
    rcases eq_or_ne id other with rfl | hne
    · exact ((h.link id).drop hended).congr (fun _ => rfl) (about_update id rest) fun _ => rfl
    · refine (h.link other).congr (fun _ => rfl) ?_ fun _ => rfl
      intro p
      have hother : frame.requestId? ≠ some other := by
        rw [hid]
        exact fun heq => hne (Option.some.inj heq)
      have habout : s.about other side = rest.filter (·.requestId? = some other) := by
        rw [about, hqueue]
        exact List.filter_cons_of_neg (by simpa using hother)
      refine (about_update other rest p).trans ?_
      rw [← habout, Function.update_eq_self]
  · cases side with
    | relay => exact h.budget
    | connector =>
        have hbudget := h.budget
        have hclosed := h.closed_of_ended hqueue hid hended
        rw [hqueue] at hbudget
        refine hbudget.drop hid ?_ hclosed
        cases hstart : frame.isStart with
        | false => rfl
        | true =>
            obtain ⟨other, hother, hsame⟩ := Frame.startId?_of_isStart hstart
            rw [hid] at hsame
            cases hsame
            refine absurd (of_status_closed hclosed).1 (hbudget.fresh id ?_)
            exact List.mem_filterMap.mpr ⟨frame, List.mem_cons_self, hother⟩

/-- What a step preserves. -/
theorem Consistent.step {a : PeerAction} (h : Consistent tr s) (hstep : Step s a t) :
    Consistent (tr ++ [⟨s, a, t⟩]) t := by
  cases hstep with
  | send hsends hobs => exact h.send hsends (.of_observe hobs) rfl
  | receive hqueue hobs => exact h.receive hqueue (.of_observe hobs) rfl
  | reject hqueue hobs => exact h.reject hqueue hobs rfl

theorem consistent_of_run (hrun : session.Run Peers.start tr t) : Consistent tr t := by
  refine hrun.history (I := Consistent) .start ?_
  intro tr s a u _ h hstep
  exact h.step (.of_step hstep)

/-- In the step a side is delivered a frame. -/
def Delivers (e : Event Peers PeerAction) (side : Side) (frame : Frame) : Prop :=
  e.label = .receive side ∧ ∃ rest, e.pre.queue side = frame :: rest

/-- A delivered frame is accepted, unless the side it is delivered to has
itself ended the request of the frame. -/
theorem delivery_verdict (hrun : session.Run Peers.start tr t) :
    ∀ before e after, tr = before ++ e :: after →
      ∀ side frame, Delivers e side frame →
        ((e.pre.state side).observe frame).1 =
          if frame.requestId?.any (endedBy before · side) then .error .unknownRequest
          else .ok () := by
  refine hrun.forall_split (P := fun before e => ∀ side frame, Delivers e side frame →
    ((e.pre.state side).observe frame).1 =
      if frame.requestId?.any (endedBy before · side) then .error .unknownRequest
      else .ok ()) ?_
  rintro before s a u hbefore _ side frame ⟨_, rest, hqueue⟩
  have hverdict := (consistent_of_run hbefore).verdict hqueue
  split
  next hany =>
    rw [if_pos hany] at hverdict
    rw [hverdict]
  next hany =>
    rw [if_neg hany] at hverdict
    obtain ⟨_, hok⟩ := hverdict
    rw [hok]

/-- A request that the connector receives. -/
theorem delivery_verdict_start : ∃ s₁ s₂ : Peers, ∃ frame : Frame,
    session.Run Peers.start
      [⟨Peers.start, .send .relay frame, s₁⟩, ⟨s₁, .receive .connector, s₂⟩] s₂ ∧
    ((s₁.state .connector).observe frame).1 = .ok () := by
  let frame : Frame := .control (.requestStart ⟨1, ⟨"GET", by decide⟩, "/", [], 1⟩)
  have hverdict : (ready.observe frame).1 = .ok () := by decide
  obtain ⟨state, hok⟩ : ∃ state, ready.observe frame = (.ok (), state) :=
    ⟨_, Prod.ext hverdict rfl⟩
  let s₁ : Peers := { Peers.start with
    state := Function.update Peers.start.state .relay state
    queue := Function.update Peers.start.queue .connector [frame] }
  let s₂ : Peers := { s₁ with
    state := Function.update s₁.state .connector state
    queue := Function.update s₁.queue .connector [] }
  have hsend : Peers.start.step (.send .relay frame) = some s₁ := by
    simp only [step, show Peers.start.state .relay = ready from rfl, hok]
    rfl
  have hreceive : s₁.step (.receive .connector) = some s₂ := by
    simp only [step, show s₁.queue .connector = [frame] from rfl,
      show s₁.state .connector = ready from rfl, hok]
    rfl
  have hrun : session.Run Peers.start
      [⟨Peers.start, .send .relay frame, s₁⟩, ⟨s₁, .receive .connector, s₂⟩] s₂ :=
    .cons hsend (.single hreceive)
  refine ⟨s₁, s₂, frame, hrun, ?_⟩
  exact delivery_verdict hrun [_] _ [] rfl .connector frame ⟨rfl, [], rfl⟩

/-! ## A cancellation that crosses a response -/

/-- The relay opens a request and ends its body, and the connector receives
both and starts the response.  Before the relay receives that, it cancels. -/
def crossing : List PeerAction :=
  [.send .relay (.control (.requestStart ⟨1, ⟨"GET", by decide⟩, "/", [], 1⟩)),
   .send .relay (.control (.requestEnd ⟨1⟩)), .receive .connector, .receive .connector,
   .send .connector (.control (.responseStart ⟨1, 200, []⟩)),
   .send .relay (.control (.cancel ⟨1⟩)), .receive .relay]

/-- Not every delivered frame is accepted. -/
theorem not_all_accepted :
    ¬∀ (t : Peers) (tr : List (Event Peers PeerAction)), session.Run Peers.start tr t →
      ∀ e ∈ tr, ∀ side frame, Delivers e side frame →
        ((e.pre.state side).observe frame).1 = .ok () := by
  intro hall
  obtain ⟨t, hrun⟩ : ∃ t, session.Run Peers.start (System.events step Peers.start crossing) t :=
    System.Run.events (by decide)
  have hlast : ∃ e ∈ System.events step Peers.start crossing, e.label = .receive .relay ∧
      e.pre.queue .relay = [.control (.responseStart ⟨1, 200, []⟩)] ∧
      ((e.pre.state .relay).observe (.control (.responseStart ⟨1, 200, []⟩))).1 ≠ .ok () := by
    decide
  obtain ⟨e, hmem, hlabel, hqueue, hverdict⟩ := hlast
  exact hverdict (hall t _ hrun e hmem _ _ ⟨hlabel, [], hqueue⟩)

end Peers

end Cresix.Relay
