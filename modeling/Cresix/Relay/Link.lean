import Cresix.Relay.Conversation

/-!
# One request between two ends

A request moves by turns: the relay sends its body, and then the connector
sends the response.  `Link` says how the two views of one request and the
frames in flight fit together.  While neither end has ended the request, one
queue is empty and the other one takes its receiver to where its sender is.
Once an end has ended the request, what is still on its way to it is late, and
the other end will hear of the ending.
-/

namespace Cresix.Relay

/-! ## Sides -/

inductive Side where
  | relay
  | connector
deriving DecidableEq, Repr

/-- The side at the other end. -/
def Side.other : Side → Side
  | .relay => .connector
  | .connector => .relay

@[simp] theorem Side.other_other (side : Side) : side.other.other = side := by
  cases side <;> rfl

theorem Side.other_ne (side : Side) : side.other ≠ side := by
  cases side <;> nofun

theorem Side.eq_or_eq_other (side p : Side) : p = side ∨ p = side.other := by
  cases side <;> cases p <;> simp [Side.other]

/-- The frames a side sends once the handshake is done. -/
def Side.sends : Side → Frame → Bool
  | .relay, .control (.requestStart _) => true
  | .relay, .control (.requestEnd _) => true
  | .relay, .control (.cancel _) => true
  | .relay, .body frame => frame.kind = .requestChunk
  | .connector, .control (.responseStart _) => true
  | .connector, .control (.responseEnd _) => true
  | .connector, .control (.requestFailed _) => true
  | .connector, .body frame => frame.kind = .responseChunk
  | _, .control (.ping _) => true
  | _, .control (.pong _) => true
  | _, _ => false

/-- The side that moves an open request along. -/
def FlowState.turn : FlowState → Side
  | .requestBody _ _ => .relay
  | .awaitingResponse => .connector
  | .responseBody _ _ => .connector

/-- A frame that moves an open request ends it or is from the side whose turn
it is.  A frame that ends a request out of turn ends every open request. -/
theorem FlowState.next_cases {side : Side} {frame : Frame} {flow : FlowState}
    {status : FlowStatus} (hsends : side.sends frame = true)
    (hnext : flow.next frame = some status) :
    (frame.terminates = true ∧ status = .closed ∧
      (flow.turn = side ∨ ∀ flow' : FlowState, flow'.next frame = some .closed)) ∨
    (frame.terminates = false ∧ flow.turn = side ∧ ∃ flow', status = .active flow') := by
  cases frame with
  | body frame =>
      right
      cases side with
      | relay =>
          have hkind : frame.kind = .requestChunk := of_decide_eq_true hsends
          cases flow <;> simp only [FlowState.next, hkind, reduceCtorEq] at hnext
          simp only [FlowState.nextChunk] at hnext
          split at hnext
          next => exact ⟨rfl, rfl, _, (Option.some.inj hnext).symm⟩
          next => cases hnext
      | connector =>
          have hkind : frame.kind = .responseChunk := of_decide_eq_true hsends
          cases flow <;> simp only [FlowState.next, hkind, reduceCtorEq] at hnext
          simp only [FlowState.nextChunk] at hnext
          split at hnext
          next => exact ⟨rfl, rfl, _, (Option.some.inj hnext).symm⟩
          next => cases hnext
  | control frame =>
      cases frame with
      | cancel => exact .inl ⟨rfl, (Option.some.inj hnext).symm, .inr fun _ => rfl⟩
      | requestFailed => exact .inl ⟨rfl, (Option.some.inj hnext).symm, .inr fun _ => rfl⟩
      | requestEnd =>
          cases side with
          | connector => cases hsends
          | relay =>
              cases flow with
              | requestBody => exact .inr ⟨rfl, rfl, _, (Option.some.inj hnext).symm⟩
              | awaitingResponse => cases hnext
              | responseBody => cases hnext
      | responseStart =>
          cases side with
          | relay => cases hsends
          | connector =>
              cases flow with
              | requestBody => cases hnext
              | awaitingResponse => exact .inr ⟨rfl, rfl, _, (Option.some.inj hnext).symm⟩
              | responseBody => cases hnext
      | responseEnd =>
          cases side with
          | relay => cases hsends
          | connector =>
              cases flow with
              | requestBody => cases hnext
              | awaitingResponse => cases hnext
              | responseBody => exact .inl ⟨rfl, (Option.some.inj hnext).symm, .inl rfl⟩
      | requestStart => cases flow <;> cases hnext
      | clientHello => cases flow <;> cases hnext
      | serverReady => cases flow <;> cases hnext
      | ping => cases flow <;> cases hnext
      | pong => cases flow <;> cases hnext

/-- A frame that moves an open request does not open one, and it closes the
request exactly when it is a terminating one. -/
theorem FlowState.next_closed_iff {frame : Frame} {flow : FlowState} {status : FlowStatus}
    (hnext : flow.next frame = some status) :
    frame.isStart = false ∧ (status = .closed ↔ frame.terminates = true) := by
  cases frame with
  | body frame =>
      have hopen : ∃ flow', status = .active flow' := by
        cases hkind : frame.kind <;> cases flow <;>
          simp only [FlowState.next, FlowState.nextChunk, hkind, reduceCtorEq] at hnext
        all_goals
          split at hnext
          next => exact ⟨_, (Option.some.inj hnext).symm⟩
          next => cases hnext
      obtain ⟨flow', rfl⟩ := hopen
      refine ⟨rfl, ?_, ?_⟩
      · intro h
        cases h
      · intro h
        cases h
  | control frame =>
      cases frame <;> cases flow <;> cases hnext
      all_goals simp [Frame.isStart, Frame.terminates]

/-- Only the relay opens a request. -/
theorem FlowStatus.next_unseen {side : Side} {frame : Frame} {status : FlowStatus}
    (hsends : side.sends frame = true) (hnext : FlowStatus.next .unseen frame = some status) :
    side = .relay ∧ frame.isStart = true ∧ frame.terminates = false ∧
      status = .active (.requestBody 0 0) := by
  cases frame with
  | body => cases hnext
  | control frame =>
      cases frame with
      | requestStart =>
          cases side with
          | relay => exact ⟨rfl, rfl, rfl, (Option.some.inj hnext).symm⟩
          | connector => cases hsends
      | _ => cases hnext

/-! ## Frames in flight -/

/-- Takes a request through frames. -/
def FlowStatus.run : FlowStatus → List Frame → Option FlowStatus
  | status, [] => some status
  | status, frame :: frames =>
      match status.next frame with
      | some status' => status'.run frames
      | none => none

theorem FlowStatus.run_cons {status status' : FlowStatus} {frame : Frame} {frames : List Frame}
    (hnext : status.next frame = some status') :
    status.run (frame :: frames) = status'.run frames := by
  simp only [run, hnext]

theorem FlowStatus.run_snoc {status mid last : FlowStatus} {frame : Frame} {frames : List Frame}
    (hrun : status.run frames = some mid) (hnext : mid.next frame = some last) :
    status.run (frames ++ [frame]) = some last := by
  induction frames generalizing status with
  | nil =>
      cases hrun
      exact (run_cons hnext).trans rfl
  | cons first rest ih =>
      simp only [run] at hrun
      split at hrun
      next status' hfirst => exact (run_cons hfirst).trans (ih hrun)
      next => cases hrun

theorem FlowStatus.run_cons_inv {status last : FlowStatus} {frame : Frame} {frames : List Frame}
    (hrun : status.run (frame :: frames) = some last) :
    ∃ status', status.next frame = some status' ∧ status'.run frames = some last := by
  simp only [run] at hrun
  split at hrun
  next status' hnext => exact ⟨status', hnext, hrun⟩
  next => cases hrun

theorem FlowStatus.run_closed {last : FlowStatus} {frames : List Frame}
    (hrun : FlowStatus.run .closed frames = some last) : frames = [] ∧ last = .closed := by
  cases frames with
  | nil =>
      cases hrun
      exact ⟨rfl, rfl⟩
  | cons => cases hrun

/-- An open request stays open or is closed. -/
theorem FlowStatus.run_active {flow : FlowState} {last : FlowStatus} {frames : List Frame}
    (hrun : FlowStatus.run (.active flow) frames = some last) : last ≠ .unseen := by
  induction frames generalizing flow with
  | nil =>
      cases hrun
      intro h
      cases h
  | cons frame frames ih =>
      obtain ⟨status, hnext, hrest⟩ := run_cons_inv hrun
      cases status with
      | unseen =>
          have hnext : flow.next frame = some .unseen := hnext
          cases frame with
          | control frame => cases frame <;> cases flow <;> cases hnext
          | body frame =>
              cases hkind : frame.kind <;> cases flow <;>
                simp [FlowState.next, FlowState.nextChunk, hkind] at hnext
      | active flow' => exact ih hrest
      | closed =>
          rw [(run_closed hrest).2]
          intro h
          cases h

/-- Frames of a side whose turn it is not move an open request nowhere, or one
of them ends it. -/
theorem FlowStatus.run_stalled {side : Side} {flow : FlowState} {last : FlowStatus}
    {frames : List Frame} (hsends : ∀ frame ∈ frames, side.sends frame = true)
    (hturn : flow.turn ≠ side) (hrun : FlowStatus.run (.active flow) frames = some last) :
    (frames = [] ∧ last = .active flow) ∨
    ∃ frame, frames = [frame] ∧ last = .closed ∧
      ∀ flow' : FlowState, flow'.next frame = some .closed := by
  cases frames with
  | nil =>
      cases hrun
      exact .inl ⟨rfl, rfl⟩
  | cons frame rest =>
      obtain ⟨status, hnext, hrest⟩ := run_cons_inv hrun
      rcases FlowState.next_cases (hsends frame List.mem_cons_self) hnext with
        ⟨_, rfl, hmine | hevery⟩ | ⟨_, hmine, _⟩
      · exact absurd hmine hturn
      · obtain ⟨rfl, rfl⟩ := run_closed hrest
        exact .inr ⟨frame, rfl, rfl, hevery⟩
      · exact absurd hmine hturn

/-! ## One request, seen from both ends -/

/-- How the two statuses of a request and the frames about it that are on
their way to each side fit together.  `ended` says which sides have ended the
request by a frame of their own. -/
inductive Link (status : Side → FlowStatus) (queue : Side → List Frame) (ended : Side → Bool) :
    Prop where
  | agree (side : Side) :
      (∀ p, ended p = false) → queue side = [] →
      (status side.other).run (queue side.other) = some (status side) →
      status side ≠ .closed → Link status queue ended
  | cut (side : Side) :
      ended side = true → ended side.other = false → status side = .closed →
      (status side.other).run (queue side.other) = some .closed → Link status queue ended
  | both :
      (∀ p, ended p = true) → (∀ p, status p = .closed) → Link status queue ended

section

variable {status : Side → FlowStatus} {queue : Side → List Frame} {ended : Side → Bool}
  {side : Side} {frame : Frame} {next : FlowStatus}

theorem Link.congr {status' : Side → FlowStatus} {queue' : Side → List Frame}
    {ended' : Side → Bool} (hlink : Link status queue ended)
    (hstatus : ∀ p, status' p = status p) (hqueue : ∀ p, queue' p = queue p)
    (hended : ∀ p, ended' p = ended p) : Link status' queue' ended' := by
  rw [funext hstatus, funext hqueue, funext hended]
  exact hlink

/-- A side that moves the request when the frames on their way to it come from
a side out of turn: it has seen all of them, or one is on its way that ends
the request. -/
theorem run_of_sends {frames : List Frame} {last : FlowStatus}
    (hsends : side.sends frame = true) (hnext : (status side).next frame = some next)
    (hframes : ∀ frame ∈ frames, side.other.sends frame = true)
    (hrun : (status side).run frames = some last) :
    (frames = [] ∧ last = status side) ∨
    (last = .closed ∧ (next = .closed ∨ next.run frames = some .closed)) ∨
    (frame.terminates = true ∧ next = .closed ∧ last ≠ .unseen ∧
      ∀ flow' : FlowState, flow'.next frame = some .closed) := by
  cases hstatus : status side with
  | closed =>
      rw [hstatus] at hnext
      cases hnext
  | unseen =>
      rw [hstatus] at hnext hrun
      left
      cases frames with
      | nil =>
          cases hrun
          exact ⟨rfl, rfl⟩
      | cons first rest =>
          obtain ⟨status', hfirst, _⟩ := FlowStatus.run_cons_inv hrun
          have hother := (FlowStatus.next_unseen (hframes first List.mem_cons_self) hfirst).1
          have hside := (FlowStatus.next_unseen hsends hnext).1
          rw [hside] at hother
          cases hother
  | active flow =>
      rw [hstatus] at hnext hrun
      rcases FlowState.next_cases hsends hnext with ⟨hends, rfl, hmine | hevery⟩ | ⟨_, hmine, hopen⟩
      · have hturn : flow.turn ≠ side.other := hmine ▸ side.other_ne.symm
        rcases FlowStatus.run_stalled hframes hturn hrun with hnil | ⟨_, _, rfl, _⟩
        · exact .inl hnil
        · exact .inr (.inl ⟨rfl, .inl rfl⟩)
      · exact .inr (.inr ⟨hends, rfl, FlowStatus.run_active hrun, hevery⟩)
      · have hturn : flow.turn ≠ side.other := hmine ▸ side.other_ne.symm
        rcases FlowStatus.run_stalled hframes hturn hrun with hnil | ⟨g, rfl, rfl, hevery⟩
        · exact .inl hnil
        · obtain ⟨flow', rfl⟩ := hopen
          exact .inr (.inl ⟨rfl, .inr (FlowStatus.run_cons (hevery flow'))⟩)

/-- A frame closes the request it moves exactly when it is a terminating one. -/
theorem FlowStatus.closed_iff_terminates {status : FlowStatus} (hsends : side.sends frame = true)
    (hnext : status.next frame = some next) : next = .closed ↔ frame.terminates = true := by
  cases status with
  | closed => cases hnext
  | unseen =>
      obtain ⟨_, _, hends, rfl⟩ := next_unseen hsends hnext
      simp [hends]
  | active flow => exact (FlowState.next_closed_iff hnext).2

/-- The side that has just ended the request or that the other end follows. -/
theorem Link.of_follows (side : Side) (next : FlowStatus) (hended : ended side.other = false)
    (hterm : next = .closed ↔ ended side = true)
    (hstatus : status side = next) (hrun : (status side.other).run (queue side.other) = some next)
    (hqueue : next ≠ .closed → queue side = []) : Link status queue ended := by
  cases hside : ended side with
  | true =>
      have hclosed := hterm.mpr hside
      subst hclosed
      exact .cut side hside hended hstatus hrun
  | false =>
      have hopen : next ≠ .closed := fun hclosed => by
        rw [hterm.mp hclosed] at hside
        cases hside
      refine .agree side ?_ (hqueue hopen) (hstatus ▸ hrun) (hstatus ▸ hopen)
      intro p
      rcases side.eq_or_eq_other p with rfl | rfl
      · exact hside
      · exact hended

/-- A side sends a frame that its own status accepts. -/
theorem Link.send (hlink : Link status queue ended) (hsends : side.sends frame = true)
    (hqueue : ∀ frame ∈ queue side, side.other.sends frame = true)
    (hnext : (status side).next frame = some next) :
    Link (Function.update status side next)
      (Function.update queue side.other (queue side.other ++ [frame]))
      (Function.update ended side (ended side || frame.terminates)) := by
  have hterm := FlowStatus.closed_iff_terminates hsends hnext
  have hother := side.other_ne
  have hself : status side ≠ .closed := by
    intro hclosed
    rw [hclosed] at hnext
    cases hnext
  -- the other end follows once it has received the frame
  have hfollow : ended side = false → ended side.other = false →
      (status side.other).run (queue side.other ++ [frame]) = some next →
      (next ≠ .closed → queue side = []) → Link (Function.update status side next)
        (Function.update queue side.other (queue side.other ++ [frame]))
        (Function.update ended side (ended side || frame.terminates)) := by
    intro hside hothers hrun hempty
    refine .of_follows side next ?_ ?_ ?_ ?_ ?_
    · rw [Function.update_of_ne hother, hothers]
    · rw [Function.update_self, hside, Bool.false_or, hterm]
    · rw [Function.update_self]
    · rw [Function.update_of_ne hother, Function.update_self]
      exact hrun
    · rw [Function.update_of_ne hother.symm]
      exact hempty
  cases hlink with
  | agree p hnone hempty hrun hopen =>
      rcases side.eq_or_eq_other p with rfl | rfl
      · exact hfollow (hnone _) (hnone _) (FlowStatus.run_snoc hrun hnext) fun _ => hempty
      · rw [Side.other_other] at hrun
        rw [hempty, List.nil_append] at hfollow ⊢
        rcases run_of_sends hsends hnext hqueue hrun with
          ⟨hnil, heq⟩ | ⟨hclosed, _⟩ | ⟨_, hclosed, hseen, hevery⟩
        · refine hfollow (hnone _) (hnone _) ?_ fun _ => hnil
          rw [heq]
          exact FlowStatus.run_cons hnext
        · exact absurd hclosed hopen
        · refine hfollow (hnone _) (hnone _) ?_ fun h => absurd hclosed h
          cases hstatus : status side.other with
          | unseen => exact absurd hstatus hseen
          | closed => exact absurd hstatus hopen
          | active flow =>
              rw [hclosed]
              exact FlowStatus.run_cons (hevery flow)
  | cut p hp hpother hclosed hrun =>
      rcases side.eq_or_eq_other p with rfl | rfl
      · exact absurd hclosed hself
      · rw [Side.other_other] at hrun hpother
        cases hends : frame.terminates with
        | true =>
            have hnow := hterm.mpr hends
            subst hnow
            refine .both ?_ ?_
            · intro p
              rcases side.eq_or_eq_other p with rfl | rfl
              · rw [Function.update_self, Bool.or_true]
              · rw [Function.update_of_ne hother, hp]
            · intro p
              rcases side.eq_or_eq_other p with rfl | rfl
              · rw [Function.update_self]
              · rw [Function.update_of_ne hother, hclosed]
        | false =>
            have hopen : next ≠ .closed := fun h => by
              rw [hterm.mp h] at hends
              cases hends
            refine .cut side.other ?_ ?_ ?_ ?_
            · rw [Function.update_of_ne hother, hp]
            · rw [Side.other_other, Function.update_self, hpother]
              rfl
            · rw [Function.update_of_ne hother, hclosed]
            · rw [Side.other_other, Function.update_self, Function.update_of_ne hother.symm]
              rcases run_of_sends hsends hnext hqueue hrun with
                ⟨_, heq⟩ | ⟨_, hnow | hlater⟩ | ⟨_, hnow, _⟩
              · exact absurd heq.symm hself
              · exact absurd hnow hopen
              · exact hlater
              · exact absurd hnow hopen
  | both _ hclosed => exact absurd (hclosed side) hself

/-- The verdict on the next frame: a side that ended the request does not know
it any more, and another side can follow. -/
theorem Link.head (hlink : Link status queue ended) {rest : List Frame}
    (hqueue : queue side = frame :: rest) :
    if ended side then status side = .closed
    else ∃ next, (status side).next frame = some next := by
  cases hlink with
  | agree p hnone hempty hrun _ =>
      rw [hnone side]
      rcases side.eq_or_eq_other p with rfl | rfl
      · rw [hempty] at hqueue
        cases hqueue
      · rw [Side.other_other, hqueue] at hrun
        obtain ⟨next, hnext, _⟩ := FlowStatus.run_cons_inv hrun
        exact ⟨next, hnext⟩
  | cut p hp hpother hclosed hrun =>
      rcases side.eq_or_eq_other p with rfl | rfl
      · rw [hp]
        exact hclosed
      · rw [Side.other_other] at hrun hpother
        rw [hqueue] at hrun
        rw [hpother]
        obtain ⟨next, hnext, _⟩ := FlowStatus.run_cons_inv hrun
        exact ⟨next, hnext⟩
  | both hended hclosed =>
      rw [hended side]
      exact hclosed side

/-- A side receives a frame that its status accepts. -/
theorem Link.receive (hlink : Link status queue ended) {rest : List Frame}
    (hqueue : queue side = frame :: rest) (hnext : (status side).next frame = some next) :
    Link (Function.update status side next) (Function.update queue side rest) ended := by
  have hother := side.other_ne
  have hself : status side ≠ .closed := by
    intro hclosed
    rw [hclosed] at hnext
    cases hnext
  have hrest : ∀ {last}, (status side).run (queue side) = some last →
      (Function.update status side next side).run (Function.update queue side rest side)
        = some last := by
    intro last hrun
    rw [hqueue, FlowStatus.run_cons hnext] at hrun
    rw [Function.update_self, Function.update_self]
    exact hrun
  cases hlink with
  | agree p hnone hempty hrun hopen =>
      rcases side.eq_or_eq_other p with rfl | rfl
      · rw [hempty] at hqueue
        cases hqueue
      · rw [Side.other_other] at hrun
        refine .agree side.other hnone ?_ ?_ ?_
        · rw [Function.update_of_ne hother, hempty]
        · rw [Side.other_other, Function.update_of_ne hother]
          exact hrest hrun
        · rw [Function.update_of_ne hother]
          exact hopen
  | cut p hp hpother hclosed hrun =>
      rcases side.eq_or_eq_other p with rfl | rfl
      · exact absurd hclosed hself
      · rw [Side.other_other] at hrun
        refine .cut side.other hp hpother ?_ ?_
        · rw [Function.update_of_ne hother, hclosed]
        · rw [Side.other_other]
          exact hrest hrun
  | both _ hclosed => exact absurd (hclosed side) hself

/-- A frame that closes the request comes from a side that has closed it. -/
theorem Link.closed_of_closes (hlink : Link status queue ended) {rest : List Frame}
    (hqueue : queue side = frame :: rest) (hnext : (status side).next frame = some .closed) :
    status side.other = .closed := by
  have hself : status side ≠ .closed := by
    intro hclosed
    rw [hclosed] at hnext
    cases hnext
  cases hlink with
  | agree p _ hempty hrun hopen =>
      rcases side.eq_or_eq_other p with rfl | rfl
      · rw [hempty] at hqueue
        cases hqueue
      · rw [Side.other_other, hqueue, FlowStatus.run_cons hnext] at hrun
        exact (FlowStatus.run_closed hrun).2
  | cut p _ _ hclosed _ =>
      rcases side.eq_or_eq_other p with rfl | rfl
      · exact absurd hclosed hself
      · exact hclosed
  | both _ hclosed => exact hclosed side.other

/-- A side that ended the request drops a late frame. -/
theorem Link.drop (hlink : Link status queue ended) {rest : List Frame}
    (hended : ended side = true) : Link status (Function.update queue side rest) ended := by
  have hother := side.other_ne
  cases hlink with
  | agree p hnone _ _ _ =>
      rw [hnone side] at hended
      cases hended
  | cut p hp hpother hclosed hrun =>
      rcases side.eq_or_eq_other p with rfl | rfl
      · refine .cut p hp hpother hclosed ?_
        rw [Function.update_of_ne hother]
        exact hrun
      · rw [Side.other_other, hended] at hpother
        cases hpother
  | both hall hclosed => exact .both hall hclosed

end

end Cresix.Relay
