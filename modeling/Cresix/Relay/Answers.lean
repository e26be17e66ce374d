import Cresix.Relay.Bookkeeping
import Cresix.Relay.Fidelity

/-!
# The answers of the connector

A run of the session loop against any relay.  The status of a request only
ever moves forward (`FlowStatus.rank`), and the first frame of an answer moves
it from the place where it awaits its response.  So there is at most one
answer to a request, and none once its cancellation has arrived.
-/

namespace Cresix.Relay

open Rust (Uuid)
open Transition (System Event)

/-! ## The status of a request moves forward -/

/-- How far a request got. -/
def FlowStatus.rank : FlowStatus → Nat
  | .unseen => 0
  | .active (.requestBody _ _) => 1
  | .active .awaitingResponse => 2
  | .active (.responseBody _ _) => 3
  | .closed => 4

theorem FlowStatus.eq_closed {st : FlowStatus} (h : 4 ≤ st.rank) : st = .closed := by
  cases st with
  | unseen => exact absurd h (by decide)
  | closed => rfl
  | active flow => cases flow <;> simp [rank] at h

theorem FlowState.rank_le_next {flow : FlowState} {frame : Frame} {st : FlowStatus}
    (h : flow.next frame = some st) : (FlowStatus.active flow).rank ≤ st.rank := by
  cases frame with
  | control frame =>
      cases frame <;> cases flow <;> simp only [FlowState.next, Option.some.injEq, reduceCtorEq] at h
      all_goals
        subst h
        simp [FlowStatus.rank]
  | body frame =>
      cases hkind : frame.kind <;> cases flow <;>
        simp only [FlowState.next, hkind, reduceCtorEq] at h
      all_goals
        unfold FlowState.nextChunk at h
        split_ifs at h
        cases h
        exact Nat.le_refl _

theorem FlowStatus.rank_le_next {st st' : FlowStatus} {frame : Frame}
    (h : st.next frame = some st') : st.rank ≤ st'.rank := by
  cases st with
  | unseen => exact Nat.zero_le _
  | active flow => exact FlowState.rank_le_next h
  | closed => cases h

namespace RelaySessionState

variable {s s' : RelaySessionState}

/-- No frame moves a request back, accepted or not. -/
theorem rank_le_observe (h : SessionInvariant s) (frame : Frame) (id : Uuid) :
    (s.status id).rank ≤ ((s.observe frame).2.status id).rank := by
  rcases hobs : s.observe frame with ⟨verdict, t⟩
  cases verdict with
  | ok _ =>
      have hacc : Accepted s frame t := .of_observe hobs
      by_cases hid : frame.requestId? = some id
      · exact FlowStatus.rank_le_next (hacc.status_next h hid)
      · exact (congrArg FlowStatus.rank (hacc.status_of_ne hid)).ge
  | error e =>
      cases frame with
      | control frame =>
          obtain rfl := observeControl_error hobs
          exact Nat.le_refl _
      | body frame =>
          rcases observeBody_error hobs with rfl | ⟨bytes, -, -, -, hflow, -, rfl⟩
          · exact Nat.le_refl _
          · by_cases hid : id = frame.requestId
            · subst hid
              rw [status_eq_active_iff.mpr hflow, status_setFlow_self]
              cases frame.kind <;> exact Nat.le_refl _
            · exact (congrArg FlowStatus.rank (status_setFlow_of_ne _ hid)).ge

end RelaySessionState

/-! ## What a step sends -/

namespace ConnectorEnd

variable {codec : ControlCodec} {config : LoadedConfig} {s t : ConnectorEnd}

@[simp] theorem receiveControl_state (config : LoadedConfig) (now : UInt64) (s : ConnectorEnd)
    (frame : RelayControlFrame) : (s.receiveControl config now frame).1.state = s.state := by
  cases frame with
  | requestStart frame =>
      simp only [receiveControl]
      split <;> rfl
  | requestEnd frame =>
      simp only [receiveControl]
      split
      next => rfl
      next =>
        split
        next => rfl
        next => split_ifs <;> rfl
  | cancel frame =>
      simp only [receiveControl]
      split_ifs <;> rfl
  | _ => rfl

theorem receive_state (codec : ControlCodec) (config : LoadedConfig) (now : UInt64)
    (s : ConnectorEnd) (message : Message) :
    (s.receive codec config now message).1.state = s.state ∨
      ∃ frame, (s.receive codec config now message).1.state = (s.state.observe frame).2 := by
  cases message with
  | text text =>
      simp only [receive]
      split
      next => exact .inl rfl
      next frame _ =>
        refine .inr ⟨.control frame, ?_⟩
        simp only [RelaySessionState.observe]
        split
        next state hobs => rw [hobs]; rfl
        next state hobs => rw [hobs, receiveControl_state]
  | binary bytes =>
      simp only [receive]
      split
      next => exact .inl rfl
      next frame _ =>
        refine .inr ⟨.body frame, ?_⟩
        simp only [RelaySessionState.observe]
        split
        next state hobs => rw [hobs]; rfl
        next state hobs =>
          rw [hobs]
          split
          next => rfl
          next => split <;> rfl
  | _ => exact .inl rfl

/-- A step shows the session one frame at most. -/
theorem step_state {a : ConnectorAction} {sent : List Message}
    (h : s.step codec config a = some (t, sent)) :
    t.state = s.state ∨ ∃ frame, t.state = (s.state.observe frame).2 := by
  cases a with
  | receive now message =>
      simp only [step] at h
      split at h
      next =>
        obtain ⟨rfl, -⟩ := Prod.mk.inj (Option.some.inj h)
        exact receive_state codec config now s message
      next => cases h
  | answer id response =>
      simp only [step] at h
      split at h
      next => cases h
      next =>
        cases h
        exact .inl rfl
  | take =>
      simp only [step] at h
      split at h
      next =>
        split at h
        next => cases h
        next =>
          cases h
          exact .inl (takeOutgoing_state _ _ _)
      next => cases h
  | send =>
      simp only [step] at h
      split at h
      next => cases h
      next =>
        split at h
        next => cases h
        next frame rest _ =>
          refine .inr ⟨frame, ?_⟩
          simp only [send] at h
          split at h
          next state hobs =>
            cases h
            rw [hobs]
          next state hobs =>
            rw [hobs]
            split at h <;> (cases h; rfl)

/-- Once the loop has returned it stays so. -/
theorem step_result {a : ConnectorAction} {sent : List Message}
    (h : s.step codec config a = some (t, sent)) (hresult : s.result.isSome) :
    t.result.isSome := by
  have hbusy : ¬ s.Free := fun hfree => by simp [hfree.1] at hresult
  cases a with
  | receive now message => simp [step, hbusy] at h
  | take => simp [step, hbusy] at h
  | send => simp [step, hresult] at h
  | answer id response =>
      simp only [step] at h
      split at h
      next => cases h
      next =>
        cases h
        exact hresult

/-- The frame a step puts on the wire. -/
def sentFrame (e : Event ConnectorEnd ConnectorAction) : Option Frame :=
  match e.label with
  | .send => if e.post.result.isNone then e.pre.outbox.head? else none
  | _ => none

/-- A frame is sent by a running loop whose session accepts it. -/
theorem step_sentFrame {a : ConnectorAction} {sent : List Message} {frame : Frame}
    (h : s.step codec config a = some (t, sent)) (hsent : sentFrame ⟨s, a, t⟩ = some frame) :
    s.result = none ∧ (∃ rest, s.outbox = frame :: rest) ∧ s.state.Accepted frame t.state ∧
      sent = [frame.message codec] := by
  cases a with
  | receive now message => cases hsent
  | answer id response => cases hsent
  | take => cases hsent
  | send =>
      simp only [step] at h
      split at h
      next => cases h
      next hresult =>
        split at h
        next => cases h
        next first rest hnext =>
          simp only [send] at h
          split at h
          next =>
            cases h
            simp [sentFrame] at hsent
          next state hobs =>
            have hacc := RelaySessionState.Accepted.of_observe hobs
            rw [encodeFrame_of_valid codec hacc.valid] at h
            cases h
            have hresult : s.result = none := by simpa using hresult
            obtain rfl : first = frame := by simpa [sentFrame, hresult, hnext] using hsent
            exact ⟨hresult, ⟨rest, hnext⟩, hacc, rfl⟩

/-- The loop answers a message with frames of its outbox only. -/
@[simp] theorem receiveControl_sent (config : LoadedConfig) (now : UInt64) (s : ConnectorEnd)
    (frame : RelayControlFrame) : (s.receiveControl config now frame).2 = [] := by
  cases frame with
  | requestStart frame =>
      simp only [receiveControl]
      split <;> rfl
  | requestEnd frame =>
      simp only [receiveControl]
      split
      next => rfl
      next =>
        split
        next => rfl
        next => split_ifs <;> rfl
  | cancel frame =>
      simp only [receiveControl]
      split_ifs <;> rfl
  | _ => rfl

theorem receive_text_sent (codec : ControlCodec) (config : LoadedConfig) (now : UInt64)
    (s : ConnectorEnd) (text : String) : (s.receive codec config now (.text text)).2 = [] := by
  simp only [receive]
  split
  next => rfl
  next =>
    split
    next => rfl
    next => rw [receiveControl_sent]

theorem receive_binary_sent (codec : ControlCodec) (config : LoadedConfig) (now : UInt64)
    (s : ConnectorEnd) (bytes : List UInt8) :
    (s.receive codec config now (.binary bytes)).2 = [] := by
  simp only [receive]
  split
  next => rfl
  next =>
    split
    next => rfl
    next =>
      split
      next => rfl
      next => split <;> rfl

/-- Apart from the answer to a WebSocket ping, the frames are all it sends. -/
theorem step_sent {a : ConnectorAction} {sent : List Message}
    (h : s.step codec config a = some (t, sent)) (hnone : sentFrame ⟨s, a, t⟩ = none) :
    sent = [] ∨ ∃ now bytes, a = .receive now (.ping bytes) ∧ sent = [.pong bytes] := by
  cases a with
  | receive now message =>
      simp only [step] at h
      split at h
      next =>
        have hsent := (congrArg Prod.snd (Option.some.inj h)).symm
        cases message with
        | text text => exact .inl (hsent.trans (receive_text_sent codec config now s text))
        | binary bytes => exact .inl (hsent.trans (receive_binary_sent codec config now s bytes))
        | ping bytes => exact .inr ⟨now, bytes, rfl, hsent⟩
        | pong bytes => exact .inl hsent
        | close => exact .inl hsent
      next => cases h
  | answer id response =>
      simp only [step] at h
      split at h <;> cases h
      exact .inl rfl
  | take =>
      simp only [step] at h
      split at h
      next =>
        split at h <;> cases h
        exact .inl rfl
      next => cases h
  | send =>
      simp only [step] at h
      split at h
      next => cases h
      next hresult =>
        split at h
        next => cases h
        next first rest hnext =>
          simp only [send] at h
          split at h
          next =>
            cases h
            exact .inl rfl
          next =>
            split at h
            next =>
              cases h
              exact .inl rfl
            next =>
              cases h
              have hresult : s.result = none := by simpa using hresult
              simp [sentFrame, hresult, hnext] at hnone

/-! ## One answer at most -/

end ConnectorEnd

/-- A frame that opens the answer to a request. -/
def Frame.answers (id : Uuid) : Frame → Bool
  | .control (.responseStart frame) => frame.requestId = id
  | .control (.requestFailed frame) => frame.requestId = id
  | _ => false

theorem Frame.requestId?_of_answers {id : Uuid} {frame : Frame} (h : frame.answers id = true) :
    frame.requestId? = some id := by
  cases frame with
  | body frame => cases h
  | control frame =>
      cases frame with
      | responseStart frame => exact congrArg some (of_decide_eq_true h)
      | requestFailed frame => exact congrArg some (of_decide_eq_true h)
      | _ => cases h

namespace ConnectorEnd

variable {codec : ControlCodec} {config : LoadedConfig} {s t : ConnectorEnd}

/-- An answer opens while its request awaits it. -/
theorem Agrees.status_of_answers {phase : Phase} {id : Uuid} {frame : Frame} {rest : List Frame}
    (h : Agrees s phase) (hnext : s.outbox = frame :: rest) (hanswers : frame.answers id = true) :
    s.state.status id = .active .awaitingResponse := by
  have hsends := h.sends
  rw [hnext] at hsends
  generalize hframes : frame :: rest = frames at hsends
  suffices hphase : phase = .opening id from
    RelaySessionState.status_eq_active_iff.mpr ((h.awaiting id).mpr (.inr hphase))
  cases hsends with
  | nothing => cases hframes
  | pong ping =>
      cases hframes
      cases hanswers
  | failure failed =>
      cases hframes
      exact congrArg Phase.opening (of_decide_eq_true hanswers)
  | response other response =>
      cases hframes
      exact congrArg Phase.opening (of_decide_eq_true hanswers)
  | rest other chunks hchunks =>
      cases chunks with
      | nil =>
          cases hframes
          cases hanswers
      | cons first chunks =>
          cases hframes
          obtain ⟨chunk, rfl, -, -⟩ := hchunks _ List.mem_cons_self
          cases hanswers

/-- And then it does not await it any more. -/
theorem rank_of_answers {state state' : RelaySessionState} {id : Uuid} {frame : Frame}
    (hinv : RelaySessionState.SessionInvariant state) (hacc : state.Accepted frame state')
    (hawaiting : state.status id = .active .awaitingResponse) (hanswers : frame.answers id = true) :
    3 ≤ (state'.status id).rank := by
  have hnext := hacc.status_next hinv (Frame.requestId?_of_answers hanswers)
  rw [hawaiting] at hnext
  cases frame with
  | body frame => cases hanswers
  | control frame =>
      cases frame with
      | responseStart frame =>
          obtain hstatus := Option.some.inj hnext
          rw [← hstatus]
          exact Nat.le_refl 3
      | requestFailed frame =>
          obtain hstatus := Option.some.inj hnext
          rw [← hstatus]
          decide
      | _ => cases hanswers

/-- The frames a run sent that open an answer to the request. -/
def answersTo (id : Uuid) (tr : List (Event ConnectorEnd ConnectorAction)) : List Frame :=
  (tr.filterMap sentFrame).filter (·.answers id)

theorem answersTo_snoc (id : Uuid) (tr : List (Event ConnectorEnd ConnectorAction))
    (e : Event ConnectorEnd ConnectorAction) :
    answersTo id (tr ++ [e]) =
      answersTo id tr ++ (sentFrame e).toList.filter (·.answers id) := by
  unfold answersTo
  rw [List.filterMap_append, List.filter_append]
  cases hsent : sentFrame e with
  | none => simp [hsent]
  | some frame => simp [hsent]

/-- The step brings the cancellation of the request. -/
def Cancels (codec : ControlCodec) (id : Uuid) (e : Event ConnectorEnd ConnectorAction) : Prop :=
  ∃ now text, e.label = .receive now (.text text) ∧
    decodeControl codec text = .ok (.cancel ⟨id⟩)

/-- A cancelled request is closed, or the loop is over. -/
theorem closed_of_cancels {e : Event ConnectorEnd ConnectorAction} {id : Uuid}
    {sent : List Message} (hsession : RelaySessionState.SessionInvariant e.pre.state)
    (hcancels : Cancels codec id e) (h : e.pre.step codec config e.label = some (e.post, sent)) :
    e.post.result.isSome ∨ e.post.state.status id = .closed := by
  obtain ⟨now, text, hlabel, hdecode⟩ := hcancels
  rw [hlabel] at h
  simp only [step] at h
  split at h
  next =>
    simp only [receive, hdecode] at h
    split at h
    next =>
      left
      rw [← (Prod.mk.inj (Option.some.inj h)).1]
      rfl
    next state hobs =>
      right
      have hacc : e.pre.state.Accepted (.control (.cancel ⟨id⟩)) state := .of_observe hobs
      have hnext := hacc.status_next hsession rfl
      have hpost : (receiveControl config now { e.pre with state } (.cancel ⟨id⟩)).1.state =
          e.post.state := congrArg (·.1.state) (Option.some.inj h)
      rw [← hpost, receiveControl_state]
      cases hstatus : e.pre.state.status id with
      | unseen =>
          rw [hstatus] at hnext
          cases hnext
      | active flow =>
          rw [hstatus] at hnext
          exact (Option.some.inj hnext).symm
      | closed =>
          rw [hstatus] at hnext
          cases hnext
  next => cases h

/-! ## Runs -/

theorem of_system_step {a : ConnectorAction} (h : (system codec config).step s a t) :
    ∃ sent, s.step codec config a = some (t, sent) := by
  obtain ⟨⟨t', sent⟩, hstep, rfl⟩ := Option.map_eq_some_iff.mp h
  exact ⟨sent, hstep⟩

theorem bookkeeping_of_run {tr : List (Event ConnectorEnd ConnectorAction)}
    (hrun : (system codec config).Run s tr t) (hs : Bookkeeping config s) :
    Bookkeeping config t := by
  refine hrun.invariant (I := Bookkeeping config) ?_ hs
  intro s a t hs hst
  obtain ⟨sent, hstep⟩ := of_system_step hst
  exact hs.step hstep

theorem rank_le_step {a : ConnectorAction} {sent : List Message} (id : Uuid)
    (hsession : RelaySessionState.SessionInvariant s.state)
    (h : s.step codec config a = some (t, sent)) :
    (s.state.status id).rank ≤ (t.state.status id).rank := by
  rcases step_state h with heq | ⟨frame, heq⟩
  · rw [heq]
  · rw [heq]
    exact RelaySessionState.rank_le_observe hsession frame id

/-- An answer is sent at most once, and not before its request awaits it. -/
theorem answersTo_le {tr : List (Event ConnectorEnd ConnectorAction)}
    (hrun : (system codec config).Run s tr t) (hs : Bookkeeping config s) (id : Uuid) :
    (answersTo id tr).length ≤ 1 ∧ ((t.state.status id).rank < 3 → answersTo id tr = []) := by
  refine hrun.history
    (I := fun tr t => (answersTo id tr).length ≤ 1 ∧
      ((t.state.status id).rank < 3 → answersTo id tr = [])) ⟨Nat.zero_le _, fun _ => rfl⟩ ?_
  rintro tr t a u hprefix ⟨hle, hnone⟩ hst
  have hbook := bookkeeping_of_run hprefix hs
  obtain ⟨sent, hstep⟩ := of_system_step hst
  have hrank := rank_le_step id hbook.session hstep
  rw [answersTo_snoc]
  cases hsent : sentFrame ⟨t, a, u⟩ with
  | none => simpa using ⟨hle, fun hlt => hnone (hrank.trans_lt hlt)⟩
  | some frame =>
      cases hanswers : frame.answers id with
      | false => simpa [hanswers] using ⟨hle, fun hlt => hnone (hrank.trans_lt hlt)⟩
      | true =>
          obtain ⟨hresult, ⟨rest, hnext⟩, hacc, -⟩ := step_sentFrame hstep hsent
          obtain ⟨phase, hagrees⟩ := hbook.agrees hresult
          have hawaiting := hagrees.status_of_answers hnext hanswers
          have hopen := rank_of_answers hbook.session hacc hawaiting hanswers
          have hnil : answersTo id tr = [] := hnone (by rw [hawaiting]; decide)
          refine ⟨by simp [hnil, hanswers], fun hlt => ?_⟩
          exact absurd hopen (Nat.not_le.mpr hlt)

/-- Nothing is sent for a request that is closed. -/
theorem silent_of_closed {tr : List (Event ConnectorEnd ConnectorAction)} {id : Uuid}
    (hrun : (system codec config).Run s tr t) (hs : Bookkeeping config s)
    (hclosed : s.result.isSome ∨ s.state.status id = .closed) :
    ∀ e ∈ tr, ∀ frame, sentFrame e = some frame → frame.requestId? ≠ some id := by
  intro e he frame hsent hid
  obtain ⟨before, after, -, hbefore, hst, -⟩ := hrun.split he
  have hpre : Bookkeeping config e.pre ∧
      (e.pre.result.isSome ∨ e.pre.state.status id = .closed) := by
    refine hbefore.invariant (I := fun s => Bookkeeping config s ∧
      (s.result.isSome ∨ s.state.status id = .closed)) ?_ ⟨hs, hclosed⟩
    rintro s a t ⟨hs, hclosed⟩ hst
    obtain ⟨sent, hstep⟩ := of_system_step hst
    refine ⟨hs.step hstep, ?_⟩
    rcases hclosed with hresult | hstatus
    · exact .inl (step_result hstep hresult)
    · have hrank := rank_le_step id hs.session hstep
      rw [hstatus] at hrank
      exact .inr (FlowStatus.eq_closed hrank)
  obtain ⟨sent, hstep⟩ := of_system_step hst
  obtain ⟨hresult, -, hacc, -⟩ := step_sentFrame hstep hsent
  have hstatus : e.pre.state.status id = .closed :=
    hpre.2.resolve_left (by simp [hresult])
  have hnext := hacc.status_next hpre.1.session hid
  rw [hstatus] at hnext
  cases hnext

end ConnectorEnd

open ConnectorEnd in
/-- The sets of the connector follow its session, and each request is answered
at most once, and not after it was cancelled. -/
theorem connector_bookkeeping {codec : ControlCodec} {config : LoadedConfig} {s t : ConnectorEnd}
    {tr : List (Event ConnectorEnd ConnectorAction)} (hstart : s.Connected)
    (hrun : (ConnectorEnd.system codec config).Run s tr t) :
    (t.Free →
      (∀ id, id ∈ t.pending ↔ ∃ n bytes, t.state.flows.lookup id = some (.requestBody n bytes)) ∧
      (∀ id, id ∈ t.active ∧ id ∉ t.cancelled ↔
        t.state.flows.lookup id = some .awaitingResponse) ∧
      t.cancelled ⊆ t.active ∧
      (∀ frame state, t.state.observeControl (.requestStart frame) = (.ok (), state) →
        frame.requestId ∉ t.pending) ∧
      (∀ frame state, t.state.observeControl (.requestEnd frame) = (.ok (), state) →
        frame.requestId ∈ t.pending) ∧
      ∀ frame state, t.state.observeBody frame = (.ok (), state) → frame.kind = .requestChunk →
        frame.requestId ∈ t.pending) ∧
    t.upstream.length ≤ config.maxInFlight ∧
    (∀ before e after id, tr = before ++ e :: after → Cancels codec id e →
      ∀ e' ∈ after, ∀ frame, sentFrame e' = some frame → frame.requestId? ≠ some id) ∧
    ∀ id, (answersTo id tr).length ≤ 1 := by
  have hs : Bookkeeping config s := bookkeeping_start hstart
  have ht : Bookkeeping config t := bookkeeping_of_run hrun hs
  refine ⟨fun hfree => ?_, ?_, ?_, fun id => (answersTo_le hrun hs id).1⟩
  · have hagrees := ht.free hfree
    refine ⟨hagrees.pending, fun id => ?_, hagrees.cancelled, ?_, ?_, ?_⟩
    · simpa using (hagrees.awaiting id).symm
    · intro frame state hobs
      exact hagrees.start_new ht.session.keys_seen (.of_observe hobs)
    · intro frame state hobs
      exact (hagrees.end_pending (.of_observe hobs)).1
    · intro frame state hobs hkind
      obtain ⟨request, hrequest, -⟩ := hagrees.chunk hkind (.of_observe hobs)
      exact Finmap.mem_of_lookup_eq_some hrequest
  · have hlength : t.tasks.toFinset.card = t.tasks.length :=
      List.toFinset_card_of_nodup ht.tasks.nodup
    have hactive : t.tasks.toFinset = t.active := by
      ext id
      rw [List.mem_toFinset, ht.tasks.active]
    have htasks : t.tasks.length = t.upstream.length + t.outgoing.length := by
      simp [ConnectorEnd.tasks]
    have hroom := ht.tasks.room
    rw [hactive] at hlength
    omega
  · rintro before e after id rfl hcancels
    obtain ⟨hbefore, hst, hafter⟩ := hrun.split_at
    obtain ⟨sent, hstep⟩ := of_system_step hst
    have hpre := bookkeeping_of_run hbefore hs
    exact silent_of_closed hafter (hpre.step hstep)
      (closed_of_cancels hpre.session hcancels hstep)

/-! ### A run -/

/-- The handshake with a test token. -/
theorem connected_ready : (ConnectorEnd.idle .ready).Connected :=
  ⟨⟨1, RelaySessionState.testToken⟩, ⟨0, 1, 1, 65536⟩, ⟨.awaitingReady, ∅, ∅⟩, .ready,
    by decide, by decide, rfl⟩

/-- A request is received, executed and answered. -/
def postSteps : List ConnectorAction :=
  [.receive 0 (.text (Tunnel.postCodec.toString (.requestStart Tunnel.postStart))),
    .receive 0 (.text (Tunnel.postCodec.toString (.requestEnd ⟨0⟩))),
    .answer 0 (.ok ⟨200, [], []⟩), .take, .send, .send]

theorem connector_bookkeeping_post : ∃ tr t,
    (ConnectorEnd.system Tunnel.postCodec ⟨1, by decide⟩).Run (.idle .ready) tr t ∧
    ConnectorEnd.answersTo 0 tr = [.control (.responseStart ⟨0, 200, []⟩)] ∧
    t.upstream.length ≤ 1 ∧ (ConnectorEnd.answersTo 0 tr).length ≤ 1 := by
  obtain ⟨t, hrun⟩ := @System.Run.events _ _ ConnectorEnd.Connected
    (fun s a => (s.step Tunnel.postCodec ⟨1, by decide⟩ a).map Prod.fst)
    (.idle .ready) postSteps (by decide +kernel)
  obtain ⟨-, hupstream, -, hanswers⟩ := connector_bookkeeping connected_ready hrun
  exact ⟨_, t, hrun, by decide +kernel, hupstream, hanswers 0⟩

end Cresix.Relay
