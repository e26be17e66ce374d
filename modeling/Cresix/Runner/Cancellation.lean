import Cresix.Runner.Idempotency

/-!
# Cancelling a run

A request to cancel looks for the run in the map of active runs and then in
the store, and the handler that executes the run leaves the map before it
enters the store.  `Claimed` says whose entry is in the map at any time.  Two
laws fail in the gaps.  A cancellation that is sent to a run whose outcome is
settled does not change it, and `Undecided` rules that out.  A run that has left
the map and is not saved yet is found nowhere, and `LoadsSaved` rules that out.
-/

namespace Cresix.Runner

open Rust (Uuid)
open Transition (System Event)

/-- The request a handler has in the map of active runs. -/
def Handler.holding : Handler → Option ExecutionRequest
  | .poll execution => some execution
  | .run execution _ => some execution
  | .remove execution _ _ => some execution
  | _ => none

/-- The handler a piece belongs to. -/
def Action.handler : Action → HandlerId
  | .call h _ => h
  | .load h => h
  | .check h => h
  | .poll h _ => h
  | .wake h _ => h
  | .remove h _ => h
  | .save h => h
  | .inspect h => h
  | .cancel h => h
  | .cancelLoad h => h

namespace RunnerService

variable {runId : Uuid} {s t : RunnerService} {a : Action}

/-! ## What a step leaves alone -/

theorem Step.other {h : HandlerId} (hstep : Step s a t) (hne : h ≠ a.handler) :
    t.handlers h = s.handlers h := by
  cases hstep
  all_goals exact Function.update_of_ne hne ..

theorem Step.cancelSent {h : HandlerId} (hstep : Step s a t) (hsent : s.cancelSent h = true) :
    t.cancelSent h = true := by
  cases hstep with
  | cancel _ _ =>
      simp only [Function.update_apply]
      split
      next => rfl
      next => exact hsent
  | _ => exact hsent

/-- A handler that has answered stays where it is. -/
theorem Step.returned {h : HandlerId} {command : RunnerCommand} {body : ResponseBody}
    (hstep : Step s a t) (hh : s.handlers h = .returned command body) :
    t.handlers h = .returned command body := by
  rcases eq_or_ne h a.handler with rfl | hne
  · cases hstep with
    | call hp | load hp | remove hp | save hp | inspect hp | cancelLoad hp =>
        cases hp.symm.trans hh
    | conflict hp _ | claim hp _ | skip hp _ | start hp _ | abort hp _ | finish hp _
      | cancel hp _ | cancelMiss hp _ => cases hp.symm.trans hh
  · rw [hstep.other hne, hh]

/-! ## Whose entry is in the map -/

/-- The entries of the map of active runs are those of the handlers between
their claim and their removal. -/
def Claimed (s : RunnerService) : Prop :=
  ∀ runId run, s.active runId = some run ↔
    (s.handlers run.cancel).holding = some run.request ∧ run.request.runId = runId

theorem Claimed.new (store : Uuid → Option RunRecord) : Claimed (new store) := by
  intro runId run
  simp [RunnerService.new, Handler.holding]

/-- A handler that moves without claiming or removing. -/
theorem Claimed.move {h : HandlerId} {next : Handler} (hclaimed : Claimed s)
    (hhandlers : t.handlers = Function.update s.handlers h next) (hactive : t.active = s.active)
    (hholding : next.holding = (s.handlers h).holding) : Claimed t := by
  intro runId run
  rw [hactive, hclaimed, hhandlers, Function.update_apply]
  split
  next heq => rw [hholding, heq]
  next => rfl

theorem receive_holding (command : RunnerCommand) : (receive command).holding = none := by
  cases command with
  | execute execution =>
      simp only [receive]
      split
      next => rfl
      next => rfl
  | _ => rfl

theorem afterLoad_holding (execution : ExecutionRequest) (loaded : Option RunRecord) :
    (afterLoad execution loaded).holding = none := by
  cases loaded with
  | none => rfl
  | some record =>
      simp only [afterLoad]
      split
      next => rfl
      next => rfl

theorem Claimed.claim {h : HandlerId} {execution : ExecutionRequest} (hclaimed : Claimed s)
    (hh : s.handlers h = .check execution) (hactive : s.active execution.runId = none) :
    Claimed { s.goto h (.poll execution) with
      active := Function.update s.active execution.runId (some ⟨execution, h⟩) } := by
  intro runId run
  simp only [goto, Function.update_apply]
  rcases eq_or_ne run.cancel h with hown | hother
  · rw [if_pos hown]
    have hnone : s.active runId ≠ some run := by
      intro hsome
      have hheld := ((hclaimed runId run).mp hsome).1
      rw [hown, hh] at hheld
      cases hheld
    obtain ⟨request, cancel⟩ := run
    cases hown
    by_cases hid : runId = execution.runId
    · rw [if_pos hid, hid]
      simp only [Option.some.injEq, ActiveRun.mk.injEq, and_true, Handler.holding]
      exact ⟨fun heq => ⟨heq, by rw [heq]⟩, fun heq => heq.1⟩
    · rw [if_neg hid]
      refine iff_of_false hnone fun hheld => hid ?_
      obtain ⟨heq, hrun⟩ := hheld
      cases heq
      exact hrun.symm
  · rw [if_neg hother, ← hclaimed]
    split
    next hid =>
      rw [hid, hactive]
      refine iff_of_false (fun heq => hother ?_) fun heq => ?_
      · cases heq
        rfl
      · cases heq
    next => exact Iff.rfl

theorem Claimed.remove {h : HandlerId} {execution : ExecutionRequest} {startedAtMs : Int}
    {outcome : RunOutcome} {record : RunRecord} (hclaimed : Claimed s)
    (hh : s.handlers h = .remove execution startedAtMs outcome) :
    Claimed { s.goto h (.save record) with
      active := Function.update s.active execution.runId none } := by
  have hown : s.active execution.runId = some ⟨execution, h⟩ :=
    (hclaimed _ ⟨execution, h⟩).mpr ⟨by rw [hh]; rfl, rfl⟩
  intro runId run
  simp only [goto, Function.update_apply]
  rcases eq_or_ne run.cancel h with heq | hother
  · rw [if_pos heq]
    refine iff_of_false (fun hsome => ?_) fun hheld => by cases hheld.1
    split at hsome
    next => cases hsome
    next hid =>
      obtain ⟨hheld, hrun⟩ := (hclaimed runId run).mp hsome
      rw [heq, hh] at hheld
      cases hheld
      exact hid hrun.symm
  · rw [if_neg hother, ← hclaimed]
    split
    next hid =>
      rw [hid, hown]
      refine iff_of_false (fun heq => ?_) fun hsome => hother ?_
      · cases heq
      · cases hsome
        rfl
    next => exact Iff.rfl

theorem Claimed.step (hclaimed : Claimed s) (hstep : Step s a t) : Claimed t := by
  cases hstep with
  | call hh => exact hclaimed.move rfl rfl (by rw [hh]; exact receive_holding _)
  | load hh => exact hclaimed.move rfl rfl (by rw [hh]; exact afterLoad_holding _ _)
  | claim hh hactive => exact hclaimed.claim hh hactive
  | remove hh => exact hclaimed.remove hh
  | conflict hh _ | skip hh _ | start hh _ | abort hh _ | finish hh _ | cancel hh _
    | cancelMiss hh _ => exact hclaimed.move rfl rfl (by rw [hh]; rfl)
  | save hh | inspect hh | cancelLoad hh => exact hclaimed.move rfl rfl (by rw [hh]; rfl)

end RunnerService

/-! ## A cancellation is honoured -/

/-- A handler that executes the request ends it as cancelled: it will see the
cancellation that was sent, or it has. -/
def Handler.Cancelling (execution : ExecutionRequest) (sent : Bool) : Handler → Prop
  | .poll asked => asked = execution ∧ sent = true
  | .run asked _ => asked = execution ∧ sent = true
  | .remove asked _ outcome => asked = execution ∧ outcome = .cancelled
  | .save record => record.request = execution ∧ record.status = .cancelled
  | .returned _ (.finished record) => record.request = execution ∧ record.status = .cancelled
  | _ => False

/-- The run identifier whose entry the step looks up to cancel it. -/
def Action.cancels (s : RunnerService) : Action → Option Uuid
  | .cancel h => match s.handlers h with
      | .cancel runId => some runId
      | _ => none
  | _ => none

namespace RunnerService

variable {runId : Uuid} {s t : RunnerService} {a : Action}

/-- The handler whose entry is in the map has left its `select!` with another
outcome than a cancellation. -/
def decided (s : RunnerService) (runId : Uuid) : Bool :=
  match s.active runId with
  | some run => match s.handlers run.cancel with
      | .remove _ _ outcome => outcome ≠ .cancelled
      | _ => false
  | none => false

/-- A request to cancel the run finds its outcome open. -/
def Undecided (runId : Uuid) (s : RunnerService) (a : Action) (_ : RunnerService) : Prop :=
  a.cancels s = some runId → s.decided runId = false

/-- In the step a request to cancel the run is acknowledged, the run not being
over. -/
def Acknowledges (runId : Uuid) (e : Event RunnerService Action) (h : HandlerId) : Prop :=
  e.pre.handlers h ≠ e.post.handlers h ∧
    e.post.handlers h = .returned (.cancel runId) (.cancelAcknowledged false)

/-- Whenever a request to cancel a run is acknowledged and the run is not over,
the run it finds is stored and answered as cancelled. -/
def CancellationHonoured (runId : Uuid) (tr : List (Event RunnerService Action)) : Prop :=
  ∀ e ∈ tr, ∀ h, Acknowledges runId e h → ∃ run, e.pre.active runId = some run ∧
    ∀ e' ∈ tr, ∀ execution record, Answers e' run.cancel execution (.finished record) →
      record.request = run.request ∧ record.status = .cancelled ∧
        e'.post.store runId = some record

/-- What a step does to a cancellation that was sent. -/
theorem Step.cancelling {h : HandlerId} {execution : ExecutionRequest} (hstep : Step s a t)
    (hc : (s.handlers h).Cancelling execution (s.cancelSent h)) :
    (t.handlers h).Cancelling execution (t.cancelSent h) := by
  rcases eq_or_ne h a.handler with rfl | hne
  · cases hstep with
    | call hh | load hh | inspect hh | cancelLoad hh =>
        simp [Handler.Cancelling, Action.handler, hh] at hc
    | conflict hh _ | claim hh _ | cancel hh _ | cancelMiss hh _ =>
        simp [Handler.Cancelling, Action.handler, hh] at hc
    | skip hh _ | abort hh _ =>
        simp only [Handler.Cancelling, Action.handler, hh] at hc
        simp [Handler.Cancelling, Action.handler, goto, hc.1]
    | start hh hchanged | finish hh hchanged =>
        -- the `select!` sees what was sent
        simp only [Handler.Cancelling, Action.handler, hh] at hc
        simp [cancellationChanged, hc.2] at hchanged
    | remove hh =>
        simp only [Handler.Cancelling, Action.handler, hh] at hc
        simp [Handler.Cancelling, Action.handler, goto, hc.1, hc.2, buildRecord]
    | save hh =>
        simp only [Handler.Cancelling, Action.handler, hh] at hc
        simpa [Handler.Cancelling, Action.handler, goto] using hc
  · rw [hstep.other hne]
    generalize s.handlers h = handler at hc
    cases handler with
    | poll | run => exact ⟨hc.1, hstep.cancelSent hc.2⟩
    | returned _ body =>
        cases body with
        | _ => exact hc
    | _ => exact hc

/-- A step that acknowledges a cancellation sends it. -/
theorem Step.acknowledges {h : HandlerId} (hstep : Step s a t)
    (hack : Acknowledges runId ⟨s, a, t⟩ h) : ∃ run, a = .cancel h ∧
      s.handlers h = .cancel runId ∧ s.active runId = some run ∧ t.cancelSent run.cancel = true := by
  obtain ⟨hne, hpost⟩ := hack
  have hmoved : h = a.handler := by
    by_contra hother
    exact hne (hstep.other hother).symm
  subst hmoved
  dsimp only at hpost
  cases hstep with
  | @call h command hh =>
      simp only [Action.handler, goto, Function.update_self] at hpost
      cases command with
      | execute execution =>
          simp only [receive] at hpost
          split at hpost <;> cases hpost
      | _ => cases hpost
  | @load h execution hh =>
      simp only [Action.handler, goto, Function.update_self] at hpost
      generalize s.store execution.runId = loaded at hpost
      cases loaded with
      | none => cases hpost
      | some record =>
          simp only [afterLoad] at hpost
          split at hpost <;> cases hpost
  | @cancelLoad h asked hh =>
      simp only [Action.handler, goto, Function.update_self] at hpost
      generalize s.store asked = loaded at hpost
      cases loaded with
      | none => cases hpost
      | some record => cases hpost
  | @cancel h asked run hh hactive =>
      simp only [Action.handler, goto, Function.update_self] at hpost
      cases hpost
      exact ⟨run, rfl, hh, hactive, Function.update_self ..⟩
  | conflict | claim | skip | start | abort | finish | remove | save | inspect | cancelMiss =>
      simp only [Action.handler, goto, Function.update_self] at hpost
      cases hpost

/-- What holds after any run in which the outcome of the run is open whenever
it is cancelled. -/
structure Honours (runId : Uuid) (tr : List (Event RunnerService Action)) (s : RunnerService) :
    Prop where
  claimed : Claimed s
  /-- A request that was answered keeps its answer. -/
  answered : ∀ e ∈ tr, ∀ h execution record, Answers e h execution (.finished record) →
    s.handlers h = .returned (.execute execution) (.finished record) ∧
      record.request = execution ∧ e.post.store execution.runId = some record
  /-- A run whose cancellation was acknowledged ends as cancelled. -/
  cancelling : ∀ e ∈ tr, ∀ h, Acknowledges runId e h → ∃ run, e.pre.active runId = some run ∧
    run.request.runId = runId ∧
    (s.handlers run.cancel).Cancelling run.request (s.cancelSent run.cancel)

theorem Honours.new (store : Uuid → Option RunRecord) : Honours runId [] (new store) :=
  ⟨.new store, by simp, by simp⟩

theorem Honours.law {tr : List (Event RunnerService Action)} (h : Honours runId tr s) :
    CancellationHonoured runId tr := by
  intro e he hc hack
  obtain ⟨run, hactive, hrun, hcancelling⟩ := h.cancelling e he hc hack
  refine ⟨run, hactive, ?_⟩
  intro e' he' execution record hanswer
  obtain ⟨hreturned, hrequest, hstore⟩ := h.answered e' he' _ _ _ hanswer
  rw [hreturned] at hcancelling
  obtain ⟨heq, hstatus⟩ := hcancelling
  refine ⟨heq, hstatus, ?_⟩
  rw [← hrun, ← heq, hrequest]
  exact hstore

/-- The handler whose entry a cancellation finds ends as cancelled, unless its
outcome is settled. -/
theorem Claimed.cancelling {run : ActiveRun} (hclaimed : Claimed s)
    (hactive : s.active runId = some run) (hopen : s.decided runId = false) :
    run.request.runId = runId ∧ (s.handlers run.cancel).Cancelling run.request true := by
  obtain ⟨hholding, hrun⟩ := (hclaimed runId run).mp hactive
  refine ⟨hrun, ?_⟩
  simp only [decided, hactive] at hopen
  generalize s.handlers run.cancel = handler at hholding hopen
  cases handler with
  | poll | run => exact ⟨Option.some.inj hholding, rfl⟩
  | remove _ _ outcome => exact ⟨Option.some.inj hholding, by simpa using hopen⟩
  | _ => cases hholding

theorem Honours.step {tr : List (Event RunnerService Action)} (h : Honours runId tr s)
    (hstep : Step s a t) (hopen : Undecided runId s a t) :
    Honours runId (tr ++ [⟨s, a, t⟩]) t := by
  refine ⟨h.claimed.step hstep, ?_, ?_⟩
  · refine Transition.forall_mem_snoc ?_ ?_
    · intro e hold hh execution record hanswer
      obtain ⟨hreturned, hrest⟩ := h.answered e hold hh execution record hanswer
      exact ⟨hstep.returned hreturned, hrest⟩
    · intro hh execution record hanswer
      refine ⟨hanswer.2, ?_⟩
      generalize hbody : ResponseBody.finished record = body at hanswer
      cases hstep.reply hanswer with
      | replay hload hstore heq =>
          cases hbody
          cases hstep with
          | save hsave =>
              obtain ⟨rfl, -⟩ := hanswer.moved rfl
              cases hload.symm.trans hsave
          | _ => exact ⟨heq, hstore⟩
      | finished _ heq hstore =>
          cases hbody
          exact ⟨heq, hstore⟩
      | _ => cases hbody
  · refine Transition.forall_mem_snoc ?_ ?_
    · intro e hold hc hack
      obtain ⟨run, hactive, hrun, hcancelling⟩ := h.cancelling e hold hc hack
      exact ⟨run, hactive, hrun, hstep.cancelling hcancelling⟩
    · intro hc hack
      obtain ⟨run, rfl, hh, hactive, hsent⟩ := hstep.acknowledges hack
      have hfree : s.decided runId = false := hopen (by simp [Action.cancels, hh])
      obtain ⟨hrun, hcancelling⟩ := h.claimed.cancelling hactive hfree
      have hother : run.cancel ≠ hc := by
        intro heq
        rw [heq, hh] at hcancelling
        exact hcancelling
      refine ⟨run, hactive, hrun, ?_⟩
      rw [hstep.other hother, hsent]
      exact hcancelling

/-- In every run of the service in which a request to cancel finds the outcome
of the run open, an acknowledged cancellation is honoured. -/
theorem cancellation_honoured_of_undecided {tr : List (Event RunnerService Action)}
    (hstart : service.start s) (hrun : (service.restrict (Undecided runId)).Run s tr t) :
    CancellationHonoured runId tr := by
  obtain ⟨store, rfl⟩ := hstart
  have hhonours : Honours runId tr t := by
    refine hrun.history (I := Honours runId) (.new store) ?_
    intro tr u a v _ hhonours hstep
    exact hhonours.step (.of_step hstep.1) hstep.2
  exact hhonours.law

/-- A handler that takes the request to the start of its backend. -/
def startRun (h : HandlerId) (now : Int) : List Action :=
  [.call h (.execute printOk), .load h, .check h, .poll h now]

/-- A run is cancelled while its backend works. -/
def cancelledInTime : List Action :=
  startRun 0 10 ++ [.call 1 (.cancel 1), .cancel 1, .wake 0 (some (.output ⟨0, "ok", ""⟩)),
    .remove 0 11, .save 0]

theorem cancellation_honoured_in_time : ∃ t,
    (service.restrict (Undecided 1)).Run (new fun _ => none) (eventsOf cancelledInTime) t ∧
    (∃ e ∈ eventsOf cancelledInTime, Acknowledges 1 e 1) ∧
    CancellationHonoured 1 (eventsOf cancelledInTime) := by
  obtain ⟨t, hrun⟩ : ∃ t, service.Run (new fun _ => none) (eventsOf cancelledInTime) t :=
    System.Run.events (by decide)
  have hopen : ∀ e ∈ eventsOf cancelledInTime, Undecided 1 e.pre e.label e.post := by
    unfold Undecided
    decide
  have hrestrict := hrun.restrict hopen
  have hack : ∃ e ∈ eventsOf cancelledInTime, Acknowledges 1 e 1 := by
    unfold Acknowledges
    decide
  exact ⟨t, hrestrict, hack, cancellation_honoured_of_undecided ⟨_, rfl⟩ hrestrict⟩

/-! ### A cancellation that comes too late -/

/-- A run is cancelled when its outcome is settled and its entry is still in
the map. -/
def cancelledLate : List Action :=
  startRun 0 10 ++ [.wake 0 (some (.output ⟨0, "ok", ""⟩)), .call 1 (.cancel 1), .cancel 1,
    .remove 0 11, .save 0]

/-- The cancellation is acknowledged and the run succeeds. -/
theorem cancellation_not_honoured :
    ¬∀ (runId : Uuid) (s t : RunnerService) (tr : List (Event RunnerService Action)),
      service.start s → service.Run s tr t → CancellationHonoured runId tr := by
  intro hall
  obtain ⟨t, hrun⟩ : ∃ t, service.Run (new fun _ => none) (eventsOf cancelledLate) t :=
    System.Run.events (by decide)
  have hlaw : CancellationHonoured 1 (eventsOf cancelledLate) := hall 1 _ t _ ⟨_, rfl⟩ hrun
  obtain ⟨e, he, hack, hactive⟩ : ∃ e ∈ eventsOf cancelledLate, Acknowledges 1 e 1 ∧
      e.pre.active 1 = some ⟨printOk, 0⟩ := by
    unfold Acknowledges
    decide
  obtain ⟨e', he', hanswer⟩ : ∃ e' ∈ eventsOf cancelledLate, Answers e' 0 printOk
      (.finished (buildRecord printOk 10 (.exited ⟨0, "ok", ""⟩) 11)) := by
    unfold Answers
    decide
  obtain ⟨run, hrun, hhonoured⟩ := hlaw e he 1 hack
  cases hactive.symm.trans hrun
  obtain ⟨-, hstatus, -⟩ := hhonoured e' he' _ _ hanswer
  exact absurd hstatus (by decide)

end RunnerService

/-! ## A run does not disappear -/

/-- The run identifier the step looks up in the store to cancel it. -/
def Action.cancelLoads (s : RunnerService) : Action → Option Uuid
  | .cancelLoad h => match s.handlers h with
      | .cancelLoad runId => some runId
      | _ => none
  | _ => none

namespace RunnerService

variable {runId : Uuid} {s t : RunnerService} {a : Action}

/-- A request to cancel the run looks into the store when no record of the run
is still to be saved, or one is stored already. -/
def LoadsSaved (runId : Uuid) (s : RunnerService) (a : Action) (_ : RunnerService) : Prop :=
  a.cancelLoads s = some runId → s.store runId = none → ∀ h, (s.handlers h).saves runId = false

/-- In the step the run enters the map of active runs. -/
def Inserts (runId : Uuid) (e : Event RunnerService Action) : Prop :=
  e.pre.active runId = none ∧ (e.post.active runId).isSome

/-- In the step a handler makes its first step to cancel the run. -/
def StartsCancel (runId : Uuid) (e : Event RunnerService Action) (h : HandlerId) : Prop :=
  e.label = .cancel h ∧ e.pre.handlers h = .cancel runId

/-- The answer that a run was not found. -/
def missing (runId : Uuid) : Handler :=
  .returned (.cancel runId) (.rejected .notFound "run was not found")

/-- No request to cancel a run that starts after the run entered the map is
answered that the run was not found. -/
def NeverLost (runId : Uuid) (tr : List (Event RunnerService Action)) : Prop :=
  tr.Pairwise fun entry first => Inserts runId entry → ∀ h, StartsCancel runId first h →
    ∀ e ∈ tr, e.post.handlers h ≠ missing runId

/-! ### Where the run is -/

/-- The run is stored, or it is about to be. -/
def Settling (runId : Uuid) (s : RunnerService) : Prop :=
  (∃ h, (s.handlers h).saves runId = true) ∨ s.store runId ≠ none

/-- The run is active, stored or about to be stored. -/
def Kept (runId : Uuid) (s : RunnerService) : Prop :=
  s.active runId ≠ none ∨ Settling runId s

theorem Settling.step (h : Settling runId s) (hstep : Step s a t) : Settling runId t := by
  rcases h with ⟨h, hsaves⟩ | hstore
  · rcases eq_or_ne h a.handler with rfl | hne
    · cases hstep with
      | @save h record hh =>
          have hrun : record.request.runId = runId := by
            simpa [Handler.saves, Action.handler, hh] using hsaves
          refine .inr ?_
          simp [← hrun]
      | call hh | load hh | remove hh | inspect hh | cancelLoad hh =>
          simp [Handler.saves, Action.handler, hh] at hsaves
      | conflict hh _ | claim hh _ | skip hh _ | start hh _ | abort hh _ | finish hh _
        | cancel hh _ | cancelMiss hh _ => simp [Handler.saves, Action.handler, hh] at hsaves
    · exact .inl ⟨h, by rw [hstep.other hne, hsaves]⟩
  · refine .inr ?_
    cases hstep with
    | save hh =>
        simp only [Function.update_apply]
        split
        next => exact Option.some_ne_none _
        next => exact hstore
    | _ => exact hstore

/-- A run that leaves the map is about to be stored. -/
theorem Kept.step (h : Kept runId s) (hstep : Step s a t) : Kept runId t := by
  rcases h with hactive | hsettling
  · cases hstep with
    | claim hh hnone =>
        refine .inl ?_
        simp only [Function.update_apply]
        split
        next => exact nofun
        next => exact hactive
    | @remove h execution startedAtMs now outcome hh =>
        rcases eq_or_ne execution.runId runId with heq | hne
        · refine .inr (.inl ⟨h, ?_⟩)
          simp [goto, Handler.saves, heq]
        · refine .inl ?_
          dsimp only
          rw [Function.update_of_ne hne.symm]
          exact hactive
    | _ => exact .inl hactive
  · exact .inr (hsettling.step hstep)

/-- Where a request to cancel stands that started after the run entered the
map. -/
def Finds (runId : Uuid) (s : RunnerService) (h : HandlerId) : Prop :=
  (s.handlers h = .cancelLoad runId ∧ Settling runId s) ∨
    ∃ alreadyTerminal,
      s.handlers h = .returned (.cancel runId) (.cancelAcknowledged alreadyTerminal)

theorem Finds.step {h : HandlerId} (hfinds : Finds runId s h) (hstep : Step s a t)
    (hsaved : LoadsSaved runId s a t) : Finds runId t h := by
  rcases hfinds with ⟨hh, hsettling⟩ | ⟨alreadyTerminal, hh⟩
  · rcases eq_or_ne h a.handler with rfl | hne
    · cases hstep with
      | @cancelLoad h asked hload =>
          obtain rfl : asked = runId := by simpa [Action.handler, hload] using hh
          have hstore : s.store asked ≠ none := by
            intro hnone
            rcases hsettling with ⟨other, hsaves⟩ | hsome
            · have hfalse := hsaved (by simp [Action.cancelLoads, hload]) hnone other
              rw [hsaves] at hfalse
              cases hfalse
            · exact hsome hnone
          obtain ⟨record, hrecord⟩ := Option.ne_none_iff_exists'.mp hstore
          refine .inr ⟨true, ?_⟩
          simp [Action.handler, goto, hrecord, afterCancelLoad]
      | call hp | load hp | remove hp | save hp | inspect hp =>
          simp [Action.handler, hp] at hh
      | conflict hp _ | claim hp _ | skip hp _ | start hp _ | abort hp _ | finish hp _
        | cancel hp _ | cancelMiss hp _ => simp [Action.handler, hp] at hh
    · exact .inl ⟨by rw [hstep.other hne, hh], hsettling.step hstep⟩
  · exact .inr ⟨alreadyTerminal, hstep.returned hh⟩

/-- The first step of a request to cancel a run that is active, stored or
about to be stored. -/
theorem Kept.finds {h : HandlerId} (hkept : Kept runId s) (hstep : Step s a t)
    (hfirst : StartsCancel runId ⟨s, a, t⟩ h) : Finds runId t h := by
  obtain ⟨rfl, hh⟩ := hfirst
  cases hstep with
  | cancel hp hactive =>
      cases hp.symm.trans hh
      exact .inr ⟨false, Function.update_self ..⟩
  | cancelMiss hp hactive =>
      cases hp.symm.trans hh
      refine .inl ⟨Function.update_self .., ?_⟩
      have hsettling : Settling runId s := hkept.resolve_left fun hsome => hsome hactive
      exact hsettling.step (.cancelMiss hp hactive)

/-- What holds after any run in which the store is read when the run is saved. -/
structure Finding (runId : Uuid) (tr : List (Event RunnerService Action)) (s : RunnerService) :
    Prop where
  kept : ∀ e ∈ tr, Inserts runId e → Kept runId s
  finds : tr.Pairwise fun entry first => Inserts runId entry → ∀ h, StartsCancel runId first h →
    Finds runId s h
  /-- An answer stays. -/
  missing : ∀ e ∈ tr, ∀ h, e.post.handlers h = missing runId → s.handlers h = missing runId

theorem Finding.new (store : Uuid → Option RunRecord) : Finding runId [] (new store) :=
  ⟨by simp, .nil, by simp⟩

theorem Finding.step {tr : List (Event RunnerService Action)} (h : Finding runId tr s)
    (hstep : Step s a t) (hsaved : LoadsSaved runId s a t) :
    Finding runId (tr ++ [⟨s, a, t⟩]) t := by
  refine ⟨?_, ?_, ?_⟩
  · refine Transition.forall_mem_snoc ?_ ?_
    · intro e hold hinserts
      exact (h.kept e hold hinserts).step hstep
    · intro hinserts
      exact .inl (Option.isSome_iff_ne_none.mp hinserts.2)
  · refine Transition.pairwise_snoc ?_ ?_
    · exact h.finds.imp fun hpair hinserts hc hfirst => (hpair hinserts hc hfirst).step hstep hsaved
    · intro entry hentry hinserts hc hstarts
      exact (h.kept entry hentry hinserts).finds hstep hstarts
  · refine Transition.forall_mem_snoc ?_ ?_
    · intro e hold hc hmissing
      exact hstep.returned (h.missing e hold hc hmissing)
    · intro hc hmissing
      exact hmissing

theorem Finding.law {tr : List (Event RunnerService Action)} (h : Finding runId tr s) :
    NeverLost runId tr := by
  refine h.finds.imp ?_
  intro entry first hpair hinserts hc hfirst e he hmissing
  have hfinds := hpair hinserts hc hfirst
  unfold Finds at hfinds
  rw [h.missing e he hc hmissing] at hfinds
  rcases hfinds with ⟨hload, -⟩ | ⟨_, hack⟩
  · cases hload
  · cases hack

/-- In every run of the service in which requests to cancel look into the store
when the run is saved, no run disappears. -/
theorem never_lost_of_loadsSaved {tr : List (Event RunnerService Action)}
    (hstart : service.start s) (hrun : (service.restrict (LoadsSaved runId)).Run s tr t) :
    NeverLost runId tr := by
  obtain ⟨store, rfl⟩ := hstart
  have hfinding : Finding runId tr t := by
    refine hrun.history (I := Finding runId) (.new store) ?_
    intro tr u a v _ hfinding hstep
    exact hfinding.step (.of_step hstep.1) hstep.2
  exact hfinding.law

/-- A run is cancelled after it was saved. -/
def cancelledAfterwards : List Action :=
  [.call 0 (.execute printOk), .load 0] ++ runThrough 0 10 ++
    [.call 1 (.cancel 1), .cancel 1, .cancelLoad 1]

theorem never_lost_afterwards : ∃ t,
    (service.restrict (LoadsSaved 1)).Run (new fun _ => none) (eventsOf cancelledAfterwards) t ∧
    (∃ e ∈ eventsOf cancelledAfterwards, Inserts 1 e) ∧
    (∃ e ∈ eventsOf cancelledAfterwards, StartsCancel 1 e 1) ∧
    NeverLost 1 (eventsOf cancelledAfterwards) := by
  obtain ⟨t, hrun⟩ : ∃ t, service.Run (new fun _ => none) (eventsOf cancelledAfterwards) t :=
    System.Run.events (by decide)
  have hstored : ∀ e ∈ eventsOf cancelledAfterwards, e.label.cancelLoads e.pre = some 1 →
      e.pre.store 1 ≠ none := by decide
  have hrestrict : (service.restrict (LoadsSaved 1)).Run (new fun _ => none)
      (eventsOf cancelledAfterwards) t :=
    hrun.restrict fun e he hloads hnone => absurd hnone (hstored e he hloads)
  have hinserts : ∃ e ∈ eventsOf cancelledAfterwards, Inserts 1 e := by
    unfold Inserts
    decide
  have hstarts : ∃ e ∈ eventsOf cancelledAfterwards, StartsCancel 1 e 1 := by
    unfold StartsCancel
    decide
  exact ⟨t, hrestrict, hinserts, hstarts, never_lost_of_loadsSaved ⟨_, rfl⟩ hrestrict⟩

/-! ### A run between the map and the store -/

/-- A run is cancelled when it has left the map and is not saved. -/
def cancelledBetween : List Action :=
  startRun 0 10 ++ [.wake 0 (some (.output ⟨0, "ok", ""⟩)), .remove 0 11, .call 1 (.cancel 1),
    .cancel 1, .cancelLoad 1]

/-- The run is not found. -/
theorem run_lost :
    ¬∀ (runId : Uuid) (s t : RunnerService) (tr : List (Event RunnerService Action)),
      service.start s → service.Run s tr t → NeverLost runId tr := by
  intro hall
  obtain ⟨t, hrun⟩ : ∃ t, service.Run (new fun _ => none) (eventsOf cancelledBetween) t :=
    System.Run.events (by decide)
  have hlaw : NeverLost 1 (eventsOf cancelledBetween) := hall 1 _ t _ ⟨_, rfl⟩ hrun
  obtain ⟨entry, hentry, hinserts⟩ : ∃ e ∈ (eventsOf cancelledBetween).take 6, Inserts 1 e := by
    unfold Inserts
    decide
  obtain ⟨first, hfirst, hstarts⟩ : ∃ e ∈ (eventsOf cancelledBetween).drop 6,
      StartsCancel 1 e 1 := by
    unfold StartsCancel
    decide
  obtain ⟨e, he, hmissing⟩ : ∃ e ∈ eventsOf cancelledBetween,
      e.post.handlers 1 = missing 1 := by decide
  rw [NeverLost, ← List.take_append_drop 6 (eventsOf cancelledBetween),
    List.pairwise_append] at hlaw
  refine hlaw.2.2 entry hentry first hfirst hinserts 1 hstarts e ?_ hmissing
  rwa [List.take_append_drop]

end RunnerService

end Cresix.Runner
