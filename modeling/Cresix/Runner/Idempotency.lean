import Cresix.Runner.Service

/-!
# Running a request once

A run identifier is free, held by one handler that has its entry in the map
of active runs, or released: its entry is gone and its record is not saved
yet.  `Phase` is this division, with the number of backend starts so far.  It
is not an invariant of the service: a handler whose load was early finds the
map empty after the run is over and claims the identifier again.
`ClaimsFresh` rules out that step, and under it the service answers, starts
and stores a run once.
-/

namespace Cresix.Runner

open Rust (Uuid)
open Transition (System Event)

/-! ## Handlers of one run identifier -/

/-- The request a handler has in the map for a run identifier, and whether it
is past the first poll. -/
def Handler.holds (runId : Uuid) : Handler → Option (ExecutionRequest × Bool)
  | .poll execution => if execution.runId = runId then some (execution, false) else none
  | .run execution _ => if execution.runId = runId then some (execution, true) else none
  | .remove execution _ _ => if execution.runId = runId then some (execution, true) else none
  | _ => none

/-- A handler is about to save a record of a run identifier. -/
def Handler.saves (runId : Uuid) : Handler → Bool
  | .save record => record.request.runId = runId
  | _ => false

/-- The request a handler works on. -/
def Handler.request : Handler → Option ExecutionRequest
  | .load execution => some execution
  | .check execution => some execution
  | .poll execution => some execution
  | .run execution _ => some execution
  | .remove execution _ _ => some execution
  | .save record => some record.request
  | _ => none

namespace RunnerService

/-! ## The law -/

/-- In the step a handler answers a request to execute. -/
def Answers (e : Event RunnerService Action) (h : HandlerId) (execution : ExecutionRequest)
    (body : ResponseBody) : Prop :=
  e.pre.handlers h ≠ e.post.handlers h ∧
    e.post.handlers h = .returned (.execute execution) body

/-- In the step the backend is started for a run identifier. -/
def startsBackend (runId : Uuid) (e : Event RunnerService Action) : Bool :=
  match e.label with
  | .poll h _ =>
      match e.pre.handlers h, e.post.handlers h with
      | .poll execution, .run _ _ => execution.runId = runId
      | _, _ => false
  | _ => false

/-- What idempotent execution of a run identifier asks of the events of a run. -/
structure Idempotent (runId : Uuid) (tr : List (Event RunnerService Action)) : Prop where
  /-- After a finished answer the same request gets the same record or hears
  that the run is active, and another valid request is a conflict. -/
  replays : tr.Pairwise fun first later =>
    ∀ h execution record h' execution' body,
      Answers first h execution (.finished record) → execution.runId = runId →
      Answers later h' execution' body → execution'.runId = runId →
      (execution' = execution → body = .finished record
        ∨ body = .rejected .idempotencyConflict "run is already active") ∧
      (execution' ≠ execution → execution'.Valid →
        ∃ message, body = .rejected .idempotencyConflict message)
  /-- The backend is started at most once. -/
  started_once : tr.countP (startsBackend runId) ≤ 1
  /-- A stored record stays. -/
  persists : ∀ e ∈ tr, ∀ record, e.pre.store runId = some record →
    e.post.store runId = some record

/-- A claim of the run identifier finds no record stored or about to be. -/
def ClaimsFresh (runId : Uuid) (s : RunnerService) (a : Action) (_ : RunnerService) : Prop :=
  ∀ h execution, a = .check h → s.handlers h = .check execution → execution.runId = runId →
    s.active runId = none → s.store runId = none ∧ ∀ h', (s.handlers h').saves runId = false

/-! ## Phases of a run identifier -/

/-- Where a run identifier is, after `n` starts of the backend for it. -/
inductive Phase (runId : Uuid) (n : Nat) (s : RunnerService) : Prop where
  | free :
      s.active runId = none →
      (∀ h, (s.handlers h).holds runId = none) →
      (∀ h, (s.handlers h).saves runId = false) →
      n ≤ 1 → (s.store runId = none → n = 0) → Phase runId n s
  | held {h : HandlerId} {execution : ExecutionRequest} {started : Bool} :
      s.store runId = none →
      s.active runId = some ⟨execution, h⟩ →
      (∀ h', (s.handlers h').holds runId = if h' = h then some (execution, started) else none) →
      (∀ h', (s.handlers h').saves runId = false) →
      n ≤ 1 → (started = false → n = 0) → Phase runId n s
  | released {h : HandlerId} :
      s.store runId = none →
      s.active runId = none →
      (∀ h', (s.handlers h').holds runId = none) →
      (∀ h', (s.handlers h').saves runId = decide (h' = h)) →
      n ≤ 1 → Phase runId n s

variable {runId : Uuid} {n : Nat} {s t : RunnerService}

theorem Phase.new (store : Uuid → Option RunRecord) : Phase runId 0 (new store) :=
  .free rfl (fun _ => rfl) (fun _ => rfl) (by simp) (fun _ => rfl)

theorem Phase.starts_le (hphase : Phase runId n s) : n ≤ 1 := by
  cases hphase with
  | free _ _ _ hn _ => exact hn
  | held _ _ _ _ hn _ => exact hn
  | released _ _ _ _ hn => exact hn

/-- While a record is stored the identifier is free. -/
theorem Phase.of_store {record : RunRecord} (hphase : Phase runId n s)
    (hstore : s.store runId = some record) :
    s.active runId = none ∧ ∀ h, (s.handlers h).saves runId = false := by
  cases hphase with
  | free hactive _ hsaves _ _ => exact ⟨hactive, hsaves⟩
  | held hnone _ _ _ _ _ => rw [hstore] at hnone; cases hnone
  | released hnone _ _ _ _ => rw [hstore] at hnone; cases hnone

/-- What holds of the handler that moved and of all others holds of every
handler. -/
theorem goto_forall {h : HandlerId} {next : Handler} {p : HandlerId → Handler → Prop}
    (hnext : p h next) (hrest : ∀ h', h' ≠ h → p h' (s.handlers h')) :
    ∀ h', p h' ((s.goto h next).handlers h') :=
  (Function.forall_update_iff s.handlers p).mpr ⟨hnext, hrest⟩

/-- A handler that moves without taking or giving up the identifier keeps its
phase. -/
theorem Phase.move {h : HandlerId} {next : Handler} (hphase : Phase runId n s)
    (hhandlers : t.handlers = Function.update s.handlers h next)
    (hactive : t.active runId = s.active runId) (hstore : t.store runId = s.store runId)
    (hholds : next.holds runId = (s.handlers h).holds runId)
    (hsaves : next.saves runId = (s.handlers h).saves runId) : Phase runId n t := by
  have holds_eq : ∀ h', (t.handlers h').holds runId = (s.handlers h').holds runId := by
    intro h'
    rw [hhandlers, Function.update_apply]
    split
    next heq => rw [heq, hholds]
    next => rfl
  have saves_eq : ∀ h', (t.handlers h').saves runId = (s.handlers h').saves runId := by
    intro h'
    rw [hhandlers, Function.update_apply]
    split
    next heq => rw [heq, hsaves]
    next => rfl
  cases hphase with
  | free h₁ h₂ h₃ h₄ h₅ =>
      exact .free (by rw [hactive, h₁]) (fun h' => by rw [holds_eq, h₂])
        (fun h' => by rw [saves_eq, h₃]) h₄ (by rw [hstore]; exact h₅)
  | held h₁ h₂ h₃ h₄ h₅ h₆ =>
      exact .held (by rw [hstore, h₁]) (by rw [hactive, h₂]) (fun h' => by rw [holds_eq, h₃])
        (fun h' => by rw [saves_eq, h₄]) h₅ h₆
  | released h₁ h₂ h₃ h₄ h₅ =>
      exact .released (by rw [hstore, h₁]) (by rw [hactive, h₂])
        (fun h' => by rw [holds_eq, h₃]) (fun h' => by rw [saves_eq, h₄]) h₅

/-- A command that was just received holds nothing. -/
theorem receive_holds (command : RunnerCommand) :
    (receive command).holds runId = none ∧ (receive command).saves runId = false := by
  cases command with
  | ping => exact ⟨rfl, rfl⟩
  | cancel => exact ⟨rfl, rfl⟩
  | inspect => exact ⟨rfl, rfl⟩
  | execute execution =>
      simp only [receive]
      split
      next => exact ⟨rfl, rfl⟩
      next => exact ⟨rfl, rfl⟩

/-- Nor does a handler after its load. -/
theorem afterLoad_holds (execution : ExecutionRequest) (loaded : Option RunRecord) :
    (afterLoad execution loaded).holds runId = none ∧
      (afterLoad execution loaded).saves runId = false := by
  cases loaded with
  | none => exact ⟨rfl, rfl⟩
  | some record =>
      simp only [afterLoad]
      split
      next => exact ⟨rfl, rfl⟩
      next => exact ⟨rfl, rfl⟩

/-- The handler that holds the identifier is the one the phase names. -/
theorem Phase.of_holds {h : HandlerId} {held : ExecutionRequest × Bool}
    (hphase : Phase runId n s) (hhere : (s.handlers h).holds runId = some held) :
    s.store runId = none ∧ s.active runId = some ⟨held.1, h⟩ ∧
      (∀ h', h' ≠ h → (s.handlers h').holds runId = none) ∧
      (∀ h', (s.handlers h').saves runId = false) ∧ (held.2 = false → n = 0) := by
  cases hphase with
  | free _ hholds _ _ _ => rw [hholds] at hhere; cases hhere
  | released _ _ hholds _ _ => rw [hholds] at hhere; cases hhere
  | held hstore hactive hholds hsaves _ hzero =>
      rw [hholds] at hhere
      split at hhere
      next heq =>
        cases hhere
        subst heq
        exact ⟨hstore, hactive, fun h' hne => by rw [hholds, if_neg hne], hsaves, hzero⟩
      next => cases hhere

/-- The claim of a free identifier. -/
theorem Phase.claim {h : HandlerId} {execution : ExecutionRequest} (hphase : Phase runId n s)
    (hh : s.handlers h = .check execution) (hactive : s.active execution.runId = none)
    (hfresh : ClaimsFresh runId s (.check h) t)
    (ht : t = { s.goto h (.poll execution) with
      active := Function.update s.active execution.runId (some ⟨execution, h⟩) }) :
    Phase runId n t := by
  subst ht
  rcases eq_or_ne execution.runId runId with rfl | hne
  · obtain ⟨hstore, hsaves⟩ := hfresh h execution rfl hh rfl hactive
    cases hphase with
    | free _ hholds _ hn hzero =>
        have hown : ∀ h', ((s.goto h (.poll execution)).handlers h').holds execution.runId =
            if h' = h then some (execution, false) else none := by
          refine goto_forall (p := fun h' x => x.holds _ = if h' = h then _ else none) ?_ ?_
          · simp [Handler.holds]
          · intro h' hother
            rw [hholds, if_neg hother]
        refine .held hstore (Function.update_self ..) hown ?_ hn (fun _ => hzero hstore)
        exact goto_forall (p := fun _ x => x.saves _ = false) rfl fun h' _ => hsaves h'
    | held _ hsome _ _ _ _ => rw [hactive] at hsome; cases hsome
    | @released h' _ _ _ hone _ =>
        have hfalse := hsaves h'
        rw [hone h', decide_eq_true rfl] at hfalse
        cases hfalse
  · refine hphase.move rfl ?_ rfl ?_ ?_
    · exact Function.update_of_ne hne.symm ..
    · rw [hh]
      exact if_neg hne
    · rw [hh]
      rfl

/-- The removal of the entry. -/
theorem Phase.remove {h : HandlerId} {execution : ExecutionRequest} {record : RunRecord}
    {startedAtMs : Int} {outcome : RunOutcome} (hphase : Phase runId n s)
    (hh : s.handlers h = .remove execution startedAtMs outcome)
    (hrecord : record.request = execution)
    (ht : t = { s.goto h (.save record) with
      active := Function.update s.active execution.runId none }) :
    Phase runId n t := by
  subst ht
  rcases eq_or_ne execution.runId runId with rfl | hne
  · obtain ⟨hstore, _, hothers, hsaves, _⟩ :=
      hphase.of_holds (h := h) (by rw [hh]; exact if_pos rfl)
    refine .released (h := h) hstore (Function.update_self ..) ?_ ?_ hphase.starts_le
    · exact goto_forall (p := fun _ x => x.holds _ = none) rfl hothers
    · refine goto_forall (p := fun h' x => x.saves _ = decide (h' = h)) ?_ ?_
      · simp [Handler.saves, hrecord]
      · intro h' hother
        rw [hsaves, decide_eq_false hother]
  · refine hphase.move rfl ?_ rfl ?_ ?_
    · exact Function.update_of_ne hne.symm ..
    · rw [hh]
      exact (if_neg hne).symm
    · rw [hh]
      exact decide_eq_false (by rw [hrecord]; exact hne)

/-- The save of the record. -/
theorem Phase.save {h : HandlerId} {record : RunRecord} (hphase : Phase runId n s)
    (hh : s.handlers h = .save record)
    (ht : t = { s.goto h (.returned (.execute record.request) (.finished record)) with
      store := Function.update s.store record.request.runId (some record) }) :
    Phase runId n t := by
  subst ht
  rcases eq_or_ne record.request.runId runId with rfl | hne
  · have hhere : (s.handlers h).saves record.request.runId = true := by
      rw [hh]
      exact decide_eq_true rfl
    cases hphase with
    | free _ _ hsaves _ _ => rw [hsaves] at hhere; cases hhere
    | held _ _ _ hsaves _ _ => rw [hsaves] at hhere; cases hhere
    | @released h₀ _ hactive hholds hsaves hn =>
        obtain rfl : h = h₀ := of_decide_eq_true (by rw [← hsaves]; exact hhere)
        refine .free hactive ?_ ?_ hn ?_
        · exact goto_forall (p := fun _ x => x.holds _ = none) rfl fun h' _ => hholds h'
        · refine goto_forall (p := fun _ x => x.saves _ = false) rfl ?_
          intro h' hother
          rw [hsaves, decide_eq_false hother]
        · intro hnone
          have hsome := Function.update_self record.request.runId (some record) s.store
          cases hsome.symm.trans hnone
  · refine hphase.move rfl rfl ?_ ?_ ?_
    · exact Function.update_of_ne hne.symm ..
    · rw [hh]
      rfl
    · rw [hh]
      exact (decide_eq_false hne).symm

/-- The holder passes its first poll, and the backend starts or not. -/
theorem Phase.pass {h : HandlerId} {execution : ExecutionRequest} {next : Handler} {n' : Nat}
    (hphase : Phase runId n s) (hh : s.handlers h = .poll execution)
    (hrun : execution.runId = runId) (hholds : next.holds runId = some (execution, true))
    (hsaves : next.saves runId = false) (hn : n' ≤ n + 1) :
    Phase runId n' (s.goto h next) := by
  obtain ⟨hstore, hactive, hothers, hnone, hzero⟩ :=
    hphase.of_holds (h := h) (by rw [hh]; exact if_pos hrun)
  have hn0 : n = 0 := hzero rfl
  have hown : ∀ h', ((s.goto h next).handlers h').holds runId =
      if h' = h then some (execution, true) else none := by
    refine goto_forall (p := fun h' x => x.holds _ = if h' = h then _ else none) ?_ ?_
    · rw [hholds, if_pos rfl]
    · intro h' hother
      rw [hothers h' hother, if_neg hother]
  refine .held hstore hactive hown ?_ (by omega) nofun
  exact goto_forall (p := fun _ x => x.saves _ = false) hsaves fun h' _ => hnone h'

/-- A poll for another identifier. -/
theorem Phase.poll_other {h : HandlerId} {execution : ExecutionRequest} {next : Handler}
    (hphase : Phase runId n s) (hh : s.handlers h = .poll execution)
    (hrun : execution.runId ≠ runId) (hholds : next.holds runId = none)
    (hsaves : next.saves runId = false) : Phase runId n (s.goto h next) := by
  refine hphase.move rfl rfl rfl ?_ ?_
  · rw [hh, hholds]
    exact (if_neg hrun).symm
  · rw [hh, hsaves]
    rfl

/-- The backend starts counted in one step. -/
def starts (runId : Uuid) (e : Event RunnerService Action) : Nat :=
  if startsBackend runId e then 1 else 0

/-- What a step preserves. -/
theorem Phase.step {a : Action} (hphase : Phase runId n s) (hstep : Step s a t)
    (hfresh : ClaimsFresh runId s a t) : Phase runId (n + starts runId ⟨s, a, t⟩) t := by
  cases hstep with
  | call hh =>
      exact hphase.move rfl rfl rfl (by rw [hh]; exact (receive_holds _).1)
        (by rw [hh]; exact (receive_holds _).2)
  | load hh =>
      exact hphase.move rfl rfl rfl (by rw [hh]; exact (afterLoad_holds _ _).1)
        (by rw [hh]; exact (afterLoad_holds _ _).2)
  | conflict hh _ => exact hphase.move rfl rfl rfl (by rw [hh]; rfl) (by rw [hh]; rfl)
  | claim hh hactive => exact hphase.claim hh hactive hfresh rfl
  | @skip h execution now hh _ =>
      have hnone : starts runId ⟨s, .poll h now, s.goto h (.remove execution now .cancelled)⟩
          = 0 := by
        simp [starts, startsBackend, goto, hh]
      rw [hnone]
      rcases eq_or_ne execution.runId runId with heq | hne
      · exact hphase.pass hh heq (if_pos heq) rfl (by omega)
      · exact hphase.poll_other hh hne (if_neg hne) rfl
  | @start h execution now hh _ =>
      rcases eq_or_ne execution.runId runId with heq | hne
      · refine hphase.pass hh heq (if_pos heq) rfl ?_
        simp only [starts]
        split
        next => exact Nat.le_refl _
        next => exact Nat.le_succ _
      · have hnone : starts runId ⟨s, .poll h now, s.goto h (.run execution now)⟩ = 0 := by
          simp [starts, startsBackend, goto, hh, hne]
        rw [hnone]
        exact hphase.poll_other hh hne (if_neg hne) rfl
  | abort hh _ => exact hphase.move rfl rfl rfl (by rw [hh]; rfl) (by rw [hh]; rfl)
  | finish hh _ => exact hphase.move rfl rfl rfl (by rw [hh]; rfl) (by rw [hh]; rfl)
  | remove hh => exact hphase.remove hh rfl rfl
  | save hh => exact hphase.save hh rfl
  | inspect hh => exact hphase.move rfl rfl rfl (by rw [hh]; rfl) (by rw [hh]; rfl)
  | cancel hh _ => exact hphase.move rfl rfl rfl (by rw [hh]; rfl) (by rw [hh]; rfl)
  | cancelMiss hh _ => exact hphase.move rfl rfl rfl (by rw [hh]; rfl) (by rw [hh]; rfl)
  | cancelLoad hh => exact hphase.move rfl rfl rfl (by rw [hh]; rfl) (by rw [hh]; rfl)

/-! ## Answers -/

/-- The handler that answers is the one the step moves. -/
theorem Answers.moved {a : Action} {h h₀ : HandlerId} {next : Handler}
    {execution : ExecutionRequest} {body : ResponseBody}
    (hanswer : Answers ⟨s, a, t⟩ h execution body)
    (ht : t.handlers = Function.update s.handlers h₀ next) :
    h = h₀ ∧ next = .returned (.execute execution) body := by
  obtain ⟨hne, hpost⟩ := hanswer
  simp only [ht] at hne hpost
  rcases eq_or_ne h h₀ with rfl | hother
  · rw [Function.update_self] at hpost
    exact ⟨rfl, hpost⟩
  · rw [Function.update_of_ne hother] at hne
    exact absurd rfl hne

/-- How a request to execute can be answered. -/
inductive Reply (s t : RunnerService) (h : HandlerId) (execution : ExecutionRequest) :
    ResponseBody → Prop where
  | invalid {message : String} :
      ¬execution.Valid → Reply s t h execution (.rejected .invalidExecution message)
  | replay {record : RunRecord} :
      s.handlers h = .load execution → s.store execution.runId = some record →
      record.request = execution → Reply s t h execution (.finished record)
  | bound {record : RunRecord} {message : String} :
      s.handlers h = .load execution → s.store execution.runId = some record →
      record.request ≠ execution →
      Reply s t h execution (.rejected .idempotencyConflict message)
  | conflict {existing : ActiveRun} :
      s.handlers h = .check execution → s.active execution.runId = some existing →
      Reply s t h execution (activeConflict execution existing)
  | finished {record : RunRecord} :
      s.handlers h = .save record → record.request = execution →
      t.store execution.runId = some record → Reply s t h execution (.finished record)

theorem Step.reply {a : Action} {h : HandlerId} {execution : ExecutionRequest}
    {body : ResponseBody} (hstep : Step s a t)
    (hanswer : Answers ⟨s, a, t⟩ h execution body) : Reply s t h execution body := by
  cases hstep with
  | @call h₀ command hh =>
      obtain ⟨rfl, hnext⟩ := hanswer.moved rfl
      cases command with
      | ping => cases hnext
      | cancel => cases hnext
      | inspect => cases hnext
      | execute asked =>
          simp only [receive] at hnext
          split at hnext
          next error herror =>
            cases hnext
            refine .invalid fun hvalid => ?_
            cases hvalid.symm.trans herror
          next => cases hnext
  | @load h₀ asked hh =>
      obtain ⟨rfl, hnext⟩ := hanswer.moved rfl
      generalize hstore : s.store asked.runId = loaded at hnext
      cases loaded with
      | none => cases hnext
      | some record =>
          simp only [afterLoad] at hnext
          split at hnext
          next heq => cases hnext; exact .replay hh hstore heq
          next hne => cases hnext; exact .bound hh hstore hne
  | conflict hh hactive =>
      obtain ⟨rfl, hnext⟩ := hanswer.moved rfl
      cases hnext
      exact .conflict hh hactive
  | save hh =>
      obtain ⟨rfl, hnext⟩ := hanswer.moved rfl
      cases hnext
      exact .finished hh rfl (Function.update_self ..)
  | claim => cases (hanswer.moved rfl).2
  | skip => cases (hanswer.moved rfl).2
  | start => cases (hanswer.moved rfl).2
  | abort => cases (hanswer.moved rfl).2
  | finish => cases (hanswer.moved rfl).2
  | remove => cases (hanswer.moved rfl).2
  | inspect => cases (hanswer.moved rfl).2
  | cancel => cases (hanswer.moved rfl).2
  | cancelMiss => cases (hanswer.moved rfl).2
  | cancelLoad => cases (hanswer.moved rfl).2

/-- Handlers past the validation work on valid requests. -/
def Validated (s : RunnerService) : Prop :=
  ∀ h execution, (s.handlers h).request = some execution → execution.Valid

theorem Validated.step {a : Action} (hvalid : Validated s) (hstep : Step s a t) :
    Validated t := by
  have hrest : ∀ {h : HandlerId} {next : Handler},
      (∀ execution, next.request = some execution → execution.Valid) →
      ∀ h', ∀ execution, ((s.goto h next).handlers h').request = some execution →
        execution.Valid := by
    intro h next hnext
    exact goto_forall (p := fun _ x => ∀ execution, x.request = some execution → execution.Valid)
      hnext fun h' _ => hvalid h'
  cases hstep with
  | @call h command hh =>
      refine hrest ?_
      cases command with
      | ping => nofun
      | cancel => nofun
      | inspect => nofun
      | execute execution =>
          simp only [receive]
          split
          next => nofun
          next hok =>
            intro _ heq
            cases heq
            exact hok
  | @load h execution hh =>
      refine hrest ?_
      generalize s.store execution.runId = loaded
      cases loaded with
      | none =>
          intro _ heq
          exact hvalid h _ (by rw [hh]; exact heq)
      | some record =>
          simp only [afterLoad]
          split
          next => nofun
          next => nofun
  | conflict => exact hrest nofun
  | @claim h _ hh _ => exact hrest fun _ heq => hvalid h _ (by rw [hh]; exact heq)
  | @skip h _ _ hh _ => exact hrest fun _ heq => hvalid h _ (by rw [hh]; exact heq)
  | @start h _ _ hh _ => exact hrest fun _ heq => hvalid h _ (by rw [hh]; exact heq)
  | @abort h _ _ _ hh _ => exact hrest fun _ heq => hvalid h _ (by rw [hh]; exact heq)
  | @finish h _ _ _ hh _ => exact hrest fun _ heq => hvalid h _ (by rw [hh]; exact heq)
  | @remove h _ _ _ _ hh => exact hrest fun _ heq => hvalid h _ (by rw [hh]; exact heq)
  | save => exact hrest nofun
  | inspect => exact hrest nofun
  | cancel => exact hrest nofun
  | cancelMiss => exact hrest nofun
  | cancelLoad => exact hrest nofun

/-! ## Runs -/

/-- A stored record survives a step. -/
theorem Phase.persists {a : Action} {record : RunRecord} (hphase : Phase runId n s)
    (hstep : Step s a t) (hstore : s.store runId = some record) :
    t.store runId = some record := by
  cases hstep with
  | @save h saved hh =>
      have hother : runId ≠ saved.request.runId := by
        intro heq
        have hfalse := (hphase.of_store hstore).2 h
        rw [hh, show (Handler.save saved).saves runId = true from decide_eq_true heq.symm] at hfalse
        cases hfalse
      exact (Function.update_of_ne hother ..).trans hstore
  | _ => exact hstore

/-- What holds after any run that claims the identifier only when it is fresh. -/
structure History (runId : Uuid) (tr : List (Event RunnerService Action))
    (s : RunnerService) : Prop where
  phase : Phase runId (tr.countP (startsBackend runId)) s
  validated : Validated s
  /-- A record that was answered is stored. -/
  settled : ∀ e ∈ tr, ∀ h execution record, Answers e h execution (.finished record) →
    execution.runId = runId →
    execution.Valid ∧ record.request = execution ∧ s.store runId = some record
  law : Idempotent runId tr

/-- An answer that comes after a finished one. -/
theorem History.replay {tr : List (Event RunnerService Action)} {a : Action} {h : HandlerId}
    {execution : ExecutionRequest} {body : ResponseBody} {record : RunRecord}
    (hhist : History runId tr s) (hstep : Step s a t)
    (hvalid : record.request.Valid) (hstore : s.store runId = some record)
    (hanswer : Answers ⟨s, a, t⟩ h execution body) (hrun : execution.runId = runId) :
    (execution = record.request → body = .finished record
      ∨ body = .rejected .idempotencyConflict "run is already active") ∧
    (execution ≠ record.request → execution.Valid →
      ∃ message, body = .rejected .idempotencyConflict message) := by
  subst hrun
  obtain ⟨hactive, hsaves⟩ := hhist.phase.of_store hstore
  cases hstep.reply hanswer with
  | invalid hinvalid =>
      exact ⟨fun heq => absurd (heq ▸ hvalid) hinvalid, fun _ hvalid' => absurd hvalid' hinvalid⟩
  | replay _ hloaded heq =>
      cases hstore.symm.trans hloaded
      exact ⟨fun _ => .inl rfl, fun hne => absurd heq.symm hne⟩
  | bound _ hloaded hne =>
      cases hstore.symm.trans hloaded
      exact ⟨fun heq => absurd heq.symm hne, fun _ _ => ⟨_, rfl⟩⟩
  | conflict _ hsome =>
      rw [hactive] at hsome
      cases hsome
  | @finished saved hh heq _ =>
      have hfalse := hsaves h
      rw [hh, ← heq, show (Handler.save saved).saves saved.request.runId = true from
        decide_eq_true rfl] at hfalse
      cases hfalse

theorem History.new (store : Uuid → Option RunRecord) : History runId [] (new store) where
  phase := .new store
  validated := nofun
  settled := nofun
  law := ⟨.nil, by simp, nofun⟩

/-- A step that answers a finished record leaves it stored. -/
theorem History.settle {tr : List (Event RunnerService Action)} {a : Action} {h : HandlerId}
    {execution : ExecutionRequest} {record : RunRecord} (hhist : History runId tr s)
    (hstep : Step s a t) (hanswer : Answers ⟨s, a, t⟩ h execution (.finished record))
    (hrun : execution.runId = runId) :
    execution.Valid ∧ record.request = execution ∧ t.store runId = some record := by
  subst hrun
  generalize hbody : ResponseBody.finished record = body at hanswer
  cases hstep.reply hanswer with
  | invalid => cases hbody
  | bound => cases hbody
  | conflict => cases hbody
  | replay hh hstore heq =>
      cases hbody
      exact ⟨hhist.validated h _ (by rw [hh]; rfl), heq, hhist.phase.persists hstep hstore⟩
  | finished hh heq hstore =>
      cases hbody
      exact ⟨hhist.validated h _ (by rw [hh, ← heq]; rfl), heq, hstore⟩

theorem History.step {tr : List (Event RunnerService Action)} {a : Action}
    (hhist : History runId tr s) (hstep : Step s a t) (hfresh : ClaimsFresh runId s a t) :
    History runId (tr ++ [⟨s, a, t⟩]) t := by
  have hphase : Phase runId (List.countP (startsBackend runId) (tr ++ [⟨s, a, t⟩])) t := by
    rw [List.countP_append, List.countP_singleton]
    exact hhist.phase.step hstep hfresh
  refine ⟨hphase, hhist.validated.step hstep, ?_, ?_, hphase.starts_le, ?_⟩
  · refine Transition.forall_mem_snoc ?_ ?_
    · intro e hold h execution record hanswer hrun
      obtain ⟨hvalid, heq, hstore⟩ := hhist.settled e hold h execution record hanswer hrun
      exact ⟨hvalid, heq, hhist.phase.persists hstep hstore⟩
    · intro h execution record hanswer hrun
      exact hhist.settle hstep hanswer hrun
  · refine Transition.pairwise_snoc hhist.law.replays ?_
    intro e he h execution record h' execution' body hfirst hrun hlater hrun'
    obtain ⟨hvalid, rfl, hstore⟩ := hhist.settled e he h execution record hfirst hrun
    exact hhist.replay hstep hvalid hstore hlater hrun'
  · refine Transition.forall_mem_snoc ?_ ?_
    · intro e hold record hstore
      exact hhist.law.persists e hold record hstore
    · intro record hstore
      exact hhist.phase.persists hstep hstore

/-- In every run whose claims of a run identifier are fresh, the identifier is
answered, started and stored once. -/
theorem idempotent_of_claimsFresh {tr : List (Event RunnerService Action)}
    (hstart : service.start s) (hrun : (service.restrict (ClaimsFresh runId)).Run s tr t) :
    Idempotent runId tr := by
  obtain ⟨store, rfl⟩ := hstart
  have hhist : History runId tr t := by
    refine hrun.history (I := History runId) (.new store) ?_
    intro tr u a v _ hhist hstep
    exact hhist.step (.of_step hstep.1) hstep.2
  exact hhist.law

/-- A request to print `ok`. -/
def printOk : ExecutionRequest where
  runId := 1
  workspaceId := 2
  projectId := 3
  revisionSha := "0123456789abcdef0123456789abcdef01234567"
  manifestDigest := "sha256:0123456789abcdef0123456789abcdef0123456789abcdef0123456789abcdef"
  resources := ⟨100, 16777216, 1048576, 8, 60, 1024⟩
  network := .denyAll
  repositoryWrite := .none
  simulation := ⟨0, "ok", "", 0⟩

theorem printOk_valid : printOk.validate = .ok () := by decide

/-- The run of one handler up to the start of its backend is such a run. -/
theorem idempotent_printOk : ∃ tr t,
    (service.restrict (ClaimsFresh 1)).Run (new fun _ => none) tr t ∧
      tr.countP (startsBackend 1) = 1 ∧ Idempotent 1 tr := by
  let s₀ := new fun _ => none
  let s₁ := s₀.goto 0 (.load printOk)
  let s₂ := s₁.goto 0 (.check printOk)
  let s₃ := { s₂.goto 0 (.poll printOk) with
    active := Function.update s₂.active 1 (some ⟨printOk, 0⟩) }
  let s₄ := s₃.goto 0 (.run printOk 10)
  have hcall : s₀.step (.call 0 (.execute printOk)) = some s₁ := by
    show some (s₀.goto 0 (receive (.execute printOk))) = some s₁
    simp only [receive, printOk_valid]
    rfl
  have hfresh : ∀ h, (s₂.handlers h).saves 1 = false :=
    goto_forall (p := fun _ x => x.saves 1 = false) rfl
      (fun h' _ => goto_forall (p := fun _ x => x.saves 1 = false) rfl (fun _ _ => rfl) h')
  have hrun : (service.restrict (ClaimsFresh 1)).Run s₀ [⟨s₀, .call 0 (.execute printOk), s₁⟩,
      ⟨s₁, .load 0, s₂⟩, ⟨s₂, .check 0, s₃⟩, ⟨s₃, .poll 0 10, s₄⟩] s₄ :=
    .cons ⟨hcall, nofun⟩ (.cons ⟨rfl, nofun⟩
      (.cons ⟨rfl, fun _ _ _ _ _ _ => ⟨rfl, hfresh⟩⟩ (.single ⟨rfl, nofun⟩)))
  exact ⟨_, s₄, hrun, rfl, idempotent_of_claimsFresh ⟨_, rfl⟩ hrun⟩

/-! ## A stale load -/

/-- A handler that takes the request from its check of the active runs to its
answer. -/
def runThrough (h : HandlerId) (now : Int) : List Action :=
  [.check h, .poll h now, .wake h (some (.output ⟨0, "ok", ""⟩)), .remove h (now + 1), .save h]

/-- One handler loads nothing, another runs the request, and then the first
one runs it again. -/
def overtaken : List Action :=
  [.call 0 (.execute printOk), .load 0, .call 1 (.execute printOk), .load 1]
    ++ runThrough 1 10 ++ runThrough 0 20

/-- The events of the steps from an empty store. -/
def eventsOf (actions : List Action) : List (Event RunnerService Action) :=
  System.events step (new fun _ => none) actions

/-- Not every run is idempotent: the backend can be started twice. -/
theorem not_idempotent :
    ¬∀ (runId : Uuid) (s t : RunnerService) (tr : List (Event RunnerService Action)),
      service.start s → service.Run s tr t → Idempotent runId tr := by
  intro hall
  obtain ⟨t, hrun⟩ : ∃ t, service.Run (new fun _ => none) (eventsOf overtaken) t :=
    System.Run.events (by decide)
  have hlaw : Idempotent 1 (eventsOf overtaken) := hall 1 _ t _ ⟨_, rfl⟩ hrun
  have htwice : (eventsOf overtaken).countP (startsBackend 1) = 2 := by decide
  exact absurd hlaw.started_once (by rw [htwice]; decide)

end RunnerService

end Cresix.Runner
