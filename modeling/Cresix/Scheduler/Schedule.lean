import Cresix.Rust.Text
import Mathlib.Order.Bounds.Defs

/-!
# The scheduler engine

`ValidatedSchedule::new`, `next_after` and `evaluate` of `c6-scheduler`.  An
instant, and a wall-clock time, is its number of nanoseconds since 1970.  The
crates that know the timezones and the cron fields are a parameter.
-/

namespace Scheduler

/-- What the scheduler uses of `chrono`, `chrono_tz` and `cron`. -/
structure Crates where
  /-- `chrono_tz::Tz`. -/
  Tz : Type
  /-- `Tz::from_str`. -/
  tzFromStr : String → Option Tz
  /-- The wall-clock time of `DateTime::with_timezone`. -/
  wallClock : Tz → Int → Int
  /-- `cron::Schedule`. -/
  Schedule : Type
  /-- `Schedule::from_str`, with the text of its error. -/
  scheduleFromStr : String → Except String Schedule
  /-- The wall-clock times that match the fields of a schedule. -/
  includes : Schedule → Int → Prop
  /-- `Schedule::after(local).next()`, where `local` is an instant seen in a
  timezone. -/
  afterNext : Schedule → Tz → Int → Option Int

/-- `MissedRunPolicy`. -/
inductive MissedRunPolicy where
  | skip
  | runOnce
deriving DecidableEq, Repr

/-- `ScheduleDefinition`. -/
structure ScheduleDefinition where
  id : String
  cron : String
  timezone : String
  missedRunPolicy : MissedRunPolicy
deriving DecidableEq, Repr

/-- `ScheduleError`. -/
inductive ScheduleError where
  | emptyId
  | invalidFieldCount (actual : Nat)
  | invalidCron (error : String)
  | invalidTimezone (timezone : String)
  | noFutureOccurrence
  | clockMovedBackwards (checkpoint now : Int)
deriving DecidableEq, Repr

/-- `ValidatedSchedule`. -/
structure ValidatedSchedule (C : Crates) where
  definition : ScheduleDefinition
  timezone : C.Tz
  parsed : C.Schedule

variable {C : Crates}

/-- The text that `cron` is given: seconds pinned to zero, all years. -/
def expanded (fields : List String) : String :=
  "0 " ++ " ".intercalate fields ++ " *"

/-- `ValidatedSchedule::new`. -/
def ValidatedSchedule.new (C : Crates) (definition : ScheduleDefinition) :
    Except ScheduleError (ValidatedSchedule C) :=
  if (Rust.trim definition.id.toList).isEmpty then .error .emptyId
  else
    let fields := (Rust.splitWhitespace definition.cron.toList).map String.ofList
    if fields.length ≠ 5 then .error (.invalidFieldCount fields.length)
    else
      match C.tzFromStr definition.timezone with
      | none => .error (.invalidTimezone definition.timezone)
      | some timezone =>
          match C.scheduleFromStr (expanded fields) with
          | .error error => .error (.invalidCron error)
          | .ok parsed => .ok ⟨definition, timezone, parsed⟩

/-- `ValidatedSchedule::next_after`. -/
def ValidatedSchedule.nextAfter (schedule : ValidatedSchedule C) (instant : Int) :
    Except ScheduleError Int :=
  match C.afterNext schedule.parsed schedule.timezone instant with
  | some next => .ok next
  | none => .error .noFutureOccurrence

/-- `OccurrenceKey`. -/
structure OccurrenceKey where
  scheduleId : String
  occurrenceAt : Int
deriving DecidableEq, Repr

/-- `TickMode`. -/
inductive TickMode where
  | live
  | recovery
deriving DecidableEq, Repr

/-- `TickState`. -/
structure TickState where
  evaluatedThrough : Int
  mode : TickMode
  activeOccurrence : Option OccurrenceKey
  claimedOccurrences : List OccurrenceKey
deriving DecidableEq, Repr

/-- `TickDecision`. -/
inductive TickDecision where
  | noOccurrenceDue
  | enqueue (key : OccurrenceKey)
  | missedOccurrenceSkipped (key : OccurrenceKey)
  | alreadyClaimed (key : OccurrenceKey)
  | blockedByActiveRun (due active : OccurrenceKey)
deriving DecidableEq, Repr

/-- `TickOutcome`. -/
structure TickOutcome where
  evaluatedThrough : Int
  decision : TickDecision
deriving DecidableEq, Repr

/-- The decision of `evaluate` on an occurrence that is due. -/
def decisionOn (schedule : ValidatedSchedule C) (state : TickState) (due : OccurrenceKey) :
    TickDecision :=
  if state.mode = .recovery ∧ schedule.definition.missedRunPolicy = .skip then
    .missedOccurrenceSkipped due
  else if due ∈ state.claimedOccurrences then .alreadyClaimed due
  else
    match state.activeOccurrence with
    | some active => .blockedByActiveRun due active
    | none => .enqueue due

/-- `evaluate`. -/
def evaluate (schedule : ValidatedSchedule C) (state : TickState) (now : Int) :
    Except ScheduleError TickOutcome :=
  if now < state.evaluatedThrough then
    .error (.clockMovedBackwards state.evaluatedThrough now)
  else
    match schedule.nextAfter state.evaluatedThrough with
    | .error .noFutureOccurrence => .ok ⟨now, .noOccurrenceDue⟩
    | .error other => .error other
    | .ok occurrenceAt =>
        if occurrenceAt > now then .ok ⟨now, .noOccurrenceDue⟩
        else .ok ⟨now, decisionOn schedule state ⟨schedule.definition.id, occurrenceAt⟩⟩

/-! ## What a decision is about -/

namespace TickDecision

/-- The occurrence a decision is about. -/
def subject : TickDecision → Option OccurrenceKey
  | noOccurrenceDue => none
  | enqueue key => some key
  | missedOccurrenceSkipped key => some key
  | alreadyClaimed key => some key
  | blockedByActiveRun due _ => some due

/-- The occurrence a decision enqueues. -/
def enqueued : TickDecision → Option OccurrenceKey
  | enqueue key => some key
  | _ => none

theorem subject_of_enqueued {decision : TickDecision} {key : OccurrenceKey}
    (h : decision.enqueued = some key) : decision.subject = some key := by
  cases decision with
  | enqueue key' => exact h
  | noOccurrenceDue => cases h
  | missedOccurrenceSkipped key' => cases h
  | alreadyClaimed key' => cases h
  | blockedByActiveRun due active => cases h

end TickDecision

variable {schedule : ValidatedSchedule C} {state : TickState} {now : Int} {due : OccurrenceKey}

@[simp] theorem subject_decisionOn :
    (decisionOn schedule state due).subject = some due := by
  unfold decisionOn
  split
  · rfl
  · split
    · rfl
    · cases state.activeOccurrence with
      | none => rfl
      | some active => rfl

/-- What `evaluate` enqueues was not claimed, and not to be skipped. -/
theorem not_mem_of_enqueued_decisionOn {key : OccurrenceKey}
    (h : (decisionOn schedule state due).enqueued = some key) :
    key ∉ state.claimedOccurrences ∧
      ¬ (state.mode = .recovery ∧ schedule.definition.missedRunPolicy = .skip) := by
  have hkey : key = due := by
    have hsubject := TickDecision.subject_of_enqueued h
    rw [subject_decisionOn] at hsubject
    exact (Option.some.inj hsubject).symm
  subst hkey
  unfold decisionOn at h
  split at h
  next => cases h
  next hskip =>
    split at h
    next => cases h
    next hclaimed => exact ⟨hclaimed, hskip⟩

theorem nextAfter_eq_error {t : Int} {error : ScheduleError}
    (h : schedule.nextAfter t = .error error) : error = .noFutureOccurrence := by
  unfold ValidatedSchedule.nextAfter at h
  split at h
  next => cases h
  next => exact (Except.error.inj h).symm

/-- All that `evaluate` can do: it refuses a clock behind the checkpoint, and
otherwise moves the checkpoint to the present and decides on the next
occurrence, if that is due. -/
theorem evaluate_cases (schedule : ValidatedSchedule C) (state : TickState) (now : Int) :
    (now < state.evaluatedThrough ∧ evaluate schedule state now =
        .error (.clockMovedBackwards state.evaluatedThrough now)) ∨
      (state.evaluatedThrough ≤ now ∧
        (∀ next, schedule.nextAfter state.evaluatedThrough = .ok next → now < next) ∧
        evaluate schedule state now = .ok ⟨now, .noOccurrenceDue⟩) ∨
      (state.evaluatedThrough ≤ now ∧ ∃ next,
        schedule.nextAfter state.evaluatedThrough = .ok next ∧ next ≤ now ∧
        evaluate schedule state now =
          .ok ⟨now, decisionOn schedule state ⟨schedule.definition.id, next⟩⟩) := by
  by_cases hback : now < state.evaluatedThrough
  · exact .inl ⟨hback, if_pos hback⟩
  · have hclock : state.evaluatedThrough ≤ now := Int.not_lt.mp hback
    cases hnext : schedule.nextAfter state.evaluatedThrough with
    | error error =>
        obtain rfl := nextAfter_eq_error hnext
        refine .inr (.inl ⟨hclock, ?_, by simp [evaluate, hback, hnext]⟩)
        intro next h
        cases h
    | ok next =>
        by_cases hlater : next > now
        · refine .inr (.inl ⟨hclock, ?_, by simp [evaluate, hback, hnext, hlater]⟩)
          intro next' h
          cases h
          exact hlater
        · refine .inr (.inr ⟨hclock, next, rfl, Int.not_lt.mp hlater, ?_⟩)
          simp only [evaluate, hback, hnext, if_false]
          rw [if_neg hlater]

end Scheduler
