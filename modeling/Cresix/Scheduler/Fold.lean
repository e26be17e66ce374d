import Cresix.Scheduler.Ticks
import Mathlib.Data.Int.LeastGreatest
import Mathlib.Tactic.Common

/-!
# The next occurrence inside a repeated hour

Wall-clock time does not follow the order of the instants: where the clock is
set back, a span of it is shown twice.  `cron` looks for the first matching
wall-clock time after the local one and answers with the earlier instant that
shows it.  During the second pass that instant has already gone by.

`nextAfter_strict_iff` tells exactly when `next_after` is strictly after its
argument: the wall-clock time it finds must not have been shown yet.
-/

namespace Scheduler

variable {C : Crates}

/-- The matching wall-clock times after the local one that exist in the
timezone. -/
def Ahead (schedule : ValidatedSchedule C) (t w : Int) : Prop :=
  C.wallClock schedule.timezone t < w ∧ C.includes schedule.parsed w ∧
    ∃ u, C.wallClock schedule.timezone u = w

/-- A day in nanoseconds. -/
def day : Int := 24 * hour

/-- What `next_after` relies on: `cron` takes the first matching wall-clock
time that exists, at the earlier of its instants, and `chrono` keeps offsets
below a day. -/
structure FirstWallTime (C : Crates) : Prop where
  next : ∀ (schedule : ValidatedSchedule C) t u,
    C.afterNext schedule.parsed schedule.timezone t = some u ↔
      ∃ w, IsLeast {w | Ahead schedule t w} w ∧
        IsLeast {v | C.wallClock schedule.timezone v = w} u
  offset : ∀ tz t, t - day < C.wallClock tz t ∧ C.wallClock tz t < t + day

/-- The first matching wall-clock time ahead was not shown at or before `t`. -/
def NotYetShown (schedule : ValidatedSchedule C) (t : Int) : Prop :=
  ∀ w, IsLeast {w | Ahead schedule t w} w → ∀ v ≤ t, C.wallClock schedule.timezone v ≠ w

/-- `next_after` and the ticks that start from `t` look strictly ahead. -/
def LooksAhead (schedule : ValidatedSchedule C) (t : Int) : Prop :=
  (∀ next, schedule.nextAfter t = .ok next → t < next) ∧
    ∀ tick : Tick C, tick.schedule = schedule →
      ∀ key, tick.subject t = some key → t < key.occurrenceAt

variable {schedule : ValidatedSchedule C} {t : Int}

theorem nextAfter_ok_iff {next : Int} :
    schedule.nextAfter t = .ok next ↔
      C.afterNext schedule.parsed schedule.timezone t = some next := by
  unfold ValidatedSchedule.nextAfter
  cases C.afterNext schedule.parsed schedule.timezone t with
  | none => simp
  | some u => simp

/-- A tick decides on what `next_after` gives for its checkpoint. -/
theorem nextAfter_of_subject {tick : Tick C} {key : OccurrenceKey}
    (h : tick.subject t = some key) : tick.schedule.nextAfter t = .ok key.occurrenceAt := by
  rcases evaluate_cases tick.schedule (tick.state t) tick.now with
    ⟨_, heq⟩ | ⟨_, _, heq⟩ | ⟨_, next, hdue, _, heq⟩
  · simp [Tick.subject, Tick.decision, Tick.result, heq] at h
  · simp [Tick.subject, Tick.decision, Tick.result, heq, TickDecision.subject] at h
  · simp only [Tick.subject, Tick.decision, Tick.result, heq, Option.bind_some,
      subject_decisionOn, Option.some.injEq] at h
    subst h
    exact hdue

/-- A wall-clock time that exists is shown for a first time. -/
theorem FirstWallTime.earliest (h : FirstWallTime C) {tz : C.Tz} {w u : Int}
    (hu : C.wallClock tz u = w) : ∃ v, IsLeast {v | C.wallClock tz v = w} v := by
  have hbound : ∀ v, C.wallClock tz v = w → w - day ≤ v := by
    intro v hv
    have := (h.offset tz v).2
    omega
  obtain ⟨v, hv, hleast⟩ := Int.exists_least_of_bdd ⟨_, hbound⟩ ⟨u, hu⟩
  exact ⟨v, hv, hleast⟩

/-- `next_after` is strictly after an instant exactly when the wall-clock time
it finds was not shown before. -/
theorem nextAfter_strict_iff (h : FirstWallTime C) (schedule : ValidatedSchedule C) (t : Int) :
    LooksAhead schedule t ↔ NotYetShown schedule t := by
  constructor
  · rintro ⟨hnext, _⟩ w hw v hle hshown
    obtain ⟨u, hu⟩ := h.earliest hshown
    have hlt : t < u := hnext u (nextAfter_ok_iff.mpr ((h.next schedule t u).mpr ⟨w, hw, hu⟩))
    exact absurd (lt_of_lt_of_le hlt (hu.2 hshown)) (not_lt.mpr hle)
  · intro hnew
    have hnext : ∀ next, schedule.nextAfter t = .ok next → t < next := by
      intro next hok
      obtain ⟨w, hw, hu⟩ := (h.next schedule t next).mp (nextAfter_ok_iff.mp hok)
      by_contra hle
      exact hnew w hw next (not_lt.mp hle) hu.1
    refine ⟨hnext, ?_⟩
    rintro tick rfl key hkey
    exact hnext _ (nextAfter_of_subject hkey)

/-- Outside of the second pass of a fold the clock has shown nothing that is
still ahead. -/
theorem notYetShown_of_no_fold
    (h : ∀ v ≤ t, C.wallClock schedule.timezone v ≤ C.wallClock schedule.timezone t) :
    NotYetShown schedule t := by
  intro w hw v hle hshown
  exact absurd hw.1.1 (not_lt.mpr (hshown ▸ h v hle))

/-! ## New York in 2025 -/

/-- Offsets of four and of five hours, between the two changes of 2025. -/
def newYorkClock (t : Int) : Int :=
  if 1741503600000000000 ≤ t ∧ t < 1762063200000000000 then t - 4 * hour else t - 5 * hour

/-- The earlier instant that shows a wall-clock time. -/
def newYorkInstant (w : Int) : Int :=
  if newYorkClock (w + 4 * hour) = w then w + 4 * hour else w + 5 * hour

/-- The first half past one after a wall-clock time. -/
def halfPastOneAfter (w : Int) : Int :=
  ((w - 5400000000000) / day + 1) * day + 5400000000000

/-- The crates on `30 1 * * *` in `America/New_York`, through 2025. -/
def newYork : Crates where
  Tz := Unit
  tzFromStr timezone := if timezone = "America/New_York" then some () else none
  wallClock _ := newYorkClock
  Schedule := Unit
  scheduleFromStr text := if text = "0 30 1 * * * *" then .ok () else .error "another schedule"
  includes _ w := w % day = 5400000000000
  afterNext _ _ t := some (newYorkInstant (halfPastOneAfter (newYorkClock t)))

theorem newYorkClock_instant {w : Int} (h : w % day = 5400000000000) :
    IsLeast {v | newYorkClock v = w} (newYorkInstant w) := by
  simp only [day, hour] at h
  have hshown : newYorkClock (newYorkInstant w) = w := by
    simp only [newYorkInstant, newYorkClock, hour]
    split_ifs <;> omega
  refine ⟨hshown, ?_⟩
  intro v hv
  change newYorkClock v = w at hv
  simp only [newYorkClock, hour] at hv
  simp only [newYorkInstant, newYorkClock, hour]
  split_ifs at hv ⊢ <;> omega

theorem newYork_ahead (t : Int) : IsLeast
    {w | newYorkClock t < w ∧ w % day = 5400000000000 ∧ ∃ u, newYorkClock u = w}
    (halfPastOneAfter (newYorkClock t)) := by
  generalize newYorkClock t = now
  have hmod : halfPastOneAfter now % day = 5400000000000 := by
    simp only [halfPastOneAfter, day, hour]
    omega
  constructor
  · refine ⟨?_, hmod, _, (newYorkClock_instant hmod).1⟩
    simp only [halfPastOneAfter, day, hour]
    omega
  · rintro w ⟨hlt, hw, _⟩
    simp only [halfPastOneAfter, day, hour] at hw ⊢
    omega

theorem newYork_firstWallTime : FirstWallTime newYork where
  next schedule t u := by
    have hmod := (newYork_ahead t).1.2.1
    constructor
    · intro h
      cases h
      exact ⟨_, newYork_ahead t, newYorkClock_instant hmod⟩
    · rintro ⟨w, hw, hu⟩
      obtain rfl := hw.unique (newYork_ahead t)
      exact congrArg some ((newYorkClock_instant hmod).unique hu)
  offset tz t := by
    show t - day < newYorkClock t ∧ newYorkClock t < t + day
    simp only [newYorkClock, day, hour]
    split <;> omega

/-- The schedule of the fold test. -/
def newYorkNightly : ValidatedSchedule newYork :=
  ⟨⟨"nightly", "30 1 * * *", "America/New_York", .runOnce⟩, (), ()⟩

/-- 2025-11-02T06:10:00Z, ten past one for the second time. -/
def secondPass : Int := 1762063800000000000

/-- 2025-11-02T05:30:00Z, half past one for the first time. -/
def firstPass : Int := 1762061400000000000

/-- From the second pass `next_after` goes back to the first one, and a tick
enqueues that occurrence once more. -/
theorem nextAfter_goes_back :
    FirstWallTime newYork ∧ firstPass < secondPass ∧
    newYorkNightly.nextAfter secondPass = .ok firstPass ∧
    evaluate newYorkNightly ⟨secondPass, .live, none, []⟩ (secondPass + hour) =
      .ok ⟨secondPass + hour, .enqueue ⟨"nightly", firstPass⟩⟩ ∧
    ¬ ∀ C : Crates, FirstWallTime C → ∀ (schedule : ValidatedSchedule C) t,
      LooksAhead schedule t := by
  have hback : newYorkNightly.nextAfter secondPass = .ok firstPass := rfl
  refine ⟨newYork_firstWallTime, by decide, hback, rfl, ?_⟩
  intro h
  exact absurd ((h newYork newYork_firstWallTime newYorkNightly secondPass).1 _ hback) (by decide)

/-- At the instant of the test before the fold the condition holds. -/
theorem nextAfter_strict_iff_newYork : LooksAhead newYorkNightly (firstPass - hour / 2) := by
  apply (nextAfter_strict_iff newYork_firstWallTime _ _).mpr
  apply notYetShown_of_no_fold
  intro v hle
  show newYorkClock v ≤ newYorkClock (firstPass - hour / 2)
  simp only [newYorkClock, firstPass, hour] at hle ⊢
  split_ifs <;> omega

end Scheduler
