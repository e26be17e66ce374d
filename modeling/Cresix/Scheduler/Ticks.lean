import Cresix.Library.Transition
import Cresix.Scheduler.Schedule
import Mathlib.Order.Bounds.Basic
import Mathlib.Order.Lattice

/-!
# Chains of ticks

The control plane commits the checkpoint that a tick returns and starts the
next tick from it.  A chain is a run of the system whose state is the
checkpoint.  Each tick brings its own schedule, mode, claims, active run and
reading of the clock; a tick that fails leaves the checkpoint where it is.

The invariant is that the checkpoint bounds every decision: a tick decides
between its checkpoint and the present, and the next checkpoint is the present.
-/

namespace Scheduler

open Transition

variable {C : Crates}

/-- `next_after` gives the least occurrence strictly after an instant. -/
def LeastAfter (occurs : ValidatedSchedule C → Int → Prop) : Prop :=
  ∀ schedule t next,
    schedule.nextAfter t = .ok next ↔ IsLeast {o | occurs schedule o ∧ t < o} next

/-! ## Evaluations that were committed -/

/-- An evaluation whose outcome was committed. -/
structure Committed (C : Crates) where
  schedule : ValidatedSchedule C
  state : TickState
  now : Int
  outcome : TickOutcome
  evaluated : evaluate schedule state now = .ok outcome

/-- The key that a committed evaluation enqueued. -/
def Committed.enqueued (evaluation : Committed C) : Option OccurrenceKey :=
  evaluation.outcome.decision.enqueued

/-- Each evaluation sees the keys that the earlier ones enqueued as claimed. -/
def ClaimsEarlier (log : List (Committed C)) : Prop :=
  log.Pairwise fun earlier later =>
    ∀ key, earlier.enqueued = some key → key ∈ later.state.claimedOccurrences

theorem Committed.not_claimed {evaluation : Committed C} {key : OccurrenceKey}
    (h : evaluation.enqueued = some key) : key ∉ evaluation.state.claimedOccurrences := by
  have hout := evaluation.evaluated
  rcases evaluate_cases evaluation.schedule evaluation.state evaluation.now with
    ⟨_, heq⟩ | ⟨_, _, heq⟩ | ⟨_, next, _, _, heq⟩
  · rw [heq] at hout
    cases hout
  · rw [heq] at hout
    rw [Committed.enqueued, ← Except.ok.inj hout] at h
    cases h
  · rw [heq] at hout
    rw [Committed.enqueued, ← Except.ok.inj hout] at h
    exact (not_mem_of_enqueued_decisionOn h).1

theorem nodup_enqueued {log : List (Committed C)} (h : ClaimsEarlier log) :
    (log.filterMap Committed.enqueued).Nodup := by
  apply List.Pairwise.filterMap Committed.enqueued _ h
  intro earlier later hclaims key hkey key' hkey' heq
  subst heq
  exact Committed.not_claimed hkey' (hclaims key hkey)

/-! ## Chains -/

/-- What a tick is given besides the checkpoint. -/
structure Tick (C : Crates) where
  schedule : ValidatedSchedule C
  mode : TickMode
  activeOccurrence : Option OccurrenceKey
  claimedOccurrences : List OccurrenceKey
  now : Int

namespace Tick

variable (tick : Tick C) (checkpoint : Int)

/-- The state that `evaluate` reads. -/
def state : TickState :=
  ⟨checkpoint, tick.mode, tick.activeOccurrence, tick.claimedOccurrences⟩

/-- The evaluation of a tick. -/
def result : Except ScheduleError TickOutcome :=
  evaluate tick.schedule (tick.state checkpoint) tick.now

/-- The checkpoint after a tick: the one that was returned, or the old one. -/
def commit : Int :=
  match tick.result checkpoint with
  | .ok outcome => outcome.evaluatedThrough
  | .error _ => checkpoint

/-- The decision of a tick, if it made one. -/
def decision : Option TickDecision :=
  match tick.result checkpoint with
  | .ok outcome => some outcome.decision
  | .error _ => none

/-- The occurrence that a tick decides on. -/
def subject : Option OccurrenceKey := (tick.decision checkpoint).bind TickDecision.subject

/-- The occurrence that a tick enqueues. -/
def enqueued : Option OccurrenceKey := (tick.decision checkpoint).bind TickDecision.enqueued

/-- `o` is the first occurrence in the interval of the tick. -/
def First (occurs : ValidatedSchedule C → Int → Prop) (o : Int) : Prop :=
  IsLeast {o | occurs tick.schedule o ∧ checkpoint < o ∧ o ≤ tick.now} o

variable {tick checkpoint}

theorem subject_of_enqueued {key : OccurrenceKey} (h : tick.enqueued checkpoint = some key) :
    tick.subject checkpoint = some key := by
  obtain ⟨decision, hdecision, hkey⟩ := Option.bind_eq_some_iff.mp h
  rw [subject, hdecision]
  exact TickDecision.subject_of_enqueued hkey

theorem first_iff {occurs : ValidatedSchedule C → Int → Prop} (hnext : LeastAfter occurs)
    {o : Int} : tick.First checkpoint occurs o ↔
      tick.schedule.nextAfter checkpoint = .ok o ∧ o ≤ tick.now := by
  rw [hnext]
  constructor
  · intro h
    refine ⟨⟨⟨h.1.1, h.1.2.1⟩, ?_⟩, h.1.2.2⟩
    intro o' ho'
    by_cases hlater : o' ≤ tick.now
    · exact h.2 ⟨ho'.1, ho'.2, hlater⟩
    · exact le_trans h.1.2.2 (le_of_not_ge hlater)
  · rintro ⟨h, hnow⟩
    refine ⟨⟨h.1.1, h.1.2, hnow⟩, ?_⟩
    intro o' ho'
    exact h.2 ⟨ho'.1, ho'.2.1⟩

/-- A tick decides on the first occurrence of its interval and on no other. -/
theorem subject_iff {occurs : ValidatedSchedule C → Int → Prop} (hnext : LeastAfter occurs)
    {key : OccurrenceKey} : tick.subject checkpoint = some key ↔
      key.scheduleId = tick.schedule.definition.id ∧
        tick.First checkpoint occurs key.occurrenceAt := by
  have hleast : ∀ {next}, tick.schedule.nextAfter checkpoint = .ok next → checkpoint < next := by
    intro next h
    exact ((hnext _ _ _).mp h).1.2
  rw [first_iff hnext]
  rcases evaluate_cases tick.schedule (tick.state checkpoint) tick.now with
    ⟨hback, heq⟩ | ⟨_, hlater, heq⟩ | ⟨_, next, hdue, hnow, heq⟩
  · simp only [subject, decision, result, heq, Option.bind_none, reduceCtorEq, false_iff]
    rintro ⟨_, hdue, hnow⟩
    exact absurd (lt_of_lt_of_le (hleast hdue) hnow) (not_lt.mpr (le_of_lt hback))
  · simp only [subject, decision, result, heq, Option.bind_some, TickDecision.subject,
      reduceCtorEq, false_iff]
    rintro ⟨_, hdue, hnow⟩
    exact absurd (hlater _ hdue) (not_lt.mpr hnow)
  · simp only [subject, decision, result, heq, Option.bind_some, subject_decisionOn,
      Option.some.injEq]
    constructor
    · rintro rfl
      exact ⟨rfl, hdue, hnow⟩
    · rintro ⟨hid, hdue', _⟩
      obtain rfl : next = key.occurrenceAt := Except.ok.inj (hdue.symm.trans hdue')
      rw [← hid]

theorem commit_cases (tick : Tick C) (checkpoint : Int) :
    (tick.now < checkpoint ∧ tick.commit checkpoint = checkpoint) ∨
      (checkpoint ≤ tick.now ∧ tick.commit checkpoint = tick.now) := by
  rcases evaluate_cases tick.schedule (tick.state checkpoint) tick.now with
    ⟨hback, heq⟩ | ⟨hclock, _, heq⟩ | ⟨hclock, _, _, _, heq⟩
  · exact .inl ⟨hback, by rw [commit, result, heq]⟩
  · exact .inr ⟨hclock, by rw [commit, result, heq]⟩
  · exact .inr ⟨hclock, by rw [commit, result, heq]⟩

theorem le_commit : checkpoint ≤ tick.commit checkpoint := by
  rcases commit_cases tick checkpoint with ⟨_, heq⟩ | ⟨hclock, heq⟩
  · exact le_of_eq heq.symm
  · rw [heq]
    exact hclock

theorem now_le_commit : tick.now ≤ tick.commit checkpoint := by
  rcases commit_cases tick checkpoint with ⟨hback, heq⟩ | ⟨_, heq⟩
  · rw [heq]
    exact le_of_lt hback
  · exact le_of_eq heq.symm

/-- A recovery tick under `Skip` enqueues nothing. -/
theorem enqueued_of_skip (hmode : tick.mode = .recovery)
    (hpolicy : tick.schedule.definition.missedRunPolicy = .skip) :
    tick.enqueued checkpoint = none := by
  rcases evaluate_cases tick.schedule (tick.state checkpoint) tick.now with
    ⟨_, heq⟩ | ⟨_, _, heq⟩ | ⟨_, next, _, _, heq⟩
  · simp [enqueued, decision, result, heq]
  · simp [enqueued, decision, result, heq, TickDecision.enqueued]
  · rw [decisionOn, if_pos ⟨hmode, hpolicy⟩] at heq
    simp [enqueued, decision, result, heq, TickDecision.enqueued]

end Tick

/-- The checkpoint as the control plane keeps it, from tick to tick. -/
def chain (C : Crates) : System Int (Tick C) :=
  .ofFunction (fun _ => True) fun checkpoint tick => tick.commit checkpoint

/-- The event of a tick in a chain. -/
abbrev TickEvent (C : Crates) := Event Int (Tick C)

namespace TickEvent

/-- The occurrence that the tick decides on. -/
def subject (e : TickEvent C) : Option OccurrenceKey := e.label.subject e.pre

/-- The occurrence that the tick enqueues. -/
def enqueued (e : TickEvent C) : Option OccurrenceKey := e.label.enqueued e.pre

/-- The tick decides on the occurrence at `o`. -/
def decides (o : Int) (e : TickEvent C) : Bool :=
  (subject e).map OccurrenceKey.occurrenceAt == some o

/-- `o` is the first occurrence in the interval of the tick. -/
def First (occurs : ValidatedSchedule C → Int → Prop) (e : TickEvent C) (o : Int) : Prop :=
  e.label.First e.pre occurs o

variable {occurs : ValidatedSchedule C → Int → Prop} {e : TickEvent C} {o : Int}

theorem decides_iff (hnext : LeastAfter occurs) : decides o e = true ↔ First occurs e o := by
  rw [decides, beq_iff_eq, Option.map_eq_some_iff]
  constructor
  · rintro ⟨key, hkey, rfl⟩
    exact ((Tick.subject_iff hnext).mp hkey).2
  · intro h
    exact ⟨⟨e.label.schedule.definition.id, o⟩, (Tick.subject_iff hnext).mpr ⟨rfl, h⟩, rfl⟩

theorem First.unique {o' : Int} (h : First occurs e o) (h' : First occurs e o') : o = o' :=
  IsLeast.unique h h'

theorem First.of_enqueued (hnext : LeastAfter occurs) {key : OccurrenceKey}
    (h : enqueued e = some key) : First occurs e key.occurrenceAt :=
  ((Tick.subject_iff hnext).mp (Tick.subject_of_enqueued h)).2

end TickEvent

section Runs

variable {occurs : ValidatedSchedule C → Int → Prop} {c c' : Int} {tr : List (TickEvent C)}

theorem chain_step_le (checkpoint : Int) (tick : Tick C) (checkpoint' : Int)
    (h : (chain C).step checkpoint tick checkpoint') : checkpoint ≤ checkpoint' := by
  obtain rfl : checkpoint' = tick.commit checkpoint := h
  exact Tick.le_commit

/-- What a tick of a chain decides on lies between its two checkpoints. -/
theorem First.between (h : (chain C).Run c tr c') {e : TickEvent C} (he : e ∈ tr) {o : Int}
    (hfirst : TickEvent.First occurs e o) : e.pre < o ∧ o ≤ e.label.now ∧ o ≤ e.post := by
  have hpost : e.post = e.label.commit e.pre := h.step_of_mem he
  have hnow : e.label.now ≤ e.post := hpost ▸ Tick.now_le_commit
  exact ⟨hfirst.1.2.1, hfirst.1.2.2, le_trans hfirst.1.2.2 hnow⟩

/-- Of two ticks of a chain the later one decides on the later occurrence. -/
theorem pairwise_first (h : (chain C).Run c tr c') :
    tr.Pairwise fun e e' => ∀ o o', TickEvent.First occurs e o →
      TickEvent.First occurs e' o' → o < o' := by
  have hordered := h.pairwise_le (f := id) chain_step_le
  apply hordered.imp_of_mem
  intro e e' he he' hle o o' hfirst hfirst'
  calc o ≤ e.post := (First.between h he hfirst).2.2
    _ ≤ e'.pre := hle
    _ < o' := (First.between h he' hfirst').1

/-- An occurrence that is the first of some interval is decided in one tick. -/
theorem countP_decides (hnext : LeastAfter occurs) (h : (chain C).Run c tr c') {o : Int}
    {e : TickEvent C} (he : e ∈ tr) (hfirst : TickEvent.First occurs e o) :
    tr.countP (TickEvent.decides o) = 1 := by
  have hordered : tr.Pairwise fun e e' => ∀ o o', TickEvent.First occurs e o →
      TickEvent.First occurs e' o' → o < o' := pairwise_first h
  obtain ⟨before, after, rfl⟩ := List.append_of_mem he
  rw [List.pairwise_append, List.pairwise_cons] at hordered
  obtain ⟨_, ⟨hafter, _⟩, hbefore⟩ := hordered
  have hnone : ∀ e' ∈ before, ¬ TickEvent.decides o e' = true := by
    intro e' he' hdecides
    have hfirst' := (TickEvent.decides_iff hnext).mp hdecides
    exact lt_irrefl o (hbefore e' he' e List.mem_cons_self o o hfirst' hfirst)
  have hnone' : ∀ e' ∈ after, ¬ TickEvent.decides o e' = true := by
    intro e' he' hdecides
    have hfirst' := (TickEvent.decides_iff hnext).mp hdecides
    exact lt_irrefl o (hafter e' he' o o hfirst hfirst')
  rw [List.countP_append, List.countP_cons_of_pos ((TickEvent.decides_iff hnext).mpr hfirst),
    List.countP_eq_zero.mpr hnone, List.countP_eq_zero.mpr hnone']

/-- After a tick nothing up to its reading of the clock is decided. -/
theorem now_lt_of_later {before after : List (TickEvent C)} {e : TickEvent C}
    (h : (chain C).Run c (before ++ e :: after) c') {e' : TickEvent C} (he' : e' ∈ after)
    {o : Int} (hfirst : TickEvent.First occurs e' o) : e.label.now < o := by
  have hordered := h.pairwise_le (f := id) chain_step_le
  rw [List.pairwise_append, List.pairwise_cons] at hordered
  have hpost : e.post = e.label.commit e.pre := h.split_at.2.1
  calc e.label.now ≤ e.post := hpost ▸ Tick.now_le_commit
    _ ≤ e'.pre := hordered.2.1.1 e' he'
    _ < o := hfirst.1.2.1

end Runs

/-! ## An hourly schedule in UTC -/

/-- An hour in nanoseconds. -/
def hour : Int := 3600000000000

/-- The crates, as far as an hourly schedule in UTC uses them. -/
def hourly : Crates where
  Tz := Unit
  tzFromStr timezone := if timezone = "UTC" then some () else none
  wallClock _ t := t
  Schedule := Unit
  scheduleFromStr text := if text = "0 0 * * * * *" then .ok () else .error "not hourly"
  includes _ w := w % hour = 0
  afterNext _ _ t := some ((t / hour + 1) * hour)

theorem hourly_least : LeastAfter (C := hourly) fun _ o => o % hour = 0 := by
  have hleast : ∀ t : Int, IsLeast {o | o % hour = 0 ∧ t < o} ((t / hour + 1) * hour) := by
    intro t
    simp only [hour]
    constructor
    · show _ ∧ _
      omega
    · rintro o ⟨hmod, hlt⟩
      omega
  intro schedule t next
  show Except.ok ((t / hour + 1) * hour) = Except.ok next ↔ _
  constructor
  · intro h
    cases h
    exact hleast t
  · intro h
    rw [IsLeast.unique (hleast t) h]

/-- The schedule of the tests, every hour in UTC. -/
def nightly (policy : MissedRunPolicy) : ValidatedSchedule hourly :=
  ⟨⟨"nightly", "0 * * * *", "UTC", policy⟩, (), ()⟩

example : ValidatedSchedule.new hourly ⟨"nightly", "0 * * * *", "UTC", .skip⟩ =
    .ok (nightly .skip) := rfl

/-- A tick of the hourly schedule with no claims and no active run. -/
def nightlyTick (policy : MissedRunPolicy) (mode : TickMode) (now : Int) : Tick hourly :=
  ⟨nightly policy, mode, none, [], now⟩

/-- A live tick and the recovery tick after it. -/
def nightlyEvents (policy : MissedRunPolicy) : List (TickEvent hourly) :=
  [⟨0, nightlyTick policy .live (3 * hour), 3 * hour⟩,
    ⟨3 * hour, nightlyTick policy .recovery (6 * hour), 6 * hour⟩]

theorem run_nightlyEvents (policy : MissedRunPolicy) :
    (chain hourly).Run 0 (nightlyEvents policy) (6 * hour) := by
  apply System.Run.cons
  · rfl
  · exact System.Run.single rfl

/-! ## At most once -/

/-- No key is enqueued twice when each committed evaluation sees the earlier
keys as claimed.  In a chain, with any claims, the checkpoint never goes back
and the enqueued occurrences increase, each within its tick. -/
theorem enqueued_at_most_once (occurs : ValidatedSchedule C → Int → Prop)
    (hnext : LeastAfter occurs) :
    (∀ log : List (Committed C), ClaimsEarlier log →
      (log.filterMap Committed.enqueued).Nodup) ∧
    ∀ c c' tr, (chain C).Run c tr c' →
      (∀ e ∈ tr, c ≤ e.pre ∧ e.pre ≤ e.post ∧ e.post ≤ c') ∧
      (tr.Pairwise fun e e' => e.post ≤ e'.pre) ∧
      ((tr.filterMap TickEvent.enqueued).Pairwise fun key key' =>
        key.occurrenceAt < key'.occurrenceAt) ∧
      (∀ e ∈ tr, ∀ key, TickEvent.enqueued e = some key →
        e.pre < key.occurrenceAt ∧ key.occurrenceAt ≤ e.label.now) ∧
      ∀ e ∈ tr, ∀ error, e.label.result e.pre = .error error →
        TickEvent.subject e = none ∧ TickEvent.enqueued e = none ∧ e.post = e.pre := by
  refine ⟨fun log h => nodup_enqueued h, ?_⟩
  intro c c' tr h
  refine ⟨?_, h.pairwise_le (f := id) chain_step_le, ?_, ?_, ?_⟩
  · intro e he
    obtain ⟨before, after, _, hbefore, hst, hafter⟩ := h.split he
    exact ⟨hbefore.le (f := id) chain_step_le, chain_step_le _ _ _ hst,
      hafter.le (f := id) chain_step_le⟩
  · have hordered : tr.Pairwise fun e e' => ∀ o o', TickEvent.First occurs e o →
        TickEvent.First occurs e' o' → o < o' := pairwise_first h
    apply List.Pairwise.filterMap TickEvent.enqueued _ hordered
    intro e e' hlt key hkey key' hkey'
    exact hlt _ _ (TickEvent.First.of_enqueued hnext hkey) (TickEvent.First.of_enqueued hnext hkey')
  · intro e he key hkey
    have hbetween := First.between h he (TickEvent.First.of_enqueued hnext hkey)
    exact ⟨hbetween.1, hbetween.2.1⟩
  · intro e he error herror
    have hpost : e.post = e.label.commit e.pre := h.step_of_mem he
    refine ⟨?_, ?_, ?_⟩
    · simp [TickEvent.subject, Tick.subject, Tick.decision, herror]
    · simp [TickEvent.enqueued, Tick.enqueued, Tick.decision, herror]
    · simp [hpost, Tick.commit, herror]

theorem enqueued_at_most_once_nightly :
    (nightlyEvents .runOnce).filterMap TickEvent.enqueued =
      [⟨"nightly", hour⟩, ⟨"nightly", 4 * hour⟩] ∧
    ((nightlyEvents .runOnce).filterMap TickEvent.enqueued).Pairwise fun key key' =>
      key.occurrenceAt < key'.occurrenceAt :=
  ⟨rfl, ((enqueued_at_most_once _ hourly_least).2 _ _ _ (run_nightlyEvents .runOnce)).2.2.1⟩

/-! ## Exact accounting -/

/-- An occurrence is decided in exactly one tick when it is the first of that
tick's interval, and in none otherwise. -/
theorem decided_exactly_once (occurs : ValidatedSchedule C → Int → Prop)
    (hnext : LeastAfter occurs) {c c' : Int} {tr : List (TickEvent C)}
    (h : (chain C).Run c tr c') :
    (∀ e ∈ tr, ∀ o, TickEvent.decides o e = true ↔ TickEvent.First occurs e o) ∧
    (∀ o, (∃ e ∈ tr, TickEvent.First occurs e o) → tr.countP (TickEvent.decides o) = 1) ∧
    (∀ o, (∀ e ∈ tr, ¬ TickEvent.First occurs e o) → tr.countP (TickEvent.decides o) = 0) ∧
    ∀ before e after, tr = before ++ e :: after →
      (e.label.mode = .recovery → e.label.schedule.definition.missedRunPolicy = .skip →
        ∀ e' ∈ e :: after, ∀ key, TickEvent.enqueued e' = some key →
          e.label.now < key.occurrenceAt) ∧
      ∀ o, o ≤ e.label.now → ¬ TickEvent.First occurs e o →
        ∀ e' ∈ e :: after, TickEvent.decides o e' = false := by
  refine ⟨fun e _ o => TickEvent.decides_iff hnext, ?_, ?_, ?_⟩
  · rintro o ⟨e, he, hfirst⟩
    exact countP_decides hnext h he hfirst
  · intro o hnone
    rw [List.countP_eq_zero]
    intro e he hdecides
    exact hnone e he ((TickEvent.decides_iff hnext).mp hdecides)
  · rintro before e after rfl
    constructor
    · intro hmode hpolicy e' he' key hkey
      rcases List.mem_cons.mp he' with rfl | hlater
      · rw [TickEvent.enqueued, Tick.enqueued_of_skip hmode hpolicy] at hkey
        cases hkey
      · exact now_lt_of_later h hlater (TickEvent.First.of_enqueued hnext hkey)
    · intro o hnow hother e' he'
      rw [Bool.eq_false_iff, ne_eq, TickEvent.decides_iff hnext]
      intro hfirst
      rcases List.mem_cons.mp he' with rfl | hlater
      · exact hother hfirst
      · exact absurd (now_lt_of_later h hlater hfirst) (not_lt.mpr hnow)

theorem decided_exactly_once_nightly :
    (nightlyEvents .skip).map TickEvent.subject =
      [some ⟨"nightly", hour⟩, some ⟨"nightly", 4 * hour⟩] ∧
    (nightlyEvents .skip).map TickEvent.enqueued = [some ⟨"nightly", hour⟩, none] ∧
    (nightlyEvents .skip).countP (TickEvent.decides (2 * hour)) = 0 := by
  refine ⟨rfl, rfl, ?_⟩
  apply (decided_exactly_once _ hourly_least (run_nightlyEvents .skip)).2.2.1
  intro e he hfirst
  rw [nightlyEvents, List.mem_cons, List.mem_singleton] at he
  rcases he with rfl | rfl
  · have hle : 2 * hour ≤ hour := hfirst.2 ⟨rfl, by decide, by decide⟩
    exact absurd hle (by decide)
  · exact absurd hfirst.1.2.1 (by decide)

end Scheduler
