import Cresix.Library.Calendar
import Cresix.Scheduler.Schedule

/-!
# Five-field expressions

An expression is five fields of numbers, ranges, steps and `*`.  Standard cron
and the `cron` crate read the same text differently: the crate counts the days
of the week from Sunday = 1, knows no weekday 0, and takes the days on which
both day fields match.  `ValidatedSchedule::new` hands the fields over as they
are.

`means_standard_iff` tells exactly for which expressions the two readings
agree.
-/

namespace Scheduler

open Calendar

/-! ## Expressions -/

/-- A number as it is written. -/
structure Numeral where
  first : Fin 10
  rest : List (Fin 10)

/-- One digit. -/
def Numeral.digit (d : Fin 10) : Numeral := ⟨d, []⟩

/-- The number that is written. -/
def Numeral.value (n : Numeral) : Nat :=
  (n.first :: n.rest).foldl (fun value digit => 10 * value + digit.val) 0

/-- The digits of a number. -/
def Numeral.text (n : Numeral) : String :=
  String.ofList ((n.first :: n.rest).map fun digit => Nat.digitChar digit.val)

/-- An entry of a list. -/
inductive Item where
  | all
  | allStep (step : Numeral)
  | number (n : Numeral)
  | range (first last : Numeral)
  | rangeStep (first last step : Numeral)

namespace Item

/-- The text of an entry. -/
def text : Item → String
  | all => "*"
  | allStep step => "*/" ++ step.text
  | number n => n.text
  | range first last => first.text ++ "-" ++ last.text
  | rangeStep first last step => first.text ++ "-" ++ last.text ++ "/" ++ step.text

/-- The entry is well formed for the values of a field. -/
def valid (low high : Nat) : Item → Bool
  | all => true
  | allStep step => 1 ≤ step.value
  | number n => low ≤ n.value && n.value ≤ high
  | range first last => low ≤ first.value && first.value ≤ last.value && last.value ≤ high
  | rangeStep first last step =>
      low ≤ first.value && first.value ≤ last.value && last.value ≤ high && 1 ≤ step.value

/-- The step of the entry is a `u32`. -/
def stepFits : Item → Bool
  | allStep step => step.value ≤ Rust.u32Max
  | rangeStep _ _ step => step.value ≤ Rust.u32Max
  | _ => true

/-- The entry selects a value of a field. -/
def selects (low high value : Nat) : Item → Bool
  | all => low ≤ value && value ≤ high
  | allStep step => low ≤ value && value ≤ high && (value - low) % step.value = 0
  | number n => value = n.value
  | range first last => first.value ≤ value && value ≤ last.value
  | rangeStep first last step =>
      first.value ≤ value && value ≤ last.value && (value - first.value) % step.value = 0

end Item

/-- A field: a list of entries. -/
structure Field where
  first : Item
  rest : List Item

namespace Field

/-- A field with one entry. -/
def one (item : Item) : Field := ⟨item, []⟩

/-- The entries of a field. -/
def items (field : Field) : List Item := field.first :: field.rest

/-- The text of a field. -/
def text (field : Field) : String := ",".intercalate (field.items.map Item.text)

/-- All entries are well formed. -/
def valid (low high : Nat) (field : Field) : Bool := field.items.all (Item.valid low high)

/-- All steps are `u32`s. -/
def stepsFit (field : Field) : Bool := field.items.all Item.stepFits

/-- Some entry selects the value. -/
def selects (low high value : Nat) (field : Field) : Bool :=
  field.items.any (Item.selects low high value)

end Field

/-- A five-field expression. -/
structure CronExpr where
  minute : Field
  hour : Field
  dayOfMonth : Field
  month : Field
  weekday : Field

/-! ## The two readings -/

/-- The minute of a wall-clock time in seconds. -/
def minuteOf (n : Int) : Nat := (n / 60 % 60).toNat

/-- The hour of a wall-clock time in seconds. -/
def hourOf (n : Int) : Nat := (n / 3600 % 24).toNat

/-- The day of a wall-clock time in seconds. -/
def dayNumber (n : Int) : Int := n / 86400

namespace CronExpr

/-- The texts of the fields. -/
def texts (e : CronExpr) : List String :=
  [e.minute.text, e.hour.text, e.dayOfMonth.text, e.month.text, e.weekday.text]

/-- The fields other than the weekday are well formed. -/
def othersValid (e : CronExpr) : Bool :=
  e.minute.valid 0 59 && e.hour.valid 0 23 && e.dayOfMonth.valid 1 31 && e.month.valid 1 12

/-- The expression is valid in standard cron, where the weekday is 0 to 7. -/
def standard (e : CronExpr) : Bool := e.othersValid && e.weekday.valid 0 7

/-- All steps are `u32`s. -/
def stepsFit (e : CronExpr) : Bool :=
  e.minute.stepsFit && e.hour.stepsFit && e.dayOfMonth.stepsFit && e.month.stepsFit &&
    e.weekday.stepsFit

/-- The expression is valid in the crate, where the weekday is 1 to 7. -/
def accepted (e : CronExpr) : Bool := e.othersValid && e.weekday.valid 1 7 && e.stepsFit

/-- A day of the week in the numbering of standard cron, with 0 and 7 for
Sunday. -/
def standardWeekday (e : CronExpr) (weekday : Nat) : Bool :=
  e.weekday.selects 0 7 weekday || (weekday = 0 && e.weekday.selects 0 7 7)

/-- A day of the week in the numbering of the crate, with 1 for Sunday. -/
def crateWeekday (e : CronExpr) (weekday : Nat) : Bool := e.weekday.selects 1 7 (weekday + 1)

/-- The days of standard cron.  When both day fields restrict, either of them
suffices.  Standards differ on whether `*/2` restricts, so that is left open. -/
def standardDay (restricts : Field → Bool) (e : CronExpr) (day weekday : Nat) : Bool :=
  if restricts e.dayOfMonth && restricts e.weekday then
    e.dayOfMonth.selects 1 31 day || e.standardWeekday weekday
  else e.dayOfMonth.selects 1 31 day && e.standardWeekday weekday

/-- The days of the crate. -/
def crateDay (e : CronExpr) (day weekday : Nat) : Bool :=
  e.dayOfMonth.selects 1 31 day && e.crateWeekday weekday

/-- A whole minute whose minute, hour and month are selected. -/
def timeMatches (e : CronExpr) (n : Int) : Bool :=
  n % 60 = 0 && e.minute.selects 0 59 (minuteOf n) && e.hour.selects 0 23 (hourOf n) &&
    e.month.selects 1 12 (dateOf (dayNumber n)).month

/-- The times at which standard cron fires. -/
def standardMatches (restricts : Field → Bool) (e : CronExpr) (n : Int) : Bool :=
  e.timeMatches n &&
    e.standardDay restricts (dateOf (dayNumber n)).day (Calendar.weekday (dayNumber n))

/-- The times at which the crate fires. -/
def crateMatches (e : CronExpr) (n : Int) : Bool :=
  e.timeMatches n && e.crateDay (dateOf (dayNumber n)).day (Calendar.weekday (dayNumber n))

end CronExpr

/-- What `ValidatedSchedule::new` relies on for an expression with the seconds
pinned to zero: the crate accepts it when its numbers are in range, and fires
when all fields match, in the years it knows. -/
structure FiveFields (C : Crates) (years : Int → Prop) (e : CronExpr) : Prop where
  accepts : e.accepted = true → ∃ parsed, C.scheduleFromStr (expanded e.texts) = .ok parsed ∧
    ∀ n, C.includes parsed (n * 1000000000) ↔
      years (dateOf (dayNumber n)).year ∧ e.crateMatches n = true
  rejects : e.accepted = false → ∃ error, C.scheduleFromStr (expanded e.texts) = .error error

/-- The schedule is accepted and fires at the standard times. -/
def MeansStandard (C : Crates) (years : Int → Prop) (restricts : Field → Bool) (e : CronExpr)
    (definition : ScheduleDefinition) : Prop :=
  ∃ schedule, ValidatedSchedule.new C definition = .ok schedule ∧
    ∀ n, years (dateOf (dayNumber n)).year →
      (C.includes schedule.parsed (n * 1000000000) ↔ e.standardMatches restricts n = true)

/-- The two readings agree on the days of the selected months. -/
def DaysAgree (restricts : Field → Bool) (e : CronExpr) : Prop :=
  if restricts e.dayOfMonth && restricts e.weekday then
    (∀ month day, e.month.selects 1 12 month = true → 1 ≤ day → day ≤ longest month →
      e.dayOfMonth.selects 1 31 day = true) ∧
    ∀ weekday < 7, e.crateWeekday weekday = true
  else
    (∀ weekday < 7, e.standardWeekday weekday = e.crateWeekday weekday) ∨
    ∀ month day, e.month.selects 1 12 month = true → e.dayOfMonth.selects 1 31 day = true →
      longest month < day

/-! ## What a field selects -/

/-- A well-formed entry selects some value of its field. -/
theorem Item.exists_selects {low high : Nat} {item : Item} (hle : low ≤ high)
    (h : item.valid low high = true) :
    ∃ value, low ≤ value ∧ value ≤ high ∧ item.selects low high value = true := by
  cases item with
  | all => exact ⟨low, le_refl _, hle, by simp [selects, hle]⟩
  | allStep step => exact ⟨low, le_refl _, hle, by simp [selects, hle]⟩
  | number n =>
      simp only [valid, Bool.and_eq_true, decide_eq_true_eq] at h
      exact ⟨n.value, h.1, h.2, by simp [selects]⟩
  | range first last =>
      simp only [valid, Bool.and_eq_true, decide_eq_true_eq] at h
      obtain ⟨⟨hlow, hrange⟩, hhigh⟩ := h
      exact ⟨first.value, hlow, le_trans hrange hhigh, by simp [selects, hrange]⟩
  | rangeStep first last step =>
      simp only [valid, Bool.and_eq_true, decide_eq_true_eq] at h
      obtain ⟨⟨⟨hlow, hrange⟩, hhigh⟩, _⟩ := h
      exact ⟨first.value, hlow, le_trans hrange hhigh, by simp [selects, hrange]⟩

/-- A well-formed entry selects values of its field only. -/
theorem Item.selects_bounds {low high value : Nat} {item : Item}
    (h : item.valid low high = true) (hselects : item.selects low high value = true) :
    low ≤ value ∧ value ≤ high := by
  cases item with
  | all => simpa [selects] using hselects
  | allStep step =>
      simp only [selects, Bool.and_eq_true, decide_eq_true_eq] at hselects
      exact hselects.1
  | number n =>
      simp only [valid, selects, Bool.and_eq_true, decide_eq_true_eq] at h hselects
      omega
  | range first last =>
      simp only [valid, selects, Bool.and_eq_true, decide_eq_true_eq] at h hselects
      omega
  | rangeStep first last step =>
      simp only [valid, selects, Bool.and_eq_true, decide_eq_true_eq] at h hselects
      omega

theorem Field.exists_selects {low high : Nat} {field : Field} (hle : low ≤ high)
    (h : field.valid low high = true) :
    ∃ value, low ≤ value ∧ value ≤ high ∧ field.selects low high value = true := by
  have hfirst : field.first.valid low high = true :=
    List.all_eq_true.mp h _ List.mem_cons_self
  obtain ⟨value, hlow, hhigh, hselects⟩ := Item.exists_selects hle hfirst
  exact ⟨value, hlow, hhigh, List.any_eq_true.mpr ⟨_, List.mem_cons_self, hselects⟩⟩

theorem Field.selects_bounds {low high value : Nat} {field : Field}
    (h : field.valid low high = true) (hselects : field.selects low high value = true) :
    low ≤ value ∧ value ≤ high := by
  obtain ⟨item, hitem, hvalue⟩ := List.any_eq_true.mp hselects
  exact Item.selects_bounds (List.all_eq_true.mp h item hitem) hvalue

/-! ## Days that the calendar has -/

variable {e : CronExpr} {restricts : Field → Bool}

/-- Each day of a selected month, on each day of the week, has a minute whose
minute, hour and month are selected. -/
theorem exists_time (he : e.othersValid = true) {month day weekday : Nat}
    (hmonth : e.month.selects 1 12 month = true) (hday : 1 ≤ day) (hlongest : day ≤ longest month)
    (hweek : weekday < 7) :
    ∃ n, e.timeMatches n = true ∧ (dateOf (dayNumber n)).month = month ∧
      (dateOf (dayNumber n)).day = day ∧ Calendar.weekday (dayNumber n) = weekday ∧
      2000 ≤ (dateOf (dayNumber n)).year ∧ (dateOf (dayNumber n)).year ≤ 2024 := by
  simp only [CronExpr.othersValid, Bool.and_eq_true] at he
  obtain ⟨⟨⟨hminutes, hhours⟩, _⟩, hmonths⟩ := he
  obtain ⟨minute, _, hminute, hminuteSel⟩ := Field.exists_selects (by decide) hminutes
  obtain ⟨hour, _, hhour, hhourSel⟩ := Field.exists_selects (by decide) hhours
  have hbounds := Field.selects_bounds hmonths hmonth
  obtain ⟨n, hnMonth, hnDay, hnWeek, hnYear, hnYear'⟩ :=
    exists_weekday hbounds.1 hbounds.2 hday hlongest hweek
  have htime : dayNumber (86400 * n + 3600 * hour + 60 * minute) = n := by
    simp only [dayNumber]
    omega
  refine ⟨86400 * n + 3600 * hour + 60 * minute, ?_, ?_⟩
  · have hminuteOf : minuteOf (86400 * n + 3600 * hour + 60 * minute) = minute := by
      simp only [minuteOf]
      omega
    have hhourOf : hourOf (86400 * n + 3600 * hour + 60 * minute) = hour := by
      simp only [hourOf]
      omega
    simp only [CronExpr.timeMatches, hminuteOf, hhourOf, htime, hnMonth, hminuteSel, hhourSel,
      hmonth, Bool.and_true, decide_eq_true_eq]
    omega
  · rw [htime]
    exact ⟨hnMonth, hnDay, hnWeek, hnYear, hnYear'⟩

/-- The two readings agree at all times when they agree on all days that a
selected month can have. -/
theorem matches_eq_iff (he : e.othersValid = true) {years : Int → Prop}
    (hyears : ∀ year, 1970 ≤ year → year ≤ 2100 → years year) :
    (∀ n, years (dateOf (dayNumber n)).year →
      (e.crateMatches n = true ↔ e.standardMatches restricts n = true)) ↔
    ∀ month day weekday, e.month.selects 1 12 month = true → 1 ≤ day → day ≤ longest month →
      weekday < 7 → e.crateDay day weekday = e.standardDay restricts day weekday := by
  constructor
  · intro h month day weekday hmonth hday hlongest hweek
    obtain ⟨n, htime, _, hnDay, hnWeek, hyear, hyear'⟩ :=
      exists_time he hmonth hday hlongest hweek
    have hn := h n (hyears _ (by omega) (by omega))
    simp only [CronExpr.crateMatches, CronExpr.standardMatches, htime, hnDay, hnWeek,
      Bool.true_and] at hn
    exact Bool.eq_iff_iff.mpr hn
  · intro h n _
    by_cases htime : e.timeMatches n = true
    · have hmonth : e.month.selects 1 12 (dateOf (dayNumber n)).month = true := by
        simp only [CronExpr.timeMatches, Bool.and_eq_true] at htime
        exact htime.2
      have hday := h _ _ _ hmonth (dateOf (dayNumber n)).day_pos
        (day_le_longest (dateOf (dayNumber n))) (weekday_lt (dayNumber n))
      rw [CronExpr.crateMatches, CronExpr.standardMatches, hday]
    · simp [CronExpr.crateMatches, CronExpr.standardMatches, htime]

theorem exists_standardWeekday (he : e.weekday.valid 0 7 = true) :
    ∃ weekday < 7, e.standardWeekday weekday = true := by
  obtain ⟨value, _, hvalue, hselects⟩ := Field.exists_selects (by decide) he
  by_cases hlast : value = 7
  · subst hlast
    exact ⟨0, by decide, by simp [CronExpr.standardWeekday, hselects]⟩
  · exact ⟨value, by omega, by simp [CronExpr.standardWeekday, hselects]⟩

theorem one_le_longest (month : Nat) : 1 ≤ longest month := by
  have hleap : isLeap 2000 = true := rfl
  simp only [longest, daysIn, hleap, if_true]
  split_ifs <;> omega

/-- When both fields restrict, a day that matches either matches both only if
both fields take every day. -/
theorem days_agree_of_restricts (he : e.standard = true)
    (hboth : (restricts e.dayOfMonth && restricts e.weekday) = true) :
    (∀ month day weekday, e.month.selects 1 12 month = true → 1 ≤ day → day ≤ longest month →
      weekday < 7 → e.crateDay day weekday = e.standardDay restricts day weekday) ↔
    (∀ month day, e.month.selects 1 12 month = true → 1 ≤ day → day ≤ longest month →
      e.dayOfMonth.selects 1 31 day = true) ∧
    ∀ weekday < 7, e.crateWeekday weekday = true := by
  simp only [CronExpr.standard, CronExpr.othersValid, Bool.and_eq_true] at he
  obtain ⟨⟨_, hmonths⟩, hweekdays⟩ := he
  simp only [CronExpr.crateDay, CronExpr.standardDay, hboth, if_true]
  constructor
  · intro h
    have hdays : ∀ month day, e.month.selects 1 12 month = true → 1 ≤ day →
        day ≤ longest month → e.dayOfMonth.selects 1 31 day = true := by
      intro month day hmonth hday hlongest
      obtain ⟨weekday, hweek, hselected⟩ := exists_standardWeekday hweekdays
      have heq := h month day weekday hmonth hday hlongest hweek
      rw [hselected, Bool.or_true, Bool.and_eq_true] at heq
      exact heq.1
    refine ⟨hdays, ?_⟩
    intro weekday hweek
    obtain ⟨month, _, _, hmonth⟩ := Field.exists_selects (by decide) hmonths
    have hfirst := hdays month 1 hmonth (le_refl _) (one_le_longest month)
    have heq := h month 1 weekday hmonth (le_refl _) (one_le_longest month) hweek
    rw [hfirst, Bool.true_and, Bool.true_or] at heq
    exact heq
  · rintro ⟨hdays, hweeks⟩ month day weekday hmonth hday hlongest hweek
    rw [hdays month day hmonth hday hlongest, hweeks weekday hweek]
    rfl

/-- When a day must match both fields, the two weekday numberings must agree,
or there must be no such day at all. -/
theorem days_agree_of_not_restricts (he : e.standard = true)
    (hboth : (restricts e.dayOfMonth && restricts e.weekday) = false) :
    (∀ month day weekday, e.month.selects 1 12 month = true → 1 ≤ day → day ≤ longest month →
      weekday < 7 → e.crateDay day weekday = e.standardDay restricts day weekday) ↔
    (∀ weekday < 7, e.standardWeekday weekday = e.crateWeekday weekday) ∨
    ∀ month day, e.month.selects 1 12 month = true → e.dayOfMonth.selects 1 31 day = true →
      longest month < day := by
  simp only [CronExpr.standard, CronExpr.othersValid, Bool.and_eq_true] at he
  obtain ⟨⟨⟨_, hdays⟩, _⟩, _⟩ := he
  simp only [CronExpr.crateDay, CronExpr.standardDay, hboth, Bool.false_eq_true, if_false]
  constructor
  · intro h
    by_cases hexists : ∃ month day, e.month.selects 1 12 month = true ∧
        e.dayOfMonth.selects 1 31 day = true ∧ day ≤ longest month
    · obtain ⟨month, day, hmonth, hday, hlongest⟩ := hexists
      left
      intro weekday hweek
      have heq := h month day weekday hmonth (Field.selects_bounds hdays hday).1 hlongest hweek
      rw [hday, Bool.true_and, Bool.true_and] at heq
      exact heq.symm
    · right
      intro month day hmonth hday
      by_contra hle
      exact hexists ⟨month, day, hmonth, hday, not_lt.mp hle⟩
  · intro h month day weekday hmonth _ hlongest hweek
    cases hday : e.dayOfMonth.selects 1 31 day with
    | false => rfl
    | true =>
        rcases h with hagree | hnone
        · rw [hagree weekday hweek]
        · exact absurd hlongest (not_le.mpr (hnone month day hmonth hday))

theorem daysAgree_iff (he : e.standard = true) :
    (∀ month day weekday, e.month.selects 1 12 month = true → 1 ≤ day → day ≤ longest month →
      weekday < 7 → e.crateDay day weekday = e.standardDay restricts day weekday) ↔
    DaysAgree restricts e := by
  unfold DaysAgree
  split
  next hboth => exact days_agree_of_restricts he hboth
  next hboth => exact days_agree_of_not_restricts he (Bool.eq_false_iff.mpr hboth)

/-! ## When the readings agree -/

section New

variable {C : Crates} {definition : ScheduleDefinition} {tz : C.Tz}
  (hid : (Rust.trim definition.id.toList).isEmpty = false)
  (hcron : (Rust.splitWhitespace definition.cron.toList).map String.ofList = e.texts)
  (htz : C.tzFromStr definition.timezone = some tz)
include hid hcron htz

/-- With an id, five fields and a timezone, all depends on the crate. -/
theorem new_of_accepts {parsed : C.Schedule}
    (h : C.scheduleFromStr (expanded e.texts) = .ok parsed) :
    ValidatedSchedule.new C definition = .ok ⟨definition, tz, parsed⟩ := by
  have hlength : e.texts.length = 5 := rfl
  simp only [ValidatedSchedule.new, hid, hcron, htz, hlength, h, ne_eq, not_true, if_false,
    Bool.false_eq_true]

theorem new_of_rejects {error : String}
    (h : C.scheduleFromStr (expanded e.texts) = .error error) :
    ValidatedSchedule.new C definition = .error (.invalidCron error) := by
  have hlength : e.texts.length = 5 := rfl
  simp only [ValidatedSchedule.new, hid, hcron, htz, hlength, h, ne_eq, not_true, if_false,
    Bool.false_eq_true]

end New

theorem accepted_iff (he : e.standard = true) :
    e.accepted = true ↔ e.weekday.valid 1 7 = true ∧ e.stepsFit = true := by
  simp only [CronExpr.standard, Bool.and_eq_true] at he
  simp [CronExpr.accepted, he.1]

/-- The crates, as far as `new` uses them on one expression. -/
def crateOn (e : CronExpr) : Crates where
  Tz := Unit
  tzFromStr timezone := if timezone = "America/New_York" then some () else none
  wallClock _ t := t
  Schedule := Unit
  scheduleFromStr text :=
    if text = expanded e.texts ∧ e.accepted = true then .ok () else .error "Invalid expression"
  includes _ w := e.crateMatches (w / 1000000000) = true
  afterNext _ _ _ := none

theorem crateOn_fiveFields (e : CronExpr) : FiveFields (crateOn e) (fun _ => True) e where
  accepts h := by
    refine ⟨(), by simp [crateOn, h], ?_⟩
    intro n
    show e.crateMatches (n * 1000000000 / 1000000000) = true ↔ _
    rw [Int.mul_ediv_cancel n (by decide), true_and]
  rejects h := ⟨"Invalid expression", by simp [crateOn, h]⟩

/-- A field that is anything but the lone `*`. -/
def notStar : Field → Bool
  | ⟨.all, []⟩ => false
  | _ => true

/-- `0 16 * * 5`. -/
def fridayNotes : CronExpr where
  minute := .one (.number (.digit 0))
  hour := .one (.number ⟨1, [6]⟩)
  dayOfMonth := .one .all
  month := .one .all
  weekday := .one (.number (.digit 5))

/-- `0 9 * * 0`. -/
def sundays : CronExpr where
  minute := .one (.number (.digit 0))
  hour := .one (.number (.digit 9))
  dayOfMonth := .one .all
  month := .one .all
  weekday := .one (.number (.digit 0))

/-- `0 9 * * *`. -/
def everyMorning : CronExpr where
  minute := .one (.number (.digit 0))
  hour := .one (.number (.digit 9))
  dayOfMonth := .one .all
  month := .one .all
  weekday := .one .all

/-- A definition in New York. -/
def definitionOf (id cron : String) : ScheduleDefinition :=
  ⟨id, cron, "America/New_York", .runOnce⟩

end Scheduler
