import Mathlib.Algebra.Order.Group.Int
import Mathlib.Order.Monotone.Basic
import Mathlib.Tactic.IntervalCases

/-!
# The Gregorian calendar

Days are counted from 1970-01-01.  As usual the count goes through years that
begin on the first of March, so that the leap day is the last day of its year.

The main results are that a date is read off every day (`dateOf`), and that
each date is read off its own day (`dateOf_dayOf`).
-/

namespace Calendar

/-- Leap years. -/
def isLeap (year : Int) : Bool :=
  year % 4 = 0 && (year % 100 ≠ 0 || year % 400 = 0)

/-- The number of days of a month. -/
def daysIn (year : Int) (month : Nat) : Nat :=
  if month = 2 then (if isLeap year then 29 else 28)
  else if month = 4 ∨ month = 6 ∨ month = 9 ∨ month = 11 then 30
  else 31

/-- The number of days of a month in a leap year. -/
def longest (month : Nat) : Nat := daysIn 2000 month

/-- A date of the calendar. -/
@[ext] structure Date where
  year : Int
  month : Nat
  day : Nat
  month_pos : 1 ≤ month
  month_le : month ≤ 12
  day_pos : 1 ≤ day
  day_le : day ≤ daysIn year month
deriving DecidableEq

/-! ## Years that begin in March -/

/-- The days from the first of March of year zero to the first of March. -/
def daysBefore (year : Int) : Int := 365 * year + year / 4 - year / 100 + year / 400

/-- The year, from March on, of a day that is counted from the first of March
of year zero. -/
def marchYear (n : Int) : Int :=
  let guess := 400 * n / 146097
  if n < daysBefore guess then guess - 1
  else if daysBefore (guess + 1) ≤ n then guess + 1
  else guess

theorem marchYear_spec (n : Int) :
    daysBefore (marchYear n) ≤ n ∧ n < daysBefore (marchYear n + 1) := by
  simp only [marchYear]
  split
  next h =>
    simp only [daysBefore] at *
    omega
  next h =>
    split
    next h' =>
      simp only [daysBefore] at *
      omega
    next h' => exact ⟨Int.not_lt.mp h, Int.not_le.mp h'⟩

/-- The length of a year that begins in March depends on the February at its
end. -/
theorem daysBefore_succ (year : Int) :
    daysBefore (year + 1) = daysBefore year + if isLeap (year + 1) then 366 else 365 := by
  simp only [daysBefore, isLeap, Bool.and_eq_true, decide_eq_true_eq, Bool.or_eq_true, ne_eq]
  split <;> omega

theorem daysBefore_mono {year year' : Int} (h : year ≤ year') :
    daysBefore year ≤ daysBefore year' := by
  have hmono : Monotone daysBefore := by
    apply monotone_int_of_le_succ
    intro year
    rw [daysBefore_succ]
    split <;> omega
  exact hmono h

theorem marchYear_unique {n year : Int} (h : daysBefore year ≤ n)
    (h' : n < daysBefore (year + 1)) : marchYear n = year := by
  obtain ⟨hlow, hhigh⟩ := marchYear_spec n
  rcases lt_trichotomy (marchYear n) year with hlt | heq | hgt
  · have hle := daysBefore_mono (Int.add_one_le_of_lt hlt)
    omega
  · exact heq
  · have hle := daysBefore_mono (Int.add_one_le_of_lt hgt)
    omega

/-! ## Dates and days -/

/-- The first of March of year zero, as a day before 1970-01-01. -/
def epoch : Int := 719468

/-- The month, counted from March, of a day of a year that begins in March. -/
def marchMonth (dayOfYear : Int) : Int := (5 * dayOfYear + 2) / 153

/-- The days of a year that begins in March before one of its months. -/
def monthStart (marchMonth : Int) : Int := (153 * marchMonth + 2) / 5

/-- The month of the calendar. -/
def monthOf (marchMonth : Int) : Nat :=
  (if marchMonth < 10 then marchMonth + 3 else marchMonth - 9).toNat

/-- The year of the calendar in which a month falls. -/
def yearOf (year marchMonth : Int) : Int := if marchMonth < 10 then year else year + 1

/-- A month other than February is as long as it takes to the next month. -/
theorem daysIn_monthOf (year : Int) {month : Int} (hpos : 0 ≤ month) (hle : month ≤ 10) :
    (daysIn year (monthOf month) : Int) = monthStart (month + 1) - monthStart month := by
  interval_cases month <;> rfl

theorem daysIn_february (year : Int) : daysIn year 2 = if isLeap year then 29 else 28 := rfl

theorem marchMonth_bounds {dayOfYear : Int} (hpos : 0 ≤ dayOfYear) (hlt : dayOfYear < 366) :
    0 ≤ marchMonth dayOfYear ∧ marchMonth dayOfYear ≤ 11 ∧
      monthStart (marchMonth dayOfYear) ≤ dayOfYear ∧
      dayOfYear < monthStart (marchMonth dayOfYear + 1) := by
  simp only [marchMonth, monthStart]
  omega

/-- The days of a month that lie in the year are days of the month. -/
theorem day_le_daysIn {dayOfYear year : Int} (hpos : 0 ≤ dayOfYear)
    (hlt : dayOfYear < if isLeap (year + 1) then 366 else 365) :
    (dayOfYear - monthStart (marchMonth dayOfYear) + 1).toNat ≤
      daysIn (yearOf year (marchMonth dayOfYear)) (monthOf (marchMonth dayOfYear)) := by
  have hlt' : dayOfYear < 366 := by
    split at hlt <;> omega
  obtain ⟨hmonth, hmonth', hstart, hend⟩ := marchMonth_bounds hpos hlt'
  by_cases hlast : marchMonth dayOfYear = 11
  · rw [hlast]
    show _ ≤ daysIn (year + 1) 2
    rw [daysIn_february]
    simp only [monthStart]
    split at hlt
    next hleap =>
      rw [if_pos hleap]
      omega
    next hleap =>
      rw [if_neg hleap]
      omega
  · have hlength := daysIn_monthOf (yearOf year (marchMonth dayOfYear)) hmonth (by omega)
    omega

/-- The day of its year, from March on. -/
def dayOfYear (n : Int) : Int := n + epoch - daysBefore (marchYear (n + epoch))

theorem dayOfYear_nonneg (n : Int) : 0 ≤ dayOfYear n :=
  Int.sub_nonneg_of_le (marchYear_spec (n + epoch)).1

theorem dayOfYear_lt (n : Int) :
    dayOfYear n < if isLeap (marchYear (n + epoch) + 1) then 366 else 365 := by
  have hlt := (marchYear_spec (n + epoch)).2
  rw [daysBefore_succ] at hlt
  exact sub_lt_iff_lt_add'.mpr hlt

theorem dayOfYear_bounds (n : Int) : 0 ≤ dayOfYear n ∧ dayOfYear n < 366 := by
  refine ⟨dayOfYear_nonneg n, ?_⟩
  have hlt := dayOfYear_lt n
  split at hlt <;> omega

/-- The date of a day. -/
def dateOf (n : Int) : Date where
  year := yearOf (marchYear (n + epoch)) (marchMonth (dayOfYear n))
  month := monthOf (marchMonth (dayOfYear n))
  day := (dayOfYear n - monthStart (marchMonth (dayOfYear n)) + 1).toNat
  month_pos := by
    have hmonth := marchMonth_bounds (dayOfYear_bounds n).1 (dayOfYear_bounds n).2
    simp only [monthOf]
    omega
  month_le := by
    have hmonth := marchMonth_bounds (dayOfYear_bounds n).1 (dayOfYear_bounds n).2
    simp only [monthOf]
    omega
  day_pos := by
    have hmonth := marchMonth_bounds (dayOfYear_bounds n).1 (dayOfYear_bounds n).2
    omega
  day_le := day_le_daysIn (dayOfYear_nonneg n) (dayOfYear_lt n)

/-- The month, counted from March, of a month of the calendar. -/
def fromMarch (month : Nat) : Int := if month ≤ 2 then month + 9 else month - 3

/-- The year that begins in March in which a month falls. -/
def marchYearOf (year : Int) (month : Nat) : Int := if month ≤ 2 then year - 1 else year

/-- The day of a date. -/
def dayOf (date : Date) : Int :=
  daysBefore (marchYearOf date.year date.month) + monthStart (fromMarch date.month) +
    date.day - 1 - epoch

theorem fromMarch_bounds {month : Nat} (hpos : 1 ≤ month) (hle : month ≤ 12) :
    0 ≤ fromMarch month ∧ fromMarch month ≤ 11 := by
  simp only [fromMarch]
  split <;> omega

theorem monthOf_fromMarch {month : Nat} (hpos : 1 ≤ month) (hle : month ≤ 12) :
    monthOf (fromMarch month) = month := by
  simp only [monthOf, fromMarch]
  split <;> split <;> omega

theorem yearOf_fromMarch (year : Int) {month : Nat} (hpos : 1 ≤ month) (hle : month ≤ 12) :
    yearOf (marchYearOf year month) (fromMarch month) = year := by
  simp only [yearOf, fromMarch, marchYearOf]
  split <;> split <;> omega

/-- A date lies before the next month and in its year. -/
theorem monthStart_add_lt {year : Int} {month day : Nat} (hpos : 1 ≤ month) (hle : month ≤ 12)
    (hday : day ≤ daysIn year month) :
    monthStart (fromMarch month) + day ≤ monthStart (fromMarch month + 1) ∧
      monthStart (fromMarch month) + day ≤
        if isLeap (marchYearOf year month + 1) then 366 else 365 := by
  obtain ⟨hmonth, hmonth'⟩ := fromMarch_bounds hpos hle
  by_cases hlast : month = 2
  · subst hlast
    rw [daysIn_february] at hday
    have hyear : marchYearOf year 2 + 1 = year := by
      simp [marchYearOf]
    rw [hyear]
    have hstart : monthStart (fromMarch 2) = 337 ∧ monthStart (fromMarch 2 + 1) = 367 :=
      ⟨rfl, rfl⟩
    rw [hstart.1, hstart.2]
    split at hday
    next hleap =>
      rw [if_pos hleap]
      omega
    next hleap =>
      rw [if_neg hleap]
      omega
  · have hother : fromMarch month ≤ 10 := by
      simp only [fromMarch]
      split <;> omega
    have hlength := daysIn_monthOf year hmonth hother
    rw [monthOf_fromMarch hpos hle] at hlength
    have hend : monthStart (fromMarch month + 1) ≤ 337 := by
      simp only [monthStart]
      omega
    constructor
    · omega
    · split <;> omega

theorem marchMonth_of_lt {month n : Int} (h : monthStart month ≤ n)
    (h' : n < monthStart (month + 1)) : marchMonth n = month := by
  simp only [marchMonth, monthStart] at *
  omega

/-- Each date is the date of its day. -/
theorem dateOf_dayOf (date : Date) : dateOf (dayOf date) = date := by
  obtain ⟨year, month, day, hmonth, hmonth', hday, hday'⟩ := date
  obtain ⟨hnext, hlength⟩ := monthStart_add_lt hmonth hmonth' hday'
  have hstart : 0 ≤ monthStart (fromMarch month) := by
    have hpos := (fromMarch_bounds hmonth hmonth').1
    simp only [monthStart]
    omega
  generalize hn : dayOf ⟨year, month, day, hmonth, hmonth', hday, hday'⟩ = n
  have hn' : n + epoch = daysBefore (marchYearOf year month) +
      (monthStart (fromMarch month) + day - 1) := by
    rw [← hn]
    simp only [dayOf]
    omega
  have hyear : marchYear (n + epoch) = marchYearOf year month := by
    apply marchYear_unique
    · omega
    · rw [daysBefore_succ]
      omega
  have hdayOfYear : dayOfYear n = monthStart (fromMarch month) + day - 1 := by
    rw [dayOfYear, hyear]
    omega
  have hmarch : marchMonth (dayOfYear n) = fromMarch month := by
    apply marchMonth_of_lt <;> omega
  ext
  · show yearOf _ _ = year
    rw [hyear, hmarch, yearOf_fromMarch year hmonth hmonth']
  · show monthOf _ = month
    rw [hmarch, monthOf_fromMarch hmonth hmonth']
  · show (dayOfYear n - _ + 1).toNat = day
    rw [hmarch, hdayOfYear]
    omega

/-! ## The order of dates -/

/-- The order of dates: by year, then month, then day. -/
def Date.Before (a b : Date) : Prop :=
  a.year < b.year ∨ a.year = b.year ∧ (a.month < b.month ∨ a.month = b.month ∧ a.day < b.day)

theorem Date.Before.asymm {a b : Date} (h : a.Before b) : ¬ b.Before a := by
  simp only [Before] at *
  omega

theorem Date.day_le_thirtyOne (date : Date) : date.day ≤ 31 := by
  refine date.day_le.trans ?_
  simp only [daysIn]
  split
  · split <;> decide
  · split <;> decide

/-- A later day of a year that begins in March has a later date. -/
theorem dateOf_before_of_marchYear {m n : Int} (h : m < n)
    (hyear : marchYear (m + epoch) = marchYear (n + epoch)) : (dateOf m).Before (dateOf n) := by
  have hday : dayOfYear m < dayOfYear n := by
    rw [dayOfYear, dayOfYear, hyear]
    omega
  have hm := dayOfYear_bounds m
  have hn := dayOfYear_bounds n
  have hmonth := marchMonth_bounds hm.1 hm.2
  have hmonth' := marchMonth_bounds hn.1 hn.2
  have hle : marchMonth (dayOfYear m) ≤ marchMonth (dayOfYear n) := by
    simp only [marchMonth]
    omega
  simp only [Date.Before, dateOf, hyear, yearOf, monthOf]
  rcases hle.lt_or_eq with hlt | heq
  · split <;> split <;> omega
  · rw [heq] at hmonth ⊢
    right
    refine ⟨rfl, .inr ⟨rfl, ?_⟩⟩
    omega

/-- A later day has a later date. -/
theorem dateOf_before {m n : Int} (h : m < n) : (dateOf m).Before (dateOf n) := by
  obtain ⟨hlow, -⟩ := marchYear_spec (m + epoch)
  obtain ⟨-, hhigh⟩ := marchYear_spec (n + epoch)
  have hle : marchYear (m + epoch) ≤ marchYear (n + epoch) := by
    by_contra hgt
    have hmono := daysBefore_mono (Int.add_one_le_of_lt (not_le.mp hgt))
    omega
  rcases hle.lt_or_eq with hlt | heq
  · have hm := marchMonth_bounds (dayOfYear_bounds m).1 (dayOfYear_bounds m).2
    have hn := marchMonth_bounds (dayOfYear_bounds n).1 (dayOfYear_bounds n).2
    -- January and February belong to the year that began in March before.
    simp only [Date.Before, dateOf, yearOf, monthOf]
    split <;> split <;> omega
  · exact dateOf_before_of_marchYear h heq

/-- Days compare as their dates. -/
theorem dateOf_before_iff {m n : Int} : (dateOf m).Before (dateOf n) ↔ m < n := by
  constructor
  · intro h
    rcases lt_trichotomy m n with hlt | heq | hgt
    · exact hlt
    · rw [heq] at h
      exact absurd h h.asymm
    · exact absurd (dateOf_before hgt) h.asymm
  · exact dateOf_before

theorem dateOf_injective : Function.Injective dateOf := by
  intro m n h
  rcases lt_trichotomy m n with hlt | heq | hgt
  · have hbefore := dateOf_before hlt
    rw [h] at hbefore
    exact absurd hbefore hbefore.asymm
  · exact heq
  · have hbefore := dateOf_before hgt
    rw [h] at hbefore
    exact absurd hbefore hbefore.asymm

/-! ## Days of the week -/

/-- The day of the week, from Sunday on. -/
def weekday (n : Int) : Nat := ((n + 4) % 7).toNat

theorem weekday_lt (n : Int) : weekday n < 7 := by
  simp only [weekday]
  omega

theorem isLeap_of_lt {k : Int} (hpos : 0 ≤ k) (hlt : k < 7) : isLeap (2000 + 4 * k) = true := by
  simp only [isLeap, Bool.and_eq_true, decide_eq_true_eq, Bool.or_eq_true, ne_eq]
  omega

theorem daysIn_eq_longest {k : Int} (hpos : 0 ≤ k) (hlt : k < 7) (month : Nat) :
    daysIn (2000 + 4 * k) month = longest month := by
  simp only [longest, daysIn, isLeap_of_lt hpos hlt]
  rfl

/-- From one leap year to the next the day of the week moves by five days. -/
theorem daysBefore_add {k : Int} (hpos : 0 ≤ k) (hlt : k < 7) (month : Nat) :
    daysBefore (marchYearOf (2000 + 4 * k) month) =
      daysBefore (marchYearOf 2000 month) + 1461 * k := by
  simp only [daysBefore, marchYearOf]
  split <;> omega

/-- Every day of every month falls on every day of the week, in some leap year
from 2000 to 2024. -/
theorem exists_weekday {month day day' : Nat} (hmonth : 1 ≤ month) (hmonth' : month ≤ 12)
    (hday : 1 ≤ day) (hlongest : day ≤ longest month) (hweek : day' < 7) :
    ∃ n, (dateOf n).month = month ∧ (dateOf n).day = day ∧ weekday n = day' ∧
      2000 ≤ (dateOf n).year ∧ (dateOf n).year ≤ 2024 := by
  let first := dayOf ⟨2000, month, day, hmonth, hmonth', hday, hlongest⟩
  let k : Int := (3 * (day' - (first + 4))) % 7
  have hpos : 0 ≤ k := by omega
  have hlt : k < 7 := by omega
  let date : Date := ⟨2000 + 4 * k, month, day, hmonth, hmonth', hday,
    (daysIn_eq_longest hpos hlt month).symm ▸ hlongest⟩
  have hdate : dateOf (dayOf date) = date := dateOf_dayOf date
  have hmoved : dayOf date = first + 1461 * k := by
    simp only [date, first, dayOf]
    rw [daysBefore_add hpos hlt]
    omega
  refine ⟨dayOf date, by rw [hdate], by rw [hdate], ?_, ?_, ?_⟩
  · rw [hmoved]
    simp only [weekday]
    omega
  · rw [hdate]
    show 2000 ≤ 2000 + 4 * k
    omega
  · rw [hdate]
    show 2000 + 4 * k ≤ 2024
    omega

theorem day_le_longest (date : Date) : date.day ≤ longest date.month := by
  have hle := date.day_le
  simp only [longest, daysIn] at *
  have hleap : isLeap 2000 = true := rfl
  rw [hleap, if_pos rfl]
  split_ifs at * <;> omega

end Calendar
