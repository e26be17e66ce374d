import Cresix.Library.Calendar
import Cresix.Library.Decimal

/-!
# The texts of instants

`DateTime` is chrono's `DateTime<Utc>` and `toRfc3339` its `to_rfc3339`.  The
fraction of a second has no digits, three, six or nine, so the texts of two
instants need not have one length.  The offset comes after the fraction, and
`+` comes before the digits and before the point.

The main result is that the texts of instants in the years from 0 to 9999,
compared byte by byte, are in the order of the instants
(`DateTime.toRfc3339_lt_iff`).
-/

namespace Rust

open Decimal (digits digits_append_lt_iff)

/-- `DateTime<Utc>`: a day from 1970-01-01 on, and a time of the day.  A leap
second is the second before it with a billion nanoseconds more. -/
@[ext] structure DateTime where
  day : Int
  secs : Nat
  nanos : Nat
  secs_lt : secs < 86400
  nanos_lt : nanos < 2000000000
  leap : 1000000000 ≤ nanos → secs % 60 = 59
deriving DecidableEq

namespace DateTime

/-- The order of instants, which is the derived `Ord`. -/
def Before (t u : DateTime) : Prop :=
  t.day < u.day ∨ t.day = u.day ∧ (t.secs < u.secs ∨ t.secs = u.secs ∧ t.nanos < u.nanos)

/-- The instant so many nanoseconds after 1970. -/
def ofNanos (n : Int) : DateTime where
  day := n / 86400000000000
  secs := (n / 1000000000 % 86400).toNat
  nanos := (n % 1000000000).toNat
  secs_lt := by omega
  nanos_lt := by omega
  leap := by omega

theorem ofNanos_before_iff (m n : Int) : (ofNanos m).Before (ofNanos n) ↔ m < n := by
  simp only [Before, ofNanos]
  omega

/-! ## Texts -/

/-- The date. -/
def date (t : DateTime) : Calendar.Date := Calendar.dateOf t.day

def hour (t : DateTime) : Nat := t.secs / 3600

def minute (t : DateTime) : Nat := t.secs / 60 % 60

/-- The second, which is 60 for a leap second. -/
def second (t : DateTime) : Nat := t.secs % 60 + if 1000000000 ≤ t.nanos then 1 else 0

/-- The nanoseconds of the second. -/
def subsecond (t : DateTime) : Nat :=
  if 1000000000 ≤ t.nanos then t.nanos - 1000000000 else t.nanos

/-- The year in four digits, else with a sign. -/
def yearText (year : Int) : List UInt8 :=
  if 0 ≤ year ∧ year ≤ 9999 then
    digits 2 (year.toNat / 100) ++ digits 2 (year.toNat % 100)
  else
    (if 0 ≤ year then 0x2b else 0x2d) ::
      digits (max 4 (Nat.toDigits 10 year.natAbs).length) year.natAbs

/-- `SecondsFormat::AutoSi`. -/
def fraction (nanos : Nat) : List UInt8 :=
  if nanos = 0 then []
  else if nanos % 1000000 = 0 then 0x2e :: digits 3 (nanos / 1000000)
  else if nanos % 1000 = 0 then 0x2e :: digits 6 (nanos / 1000)
  else 0x2e :: digits 9 nanos

/-- The offset of UTC: `+00:00`. -/
def offset : List UInt8 := [0x2b, 0x30, 0x30, 0x3a, 0x30, 0x30]

/-- The time of the day. -/
def timeText (t : DateTime) : List UInt8 :=
  digits 2 t.hour ++ 0x3a :: (digits 2 t.minute ++ 0x3a :: (digits 2 t.second ++
    (fraction t.subsecond ++ offset)))

/-- `to_rfc3339`. -/
def toRfc3339 (t : DateTime) : List UInt8 :=
  yearText t.date.year ++ 0x2d :: (digits 2 t.date.month ++ 0x2d :: (digits 2 t.date.day ++
    0x54 :: t.timeText))

/-! ## The order of the texts -/

/-- The instant is in a year from 0 to 9999. -/
def InYears (t : DateTime) : Prop := 0 ≤ t.date.year ∧ t.date.year ≤ 9999

instance (t : DateTime) : Decidable t.InYears := inferInstanceAs (Decidable (_ ∧ _))

/-- The fraction in groups of three digits. -/
def groups (nanos : Nat) : List Nat := [nanos / 1000000, nanos / 1000 % 1000, nanos % 1000]

/-- The fraction leaves out the groups of zeros at its end. -/
theorem fraction_eq_trimmed {nanos : Nat} (hpos : nanos ≠ 0) :
    fraction nanos = 0x2e :: Decimal.trimmed 3 (groups nanos) := by
  have hmicro : digits 6 (nanos / 1000) =
      digits 3 (nanos / 1000000) ++ digits 3 (nanos / 1000 % 1000) := by
    have hsplit : digits 6 (nanos / 1000) =
        digits 3 (nanos / 1000 / 1000) ++ digits 3 (nanos / 1000) := Decimal.digits_add 3 3 _
    rw [hsplit, Nat.div_div_eq_div_mul]
    exact congrArg _ (Decimal.digits_mod 3 _).symm
  have hnano : digits 9 nanos = digits 3 (nanos / 1000000) ++
      (digits 3 (nanos / 1000 % 1000) ++ digits 3 (nanos % 1000)) := by
    have hsplit : digits 9 nanos = digits 6 (nanos / 1000) ++ digits 3 nanos :=
      Decimal.digits_add 6 3 _
    rw [hsplit, hmicro, List.append_assoc]
    exact congrArg _ (congrArg _ (Decimal.digits_mod 3 _).symm)
  rw [fraction, if_neg hpos, groups, Decimal.trimmed, Decimal.trimmed, Decimal.trimmed,
    Decimal.trimmed]
  simp only [List.all_cons, List.all_nil, Bool.and_true, Bool.and_eq_true, decide_eq_true_eq]
  split
  next hmilli =>
    rw [if_neg (by omega), if_pos (by omega), List.append_nil]
  next hmilli =>
    split
    next hthree =>
      rw [if_neg (by omega), if_neg (by omega), List.append_nil, hmicro]
    next hthree =>
      rw [if_neg (by omega), if_neg (by omega), List.append_nil, hnano]

theorem groups_lt {nanos : Nat} (h : nanos < 1000000000) : ∀ n ∈ groups nanos, n < 10 ^ 3 := by
  simp only [groups, List.mem_cons, List.not_mem_nil, or_false, forall_eq_or_imp, forall_eq]
  omega

theorem groups_lt_iff (a b : Nat) : groups a < groups b ↔ a < b := by
  simp only [groups, List.cons_lt_cons_iff, List.not_lt_nil, and_false, or_false]
  omega

/-- The texts of the fractions are in order, whatever number of digits they
have. -/
theorem fraction_lt_iff {a b : Nat} (ha : a < 1000000000) (hb : b < 1000000000) :
    fraction a ++ offset < fraction b ++ offset ↔ a < b := by
  have hpoint : ∀ {x y : List UInt8}, (0x2b : UInt8) :: x < 0x2e :: y := by
    intro x y
    rw [List.cons_lt_cons_iff]
    exact .inl (by decide)
  by_cases hzero : a = 0
  · rw [hzero]
    by_cases hzero' : b = 0
    · rw [hzero']
      exact iff_of_false (List.lt_irrefl _) (lt_irrefl _)
    · rw [fraction_eq_trimmed hzero']
      exact iff_of_true hpoint (Nat.pos_of_ne_zero hzero')
  · by_cases hzero' : b = 0
    · rw [hzero', fraction_eq_trimmed hzero]
      exact iff_of_false (List.lt_asymm hpoint) (Nat.not_lt_zero a)
    · have hplus : (0x2b : UInt8) < 0x30 := by decide
      rw [fraction_eq_trimmed hzero, fraction_eq_trimmed hzero', List.cons_append,
        List.cons_append, List.cons_lt_cons_self, offset,
        Decimal.trimmed_lt_iff (by decide) hplus _ (by rfl) (groups_lt ha) (groups_lt hb),
        groups_lt_iff]

theorem yearText_eq {t : DateTime} (h : t.InYears) :
    yearText t.date.year = digits 4 t.date.year.toNat := by
  have hlow : digits 2 (t.date.year.toNat % 100) = digits 2 t.date.year.toNat :=
    Decimal.digits_mod 2 _
  obtain ⟨hnonneg, hle⟩ := h
  rw [yearText, if_pos ⟨hnonneg, hle⟩, hlow]
  exact (Decimal.digits_add 2 2 _).symm

/-- Times of the day compare by hour, minute, second and fraction. -/
theorem clock_lt_iff (t u : DateTime) :
    (t.secs < u.secs ∨ t.secs = u.secs ∧ t.nanos < u.nanos) ↔
      t.hour < u.hour ∨ t.hour = u.hour ∧ (t.minute < u.minute ∨ t.minute = u.minute ∧
        (t.second < u.second ∨ t.second = u.second ∧ t.subsecond < u.subsecond)) := by
  have ht := t.leap
  have hu := u.leap
  simp only [hour, minute, second, subsecond]
  split <;> split <;> omega

theorem timeText_lt_iff (t u : DateTime) :
    t.timeText < u.timeText ↔ t.secs < u.secs ∨ t.secs = u.secs ∧ t.nanos < u.nanos := by
  have hfields : ∀ t : DateTime, t.hour < 10 ^ 2 ∧ t.minute < 10 ^ 2 ∧ t.second < 10 ^ 2 ∧
      t.subsecond < 1000000000 := by
    intro t
    have hsecs := t.secs_lt
    have hnanos := t.nanos_lt
    simp only [hour, minute, second, subsecond]
    split <;> omega
  obtain ⟨hhour, hminute, hsecond, hsub⟩ := hfields t
  obtain ⟨hhour', hminute', hsecond', hsub'⟩ := hfields u
  rw [clock_lt_iff, timeText, timeText, digits_append_lt_iff hhour hhour',
    List.cons_lt_cons_self, digits_append_lt_iff hminute hminute', List.cons_lt_cons_self,
    digits_append_lt_iff hsecond hsecond', fraction_lt_iff hsub hsub']

/-- The texts of instants are in the order of the instants. -/
theorem toRfc3339_lt_iff {t u : DateTime} (ht : t.InYears) (hu : u.InYears) :
    t.toRfc3339 < u.toRfc3339 ↔ t.Before u := by
  have hyear : t.date.year.toNat < 10 ^ 4 ∧ u.date.year.toNat < 10 ^ 4 := by
    obtain ⟨hlow, hhigh⟩ := ht
    obtain ⟨hlow', hhigh'⟩ := hu
    omega
  have hmonth : ∀ t : DateTime, t.date.month < 10 ^ 2 := by
    intro t
    have hle := t.date.month_le
    omega
  have hday : ∀ t : DateTime, t.date.day < 10 ^ 2 := by
    intro t
    have hle := t.date.day_le_thirtyOne
    omega
  rw [toRfc3339, toRfc3339, yearText_eq ht, yearText_eq hu,
    digits_append_lt_iff hyear.1 hyear.2, List.cons_lt_cons_self,
    digits_append_lt_iff (hmonth t) (hmonth u), List.cons_lt_cons_self,
    digits_append_lt_iff (hday t) (hday u), List.cons_lt_cons_self, timeText_lt_iff]
  have hbefore : t.date.Before u.date ↔ t.day < u.day := Calendar.dateOf_before_iff
  have hsame : t.date = u.date ↔ t.day = u.day := Calendar.dateOf_injective.eq_iff
  rw [Calendar.Date.ext_iff] at hsame
  rw [Calendar.Date.Before] at hbefore
  obtain ⟨hlow, -⟩ := ht
  obtain ⟨hlow', -⟩ := hu
  have hlt : t.date.year.toNat < u.date.year.toNat ↔ t.date.year < u.date.year := by omega
  have heq : t.date.year.toNat = u.date.year.toNat ↔ t.date.year = u.date.year := by omega
  rw [Before, ← hbefore, ← hsame, hlt, heq]
  simp only [and_or_left, or_assoc, and_assoc]

end DateTime

end Rust
