import Mathlib.Algebra.Ring.Nat
import Mathlib.Data.List.Lex

/-!
# Decimal digits and the order of texts

Numbers as a fixed number of decimal digits in ASCII.  Texts are compared byte
by byte: after heads of one length the tails decide only where the heads agree
(`List.append_lt_append_iff`), and digits compare as the numbers they stand for
(`Decimal.digits_append_lt_iff`).

A list of groups of digits may leave out the groups of zeros at its end, if it
is followed by a byte that is smaller than every digit (`Decimal.trimmed_lt_iff`).
-/

universe u

/-- Heads of one length decide, and only where they agree the tails. -/
theorem List.append_lt_append_iff {α : Type u} [LT α] {a b : List α} (x y : List α)
    (h : a.length = b.length) :
    a ++ x < b ++ y ↔ a < b ∨ a = b ∧ x < y := by
  induction a generalizing b with
  | nil =>
      cases b with
      | nil => simp
      | cons head b => cases h
  | cons head a ih =>
      cases b with
      | nil => cases h
      | cons head' b =>
          have hlength : a.length = b.length := Nat.succ.inj h
          simp only [List.cons_append, List.cons_lt_cons_iff, ih hlength, List.cons.injEq]
          constructor
          · rintro (hlt | ⟨heq, hlt | ⟨heq', hlt⟩⟩)
            · exact .inl (.inl hlt)
            · exact .inl (.inr ⟨heq, hlt⟩)
            · exact .inr ⟨⟨heq, heq'⟩, hlt⟩
          · rintro ((hlt | ⟨heq, hlt⟩) | ⟨⟨heq, heq'⟩, hlt⟩)
            · exact .inl hlt
            · exact .inr ⟨heq, .inl hlt⟩
            · exact .inr ⟨heq, .inr ⟨heq', hlt⟩⟩

namespace Decimal

/-! ## Digits -/

/-- The last digit of a number in ASCII. -/
def digit (n : Nat) : UInt8 := UInt8.ofNat (0x30 + n % 10)

/-- The last `width` digits of a number, the most significant one first. -/
def digits : Nat → Nat → List UInt8
  | 0, _ => []
  | width + 1, n => digits width (n / 10) ++ [digit n]

theorem toNat_digit (n : Nat) : (digit n).toNat = 0x30 + n % 10 := by
  rw [digit, UInt8.toNat_ofNat']
  omega

theorem digit_lt_digit_iff (a b : Nat) : digit a < digit b ↔ a % 10 < b % 10 := by
  rw [UInt8.lt_iff_toNat_lt, toNat_digit, toNat_digit]
  omega

theorem digit_inj {a b : Nat} : digit a = digit b ↔ a % 10 = b % 10 := by
  rw [← UInt8.toNat_inj, toNat_digit, toNat_digit]
  omega

@[simp] theorem length_digits (width n : Nat) : (digits width n).length = width := by
  induction width generalizing n with
  | zero => rfl
  | succ width ih => simp [digits, ih]

theorem div_lt_pow {width n : Nat} (h : n < 10 ^ (width + 1)) : n / 10 < 10 ^ width := by
  rw [Nat.pow_succ] at h
  exact Nat.div_lt_of_lt_mul (by rwa [Nat.mul_comm])

theorem digits_inj {width a b : Nat} (ha : a < 10 ^ width) (hb : b < 10 ^ width) :
    digits width a = digits width b ↔ a = b := by
  induction width generalizing a b with
  | zero =>
      rw [Nat.pow_zero] at ha hb
      simp only [digits, true_iff]
      omega
  | succ width ih =>
      constructor
      · intro h
        obtain ⟨hheads, hlast⟩ := List.append_inj' h rfl
        have hquot := (ih (div_lt_pow ha) (div_lt_pow hb)).mp hheads
        have hrem := digit_inj.mp (List.cons.inj hlast).1
        omega
      · intro h
        rw [h]

/-- Digits compare as the numbers. -/
theorem digits_lt_iff {width a b : Nat} (ha : a < 10 ^ width) (hb : b < 10 ^ width) :
    digits width a < digits width b ↔ a < b := by
  induction width generalizing a b with
  | zero =>
      rw [Nat.pow_zero] at ha hb
      simp only [digits, List.not_lt_nil, false_iff]
      omega
  | succ width ih =>
      rw [digits, digits, List.append_lt_append_iff _ _ (by simp),
        ih (div_lt_pow ha) (div_lt_pow hb), digits_inj (div_lt_pow ha) (div_lt_pow hb)]
      simp only [List.cons_lt_cons_iff, digit_lt_digit_iff, List.not_lt_nil, and_false, or_false]
      omega

/-- A field of digits decides before what comes after it. -/
theorem digits_append_lt_iff {width a b : Nat} {x y : List UInt8} (ha : a < 10 ^ width)
    (hb : b < 10 ^ width) :
    digits width a ++ x < digits width b ++ y ↔ a < b ∨ a = b ∧ x < y := by
  rw [List.append_lt_append_iff x y (by simp), digits_lt_iff ha hb, digits_inj ha hb]

theorem digits_add (high low n : Nat) :
    digits (high + low) n = digits high (n / 10 ^ low) ++ digits low n := by
  induction low generalizing n with
  | zero => simp [digits]
  | succ low ih =>
      have hquot : n / 10 / 10 ^ low = n / 10 ^ (low + 1) := by
        rw [Nat.div_div_eq_div_mul, Nat.pow_succ, Nat.mul_comm]
      rw [← Nat.add_assoc, digits, digits, ih, hquot, List.append_assoc]

theorem digits_mod (width n : Nat) : digits width (n % 10 ^ width) = digits width n := by
  induction width generalizing n with
  | zero => rfl
  | succ width ih =>
      have hquot : n % 10 ^ (width + 1) / 10 = n / 10 % 10 ^ width := by
        rw [Nat.pow_succ, Nat.mod_mul_left_div_self]
      have hlast : digit (n % 10 ^ (width + 1)) = digit n := by
        rw [digit_inj, Nat.pow_succ, Nat.mod_mul_left_mod]
      rw [digits, digits, hquot, ih, hlast]

/-- A byte before the digits comes before a field of digits. -/
theorem lt_digits_append {width : Nat} (hpos : 0 < width) (n : Nat) {stop : UInt8}
    (hstop : stop < 0x30) (x y : List UInt8) : stop :: x < digits width n ++ y := by
  obtain ⟨width, rfl⟩ := Nat.exists_eq_succ_of_ne_zero hpos.ne'
  rw [Nat.succ_eq_one_add, digits_add]
  show _ < digit _ :: _
  rw [List.cons_lt_cons_iff]
  left
  rw [UInt8.lt_iff_toNat_lt, toNat_digit]
  rw [UInt8.lt_iff_toNat_lt] at hstop
  exact hstop.trans_le (Nat.le_add_right _ _)

/-! ## Groups of digits -/

/-- The groups up to the last one that is not zero. -/
def trimmed (width : Nat) : List Nat → List UInt8
  | [] => []
  | n :: groups =>
      if (n :: groups).all (· = 0) then [] else digits width n ++ trimmed width groups

theorem not_lt_zeros {xs ys : List Nat} (h : xs.length = ys.length) (hy : ys.all (· = 0) = true) :
    ¬ xs < ys := by
  induction xs generalizing ys with
  | nil =>
      cases ys with
      | nil => simp
      | cons y ys => cases h
  | cons x xs ih =>
      cases ys with
      | nil => simp
      | cons y ys =>
          simp only [List.all_cons, Bool.and_eq_true, decide_eq_true_eq] at hy
          rw [List.cons_lt_cons_iff, hy.1]
          rintro (hlt | ⟨_, hlt⟩)
          · cases hlt
          · exact ih (Nat.succ.inj h) hy.2 hlt

theorem zeros_lt {xs ys : List Nat} (h : xs.length = ys.length) (hx : xs.all (· = 0) = true)
    (hy : ¬ ys.all (· = 0) = true) : xs < ys := by
  induction xs generalizing ys with
  | nil =>
      cases ys with
      | nil => exact absurd rfl hy
      | cons y ys => cases h
  | cons x xs ih =>
      cases ys with
      | nil => cases h
      | cons y ys =>
          simp only [List.all_cons, Bool.and_eq_true, decide_eq_true_eq] at hx hy
          rw [List.cons_lt_cons_iff, hx.1]
          by_cases hzero : y = 0
          · exact .inr ⟨hzero.symm, ih (Nat.succ.inj h) hx.2 fun hall => hy ⟨hzero, hall⟩⟩
          · exact .inl (Nat.pos_of_ne_zero hzero)

/-- Trimmed groups compare as the groups, if a byte before the digits follows
them. -/
theorem trimmed_lt_iff {width : Nat} (hpos : 0 < width) {stop : UInt8} (hstop : stop < 0x30)
    (tail : List UInt8) {xs ys : List Nat} (hlength : xs.length = ys.length)
    (hx : ∀ x ∈ xs, x < 10 ^ width) (hy : ∀ y ∈ ys, y < 10 ^ width) :
    trimmed width xs ++ stop :: tail < trimmed width ys ++ stop :: tail ↔ xs < ys := by
  induction xs generalizing ys with
  | nil =>
      cases ys with
      | nil => simp
      | cons y ys => cases hlength
  | cons x xs ih =>
      cases ys with
      | nil => cases hlength
      | cons y ys =>
          rw [trimmed, trimmed]
          split
          next hzero =>
            split
            next hzero' =>
              exact iff_of_false (List.lt_irrefl _) (not_lt_zeros hlength hzero')
            next hzero' =>
              rw [List.append_assoc]
              exact iff_of_true (lt_digits_append hpos y hstop _ _)
                (zeros_lt hlength hzero hzero')
          next hzero =>
            split
            next hzero' =>
              have hafter := lt_digits_append hpos x hstop tail
                (trimmed width xs ++ stop :: tail)
              rw [List.append_assoc]
              exact iff_of_false (List.lt_asymm hafter) (not_lt_zeros hlength hzero')
            next hzero' =>
              rw [List.append_assoc, List.append_assoc,
                digits_append_lt_iff (hx x List.mem_cons_self) (hy y List.mem_cons_self),
                List.cons_lt_cons_iff,
                ih (Nat.succ.inj hlength) (fun x hmem => hx x (List.mem_cons_of_mem _ hmem))
                  fun y hmem => hy y (List.mem_cons_of_mem _ hmem)]

end Decimal
