import Cresix.Library.Checks
import Cresix.Library.Search
import Mathlib.Algebra.Ring.Nat

/-!
# Numeric addresses of the C library

`inet_aton` reads an IPv4 address from one to four numbers with dots between
them.  A number is decimal, octal behind a `0` or hexadecimal behind `0x`.  All
but the last are one byte, and the last fills the bytes that are left.
-/

namespace InetAton

/-- The dot between the numbers. -/
abbrev dot : UInt8 := 0x2e

/-- The value of a digit, up to the hexadecimal ones. -/
def digit (byte : UInt8) : Option Nat :=
  if 0x30 ≤ byte ∧ byte ≤ 0x39 then some (byte.toNat - 0x30)
  else if 0x61 ≤ byte ∧ byte ≤ 0x66 then some (byte.toNat - 0x61 + 10)
  else if 0x41 ≤ byte ∧ byte ≤ 0x46 then some (byte.toNat - 0x41 + 10)
  else none

/-- The digits are read onto a number that is begun. -/
def readDigits (base : Nat) (n : Nat) : List UInt8 → Option Nat
  | [] => some n
  | byte :: digits => do
      let d ← digit byte
      if d < base then readDigits base (n * base + d) digits else none

/-- A number has a digit at least. -/
def ofDigits (base : Nat) (digits : List UInt8) : Option Nat :=
  if digits = [] then none else readDigits base 0 digits

/-- A number as C writes it. -/
def number (text : List UInt8) : Option Nat :=
  match text with
  | first :: second :: digits =>
      if first ≠ 0x30 then ofDigits 10 text
      else if second = 0x78 ∨ second = 0x58 then ofDigits 16 digits
      else ofDigits 8 (second :: digits)
  | _ => ofDigits 10 text

/-- The address of the numbers, with so many bytes left for them. -/
def combine : Nat → List Nat → Option Nat
  | _, [] => none
  | left, [last] => if last < 256 ^ left then some last else none
  | 0, _ => none
  | left + 1, part :: parts =>
      if part < 256 then (combine left parts).map (part * 256 ^ left + ·) else none

/-- The address a text denotes. -/
def inetAton (text : List UInt8) : Option Nat := do
  combine 4 (← (text.splitOn dot).mapM number)

/-- The bytes of an address, the first one first. -/
def octets (address : Nat) : Nat × Nat × Nat × Nat :=
  (address / 256 ^ 3, address / 256 ^ 2 % 256, address / 256 % 256, address % 256)

section

variable {text digits : List UInt8} {address n value base : Nat}

/-! ## Dotted decimal -/

/-- Four bytes give the address with these bytes. -/
theorem octets_of_combine {a b c d : Nat} (ha : a < 256) (hb : b < 256) (hc : c < 256)
    (hd : d < 256) :
    ∃ address, combine 4 [a, b, c, d] = some address ∧ octets address = (a, b, c, d) := by
  refine ⟨a * 256 ^ 3 + (b * 256 ^ 2 + (c * 256 ^ 1 + d)), ?_, ?_⟩
  · simp only [combine, ha, hb, hc, if_true, pow_one, hd, Option.map_some]
  · simp only [octets, Prod.mk.injEq]
    omega

/-! ## The text of an address -/

theorem digit_of_readDigits (h : readDigits base n digits = some value) :
    ∀ byte ∈ digits, (digit byte).isSome = true := by
  induction digits generalizing n with
  | nil => exact fun byte hmem => absurd hmem List.not_mem_nil
  | cons first digits ih =>
      obtain ⟨d, hd, hrest⟩ := Option.bind_eq_some_iff.mp h
      intro byte hmem
      split at hrest
      next =>
        rcases List.mem_cons.mp hmem with rfl | hmem
        · rw [hd]
          rfl
        · exact ih hrest byte hmem
      next => cases hrest

theorem of_ofDigits (h : ofDigits base digits = some value) :
    digits ≠ [] ∧ readDigits base 0 digits = some value := by
  rw [ofDigits] at h
  split at h
  next => cases h
  next hne => exact ⟨hne, h⟩

theorem digit_of_ofDigits (h : ofDigits base digits = some value) :
    ∀ byte ∈ digits, (digit byte).isSome = true :=
  digit_of_readDigits (of_ofDigits h).2

/-- A byte of a number is a digit or the letter of the base. -/
theorem byte_of_number (h : number text = some value) :
    ∀ byte ∈ text, (digit byte).isSome = true ∨ byte = 0x78 ∨ byte = 0x58 := by
  intro byte hmem
  rcases text with _ | ⟨first, _ | ⟨second, digits⟩⟩
  · cases hmem
  · exact .inl (digit_of_ofDigits h byte hmem)
  · rw [number] at h
    split at h
    next => exact .inl (digit_of_ofDigits h byte hmem)
    next hfirst =>
      rcases List.mem_cons.mp hmem with rfl | hmem
      · rw [not_not.mp hfirst]
        exact .inl rfl
      · split at h
        next hsecond =>
          rcases List.mem_cons.mp hmem with rfl | hmem
          · exact .inr hsecond
          · exact .inl (digit_of_ofDigits h byte hmem)
        next => exact .inl (digit_of_ofDigits h byte hmem)

theorem number_ne_nil (h : number text = some value) : text ≠ [] := by
  rintro rfl
  exact absurd rfl (of_ofDigits h).1

theorem exists_number (h : inetAton text = some address) :
    ∀ piece ∈ text.splitOn dot, ∃ value, number piece = some value := by
  obtain ⟨parts, hparts, -⟩ := Option.bind_eq_some_iff.mp h
  exact Checks.exists_of_mapM_eq_some hparts

/-- No number is empty, so dots stand between numbers only. -/
theorem nil_notMem_splitOn (h : inetAton text = some address) : [] ∉ text.splitOn dot := by
  intro hmem
  obtain ⟨value, hvalue⟩ := exists_number h [] hmem
  exact number_ne_nil hvalue rfl

/-- The bytes of an address are digits, letters of a base and dots. -/
theorem byte_of_inetAton (h : inetAton text = some address) :
    ∀ byte ∈ text, byte = dot ∨ (digit byte).isSome = true ∨ byte = 0x78 ∨ byte = 0x58 := by
  intro byte hmem
  by_cases hdot : byte = dot
  · exact .inl hdot
  · obtain ⟨piece, hpiece, hbyte⟩ := Search.exists_mem_splitOn hmem hdot
    obtain ⟨value, hvalue⟩ := exists_number h piece hpiece
    exact .inr (byte_of_number hvalue byte hbyte)

end

end InetAton
