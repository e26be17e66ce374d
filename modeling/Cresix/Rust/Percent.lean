import Cresix.Rust.Text

/-!
# The `percent-encoding` crate

`percent_decode` replaces a percent sign and two hexadecimal digits by a byte
and leaves everything else as it is.  So it changes nothing if and only if
there is no such triplet, and otherwise what it gives is shorter.
-/

namespace Rust

/-- `char::to_digit(16)` of a byte. -/
def hexValue (b : UInt8) : Option Nat :=
  if isAsciiDigit b then some (b.toNat - 0x30)
  else if 0x61 ≤ b && b ≤ 0x66 then some (b.toNat - 0x61 + 10)
  else if 0x41 ≤ b && b ≤ 0x46 then some (b.toNat - 0x41 + 10)
  else none

/-- The byte that a triplet stands for. -/
def triplet (b high low : UInt8) : Option UInt8 :=
  if b == 0x25 then
    match hexValue high, hexValue low with
    | some h, some l => some (UInt8.ofNat (h * 16 + l))
    | _, _ => none
  else none

/-- `percent_decode`. -/
def percentDecode : List UInt8 → List UInt8
  | b :: high :: low :: rest =>
      match triplet b high low with
      | some byte => byte :: percentDecode rest
      | none => b :: percentDecode (high :: low :: rest)
  | b :: rest => b :: rest
  | [] => []

/-- Somewhere a percent sign comes before two hexadecimal digits. -/
def HasTriplet (bytes : List UInt8) : Prop :=
  ∃ front high low back, bytes = front ++ 0x25 :: high :: low :: back ∧
    (hexValue high).isSome ∧ (hexValue low).isSome

theorem triplet_isSome_iff {b high low : UInt8} : (triplet b high low).isSome ↔
    b = 0x25 ∧ (hexValue high).isSome ∧ (hexValue low).isSome := by
  unfold triplet
  split
  next hb =>
    rw [and_iff_right (beq_iff_eq.mp hb)]
    cases hexValue high with
    | none => simp
    | some h =>
        cases hexValue low with
        | none => simp
        | some l => simp
  next hb => simp [beq_iff_eq.not.mp hb]

theorem hasTriplet_cons {b high low : UInt8} {rest : List UInt8} :
    HasTriplet (b :: high :: low :: rest) ↔
      (triplet b high low).isSome ∨ HasTriplet (high :: low :: rest) := by
  rw [triplet_isSome_iff]
  constructor
  · rintro ⟨front, high', low', back, heq, hdigits⟩
    cases front with
    | nil =>
        cases heq
        exact .inl ⟨rfl, hdigits⟩
    | cons c front =>
        rw [List.cons_append, List.cons.injEq] at heq
        exact .inr ⟨front, high', low', back, heq.2, hdigits⟩
  · rintro (⟨rfl, hdigits⟩ | ⟨front, high', low', back, heq, hdigits⟩)
    · exact ⟨[], high, low, rest, rfl, hdigits⟩
    · exact ⟨b :: front, high', low', back, by rw [heq, List.cons_append], hdigits⟩

theorem not_hasTriplet_of_short {bytes : List UInt8} (h : bytes.length < 3) :
    ¬HasTriplet bytes := by
  rintro ⟨front, high, low, back, rfl, -⟩
  simp at h
  omega

theorem length_percentDecode_le (bytes : List UInt8) :
    (percentDecode bytes).length ≤ bytes.length := by
  induction bytes using percentDecode.induct with
  | case1 b high low rest byte hbyte ih =>
      simp only [percentDecode, hbyte, List.length_cons]
      omega
  | case2 b high low rest hbyte ih =>
      simp only [percentDecode, hbyte, List.length_cons] at ih ⊢
      omega
  | case3 b rest hshort =>
      simp [percentDecode]
  | case4 => exact Nat.le_refl _

/-- Without a triplet nothing is changed. -/
theorem percentDecode_of_not_hasTriplet {bytes : List UInt8} (h : ¬HasTriplet bytes) :
    percentDecode bytes = bytes := by
  induction bytes using percentDecode.induct with
  | case1 b high low rest byte hbyte ih =>
      rw [hasTriplet_cons, hbyte] at h
      exact absurd (.inl rfl) h
  | case2 b high low rest hbyte ih =>
      rw [hasTriplet_cons, not_or] at h
      simp only [percentDecode, hbyte, ih h.2]
  | case3 b rest hshort => simp [percentDecode]
  | case4 => rfl

/-- With a triplet the result is shorter. -/
theorem length_percentDecode_lt {bytes : List UInt8} (h : HasTriplet bytes) :
    (percentDecode bytes).length < bytes.length := by
  induction bytes using percentDecode.induct with
  | case1 b high low rest byte hbyte ih =>
      have hrest := length_percentDecode_le rest
      simp only [percentDecode, hbyte, List.length_cons]
      omega
  | case2 b high low rest hbyte ih =>
      rw [hasTriplet_cons, hbyte] at h
      have hrest := ih (h.resolve_left (by simp))
      simp only [percentDecode, hbyte, List.length_cons] at hrest ⊢
      omega
  | case3 b rest hshort =>
      refine absurd h (not_hasTriplet_of_short ?_)
      cases rest with
      | nil => simp
      | cons high rest =>
          cases rest with
          | nil => simp
          | cons low rest => exact (hshort high low rest rfl).elim
  | case4 => exact absurd h (not_hasTriplet_of_short (by decide))

end Rust
