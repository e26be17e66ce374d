import Cresix.Rust.Text
import Mathlib.Data.FinEnum

/-!
# The `http` crate

Which names, values and statuses a header map and a response take.
-/

namespace Rust.Http

/-- A character of a token. -/
def isTokenByte (b : UInt8) : Bool :=
  isAsciiAlphanumeric b
    || [0x21, 0x23, 0x24, 0x25, 0x26, 0x27, 0x2a, 0x2b, 0x2d, 0x2e, 0x5e, 0x5f, 0x60, 0x7c, 0x7e].contains b

/-- `HeaderName::try_from`. -/
def isHeaderName (name : String) : Bool :=
  !name.isEmpty && len name ≤ 65535 && (bytes name).all isTokenByte

/-- `HeaderValue::try_from`. -/
def isHeaderValue (value : String) : Bool :=
  (bytes value).all fun b => (0x20 ≤ b && b != 0x7f) || b == 0x09

/-- `HeaderName`, which is in lower case. -/
structure HeaderName where
  value : String
  valid : isHeaderName value ∧ ∀ b ∈ bytes value, isAsciiUppercase b = false
deriving DecidableEq

/-- `HeaderName::from_str`. -/
def HeaderName.fromStr (name : String) : Option HeaderName :=
  let lower := ofAscii (toAsciiLowercase (bytes name))
  if h : isHeaderName name ∧ isHeaderName lower ∧ ∀ b ∈ bytes lower, isAsciiUppercase b = false then
    some ⟨lower, h.2⟩
  else none

/-- `HeaderValue`. -/
structure HeaderValue where
  bytes : List UInt8
  valid : ∀ b ∈ bytes, (0x20 ≤ b ∧ b ≠ 0x7f) ∨ b = 0x09
deriving DecidableEq

/-- `HeaderValue::from_str`. -/
def HeaderValue.fromStr (value : String) : Option HeaderValue :=
  if h : ∀ b ∈ Rust.bytes value, (0x20 ≤ b ∧ b ≠ 0x7f) ∨ b = 0x09 then some ⟨Rust.bytes value, h⟩
  else none

/-- The values that `HeaderValue::to_str` takes. -/
def HeaderValue.isVisible (value : HeaderValue) : Bool :=
  value.bytes.all fun b => (0x20 ≤ b && b < 0x7f) || b == 0x09

/-- `HeaderValue::to_str`. -/
def HeaderValue.toStr (value : HeaderValue) : Option String :=
  if value.isVisible then some (ofAscii value.bytes) else none

theorem HeaderValue.bytes_toStr {value : HeaderValue} {text : String}
    (h : value.toStr = some text) : Rust.bytes text = value.bytes ∧ value.isVisible = true := by
  unfold toStr at h
  split at h
  next hvisible =>
    cases h
    refine ⟨bytes_ofAscii fun b hb => ?_, hvisible⟩
    have hbyte := List.all_eq_true.mp hvisible b hb
    simp only [Bool.or_eq_true, Bool.and_eq_true, decide_eq_true_eq, beq_iff_eq] at hbyte
    rcases hbyte with ⟨-, hlt⟩ | rfl
    · exact UInt8.le_of_lt hlt
    · decide
  next => cases h

theorem HeaderName.ascii (name : HeaderName) : ∀ b ∈ bytes name.value, b ≤ 0x7f := by
  have htoken := name.valid.1
  simp only [isHeaderName, Bool.and_eq_true, List.all_eq_true] at htoken
  intro b hb
  have hall : ∀ b : UInt8, isTokenByte b = true → b ≤ 0x7f := by decide +kernel
  exact hall b (htoken.2 b hb)

theorem HeaderName.toAsciiLowercase_value (name : HeaderName) :
    toAsciiLowercase (bytes name.value) = bytes name.value := by
  unfold toAsciiLowercase
  refine (List.map_congr_left fun b hb => ?_).trans (List.map_id _)
  rw [if_neg (by simp [name.valid.2 b hb])]
  rfl

/-- A name is read back from its text. -/
theorem HeaderName.fromStr_value (name : HeaderName) : fromStr name.value = some name := by
  have hlower := name.toAsciiLowercase_value
  have hvalue : ofAscii (bytes name.value) = name.value :=
    bytes_injective (bytes_ofAscii name.ascii)
  obtain ⟨value, hvalid⟩ := name
  simp only [fromStr, hlower, hvalue]
  rw [dif_pos ⟨hvalid.1, hvalid⟩]

/-- A visible value is read back from its text. -/
theorem HeaderValue.fromStr_ofAscii {value : HeaderValue} (h : value.isVisible = true) :
    fromStr (ofAscii value.bytes) = some value := by
  have hstr : value.toStr = some (ofAscii value.bytes) := if_pos h
  have hbytes := (HeaderValue.bytes_toStr hstr).1
  obtain ⟨bytes, hvalid⟩ := value
  simp only [fromStr, hbytes]
  rw [dif_pos hvalid]

/-- `HeaderMap` as its entries, in the order it iterates over them. -/
abbrev HeaderMap := List (HeaderName × HeaderValue)

/-- `StatusCode::from_u16`. -/
def isStatus (status : Nat) : Bool := 100 ≤ status && status ≤ 999

end Rust.Http
