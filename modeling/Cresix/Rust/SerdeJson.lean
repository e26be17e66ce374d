import Cresix.Library.Json
import Cresix.Rust.Text

/-!
# JSON as `serde_json` writes it

The bytes of a JSON text, and the JSON of the identifiers.
-/

namespace Rust

/-- `serde_json::to_vec`. -/
def toVec (value : Json.Value) : List UInt8 := bytes value.render

theorem length_toVec (value : Json.Value) : (toVec value).length = value.size := by
  unfold toVec
  rw [length_bytes, len, Json.utf8ByteSize_render]

/-- A text has no control character, so it fits in a line. -/
theorem not_mem_toVec {value : Json.Value} {b : UInt8} (hcontrol : b < 0x20) :
    b ∉ toVec value := by
  intro hmem
  have hsmall : b.toNat < 0x20 := hcontrol
  have hascii : b < 0x80 := UInt8.lt_of_lt_of_le hcontrol (by decide)
  obtain ⟨c, hc, hval⟩ := exists_of_mem_bytes hmem hascii
  have hprintable : ¬c.val.toNat < 0x20 := Json.printable_render value c hc
  omega

/-- No character of an identifier is escaped. -/
theorem escapedSize_hyphenated (id : Uuid) :
    ∀ c ∈ (hyphenated id).toList, Json.escapedSize c = 1 := by
  have hdigit : ∀ d < 16, Json.escapedSize (Nat.digitChar d) = 1 := by decide
  have hdigits : ∀ count n, ∀ c ∈ hexDigits count n, Json.escapedSize c = 1 := by
    intro count n c hc
    obtain ⟨d, hd, rfl⟩ := mem_hexDigits hc
    exact hdigit d hd
  have hdash : Json.escapedSize '-' = 1 := by decide
  intro c hc
  rw [hyphenated, String.toList_ofList] at hc
  simp only [List.mem_append, List.mem_cons] at hc
  rcases hc with ((((hc | rfl | hc) | rfl | hc) | rfl | hc) | rfl | hc)
  all_goals first | exact hdash | exact hdigits _ _ c hc

theorem length_hyphenated (id : Uuid) : (hyphenated id).toList.length = 36 := by
  simp [hyphenated, length_hexDigits]

theorem stringSize_hyphenated (id : Uuid) : Json.stringSize (hyphenated id) = 38 := by
  have hsize := Json.stringSize_ofList (escapedSize_hyphenated id)
  rwa [String.ofList_toList, length_hyphenated] at hsize

theorem renderString_hyphenated (id : Uuid) :
    Json.renderString (hyphenated id) = "\"" ++ hyphenated id ++ "\"" := by
  have hrender := Json.renderString_ofList (escapedSize_hyphenated id)
  rwa [String.ofList_toList] at hrender

end Rust
