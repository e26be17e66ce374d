import Cresix.Rust.Text

/-!
# Base64

Decoding as the `base64` crate does it: only the canonical encoding of some
bytes is accepted.  The alphabets differ in the characters for 62 and 63, and
the standard engine wants the padding that the URL-safe one refuses.  Of the
encoding there is the URL-safe one, how long it is, and that the texts it makes
are those that are decoded (`urlSafeNoPad_eq_some_iff`).
-/

namespace Rust.Base64

/-- The value of a character, given the characters for 62 and 63. -/
def value (c62 c63 : UInt8) (b : UInt8) : Option Nat :=
  if isAsciiUppercase b then some (b.toNat - 0x41)
  else if isAsciiLowercase b then some (b.toNat - 0x61 + 26)
  else if isAsciiDigit b then some (b.toNat - 0x30 + 52)
  else if b = c62 then some 62
  else if b = c63 then some 63
  else none

/-- The bytes of a text in 6-bit values; bits that are left over are zero. -/
def join : List Nat → Option (List UInt8)
  | a :: b :: c :: d :: rest =>
      (join rest).map fun bytes =>
        UInt8.ofNat (a * 4 + b / 16) :: UInt8.ofNat (b % 16 * 16 + c / 4)
          :: UInt8.ofNat (c % 4 * 64 + d) :: bytes
  | [a, b, c] =>
      if c % 4 = 0 then some [UInt8.ofNat (a * 4 + b / 16), UInt8.ofNat (b % 16 * 16 + c / 4)]
      else none
  | [a, b] => if b % 16 = 0 then some [UInt8.ofNat (a * 4 + b / 16)] else none
  | [_] => none
  | [] => some []

/-- `URL_SAFE_NO_PAD.decode`. -/
def urlSafeNoPad (text : List UInt8) : Option (List UInt8) :=
  (text.mapM (value 0x2d 0x5f)).bind join

/-- `STANDARD.decode`. -/
def standard (text : List UInt8) : Option (List UInt8) :=
  let body := (text.reverse.dropWhile (· == 0x3d)).reverse
  if text.length % 4 = 0 && text.length - body.length ≤ 2 then
    (body.mapM (value 0x2b 0x2f)).bind join
  else none

/-! ## Encoding -/

/-- The character of a 6-bit value in the URL-safe alphabet. -/
def character (n : Nat) : Char :=
  if n < 26 then Char.ofNat (0x41 + n)
  else if n < 52 then Char.ofNat (0x61 + (n - 26))
  else if n < 62 then Char.ofNat (0x30 + (n - 52))
  else if n = 62 then '-'
  else '_'

/-- The 6-bit values of some bytes. -/
def sextets : List UInt8 → List Nat
  | a :: b :: c :: rest =>
      (a.toNat / 4) :: (a.toNat % 4 * 16 + b.toNat / 16) :: (b.toNat % 16 * 4 + c.toNat / 64)
        :: (c.toNat % 64) :: sextets rest
  | [a, b] => [a.toNat / 4, a.toNat % 4 * 16 + b.toNat / 16, b.toNat % 16 * 4]
  | [a] => [a.toNat / 4, a.toNat % 4 * 16]
  | [] => []

/-- `URL_SAFE_NO_PAD.encode`. -/
def encode (bytes : List UInt8) : String := String.ofList ((sextets bytes).map character)

theorem length_sextets (bytes : List UInt8) :
    (sextets bytes).length = (4 * bytes.length + 2) / 3 := by
  induction bytes using sextets.induct with
  | case1 a b c rest ih =>
      simp only [sextets, List.length_cons, ih]
      omega
  | case2 a b => simp [sextets]
  | case3 a => simp [sextets]
  | case4 => rfl

theorem sextets_lt (bytes : List UInt8) : ∀ n ∈ sextets bytes, n < 64 := by
  induction bytes using sextets.induct with
  | case1 a b c rest ih =>
      have ha := a.toNat_lt
      have hb := b.toNat_lt
      have hc := c.toNat_lt
      simp only [sextets, List.forall_mem_cons]
      exact ⟨by omega, by omega, by omega, by omega, ih⟩
  | case2 a b =>
      have ha := a.toNat_lt
      have hb := b.toNat_lt
      simp only [sextets, List.forall_mem_cons]
      exact ⟨by omega, by omega, by omega, nofun⟩
  | case3 a =>
      have ha := a.toNat_lt
      simp only [sextets, List.forall_mem_cons]
      exact ⟨by omega, by omega, nofun⟩
  | case4 => exact nofun

theorem character_ascii {n : Nat} (h : n < 64) : (character n).val ≤ 0x7f := by
  have hall : ∀ m : Fin 64, (character m).val ≤ 0x7f := by decide
  exact hall ⟨n, h⟩

/-- The character of a value has that value. -/
theorem value_character {n : Nat} (h : n < 64) :
    value 0x2d 0x5f (character n).val.toUInt8 = some n := by
  have hall : ∀ m : Fin 64, value 0x2d 0x5f (character m).val.toUInt8 = some m.val := by decide
  exact hall ⟨n, h⟩

/-- The bytes are put together again from their 6-bit values. -/
theorem join_sextets (bytes : List UInt8) : join (sextets bytes) = some bytes := by
  have hbyte : ∀ {n : Nat} {b : UInt8}, n = b.toNat → UInt8.ofNat n = b := by
    intro n b h
    rw [h, UInt8.ofNat_toNat]
  induction bytes using sextets.induct with
  | case1 a b c rest ih =>
      have ha := a.toNat_lt
      have hb := b.toNat_lt
      have hc := c.toNat_lt
      rw [sextets, join, ih, Option.map_some, hbyte (b := a) (by omega),
        hbyte (b := b) (by omega), hbyte (b := c) (by omega)]
  | case2 a b =>
      have ha := a.toNat_lt
      have hb := b.toNat_lt
      rw [sextets, join, if_pos (by omega), hbyte (b := a) (by omega),
        hbyte (b := b) (by omega)]
  | case3 a =>
      have ha := a.toNat_lt
      rw [sextets, join, if_pos (by omega), hbyte (b := a) (by omega)]
  | case4 => rfl

theorem bytes_encode (b : List UInt8) :
    bytes (encode b) = (sextets b).map fun n => (character n).val.toUInt8 := by
  have hascii : ∀ c ∈ (sextets b).map character, c.val ≤ 0x7f := by
    intro c hc
    obtain ⟨n, hn, rfl⟩ := List.mem_map.mp hc
    exact character_ascii (sextets_lt b n hn)
  rw [encode, bytes_ofList_of_ascii hascii, List.map_map]
  rfl

theorem len_encode (b : List UInt8) : len (encode b) = (4 * b.length + 2) / 3 := by
  rw [← length_bytes, bytes_encode, List.length_map, length_sextets]

theorem length_toList_encode (b : List UInt8) :
    (encode b).toList.length = (4 * b.length + 2) / 3 := by
  rw [encode, String.toList_ofList, List.length_map, length_sextets]

/-- The characters of an encoding are ASCII, and neither blanks nor controls. -/
theorem mem_bytes_encode {b : List UInt8} {byte : UInt8} (h : byte ∈ bytes (encode b)) :
    0x20 < byte ∧ byte < 0x7f := by
  have hall : ∀ m : Fin 64,
      0x20 < (character m).val.toUInt8 ∧ (character m).val.toUInt8 < 0x7f := by
    decide
  rw [bytes_encode] at h
  obtain ⟨n, hn, rfl⟩ := List.mem_map.mp h
  exact hall ⟨n, sextets_lt b n hn⟩

/-- What is encoded is decoded again. -/
theorem urlSafeNoPad_encode (b : List UInt8) : urlSafeNoPad (bytes (encode b)) = some b := by
  have hvalues : ∀ values : List Nat, (∀ n ∈ values, n < 64) →
      (values.map fun n => (character n).val.toUInt8).mapM (value 0x2d 0x5f) = some values := by
    intro values hvalues
    induction values with
    | nil => rfl
    | cons n values ih =>
        rw [List.map_cons, List.mapM_cons, value_character (hvalues n List.mem_cons_self),
          ih fun m hm => hvalues m (List.mem_cons_of_mem _ hm)]
        rfl
  rw [urlSafeNoPad, bytes_encode, hvalues _ (sextets_lt b)]
  exact join_sextets b

theorem encode_injective {b b' : List UInt8} (h : encode b = encode b') : b = b' := by
  have hdecode := urlSafeNoPad_encode b
  rw [h, urlSafeNoPad_encode] at hdecode
  exact (Option.some.inj hdecode).symm

/-! ## Decoding -/

/-- Every byte that has a value is the character of the value. -/
theorem character_of_value {b : UInt8} {n : Nat} (h : value 0x2d 0x5f b = some n) :
    n < 64 ∧ (character n).val.toUInt8 = b := by
  have hall : ∀ m : Fin 256, (value 0x2d 0x5f (UInt8.ofNat m)).all (fun n =>
      decide (n < 64 ∧ (character n).val.toUInt8 = UInt8.ofNat m)) = true := by decide +kernel
  have hbyte := hall ⟨b.toNat, b.toNat_lt⟩
  rw [UInt8.ofNat_toNat, h, Option.all_some, decide_eq_true_iff] at hbyte
  exact hbyte

/-- Different values never give the same bytes, since the bits that are left over are zero. -/
theorem sextets_of_join {values : List Nat} {b : List UInt8} (hlt : ∀ n ∈ values, n < 64)
    (h : join values = some b) : sextets b = values := by
  have hbyte : ∀ n, n < 256 → (UInt8.ofNat n).toNat = n := fun n hn => UInt8.toNat_ofNat_of_lt' hn
  induction values using join.induct generalizing b with
  | case1 x y z w rest ih =>
      simp only [List.forall_mem_cons] at hlt
      obtain ⟨hx, hy, hz, hw, hrest⟩ := hlt
      obtain ⟨b', hb', rfl⟩ := Option.map_eq_some_iff.mp h
      rw [sextets, ih hrest hb', hbyte _ (by omega), hbyte _ (by omega), hbyte _ (by omega)]
      simp only [List.cons.injEq, and_true]
      exact ⟨by omega, by omega, by omega, by omega⟩
  | case2 x y z hz =>
      simp only [List.forall_mem_cons] at hlt
      obtain ⟨hx, hy, hz', -⟩ := hlt
      rw [join, if_pos hz] at h
      cases h
      rw [sextets, hbyte _ (by omega), hbyte _ (by omega)]
      simp only [List.cons.injEq, and_true]
      exact ⟨by omega, by omega, by omega⟩
  | case3 x y z hz =>
      rw [join, if_neg hz] at h
      cases h
  | case4 x y hy =>
      simp only [List.forall_mem_cons] at hlt
      obtain ⟨hx, hy', -⟩ := hlt
      rw [join, if_pos hy] at h
      cases h
      rw [sextets, hbyte _ (by omega)]
      simp only [List.cons.injEq, and_true]
      exact ⟨by omega, by omega⟩
  | case5 x y hy =>
      rw [join, if_neg hy] at h
      cases h
  | case6 x => cases h
  | case7 =>
      cases h
      rfl

theorem of_mapM_value {text : List UInt8} {values : List Nat}
    (h : text.mapM (value 0x2d 0x5f) = some values) :
    (∀ n ∈ values, n < 64) ∧ values.map (fun n => (character n).val.toUInt8) = text := by
  induction text generalizing values with
  | nil =>
      cases h
      exact ⟨fun n hmem => absurd hmem List.not_mem_nil, rfl⟩
  | cons byte text ih =>
      rw [List.mapM_cons] at h
      obtain ⟨n, hn, h⟩ := Option.bind_eq_some_iff.mp h
      obtain ⟨rest, hrest, h⟩ := Option.bind_eq_some_iff.mp h
      cases h
      obtain ⟨hlt, hbyte⟩ := character_of_value hn
      obtain ⟨hlts, hbytes⟩ := ih hrest
      exact ⟨List.forall_mem_cons.mpr ⟨hlt, hlts⟩, by rw [List.map_cons, hbyte, hbytes]⟩

/-- Only what is encoded is decoded: a text is the encoding of the bytes it is decoded to. -/
theorem urlSafeNoPad_eq_some_iff {text b : List UInt8} :
    urlSafeNoPad text = some b ↔ text = bytes (encode b) := by
  constructor
  · intro h
    obtain ⟨values, hvalues, hjoin⟩ := Option.bind_eq_some_iff.mp h
    obtain ⟨hlt, hbytes⟩ := of_mapM_value hvalues
    rw [bytes_encode, sextets_of_join hlt hjoin, hbytes]
  · rintro rfl
    exact urlSafeNoPad_encode b

end Rust.Base64
