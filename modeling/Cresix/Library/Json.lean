import Mathlib.Algebra.Ring.Nat
import Mathlib.Data.List.Basic

/-!
# JSON texts and their sizes

A JSON value and the compact text of it: no blanks, the fields in their order,
and in a string only the quote, the backslash and the control characters
escaped.  `Value.size` counts the bytes of the text without writing it
(`utf8ByteSize_render`).
-/

namespace Json

/-- A JSON value. -/
inductive Value where
  | null
  | bool (b : Bool)
  | num (n : Nat)
  | int (n : Int)
  | str (s : String)
  | arr (items : List Value)
  | obj (fields : List (String × Value))

/-! ## Strings -/

/-- The characters that are escaped with a letter or themselves. -/
def shortEscape (c : Char) : Option Char :=
  if c.val = 0x22 ∨ c.val = 0x5c then some c
  else if c.val = 0x08 then some 'b'
  else if c.val = 0x09 then some 't'
  else if c.val = 0x0a then some 'n'
  else if c.val = 0x0c then some 'f'
  else if c.val = 0x0d then some 'r'
  else none

/-- A character inside a JSON string. -/
def escape (c : Char) : List Char :=
  match shortEscape c with
  | some letter => ['\x5c', letter]
  | none =>
      if c.val < 0x20 then
        ['\x5c', 'u', '0', '0', Nat.digitChar (c.toNat / 16), Nat.digitChar (c.toNat % 16)]
      else [c]

/-- A JSON string. -/
def renderString (s : String) : String :=
  "\"" ++ String.ofList (s.toList.flatMap escape) ++ "\""

/-- The bytes of a character inside a JSON string. -/
def escapedSize (c : Char) : Nat :=
  match shortEscape c with
  | some _ => 2
  | none => if c.val < 0x20 then 6 else c.utf8Size

/-- The bytes of a JSON string. -/
def stringSize (s : String) : Nat := (s.toList.map escapedSize).sum + 2

theorem utf8ByteSize_ofList (cs : List Char) :
    (String.ofList cs).utf8ByteSize = (cs.map Char.utf8Size).sum := by
  show (cs.flatMap String.utf8EncodeChar).toByteArray.size = _
  rw [List.size_toByteArray, List.length_flatMap]
  simp

theorem shortEscape_size {c letter : Char} (h : shortEscape c = some letter) :
    letter.utf8Size = 1 := by
  unfold shortEscape at h
  split_ifs at h with hself
  all_goals cases h
  · rcases hself with hquote | hslash
    · simp [Char.utf8Size, hquote]
    · simp [Char.utf8Size, hslash]
  all_goals rfl

theorem digitChar_size {n : Nat} (h : n < 16) : (Nat.digitChar n).utf8Size = 1 := by
  have hall : ∀ m : Fin 16, (Nat.digitChar m).utf8Size = 1 := by decide
  exact hall ⟨n, h⟩

theorem size_escape (c : Char) : ((escape c).map Char.utf8Size).sum = escapedSize c := by
  unfold escape escapedSize
  cases hshort : shortEscape c with
  | some letter =>
      have hslash : Char.utf8Size '\x5c' = 1 := rfl
      simp [hslash, shortEscape_size hshort]
  | none =>
      dsimp only
      split
      next hcontrol =>
        have hlt : c.toNat < 32 := hcontrol
        have hhigh : (Nat.digitChar (c.toNat / 16)).utf8Size = 1 := digitChar_size (by omega)
        have hlow : (Nat.digitChar (c.toNat % 16)).utf8Size = 1 := digitChar_size (by omega)
        have hfixed : Char.utf8Size '\x5c' = 1 ∧ Char.utf8Size 'u' = 1 ∧ Char.utf8Size '0' = 1 :=
          ⟨rfl, rfl, rfl⟩
        simp [hfixed, hhigh, hlow]
      next => simp

theorem utf8ByteSize_renderString (s : String) :
    (renderString s).utf8ByteSize = stringSize s := by
  have hquote : "\"".utf8ByteSize = 1 := rfl
  have hbody : ∀ cs : List Char,
      ((cs.flatMap escape).map Char.utf8Size).sum = (cs.map escapedSize).sum := by
    intro cs
    induction cs with
    | nil => rfl
    | cons c cs ih =>
        rw [List.flatMap_cons, List.map_append, List.sum_append, ih, size_escape, List.map_cons,
          List.sum_cons]
  rw [renderString, String.utf8ByteSize_append, String.utf8ByteSize_append, hquote,
    utf8ByteSize_ofList (s.toList.flatMap escape), hbody, stringSize]
  omega

theorem sum_map_eq_length {size : Char → Nat} {cs : List Char} (h : ∀ c ∈ cs, size c = 1) :
    (cs.map size).sum = cs.length := by
  induction cs with
  | nil => rfl
  | cons c cs ih =>
      rw [List.map_cons, List.sum_cons, h c List.mem_cons_self,
        ih fun other hmem => h other (List.mem_cons_of_mem _ hmem), List.length_cons]
      omega

/-- The string of characters that are not escaped and take one byte each. -/
theorem stringSize_ofList {cs : List Char} (h : ∀ c ∈ cs, escapedSize c = 1) :
    stringSize (String.ofList cs) = cs.length + 2 := by
  rw [stringSize, String.toList_ofList, sum_map_eq_length h]

theorem escape_of_escapedSize {c : Char} (h : escapedSize c = 1) : escape c = [c] := by
  unfold escapedSize at h
  unfold escape
  cases hshort : shortEscape c with
  | some letter =>
      rw [hshort] at h
      cases h
  | none =>
      rw [hshort] at h
      dsimp only at h ⊢
      split at h
      next => cases h
      next hcontrol => exact if_neg hcontrol

/-- And is written as it is. -/
theorem renderString_ofList {cs : List Char} (h : ∀ c ∈ cs, escapedSize c = 1) :
    renderString (String.ofList cs) = "\"" ++ String.ofList cs ++ "\"" := by
  have hescape : cs.flatMap escape = cs := by
    induction cs with
    | nil => rfl
    | cons c cs ih =>
        rw [List.flatMap_cons, escape_of_escapedSize (h c List.mem_cons_self),
          ih fun other hmem => h other (List.mem_cons_of_mem _ hmem), List.singleton_append]
  rw [renderString, String.toList_ofList, hescape]

theorem escapedSize_le (c : Char) : escapedSize c ≤ 6 * c.utf8Size := by
  have hpos := c.utf8Size_pos
  unfold escapedSize
  split
  next => omega
  next =>
    split
    next => omega
    next => omega

/-- An escape takes at most six bytes. -/
theorem stringSize_le (s : String) : stringSize s ≤ 6 * s.utf8ByteSize + 2 := by
  have hlen : s.utf8ByteSize = (s.toList.map Char.utf8Size).sum := by
    rw [← utf8ByteSize_ofList, String.ofList_toList]
  rw [stringSize, hlen]
  generalize s.toList = cs
  induction cs with
  | nil => exact Nat.le_refl 2
  | cons c cs ih =>
      have hc := escapedSize_le c
      rw [List.map_cons, List.map_cons, List.sum_cons, List.sum_cons]
      omega

/-! ## Numbers -/

theorem utf8ByteSize_repr_le_iff {n k : Nat} (hk : 0 < k) :
    n.repr.utf8ByteSize ≤ k ↔ n < 10 ^ k := by
  have hlen : n.repr.utf8ByteSize = (n.repr.toList.map Char.utf8Size).sum := by
    rw [← utf8ByteSize_ofList, String.ofList_toList]
  have hdigit : ∀ c ∈ n.repr.toList, c.utf8Size = 1 := by
    intro c hc
    rw [Nat.toList_repr] at hc
    have hdigit := Nat.isDigit_of_mem_toDigits (by decide) (by decide) hc
    simp only [Char.isDigit, Bool.and_eq_true, decide_eq_true_eq] at hdigit
    exact Char.utf8Size_eq_one_iff.mpr (UInt32.le_trans hdigit.2 (by decide))
  rw [hlen, sum_map_eq_length hdigit, Nat.toList_repr]
  exact Nat.length_toDigits_le_iff (by decide) hk

/-! ## Values -/

mutual

/-- The text of a value. -/
def Value.render : Value → String
  | .null => "null"
  | .bool b => if b then "true" else "false"
  | .num n => n.repr
  | .int n => n.repr
  | .str s => renderString s
  | .arr items => "[" ++ renderItems items ++ "]"
  | .obj fields => "\x7b" ++ renderFields fields ++ "\x7d"

/-- The items of an array. -/
def renderItems : List Value → String
  | [] => ""
  | [item] => item.render
  | item :: next :: items => item.render ++ "," ++ renderItems (next :: items)

/-- The fields of an object. -/
def renderFields : List (String × Value) → String
  | [] => ""
  | [(name, value)] => renderString name ++ ":" ++ value.render
  | (name, value) :: next :: fields =>
      renderString name ++ ":" ++ value.render ++ "," ++ renderFields (next :: fields)

end

mutual

/-- The bytes of the text of a value. -/
def Value.size : Value → Nat
  | .null => 4
  | .bool b => if b then 4 else 5
  | .num n => n.repr.utf8ByteSize
  | .int n => n.repr.utf8ByteSize
  | .str s => stringSize s
  | .arr items => itemsSize items + 2
  | .obj fields => fieldsSize fields + 2

/-- The bytes of the items of an array. -/
def itemsSize : List Value → Nat
  | [] => 0
  | [item] => item.size
  | item :: next :: items => item.size + 1 + itemsSize (next :: items)

/-- The bytes of the fields of an object. -/
def fieldsSize : List (String × Value) → Nat
  | [] => 0
  | [(name, value)] => stringSize name + 1 + value.size
  | (name, value) :: next :: fields =>
      stringSize name + 1 + value.size + 1 + fieldsSize (next :: fields)

end

/-- The items and the commas between them. -/
theorem itemsSize_eq (items : List Value) :
    itemsSize items = (items.map Value.size).sum + (items.length - 1) := by
  induction items with
  | nil => rfl
  | cons item items ih =>
      cases items with
      | nil => simp [itemsSize]
      | cons next items =>
          simp only [itemsSize, List.map_cons, List.sum_cons, List.length_cons] at ih ⊢
          omega

mutual

theorem utf8ByteSize_render : ∀ value : Value, value.render.utf8ByteSize = value.size
  | .null => rfl
  | .bool b => by cases b <;> rfl
  | .num n => rfl
  | .int n => rfl
  | .str s => utf8ByteSize_renderString s
  | .arr items => by
      have hopen : "[".utf8ByteSize = 1 := rfl
      have hclose : "]".utf8ByteSize = 1 := rfl
      rw [Value.render, String.utf8ByteSize_append, String.utf8ByteSize_append, hopen, hclose,
        utf8ByteSize_renderItems items, Value.size]
      omega
  | .obj fields => by
      have hopen : "\x7b".utf8ByteSize = 1 := rfl
      have hclose : "\x7d".utf8ByteSize = 1 := rfl
      rw [Value.render, String.utf8ByteSize_append, String.utf8ByteSize_append, hopen, hclose,
        utf8ByteSize_renderFields fields, Value.size]
      omega

theorem utf8ByteSize_renderItems :
    ∀ items : List Value, (renderItems items).utf8ByteSize = itemsSize items
  | [] => rfl
  | [item] => by rw [renderItems, itemsSize, utf8ByteSize_render item]
  | item :: next :: items => by
      have hcomma : ",".utf8ByteSize = 1 := rfl
      rw [renderItems, String.utf8ByteSize_append, String.utf8ByteSize_append, hcomma,
        utf8ByteSize_render item, utf8ByteSize_renderItems (next :: items), itemsSize]

theorem utf8ByteSize_renderFields :
    ∀ fields : List (String × Value), (renderFields fields).utf8ByteSize = fieldsSize fields
  | [] => rfl
  | [(name, value)] => by
      have hcolon : ":".utf8ByteSize = 1 := rfl
      rw [renderFields, String.utf8ByteSize_append, String.utf8ByteSize_append, hcolon,
        utf8ByteSize_renderString, utf8ByteSize_render value, fieldsSize]
  | (name, value) :: next :: fields => by
      have hcolon : ":".utf8ByteSize = 1 := rfl
      have hcomma : ",".utf8ByteSize = 1 := rfl
      rw [renderFields, String.utf8ByteSize_append, String.utf8ByteSize_append,
        String.utf8ByteSize_append, String.utf8ByteSize_append, hcolon, hcomma,
        utf8ByteSize_renderString, utf8ByteSize_render value,
        utf8ByteSize_renderFields (next :: fields), fieldsSize]

end

/-! ## Characters -/

/-- No control character is in the text, so also no end of a line. -/
def Printable (cs : List Char) : Prop := ∀ c ∈ cs, ¬c.val < 0x20

instance (cs : List Char) : Decidable (Printable cs) := List.decidableBAll _ cs

theorem Printable.append {cs ds : List Char} (h : Printable cs) (h' : Printable ds) :
    Printable (cs ++ ds) := by
  intro c hc
  rcases List.mem_append.mp hc with hleft | hright
  · exact h c hleft
  · exact h' c hright

theorem printable_digitChar {n : Nat} (h : n < 16) : ¬(Nat.digitChar n).val < 0x20 := by
  have hall : ∀ m : Fin 16, ¬(Nat.digitChar m).val < 0x20 := by decide
  exact hall ⟨n, h⟩

theorem printable_escape (c : Char) : Printable (escape c) := by
  unfold escape
  cases hshort : shortEscape c with
  | some letter =>
      have hletter : ¬letter.val < 0x20 := by
        unfold shortEscape at hshort
        split_ifs at hshort with hself
        all_goals cases hshort
        · rcases hself with hquote | hslash
          · rw [hquote]; decide
          · rw [hslash]; decide
        all_goals decide
      intro d hd
      simp only [List.mem_cons, List.not_mem_nil, or_false] at hd
      rcases hd with rfl | rfl
      · decide
      · exact hletter
  | none =>
      dsimp only
      split
      next hcontrol =>
        have hlt : c.toNat < 32 := hcontrol
        intro d hd
        simp only [List.mem_cons, List.not_mem_nil, or_false] at hd
        rcases hd with rfl | rfl | rfl | rfl | rfl | rfl
        · decide
        · decide
        · decide
        · decide
        · exact printable_digitChar (by omega)
        · exact printable_digitChar (by omega)
      next hprintable =>
        intro d hd
        rwa [List.mem_singleton.mp hd]

theorem printable_renderString (s : String) : Printable (renderString s).toList := by
  unfold renderString
  rw [String.toList_append, String.toList_append]
  refine Printable.append (Printable.append ?_ ?_) ?_
  · decide
  · intro c hc
    rw [String.toList_ofList] at hc
    obtain ⟨d, -, hd⟩ := List.mem_flatMap.mp hc
    exact printable_escape d c hd
  · decide

theorem printable_repr (n : Nat) : Printable n.repr.toList := by
  intro c hc
  rw [Nat.toList_repr] at hc
  have hdigit := Nat.isDigit_of_mem_toDigits (by decide) (by decide) hc
  simp only [Char.isDigit, Bool.and_eq_true, decide_eq_true_eq] at hdigit
  intro hlt
  exact absurd (UInt32.lt_of_lt_of_le hlt (by decide)) (UInt32.not_lt.mpr hdigit.1)

theorem printable_intRepr (n : Int) : Printable n.repr.toList := by
  cases n with
  | ofNat n => exact printable_repr n
  | negSucc n =>
      show Printable ("-" ++ (n + 1).repr).toList
      rw [String.toList_append]
      exact Printable.append (by decide) (printable_repr _)

mutual

/-- The text of a value has no control character. -/
theorem printable_render : ∀ value : Value, Printable value.render.toList
  | .null => by unfold Value.render; decide
  | .bool b => by cases b <;> unfold Value.render <;> decide
  | .num n => printable_repr n
  | .int n => printable_intRepr n
  | .str s => printable_renderString s
  | .arr items => by
      rw [Value.render, String.toList_append, String.toList_append]
      exact Printable.append (Printable.append (by decide) (printable_renderItems items))
        (by decide)
  | .obj fields => by
      rw [Value.render, String.toList_append, String.toList_append]
      exact Printable.append (Printable.append (by decide) (printable_renderFields fields))
        (by decide)

theorem printable_renderItems : ∀ items : List Value, Printable (renderItems items).toList
  | [] => by unfold renderItems; decide
  | [item] => printable_render item
  | item :: next :: items => by
      rw [renderItems, String.toList_append, String.toList_append]
      exact Printable.append (Printable.append (printable_render item) (by decide))
        (printable_renderItems (next :: items))

theorem printable_renderFields :
    ∀ fields : List (String × Value), Printable (renderFields fields).toList
  | [] => by unfold renderFields; decide
  | [(name, value)] => by
      rw [renderFields, String.toList_append, String.toList_append]
      exact Printable.append (Printable.append (printable_renderString name) (by decide))
        (printable_render value)
  | (name, value) :: next :: fields => by
      rw [renderFields, String.toList_append, String.toList_append, String.toList_append,
        String.toList_append]
      exact Printable.append (Printable.append (Printable.append
        (Printable.append (printable_renderString name) (by decide)) (printable_render value))
        (by decide)) (printable_renderFields (next :: fields))

end

end Json
