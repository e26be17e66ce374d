import Cresix.Rust.SerdeJson
import Mathlib.Tactic.Ring

/-!
# What serde reads

`Content` is a JSON value as serde buffers it, with the keys of an object as
often and in the order they came.  The readers of derived structures, of the
tag of an enumeration and of the numbers are functions of it.

A `Format` writes a type and reads it again.  `Format.read_write_read` is the
law for all of them: what was read is read again after it was written.
-/

namespace Rust

/-- A JSON value as serde buffers it. -/
inductive Content where
  | unit
  | bool (b : Bool)
  | u64 (n : Nat)
  | i64 (n : Int)
  /-- A number that is no integer of 64 bits. -/
  | f64
  | str (s : String)
  | seq (items : List Content)
  | map (entries : List (String × Content))

/-- An unsigned integer in a JSON text. -/
def Content.ofNat (n : Nat) : Content := if n < 2 ^ 64 then .u64 n else .f64

/-- An integer in a JSON text. -/
def Content.ofInt (n : Int) : Content :=
  if 0 ≤ n then .ofNat n.toNat else if -2 ^ 63 ≤ n then .i64 n else .f64

mutual

/-- What the text of a value is read as. -/
def content : Json.Value → Content
  | .null => .unit
  | .bool b => .bool b
  | .num n => .ofNat n
  | .int n => .ofInt n
  | .str s => .str s
  | .arr items => .seq (contents items)
  | .obj fields => .map (entries fields)

def contents : List Json.Value → List Content
  | [] => []
  | item :: items => content item :: contents items

def entries : List (String × Json.Value) → List (String × Content)
  | [] => []
  | (name, value) :: fields => (name, content value) :: entries fields

end

theorem contents_eq_map (items : List Json.Value) : contents items = items.map content := by
  induction items with
  | nil => rfl
  | cons item items ih => rw [contents, ih, List.map_cons]

namespace Content

/-! ## Readers -/

/-- An unsigned integer of some bits. -/
def unsigned (bits : Nat) : Content → Option Nat
  | .u64 n => if n < 2 ^ bits then some n else none
  | .i64 n => if 0 ≤ n ∧ n.toNat < 2 ^ bits then some n.toNat else none
  | _ => none

/-- A signed integer that some bits hold. -/
def InRange (bits : Nat) (n : Int) : Prop :=
  -((2 ^ (bits - 1) : Nat) : Int) ≤ n ∧ n < (2 ^ (bits - 1) : Nat)

instance (bits : Nat) (n : Int) : Decidable (InRange bits n) :=
  inferInstanceAs (Decidable (_ ∧ _))

/-- A signed integer of some bits. -/
def signed (bits : Nat) : Content → Option Int
  | .u64 n => if InRange bits n then some n else none
  | .i64 n => if InRange bits n then some n else none
  | _ => none

def text : Content → Option String
  | .str s => some s
  | _ => none

/-- A list of what an item is read as. -/
def list {α : Type} (read : Content → Option α) : Content → Option (List α)
  | .seq items => items.mapM read
  | _ => none

/-- The fields of a derived structure that denies unknown fields: each once, in
any order, or the values alone in the order of the fields. -/
def record (names : List String) : Content → Option (List (String × Content))
  | .map entries =>
      if (entries.map Prod.fst).Nodup ∧ ∀ name ∈ entries.map Prod.fst, name ∈ names then
        names.mapM fun name => (entries.lookup name).map (name, ·)
      else none
  | .seq items => if items.length = names.length then some (names.zip items) else none
  | _ => none

/-- A field of a structure. -/
def field {α : Type} (fields : List (String × Content)) (name : String)
    (read : Content → Option α) : Option α :=
  (fields.lookup name).bind read

/-- The tag of an internally tagged enumeration and the rest. -/
def tagged (tag : String) : Content → Option (Content × Content)
  | .map entries =>
      match entries.filter (·.1 = tag) with
      | [(_, value)] => some (value, .map (entries.filter (·.1 ≠ tag)))
      | _ => none
  | .seq (value :: items) => some (value, .seq items)
  | _ => none

/-- The name of a variant.  From a buffer its index is read as well. -/
def variant (buffered : Bool) (names : List String) : Content → Option String
  | .str s => if s ∈ names then some s else none
  | .u64 n => if buffered then names[n]? else none
  | _ => none

/-- An internally tagged enumeration: the variant that the tag names is read
from the rest. -/
def enumeration {α : Type} (tag : String) (buffered : Bool) (names : List String)
    (read : String → Content → Option α) (c : Content) : Option α := do
  let (value, rest) ← c.tagged tag
  let name ← value.variant buffered names
  read name rest

/-- A variant without fields, read from a buffer: its name, or an object with
that one key. -/
def unitVariant (names : List String) : Content → Option String
  | .str s => if s ∈ names then some s else none
  | .map [(name, .unit)] => if name ∈ names then some name else none
  | .map [(name, .map [])] => if name ∈ names then some name else none
  | _ => none

/-! ## Laws of the readers -/

theorem lt_of_unsigned {bits n : Nat} {c : Content} (h : c.unsigned bits = some n) :
    n < 2 ^ bits := by
  cases c with
  | u64 m =>
      simp only [unsigned, Option.ite_none_right_eq_some, Option.some.injEq] at h
      exact h.2 ▸ h.1
  | i64 m =>
      simp only [unsigned, Option.ite_none_right_eq_some, Option.some.injEq] at h
      exact h.2 ▸ h.1.2
  | _ => cases h

theorem unsigned_ofNat {bits n : Nat} (hbits : bits ≤ 64) (h : n < 2 ^ bits) :
    (ofNat n).unsigned bits = some n := by
  have hlt : n < 2 ^ 64 := h.trans_le (Nat.pow_le_pow_right (by decide) hbits)
  rw [ofNat, if_pos hlt]
  exact if_pos h

theorem inRange_of_signed {bits : Nat} {n : Int} {c : Content} (h : c.signed bits = some n) :
    InRange bits n := by
  cases c with
  | u64 m =>
      simp only [signed, Option.ite_none_right_eq_some, Option.some.injEq] at h
      exact h.2 ▸ h.1
  | i64 m =>
      simp only [signed, Option.ite_none_right_eq_some, Option.some.injEq] at h
      exact h.2 ▸ h.1
  | _ => cases h

theorem signed_ofInt {bits : Nat} {n : Int} (hbits : bits ≤ 64) (h : InRange bits n) :
    (ofInt n).signed bits = some n := by
  have hle : 2 ^ (bits - 1) ≤ 2 ^ 63 := Nat.pow_le_pow_right (by decide) (by omega)
  obtain ⟨hlow, hhigh⟩ := h
  rw [ofInt]
  split
  next hpos =>
    have hcast : ((n.toNat : Nat) : Int) = n := Int.toNat_of_nonneg hpos
    rw [ofNat, if_pos (by omega), signed, hcast]
    exact if_pos ⟨hlow, hhigh⟩
  next hneg =>
    rw [if_pos (by omega), signed]
    exact if_pos ⟨hlow, hhigh⟩

theorem lookup_of_mem {fields : List (String × Content)} {entry : String × Content}
    (hnodup : (fields.map Prod.fst).Nodup) (hmem : entry ∈ fields) :
    fields.lookup entry.1 = some entry.2 := by
  induction fields with
  | nil => cases hmem
  | cons other fields ih =>
      obtain ⟨name, value⟩ := other
      obtain ⟨hnew, hrest⟩ := List.nodup_cons.mp hnodup
      rcases List.mem_cons.mp hmem with rfl | hlater
      · exact List.lookup_cons_self
      · have hne : (entry.1 == name) = false := by
          rw [beq_eq_false_iff_ne]
          intro heq
          exact hnew (List.mem_map.mpr ⟨entry, hlater, heq⟩)
        rw [List.lookup_cons, hne]
        exact ih hrest hlater

/-- The fields of an object that has each name once, in their order. -/
theorem record_map {fields : List (String × Content)} (hnodup : (fields.map Prod.fst).Nodup) :
    (map fields).record (fields.map Prod.fst) = some fields := by
  have hlookup : ∀ part : List (String × Content), part ⊆ fields →
      (part.map Prod.fst).mapM (fun name => (fields.lookup name).map (name, ·)) = some part := by
    intro part hsub
    induction part with
    | nil => rfl
    | cons entry part ih =>
        obtain ⟨hmem, hrest⟩ := List.cons_subset.mp hsub
        have hfound : fields.lookup entry.1 = some entry.2 :=
          lookup_of_mem hnodup hmem
        rw [List.map_cons, List.mapM_cons, hfound, ih hrest]
        rfl
  rw [record, if_pos ⟨hnodup, fun _ hmem => hmem⟩]
  exact hlookup fields (List.Subset.refl _)

theorem map_fst_entries (fields : List (String × Json.Value)) :
    (entries fields).map Prod.fst = fields.map Prod.fst := by
  induction fields with
  | nil => rfl
  | cons field fields ih => rw [entries, List.map_cons, List.map_cons, ih]

/-- The fields of a structure that was written. -/
theorem record_obj {fields : List (String × Json.Value)} {names : List String}
    (hnames : names = fields.map Prod.fst) (hnodup : (fields.map Prod.fst).Nodup) :
    (content (.obj fields)).record names = some (entries fields) := by
  rw [hnames, content, ← map_fst_entries]
  exact record_map (by rwa [map_fst_entries])

/-- The tag of an enumeration that was written, and its fields. -/
theorem tagged_obj {tag : String} {value : Json.Value} {fields : List (String × Json.Value)}
    (hnew : tag ∉ fields.map Prod.fst) :
    (content (.obj ((tag, value) :: fields))).tagged tag =
      some (content value, content (.obj fields)) := by
  have hother : ∀ entry ∈ entries fields, entry.1 ≠ tag := by
    rintro entry hmem rfl
    rw [← map_fst_entries] at hnew
    exact hnew (List.mem_map_of_mem hmem)
  have hnone : (entries fields).filter (·.1 = tag) = [] :=
    List.filter_eq_nil_iff.mpr fun entry hmem => by simp [hother entry hmem]
  simp only [content, entries, tagged, List.filter_cons_of_pos, decide_true, hnone]
  rw [List.filter_cons_of_neg (by simp),
    List.filter_eq_self.mpr fun entry hmem => by simp [hother entry hmem]]

/-- The variant whose name was written is read. -/
theorem enumeration_obj {α : Type} {tag : String} {buffered : Bool} {names : List String}
    (read : String → Content → Option α) {name : String} {fields : List (String × Json.Value)}
    (hname : name ∈ names) (hnew : tag ∉ fields.map Prod.fst) :
    (content (.obj ((tag, .str name) :: fields))).enumeration tag buffered names read =
      read name (content (.obj fields)) := by
  have hvariant : (content (.str name)).variant buffered names = some name := by
    rw [content, variant, if_pos hname]
  rw [enumeration, tagged_obj hnew]
  simp only [bind, Option.bind_some, hvariant]

theorem exists_of_enumeration {α : Type} {tag : String} {buffered : Bool}
    {names : List String} {read : String → Content → Option α} {c : Content} {a : α}
    (h : c.enumeration tag buffered names read = some a) :
    ∃ name rest, read name rest = some a := by
  simp only [enumeration, bind, Option.bind_eq_some_iff] at h
  obtain ⟨⟨value, rest⟩, -, name, -, h⟩ := h
  exact ⟨name, rest, h⟩

theorem exists_of_field {α : Type} {fields : List (String × Content)} {name : String}
    {read : Content → Option α} {a : α} (h : field fields name read = some a) :
    ∃ c, read c = some a := by
  obtain ⟨c, -, hread⟩ := Option.bind_eq_some_iff.mp h
  exact ⟨c, hread⟩

section

variable {α : Type} (fields : List (String × Content)) (name : String)
  (read : Content → Option α) (value : Content)

@[simp] theorem field_cons_self : field ((name, value) :: fields) name read = read value := by
  simp [field]

@[simp] theorem field_cons_of_ne {other : String} (h : name ≠ other) :
    field ((other, value) :: fields) name read = field fields name read := by
  rw [field, List.lookup_cons, beq_eq_false_iff_ne.mpr h]
  rfl

end

end Content

/-! ## Formats -/

open Content

/-- A type with its JSON, its reader and the values that both agree on. -/
structure Format (α : Type) where
  write : α → Json.Value
  read : Content → Option α
  Fits : α → Prop
  read_write : ∀ {a}, Fits a → read (content (write a)) = some a
  fits_of_read : ∀ {c a}, read c = some a → Fits a

namespace Format

/-- What was read is read again after it was written. -/
theorem read_write_read {α : Type} (format : Format α) {c : Content} {a : α}
    (h : format.read c = some a) : format.read (content (format.write a)) = some a :=
  format.read_write (format.fits_of_read h)

/-- `u8` to `u64`. -/
def unsigned (bits : Nat) (hbits : bits ≤ 64) : Format Nat where
  write n := .num n
  read := Content.unsigned bits
  Fits n := n < 2 ^ bits
  read_write h := unsigned_ofNat hbits h
  fits_of_read h := lt_of_unsigned h

/-- `i8` to `i64`. -/
def signed (bits : Nat) (hbits : bits ≤ 64) : Format Int where
  write n := .int n
  read := Content.signed bits
  Fits := InRange bits
  read_write h := signed_ofInt hbits h
  fits_of_read h := inRange_of_signed h

def text : Format String where
  write s := .str s
  read := Content.text
  Fits _ := True
  read_write _ := rfl
  fits_of_read _ := trivial

/-- `Vec`. -/
def list {α : Type} (format : Format α) : Format (List α) where
  write items := .arr (items.map format.write)
  read := Content.list format.read
  Fits items := ∀ item ∈ items, format.Fits item
  read_write := by
    intro items h
    simp only [content, contents_eq_map, Content.list]
    induction items with
    | nil => rfl
    | cons item items ih =>
        rw [List.map_cons, List.map_cons, List.mapM_cons,
          format.read_write (h item List.mem_cons_self),
          ih fun other hmem => h other (List.mem_cons_of_mem _ hmem)]
        rfl
  fits_of_read := by
    intro c items h
    cases c with
    | seq contents =>
        rw [Content.list] at h
        induction contents generalizing items with
        | nil =>
            cases h
            intro item hmem
            cases hmem
        | cons c contents ih =>
            rw [List.mapM_cons] at h
            obtain ⟨first, hfirst, h⟩ := Option.bind_eq_some_iff.mp h
            obtain ⟨rest, hrest, h⟩ := Option.bind_eq_some_iff.mp h
            cases h
            exact List.forall_mem_cons.mpr ⟨format.fits_of_read hfirst, ih hrest⟩
    | _ => cases h

end Format

/-! ## Identifiers -/

/-- A parser of identifiers that reads what is written. -/
structure UuidParser where
  /-- `Uuid::parse_str`. -/
  parse : String → Option Uuid
  parse_hyphenated : ∀ id, parse (hyphenated id) = some id

/-- `Uuid`. -/
def Format.uuid (parser : UuidParser) : Format Uuid where
  write id := .str (hyphenated id)
  read c := c.text.bind parser.parse
  Fits _ := True
  read_write _ := parser.parse_hyphenated _
  fits_of_read _ := trivial

/-- The value of a hexadecimal digit in lower case. -/
def lowerHexValue (c : Char) : Nat := if c.toNat < 0x61 then c.toNat - 0x30 else c.toNat - 0x57

/-- The number that hexadecimal digits stand for, with dashes between them. -/
def ofHex (cs : List Char) : Nat :=
  (cs.filter (· ≠ '-')).foldl (fun n c => n * 16 + lowerHexValue c) 0

theorem foldl_hexDigits (count n start : Nat) :
    ((hexDigits count n).filter (· ≠ '-')).foldl (fun n c => n * 16 + lowerHexValue c) start =
      start * 16 ^ count + n % 16 ^ count := by
  have hvalue : ∀ d < 16, lowerHexValue (Nat.digitChar d) = d := by decide
  have hdash : ∀ d < 16, Nat.digitChar d ≠ '-' := by decide
  induction count generalizing n with
  | zero => simp [hexDigits, Nat.mod_one]
  | succ count ih =>
      have hlt := Nat.mod_lt n (by decide : 16 > 0)
      have hlast : [Nat.digitChar (n % 16)].filter (· ≠ '-') = [Nat.digitChar (n % 16)] :=
        List.filter_cons_of_pos (by simp [hdash _ hlt])
      rw [hexDigits, List.filter_append, List.foldl_append, ih, hlast, List.foldl_cons,
        List.foldl_nil, hvalue _ hlt, Nat.pow_succ', Nat.mod_mul]
      ring

/-- The digits of an identifier stand for it. -/
theorem ofHex_hyphenated (id : Uuid) : ofHex (hyphenated id).toList = id.toNat := by
  have hlt := id.isLt
  have hdash : ∀ cs : List Char, ('-' :: cs).filter (· ≠ '-') = cs.filter (· ≠ '-') :=
    fun cs => List.filter_cons_of_neg (by simp)
  rw [ofHex, hyphenated, String.toList_ofList]
  simp only [List.filter_append, hdash, List.foldl_append, foldl_hexDigits]
  omega

/-- The parser of what `hyphenated` writes. -/
def hyphenatedParser : UuidParser where
  parse s :=
    let id := BitVec.ofNat 128 (ofHex s.toList)
    if hyphenated id = s then some id else none
  parse_hyphenated id := by
    simp only [ofHex_hyphenated, BitVec.ofNat_toNat, BitVec.setWidth_eq, if_true]

end Rust
