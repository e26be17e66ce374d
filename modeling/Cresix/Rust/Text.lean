import Mathlib.Algebra.Ring.Nat
import Mathlib.Data.List.Infix
import Mathlib.Data.List.TakeWhile

/-!
# Rust text and integers

What the modelled code uses of Rust's `str`, `char`, `u8`, of the integer
methods, of `uuid` and of `std::path` on Unix.  A Rust string is its UTF-8
bytes, so lengths and byte indexes are taken on `Rust.bytes`.  A slice at an
index that is not a character boundary panics; `sliceTo` and `sliceFrom` give
`none` there.
-/

namespace Rust

/-- `uuid::Uuid`. -/
abbrev Uuid := BitVec 128

/-- The last hexadecimal digits of a number. -/
def hexDigits : Nat → Nat → List Char
  | 0, _ => []
  | count + 1, n => hexDigits count (n / 16) ++ [Nat.digitChar (n % 16)]

theorem length_hexDigits (count n : Nat) : (hexDigits count n).length = count := by
  induction count generalizing n with
  | zero => rfl
  | succ count ih => rw [hexDigits, List.length_append, ih, List.length_singleton]

theorem mem_hexDigits {count n : Nat} {c : Char} (h : c ∈ hexDigits count n) :
    ∃ d < 16, c = Nat.digitChar d := by
  induction count generalizing n with
  | zero => cases h
  | succ count ih =>
      rcases List.mem_append.mp h with hfront | hlast
      · exact ih hfront
      · exact ⟨n % 16, Nat.mod_lt _ (by decide), List.mem_singleton.mp hlast⟩

/-- The digits of different numbers are different. -/
theorem hexDigits_injective {count m n : Nat} (hm : m < 16 ^ count) (hn : n < 16 ^ count)
    (h : hexDigits count m = hexDigits count n) : m = n := by
  have hdigit : ∀ a < 16, ∀ b < 16, Nat.digitChar a = Nat.digitChar b → a = b := by decide
  induction count generalizing m n with
  | zero => omega
  | succ count ih =>
      obtain ⟨hfront, hlast⟩ := List.append_inj' h rfl
      have hrest := ih (m := m / 16) (n := n / 16) (by omega) (by omega) hfront
      have hmod := hdigit _ (Nat.mod_lt m (by decide)) _ (Nat.mod_lt n (by decide))
        (List.singleton_inj.mp hlast)
      omega

/-- `Uuid::hyphenated`. -/
def hyphenated (id : Uuid) : String :=
  String.ofList (hexDigits 8 (id.toNat / 2 ^ 96) ++ '-' :: hexDigits 4 (id.toNat / 2 ^ 80) ++
    '-' :: hexDigits 4 (id.toNat / 2 ^ 64) ++ '-' :: hexDigits 4 (id.toNat / 2 ^ 48) ++
    '-' :: hexDigits 12 id.toNat)

/-- `u32::MAX`. -/
def u32Max : Nat := 4294967295

/-- `u64::MAX`, and `usize::MAX` on the 64-bit targets. -/
def u64Max : Nat := 18446744073709551615

/-- `u64::saturating_add` and `usize::saturating_add`. -/
def saturatingAdd (a b : Nat) : Nat := min (a + b) u64Max

theorem saturatingAdd_le_iff {a b limit : Nat} (h : limit < u64Max) :
    saturatingAdd a b ≤ limit ↔ a + b ≤ limit := by
  unfold saturatingAdd
  omega

theorem saturatingAdd_eq {a b limit : Nat} (h : limit < u64Max)
    (hle : saturatingAdd a b ≤ limit) : saturatingAdd a b = a + b := by
  unfold saturatingAdd at *
  omega

/-! ## Bytes -/

/-- `str::as_bytes`. -/
def bytes (s : String) : List UInt8 := s.toUTF8.data.toList

/-- `str::len`. -/
def len (s : String) : Nat := s.utf8ByteSize

theorem length_bytes (s : String) : (bytes s).length = len s := by
  show s.toByteArray.data.toList.length = s.toByteArray.size
  rw [Array.length_toList]
  rfl

theorem bytes_append (s t : String) : bytes (s ++ t) = bytes s ++ bytes t := by
  simp [bytes]

theorem bytes_ofList (cs : List Char) :
    bytes (String.ofList cs) = cs.flatMap String.utf8EncodeChar := by
  simp [bytes, List.utf8Encode]

theorem bytes_ofList_of_ascii {cs : List Char} (h : ∀ c ∈ cs, c.val ≤ 0x7f) :
    bytes (String.ofList cs) = cs.map fun c => c.val.toUInt8 := by
  rw [bytes_ofList]
  induction cs with
  | nil => rfl
  | cons c cs ih =>
      obtain ⟨hc, hcs⟩ := List.forall_mem_cons.mp h
      have hsize : c.utf8Size = 1 := Char.utf8Size_eq_one_iff.mpr hc
      rw [List.flatMap_cons, List.map_cons, ih hcs, String.utf8EncodeChar_eq_singleton hsize]
      rfl

theorem bytes_eq_flatMap (s : String) : bytes s = s.toList.flatMap String.utf8EncodeChar := by
  rw [← bytes_ofList, String.ofList_toList]

/-- An ASCII character of a string is one of its bytes. -/
theorem mem_bytes_of_mem {s : String} {c : Char} (h : c ∈ s.toList) (hascii : c.val ≤ 0x7f) :
    c.val.toUInt8 ∈ bytes s := by
  have hsize : c.utf8Size = 1 := Char.utf8Size_eq_one_iff.mpr hascii
  rw [bytes_eq_flatMap, List.mem_flatMap]
  exact ⟨c, h, by rw [String.utf8EncodeChar_eq_singleton hsize]; exact List.mem_singleton_self _⟩

/-- An ASCII byte of a string is one of its characters. -/
theorem exists_of_mem_bytes {s : String} {b : UInt8} (h : b ∈ bytes s) (hascii : b < 0x80) :
    ∃ c ∈ s.toList, c.val.toNat = b.toNat := by
  rw [bytes_eq_flatMap] at h
  obtain ⟨c, hc, hb⟩ := List.mem_flatMap.mp h
  refine ⟨c, hc, ?_⟩
  have hlt : b.toNat < 128 := hascii
  have hsmall : ∀ n, n < 256 → b = UInt8.ofNat n → b.toNat = n := by
    intro n hn heq
    rw [heq]
    exact UInt8.toNat_ofNat_of_lt' hn
  unfold String.utf8EncodeChar at hb
  generalize c.val.toNat = v at hb ⊢
  dsimp only at hb
  split at hb
  next hv => exact (hsmall v (by omega) (List.mem_singleton.mp hb)).symm
  next =>
    -- The bytes of a longer character are 128 and more.
    exfalso
    split at hb
    next =>
      simp only [List.mem_cons, List.not_mem_nil, or_false] at hb
      rcases hb with hb | hb
      all_goals have := hsmall _ (by omega) hb; omega
    next =>
      split at hb
      next =>
        simp only [List.mem_cons, List.not_mem_nil, or_false] at hb
        rcases hb with hb | hb | hb
        all_goals have := hsmall _ (by omega) hb; omega
      next =>
        simp only [List.mem_cons, List.not_mem_nil, or_false] at hb
        rcases hb with hb | hb | hb | hb
        all_goals have := hsmall _ (by omega) hb; omega

/-- The string of ASCII bytes. -/
def ofAscii (b : List UInt8) : String := String.ofList (b.map Char.ofUInt8)

theorem bytes_ofAscii {b : List UInt8} (h : ∀ byte ∈ b, byte ≤ 0x7f) : bytes (ofAscii b) = b := by
  rw [ofAscii, bytes_ofList]
  induction b with
  | nil => rfl
  | cons byte b ih =>
      have hbyte : byte.toNat ≤ 127 := UInt8.le_iff_toNat_le.mp (h byte List.mem_cons_self)
      have hchar : String.utf8EncodeChar (Char.ofUInt8 byte) = [byte] := by
        have hval : (Char.ofUInt8 byte).val.toNat = byte.toNat := UInt8.toNat_toUInt32 byte
        simp only [String.utf8EncodeChar, hval, hbyte, if_true, UInt8.ofNat_toNat]
      rw [List.map_cons, List.flatMap_cons, hchar, ih fun other hmem =>
        h other (List.mem_cons_of_mem _ hmem)]
      rfl

theorem bytes_injective {s t : String} (h : bytes s = bytes t) : s = t := by
  refine String.toByteArray_inj.mp ?_
  rw [ByteArray.ext_iff]
  exact Array.toList_inj.mp h

/-- A part of a string is a part of its bytes. -/
theorem bytes_infix {s t : String} (h : s.toList <:+: t.toList) : bytes s <:+: bytes t := by
  obtain ⟨front, back, heq⟩ := h
  rw [bytes_eq_flatMap s, bytes_eq_flatMap t, ← heq, List.flatMap_append, List.flatMap_append]
  exact ⟨_, _, rfl⟩

theorem bytes_suffix {s t : String} (h : s.toList <:+ t.toList) : bytes s <:+ bytes t := by
  obtain ⟨front, heq⟩ := h
  rw [bytes_eq_flatMap s, bytes_eq_flatMap t, ← heq, List.flatMap_append]
  exact ⟨_, rfl⟩

theorem bytes_prefix {s t : String} (h : s.toList <+: t.toList) : bytes s <+: bytes t := by
  obtain ⟨back, heq⟩ := h
  rw [bytes_eq_flatMap s, bytes_eq_flatMap t, ← heq, List.flatMap_append]
  exact ⟨_, rfl⟩

/-- The characters of a string of ASCII bytes are its bytes. -/
theorem toList_of_ascii {s : String} (h : ∀ byte ∈ bytes s, byte ≤ 0x7f) :
    s.toList = (bytes s).map Char.ofUInt8 := by
  have hs : s = ofAscii (bytes s) := bytes_injective (bytes_ofAscii h).symm
  rw [hs, bytes_ofAscii h, ofAscii, String.toList_ofList]

/-- `u8::is_ascii_control`. -/
def isAsciiControl (b : UInt8) : Bool := b ≤ 0x1f || b == 0x7f

/-- `u8::is_ascii_lowercase`. -/
def isAsciiLowercase (b : UInt8) : Bool := 0x61 ≤ b && b ≤ 0x7a

/-- `u8::is_ascii_uppercase`. -/
def isAsciiUppercase (b : UInt8) : Bool := 0x41 ≤ b && b ≤ 0x5a

/-- `u8::is_ascii_digit`. -/
def isAsciiDigit (b : UInt8) : Bool := 0x30 ≤ b && b ≤ 0x39

/-- `u8::is_ascii_hexdigit`. -/
def isAsciiHexdigit (b : UInt8) : Bool :=
  isAsciiDigit b || (0x61 ≤ b && b ≤ 0x66) || (0x41 ≤ b && b ≤ 0x46)

/-- `u8::is_ascii_alphanumeric`. -/
def isAsciiAlphanumeric (b : UInt8) : Bool :=
  isAsciiLowercase b || isAsciiUppercase b || isAsciiDigit b

/-- `char::is_control`: the general category `Cc`. -/
def isControl (c : Char) : Bool := c.val ≤ 0x1f || (0x7f ≤ c.val && c.val ≤ 0x9f)

/-- `char::is_whitespace`: the Unicode property `White_Space`. -/
def isWhitespace (c : Char) : Bool :=
  (0x09 ≤ c.val && c.val ≤ 0x0d) || c.val == 0x20 || c.val == 0x85 || c.val == 0xa0
    || c.val == 0x1680 || (0x2000 ≤ c.val && c.val ≤ 0x200a) || c.val == 0x2028
    || c.val == 0x2029 || c.val == 0x202f || c.val == 0x205f || c.val == 0x3000

/-! ## Strings -/

/-- `str::to_ascii_lowercase`, on the bytes of the string. -/
def toAsciiLowercase (b : List UInt8) : List UInt8 :=
  b.map fun byte => if isAsciiUppercase byte then byte + 0x20 else byte

/-- `str::starts_with`. -/
def startsWith (s pat : String) : Bool := (bytes pat).isPrefixOf (bytes s)

/-- `str::ends_with`. -/
def endsWith (s pat : String) : Bool := (bytes pat).isSuffixOf (bytes s)

/-- `str::contains`. -/
def contains (s pat : String) : Bool := decide (bytes pat <:+: bytes s)

/-- `str::trim`, on the characters of the string. -/
def trim (cs : List Char) : List Char :=
  ((cs.dropWhile isWhitespace).reverse.dropWhile isWhitespace).reverse

theorem trim_append {cs blanks : List Char} (hcs : ∀ c ∈ cs, isWhitespace c = false)
    (hblanks : ∀ c ∈ blanks, isWhitespace c = true) : trim (cs ++ blanks) = cs := by
  have hdrop : ∀ front back : List Char, (∀ c ∈ front, isWhitespace c = true) →
      (∀ c ∈ back, isWhitespace c = false) → (front ++ back).dropWhile isWhitespace = back := by
    intro front back hfront hback
    rw [List.dropWhile_append_of_pos hfront]
    cases back with
    | nil => rfl
    | cons c back => exact List.dropWhile_cons_of_neg (by simp [hback c List.mem_cons_self])
  have hfront : (cs ++ blanks).dropWhile isWhitespace = cs ++ blanks ∨ cs = [] := by
    cases cs with
    | nil => exact .inr rfl
    | cons c cs =>
        left
        exact List.dropWhile_cons_of_neg (by simp [hcs c List.mem_cons_self])
  unfold trim
  rcases hfront with hfront | rfl
  · rw [hfront, List.reverse_append, hdrop, List.reverse_reverse]
    · intro c hc
      exact hblanks c (List.mem_reverse.mp hc)
    · intro c hc
      exact hcs c (List.mem_reverse.mp hc)
  · have hnone : blanks.dropWhile isWhitespace = [] := by
      have := hdrop blanks [] hblanks (by simp)
      simpa using this
    simp [hnone]

/-- The pieces of `str::split_whitespace`, read from the back: the word that is
still open and the words after it. -/
def splitWhitespaceFrom : List Char → List Char × List (List Char)
  | [] => ([], [])
  | c :: cs =>
      let (word, words) := splitWhitespaceFrom cs
      if isWhitespace c then ([], if word.isEmpty then words else word :: words)
      else (c :: word, words)

/-- `str::split_whitespace`, on the characters of the string. -/
def splitWhitespace (cs : List Char) : List (List Char) :=
  let (word, words) := splitWhitespaceFrom cs
  if word.isEmpty then words else word :: words

section

variable {word cs : List Char} {c : Char}

theorem splitWhitespaceFrom_blank (hc : isWhitespace c = true) (cs : List Char) :
    splitWhitespaceFrom (c :: cs) = ([], splitWhitespace cs) := by
  simp only [splitWhitespaceFrom, hc, if_true, splitWhitespace]

theorem splitWhitespace_blank (hc : isWhitespace c = true) (cs : List Char) :
    splitWhitespace (c :: cs) = splitWhitespace cs := by
  rw [splitWhitespace, splitWhitespaceFrom_blank hc]
  rfl

theorem splitWhitespaceFrom_word (hword : ∀ c ∈ word, isWhitespace c = false) (cs : List Char) :
    splitWhitespaceFrom (word ++ cs) =
      (word ++ (splitWhitespaceFrom cs).1, (splitWhitespaceFrom cs).2) := by
  induction word with
  | nil => rfl
  | cons c word ih =>
      obtain ⟨hc, hword⟩ := List.forall_mem_cons.mp hword
      rw [List.cons_append, splitWhitespaceFrom, ih hword, hc]
      rfl

theorem splitWhitespace_word (hne : word ≠ []) (hword : ∀ c ∈ word, isWhitespace c = false)
    (hc : isWhitespace c = true) (cs : List Char) :
    splitWhitespace (word ++ c :: cs) = word :: splitWhitespace cs := by
  have hfirst : splitWhitespaceFrom (word ++ c :: cs) = (word, splitWhitespace cs) := by
    rw [splitWhitespaceFrom_word hword, splitWhitespaceFrom_blank hc, List.append_nil]
  rw [splitWhitespace, hfirst]
  exact if_neg (by simpa using hne)

theorem splitWhitespace_last (hne : word ≠ []) (hword : ∀ c ∈ word, isWhitespace c = false) :
    splitWhitespace word = [word] := by
  have hfirst := splitWhitespaceFrom_word hword []
  rw [List.append_nil] at hfirst
  rw [splitWhitespace, hfirst, splitWhitespaceFrom, List.append_nil]
  exact if_neg (by simpa using hne)

end

/-- `str::split` at a character. -/
def split (sep : Char) : List Char → List (List Char)
  | [] => [[]]
  | c :: cs =>
      match split sep cs with
      | [] => [[c]]
      | piece :: pieces => if c = sep then [] :: piece :: pieces else (c :: piece) :: pieces

theorem split_eq_splitOn (sep : Char) (cs : List Char) : split sep cs = cs.splitOn sep := by
  induction cs with
  | nil => rfl
  | cons c cs ih =>
      obtain ⟨piece, pieces, hsplit⟩ := List.exists_cons_of_ne_nil (List.splitOn_ne_nil sep cs)
      rw [List.splitOn_cons_eq_if_modifyHead, split, ih, hsplit]
      by_cases hc : c = sep
      · rw [if_pos (beq_iff_eq.mpr hc)]
        exact if_pos hc
      · rw [if_neg (mt beq_iff_eq.mp hc)]
        exact if_neg hc

theorem split_ne_nil (sep : Char) (cs : List Char) : split sep cs ≠ [] := by
  rw [split_eq_splitOn]
  exact List.splitOn_ne_nil sep cs

/-- A piece ends at the first separator. -/
theorem split_append {sep : Char} {front : List Char} (h : sep ∉ front) (back : List Char) :
    split sep (front ++ sep :: back) = front :: split sep back := by
  induction front with
  | nil =>
      obtain ⟨piece, pieces, hsplit⟩ := List.exists_cons_of_ne_nil (split_ne_nil sep back)
      rw [List.nil_append, split, hsplit]
      exact if_pos rfl
  | cons c front ih =>
      obtain ⟨hc, hfront⟩ := not_or.mp (mt List.mem_cons.mpr h)
      rw [List.cons_append, split, ih hfront]
      exact if_neg (Ne.symm hc)

theorem split_of_not_mem {sep : Char} {cs : List Char} (h : sep ∉ cs) : split sep cs = [cs] := by
  induction cs with
  | nil => rfl
  | cons c cs ih =>
      obtain ⟨hc, hcs⟩ := not_or.mp (mt List.mem_cons.mpr h)
      rw [split, ih hcs]
      exact if_neg (Ne.symm hc)

/-- `str::split_once` at a character. -/
def splitOnce (sep : Char) : List Char → Option (List Char × List Char)
  | [] => none
  | c :: cs =>
      if c = sep then some ([], cs)
      else (splitOnce sep cs).map fun (front, back) => (c :: front, back)

/-- `str::trim_end_matches` of a character. -/
def trimEndMatches (c : Char) (s : String) : String :=
  String.ofList ((s.toList.reverse.dropWhile (· = c)).reverse)

theorem trimEndMatches_append {c : Char} {s t : String} (hs : s.toList.getLast? ≠ some c)
    (ht : ∀ d ∈ t.toList, d = c) : trimEndMatches c (s ++ t) = s := by
  have hback : ∀ d ∈ t.toList.reverse, decide (d = c) = true := by
    intro d hd
    exact decide_eq_true (ht d (List.mem_reverse.mp hd))
  have hfront : s.toList.reverse.dropWhile (fun d => decide (d = c)) = s.toList.reverse := by
    rw [← List.head?_reverse] at hs
    cases hrev : s.toList.reverse with
    | nil => rfl
    | cons d ds =>
        rw [hrev] at hs
        exact List.dropWhile_cons_of_neg (by simpa using hs)
  rw [trimEndMatches, String.toList_append, List.reverse_append,
    List.dropWhile_append_of_pos hback, hfront, List.reverse_reverse, String.ofList_toList]

/-- `str::strip_prefix`. -/
def stripPrefix (s pat : String) : Option String :=
  if pat.toList.isPrefixOf s.toList then some (String.ofList (s.toList.drop pat.toList.length))
  else none

/-- `str::strip_suffix`. -/
def stripSuffix (s pat : String) : Option String :=
  if pat.toList.isSuffixOf s.toList then
    some (String.ofList (s.toList.take (s.toList.length - pat.toList.length)))
  else none

theorem stripPrefix_eq_some_iff {s pat rest : String} :
    stripPrefix s pat = some rest ↔ s = pat ++ rest := by
  unfold stripPrefix
  constructor
  · intro h
    split at h
    next hprefix =>
      cases h
      obtain ⟨back, heq⟩ := List.isPrefixOf_iff_prefix.mp hprefix
      apply String.toList_inj.mp
      rw [String.toList_append, String.toList_ofList, ← heq, List.drop_left]
    next => cases h
  · rintro rfl
    rw [String.toList_append, if_pos (List.isPrefixOf_iff_prefix.mpr (List.prefix_append _ _)),
      List.drop_left, String.ofList_toList]

theorem stripSuffix_eq_some_iff {s pat rest : String} :
    stripSuffix s pat = some rest ↔ s = rest ++ pat := by
  unfold stripSuffix
  constructor
  · intro h
    split at h
    next hsuffix =>
      cases h
      obtain ⟨front, heq⟩ := List.isSuffixOf_iff_suffix.mp hsuffix
      apply String.toList_inj.mp
      rw [String.toList_append, String.toList_ofList, ← heq, List.length_append,
        Nat.add_sub_cancel, List.take_left]
    next => cases h
  · rintro rfl
    rw [String.toList_append, if_pos (List.isSuffixOf_iff_suffix.mpr (List.suffix_append _ _)),
      List.length_append, Nat.add_sub_cancel, List.take_left, String.ofList_toList]

/-- `str::is_char_boundary`, on the bytes of the string. -/
def isCharBoundary (b : List UInt8) (i : Nat) : Bool :=
  match b[i]? with
  | some byte => byte < 0x80 || 0xc0 ≤ byte
  | none => i == b.length

/-- The characters of `s` within its first `n` bytes. -/
def truncateChars : List Char → Nat → List Char
  | [], _ => []
  | c :: cs, n => if c.utf8Size ≤ n then c :: truncateChars cs (n - c.utf8Size) else []

/-- `String::truncate` at a character boundary. -/
def truncate (s : String) (newLen : Nat) : String := String.ofList (truncateChars s.toList newLen)

theorem truncate_append (s t : String) : truncate (s ++ t) (len s) = s := by
  have hchars : ∀ cs : List Char,
      truncateChars (cs ++ t.toList) (cs.map Char.utf8Size).sum = cs := by
    intro cs
    induction cs with
    | nil =>
        cases t.toList with
        | nil => rfl
        | cons c back => exact if_neg (by simp [c.utf8Size_pos.ne'])
    | cons c cs ih =>
        rw [List.cons_append, List.map_cons, List.sum_cons, truncateChars,
          if_pos (Nat.le_add_right _ _), Nat.add_sub_cancel_left, ih]
  have hlen : len s = (s.toList.map Char.utf8Size).sum := by
    rw [← length_bytes, bytes_eq_flatMap, List.length_flatMap]
    simp only [String.length_utf8EncodeChar]
  rw [truncate, String.toList_append, hlen, hchars, String.ofList_toList]

/-- `&s[..i]`. -/
def sliceTo (b : List UInt8) (i : Nat) : Option (List UInt8) :=
  if isCharBoundary b i then some (b.take i) else none

/-- `&s[i..]`. -/
def sliceFrom (b : List UInt8) (i : Nat) : Option (List UInt8) :=
  if isCharBoundary b i then some (b.drop i) else none

/-- A list around one of its elements. -/
theorem eq_take_cons_drop {α : Type} {l : List α} {i : Nat} {a : α} (h : l[i]? = some a) :
    l = l.take i ++ a :: l.drop (i + 1) := by
  obtain ⟨hlt, hget⟩ := List.getElem?_eq_some_iff.mp h
  rw [← hget, List.getElem_cons_drop, List.take_append_drop]

/-! ## Character boundaries -/

/-- A byte that starts a character. -/
def isCharStart (b : UInt8) : Bool := b < 0x80 || 0xc0 ≤ b

theorem isCharStart_ofNat {n : Nat} (h : n < 256) :
    isCharStart (UInt8.ofNat n) = true ↔ n < 128 ∨ 192 ≤ n := by
  have hn : (UInt8.ofNat n).toNat = n := UInt8.toNat_ofNat_of_lt' h
  simp [isCharStart, UInt8.lt_iff_toNat_lt, UInt8.le_iff_toNat_le, hn]

theorem isCharStart_continuation (n : Nat) : isCharStart (UInt8.ofNat (n % 64 + 128)) = false := by
  rw [← Bool.not_eq_true, isCharStart_ofNat (by omega)]
  omega

/-- The first byte of a character starts it, and no other one does. -/
theorem utf8EncodeChar_eq_cons (c : Char) : ∃ first rest, String.utf8EncodeChar c = first :: rest ∧
    isCharStart first = true ∧ ∀ b ∈ rest, isCharStart b = false := by
  unfold String.utf8EncodeChar
  generalize c.val.toNat = v
  dsimp only
  split
  next h => exact ⟨_, _, rfl, (isCharStart_ofNat (by omega)).mpr (by omega), nofun⟩
  next =>
    split
    next =>
      refine ⟨_, _, rfl, (isCharStart_ofNat (by omega)).mpr (by omega), ?_⟩
      simp only [List.forall_mem_cons, isCharStart_continuation, List.not_mem_nil, false_imp_iff,
          implies_true, and_self]
    next =>
      split
      next =>
        refine ⟨_, _, rfl, (isCharStart_ofNat (by omega)).mpr (by omega), ?_⟩
        simp only [List.forall_mem_cons, isCharStart_continuation, List.not_mem_nil, false_imp_iff,
          implies_true, and_self]
      next =>
        refine ⟨_, _, rfl, (isCharStart_ofNat (by omega)).mpr (by omega), ?_⟩
        simp only [List.forall_mem_cons, isCharStart_continuation, List.not_mem_nil, false_imp_iff,
          implies_true, and_self]

theorem isCharBoundary_eq (b : List UInt8) (i : Nat) :
    isCharBoundary b i = (b[i]?).elim (i == b.length) isCharStart := by
  unfold isCharBoundary
  cases b[i]? with
  | none => rfl
  | some byte => rfl

/-- Inside of the first character there is no boundary. -/
theorem isCharBoundary_inside {c : Char} {rest : List UInt8} {i : Nat} (hpos : 0 < i)
    (hlt : i < c.utf8Size) : isCharBoundary (String.utf8EncodeChar c ++ rest) i = false := by
  obtain ⟨first, others, heq, -, hothers⟩ := utf8EncodeChar_eq_cons c
  have hlen := String.length_utf8EncodeChar c
  rw [heq, List.length_cons] at hlen
  obtain ⟨j, rfl⟩ : ∃ j, i = j + 1 := ⟨i - 1, by omega⟩
  have hj : j < others.length := by omega
  rw [isCharBoundary_eq, heq, List.cons_append, List.getElem?_cons_succ,
    List.getElem?_append_left hj, List.getElem?_eq_getElem hj]
  exact hothers _ (List.getElem_mem hj)

/-- After the first character the boundaries are those of the rest. -/
theorem isCharBoundary_after {c : Char} {rest : List UInt8} (i : Nat) :
    isCharBoundary (String.utf8EncodeChar c ++ rest) (c.utf8Size + i) = isCharBoundary rest i := by
  have hlen := String.length_utf8EncodeChar c
  rw [isCharBoundary_eq, isCharBoundary_eq, List.getElem?_append_right (by omega), hlen,
    Nat.add_sub_cancel_left, List.length_append, hlen]
  congr 1
  rw [Bool.eq_iff_iff, beq_iff_eq, beq_iff_eq]
  omega

theorem isCharBoundary_zero (cs : List Char) :
    isCharBoundary (cs.flatMap String.utf8EncodeChar) 0 = true := by
  cases cs with
  | nil => rfl
  | cons c cs =>
      obtain ⟨first, others, heq, hfirst, -⟩ := utf8EncodeChar_eq_cons c
      rw [List.flatMap_cons, heq, isCharBoundary_eq]
      exact hfirst

theorem isCharBoundary_start (s : String) : isCharBoundary (bytes s) 0 = true := by
  rw [bytes_eq_flatMap]
  exact isCharBoundary_zero _

theorem isCharBoundary_le {b : List UInt8} {i : Nat} (h : isCharBoundary b i = true) :
    i ≤ b.length := by
  by_contra hlong
  rw [isCharBoundary, List.getElem?_eq_none (by omega)] at h
  have heq : i = b.length := beq_iff_eq.mp h
  omega

theorem isCharBoundary_length (b : List UInt8) : isCharBoundary b b.length = true := by
  rw [isCharBoundary, List.getElem?_eq_none (Nat.le_refl _)]
  exact beq_self_eq_true _

/-- The byte after an ASCII character starts the next one. -/
theorem isCharBoundary_succ {cs : List Char} {i : Nat} {b : UInt8}
    (hbyte : (cs.flatMap String.utf8EncodeChar)[i]? = some b) (hascii : b < 0x80) :
    isCharBoundary (cs.flatMap String.utf8EncodeChar) (i + 1) = true := by
  induction cs generalizing i with
  | nil => cases hbyte
  | cons c cs ih =>
      have hlen := String.length_utf8EncodeChar c
      rw [List.flatMap_cons] at hbyte ⊢
      by_cases hlt : i < c.utf8Size
      · -- An ASCII byte is a character of its own.
        rw [List.getElem?_append_left (by omega)] at hbyte
        have hmem : b ∈ bytes (String.ofList [c]) := by
          rw [bytes_ofList, List.flatMap_singleton]
          exact List.mem_of_getElem? hbyte
        obtain ⟨c', hc', hval⟩ := exists_of_mem_bytes hmem hascii
        rw [String.toList_ofList, List.mem_singleton] at hc'
        subst hc'
        have hlow : c'.val.toNat < 128 := hval ▸ UInt8.lt_iff_toNat_lt.mp hascii
        have hsize : c'.utf8Size = 1 :=
          Char.utf8Size_eq_one_iff.mpr (UInt32.le_iff_toNat_le.mpr (Nat.le_of_lt_succ hlow))
        obtain rfl : i = 0 := by omega
        rw [Nat.zero_add, ← hsize]
        have hafter := @isCharBoundary_after c' (cs.flatMap String.utf8EncodeChar) 0
        rw [Nat.add_zero, isCharBoundary_zero] at hafter
        exact hafter
      · obtain ⟨j, rfl⟩ := Nat.exists_eq_add_of_le (not_lt.mp hlt)
        rw [List.getElem?_append_right (by omega), hlen, Nat.add_sub_cancel_left] at hbyte
        rw [Nat.add_assoc, isCharBoundary_after]
        exact ih hbyte

/-- At a boundary a string falls into two. -/
theorem exists_append_of_isCharBoundary {s : String} {i : Nat}
    (h : isCharBoundary (bytes s) i = true) : ∃ front back, s = front ++ back ∧ len front = i := by
  have hchars : ∀ (cs : List Char) (i : Nat),
      isCharBoundary (cs.flatMap String.utf8EncodeChar) i = true →
      ∃ front back, cs = front ++ back ∧ (front.flatMap String.utf8EncodeChar).length = i := by
    intro cs
    induction cs with
    | nil =>
        intro i h
        exact ⟨[], [], rfl, (beq_iff_eq.mp h).symm⟩
    | cons c cs ih =>
        intro i h
        rw [List.flatMap_cons] at h
        rcases Nat.eq_zero_or_pos i with rfl | hpos
        · exact ⟨[], c :: cs, rfl, rfl⟩
        · by_cases hlt : i < c.utf8Size
          · rw [isCharBoundary_inside hpos hlt] at h
            cases h
          · obtain ⟨j, rfl⟩ := Nat.exists_eq_add_of_le (not_lt.mp hlt)
            rw [isCharBoundary_after] at h
            obtain ⟨front, back, rfl, hlen⟩ := ih j h
            refine ⟨c :: front, back, rfl, ?_⟩
            rw [List.flatMap_cons, List.length_append, String.length_utf8EncodeChar, hlen]
  rw [bytes_eq_flatMap] at h
  obtain ⟨front, back, heq, hlen⟩ := hchars s.toList i h
  refine ⟨String.ofList front, String.ofList back, ?_, ?_⟩
  · rw [← String.ofList_append, ← heq, String.ofList_toList]
  · rw [← length_bytes, bytes_ofList, hlen]

theorem bytes_truncate {s : String} {i : Nat} (h : isCharBoundary (bytes s) i = true) :
    bytes (truncate s i) = (bytes s).take i := by
  obtain ⟨front, back, rfl, rfl⟩ := exists_append_of_isCharBoundary h
  rw [truncate_append, bytes_append, ← length_bytes, List.take_left]

theorem isCharBoundary_append (front b : List UInt8) (i : Nat) :
    isCharBoundary (front ++ b) (front.length + i) = isCharBoundary b i := by
  rw [isCharBoundary_eq, isCharBoundary_eq, List.getElem?_append_right (Nat.le_add_right _ _),
    Nat.add_sub_cancel_left, List.length_append]
  congr 1
  rw [Bool.eq_iff_iff, beq_iff_eq, beq_iff_eq]
  omega

/-- Slices that end before an ASCII character and begin behind it do not panic. -/
theorem slices_of_ascii {text : String} {front rest : List UInt8} {i : Nat} {sep : UInt8}
    (htext : bytes text = front ++ rest) (hsep : rest[i]? = some sep) (hascii : sep < 0x80) :
    sliceTo rest i = some (rest.take i) ∧ sliceFrom rest (i + 1) = some (rest.drop (i + 1)) := by
  have hto : isCharBoundary rest i = true := by
    rw [isCharBoundary_eq, hsep]
    exact Bool.or_eq_true_iff.mpr (.inl (decide_eq_true hascii))
  have hfrom : isCharBoundary rest (i + 1) = true := by
    have hbyte : (bytes text)[front.length + i]? = some sep := by
      rw [htext, List.getElem?_append_right (Nat.le_add_right _ _), Nat.add_sub_cancel_left, hsep]
    rw [bytes_eq_flatMap] at hbyte htext
    have hnext := isCharBoundary_succ hbyte hascii
    rwa [htext, Nat.add_assoc, isCharBoundary_append] at hnext
  rw [sliceTo, sliceFrom, if_pos hto, if_pos hfrom]
  exact ⟨rfl, rfl⟩

/-! ## Paths -/

/-- `std::path::Component`, without the prefixes of Windows. -/
inductive Component where
  | rootDir
  | curDir
  | parentDir
  | normal (name : List Char)
deriving DecidableEq, Repr

/-- The component of a part between slashes; empty parts and dots are none. -/
def Component.ofPart (part : List Char) : Option Component :=
  if part = [] ∨ part = ['.'] then none
  else if part = ['.', '.'] then some .parentDir
  else some (.normal part)

/-- `Path::is_absolute`. -/
def isAbsolute (path : List Char) : Bool := path.head? = some '/'

/-- `Path::components`; a dot counts at the beginning of a relative path only. -/
def components (path : List Char) : List Component :=
  let parts := path.splitOn '/'
  (if isAbsolute path then [.rootDir] else []) ++
    (if parts.head? = some ['.'] then [.curDir] else []) ++ parts.filterMap Component.ofPart

theorem trim_eq_nil_iff {cs : List Char} : trim cs = [] ↔ ∀ c ∈ cs, isWhitespace c = true := by
  rw [trim, List.reverse_eq_nil_iff, List.dropWhile_eq_nil_iff]
  constructor
  · intro h c hmem
    have hrest : cs.dropWhile isWhitespace = [] := by
      by_contra hne
      have hfirst := List.head_dropWhile_not isWhitespace hne
      have hblank := h _ (List.mem_reverse.mpr (List.head_mem hne))
      exact absurd hblank (by simpa using hfirst)
    exact List.dropWhile_eq_nil_iff.mp hrest c hmem
  · intro h c hmem
    exact h c ((List.dropWhile_suffix _).subset (List.mem_reverse.mp hmem))

end Rust
