import Cresix.Rust.Fs

/-!
# Lines of a text

What parsers of text lines use of `str`.  A string is given by its characters.
-/

namespace Rust

/-- The line without the `\r` of its ending. -/
def stripCr (line : List Char) : List Char :=
  if line.getLast? = some '\r' then line.dropLast else line

/-- `str::lines`.  Only the last line may have no ending. -/
def lines (cs : List Char) : List (List Char) :=
  let pieces := cs.splitOn '\n'
  pieces.dropLast.map stripCr ++ pieces.getLast?.toList.filter fun line => !line.isEmpty

/-- A space or a tab. -/
def isBlank (c : Char) : Bool := c == ' ' || c == '\t'

/-- `str::trim_matches` of spaces and tabs. -/
def trimBlanks (cs : List Char) : List Char :=
  ((cs.dropWhile isBlank).reverse.dropWhile isBlank).reverse

/-- `char::is_ascii_whitespace`. -/
def isAsciiWhitespace (c : Char) : Bool :=
  c == ' ' || c == '\t' || c == '\n' || c == '\x0c' || c == '\r'

/-- The first word of `str::split_ascii_whitespace`. -/
def firstWord (cs : List Char) : Option (List Char) :=
  let word := (cs.dropWhile isAsciiWhitespace).takeWhile fun c => !isAsciiWhitespace c
  if word.isEmpty then none else some word

/-- The number some decimal digits stand for. -/
def ofDigits (digits : List Char) : Nat :=
  digits.foldl (fun n digit => n * 10 + (digit.toNat - '0'.toNat)) 0

/-- `str::parse::<u16>`. -/
def parseU16 (cs : List Char) : Option Nat :=
  let digits := if cs.head? = some '+' then cs.tail else cs
  if digits.isEmpty || !digits.all Char.isDigit || 65535 < ofDigits digits then none
  else some (ofDigits digits)

/-- `str::parse::<u64>`. -/
def parseU64 (cs : List Char) : Option Nat :=
  let digits := if cs.head? = some '+' then cs.tail else cs
  if digits.isEmpty || !digits.all Char.isDigit || u64Max < ofDigits digits then none
  else some (ofDigits digits)

/-- A number is read back from its decimal digits. -/
theorem parseU64_repr {n : Nat} (h : n ≤ u64Max) : parseU64 n.repr.toList = some n := by
  rw [Nat.toList_repr]
  have hdigits : ∀ c ∈ Nat.toDigits 10 n, c.isDigit = true := fun c hmem =>
    Nat.isDigit_of_mem_toDigits (by decide) (by decide) hmem
  have hvalue : ofDigits (Nat.toDigits 10 n) = n := by
    have heq : ∀ digits : List Char, ∀ start,
        digits.foldl (fun n digit => n * 10 + (digit.toNat - '0'.toNat)) start =
          Nat.ofDigitChars 10 digits start := by
      intro digits start
      simp only [Nat.ofDigitChars_eq_foldl, Nat.mul_comm]
    rw [ofDigits, heq, Nat.ofDigitChars_ten_toDigits]
  have hplus : (Nat.toDigits 10 n).head? ≠ some '+' := by
    intro hhead
    exact absurd (hdigits '+' (List.mem_of_head? hhead)) (by decide)
  have hne : Nat.toDigits 10 n ≠ [] := Nat.toDigits_ne_nil
  have hall : (Nat.toDigits 10 n).all Char.isDigit = true := List.all_eq_true.mpr hdigits
  simp [parseU64, hplus, hne, hall, hvalue, h]

/-! ## Lines -/

section

variable {line cs blanks : List Char}

theorem lines_cons (h : '\n' ∉ line) (cs : List Char) :
    lines (line ++ '\n' :: cs) = stripCr line :: lines cs := by
  have hne := List.splitOn_ne_nil '\n' cs
  rw [lines, List.splitOn_append_cons_self_of_not_mem h, List.dropLast_cons_of_ne_nil hne,
    List.getLast?_cons_of_ne_nil hne]
  rfl

theorem lines_singleton (h : '\n' ∉ line) (hne : line ≠ []) : lines line = [line] := by
  simp [lines, List.splitOn_eq_singleton h, hne]

theorem stripCr_append : stripCr (line ++ ['\r']) = line := by
  simp [stripCr]

theorem stripCr_eq_self (h : '\r' ∉ line) : stripCr line = line := by
  rw [stripCr, if_neg]
  intro hlast
  exact h (List.mem_of_getLast? hlast)

/-- Blanks around a text that neither begins nor ends with one are cut off. -/
theorem trimBlanks_append {front back : List Char} (hfront : ∀ c ∈ front, isBlank c = true)
    (hback : ∀ c ∈ back, isBlank c = true) (hne : cs ≠ [])
    (hhead : ∀ c, cs.head? = some c → isBlank c = false)
    (hlast : ∀ c, cs.getLast? = some c → isBlank c = false) :
    trimBlanks (front ++ cs ++ back) = cs := by
  have hdrop : ∀ xs ys : List Char, (∀ c ∈ xs, isBlank c = true) → ys ≠ [] →
      (∀ c, ys.head? = some c → isBlank c = false) → (xs ++ ys).dropWhile isBlank = ys := by
    intro xs ys hxs hys hyhead
    rw [List.dropWhile_append_of_pos hxs]
    cases ys with
    | nil => exact absurd rfl hys
    | cons c ys => exact List.dropWhile_cons_of_neg (by simp [hyhead c rfl])
  rw [trimBlanks, List.append_assoc, hdrop front _ hfront (by simp [hne]), List.reverse_append,
    hdrop, List.reverse_reverse]
  · exact fun c hc => hback c (List.mem_reverse.mp hc)
  · simpa using hne
  · intro c hc
    rw [List.head?_reverse] at hc
    exact hlast c hc
  · intro c hc
    rw [List.head?_append_of_ne_nil _ hne] at hc
    exact hhead c hc

end

/-- A text without the separator in front of it is split there. -/
theorem splitOnce_append {sep : Char} {front : List Char} (h : sep ∉ front) (back : List Char) :
    splitOnce sep (front ++ sep :: back) = some (front, back) := by
  induction front with
  | nil => simp [splitOnce]
  | cons c front ih =>
      rw [List.mem_cons, not_or] at h
      rw [List.cons_append, splitOnce, if_neg (Ne.symm h.1), ih h.2]
      rfl

/-! ## Lines and bytes -/

theorem newline_notMem_utf8EncodeChar {c : Char} (h : c ≠ '\n') :
    0x0a ∉ String.utf8EncodeChar c := by
  intro hmem
  have hbytes : (0x0a : UInt8) ∈ bytes (String.ofList [c]) := by
    rw [bytes_ofList]
    simpa using hmem
  obtain ⟨c', hc', hval⟩ := exists_of_mem_bytes hbytes (by decide)
  rw [String.toList_ofList, List.mem_singleton] at hc'
  refine h (Char.ext (UInt32.toNat_inj.mp ?_))
  rw [← hc', hval]
  rfl

theorem splitOn_append_of_not_mem {α : Type} [DecidableEq α] {a : α} {front : List α}
    (h : a ∉ front) (l : List α) :
    (front ++ l).splitOn a = (l.splitOn a).modifyHead (front ++ ·) := by
  induction front with
  | nil =>
      cases hpieces : l.splitOn a with
      | nil => simp [hpieces]
      | cons piece pieces => simp [hpieces]
  | cons b front ih =>
      rw [List.mem_cons, not_or] at h
      rw [List.cons_append, List.splitOn_cons_eq_if_modifyHead, if_neg (by simpa using Ne.symm h.1),
        ih h.2, List.modifyHead_modifyHead]
      rfl

/-- A text is split in the same places as its bytes. -/
theorem splitOn_bytes (cs : List Char) :
    (bytes (String.ofList cs)).splitOn 0x0a =
      (cs.splitOn '\n').map fun piece => bytes (String.ofList piece) := by
  induction cs with
  | nil => rfl
  | cons c cs ih =>
      rw [bytes_ofList] at ih ⊢
      rw [List.flatMap_cons, List.splitOn_cons_eq_if_modifyHead]
      by_cases hc : c = '\n'
      · subst hc
        have hnewline : String.utf8EncodeChar '\n' = [0x0a] := by decide
        rw [hnewline, List.singleton_append, List.splitOn_cons_eq_if_modifyHead, ih]
        rfl
      · rw [splitOn_append_of_not_mem (newline_notMem_utf8EncodeChar hc), ih,
          if_neg (by simpa using hc)]
        cases hpieces : cs.splitOn '\n' with
        | nil => exact absurd hpieces (List.splitOn_ne_nil _ _)
        | cons piece pieces => simp [bytes_ofList]

end Rust
