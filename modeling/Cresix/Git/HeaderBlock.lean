import Cresix.Git.SmartHttp
import Cresix.Rust.Http

/-!
# Well-formed header blocks

A well-formed header block before a body is read back as it was written, if
its lines end with CRLF or if there is no CRLF CRLF in the body.
-/

namespace Cresix.Git

/-! ## Header blocks -/

/-- How all lines of a block end. -/
inductive Ending where
  | crlf
  | lf
deriving DecidableEq, Repr

def Ending.chars : Ending → List Char
  | crlf => ['\r', '\n']
  | lf => ['\n']

def Ending.bytes (ending : Ending) : List UInt8 := Rust.bytes (String.ofList ending.chars)

/-- A header, with the blanks around its value. -/
structure CgiField where
  name : String
  before : List Char
  value : String
  after : List Char
  name_ne : name ≠ ""
  token : ∀ b ∈ Rust.bytes name, Rust.Http.isTokenByte b = true
  blanks : ∀ c ∈ before ++ after, Rust.isBlank c = true
  value_ne : value ≠ ""
  printable : ∀ b ∈ Rust.bytes value, Rust.isAsciiControl b = false
  trimmed : ∀ c, value.toList.head? = some c ∨ value.toList.getLast? = some c →
    Rust.isBlank c = false

namespace CgiField

def line (field : CgiField) : List Char :=
  field.name.toList ++ ':' :: (field.before ++ field.value.toList ++ field.after)

def isNamed (header : String) (field : CgiField) : Bool := Git.isNamed field.name header

/-- The first three characters of the value. -/
def code (field : CgiField) : Nat := Rust.ofDigits (field.value.toList.take 3)

/-- The header in the response, unless it is left out. -/
def kept (field : CgiField) : Option (String × String) :=
  ([("content-type", "Content-Type"), ("cache-control", "Cache-Control"), ("expires", "Expires"),
    ("pragma", "Pragma")].find? fun header => field.isNamed header.1).map
      fun header => (header.2, field.value)

end CgiField

/-- A final status: three digits and, after a space, a reason. -/
def IsStatus (value : String) : Prop :=
  ∃ digits reason, value.toList = digits ++ reason ∧ digits.length = 3 ∧
    digits.all Char.isDigit = true ∧ (reason = [] ∨ reason.head? = some ' ') ∧
    200 ≤ Rust.ofDigits digits ∧ Rust.ofDigits digits ≤ 599

/-- A header block that a CGI program may write: at most one status, and one content type, which is
the expected one. -/
structure HeaderBlock (expected : String) where
  fields : List CgiField
  status : ∀ field ∈ fields, field.isNamed "status" = true → IsStatus field.value
  oneStatus : fields.countP (CgiField.isNamed "status") ≤ 1
  contentType : ∀ field ∈ fields, field.isNamed "content-type" = true → field.value = expected
  oneContentType : fields.countP (CgiField.isNamed "content-type") = 1

namespace HeaderBlock

variable {expected : String}

/-- The status, which is 200 if there is none. -/
def statusCode (block : HeaderBlock expected) : Nat :=
  (block.fields.find? (CgiField.isNamed "status")).elim 200 CgiField.code

def headers (block : HeaderBlock expected) : List (String × String) :=
  block.fields.filterMap CgiField.kept

/-- The lines and the blank line after them. -/
def render (block : HeaderBlock expected) (ending : Ending) : List UInt8 :=
  block.fields.flatMap (fun field => Rust.bytes (String.ofList field.line) ++ ending.bytes)
    ++ ending.bytes

end HeaderBlock

/-! ## One line -/

section

variable {field : CgiField} {c : Char}

theorem CgiField.notMem_name (hascii : c.val ≤ 0x7f)
    (h : Rust.Http.isTokenByte c.val.toUInt8 = false) : c ∉ field.name.toList := by
  intro hmem
  rw [field.token _ (Rust.mem_bytes_of_mem hmem hascii)] at h
  cases h

theorem CgiField.notMem_value (hascii : c.val ≤ 0x7f)
    (h : Rust.isAsciiControl c.val.toUInt8 = true) : c ∉ field.value.toList := by
  intro hmem
  rw [field.printable _ (Rust.mem_bytes_of_mem hmem hascii)] at h
  cases h

/-- A control character other than the tab is in no line. -/
theorem CgiField.notMem_line (hascii : c.val ≤ 0x7f)
    (hcontrol : Rust.isAsciiControl c.val.toUInt8 = true)
    (htoken : Rust.Http.isTokenByte c.val.toUInt8 = false) (hblank : Rust.isBlank c = false)
    (hcolon : c ≠ ':') : c ∉ field.line := by
  have hblanks : c ∉ field.before ++ field.after := by
    intro hmem
    rw [field.blanks c hmem] at hblank
    cases hblank
  rw [List.mem_append, not_or] at hblanks
  simp [CgiField.line, CgiField.notMem_name hascii htoken, hcolon, hblanks.1, hblanks.2,
    CgiField.notMem_value hascii hcontrol]

theorem CgiField.line_ne_nil : field.line ≠ [] := by
  simp [CgiField.line]

theorem toList_ne_nil {text : String} (h : text ≠ "") : text.toList ≠ [] := by
  intro hnil
  exact h (by rw [← String.ofList_toList (s := text), hnil])

/-- A line is read back. -/
theorem parseLine_line : parseLine field.line = .ok (field.name, field.value) := by
  have hvalue : Rust.trimBlanks (field.before ++ field.value.toList ++ field.after) =
      field.value.toList :=
    Rust.trimBlanks_append (fun c hc => field.blanks c (List.mem_append_left _ hc))
      (fun c hc => field.blanks c (List.mem_append_right _ hc)) (toList_ne_nil field.value_ne)
      (fun c hc => field.trimmed c (.inl hc)) fun c hc => field.trimmed c (.inr hc)
  have hnull : (Rust.bytes (String.ofList field.line)).any (· == 0) = false := by
    rw [List.any_eq_false]
    intro b hb hzero
    obtain ⟨c, hc, hval⟩ := Rust.exists_of_mem_bytes hb (by rw [beq_iff_eq.mp hzero]; decide)
    rw [beq_iff_eq.mp hzero] at hval
    have hnul : c = '\x00' := Char.ext (UInt32.toNat_inj.mp hval)
    rw [String.toList_ofList, hnul] at hc
    exact field.notMem_line (by decide) (by decide) (by decide) (by decide) (by decide) hc
  have hhead : field.line.head?.any Rust.isBlank = false := by
    rw [CgiField.line, List.head?_append_of_ne_nil _ (toList_ne_nil field.name_ne),
      ← Bool.not_eq_true, Option.any_eq_true]
    rintro ⟨c, hc, hblank⟩
    have hmem := List.mem_of_head? hc
    rcases (Bool.or_eq_true _ _).mp hblank with hspace | htab
    · rw [beq_iff_eq.mp hspace] at hmem
      exact field.notMem_name (by decide) (by decide) hmem
    · rw [beq_iff_eq.mp htab] at hmem
      exact field.notMem_name (by decide) (by decide) hmem
  have hcontrol : (Rust.bytes field.value).any Rust.isAsciiControl = false := by
    rw [List.any_eq_false]
    exact fun b hb => by simp [field.printable b hb]
  rw [parseLine, hnull, hhead, CgiField.line, Rust.splitOnce_append]
  · simp only [Bool.or_false, hvalue, String.ofList_toList, hcontrol, List.isEmpty_iff,
      toList_ne_nil field.value_ne]
    simp
  · exact CgiField.notMem_name (by decide) (by decide)

end

/-! ## All lines -/

section

variable {field : CgiField} {fields : List CgiField} {expected value : String}

theorem isWhitespace_of_isDigit {c : Char} (h : c.isDigit = true) :
    Rust.isAsciiWhitespace c = false := by
  rw [← Bool.not_eq_true]
  intro hwhite
  simp only [Rust.isAsciiWhitespace, Bool.or_eq_true, beq_iff_eq] at hwhite
  rcases hwhite with (((rfl | rfl) | rfl) | rfl) | rfl
  all_goals exact absurd h (by decide)

theorem firstWord_append {digits reason : List Char} (hne : digits ≠ [])
    (hdigits : digits.all Char.isDigit = true) (hreason : reason = [] ∨ reason.head? = some ' ') :
    Rust.firstWord (digits ++ reason) = some digits := by
  have hword : ∀ c ∈ digits, (!Rust.isAsciiWhitespace c) = true := fun c hc => by
    rw [isWhitespace_of_isDigit (List.all_eq_true.mp hdigits c hc)]
    rfl
  have hdrop : (digits ++ reason).dropWhile Rust.isAsciiWhitespace = digits ++ reason := by
    cases digits with
    | nil => exact absurd rfl hne
    | cons c digits =>
        exact List.dropWhile_cons_of_neg (by simpa using hword c List.mem_cons_self)
  have hreason' : reason.takeWhile (fun c => !Rust.isAsciiWhitespace c) = [] := by
    rcases hreason with rfl | hspace
    · rfl
    · cases reason with
      | nil => rfl
      | cons c reason =>
          cases hspace
          rfl
  rw [Rust.firstWord, hdrop, List.takeWhile_append_of_pos hword, hreason', List.append_nil]
  simp [hne]

theorem parseU16_digits {digits : List Char} (hne : digits ≠ [])
    (hdigits : digits.all Char.isDigit = true) (hmax : Rust.ofDigits digits ≤ 65535) :
    Rust.parseU16 digits = some (Rust.ofDigits digits) := by
  have hplus : digits.head? ≠ some '+' := by
    intro hhead
    exact absurd (List.all_eq_true.mp hdigits '+' (List.mem_of_head? hhead)) (by decide)
  simp [Rust.parseU16, hplus, hne, hdigits, hmax]

/-- The status of a value is read back. -/
theorem parseStatus_of_isStatus (h : IsStatus value) :
    parseStatus value = .ok (Rust.ofDigits (value.toList.take 3)) := by
  obtain ⟨digits, reason, hvalue, hlength, hdigits, hreason, hlow, hhigh⟩ := h
  have hne : digits ≠ [] := by
    rintro rfl
    cases hlength
  have htake : value.toList.take 3 = digits := by
    rw [hvalue, ← hlength, List.take_left]
  rw [parseStatus, hvalue, firstWord_append hne hdigits hreason, Option.bind_some,
    parseU16_digits hne hdigits (by omega), ← hvalue, htake]
  exact if_pos ⟨hlow, hhigh⟩

theorem isNamed_unique {name header header' : String} (h : isNamed name header = true)
    (hne : header ≠ header') : isNamed name header' = false := by
  rw [← Bool.not_eq_true]
  intro h'
  exact hne (Rust.bytes_injective ((beq_iff_eq.mp h).symm.trans (beq_iff_eq.mp h')))

/-- What the loop knows after a field. -/
def Seen.after (seen : Seen) (field : CgiField) : Seen where
  status := if field.isNamed "status" then field.code else seen.status
  sawStatus := seen.sawStatus || field.isNamed "status"
  sawContentType := seen.sawContentType || field.isNamed "content-type"
  headers := seen.headers ++ field.kept.toList

theorem Seen.field_eq_ok {seen : Seen}
    (hstatus : field.isNamed "status" = true → seen.sawStatus = false ∧ IsStatus field.value)
    (hcontent : field.isNamed "content-type" = true →
      seen.sawContentType = false ∧ field.value = expected) :
    seen.field expected field.name field.value = .ok (seen.after field) := by
  unfold CgiField.isNamed at hstatus hcontent
  unfold Seen.field Seen.after CgiField.kept CgiField.isNamed
  cases hs : isNamed field.name "status" with
  | true =>
      obtain ⟨hsaw, hvalue⟩ := hstatus hs
      have hother : ∀ header, "status" ≠ header → isNamed field.name header = false :=
        fun header hne => isNamed_unique hs hne
      simp [hsaw, parseStatus_of_isStatus hvalue, Except.map, CgiField.code,
        hother "content-type" (by decide), hother "cache-control" (by decide),
        hother "expires" (by decide), hother "pragma" (by decide)]
  | false =>
      cases hc : isNamed field.name "content-type" with
      | true =>
          obtain ⟨hsaw, hvalue⟩ := hcontent hc
          simp [hsaw, hvalue, hc]
      | false =>
          cases hcache : isNamed field.name "cache-control" with
          | true => simp [hc, hcache]
          | false =>
              cases hexpires : isNamed field.name "expires" with
              | true => simp [hc, hcache, hexpires]
              | false =>
                  cases hpragma : isNamed field.name "pragma" with
                  | true => simp [hc, hcache, hexpires, hpragma]
                  | false => simp [hc, hcache, hexpires, hpragma]

/-- What may be there once is not there again. -/
theorem once_cons {saw : Bool} {p : CgiField → Bool}
    (h : saw.toNat + (field :: fields).countP p ≤ 1) :
    (p field = true → saw = false) ∧ (saw || p field).toNat + fields.countP p ≤ 1 := by
  rw [List.countP_cons] at h
  cases saw with
  | true =>
      cases hp : p field with
      | true =>
          rw [if_pos hp, Bool.toNat_true] at h
          omega
      | false => simpa [hp] using h
  | false =>
      cases hp : p field with
      | true => simpa [hp, Nat.add_comm] using h
      | false => simpa [hp] using h

/-- The loop reads all fields back. -/
theorem Seen.lines_eq_ok {seen : Seen}
    (hstatus : ∀ field ∈ fields, field.isNamed "status" = true → IsStatus field.value)
    (hcontent : ∀ field ∈ fields, field.isNamed "content-type" = true → field.value = expected)
    (honeStatus : seen.sawStatus.toNat + fields.countP (CgiField.isNamed "status") ≤ 1)
    (honeContent :
      seen.sawContentType.toNat + fields.countP (CgiField.isNamed "content-type") ≤ 1) :
    seen.lines expected (fields.map CgiField.line) = .ok (fields.foldl Seen.after seen) := by
  induction fields generalizing seen with
  | nil => rfl
  | cons field fields ih =>
      obtain ⟨hvalue, hstatus⟩ := List.forall_mem_cons.mp hstatus
      obtain ⟨hexpected, hcontent⟩ := List.forall_mem_cons.mp hcontent
      obtain ⟨hnewStatus, honeStatus⟩ := once_cons honeStatus
      obtain ⟨hnewContent, honeContent⟩ := once_cons honeContent
      have hfirst : seen.field expected field.name field.value = .ok (seen.after field) :=
        Seen.field_eq_ok (fun hnamed => ⟨hnewStatus hnamed, hvalue hnamed⟩)
          fun hnamed => ⟨hnewContent hnamed, hexpected hnamed⟩
      rw [List.map_cons, Seen.lines, parseLine_line]
      simp only [hfirst]
      exact ih hstatus hcontent honeStatus honeContent

theorem foldl_after_headers {seen : Seen} :
    (fields.foldl Seen.after seen).headers = seen.headers ++ fields.filterMap CgiField.kept := by
  induction fields generalizing seen with
  | nil => simp
  | cons field fields ih =>
      rw [List.foldl_cons, ih, Seen.after, List.append_assoc, List.filterMap_cons]
      cases field.kept with
      | none => rfl
      | some header => rfl

theorem foldl_after_sawContentType {seen : Seen} :
    (fields.foldl Seen.after seen).sawContentType =
      (seen.sawContentType || fields.any (CgiField.isNamed "content-type")) := by
  induction fields generalizing seen with
  | nil => simp
  | cons field fields ih => simp [ih, Seen.after, Bool.or_assoc]

theorem foldl_after_status (seen : Seen)
    (hone : fields.countP (CgiField.isNamed "status") ≤ 1) :
    (fields.foldl Seen.after seen).status =
      (fields.find? (CgiField.isNamed "status")).elim seen.status CgiField.code := by
  induction fields generalizing seen with
  | nil => rfl
  | cons field fields ih =>
      rw [List.foldl_cons]
      cases hnamed : field.isNamed "status" with
      | true =>
          rw [List.countP_cons_of_pos hnamed] at hone
          have hnone : fields.find? (CgiField.isNamed "status") = none := by
            rw [List.find?_eq_none]
            exact List.countP_eq_zero.mp (by omega)
          rw [ih _ (by omega), hnone, List.find?_cons_of_pos hnamed]
          simp [Seen.after, hnamed]
      | false =>
          rw [List.countP_cons_of_neg (by simp [hnamed])] at hone
          rw [ih _ hone, List.find?_cons_of_neg (by simp [hnamed])]
          simp [Seen.after, hnamed]

end

/-! ## The block -/

section

variable {ending : Ending} {fields : List CgiField} {expected : String}

theorem intercalate_eq_cons (eol : List UInt8) {line : List UInt8} (lines : List (List UInt8))
    (hne : line ≠ []) :
    ∃ first rest, eol.intercalate (line :: lines) = first :: rest ∧ first ∈ line := by
  cases line with
  | nil => exact absurd rfl hne
  | cons first line =>
      cases lines with
      | nil => exact ⟨first, line, List.intercalate_singleton, List.mem_cons_self⟩
      | cons next lines =>
          exact ⟨first, _, List.intercalate_cons_cons, List.mem_cons_self⟩

/-- There is no empty line before the end of the block. -/
theorem not_crlfCrlf_intercalate {lines : List (List UInt8)} (hne : lines ≠ [])
    (h : ∀ line ∈ lines, line ≠ [] ∧ 0x0a ∉ line ∧ 0x0d ∉ line) :
    ¬crlfCrlf <:+: [0x0d, 0x0a].intercalate lines ++ crlfCrlf.dropLast := by
  induction lines with
  | nil => exact absurd rfl hne
  | cons line lines ih =>
      obtain ⟨hline, hlines⟩ := List.forall_mem_cons.mp h
      cases lines with
      | nil =>
          rw [List.intercalate_singleton]
          unfold crlfCrlf
          rw [Search.infix_append_iff_of_not_mem hline.2.2]
          exact fun hinside => absurd hinside.length_le (by decide)
      | cons next lines =>
          have hrest := ih (List.cons_ne_nil _ _) hlines
          obtain ⟨first, rest, heq, hfirst⟩ :=
            intercalate_eq_cons [0x0d, 0x0a] lines (hlines next List.mem_cons_self).1
          have hcr : first ≠ 0x0d := fun hcr => (hlines next List.mem_cons_self).2.2 (hcr ▸ hfirst)
          rw [List.intercalate_cons_cons, List.append_assoc, List.append_assoc]
          rw [heq] at hrest ⊢
          unfold crlfCrlf at hrest ⊢
          rw [Search.infix_append_iff_of_not_mem hline.2.2]
          simp only [List.cons_append, List.nil_append]
          rw [List.infix_cons_iff, Search.infix_cons_iff_of_ne (by decide)]
          rintro (hhere | hlater)
          · simp [List.cons_prefix_cons, hcr.symm] at hhere
          · exact hrest hlater

theorem not_lfLf_intercalate {lines : List (List UInt8)} (hne : lines ≠ [])
    (h : ∀ line ∈ lines, line ≠ [] ∧ 0x0a ∉ line) :
    ¬lfLf <:+: [0x0a].intercalate lines ++ lfLf.dropLast := by
  induction lines with
  | nil => exact absurd rfl hne
  | cons line lines ih =>
      obtain ⟨hline, hlines⟩ := List.forall_mem_cons.mp h
      cases lines with
      | nil =>
          rw [List.intercalate_singleton]
          unfold lfLf
          rw [Search.infix_append_iff_of_not_mem hline.2]
          exact fun hinside => absurd hinside.length_le (by decide)
      | cons next lines =>
          have hrest := ih (List.cons_ne_nil _ _) hlines
          obtain ⟨first, rest, heq, hfirst⟩ :=
            intercalate_eq_cons [0x0a] lines (hlines next List.mem_cons_self).1
          have hlf : first ≠ 0x0a := fun hlf => (hlines next List.mem_cons_self).2 (hlf ▸ hfirst)
          rw [List.intercalate_cons_cons, List.append_assoc, List.append_assoc]
          rw [heq] at hrest ⊢
          unfold lfLf at hrest ⊢
          rw [Search.infix_append_iff_of_not_mem hline.2]
          simp only [List.cons_append, List.nil_append]
          rw [List.infix_cons_iff]
          rintro (hhere | hlater)
          · simp [List.cons_prefix_cons, hlf.symm] at hhere
          · exact hrest hlater

/-- The lines of a text are those it was put together from. -/
theorem lines_intercalate {lines : List (List Char)} (hne : lines ≠ [])
    (h : ∀ line ∈ lines, line ≠ [] ∧ '\n' ∉ line ∧ '\r' ∉ line) :
    Rust.lines (ending.chars.intercalate lines) = lines := by
  induction lines with
  | nil => exact absurd rfl hne
  | cons line lines ih =>
      obtain ⟨hline, hlines⟩ := List.forall_mem_cons.mp h
      cases lines with
      | nil => rw [List.intercalate_singleton, Rust.lines_singleton hline.2.1 hline.1]
      | cons next lines =>
          have hrest := ih (List.cons_ne_nil _ _) hlines
          rw [List.intercalate_cons_cons]
          cases ending with
          | crlf =>
              have hcr : '\n' ∉ line ++ ['\r'] := by simp [hline.2.1]
              have hsplit : line ++ ['\r', '\n'] ++ Ending.crlf.chars.intercalate (next :: lines) =
                  (line ++ ['\r']) ++ '\n' :: Ending.crlf.chars.intercalate (next :: lines) := by
                simp
              show Rust.lines (line ++ ['\r', '\n'] ++ _) = _
              rw [hsplit, Rust.lines_cons hcr, hrest, Rust.stripCr_append]
          | lf =>
              rw [Ending.chars, List.append_assoc, List.singleton_append,
                Rust.lines_cons hline.2.1, Rust.stripCr_eq_self hline.2.2]
              exact congrArg _ hrest

theorem flatMap_intercalate {eol : List Char} {lines : List (List Char)} :
    (eol.intercalate lines).flatMap String.utf8EncodeChar =
      (eol.flatMap String.utf8EncodeChar).intercalate
        (lines.map fun line => line.flatMap String.utf8EncodeChar) := by
  induction lines with
  | nil => rfl
  | cons line lines ih =>
      cases lines with
      | nil => simp
      | cons next lines =>
          rw [List.intercalate_cons_cons, List.flatMap_append, List.flatMap_append, ih]
          simp [List.intercalate_cons_cons]

/-- The block without its last line ending and the blank line. -/
def HeaderBlock.text (block : HeaderBlock expected) (ending : Ending) : String :=
  String.ofList (ending.chars.intercalate (block.fields.map CgiField.line))

theorem flatMap_append_eq_intercalate {α : Type} {eol : List α} {lines : List (List α)}
    (hne : lines ≠ []) : lines.flatMap (· ++ eol) = eol.intercalate lines ++ eol := by
  induction lines with
  | nil => exact absurd rfl hne
  | cons line lines ih =>
      cases lines with
      | nil => simp
      | cons next lines =>
          rw [List.flatMap_cons, ih (List.cons_ne_nil _ _), List.intercalate_cons_cons]
          simp

variable (block : HeaderBlock expected)

theorem HeaderBlock.fields_ne_nil : block.fields ≠ [] := by
  intro hnil
  have hone := block.oneContentType
  rw [hnil] at hone
  cases hone

theorem HeaderBlock.bytes_text : Rust.bytes (block.text ending) =
    ending.bytes.intercalate
      (block.fields.map fun field => Rust.bytes (String.ofList field.line)) := by
  simp only [HeaderBlock.text, Ending.bytes, Rust.bytes_ofList, flatMap_intercalate, List.map_map,
    Function.comp_def]

theorem HeaderBlock.render_eq : block.render ending =
    Rust.bytes (block.text ending) ++ (ending.bytes ++ ending.bytes) := by
  have hne : (block.fields.map fun field => Rust.bytes (String.ofList field.line)) ≠ [] := by
    simpa using block.fields_ne_nil
  rw [HeaderBlock.bytes_text, ← List.append_assoc, ← flatMap_append_eq_intercalate hne,
    List.flatMap_map]
  rfl

theorem notMem_bytes_line {field : CgiField} {b : UInt8} {c : Char} (hc : c ∉ field.line)
    (hval : c.val.toNat = b.toNat) (hascii : b < 0x80) :
    b ∉ Rust.bytes (String.ofList field.line) := by
  intro hb
  obtain ⟨c', hc', hval'⟩ := Rust.exists_of_mem_bytes hb hascii
  rw [String.toList_ofList] at hc'
  rw [Char.ext (UInt32.toNat_inj.mp (hval.trans hval'.symm))] at hc
  exact hc hc'

theorem bytes_line {field : CgiField} : Rust.bytes (String.ofList field.line) ≠ [] ∧
    0x0a ∉ Rust.bytes (String.ofList field.line) ∧
    0x0d ∉ Rust.bytes (String.ofList field.line) := by
  refine ⟨?_, notMem_bytes_line (c := '\n') ?_ rfl (by decide),
    notMem_bytes_line (c := '\r') ?_ rfl (by decide)⟩
  · intro hnil
    have hcolon := Rust.mem_bytes_of_mem (s := String.ofList field.line) (c := ':')
      (by simp [CgiField.line]) (by decide)
    rw [hnil] at hcolon
    cases hcolon
  · exact field.notMem_line (by decide) (by decide) (by decide) (by decide) (by decide)
  · exact field.notMem_line (by decide) (by decide) (by decide) (by decide) (by decide)

/-- The headers are read back. -/
theorem HeaderBlock.parseHeaders_text (ending : Ending) : ∃ seen,
    parseHeaders (Rust.bytes (block.text ending)) expected = .ok seen ∧
      block.statusCode = seen.status ∧ block.headers = seen.headers := by
  have hlines : Rust.lines (block.text ending).toList = block.fields.map CgiField.line := by
    rw [HeaderBlock.text, String.toList_ofList]
    refine lines_intercalate (by simpa using block.fields_ne_nil) ?_
    intro line hline
    obtain ⟨field, -, rfl⟩ := List.mem_map.mp hline
    refine ⟨field.line_ne_nil, ?_, ?_⟩
    · exact field.notMem_line (by decide) (by decide) (by decide) (by decide) (by decide)
    · exact field.notMem_line (by decide) (by decide) (by decide) (by decide) (by decide)
  have hone := block.oneStatus
  have hcontent := block.oneContentType
  have hloop : Seen.lines expected ⟨200, false, false, []⟩ (block.fields.map CgiField.line) =
      .ok (block.fields.foldl Seen.after ⟨200, false, false, []⟩) :=
    Seen.lines_eq_ok block.status block.contentType (by simpa using hone) (by simp [hcontent])
  have hany : block.fields.any (CgiField.isNamed "content-type") = true := by
    rw [List.any_eq_true]
    exact List.countP_pos_iff.mp (by omega)
  refine ⟨_, ?_, (foldl_after_status ⟨200, false, false, []⟩ hone).symm, ?_⟩
  · rw [parseHeaders, Rust.fromUtf8_bytes]
    simp only [hlines, hloop, foldl_after_sawContentType, hany, Bool.or_true, if_true]
  · rw [foldl_after_headers]
    rfl

/-- There is no CR in a block whose lines end with LF. -/
theorem HeaderBlock.notMem_render_lf : 0x0d ∉ block.render .lf := by
  have hlf : (0x0d : UInt8) ∉ Ending.lf.bytes := by decide
  rw [HeaderBlock.render, List.mem_append, List.mem_flatMap]
  rintro (⟨field, -, hmem⟩ | hmem)
  · rcases List.mem_append.mp hmem with hline | hend
    · exact bytes_line.2.2 hline
    · exact hlf hend
  · exact hlf hmem

/-- A block is accepted alone. -/
theorem HeaderBlock.parseCgiResponse_render {maxHeaderBytes maxBodyBytes : Nat}
    (hheader : (block.render ending).length ≤ maxHeaderBytes) :
    parseCgiResponse (block.render ending) maxHeaderBytes maxBodyBytes expected =
      .ok ⟨block.statusCode, block.headers, []⟩ := by
  obtain ⟨seen, hseen, hstatus, hheaders⟩ := block.parseHeaders_text ending
  have hlines : ∀ line ∈ block.fields.map (fun field => Rust.bytes (String.ofList field.line)),
      line ≠ [] ∧ 0x0a ∉ line ∧ 0x0d ∉ line := by
    intro line hline
    obtain ⟨field, -, rfl⟩ := List.mem_map.mp hline
    exact bytes_line
  have hne : (block.fields.map fun field => Rust.bytes (String.ofList field.line)) ≠ [] := by
    simpa using block.fields_ne_nil
  refine parseCgiResponse_eq_ok_iff.mpr ⟨Rust.bytes (block.text ending), ending.bytes ++ ending.bytes,
    seen, ?_, ?_, ?_, Nat.zero_le _, hseen, hstatus, hheaders⟩
  · rw [List.append_nil, block.render_eq]
  · rw [block.render_eq, block.bytes_text]
    cases ending with
    | crlf => exact .inl ⟨by decide, not_crlfCrlf_intercalate hne hlines⟩
    | lf =>
        refine .inr ⟨by decide, ?_, not_lfLf_intercalate hne fun line hline =>
          ⟨(hlines line hline).1, (hlines line hline).2.1⟩⟩
        intro hinside
        refine block.notMem_render_lf ?_
        rw [block.render_eq, block.bytes_text]
        exact hinside.subset List.mem_cons_self
  · rwa [block.render_eq, List.length_append] at hheader

/-- A well-formed header block and the body after it are read back, if and only if the lines end
with CRLF or there is no CRLF CRLF in the body. -/
theorem parseCgiResponse_render_iff {expected : String} (block : HeaderBlock expected)
    (ending : Ending) (body : List UInt8) (maxHeaderBytes maxBodyBytes : Nat)
    (hheader : (block.render ending).length ≤ maxHeaderBytes)
    (hbody : body.length ≤ maxBodyBytes) :
    parseCgiResponse (block.render ending ++ body) maxHeaderBytes maxBodyBytes expected =
        .ok ⟨block.statusCode, block.headers, body⟩ ↔
      ending = .crlf ∨ ¬crlfCrlf <:+: body := by
  rw [parseCgiResponse_append_iff (block.parseCgiResponse_render hheader), and_iff_right hbody]
  cases ending with
  | crlf =>
      refine iff_of_true (.inl ?_) (.inl rfl)
      rw [block.render_eq]
      exact (List.suffix_append _ crlfCrlf).isInfix
  | lf =>
      have hnone : ¬crlfCrlf <:+: block.render .lf := fun hinside =>
        block.notMem_render_lf (hinside.subset List.mem_cons_self)
      unfold crlfCrlf at hnone ⊢
      rw [Search.infix_append_iff_of_not_mem block.notMem_render_lf, or_iff_right hnone,
        or_iff_right (by decide)]

end

/-- The content type of a pack. -/
def resultField : CgiField where
  name := "Content-Type"
  before := [' ']
  value := "application/x-git-upload-pack-result"
  after := []
  name_ne := by decide
  token := List.all_eq_true.mp (by decide)
  blanks := List.all_eq_true.mp (by decide)
  value_ne := by decide
  printable := fun b hb => Bool.eq_false_iff.mpr fun h =>
    absurd (List.any_eq_true.mpr ⟨b, hb, h⟩) (by decide)
  trimmed c h := by
    rcases h with h | h
    · have hhead : "application/x-git-upload-pack-result".toList.head? = some 'a' := by decide
      cases hhead.symm.trans h
      rfl
    · have hlast : "application/x-git-upload-pack-result".toList.getLast? = some 't' := by decide
      cases hlast.symm.trans h
      rfl

/-- The header block of a pack. -/
def resultBlock : HeaderBlock "application/x-git-upload-pack-result" where
  fields := [resultField]
  status field hfield hnamed := by
    obtain rfl := List.mem_singleton.mp hfield
    exact absurd hnamed (by decide)
  oneStatus := by decide
  contentType field hfield _ := by
    obtain rfl := List.mem_singleton.mp hfield
    rfl
  oneContentType := by decide

theorem parseCgiResponse_render_iff_result :
    parseCgiResponse (resultBlock.render .lf ++ Rust.bytes "PACK") 128 4
        "application/x-git-upload-pack-result" =
        .ok ⟨resultBlock.statusCode, resultBlock.headers, Rust.bytes "PACK"⟩ ↔
      Ending.lf = .crlf ∨ ¬crlfCrlf <:+: Rust.bytes "PACK" :=
  parseCgiResponse_render_iff resultBlock .lf (Rust.bytes "PACK") 128 4 (by decide) (by decide)

/-- A body with CRLF CRLF in it is taken for headers. -/
theorem body_taken_for_headers :
    ¬ ∀ (expected : String) (block : HeaderBlock expected) (ending : Ending) (body : List UInt8)
      (maxHeaderBytes maxBodyBytes : Nat), (block.render ending).length ≤ maxHeaderBytes →
      body.length ≤ maxBodyBytes →
      parseCgiResponse (block.render ending ++ body) maxHeaderBytes maxBodyBytes expected =
        .ok ⟨block.statusCode, block.headers, body⟩ := by
  intro hclaim
  have hbody := hclaim _ resultBlock .lf crlfCrlf 128 4 (by decide) (by decide)
  have herror : parseCgiResponse (resultBlock.render .lf ++ crlfCrlf) 128 4
      "application/x-git-upload-pack-result" = .error .invalidResponse := by decide +kernel
  cases herror.symm.trans hbody

end Cresix.Git
