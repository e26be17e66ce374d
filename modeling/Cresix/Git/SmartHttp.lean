import Cresix.Library.Search
import Cresix.Rust.Lines

/-!
# CGI responses

`parse_cgi_response` looks for the end of the headers: for CRLF CRLF first, in
all of the output, and for LF LF only if there is none.  So a header block that
is terminated by LF LF is not found when CRLF CRLF occurs in the body
(`parseCgiResponse_render_iff`).
-/

namespace Cresix.Git

open Search (position)

inductive SmartHttpError where
  | invalidRequest (message : String)
  | requestTooLarge
  | responseTooLarge
  | timeout
  | unavailable
  | backendFailed
  | invalidResponse
  | invalidRepository
deriving DecidableEq, Repr

structure SmartHttpResponse where
  status : Nat
  headers : List (String × String)
  body : List UInt8
deriving DecidableEq, Repr

/-! ## The parser -/

/-- `b"\r\n\r\n"`. -/
def crlfCrlf : List UInt8 := [0x0d, 0x0a, 0x0d, 0x0a]

/-- `b"\n\n"`. -/
def lfLf : List UInt8 := [0x0a, 0x0a]

/-- Where the headers end, and the length of the separator. -/
def separator (bytes : List UInt8) : Option (Nat × Nat) :=
  (position crlfCrlf bytes).map (·, 4) <|> (position lfLf bytes).map (·, 2)

/-- What the loop over the lines knows. -/
structure Seen where
  status : Nat
  sawStatus : Bool
  sawContentType : Bool
  headers : List (String × String)
deriving DecidableEq, Repr

/-- A line is a name and a value. -/
def parseLine (line : List Char) : Except SmartHttpError (String × String) :=
  if line.isEmpty || line.head?.any Rust.isBlank
      || (Rust.bytes (String.ofList line)).any (· == 0) then
    .error .invalidResponse
  else
    match Rust.splitOnce ':' line with
    | none => .error .invalidResponse
    | some (name, value) =>
        let value := Rust.trimBlanks value
        if value.isEmpty || (Rust.bytes (String.ofList value)).any Rust.isAsciiControl then
          .error .invalidResponse
        else .ok (String.ofList name, String.ofList value)

/-- The status code of a `Status` header. -/
def parseStatus (value : String) : Except SmartHttpError Nat :=
  match (Rust.firstWord value.toList).bind Rust.parseU16 with
  | none => .error .invalidResponse
  | some code => if 200 ≤ code ∧ code ≤ 599 then .ok code else .error .invalidResponse

/-- `name.to_ascii_lowercase()` is the name of this header. -/
def isNamed (name header : String) : Bool :=
  Rust.toAsciiLowercase (Rust.bytes name) == Rust.bytes header

/-- The arms of the `match` on the name. -/
def Seen.field (expected : String) (seen : Seen) (name value : String) :
    Except SmartHttpError Seen :=
  if isNamed name "status" then
    if seen.sawStatus then .error .invalidResponse
    else (parseStatus value).map fun code => { seen with status := code, sawStatus := true }
  else if isNamed name "content-type" then
    if seen.sawContentType || value != expected then .error .invalidResponse
    else .ok { seen with
      sawContentType := true
      headers := seen.headers ++ [("Content-Type", value)] }
  else if isNamed name "cache-control" then
    .ok { seen with headers := seen.headers ++ [("Cache-Control", value)] }
  else if isNamed name "expires" then
    .ok { seen with headers := seen.headers ++ [("Expires", value)] }
  else if isNamed name "pragma" then
    .ok { seen with headers := seen.headers ++ [("Pragma", value)] }
  else .ok seen

/-- The loop over the lines. -/
def Seen.lines (expected : String) : Seen → List (List Char) → Except SmartHttpError Seen
  | seen, [] => .ok seen
  | seen, line :: lines =>
      match parseLine line with
      | .error error => .error error
      | .ok (name, value) =>
          match seen.field expected name value with
          | .error error => .error error
          | .ok seen => seen.lines expected lines

/-- What `parse_cgi_response` makes of the bytes before the separator. -/
def parseHeaders (head : List UInt8) (expected : String) : Except SmartHttpError Seen :=
  match Rust.fromUtf8 head with
  | none => .error .invalidResponse
  | some text =>
      match Seen.lines expected ⟨200, false, false, []⟩ (Rust.lines text.toList) with
      | .error error => .error error
      | .ok seen => if seen.sawContentType then .ok seen else .error .invalidResponse

/-- `parse_cgi_response`. -/
def parseCgiResponse (bytes : List UInt8) (maxHeaderBytes maxBodyBytes : Nat) (expected : String) :
    Except SmartHttpError SmartHttpResponse :=
  match separator bytes with
  | none => .error .invalidResponse
  | some (position, length) =>
      if maxHeaderBytes < position + length then .error .invalidResponse
      else
        let body := bytes.drop (position + length)
        if maxBodyBytes < body.length then .error .responseTooLarge
        else
          match parseHeaders (bytes.take position) expected with
          | .error error => .error error
          | .ok seen => .ok ⟨seen.status, seen.headers, body⟩

/-! ## Where the output is split -/

/-- The headers end before the separator that is looked for. -/
def Splits (bytes head sep : List UInt8) : Prop :=
  (sep = crlfCrlf ∧ ¬crlfCrlf <:+: head ++ crlfCrlf.dropLast) ∨
  (sep = lfLf ∧ ¬crlfCrlf <:+: bytes ∧ ¬lfLf <:+: head ++ lfLf.dropLast)

section

variable {bytes head sep body block : List UInt8} {maxHeaderBytes maxBodyBytes : Nat}
  {expected : String} {response : SmartHttpResponse}

theorem crlfCrlf_ne_nil : crlfCrlf ≠ [] := List.cons_ne_nil _ _

theorem lfLf_ne_nil : lfLf ≠ [] := List.cons_ne_nil _ _

theorem separator_append (h : Splits (head ++ sep ++ body) head sep) :
    separator (head ++ sep ++ body) = some (head.length, sep.length) := by
  unfold separator
  rcases h with ⟨rfl, hfirst⟩ | ⟨rfl, hnone, hfirst⟩
  · rw [Search.position_append crlfCrlf_ne_nil hfirst]
    rfl
  · rw [(Search.position_eq_none_iff crlfCrlf_ne_nil).mpr hnone,
      Search.position_append lfLf_ne_nil hfirst]
    rfl

theorem separator_eq_some {place length : Nat} (h : separator bytes = some (place, length)) :
    ∃ head sep body, bytes = head ++ sep ++ body ∧ head.length = place ∧ sep.length = length ∧
      Splits bytes head sep := by
  unfold separator at h
  cases hcrlf : position crlfCrlf bytes with
  | some n =>
      rw [hcrlf] at h
      cases h
      obtain ⟨head, body, rfl, rfl, hfirst⟩ :=
        Search.position_eq_some crlfCrlf_ne_nil hcrlf
      exact ⟨head, crlfCrlf, body, rfl, rfl, rfl, .inl ⟨rfl, hfirst⟩⟩
  | none =>
      rw [hcrlf] at h
      obtain ⟨n, hlf, hn⟩ := Option.map_eq_some_iff.mp h
      cases hn
      have hnone := (Search.position_eq_none_iff crlfCrlf_ne_nil).mp hcrlf
      obtain ⟨head, body, rfl, rfl, hfirst⟩ :=
        Search.position_eq_some lfLf_ne_nil hlf
      exact ⟨head, lfLf, body, rfl, rfl, rfl, .inr ⟨rfl, hnone, hfirst⟩⟩

/-- What is accepted is split into headers, separator and body, each of which passes its check. -/
theorem parseCgiResponse_eq_ok_iff :
    parseCgiResponse bytes maxHeaderBytes maxBodyBytes expected = .ok response ↔
      ∃ head sep seen, bytes = head ++ sep ++ response.body ∧ Splits bytes head sep ∧
        head.length + sep.length ≤ maxHeaderBytes ∧ response.body.length ≤ maxBodyBytes ∧
        parseHeaders head expected = .ok seen ∧
        response.status = seen.status ∧ response.headers = seen.headers := by
  constructor
  · intro h
    unfold parseCgiResponse at h
    cases hsep : separator bytes with
    | none =>
        rw [hsep] at h
        cases h
    | some place =>
        obtain ⟨head, sep, body, rfl, hplace, hlength, hsplits⟩ := separator_eq_some hsep
        have hbody : (head ++ sep ++ body).drop (place.1 + place.2) = body := by
          rw [← hplace, ← hlength, ← List.length_append, List.drop_left]
        have hhead : (head ++ sep ++ body).take place.1 = head := by
          rw [← hplace, List.append_assoc, List.take_left]
        simp only [hsep, hbody, hhead] at h
        split at h
        next => cases h
        next hheader =>
          split at h
          next => cases h
          next hmax =>
            cases hseen : parseHeaders head expected with
            | error error =>
                rw [hseen] at h
                cases h
            | ok seen =>
                rw [hseen] at h
                cases h
                exact ⟨head, sep, seen, rfl, hsplits, by omega, Nat.not_lt.mp hmax, hseen, rfl, rfl⟩
  · rintro ⟨head, sep, seen, hbytes, hsplits, hheader, hmax, hseen, hstatus, hheaders⟩
    have hbody : bytes.drop (head.length + sep.length) = response.body := by
      rw [hbytes, ← List.length_append, List.drop_left]
    have hhead : bytes.take head.length = head := by
      rw [hbytes, List.append_assoc, List.take_left]
    have hsep : separator bytes = some (head.length, sep.length) := by
      rw [hbytes] at hsplits ⊢
      exact separator_append hsplits
    simp only [parseCgiResponse, hsep, hbody, hhead, hseen]
    rw [if_neg (by omega), if_neg (by omega), ← hstatus, ← hheaders]

/-- A header block that is accepted alone is accepted before a body, if and only if the body is not
too long and there is no CRLF CRLF to be found in it first. -/
theorem parseCgiResponse_append_iff {status : Nat} {headers : List (String × String)}
    (h : parseCgiResponse block maxHeaderBytes maxBodyBytes expected = .ok ⟨status, headers, []⟩) :
    parseCgiResponse (block ++ body) maxHeaderBytes maxBodyBytes expected =
        .ok ⟨status, headers, body⟩ ↔
      body.length ≤ maxBodyBytes ∧ (crlfCrlf <:+: block ∨ ¬crlfCrlf <:+: block ++ body) := by
  obtain ⟨head, sep, seen, hblock, hsplits, hheader, _, hseen, hstatus, hheaders⟩ :=
    parseCgiResponse_eq_ok_iff.mp h
  rw [List.append_nil] at hblock
  subst hblock
  constructor
  · intro hok
    obtain ⟨head', sep', _, hbytes, hsplits', _, hmax, _⟩ := parseCgiResponse_eq_ok_iff.mp hok
    refine ⟨hmax, ?_⟩
    rcases hsplits' with ⟨rfl, _⟩ | ⟨_, hnone, _⟩
    · left
      rw [List.append_cancel_right hbytes]
      exact (List.suffix_append head' crlfCrlf).isInfix
    · exact .inr hnone
  · rintro ⟨hmax, hwhere⟩
    refine parseCgiResponse_eq_ok_iff.mpr
      ⟨head, sep, seen, rfl, ?_, hheader, hmax, hseen, hstatus, hheaders⟩
    rcases hsplits with ⟨rfl, hfirst⟩ | ⟨rfl, hnone, hfirst⟩
    · exact .inl ⟨rfl, hfirst⟩
    · exact .inr ⟨rfl, hwhere.resolve_left hnone, hfirst⟩

end

end Cresix.Git
