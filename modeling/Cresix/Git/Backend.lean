import Cresix.Git.SmartHttp
import Cresix.Library.Transition

/-!
# The smart HTTP backend

`execute` runs a child.  One thread reads its output and keeps as much as the
limits allow, and the calling thread polls.  When the output is longer, the
reader raises a flag that stops the child, but only as long as the calling
thread still polls.  After that nothing but the size of the body tells that
something was cut off, and the reader leaves out whole reads, so what it has
kept may be a body that fits (`execute_complete_iff`).
-/

namespace Cresix.Git

open Transition (System)

/-! ## The call -/

/-- `SmartHttpLimits`, with times in milliseconds. -/
structure SmartHttpLimits where
  maxRequestBytes : Nat
  maxResponseBytes : Nat
  maxHeaderBytes : Nat
  maxStderrBytes : Nat
  maxGitProtocolBytes : Nat
  advertisementTimeout : Nat
  uploadPackTimeout : Nat
deriving DecidableEq, Repr

/-- `SmartHttpLimits::default`. -/
def SmartHttpLimits.default : SmartHttpLimits where
  maxRequestBytes := 16 * 1024 * 1024
  maxResponseBytes := 64 * 1024 * 1024
  maxHeaderBytes := 32 * 1024
  maxStderrBytes := 16 * 1024
  maxGitProtocolBytes := 256
  advertisementTimeout := 30000
  uploadPackTimeout := 600000

/-- `validate_limits`. -/
def validateLimits (limits : SmartHttpLimits) : Except SmartHttpError Unit :=
  if limits.maxRequestBytes = 0 ∨ limits.maxResponseBytes = 0 ∨ limits.maxHeaderBytes < 128
      ∨ 1024 * 1024 < limits.maxHeaderBytes ∨ limits.maxStderrBytes = 0
      ∨ limits.maxGitProtocolBytes = 0 ∨ 4096 < limits.maxGitProtocolBytes
      ∨ limits.advertisementTimeout = 0 ∨ limits.uploadPackTimeout = 0 then
    .error (.invalidRequest "unsafe smart HTTP limits")
  else .ok ()

/-- `Request`, as far as it decides the outcome. -/
structure BackendRequest where
  gitProtocol : Option String
  actorId : String
  expectedContentType : String
deriving DecidableEq, Repr

/-- `validate_actor`. -/
def validateActor (actor : String) : Except SmartHttpError Unit :=
  if actor.isEmpty || 128 < Rust.len actor
      || !(Rust.bytes actor).all (fun byte => Rust.isAsciiAlphanumeric byte || byte == 0x2d
        || byte == 0x5f) then
    .error (.invalidRequest "invalid actor identifier")
  else .ok ()

/-- `validate_git_protocol`. -/
def validateGitProtocol (protocol : Option String) (max : Nat) : Except SmartHttpError Unit :=
  match protocol with
  | none => .ok ()
  | some protocol =>
      if max < Rust.len protocol then .error (.invalidRequest "Git-Protocol is too large")
      else if protocol ≠ "version=1" ∧ protocol ≠ "version=2" then
        .error (.invalidRequest "unsupported Git-Protocol")
      else .ok ()

/-- What `execute` does before its threads run, given how finding the repository and starting the
child end: the limit of the output. -/
def prepare (limits : SmartHttpLimits) (request : BackendRequest)
    (spawned : Except SmartHttpError Unit) : Except SmartHttpError Nat := do
  validateActor request.actorId
  validateGitProtocol request.gitProtocol limits.maxGitProtocolBytes
  spawned
  if Rust.u64Max < limits.maxResponseBytes + limits.maxHeaderBytes then throw .responseTooLarge
  return limits.maxResponseBytes + limits.maxHeaderBytes

/-! ## The threads -/

/-- Where the loop of the calling thread is. -/
inductive Polling where
  /-- Before it looks at the flag. -/
  | load
  /-- After it has found that the flag is down. -/
  | tryWait
  /-- After it, with the exit status or an error. -/
  | over (status : Except SmartHttpError (Option Nat))
deriving DecidableEq

/-- The child, the thread that reads its output, and the calling thread. -/
structure Exec where
  unwritten : List UInt8
  pipe : List UInt8
  exited : Bool
  killed : Bool
  kept : List UInt8
  overflow : Bool
  stdout : Option (Except SmartHttpError (List UInt8))
  polling : Polling
deriving DecidableEq

namespace Exec

/-- The threads are started. -/
def init (output : List UInt8) : Exec := ⟨output, [], false, false, [], false, none, .load⟩

/-- The next thing that a thread or the child does. -/
inductive Turn where
  /-- The child writes some bytes. -/
  | write (n : Nat)
  | exit
  /-- `read` gives some bytes. -/
  | read (n : Nat)
  | endOfFile
  | readFails
  | load
  /-- `try_wait`, and whether the time is over. -/
  | tryWait (late : Bool)
  | tryWaitFails
deriving DecidableEq

/-- `break`, where the child is killed. -/
def stop (s : Exec) (error : SmartHttpError) : Exec :=
  { s with killed := true, polling := .over (.error error) }

/-- The loop of `read_bounded`, for one chunk. -/
def take (limit : Nat) (s : Exec) (n : Nat) : Exec :=
  let chunk := s.pipe.take n
  let s := { s with pipe := s.pipe.drop n }
  -- A vector is never so long that `saturating_add` saturates.
  if limit < s.kept.length + chunk.length then { s with overflow := true }
  else if !s.overflow then { s with kept := s.kept ++ chunk }
  else s

/-- One turn; the child ends with this status. -/
def step (limit : Nat) (status : Option Nat) (s : Exec) : Turn → Option Exec
  | .write n =>
      if !s.exited && !s.killed && n ≤ s.unwritten.length then
        some { s with unwritten := s.unwritten.drop n, pipe := s.pipe ++ s.unwritten.take n }
      else none
  | .exit => if s.unwritten = [] ∧ s.killed = false then some { s with exited := true } else none
  | .read n =>
      if s.stdout = none ∧ 0 < n ∧ n ≤ 16384 ∧ n ≤ s.pipe.length then some (s.take limit n)
      else none
  | .endOfFile =>
      if s.stdout = none ∧ s.pipe = [] ∧ (s.exited = true ∨ s.killed = true) then
        some { s with stdout := some (.ok s.kept) }
      else none
  | .readFails =>
      if s.stdout = none then some { s with stdout := some (.error .backendFailed) } else none
  | .load =>
      if s.polling = .load then
        some (if s.overflow then s.stop .responseTooLarge else { s with polling := .tryWait })
      else none
  | .tryWait late =>
      if s.polling = .tryWait then
        some (if s.exited then { s with polling := .over (.ok status) }
          else if late then s.stop .timeout
          else { s with polling := .load })
      else none
  | .tryWaitFails => if s.polling = .tryWait then some (s.stop .backendFailed) else none

/-- The runs with one output and one exit status. -/
def system (limit : Nat) (status : Option Nat) (output : List UInt8) : System Exec Turn :=
  .ofOption (· = init output) (step limit status)

end Exec

/-- What the other two threads come to: whether the body was written, and nothing or an error. -/
structure Others where
  writer : Except SmartHttpError Bool
  stderr : Except SmartHttpError Unit

/-- What `execute` does after its loop. -/
def finish (limits : SmartHttpLimits) (request : BackendRequest) (others : Others)
    (stdout : Except SmartHttpError (List UInt8)) (status : Except SmartHttpError (Option Nat)) :
    Except SmartHttpError SmartHttpResponse := do
  let written ← others.writer
  let stdout ← stdout
  others.stderr
  let status ← status
  if !written || status != some 0 then throw .backendFailed
  parseCgiResponse stdout limits.maxHeaderBytes limits.maxResponseBytes request.expectedContentType

/-- The outcomes of `execute`. -/
def Executes (limits : SmartHttpLimits) (request : BackendRequest)
    (spawned : Except SmartHttpError Unit) (others : Others) (status : Option Nat)
    (output : List UInt8) (result : Except SmartHttpError SmartHttpResponse) : Prop :=
  match prepare limits request spawned with
  | .error error => result = .error error
  | .ok limit => ∃ s stdout polled, (Exec.system limit status output).Reachable s ∧
      s.stdout = some stdout ∧ s.polling = .over polled ∧
      result = finish limits request others stdout polled

/-! ## The header block of an output -/

/-- What follows the first blank line: the body that a child has written. -/
def afterBlank : List UInt8 → Option (List UInt8)
  | [] => none
  | b :: bytes =>
      if lfLf <+: b :: bytes then some (bytes.drop 1)
      else if crlfCrlf <+: b :: bytes then some (bytes.drop 3)
      else afterBlank bytes

section

variable {bytes head sep body block : List UInt8} {b : UInt8} {maxHeaderBytes maxBodyBytes : Nat}
  {expected : String} {response : SmartHttpResponse}

/-- What begins the list and is no longer than a part of it is in that part. -/
theorem infix_of_isPrefix {pat : List UInt8} (front back : List UInt8) (h : pat <+: front ++ back)
    (hlength : pat.length ≤ front.length) : pat <:+: front :=
  (List.prefix_of_prefix_length_le h (List.prefix_append front back) hlength).isInfix

theorem afterBlank_crlf (hlf : ¬lfLf <:+: head ++ crlfCrlf.dropLast)
    (hcrlf : ¬crlfCrlf <:+: head ++ crlfCrlf.dropLast) :
    afterBlank (head ++ crlfCrlf ++ body) = some body := by
  have hsplit : head ++ crlfCrlf ++ body = (head ++ crlfCrlf.dropLast) ++ (0x0a :: body) := by
    simp [crlfCrlf]
  rw [hsplit]
  clear hsplit
  induction head with
  | nil => rfl
  | cons b head ih =>
      rw [List.cons_append, List.cons_append, afterBlank, if_neg, if_neg]
      · exact ih (fun h => hlf (List.infix_cons h)) fun h => hcrlf (List.infix_cons h)
      · intro hprefix
        refine hcrlf (infix_of_isPrefix _ (0x0a :: body) hprefix ?_)
        simp [crlfCrlf]
      · intro hprefix
        refine hlf (infix_of_isPrefix _ (0x0a :: body) hprefix ?_)
        simp [crlfCrlf, lfLf]

theorem afterBlank_lf (hlf : ¬lfLf <:+: head ++ lfLf.dropLast)
    (hcrlf : ¬crlfCrlf <:+: head ++ lfLf ++ body) :
    afterBlank (head ++ lfLf ++ body) = some body := by
  have hsplit : head ++ lfLf ++ body = (head ++ lfLf.dropLast) ++ (0x0a :: body) := by
    simp [lfLf]
  rw [hsplit] at hcrlf ⊢
  clear hsplit
  induction head with
  | nil => rfl
  | cons b head ih =>
      rw [List.cons_append, List.cons_append, afterBlank, if_neg, if_neg]
      · exact ih (fun h => hlf (List.infix_cons h)) fun h => hcrlf (List.infix_cons h)
      · intro hprefix
        exact hcrlf hprefix.isInfix
      · intro hprefix
        refine hlf (infix_of_isPrefix _ (0x0a :: body) hprefix ?_)
        simp [lfLf]

theorem afterBlank_of_short (h : b :: bytes <+: crlfCrlf) (hlength : bytes.length < 3) :
    afterBlank bytes = none := by
  obtain ⟨-, htail⟩ := List.cons_prefix_cons.mp h
  have htake := List.prefix_iff_eq_take.mp htail
  generalize bytes.length = n at htake hlength
  subst htake
  obtain rfl | rfl | rfl : n = 0 ∨ n = 1 ∨ n = 2 := by omega
  · rfl
  · rfl
  · rfl

/-- More output does not move the end of the block. -/
theorem afterBlank_mono (h : afterBlank bytes = some body) (more : List UInt8) :
    afterBlank (bytes ++ more) = some (body ++ more) := by
  induction bytes with
  | nil => cases h
  | cons b bytes ih =>
      have hall : b :: bytes <+: b :: (bytes ++ more) := List.prefix_append (b :: bytes) more
      rw [afterBlank] at h
      rw [List.cons_append, afterBlank]
      split at h
      next hlf =>
        cases h
        have hlength : 1 ≤ bytes.length := by simpa [lfLf] using hlf.length_le
        rw [if_pos (hlf.trans hall), List.drop_append_of_le_length hlength]
      next hlf =>
        split at h
        next hcrlf =>
          cases h
          have hlength : 3 ≤ bytes.length := by simpa [crlfCrlf] using hcrlf.length_le
          rw [if_neg, if_pos (hcrlf.trans hall),
            List.drop_append_of_le_length hlength]
          intro hprefix
          refine hlf (List.prefix_of_prefix_length_le hprefix hall ?_)
          simpa [lfLf] using hlength.trans' (by decide)
        next hcrlf =>
          rw [if_neg, if_neg]
          · exact ih h
          · intro hprefix
            by_cases hlength : bytes.length < 3
            · have hshort : b :: bytes <+: crlfCrlf :=
                List.prefix_of_prefix_length_le hall hprefix
                  (by simp [crlfCrlf]; omega)
              rw [afterBlank_of_short hshort hlength] at h
              cases h
            · refine hcrlf (List.prefix_of_prefix_length_le hprefix hall ?_)
              simp [crlfCrlf]
              omega
          · intro hprefix
            by_cases hlength : bytes = []
            · rw [hlength] at h
              cases h
            · have hpos := List.length_pos_iff.mpr hlength
              refine hlf (List.prefix_of_prefix_length_le hprefix hall ?_)
              simp [lfLf]
              omega

theorem parseLine_of_lines {seen seen' : Seen} {lines : List (List Char)}
    (h : seen.lines expected lines = .ok seen') :
    ∀ line ∈ lines, ∃ header, parseLine line = .ok header := by
  induction lines generalizing seen with
  | nil =>
      intro line hline
      cases hline
  | cons line lines ih =>
      rw [Seen.lines] at h
      split at h
      next => cases h
      next name value hline =>
        split at h
        next => cases h
        next => exact List.forall_mem_cons.mpr ⟨⟨_, hline⟩, ih h⟩

/-- There is no empty line in headers that are accepted. -/
theorem not_lfLf_of_parseHeaders {seen : Seen} (h : parseHeaders head expected = .ok seen) :
    ¬lfLf <:+: head := by
  intro hinside
  unfold parseHeaders at h
  split at h
  next => cases h
  next text htext =>
    split at h
    next => cases h
    next _ hlines =>
      have hempty : [] ∈ (head.splitOn 0x0a).dropLast := Search.mem_dropLast_splitOn hinside
      rw [← Rust.bytes_of_fromUtf8 htext, ← String.ofList_toList (s := text), Rust.splitOn_bytes,
        ← List.map_dropLast] at hempty
      obtain ⟨piece, hpiece, hnil⟩ := List.mem_map.mp hempty
      have hblank : piece = [] := by
        cases piece with
        | nil => rfl
        | cons c piece =>
            rw [Rust.bytes_ofList, List.flatMap_cons, List.append_eq_nil_iff] at hnil
            exact absurd hnil.1 (String.utf8EncodeChar_ne_nil)
      rw [hblank] at hpiece
      have hline : [] ∈ Rust.lines text.toList := by
        refine List.mem_append_left _ ?_
        exact List.mem_map.mpr ⟨[], hpiece, rfl⟩
      obtain ⟨header, hheader⟩ := parseLine_of_lines hlines [] hline
      cases hheader

theorem infix_append_of_ne {front : List UInt8} (h : lfLf <:+: front ++ crlfCrlf.dropLast) :
    lfLf <:+: front := by
  induction front with
  | nil => exact absurd h (by decide)
  | cons b front ih =>
      rw [List.cons_append, List.infix_cons_iff] at h
      rcases h with hhere | hlater
      · cases front with
        | nil =>
            obtain ⟨-, hnext⟩ := List.cons_prefix_cons.mp hhere
            exact absurd (List.cons_prefix_cons.mp hnext).1 (by decide)
        | cons c front =>
            exact infix_of_isPrefix (b :: c :: front) _ hhere (by simp [lfLf])
      · exact List.infix_cons (ih hlater)

/-- What is accepted is split at the first blank line. -/
theorem afterBlank_of_parse
    (h : parseCgiResponse bytes maxHeaderBytes maxBodyBytes expected = .ok response) :
    afterBlank bytes = some response.body := by
  obtain ⟨head, sep, seen, rfl, hsplits, _, _, hseen, _⟩ := parseCgiResponse_eq_ok_iff.mp h
  rcases hsplits with ⟨rfl, hfirst⟩ | ⟨rfl, hnone, hfirst⟩
  · refine afterBlank_crlf ?_ hfirst
    exact fun hinside => not_lfLf_of_parseHeaders hseen (infix_append_of_ne hinside)
  · exact afterBlank_lf hfirst hnone

/-- And the block before it is accepted alone. -/
theorem exists_block_of_parse
    (h : parseCgiResponse bytes maxHeaderBytes maxBodyBytes expected = .ok response) :
    ∃ block, bytes = block ++ response.body ∧
      parseCgiResponse block maxHeaderBytes maxBodyBytes expected =
        .ok ⟨response.status, response.headers, []⟩ := by
  obtain ⟨head, sep, seen, hbytes, hsplits, hheader, _, hseen, hstatus, hheaders⟩ :=
    parseCgiResponse_eq_ok_iff.mp h
  refine ⟨head ++ sep, hbytes, parseCgiResponse_eq_ok_iff.mpr
    ⟨head, sep, seen, (List.append_nil _).symm, ?_, hheader, Nat.zero_le _, hseen, hstatus, hheaders⟩⟩
  rcases hsplits with hcrlf | ⟨rfl, hnone, hfirst⟩
  · exact .inl hcrlf
  · refine .inr ⟨rfl, ?_, hfirst⟩
    exact fun hinside => hnone (hinside.trans (hbytes ▸ (List.prefix_append _ _).isInfix))

end

/-! ## What the threads come to -/

namespace Exec

/-- The reader keeps the beginning of the output.  Once the flag is up, less than a read is
missing to the limit. -/
structure Inv (limit : Nat) (status : Option Nat) (output : List UInt8) (s : Exec) : Prop where
  split : ∃ dropped, output = s.kept ++ dropped ++ s.pipe ++ s.unwritten ∧
    (s.overflow = false → dropped = []) ∧
    (s.overflow = true → limit < s.kept.length + 16384 ∧ limit < (s.kept ++ dropped).length)
  bounded : s.kept.length ≤ limit
  exited : s.exited = true → s.unwritten = []
  polled : ∀ code, s.polling = .over (.ok code) → code = status ∧ s.exited = true
  read : ∀ bytes, s.stdout = some (.ok bytes) →
    bytes = s.kept ∧ s.pipe = [] ∧ (s.exited = true ∨ s.killed = true)

variable {limit : Nat} {status : Option Nat} {output : List UInt8} {s t : Exec} {turn : Turn}

theorem Inv.take (h : Inv limit status output s) {n : Nat} (hopen : s.stdout = none)
    (hn : n ≤ 16384) (hpipe : n ≤ s.pipe.length) : Inv limit status output (s.take limit n) := by
  obtain ⟨⟨dropped, houtput, hnone, hcut⟩, hbounded, hexited, hpolled, hread⟩ := h
  have hlength : (s.pipe.take n).length = n := by
    rw [List.length_take, Nat.min_eq_left hpipe]
  have hpieces : s.kept ++ dropped ++ s.pipe.take n ++ s.pipe.drop n ++ s.unwritten = output := by
    rw [List.append_assoc _ (s.pipe.take n), List.take_append_drop, houtput]
  simp only [Exec.take, hlength]
  split
  next hover =>
    refine ⟨⟨dropped ++ s.pipe.take n, ?_, nofun, fun _ => ?_⟩, hbounded, hexited, hpolled, ?_⟩
    · rw [← hpieces]
      simp
    · simp only [List.length_append, hlength]
      omega
    · simp [hopen]
  next hover =>
    split
    next hflag =>
      simp only [Bool.not_eq_true'] at hflag
      refine ⟨⟨[], ?_, fun _ => rfl, ?_⟩, ?_, hexited, hpolled, ?_⟩
      · rw [← hpieces, hnone hflag]
        simp
      · simp [hflag]
      · simp only [List.length_append, hlength]
        omega
      · simp [hopen]
    next hflag =>
      simp only [Bool.not_eq_true', Bool.not_eq_false] at hflag
      refine ⟨⟨dropped ++ s.pipe.take n, ?_, ?_, fun _ => ?_⟩, hbounded, hexited, hpolled, ?_⟩
      · rw [← hpieces]
        simp
      · simp [hflag]
      · have hcut := hcut hflag
        simp only [List.length_append] at hcut ⊢
        omega
      · simp [hopen]

theorem Inv.stop (h : Inv limit status output s) (error : SmartHttpError) :
    Inv limit status output (s.stop error) where
  split := h.split
  bounded := h.bounded
  exited := h.exited
  polled code hcode := by cases hcode
  read bytes hbytes := ⟨(h.read bytes hbytes).1, (h.read bytes hbytes).2.1, .inr rfl⟩

/-- What a turn does, and when it can be taken. -/
inductive Turned (limit : Nat) (status : Option Nat) (s : Exec) : Turn → Exec → Prop where
  | write {n : Nat} (alive : s.exited = false) (spared : s.killed = false)
      (left : n ≤ s.unwritten.length) :
      Turned limit status s (.write n)
        { s with unwritten := s.unwritten.drop n, pipe := s.pipe ++ s.unwritten.take n }
  | exit (written : s.unwritten = []) (spared : s.killed = false) :
      Turned limit status s .exit { s with exited := true }
  | read {n : Nat} (reading : s.stdout = none) (some : 0 < n) (fits : n ≤ 16384)
      (there : n ≤ s.pipe.length) : Turned limit status s (.read n) (s.take limit n)
  | endOfFile (reading : s.stdout = none) (empty : s.pipe = [])
      (closed : s.exited = true ∨ s.killed = true) :
      Turned limit status s .endOfFile { s with stdout := some (.ok s.kept) }
  | readFails (reading : s.stdout = none) :
      Turned limit status s .readFails { s with stdout := some (.error .backendFailed) }
  | raised (polling : s.polling = .load) (flag : s.overflow = true) :
      Turned limit status s .load (s.stop .responseTooLarge)
  | down (polling : s.polling = .load) (flag : s.overflow = false) :
      Turned limit status s .load { s with polling := .tryWait }
  | found {late : Bool} (polling : s.polling = .tryWait) (exited : s.exited = true) :
      Turned limit status s (.tryWait late) { s with polling := .over (.ok status) }
  | late (polling : s.polling = .tryWait) (running : s.exited = false) :
      Turned limit status s (.tryWait true) (s.stop .timeout)
  | again (polling : s.polling = .tryWait) (running : s.exited = false) :
      Turned limit status s (.tryWait false) { s with polling := .load }
  | tryWaitFails (polling : s.polling = .tryWait) :
      Turned limit status s .tryWaitFails (s.stop .backendFailed)

theorem Turned.of_step (hstep : s.step limit status turn = some t) :
    Turned limit status s turn t := by
  cases turn with
  | write n =>
      simp only [Exec.step, Bool.and_eq_true, Bool.not_eq_true', decide_eq_true_eq] at hstep
      split at hstep
      next hcan =>
        cases hstep
        exact .write hcan.1.1 hcan.1.2 hcan.2
      next => cases hstep
  | exit =>
      simp only [Exec.step] at hstep
      split at hstep
      next hcan =>
        cases hstep
        exact .exit hcan.1 hcan.2
      next => cases hstep
  | read n =>
      simp only [Exec.step] at hstep
      split at hstep
      next hcan =>
        cases hstep
        exact .read hcan.1 hcan.2.1 hcan.2.2.1 hcan.2.2.2
      next => cases hstep
  | endOfFile =>
      simp only [Exec.step] at hstep
      split at hstep
      next hcan =>
        cases hstep
        exact .endOfFile hcan.1 hcan.2.1 hcan.2.2
      next => cases hstep
  | readFails =>
      simp only [Exec.step] at hstep
      split at hstep
      next hcan =>
        cases hstep
        exact .readFails hcan
      next => cases hstep
  | load =>
      simp only [Exec.step] at hstep
      split at hstep
      next hcan =>
        cases hstep
        split
        next hflag => exact .raised hcan hflag
        next hflag => exact .down hcan (Bool.not_eq_true _ ▸ hflag)
      next => cases hstep
  | tryWait late =>
      simp only [Exec.step] at hstep
      split at hstep
      next hcan =>
        cases hstep
        split
        next hexited => exact .found hcan hexited
        next hrunning =>
          have hrunning : s.exited = false := by simpa using hrunning
          cases late with
          | true => exact .late hcan hrunning
          | false => exact .again hcan hrunning
      next => cases hstep
  | tryWaitFails =>
      simp only [Exec.step] at hstep
      split at hstep
      next hcan =>
        cases hstep
        exact .tryWaitFails hcan
      next => cases hstep

/-- The step lemma, with one case for each thing that a turn does. -/
theorem Inv.step (h : Inv limit status output s) (hstep : s.step limit status turn = some t) :
    Inv limit status output t := by
  cases Turned.of_step hstep with
  | write alive spared left =>
      obtain ⟨dropped, houtput, hflags⟩ := h.split
      refine ⟨⟨dropped, ?_, hflags⟩, h.bounded, ?_, h.polled, ?_⟩
      · rw [houtput]
        simp
      · intro hexited
        cases alive.symm.trans hexited
      · intro bytes hbytes
        rcases (h.read bytes hbytes).2.2 with hexited | hkilled
        · cases alive.symm.trans hexited
        · cases spared.symm.trans hkilled
  | exit written spared =>
      exact ⟨h.split, h.bounded, fun _ => written, fun code hcode => ⟨(h.polled code hcode).1, rfl⟩,
        fun bytes hbytes => ⟨(h.read bytes hbytes).1, (h.read bytes hbytes).2.1, .inl rfl⟩⟩
  | read reading some fits there => exact h.take reading fits there
  | endOfFile reading empty closed =>
      refine ⟨h.split, h.bounded, h.exited, h.polled, ?_⟩
      rintro bytes ⟨⟩
      exact ⟨rfl, empty, closed⟩
  | readFails reading =>
      refine ⟨h.split, h.bounded, h.exited, h.polled, ?_⟩
      rintro bytes ⟨⟩
  | raised polling flag => exact h.stop _
  | down polling flag =>
      refine ⟨h.split, h.bounded, h.exited, ?_, h.read⟩
      rintro code ⟨⟩
  | found polling exited =>
      refine ⟨h.split, h.bounded, h.exited, ?_, h.read⟩
      rintro code ⟨⟩
      exact ⟨rfl, exited⟩
  | late polling running => exact h.stop _
  | again polling running =>
      refine ⟨h.split, h.bounded, h.exited, ?_, h.read⟩
      rintro code ⟨⟩
  | tryWaitFails polling => exact h.stop _

theorem Inv.init (limit : Nat) (status : Option Nat) (output : List UInt8) :
    Inv limit status output (init output) where
  split := ⟨[], rfl, fun _ => rfl, nofun⟩
  bounded := Nat.zero_le limit
  exited := nofun
  polled := nofun
  read := nofun

theorem inv_of_reachable (h : (system limit status output).Reachable s) :
    Inv limit status output s := by
  refine h.invariant ?_ ?_
  · rintro s rfl
    exact .init limit status output
  · exact fun s turn t hs hst => hs.step hst

/-- What the loop lets through is all of the output, or as much of its beginning as the reader may
keep of an output that is too long. -/
theorem kept_of_reachable (h : (system limit status output).Reachable s) {kept : List UInt8}
    {code : Option Nat} (hstdout : s.stdout = some (.ok kept))
    (hpolling : s.polling = .over (.ok code)) :
    code = status ∧ (kept = output ∨ ∃ n, kept = output.take n ∧ n ≤ limit ∧ limit < n + 16384 ∧
      limit < output.length) := by
  have hinv := inv_of_reachable h
  obtain ⟨dropped, houtput, hnone, hcut⟩ := hinv.split
  obtain ⟨hcode, hexited⟩ := hinv.polled code hpolling
  obtain ⟨rfl, hpipe, -⟩ := hinv.read kept hstdout
  rw [hpipe, hinv.exited hexited, List.append_nil, List.append_nil] at houtput
  refine ⟨hcode, ?_⟩
  cases hflag : s.overflow with
  | false =>
      left
      rw [houtput, hnone hflag, List.append_nil]
  | true =>
      right
      refine ⟨s.kept.length, ?_, hinv.bounded, (hcut hflag).1, houtput ▸ (hcut hflag).2⟩
      rw [houtput, List.take_left]

/-! ### A run that cuts the output off -/

/-- The reader takes one byte at a time as long as the limit allows. -/
theorem reads_kept (n : Nat) (s : Exec) (hopen : s.stdout = none) (hflag : s.overflow = false)
    (hpipe : n ≤ s.pipe.length) (hlimit : s.kept.length + n ≤ limit) :
    ∃ tr, (system limit status output).Run s tr
      { s with kept := s.kept ++ s.pipe.take n, pipe := s.pipe.drop n } := by
  induction n with
  | zero => exact ⟨[], by simpa using .refl⟩
  | succ n ih =>
      obtain ⟨tr, hrun⟩ := ih (by omega) (by omega)
      have hone : ((s.pipe.drop n).take 1).length = 1 := by
        rw [List.length_take, List.length_drop]
        omega
      have hkept : (s.kept ++ s.pipe.take n).length = s.kept.length + n := by
        rw [List.length_append, List.length_take, Nat.min_eq_left (by omega)]
      refine ⟨_, hrun.snoc (a := .read 1) ?_⟩
      show Exec.step _ _ _ _ = _
      rw [Exec.step, if_pos ⟨hopen, Nat.one_pos, by decide, by rw [List.length_drop]; omega⟩]
      simp only [Exec.take, hone, hkept, hflag]
      rw [if_neg (by omega), List.take_add, List.drop_drop, List.append_assoc]
      rfl

/-- And it leaves out the rest once the flag is up. -/
theorem reads_dropped (n : Nat) (s : Exec) (hopen : s.stdout = none) (hflag : s.overflow = true)
    (hpipe : n ≤ s.pipe.length) :
    ∃ tr, (system limit status output).Run s tr { s with pipe := s.pipe.drop n } := by
  induction n with
  | zero => exact ⟨[], by simpa using .refl⟩
  | succ n ih =>
      obtain ⟨tr, hrun⟩ := ih (by omega)
      refine ⟨_, hrun.snoc (a := .read 1) ?_⟩
      show Exec.step _ _ _ _ = _
      rw [Exec.step, if_pos ⟨hopen, Nat.one_pos, by decide, by rw [List.length_drop]; omega⟩]
      simp only [Exec.take, hflag, List.drop_drop]
      split
      next => rfl
      next => rfl

theorem reachable_step (h : (system limit status output).Reachable s) (turn : Turn)
    (hstep : s.step limit status turn = some t) : (system limit status output).Reachable t :=
  h.step hstep

/-- The calling thread finds the flag down, then the reader takes the whole output, and then the
child is found to have ended. -/
theorem exists_cut (limit : Nat) (status : Option Nat) (output : List UInt8) {n : Nat}
    (hlimit : n ≤ limit) (hcut : limit < n + 16384)
    (hlong : limit < output.length) :
    ∃ s, (system limit status output).Reachable s ∧ s.stdout = some (.ok (output.take n)) ∧
      s.polling = .over (.ok status) := by
  have hwritten : (system limit status output).Reachable
      ⟨[], output, false, false, [], false, none, .load⟩ :=
    reachable_step (.of_start rfl) (.write output.length) (by simp [Exec.step, init])
  have hloaded := reachable_step hwritten .load rfl
  have hlength : n ≤ output.length := by omega
  obtain ⟨_, hreads⟩ := reads_kept n ⟨[], output, false, false, [], false, none, .tryWait⟩ rfl rfl
    hlength (by simpa using hlimit)
  have hkept := hloaded.run hreads
  -- One more read is too much, and so raises the flag.
  have hlast : 0 < min 16384 (output.length - n) ∧ min 16384 (output.length - n) ≤ 16384 ∧
      n + min 16384 (output.length - n) ≤ output.length ∧
      limit < n + min 16384 (output.length - n) := by omega
  generalize min 16384 (output.length - n) = last at hlast
  obtain ⟨hpos, hread, hpipe, hover⟩ := hlast
  have hraised : (system limit status output).Reachable
      ⟨[], output.drop (n + last), false, false, output.take n, true, none, .tryWait⟩ := by
    refine reachable_step hkept (.read last) ?_
    simp only [Exec.step, Exec.take, List.nil_append, List.length_take, List.length_drop,
      List.drop_drop]
    rw [if_pos ⟨trivial, hpos, hread, by omega⟩, if_pos (by omega)]
  obtain ⟨_, hrest⟩ := reads_dropped (output.length - (n + last))
    ⟨[], output.drop (n + last), false, false, output.take n, true, none, .tryWait⟩ rfl rfl
    (by rw [List.length_drop])
  have hempty : (output.drop (n + last)).drop (output.length - (n + last)) = [] := by
    rw [List.drop_drop]
    exact List.drop_eq_nil_of_le (by omega)
  have hdrained := hraised.run hrest
  simp only [hempty] at hdrained
  have hexited := reachable_step hdrained .exit rfl
  have hover := reachable_step hexited (.tryWait false) rfl
  exact ⟨_, reachable_step hover .endOfFile rfl, rfl, rfl⟩

end Exec

/-! ## Complete bodies -/

/-- The output is too long, its header block is so long that the headers and a body that fits may
be all that is kept, and they are accepted: they end with CRLF, or no CRLF CRLF is among the least
that is kept. -/
def Cuttable (limits : SmartHttpLimits) (expected : String) (output : List UInt8) : Prop :=
  limits.maxResponseBytes + limits.maxHeaderBytes < output.length ∧
  ∃ block body status headers, output = block ++ body ∧ afterBlank output = some body ∧
    parseCgiResponse block limits.maxHeaderBytes limits.maxResponseBytes expected =
      .ok ⟨status, headers, []⟩ ∧
    limits.maxHeaderBytes < block.length + 16384 ∧
    (crlfCrlf <:+: block ∨ ¬crlfCrlf <:+: output.take
      (max block.length (limits.maxResponseBytes + limits.maxHeaderBytes - 16383)))

section

variable {limits : SmartHttpLimits} {request : BackendRequest} {spawned : Except SmartHttpError Unit}
  {others : Others} {status : Option Nat} {output : List UInt8} {response : SmartHttpResponse}

theorem prepare_eq_ok {limit : Nat} (h : prepare limits request spawned = .ok limit) :
    limit = limits.maxResponseBytes + limits.maxHeaderBytes ∧
      prepare limits request (.ok ()) = .ok limit := by
  unfold prepare at h ⊢
  cases hactor : validateActor request.actorId with
  | error error =>
      rw [hactor] at h
      cases h
  | ok =>
      cases hprotocol : validateGitProtocol request.gitProtocol limits.maxGitProtocolBytes with
      | error error =>
          rw [hactor, hprotocol] at h
          cases h
      | ok =>
          rw [hactor, hprotocol] at h
          cases spawned with
          | error error => cases h
          | ok =>
              refine ⟨?_, h⟩
              by_cases hmax : Rust.u64Max < limits.maxResponseBytes + limits.maxHeaderBytes
              · simp only [hmax, if_true] at h
                cases h
              · simp only [hmax, if_false] at h
                cases h
                rfl

/-- A response is what is made of a part of the output that the loop lets through. -/
theorem finish_eq_ok {stdout : Except SmartHttpError (List UInt8)}
    {polled : Except SmartHttpError (Option Nat)}
    (h : finish limits request others stdout polled = .ok response) :
    ∃ kept, stdout = .ok kept ∧ polled = .ok (some 0) ∧
      parseCgiResponse kept limits.maxHeaderBytes limits.maxResponseBytes
        request.expectedContentType = .ok response := by
  obtain ⟨writer, stderr⟩ := others
  unfold finish at h
  cases writer with
  | error error => cases h
  | ok written =>
      cases stdout with
      | error error => cases h
      | ok kept =>
          cases stderr with
          | error error => cases h
          | ok =>
              cases polled with
              | error error => cases h
              | ok status =>
                  change (if (!written || status != some 0) = true then
                    .error .backendFailed else parseCgiResponse kept limits.maxHeaderBytes
                      limits.maxResponseBytes request.expectedContentType) = _ at h
                  split at h
                  next => cases h
                  next hdone =>
                    simp only [Bool.or_eq_true, Bool.not_eq_true', bne_iff_ne, not_or,
                      not_not] at hdone
                    exact ⟨kept, rfl, by rw [hdone.2], h⟩

/-- A part of the output that is kept and accepted. -/
theorem cuttable_of_parse {n : Nat} {expected : String}
    (hn : n ≤ limits.maxResponseBytes + limits.maxHeaderBytes)
    (hlimit : limits.maxResponseBytes + limits.maxHeaderBytes < n + 16384)
    (hlong : limits.maxResponseBytes + limits.maxHeaderBytes < output.length)
    (h : parseCgiResponse (output.take n) limits.maxHeaderBytes limits.maxResponseBytes expected =
      .ok response) : Cuttable limits expected output := by
  obtain ⟨block, hkept, hblock⟩ := exists_block_of_parse h
  have hafter := afterBlank_mono (afterBlank_of_parse h) (output.drop n)
  rw [List.take_append_drop] at hafter
  have hresponse : parseCgiResponse (block ++ response.body) limits.maxHeaderBytes
      limits.maxResponseBytes expected = .ok ⟨response.status, response.headers, response.body⟩ := by
    rw [← hkept, h]
  obtain ⟨hbody, hwhere⟩ := (parseCgiResponse_append_iff hblock).mp hresponse
  have hlength : block.length + response.body.length = n := by
    rw [← List.length_append, ← hkept, List.length_take]
    omega
  refine ⟨hlong, block, response.body ++ output.drop n, response.status, response.headers, ?_, hafter,
    hblock, ?_, ?_⟩
  · rw [← List.append_assoc, ← hkept, List.take_append_drop]
  · omega
  · refine hwhere.imp_right fun hnone hinside => hnone ?_
    rw [← hkept]
    refine hinside.trans (List.take_prefix_take_left ?_).isInfix
    omega

/-- The least that may be kept of such an output is accepted. -/
theorem parse_of_cuttable {expected : String} (h : Cuttable limits expected output) :
    ∃ n response, n ≤ limits.maxResponseBytes + limits.maxHeaderBytes ∧
      limits.maxResponseBytes + limits.maxHeaderBytes < n + 16384 ∧
      parseCgiResponse (output.take n) limits.maxHeaderBytes limits.maxResponseBytes expected =
        .ok response := by
  obtain ⟨hlong, block, body, status, headers, rfl, -, hblock, hheader, hwhere⟩ := h
  obtain ⟨head, sep, _, hbytes, _, hmax, _⟩ := parseCgiResponse_eq_ok_iff.mp hblock
  have hlength : block.length ≤ limits.maxHeaderBytes := by
    rw [hbytes, List.append_nil, List.length_append]
    exact hmax
  obtain ⟨extra, hextra⟩ := Nat.exists_eq_add_of_le (Nat.le_max_left block.length
    (limits.maxResponseBytes + limits.maxHeaderBytes - 16383))
  rw [hextra, List.take_length_add_append] at hwhere
  refine ⟨block.length + extra, ⟨status, headers, body.take extra⟩, by omega, by omega, ?_⟩
  rw [List.take_length_add_append]
  refine (parseCgiResponse_append_iff hblock).mpr ⟨?_, hwhere⟩
  exact (List.length_take_le _ _).trans (by omega)

/-- A response has all of the body that the child has written, whatever the other threads do and in
every order of turns, if and only if the request is refused, or the child fails, or its output
cannot be cut off. -/
theorem execute_complete_iff (limits : SmartHttpLimits) (request : BackendRequest)
    (status : Option Nat) (output : List UInt8) :
    (∀ spawned others response, Executes limits request spawned others status output (.ok response) →
      afterBlank output = some response.body) ↔
    (∃ error, prepare limits request (.ok ()) = .error error) ∨ status ≠ some 0 ∨
      ¬Cuttable limits request.expectedContentType output := by
  constructor
  · intro hcomplete
    by_contra hnot
    simp only [not_or, not_exists, not_not] at hnot
    obtain ⟨hprepare, rfl, hcuttable⟩ := hnot
    obtain ⟨n, response, hn, hlimit, hparse⟩ := parse_of_cuttable hcuttable
    cases hlimits : prepare limits request (.ok ()) with
    | error error => exact hprepare error hlimits
    | ok limit =>
        obtain ⟨rfl, -⟩ := prepare_eq_ok hlimits
        obtain ⟨s, hreachable, hstdout, hpolled⟩ := Exec.exists_cut _ (some 0) output hn hlimit hcuttable.1
        have hexecutes : Executes limits request (.ok ()) ⟨.ok true, .ok ()⟩ (some 0) output
            (.ok response) := by
          rw [Executes, hlimits]
          exact ⟨s, _, _, hreachable, hstdout, hpolled, hparse.symm⟩
        have hbody := hcomplete _ _ response hexecutes
        have hcut := afterBlank_mono (afterBlank_of_parse hparse) (output.drop n)
        rw [List.take_append_drop, hbody, Option.some_inj, List.self_eq_append_right,
          List.drop_eq_nil_iff] at hcut
        exact absurd hcuttable.1 (by omega)
  · intro hsafe spawned others response hexecutes
    unfold Executes at hexecutes
    cases hprepare : prepare limits request spawned with
    | error error =>
        rw [hprepare] at hexecutes
        cases hexecutes
    | ok limit =>
        rw [hprepare] at hexecutes
        obtain ⟨s, stdout, polled, hreachable, hstdout, hpolled, hfinish⟩ := hexecutes
        obtain ⟨kept, rfl, rfl, hparse⟩ := finish_eq_ok hfinish.symm
        obtain ⟨rfl, hok⟩ := prepare_eq_ok hprepare
        obtain ⟨hstatus, rfl | ⟨n, rfl, hn, hlimit, hlong⟩⟩ :=
          Exec.kept_of_reachable hreachable hstdout hpolled
        · exact afterBlank_of_parse hparse
        · rcases hsafe with ⟨error, herror⟩ | hfailed | hwhole
          · cases hok.symm.trans herror
          · exact absurd hstatus.symm hfailed
          · exact absurd (cuttable_of_parse hn hlimit hlong hparse) hwhole

end

/-! ### A body that is cut off -/

/-- Small limits that are accepted. -/
def smallLimits : SmartHttpLimits :=
  { SmartHttpLimits.default with maxResponseBytes := 1, maxHeaderBytes := 128 }

/-- A fetch by a user. -/
def fetch : BackendRequest := ⟨none, "user-1", "application/x-git-upload-pack-result"⟩

/-- Headers, and a pack of 200 bytes. -/
def longOutput : List UInt8 :=
  Rust.bytes "Content-Type: application/x-git-upload-pack-result\r\n\r\n" ++
    List.replicate 200 (UInt8.ofNat 0x50)

/-- The response is an empty body. -/
theorem body_cut_off :
    ¬ ∀ (limits : SmartHttpLimits) (request : BackendRequest) (status : Option Nat)
      (output : List UInt8) (spawned : Except SmartHttpError Unit) (others : Others)
      (response : SmartHttpResponse), validateLimits limits = .ok () →
      Executes limits request spawned others status output (.ok response) →
      afterBlank output = some response.body := by
  intro hclaim
  obtain ⟨s, hreachable, hstdout, hpolled⟩ := Exec.exists_cut 129 (some 0) longOutput
    (n := 54) (by decide) (by decide) (by decide +kernel)
  have hparse : parseCgiResponse (longOutput.take 54) 128 1 "application/x-git-upload-pack-result" =
      .ok ⟨200, [("Content-Type", "application/x-git-upload-pack-result")], []⟩ := by
    decide +kernel
  have hexecutes : Executes smallLimits fetch (.ok ()) ⟨.ok true, .ok ()⟩ (some 0) longOutput
      (.ok ⟨200, [("Content-Type", "application/x-git-upload-pack-result")], []⟩) :=
    ⟨s, _, _, hreachable, hstdout, hpolled, hparse.symm⟩
  have hbody := hclaim _ _ _ _ _ _ _ (by decide) hexecutes
  exact absurd hbody (by decide +kernel)

end Cresix.Git
