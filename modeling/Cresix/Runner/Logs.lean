import Cresix.Runner.Service

/-!
# Captured logs

`capture_log` steps back from the limit until it stands at the start of a
character.  Zero is the start of one in every text, so the loop ends before the
position can underflow, and the text is cut where `String::truncate` does not
panic (`captureLogChecked_eq`).  Everything between the limit and the end of
the loop was inside of a character, so nothing longer could have been kept
(`LongestPrefix`).
-/

namespace Cresix.Runner

/-! ## The loop with its panics -/

/-- The loop of `capture_log` from a boundary; `none` is the underflow of `boundary -= 1`. -/
def stepBack (content : List UInt8) : Nat → Option Nat
  | 0 => if Rust.isCharBoundary content 0 then some 0 else none
  | boundary + 1 =>
      if Rust.isCharBoundary content (boundary + 1) then some (boundary + 1)
      else stepBack content boundary

/-- `String::truncate`; `none` is its panic inside of a character. -/
def truncateChecked (content : String) (newLen : Nat) : Option String :=
  if newLen ≤ Rust.len content then
    if Rust.isCharBoundary (Rust.bytes content) newLen then some (Rust.truncate content newLen)
    else none
  else some content

/-- `capture_log` where it does not panic. -/
def captureLogChecked (content : String) (limit : Nat) : Option CapturedLog :=
  if Rust.len content ≤ limit then some ⟨content, false⟩
  else do
    let boundary ← stepBack (Rust.bytes content) limit
    let content ← truncateChecked content boundary
    return ⟨content, true⟩

/-- The longest part from the front of a text that ends on a character boundary within the
limit. -/
structure LongestPrefix (kept content : String) (limit : Nat) : Prop where
  front : Rust.bytes kept <+: Rust.bytes content
  boundary : Rust.isCharBoundary (Rust.bytes content) (Rust.len kept) = true
  within : Rust.len kept ≤ limit
  longest : ∀ i ≤ limit, Rust.isCharBoundary (Rust.bytes content) i = true → i ≤ Rust.len kept

/-! ## Where the loop ends -/

section

variable {b : List UInt8} {content : String} {n i limit : Nat}

theorem floorCharBoundary_le (b : List UInt8) (n : Nat) : floorCharBoundary b n ≤ n := by
  induction n with
  | zero => exact Nat.le_refl 0
  | succ n ih =>
      rw [floorCharBoundary]
      split
      next => exact Nat.le_refl _
      next => exact Nat.le_succ_of_le ih

theorem isCharBoundary_floor (hzero : Rust.isCharBoundary b 0 = true) (n : Nat) :
    Rust.isCharBoundary b (floorCharBoundary b n) = true := by
  induction n with
  | zero => exact hzero
  | succ n ih =>
      rw [floorCharBoundary]
      split
      next h => exact h
      next => exact ih

/-- What the loop steps over is inside of a character. -/
theorem le_floorCharBoundary (hi : i ≤ n) (h : Rust.isCharBoundary b i = true) :
    i ≤ floorCharBoundary b n := by
  induction n with
  | zero => exact hi
  | succ n ih =>
      rw [floorCharBoundary]
      split
      next => exact hi
      next hinside =>
        have hne : i ≠ n + 1 := by
          rintro rfl
          exact hinside h
        exact ih (by omega)

/-- The position does not underflow, since the loop ends at zero if not before. -/
theorem stepBack_eq (hzero : Rust.isCharBoundary b 0 = true) (n : Nat) :
    stepBack b n = some (floorCharBoundary b n) := by
  induction n with
  | zero => exact if_pos hzero
  | succ n ih =>
      rw [stepBack, floorCharBoundary, ih]
      split
      next => rfl
      next => rfl

/-- `capture_log` does not panic. -/
theorem captureLogChecked_eq (content : String) (limit : Nat) :
    captureLogChecked content limit = some (captureLog content limit) := by
  have hzero := Rust.isCharBoundary_start content
  have hboundary := isCharBoundary_floor hzero limit
  have hlen := Rust.isCharBoundary_le hboundary
  rw [Rust.length_bytes] at hlen
  unfold captureLogChecked captureLog
  split
  next => rfl
  next =>
    rw [stepBack_eq hzero]
    simp only [truncateChecked, if_pos hlen, if_pos hboundary, Option.bind_eq_bind,
      Option.bind_some]
    rfl

theorem longestPrefix_captureLog (content : String) (limit : Nat) :
    LongestPrefix (captureLog content limit).content content limit := by
  unfold captureLog
  split
  next hle =>
    refine ⟨List.prefix_refl _, ?_, hle, ?_⟩
    · rw [← Rust.length_bytes]
      exact Rust.isCharBoundary_length _
    · intro i _ h
      rw [← Rust.length_bytes]
      exact Rust.isCharBoundary_le h
  next =>
    have hboundary := isCharBoundary_floor (Rust.isCharBoundary_start content) limit
    have hlen : Rust.len (Rust.truncate content
        (floorCharBoundary (Rust.bytes content) limit)) =
        floorCharBoundary (Rust.bytes content) limit := by
      rw [← Rust.length_bytes, Rust.bytes_truncate hboundary, List.length_take]
      exact Nat.min_eq_left (Rust.isCharBoundary_le hboundary)
    refine ⟨?_, ?_, ?_, ?_⟩
    · show Rust.bytes (Rust.truncate content _) <+: _
      rw [Rust.bytes_truncate hboundary]
      exact List.take_prefix _ _
    · rw [hlen]
      exact hboundary
    · rw [hlen]
      exact floorCharBoundary_le _ _
    · intro i hi h
      rw [hlen]
      exact le_floorCharBoundary hi h

theorem truncated_captureLog_iff :
    (captureLog content limit).truncated = true ↔ limit < Rust.len content := by
  unfold captureLog
  split
  next hle => exact iff_of_false Bool.false_ne_true (not_lt.mpr hle)
  next hlong => exact iff_of_true rfl (not_le.mp hlong)

end

/-! ## Records -/

/-- The logs of every record are within the limit of its request. -/
theorem logs_buildRecord (request : ExecutionRequest) (startedAtMs : Int) (outcome : RunOutcome)
    (now : Int) :
    Rust.len (buildRecord request startedAtMs outcome now).stdout.content ≤
        request.resources.logBytes ∧
      Rust.len (buildRecord request startedAtMs outcome now).stderr.content ≤
        request.resources.logBytes := by
  have hwithin : ∀ content,
      Rust.len (captureLog content request.resources.logBytes).content ≤
        request.resources.logBytes := fun content => (longestPrefix_captureLog content _).within
  cases outcome with
  | exited output => exact ⟨hwithin _, hwithin _⟩
  | backendFailed message => exact ⟨hwithin _, hwithin _⟩
  | cancelled => exact ⟨hwithin _, hwithin _⟩
  | timedOut => exact ⟨hwithin _, hwithin _⟩

/-- Capturing a log never panics, keeps the longest part that the limit allows and says whether
something is missing, and so both logs of every record are within the limit of the request. -/
theorem log_truncation :
    (∀ content limit,
      captureLogChecked content limit = some (captureLog content limit) ∧
      LongestPrefix (captureLog content limit).content content limit ∧
      ((captureLog content limit).truncated = true ↔ limit < Rust.len content)) ∧
    ∀ request startedAtMs outcome now,
      Rust.len (buildRecord request startedAtMs outcome now).stdout.content ≤
          request.resources.logBytes ∧
        Rust.len (buildRecord request startedAtMs outcome now).stderr.content ≤
          request.resources.logBytes := by
  refine ⟨?_, logs_buildRecord⟩
  intro content limit
  exact ⟨captureLogChecked_eq content limit, longestPrefix_captureLog content limit,
    truncated_captureLog_iff⟩

/-- A limit inside of the first character leaves nothing. -/
example : captureLog "🦀" 3 = ⟨"", true⟩ := by decide

end Cresix.Runner
