import Cresix.Runner.Response

/-!
# Frames and reads

`read_frame` reads a stream piece by piece and looks for more bytes behind a
newline only in the piece that holds the newline.  A stream with one frame and
nothing behind it is read alike in whatever pieces it comes.  A second frame is
refused only if its first byte comes with the newline of the first one
(`chunkingIndependent_iff`).

A frame that is far too long is the exception: it is refused before the newline
comes (`sameResult_iff`).
-/

namespace Cresix.Runner

/-- How many bytes a read gives at most. -/
def readBytes : Nat := 4096

/-- A stream comes in reads none of which is empty or longer than the buffer. -/
structure Splits (chunks : List (List UInt8)) (bytes : List UInt8) : Prop where
  flatten : chunks.flatten = bytes
  nonempty : ∀ chunk ∈ chunks, chunk ≠ []
  bounded : ∀ chunk ∈ chunks, chunk.length ≤ readBytes

/-- The stream is read alike in whatever reads it comes. -/
def SameResult (bytes : List UInt8) : Prop :=
  ∀ chunks chunks', Splits chunks bytes → Splits chunks' bytes →
    readFrame [] chunks = readFrame [] chunks'

/-- How a stream is read does not depend on the reads it comes in. -/
structure ChunkingIndependent (bytes : List UInt8) : Prop where
  same : SameResult bytes
  /-- Bytes behind the first newline are refused. -/
  multiple : ∀ line rest, newline ∉ line → rest ≠ [] → bytes = line ++ newline :: rest →
    ∀ chunks, Splits chunks bytes → readFrame [] chunks = .error .multipleFrames
  /-- A frame within the limit is not too large. -/
  within : ∀ line rest, newline ∉ line → line.length ≤ maxFrameBytes →
    bytes = line ++ newline :: rest →
    ∀ chunks, Splits chunks bytes → readFrame [] chunks ≠ .error .tooLarge

section

variable {frame line rest bytes chunk : List UInt8} {chunks : List (List UInt8)}

/-! ## Reads -/

theorem Splits.tail (h : Splits (chunk :: chunks) bytes) : Splits chunks chunks.flatten :=
  ⟨rfl, fun other hmem => h.nonempty other (List.mem_cons_of_mem _ hmem),
    fun other hmem => h.bounded other (List.mem_cons_of_mem _ hmem)⟩

/-- Reads of one byte each. -/
theorem Splits.single (bytes : List UInt8) : Splits (bytes.map fun byte => [byte]) bytes where
  flatten := by
    induction bytes with
    | nil => rfl
    | cons byte bytes ih => simp [ih]
  nonempty := by
    intro chunk hmem
    obtain ⟨byte, -, rfl⟩ := List.mem_map.mp hmem
    exact List.cons_ne_nil byte []
  bounded := by
    intro chunk hmem
    obtain ⟨byte, -, rfl⟩ := List.mem_map.mp hmem
    show 1 ≤ 4096
    decide

theorem Splits.append {front back : List UInt8} {chunks chunks' : List (List UInt8)}
    (h : Splits chunks front) (h' : Splits chunks' back) :
    Splits (chunks ++ chunks') (front ++ back) where
  flatten := by rw [List.flatten_append, h.flatten, h'.flatten]
  nonempty := by
    intro chunk hmem
    exact (List.mem_append.mp hmem).elim (h.nonempty chunk) (h'.nonempty chunk)
  bounded := by
    intro chunk hmem
    exact (List.mem_append.mp hmem).elim (h.bounded chunk) (h'.bounded chunk)

theorem Splits.one (hne : bytes ≠ []) (hle : bytes.length ≤ readBytes) : Splits [bytes] bytes where
  flatten := List.append_nil bytes
  nonempty := by
    intro chunk hmem
    exact List.mem_singleton.mp hmem ▸ hne
  bounded := by
    intro chunk hmem
    exact List.mem_singleton.mp hmem ▸ hle

/-- A stream has a first newline or none. -/
theorem newline_cases (bytes : List UInt8) :
    newline ∉ bytes ∨ ∃ line rest, newline ∉ line ∧ bytes = line ++ newline :: rest := by
  induction bytes with
  | nil => exact .inl List.not_mem_nil
  | cons byte bytes ih =>
      by_cases hbyte : newline = byte
      · exact .inr ⟨[], bytes, List.not_mem_nil, by rw [hbyte]; rfl⟩
      · rcases ih with hnone | ⟨line, rest, hline, rfl⟩
        · exact .inl (List.not_mem_cons_of_ne_of_not_mem hbyte hnone)
        · exact .inr ⟨byte :: line, rest, List.not_mem_cons_of_ne_of_not_mem hbyte hline, rfl⟩

/-- More bytes behind the newline of the same read are refused. -/
theorem readFrame_multiple (hline : newline ∉ line) (hrest : rest ≠ []) :
    readFrame frame ((line ++ newline :: rest) :: chunks) = .error .multipleFrames := by
  have hsome := Search.idxOf?_append_cons hline rest
  have hpos := List.length_pos_iff.mpr hrest
  have hlength : line.length + 1 ≠ (line ++ newline :: rest).length := by
    rw [List.length_append, List.length_cons]
    omega
  rw [readFrame, hsome]
  · exact if_pos hlength
  · exact fun h => absurd (List.append_eq_nil_iff.mp h).2 (List.cons_ne_nil _ _)

/-- A stream without a newline is too large or cut off. -/
theorem readFrame_without (hframe : frame.length ≤ maxFrameBytes) (hsplit : Splits chunks bytes)
    (hnone : newline ∉ bytes) :
    readFrame frame chunks =
      if maxFrameBytes < (frame ++ bytes).length then .error .tooLarge else .error .truncated := by
  obtain rfl := hsplit.flatten
  induction chunks generalizing frame with
  | nil =>
      rw [List.flatten_nil, List.append_nil, if_neg (not_lt.mpr hframe)]
      rfl
  | cons chunk chunks ih =>
      rw [List.flatten_cons, List.mem_append, not_or] at hnone
      rw [readFrame_of_not_mem (hsplit.nonempty chunk List.mem_cons_self) hnone.1,
        List.flatten_cons, ← List.append_assoc]
      split
      next hlarge =>
        rw [if_pos]
        rw [List.length_append]
        omega
      next hsmall => exact ih (not_lt.mp hsmall) hsplit.tail hnone.2

/-- A frame within the limit is not too large, whatever follows it. -/
theorem readFrame_within (hline : newline ∉ line)
    (hle : (frame ++ line).length ≤ maxFrameBytes)
    (hsplit : Splits chunks (line ++ newline :: rest)) :
    readFrame frame chunks ≠ .error .tooLarge := by
  induction chunks generalizing frame line with
  | nil => exact fun h => nomatch h
  | cons chunk chunks ih =>
      have hflatten := hsplit.flatten
      rw [List.flatten_cons] at hflatten
      rcases Search.append_cons_cases hflatten with ⟨later, rfl, hlater⟩ | ⟨taken, rfl, -⟩
      · rw [← List.append_assoc] at hle
        have hchunk : (frame ++ chunk).length ≤ maxFrameBytes := by
          rw [List.length_append] at hle
          omega
        rw [readFrame_of_not_mem (hsplit.nonempty chunk List.mem_cons_self)
          (fun h => hline (List.mem_append_left _ h)), if_neg (not_lt.mpr hchunk)]
        exact ih (fun h => hline (List.mem_append_right _ h)) hle (hlater ▸ hsplit.tail)
      · by_cases htaken : taken = []
        · subst htaken
          rw [readFrame_last hline]
          split
          next => exact fun h => nomatch h
          next =>
            rw [if_neg (not_lt.mpr hle)]
            exact fun h => nomatch h
        · rw [readFrame_multiple hline htaken]
          exact fun h => nomatch h

/-- Reads of one byte each never show a second frame. -/
theorem readFrame_bytewise (hbytes : ∀ chunk ∈ chunks, chunk.length ≤ 1) :
    readFrame frame chunks ≠ .error .multipleFrames := by
  induction chunks generalizing frame with
  | nil => exact fun h => nomatch h
  | cons chunk chunks ih =>
      have hrest : ∀ other ∈ chunks, other.length ≤ 1 := fun other hmem =>
        hbytes other (List.mem_cons_of_mem _ hmem)
      have hchunk := hbytes chunk List.mem_cons_self
      by_cases hmem : newline ∈ chunk
      · obtain ⟨byte, rfl⟩ := List.length_eq_one_iff.mp
          (le_antisymm hchunk (List.length_pos_of_mem hmem))
        obtain rfl := List.mem_singleton.mp hmem
        have hlast := @readFrame_last frame [] chunks List.not_mem_nil
        rw [List.nil_append] at hlast
        rw [hlast]
        split
        next => exact fun h => nomatch h
        next =>
          split
          next => exact fun h => nomatch h
          next => exact fun h => nomatch h
      · by_cases hempty : chunk = []
        · subst hempty
          exact fun h => nomatch h
        · rw [readFrame_of_not_mem hempty hmem]
          split
          next => exact fun h => nomatch h
          next => exact ih hrest

/-- A frame that is too large by a whole read is so in whatever reads it comes. -/
theorem readFrame_oversized (hline : newline ∉ line) (hframe : frame.length ≤ maxFrameBytes)
    (hlarge : maxFrameBytes + readBytes < (frame ++ line).length + 2)
    (hsplit : Splits chunks (line ++ newline :: rest)) :
    readFrame frame chunks = .error .tooLarge := by
  induction chunks generalizing frame line with
  | nil => exact absurd hsplit.flatten.symm (by simp)
  | cons chunk chunks ih =>
      have hflatten := hsplit.flatten
      have hbounded := hsplit.bounded chunk List.mem_cons_self
      rw [List.flatten_cons] at hflatten
      rcases Search.append_cons_cases hflatten with ⟨later, rfl, hlater⟩ | ⟨taken, rfl, -⟩
      · rw [readFrame_of_not_mem (hsplit.nonempty chunk List.mem_cons_self)
          (fun h => hline (List.mem_append_left _ h))]
        split
        next => rfl
        next hsmall =>
          rw [← List.append_assoc] at hlarge
          exact ih (fun h => hline (List.mem_append_right _ h)) (not_lt.mp hsmall) hlarge
            (hlater ▸ hsplit.tail)
      · -- The read with the newline is too short to hold what is too much.
        simp only [List.length_append, List.length_cons] at hlarge hbounded
        by_cases htaken : taken = []
        · subst htaken
          have hmore : maxFrameBytes < (frame ++ line).length := by
            have hread : 2 ≤ readBytes := by decide
            rw [List.length_append]
            omega
          have hempty : ¬ (frame ++ line).isEmpty = true := fun h => by
            rw [List.isEmpty_iff.mp h] at hmore
            exact Nat.not_lt_zero _ hmore
          rw [readFrame_last hline, if_neg hempty, if_pos hmore]
        · have hpos := List.length_pos_iff.mpr htaken
          omega

/-! ## One frame and no more -/

/-- Nothing follows the first newline. -/
theorem length_le_idxOf_iff (hline : newline ∉ line) :
    (line ++ newline :: rest).length ≤ (line ++ newline :: rest).idxOf newline + 1 ↔
      rest = [] := by
  rw [List.idxOf_append_of_notMem hline, List.idxOf_cons_self, List.length_append,
    List.length_cons, ← List.length_eq_zero_iff]
  omega

theorem sameResult_of_not_mem (hnone : newline ∉ bytes) : SameResult bytes := by
  intro chunks chunks' hsplit hsplit'
  rw [readFrame_without (Nat.zero_le _) hsplit hnone,
    readFrame_without (Nat.zero_le _) hsplit' hnone]

theorem sameResult_line (hline : newline ∉ line) : SameResult (line ++ [newline]) := by
  intro chunks chunks' hsplit hsplit'
  rw [readFrame_line hline hsplit.nonempty hsplit.flatten,
    readFrame_line hline hsplit'.nonempty hsplit'.flatten]

/-- Reads without a newline are collected. -/
theorem readFrame_through {front : List UInt8} {chunks' : List (List UInt8)}
    (hfront : newline ∉ front) (hle : (frame ++ front).length ≤ maxFrameBytes)
    (hsplit : Splits chunks front) :
    readFrame frame (chunks ++ chunks') = readFrame (frame ++ front) chunks' := by
  obtain rfl := hsplit.flatten
  induction chunks generalizing frame with
  | nil => rw [List.nil_append, List.flatten_nil, List.append_nil]
  | cons chunk chunks ih =>
      rw [List.flatten_cons] at hfront
      rw [List.flatten_cons, ← List.append_assoc] at hle
      have hchunk : (frame ++ chunk).length ≤ maxFrameBytes := by
        rw [List.length_append] at hle
        omega
      rw [List.cons_append, readFrame_of_not_mem (hsplit.nonempty chunk List.mem_cons_self)
        (fun h => hfront (List.mem_append_left _ h)), if_neg (not_lt.mpr hchunk),
        ih (fun h => hfront (List.mem_append_right _ h)) hle hsplit.tail, List.flatten_cons,
        List.append_assoc]

/-- A second frame is seen in the reads that bring its first byte with the newline. -/
theorem exists_multiple (hline : newline ∉ line) (hrest : rest ≠ [])
    (hle : line.length + 2 ≤ maxFrameBytes + readBytes) :
    ∃ chunks, Splits chunks (line ++ newline :: rest) ∧
      readFrame [] chunks = .error .multipleFrames := by
  obtain ⟨byte, rest, rfl⟩ := List.exists_cons_of_ne_nil hrest
  generalize hcount : line.length - (readBytes - 2) = count
  obtain ⟨front, back, rfl, hfront, hback⟩ : ∃ front back, line = front ++ back ∧
      front.length ≤ maxFrameBytes ∧ back.length + 2 ≤ readBytes := by
    have hread : 2 ≤ readBytes := by decide
    refine ⟨line.take count, line.drop count, (List.take_append_drop count line).symm, ?_, ?_⟩
    · rw [List.length_take]
      omega
    · rw [List.length_drop]
      omega
  have hread : Splits [back ++ newline :: [byte]] (back ++ newline :: [byte]) := by
    refine Splits.one (fun h => nomatch List.append_eq_nil_iff.mp h) ?_
    rw [List.length_append]
    exact hback
  refine ⟨front.map (fun byte => [byte]) ++ ([back ++ newline :: [byte]] ++
    rest.map fun byte => [byte]), ?_, ?_⟩
  · have hsplit := (Splits.single front).append (hread.append (Splits.single rest))
    simpa using hsplit
  · have hcollected := @readFrame_through [] _ front ([back ++ newline :: [byte]] ++
      rest.map fun byte => [byte]) (fun h => hline (List.mem_append_left _ h)) hfront
      (Splits.single front)
    rw [hcollected]
    exact readFrame_multiple (fun h => hline (List.mem_append_right _ h)) (List.cons_ne_nil _ _)

/-- Whether the reads matter, for a stream with a newline. -/
theorem sameResult_iff (hline : newline ∉ line) :
    SameResult (line ++ newline :: rest) ↔
      rest = [] ∨ maxFrameBytes + readBytes < line.length + 2 := by
  constructor
  · intro hsame
    by_contra hcontra
    obtain ⟨hrest, hle⟩ := not_or.mp hcontra
    obtain ⟨chunks, hsplit, hmultiple⟩ := exists_multiple hline hrest (not_lt.mp hle)
    refine readFrame_bytewise ?_ (hsame _ _ (Splits.single _) hsplit |>.trans hmultiple)
    intro chunk hmem
    obtain ⟨byte, -, rfl⟩ := List.mem_map.mp hmem
    exact le_rfl
  · rintro (rfl | hlarge)
    · exact sameResult_line hline
    · intro chunks chunks' hsplit hsplit'
      have hempty : ([] : List UInt8).length ≤ maxFrameBytes := Nat.zero_le _
      rw [readFrame_oversized hline hempty hlarge hsplit,
        readFrame_oversized hline hempty hlarge hsplit']

/-- The reads do not matter if and only if nothing follows the first newline. -/
theorem chunkingIndependent_iff (bytes : List UInt8) :
    ChunkingIndependent bytes ↔ bytes.length ≤ bytes.idxOf newline + 1 := by
  constructor
  · intro hindependent
    rcases newline_cases bytes with hnone | ⟨line, rest, hline, rfl⟩
    · rw [List.idxOf_eq_length_iff.mpr hnone]
      exact Nat.le_succ _
    · rw [length_le_idxOf_iff hline]
      by_contra hrest
      refine readFrame_bytewise ?_ (hindependent.multiple line rest hline hrest rfl _
        (Splits.single _))
      intro chunk hmem
      obtain ⟨byte, -, rfl⟩ := List.mem_map.mp hmem
      exact le_rfl
  · intro hle
    have hlast : ∀ line rest, newline ∉ line → bytes = line ++ newline :: rest → rest = [] := by
      rintro line rest hline rfl
      exact (length_le_idxOf_iff hline).mp hle
    refine ⟨?_, ?_, ?_⟩
    · rcases newline_cases bytes with hnone | ⟨line, rest, hline, rfl⟩
      · exact sameResult_of_not_mem hnone
      · obtain rfl := hlast line rest hline rfl
        exact sameResult_line hline
    · intro line rest hline hrest hbytes
      exact absurd (hlast line rest hline hbytes) hrest
    · rintro line rest hline hwithin rfl chunks hsplit
      exact readFrame_within hline hwithin hsplit

end

/-- Two frames, split behind the first. -/
theorem second_frame_ignored : ¬ ChunkingIndependent (Rust.bytes "{}\n{}\n") := by
  intro hindependent
  have hsplit : Splits [Rust.bytes "{}\n", Rust.bytes "{}\n"] (Rust.bytes "{}\n{}\n") :=
    ⟨by decide +kernel, by decide +kernel, by decide +kernel⟩
  have hmultiple := hindependent.multiple (Rust.bytes "{}") (Rust.bytes "{}\n") (by decide +kernel)
    (by decide +kernel) (by decide +kernel) _ hsplit
  exact absurd hmultiple (by decide +kernel)

end Cresix.Runner
