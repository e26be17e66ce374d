import Cresix.Git.Backend

/-!
# Bounded reading

`read_bounded` reads a stream to its end, in whatever chunks it comes, and
keeps what is within a limit.  A chunk that crosses the limit is left out as a
whole and raises a flag, and from then on nothing is added, so what is kept is
always the beginning of what was read (`Buffer.Kept`).  The reader thread of
the backend is this loop, one chunk a turn (`reader_of_reachable`).
-/

namespace Cresix.Git

open Transition (System)

/-- The size of the `chunk` of `read_bounded`. -/
def chunkSize : Nat := 16 * 1024

/-- What `read_bounded` holds: its `bytes` and the flag. -/
structure Buffer where
  bytes : List UInt8
  overflow : Bool
deriving DecidableEq, Repr

/-- What a call of `read` comes to. -/
inductive ReadResult where
  /-- Some bytes, and none at the end of the stream. -/
  | gave (chunk : List UInt8)
  | failed
deriving DecidableEq, Repr

/-- What `read_bounded` comes to, and what it has not read. -/
structure Reading where
  result : Except SmartHttpError (List UInt8)
  overflow : Bool
  unread : List ReadResult
deriving DecidableEq

/-- The body of the loop, for a chunk. -/
def Buffer.take (limit : Nat) (buffer : Buffer) (chunk : List UInt8) : Buffer :=
  -- A vector is never so long that `saturating_add` saturates (`takeSaturating_eq`).
  if limit < buffer.bytes.length + chunk.length then { buffer with overflow := true }
  else if !buffer.overflow then { buffer with bytes := buffer.bytes ++ chunk }
  else buffer

/-- The loop of `read_bounded`; without an end of the stream there is no result. -/
def readLoop (limit : Nat) : Buffer → List ReadResult → Option Reading
  | _, [] => none
  | buffer, .failed :: reads => some ⟨.error .backendFailed, buffer.overflow, reads⟩
  | buffer, .gave chunk :: reads =>
      if chunk.isEmpty then some ⟨.ok buffer.bytes, buffer.overflow, reads⟩
      else readLoop limit (buffer.take limit chunk) reads

/-- `read_bounded`, with the flag that it is given. -/
def readBounded (limit : Nat) (overflow : Bool) (reads : List ReadResult) : Option Reading :=
  readLoop limit ⟨[], overflow⟩ reads

/-- A way to read a stream. -/
structure ChunksOf (stream : List UInt8) (chunks : List (List UInt8)) : Prop where
  nonempty : ∀ chunk ∈ chunks, chunk ≠ []
  fits : ∀ chunk ∈ chunks, chunk.length ≤ chunkSize
  flatten : chunks.flatten = stream

/-! ## The addition that saturates -/

/-- `isize::MAX` on the 64-bit targets: no vector has more bytes. -/
def isizeMax : Nat := 9223372036854775807

/-- The body of the loop with its `saturating_add`. -/
def Buffer.takeSaturating (limit : Nat) (buffer : Buffer) (chunk : List UInt8) : Buffer :=
  if limit < Rust.saturatingAdd buffer.bytes.length chunk.length then
    { buffer with overflow := true }
  else if !buffer.overflow then { buffer with bytes := buffer.bytes ++ chunk }
  else buffer

section

variable {limit : Nat} {buffer : Buffer} {read stream chunk : List UInt8}
  {chunks : List (List UInt8)} {later : List ReadResult}

theorem Buffer.takeSaturating_eq (hbytes : buffer.bytes.length ≤ isizeMax)
    (hchunk : chunk.length ≤ chunkSize) :
    buffer.takeSaturating limit chunk = buffer.take limit chunk := by
  have hsum : Rust.saturatingAdd buffer.bytes.length chunk.length =
      buffer.bytes.length + chunk.length := by
    unfold Rust.saturatingAdd Rust.u64Max
    unfold isizeMax at hbytes
    unfold chunkSize at hchunk
    omega
  rw [takeSaturating, hsum, take]

/-! ## What is kept -/

/-- What the loop keeps of the bytes that it has read. -/
structure Buffer.Kept (limit : Nat) (buffer : Buffer) (read : List UInt8) : Prop where
  front : buffer.bytes <+: read
  within : buffer.bytes.length ≤ limit
  overflow : buffer.overflow = true ↔ limit < read.length
  whole : buffer.overflow = false → buffer.bytes = read

theorem Buffer.Kept.start (limit : Nat) : Buffer.Kept limit ⟨[], false⟩ [] where
  front := List.prefix_refl []
  within := Nat.zero_le limit
  overflow := iff_of_false Bool.false_ne_true (Nat.not_lt_zero limit)
  whole _ := rfl

/-- The step lemma. -/
theorem Buffer.Kept.take (h : buffer.Kept limit read) (chunk : List UInt8) :
    (buffer.take limit chunk).Kept limit (read ++ chunk) := by
  have hlength := h.front.length_le
  have hlonger : buffer.bytes <+: read ++ chunk := h.front.trans (List.prefix_append read chunk)
  have hsum := @List.length_append _ read chunk
  unfold Buffer.take
  split
  next hover =>
    exact ⟨hlonger, h.within, iff_of_true rfl (by omega), fun hflag => by cases hflag⟩
  next hfits =>
    split
    next hflag =>
      have hflag : buffer.overflow = false := by simpa using hflag
      have hwhole := h.whole hflag
      refine ⟨?_, ?_, ?_, fun _ => ?_⟩
      · show buffer.bytes ++ chunk <+: read ++ chunk
        rw [hwhole]
      · show (buffer.bytes ++ chunk).length ≤ limit
        rw [List.length_append]
        omega
      · rw [hwhole] at hfits
        exact iff_of_false (by simp [hflag]) (by omega)
      · rw [hwhole]
    next hflag =>
      have hflag : buffer.overflow = true := by simpa using hflag
      have hlong := h.overflow.mp hflag
      refine ⟨hlonger, h.within, iff_of_true hflag (by omega), fun hdown => ?_⟩
      rw [hflag] at hdown
      cases hdown

/-- The loop lemma, by induction on the chunks. -/
theorem Buffer.Kept.foldl (h : buffer.Kept limit read) (chunks : List (List UInt8)) :
    (chunks.foldl (Buffer.take limit) buffer).Kept limit (read ++ chunks.flatten) := by
  induction chunks generalizing buffer read with
  | nil => simpa using h
  | cons chunk chunks ih =>
      rw [List.foldl_cons, List.flatten_cons, ← List.append_assoc]
      exact ih (h.take chunk)

/-- The loop takes each chunk, and stops at the end of the stream. -/
theorem readLoop_eq (buffer : Buffer) (hne : ∀ chunk ∈ chunks, chunk ≠ []) :
    readLoop limit buffer (chunks.map .gave ++ .gave [] :: later) =
      some ⟨.ok (chunks.foldl (Buffer.take limit) buffer).bytes,
        (chunks.foldl (Buffer.take limit) buffer).overflow, later⟩ := by
  induction chunks generalizing buffer with
  | nil => rfl
  | cons chunk chunks ih =>
      obtain ⟨hchunk, hchunks⟩ := List.forall_mem_cons.mp hne
      rw [List.map_cons, List.cons_append, readLoop, if_neg (by simpa using hchunk),
        List.foldl_cons]
      exact ih (buffer.take limit chunk) hchunks

/-! ## The reader of the backend -/

variable {status : Option Nat} {output bytes : List UInt8} {s t : Exec} {turn : Exec.Turn}

/-- The thread has read some chunks of the output as `read_bounded` does. -/
structure ReadsChunks (limit : Nat) (output : List UInt8) (s : Exec)
    (chunks : List (List UInt8)) : Prop where
  nonempty : ∀ chunk ∈ chunks, chunk ≠ []
  fits : ∀ chunk ∈ chunks, chunk.length ≤ chunkSize
  buffer : chunks.foldl (Buffer.take limit) ⟨[], false⟩ = ⟨s.kept, s.overflow⟩
  output : chunks.flatten ++ (s.pipe ++ s.unwritten) = output
  returned : ∀ bytes, s.stdout = some (.ok bytes) → bytes = s.kept

theorem exec_take_eq (limit : Nat) (s : Exec) (n : Nat) :
    s.take limit n = { s with
      pipe := s.pipe.drop n
      kept := (Buffer.take limit ⟨s.kept, s.overflow⟩ (s.pipe.take n)).bytes
      overflow := (Buffer.take limit ⟨s.kept, s.overflow⟩ (s.pipe.take n)).overflow } := by
  unfold Exec.take Buffer.take
  dsimp only
  split
  next => rfl
  next =>
    split
    next => rfl
    next => rfl

/-- The other turns do not concern the reader. -/
theorem ReadsChunks.frame (h : ReadsChunks limit output s chunks) (hkept : t.kept = s.kept)
    (hoverflow : t.overflow = s.overflow)
    (hleft : t.pipe ++ t.unwritten = s.pipe ++ s.unwritten)
    (hreturned : ∀ bytes, t.stdout = some (.ok bytes) → bytes = s.kept) :
    ReadsChunks limit output t chunks where
  nonempty := h.nonempty
  fits := h.fits
  buffer := by rw [hkept, hoverflow, h.buffer]
  output := by rw [hleft, h.output]
  returned := by
    rw [hkept]
    exact hreturned

/-- One more read is one more chunk. -/
theorem ReadsChunks.snoc (h : ReadsChunks limit output s chunks) {n : Nat}
    (hopen : s.stdout = none) (hpos : 0 < n) (hn : n ≤ chunkSize) (hpipe : n ≤ s.pipe.length) :
    ReadsChunks limit output (s.take limit n) (chunks ++ [s.pipe.take n]) := by
  have hlength : (s.pipe.take n).length = n := by
    rw [List.length_take, Nat.min_eq_left hpipe]
  rw [exec_take_eq]
  refine ⟨?_, ?_, ?_, ?_, ?_⟩
  · intro chunk hchunk
    rcases List.mem_append.mp hchunk with hchunk | hchunk
    · exact h.nonempty chunk hchunk
    · rw [List.mem_singleton.mp hchunk]
      exact List.ne_nil_of_length_pos (by omega)
  · intro chunk hchunk
    rcases List.mem_append.mp hchunk with hchunk | hchunk
    · exact h.fits chunk hchunk
    · rw [List.mem_singleton.mp hchunk]
      omega
  · rw [List.foldl_append, h.buffer]
    rfl
  · rw [List.flatten_append, List.flatten_singleton, List.append_assoc, ← List.append_assoc _ _
      s.unwritten, List.take_append_drop, h.output]
  · intro bytes hbytes
    rw [hopen] at hbytes
    cases hbytes

theorem ReadsChunks.step (h : ReadsChunks limit output s chunks)
    (hstep : s.step limit status turn = some t) : ∃ chunks, ReadsChunks limit output t chunks := by
  cases Exec.Turned.of_step hstep with
  | write alive spared left =>
      refine ⟨chunks, h.frame rfl rfl ?_ h.returned⟩
      simp
  | exit written spared => exact ⟨chunks, h.frame rfl rfl rfl h.returned⟩
  | read reading some fits there => exact ⟨_, h.snoc reading some fits there⟩
  | endOfFile reading empty closed =>
      refine ⟨chunks, h.frame rfl rfl rfl ?_⟩
      rintro bytes ⟨⟩
      rfl
  | readFails reading =>
      refine ⟨chunks, h.frame rfl rfl rfl ?_⟩
      rintro bytes ⟨⟩
  | raised polling flag => exact ⟨chunks, h.frame rfl rfl rfl h.returned⟩
  | down polling flag => exact ⟨chunks, h.frame rfl rfl rfl h.returned⟩
  | found polling exited => exact ⟨chunks, h.frame rfl rfl rfl h.returned⟩
  | late polling running => exact ⟨chunks, h.frame rfl rfl rfl h.returned⟩
  | again polling running => exact ⟨chunks, h.frame rfl rfl rfl h.returned⟩
  | tryWaitFails polling => exact ⟨chunks, h.frame rfl rfl rfl h.returned⟩

/-- What the reader thread returns is what `read_bounded` makes of the beginning of the output. -/
theorem reader_of_reachable (h : (Exec.system limit status output).Reachable s)
    (hreturned : s.stdout = some (.ok bytes)) :
    ∃ stream chunks, ChunksOf stream chunks ∧ stream <+: output ∧
      readBounded limit false (chunks.map .gave ++ [.gave []]) =
        some ⟨.ok bytes, s.overflow, []⟩ := by
  have hreads : ∃ chunks, ReadsChunks limit output s chunks := by
    refine System.Reachable.invariant (I := fun s => ∃ chunks, ReadsChunks limit output s chunks)
      ?_ ?_ h
    · rintro s rfl
      exact ⟨[], ⟨fun chunk hchunk => absurd hchunk List.not_mem_nil,
        fun chunk hchunk => absurd hchunk List.not_mem_nil, rfl, rfl,
        fun bytes hbytes => by cases hbytes⟩⟩
    · rintro s turn t ⟨chunks, hchunks⟩ hstep
      exact hchunks.step hstep
  obtain ⟨chunks, hchunks⟩ := hreads
  refine ⟨chunks.flatten, chunks, ⟨hchunks.nonempty, hchunks.fits, rfl⟩, ⟨_, hchunks.output⟩, ?_⟩
  rw [readBounded, readLoop_eq _ hchunks.nonempty, hchunks.buffer, hchunks.returned _ hreturned]

end

/-- However a stream is split, it is read to its end and no further.  What is returned is its
beginning, within the limit.  The flag says whether the stream is longer than the limit, and
without it everything is returned.  No sum of the code saturates. -/
theorem read_bounded_keeps (limit : Nat) :
    (∀ stream chunks later, ChunksOf stream chunks →
      ∃ bytes overflow, readBounded limit false (chunks.map .gave ++ .gave [] :: later) =
          some ⟨.ok bytes, overflow, later⟩ ∧
        bytes <+: stream ∧ bytes.length ≤ limit ∧
        (overflow = true ↔ limit < stream.length) ∧ (overflow = false → bytes = stream)) ∧
    ∀ (buffer : Buffer) (chunk : List UInt8), buffer.bytes.length ≤ isizeMax →
      chunk.length ≤ chunkSize →
      buffer.takeSaturating limit chunk = buffer.take limit chunk := by
  constructor
  · intro stream chunks later hchunks
    have hkept := (Buffer.Kept.start limit).foldl chunks
    rw [List.nil_append, hchunks.flatten] at hkept
    exact ⟨_, _, readLoop_eq _ hchunks.nonempty, hkept.front, hkept.within, hkept.overflow,
      hkept.whole⟩
  · intro buffer chunk hbytes hchunk
    exact Buffer.takeSaturating_eq hbytes hchunk

/-- A chunk that would fit again is not appended behind one that was left out. -/
example : readBounded 4 false [.gave [1, 2, 3], .gave [4, 5], .gave [6], .gave []] =
    some ⟨.ok [1, 2, 3], true, []⟩ := by decide

end Cresix.Git
