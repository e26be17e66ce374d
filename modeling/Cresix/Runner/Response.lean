import Cresix.Library.Search
import Cresix.Runner.Idempotency
import Cresix.Runner.Wire

/-!
# The size of a response

A response carries the request back and the two logs with it.  The logs are
bounded before they are written as JSON, the request as it arrives, and the
response not at all.  `FitsResponse` counts its bytes: `response_read_iff` says
that the client reads the responses that fit and no others.
-/

namespace Cresix.Runner

open Rust (Uuid toVec)
open RunnerService (printOk)

/-! ## Reading a line -/

section

variable {frame line : List UInt8} {chunks : List (List UInt8)}

theorem readFrame_of_not_mem {chunk : List UInt8} (hchunk : chunk ≠ []) (h : newline ∉ chunk) :
    readFrame frame (chunk :: chunks) =
      if maxFrameBytes < (frame ++ chunk).length then .error .tooLarge
      else readFrame (frame ++ chunk) chunks := by
  obtain ⟨byte, bytes, rfl⟩ := List.exists_cons_of_ne_nil hchunk
  have hnone : (byte :: bytes).idxOf? newline = none := List.idxOf?_eq_none_iff.mpr h
  rw [readFrame, hnone]
  exact fun h => nomatch h

theorem readFrame_last (h : newline ∉ line) :
    readFrame frame ((line ++ [newline]) :: chunks) =
      if (frame ++ line).isEmpty then .error (.malformed "empty frame")
      else if maxFrameBytes < (frame ++ line).length then .error .tooLarge
      else .ok (frame ++ line) := by
  have hsome : (line ++ [newline]).idxOf? newline = some line.length :=
    Search.idxOf?_append_cons h []
  have hlength : line.length + 1 = (line ++ [newline]).length := by simp
  have htake : (line ++ [newline]).take line.length = line := List.take_left
  rw [readFrame, hsome]
  · dsimp only
    rw [if_neg (not_not.mpr hlength), htake]
  · exact fun h => nomatch List.append_eq_nil_iff.mp h

/-- A line that comes in any chunks is read as if it came in one. -/
theorem readFrame_line (hline : newline ∉ line) (hne : ∀ chunk ∈ chunks, chunk ≠ [])
    (hchunks : chunks.flatten = line ++ [newline]) :
    readFrame frame chunks =
      if (frame ++ line).isEmpty then .error (.malformed "empty frame")
      else if maxFrameBytes < (frame ++ line).length then .error .tooLarge
      else .ok (frame ++ line) := by
  induction chunks generalizing frame line with
  | nil =>
      rw [List.flatten_nil] at hchunks
      exact absurd hchunks.symm (by simp)
  | cons chunk chunks ih =>
      have hchunk : chunk ≠ [] := hne chunk List.mem_cons_self
      have hrest : ∀ other ∈ chunks, other ≠ [] := fun other hmem =>
        hne other (List.mem_cons_of_mem _ hmem)
      rw [List.flatten_cons] at hchunks
      rcases Search.append_cons_cases hchunks with ⟨later, rfl, hlater⟩ | ⟨taken, rfl, hnil⟩
      · have hnot : newline ∉ chunk := fun h => hline (List.mem_append_left _ h)
        have hlast : newline ∉ later := fun h => hline (List.mem_append_right _ h)
        rw [readFrame_of_not_mem hchunk hnot, ih hlast hrest hlater, List.append_assoc]
        -- A frame that is too large stays so.
        split
        next hlarge =>
          have hlonger : maxFrameBytes < (frame ++ (chunk ++ later)).length := by
            rw [← List.append_assoc, List.length_append]
            omega
          have hnonempty : (frame ++ (chunk ++ later)).isEmpty = false := by
            simp [hchunk]
          rw [hnonempty, if_neg (by decide), if_pos hlonger]
        next => rfl
      · obtain ⟨rfl, -⟩ := List.append_eq_nil_iff.mp hnil.symm
        exact readFrame_last hline

end

/-! ## The logs -/

section

variable {content : String} {limit : Nat}

theorem floorCharBoundary_inside {c : Char} {rest : List UInt8} {n : Nat} (h : n < c.utf8Size) :
    floorCharBoundary (String.utf8EncodeChar c ++ rest) n = 0 := by
  induction n with
  | zero => rfl
  | succ n ih =>
      rw [floorCharBoundary, Rust.isCharBoundary_inside (Nat.succ_pos n) h, if_neg (by decide)]
      exact ih (by omega)

theorem floorCharBoundary_after {c : Char} {cs : List Char} (n : Nat) :
    floorCharBoundary (String.utf8EncodeChar c ++ cs.flatMap String.utf8EncodeChar)
      (c.utf8Size + n) =
      c.utf8Size + floorCharBoundary (cs.flatMap String.utf8EncodeChar) n := by
  induction n with
  | zero =>
      have hpos := c.utf8Size_pos
      have hboundary := @Rust.isCharBoundary_after c (cs.flatMap String.utf8EncodeChar) 0
      rw [Rust.isCharBoundary_zero] at hboundary
      obtain ⟨k, hk⟩ : ∃ k, c.utf8Size = k + 1 := ⟨c.utf8Size - 1, by omega⟩
      rw [hk] at hboundary ⊢
      show (if _ then _ else _) = _
      rw [if_pos hboundary]
      rfl
  | succ n ih =>
      rw [← Nat.add_assoc, floorCharBoundary, Nat.add_assoc, Rust.isCharBoundary_after, ih,
        floorCharBoundary]
      split
      next => rfl
      next => rfl

/-- The characters before the boundary are those within the limit. -/
theorem truncateChars_floor (cs : List Char) (n : Nat) :
    Rust.truncateChars cs (floorCharBoundary (cs.flatMap String.utf8EncodeChar) n) =
      Rust.truncateChars cs n := by
  induction cs generalizing n with
  | nil => rfl
  | cons c cs ih =>
      rw [List.flatMap_cons]
      by_cases h : c.utf8Size ≤ n
      · obtain ⟨m, rfl⟩ := Nat.exists_eq_add_of_le h
        rw [floorCharBoundary_after, Rust.truncateChars, Rust.truncateChars,
          if_pos (Nat.le_add_right _ _), if_pos h, Nat.add_sub_cancel_left,
          Nat.add_sub_cancel_left, ih]
      · have hpos := c.utf8Size_pos
        rw [floorCharBoundary_inside (by omega), Rust.truncateChars, Rust.truncateChars,
          if_neg (by omega), if_neg h]

theorem truncateChars_of_le {cs : List Char} {n : Nat} (h : (cs.map Char.utf8Size).sum ≤ n) :
    Rust.truncateChars cs n = cs := by
  induction cs generalizing n with
  | nil => rfl
  | cons c cs ih =>
      rw [List.map_cons, List.sum_cons] at h
      rw [Rust.truncateChars, if_pos (by omega), ih (by omega)]

theorem truncate_of_len_le (h : Rust.len content ≤ limit) :
    Rust.truncate content limit = content := by
  have hsum : (content.toList.map Char.utf8Size).sum ≤ limit := by
    rw [← Json.utf8ByteSize_ofList, String.ofList_toList]
    exact h
  rw [Rust.truncate, truncateChars_of_le hsum, String.ofList_toList]

/-- A captured log is the content within the limit. -/
theorem captureLog_eq : captureLog content limit =
    ⟨Rust.truncate content limit, !decide (Rust.len content ≤ limit)⟩ := by
  unfold captureLog
  split
  next hle =>
    rw [decide_eq_true hle, truncate_of_len_le hle]
    rfl
  next hlong =>
    rw [decide_eq_false hlong, Rust.truncate, Rust.bytes_eq_flatMap, truncateChars_floor]
    rfl

/-- The bytes of a captured log in JSON, but for the names of its fields. -/
def logSize (content : String) (limit : Nat) : Nat :=
  Json.stringSize (Rust.truncate content limit) + if Rust.len content ≤ limit then 5 else 4

theorem size_captureLog : (captureLog content limit).toJson.size = 25 + logSize content limit := by
  have hnames : Json.stringSize "content" = 9 ∧ Json.stringSize "truncated" = 11 := by decide
  rw [captureLog_eq, CapturedLog.toJson, logSize]
  by_cases hle : Rust.len content ≤ limit
  · simp only [Json.Value.size, Json.fieldsSize, hnames, hle]
    simp
    omega
  · simp only [Json.Value.size, Json.fieldsSize, hnames, hle]
    simp
    omega

end

/-! ## The response -/

section

variable {execution : ExecutionRequest} {outcome : RunOutcome}

/-- The bytes that the outcome adds to a record: the status, the exit code and
the logs. -/
def RunOutcome.size (limit : Nat) : RunOutcome → Nat
  | .exited output =>
      (if output.exitCode = 0 then 9 else 6) + output.exitCode.repr.utf8ByteSize +
        logSize output.stdout limit + logSize output.stderr limit
  | .backendFailed message => 22 + logSize message limit
  | .cancelled => 27
  | .timedOut => 27

/-- The response to a finished run, with the request it carries back, has at
most 256 KiB. -/
def FitsResponse (execution : ExecutionRequest) (outcome : RunOutcome)
    (startedAtMs finishedAtMs : Int) : Prop :=
  235 + execution.toJson.size + outcome.size execution.resources.logBytes +
    startedAtMs.repr.utf8ByteSize + finishedAtMs.repr.utf8ByteSize ≤ maxFrameBytes

/-- `SimulationBackend::execute`. -/
def simulationOutput (execution : ExecutionRequest) : BackendOutput :=
  ⟨execution.simulation.exitCode, execution.simulation.stdout, execution.simulation.stderr⟩

theorem logSize_empty (limit : Nat) : logSize "" limit = 7 := by
  have hlen : Rust.len "" ≤ limit := Nat.zero_le limit
  rw [logSize, if_pos hlen]
  rfl

theorem size_record (record : RunRecord) :
    record.toJson.size = 92 + record.request.toJson.size + record.status.name.utf8ByteSize +
      (exitCodeJson record.exitCode).size + record.stdout.toJson.size +
      record.stderr.toJson.size + record.startedAtMs.repr.utf8ByteSize +
      record.finishedAtMs.repr.utf8ByteSize := by
  have hnames : Json.stringSize "request" = 9 ∧ Json.stringSize "status" = 8 ∧
      Json.stringSize "exit_code" = 11 ∧ Json.stringSize "stdout" = 8 ∧
      Json.stringSize "stderr" = 8 ∧ Json.stringSize "started_at_ms" = 15 ∧
      Json.stringSize "finished_at_ms" = 16 := by decide
  have hstatus : Json.stringSize record.status.name = record.status.name.utf8ByteSize + 2 := by
    cases record.status <;> decide
  simp only [RunRecord.toJson, Json.Value.size, Json.fieldsSize, hnames, hstatus]
  omega

theorem size_buildRecord (startedAtMs finishedAtMs : Int) :
    (buildRecord execution startedAtMs outcome finishedAtMs).toJson.size =
      142 + execution.toJson.size + outcome.size execution.resources.logBytes +
        startedAtMs.repr.utf8ByteSize + finishedAtMs.repr.utf8ByteSize := by
  rw [size_record]
  cases outcome with
  | exited output =>
      have hstatus : (if output.exitCode = 0 then RunStatus.succeeded
          else .failed).name.utf8ByteSize = if output.exitCode = 0 then 9 else 6 := by
        split <;> rfl
      simp only [buildRecord, size_captureLog, RunOutcome.size, hstatus, exitCodeJson,
        Json.Value.size]
      omega
  | backendFailed message =>
      have hstatus : RunStatus.interrupted.name.utf8ByteSize = 11 := rfl
      simp only [buildRecord, size_captureLog, RunOutcome.size, hstatus, exitCodeJson,
        Json.Value.size, logSize_empty]
      omega
  | cancelled =>
      have hstatus : RunStatus.cancelled.name.utf8ByteSize = 9 := rfl
      simp only [buildRecord, size_captureLog, RunOutcome.size, hstatus, exitCodeJson,
        Json.Value.size, logSize_empty]
      omega
  | timedOut =>
      have hstatus : RunStatus.timedOut.name.utf8ByteSize = 9 := rfl
      simp only [buildRecord, size_captureLog, RunOutcome.size, hstatus, exitCodeJson,
        Json.Value.size, logSize_empty]
      omega

theorem size_finished (requestId : Uuid) (record : RunRecord) :
    (RunnerResponse.mk protocolVersion requestId (.finished record)).toJson.size =
      93 + record.toJson.size := by
  have hnames : Json.stringSize "version" = 9 ∧ Json.stringSize "request_id" = 12 ∧
      Json.stringSize "type" = 6 ∧ Json.stringSize "finished" = 10 ∧
      Json.stringSize "record" = 8 := by decide
  have hversion : protocolVersion.repr.utf8ByteSize = 1 := by decide
  simp only [RunnerResponse.toJson, ResponseBody.fields, idJson, List.cons_append,
    List.nil_append, Json.Value.size, Json.fieldsSize, hnames, hversion,
    Rust.stringSize_hyphenated]
  omega

/-- The response to a finished run. -/
def finishedResponse (requestId : Uuid) (execution : ExecutionRequest) (startedAtMs : Int)
    (outcome : RunOutcome) (finishedAtMs : Int) : RunnerResponse :=
  ⟨protocolVersion, requestId, .finished (buildRecord execution startedAtMs outcome finishedAtMs)⟩

/-! ## The request -/

/-- The characters of an encoding are not escaped. -/
theorem stringSize_encode (bytes : List UInt8) :
    Json.stringSize (Rust.Base64.encode bytes) = (4 * bytes.length + 2) / 3 + 2 := by
  have hall : ∀ n : Fin 64, Json.escapedSize (Rust.Base64.character n) = 1 := by decide
  rw [Rust.Base64.encode, Json.stringSize_ofList, List.length_map, Rust.Base64.length_sextets]
  intro c hc
  obtain ⟨n, hn, rfl⟩ := List.mem_map.mp hc
  exact hall ⟨n, Rust.Base64.sextets_lt bytes n hn⟩

theorem size_execute (execution : ExecutionRequest) :
    (RunnerCommand.execute execution).toJson.size = 31 + execution.toJson.size := by
  have hnames : Json.stringSize "type" = 6 ∧ Json.stringSize "execute" = 9 ∧
      Json.stringSize "execution" = 11 := by decide
  simp only [RunnerCommand.toJson, Json.Value.size, Json.fieldsSize, hnames]
  omega

/-- The bytes of a signed request. -/
theorem size_sign {computeMac : SignedEnvelope → List UInt8} {requestId : Uuid}
    {issuedAtMs : Int} {nonce : List UInt8} (hmac : ∀ envelope, (computeMac envelope).length = 32)
    (hnonce : nonce.length = 16) :
    (SignedEnvelope.sign computeMac requestId issuedAtMs nonce (.execute execution)).toJson.size =
      179 + (4 * (31 + execution.toJson.size) + 2) / 3 + issuedAtMs.repr.utf8ByteSize := by
  have hnames : Json.stringSize "version" = 9 ∧ Json.stringSize "request_id" = 12 ∧
      Json.stringSize "issued_at_ms" = 14 ∧ Json.stringSize "nonce" = 7 ∧
      Json.stringSize "payload" = 9 ∧ Json.stringSize "mac" = 5 := by decide
  have hversion : protocolVersion.repr.utf8ByteSize = 1 := by decide
  simp only [SignedEnvelope.sign, SignedEnvelope.toJson, idJson, Json.Value.size,
    Json.fieldsSize, hnames, hversion, Rust.stringSize_hyphenated, stringSize_encode, hmac, hnonce,
    Rust.length_toVec, size_execute]
  omega

theorem sendFrame_isSome {envelope : SignedEnvelope} :
    (sendFrame envelope).isSome ↔ envelope.toJson.size ≤ maxFrameBytes := by
  unfold sendFrame
  dsimp only
  rw [Rust.length_toVec]
  split
  next hlarge => exact iff_of_false nofun (by omega)
  next hfits => exact iff_of_true rfl (by omega)

/-- The frame of a request leaves room for logs of 65000 bytes: only longer
ones make a response too large. -/
theorem FitsResponse.of_sent {computeMac : SignedEnvelope → List UInt8} {requestId : Uuid}
    {issuedAtMs startedAtMs finishedAtMs : Int} {nonce : List UInt8}
    (hmac : ∀ envelope, (computeMac envelope).length = 32) (hnonce : nonce.length = 16)
    (hsent : (sendFrame
      (SignedEnvelope.sign computeMac requestId issuedAtMs nonce (.execute execution))).isSome)
    (hsmall : outcome.size execution.resources.logBytes + startedAtMs.repr.utf8ByteSize +
      finishedAtMs.repr.utf8ByteSize ≤ 65000) :
    FitsResponse execution outcome startedAtMs finishedAtMs := by
  rw [sendFrame_isSome, size_sign hmac hnonce] at hsent
  unfold FitsResponse
  unfold maxFrameBytes at *
  omega

end

/-! ## Requests to print -/

/-- A request to print a text. -/
def printText (text : String) : ExecutionRequest :=
  { printOk with
    resources := { printOk.resources with logBytes := maxLogBytes }
    simulation := ⟨0, text, "", 0⟩ }

theorem printText_valid {text : String} (h : Rust.len text ≤ 2 * maxLogBytes) :
    (printText text).Valid := by
  have hrevision : validateRevision printOk.revisionSha = .ok () := by decide
  have hdigest : validateDigest printOk.manifestDigest = .ok () := by decide
  have hresources : (printText "").resources.validate = .ok () := by decide
  have hsimulation : (printText text).simulation.validate (printText "").resources = .ok () := by
    have hexit : ¬¬((-255 : Int) ≤ 0 ∧ (0 : Int) ≤ 255) := by decide
    have hinput : Rust.saturatingAdd (Rust.len text) (Rust.len "") ≤
        min (min (maxLogBytes * 4) Rust.u64Max) (maxLogBytes * 2) := by
      have hempty : Rust.len "" = 0 := rfl
      unfold Rust.saturatingAdd Rust.u64Max
      unfold maxLogBytes at *
      omega
    exact (if_neg (Nat.not_lt.mpr hinput)).trans (if_neg hexit)
  show (do
    validateRevision printOk.revisionSha
    validateDigest printOk.manifestDigest
    (printText "").resources.validate
    NetworkPolicy.denyAll.validate
    (printText text).simulation.validate (printText "").resources) = Except.ok ()
  rw [hrevision, hdigest, hresources, hsimulation]
  rfl

theorem size_printText (text : String) :
    (printText text).toJson.size = 560 + Json.stringSize text := by
  have hnames : Json.stringSize "run_id" = 8 ∧ Json.stringSize "workspace_id" = 14 ∧
      Json.stringSize "project_id" = 12 ∧ Json.stringSize "revision_sha" = 14 ∧
      Json.stringSize "manifest_digest" = 17 ∧ Json.stringSize "resources" = 11 ∧
      Json.stringSize "network" = 9 ∧ Json.stringSize "repository_write" = 18 ∧
      Json.stringSize "simulation" = 12 := by decide
  have hplan : Json.stringSize "delay_ms" = 10 ∧ Json.stringSize "stdout" = 8 ∧
      Json.stringSize "stderr" = 8 ∧ Json.stringSize "exit_code" = 11 ∧
      Json.stringSize "" = 2 := by decide
  have hdigits : (0 : Nat).repr.utf8ByteSize = 1 ∧ (0 : Int).repr.utf8ByteSize = 1 := by decide
  have hrevision : Json.stringSize printOk.revisionSha = 42 := by decide
  have hdigest : Json.stringSize printOk.manifestDigest = 73 := by decide
  have hresources : (printText "").resources.toJson.size = 122 := by decide
  have hnetwork : NetworkPolicy.denyAll.toJson.size = 19 := by decide
  have hwrite : RepositoryWritePolicy.none.toJson.size = 6 := by decide
  have hsimulation : (printText text).simulation.toJson.size = 50 + Json.stringSize text := by
    show (SimulationPlan.toJson ⟨0, text, "", 0⟩).size = _
    simp only [SimulationPlan.toJson, Json.Value.size, Json.fieldsSize, hplan, hdigits]
    omega
  show (ExecutionRequest.toJson ⟨1, 2, 3, printOk.revisionSha, printOk.manifestDigest,
    (printText "").resources, .denyAll, .none, (printText text).simulation⟩).size = _
  simp only [ExecutionRequest.toJson, idJson, Json.Value.size, Json.fieldsSize, hnames,
    Rust.stringSize_hyphenated, hrevision, hdigest, hresources, hnetwork, hwrite, hsimulation]
  omega

theorem size_printed (text : String) (limit : Nat) :
    (RunOutcome.exited (simulationOutput (printText text))).size limit =
      17 + logSize text limit := by
  have hdigits : (0 : Int).repr.utf8ByteSize = 1 := by decide
  show 9 + (0 : Int).repr.utf8ByteSize + logSize text limit + logSize "" limit = _
  rw [hdigits, logSize_empty]
  omega

/-- A text of some letters. -/
def letters (n : Nat) : String := String.ofList (List.replicate n 'a')

theorem len_letters (n : Nat) : Rust.len (letters n) = n := by
  have hsize : ∀ c ∈ List.replicate n 'a', c.utf8Size = 1 := by
    intro c hc
    rw [List.eq_of_mem_replicate hc]
    rfl
  rw [letters, Rust.len, Json.utf8ByteSize_ofList, Json.sum_map_eq_length hsize,
    List.length_replicate]

theorem stringSize_letters (n : Nat) : Json.stringSize (letters n) = n + 2 := by
  rw [letters, Json.stringSize_ofList, List.length_replicate]
  intro c hc
  rw [List.eq_of_mem_replicate hc]
  rfl

theorem logSize_letters {n limit : Nat} (h : n ≤ limit) : logSize (letters n) limit = n + 7 := by
  have hlen : Rust.len (letters n) ≤ limit := by rwa [len_letters]
  rw [logSize, truncate_of_len_le hlen, if_pos hlen, stringSize_letters]

/-! ## What the client reads -/

/-- The text of the response is no longer than a frame, and the client reads
it from the chunks. -/
def RunnerResponse.ReadFrom (response : RunnerResponse) (chunks : List (List UInt8)) : Prop :=
  (toVec response.toJson).length ≤ maxFrameBytes ∧
    readFrame [] chunks = .ok (toVec response.toJson)

theorem readFrom_iff {response : RunnerResponse} {chunks : List (List UInt8)}
    (hne : ∀ chunk ∈ chunks, chunk ≠ []) (hchunks : chunks.flatten = responseLine response) :
    response.ReadFrom chunks ↔ response.toJson.size ≤ maxFrameBytes := by
  have hline : newline ∉ toVec response.toJson := Rust.not_mem_toVec (by decide)
  have hread := @readFrame_line [] _ _ hline hne hchunks
  have hlength := Rust.length_toVec response.toJson
  have hnonempty : (toVec response.toJson).isEmpty = false := by
    have hpos : 0 < response.toJson.size := by
      rw [RunnerResponse.toJson, Json.Value.size]
      omega
    rw [List.isEmpty_eq_false_iff]
    exact List.ne_nil_of_length_pos (hlength ▸ hpos)
  rw [List.nil_append, hnonempty, if_neg (by decide), hlength] at hread
  unfold RunnerResponse.ReadFrom
  rw [hlength, hread]
  constructor
  · exact fun h => h.1
  · intro hle
    exact ⟨hle, if_neg (by omega)⟩

/-- The client reads the response to a finished run if and only if it fits. -/
theorem response_read_iff (requestId : Uuid) (execution : ExecutionRequest)
    (outcome : RunOutcome) (startedAtMs finishedAtMs : Int) (chunks : List (List UInt8))
    (hne : ∀ chunk ∈ chunks, chunk ≠ [])
    (hchunks : chunks.flatten =
      responseLine (finishedResponse requestId execution startedAtMs outcome finishedAtMs)) :
    (finishedResponse requestId execution startedAtMs outcome finishedAtMs).ReadFrom chunks ↔
      FitsResponse execution outcome startedAtMs finishedAtMs := by
  rw [readFrom_iff hne hchunks, finishedResponse, size_finished, size_buildRecord, FitsResponse]
  omega

/-- The response to the request to print `ok` fits. -/
theorem response_read_printText :
    (finishedResponse 1 (printText "ok") 1000 (.exited (simulationOutput (printText "ok")))
      2000).ReadFrom
      [responseLine (finishedResponse 1 (printText "ok") 1000
        (.exited (simulationOutput (printText "ok"))) 2000)] := by
  refine (response_read_iff 1 (printText "ok") _ 1000 2000 _ ?_ List.flatten_singleton).mpr ?_
  · intro chunk hchunk
    rw [List.mem_singleton.mp hchunk, responseLine]
    exact List.append_ne_nil_of_right_ne_nil _ (List.cons_ne_nil _ _)
  · have hsize : 235 + (560 + Json.stringSize "ok") + (17 + logSize "ok" maxLogBytes) +
        (1000 : Int).repr.utf8ByteSize + (2000 : Int).repr.utf8ByteSize ≤ maxFrameBytes := by
      decide
    rw [FitsResponse, size_printText, size_printed]
    exact hsize

/-- The request of a text of 140000 letters is valid and sent, and its response
is too large for the client that sent it. -/
theorem response_too_large :
    (printText (letters 140000)).Valid ∧
      (sendFrame (SignedEnvelope.sign (fun _ => List.replicate 32 0) 1 1000
        (List.replicate 16 0) (.execute (printText (letters 140000))))).isSome ∧
      ∀ chunks : List (List UInt8), (∀ chunk ∈ chunks, chunk ≠ []) →
        chunks.flatten = responseLine (finishedResponse 1 (printText (letters 140000)) 1000
          (.exited (simulationOutput (printText (letters 140000)))) 2000) →
        ¬(finishedResponse 1 (printText (letters 140000)) 1000
          (.exited (simulationOutput (printText (letters 140000)))) 2000).ReadFrom chunks := by
  have hlen := len_letters 140000
  have hsize := stringSize_letters 140000
  have hrequest := size_printText (letters 140000)
  refine ⟨printText_valid ?_, ?_, fun chunks hne hchunks hread => ?_⟩
  · rw [hlen]
    decide
  · have hdigits : (1000 : Int).repr.utf8ByteSize = 4 := by decide
    rw [sendFrame_isSome, size_sign (fun _ => List.length_replicate) List.length_replicate,
      hrequest, hsize, hdigits]
    decide
  · rw [readFrom_iff hne hchunks, finishedResponse, size_finished, size_buildRecord, hrequest,
      hsize] at hread
    have hlog : logSize (letters 140000) maxLogBytes = 140007 := logSize_letters (by decide)
    have hlimit : (printText (letters 140000)).resources.logBytes = maxLogBytes := rfl
    rw [size_printed, hlimit, hlog] at hread
    unfold maxFrameBytes at hread
    omega

end Cresix.Runner
