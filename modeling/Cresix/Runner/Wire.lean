import Cresix.Runner.Authenticator
import Cresix.Rust.Base64
import Cresix.Rust.SerdeJson

/-!
# The wire of the runner

What a client sends and what it reads: the JSON of the envelopes, the requests
and the responses, and the frames they travel in, one line each.  A frame that
is read is collected from the chunks the socket gives.
-/

namespace Cresix.Runner

open Rust (Uuid toVec)

/-! ## JSON -/

def idJson (id : Uuid) : Json.Value := .str (Rust.hyphenated id)

def ResourcePolicy.toJson (policy : ResourcePolicy) : Json.Value :=
  .obj [("cpu_millis", .num policy.cpuMillis), ("memory_bytes", .num policy.memoryBytes),
    ("disk_bytes", .num policy.diskBytes), ("process_limit", .num policy.processLimit),
    ("timeout_seconds", .num policy.timeoutSeconds), ("log_bytes", .num policy.logBytes)]

def NetworkDestination.toJson (destination : NetworkDestination) : Json.Value :=
  .obj [("host", .str destination.host), ("port", .num destination.port)]

def NetworkPolicy.toJson : NetworkPolicy → Json.Value
  | .denyAll => .obj [("mode", .str "deny_all")]
  | .allowList destinations =>
      .obj [("mode", .str "allow_list"),
        ("destinations", .arr (destinations.map NetworkDestination.toJson))]

def RepositoryWritePolicy.toJson : RepositoryWritePolicy → Json.Value
  | .none => .str "none"
  | .proposal => .str "proposal"

def SimulationPlan.toJson (plan : SimulationPlan) : Json.Value :=
  .obj [("delay_ms", .num plan.delayMs), ("stdout", .str plan.stdout),
    ("stderr", .str plan.stderr), ("exit_code", .int plan.exitCode)]

def ExecutionRequest.toJson (execution : ExecutionRequest) : Json.Value :=
  .obj [("run_id", idJson execution.runId), ("workspace_id", idJson execution.workspaceId),
    ("project_id", idJson execution.projectId), ("revision_sha", .str execution.revisionSha),
    ("manifest_digest", .str execution.manifestDigest),
    ("resources", execution.resources.toJson), ("network", execution.network.toJson),
    ("repository_write", execution.repositoryWrite.toJson),
    ("simulation", execution.simulation.toJson)]

def RunnerCommand.toJson : RunnerCommand → Json.Value
  | .ping => .obj [("type", .str "ping")]
  | .execute execution => .obj [("type", .str "execute"), ("execution", execution.toJson)]
  | .cancel runId => .obj [("type", .str "cancel"), ("run_id", idJson runId)]
  | .inspect runId => .obj [("type", .str "inspect"), ("run_id", idJson runId)]

def RunStatus.name : RunStatus → String
  | .succeeded => "succeeded"
  | .failed => "failed"
  | .cancelled => "cancelled"
  | .timedOut => "timed_out"
  | .interrupted => "interrupted"

def CapturedLog.toJson (log : CapturedLog) : Json.Value :=
  .obj [("content", .str log.content), ("truncated", .bool log.truncated)]

/-- An `Option<i32>`. -/
def exitCodeJson : Option Int → Json.Value
  | some code => .int code
  | none => .null

def RunRecord.toJson (record : RunRecord) : Json.Value :=
  .obj [("request", record.request.toJson), ("status", .str record.status.name),
    ("exit_code", exitCodeJson record.exitCode), ("stdout", record.stdout.toJson),
    ("stderr", record.stderr.toJson), ("started_at_ms", .int record.startedAtMs),
    ("finished_at_ms", .int record.finishedAtMs)]

def ErrorCode.name : ErrorCode → String
  | .authenticationFailed => "authentication_failed"
  | .replayDetected => "replay_detected"
  | .staleRequest => "stale_request"
  | .unsupportedVersion => "unsupported_version"
  | .malformedRequest => "malformed_request"
  | .invalidExecution => "invalid_execution"
  | .idempotencyConflict => "idempotency_conflict"
  | .notFound => "not_found"
  | .persistenceFailed => "persistence_failed"
  | .internal => "internal"

/-- The fields of a body, which are flattened into the response. -/
def ResponseBody.fields : ResponseBody → List (String × Json.Value)
  | .pong => [("type", .str "pong")]
  | .finished record => [("type", .str "finished"), ("record", record.toJson)]
  | .status record =>
      [("type", .str "status"), ("record", (record.map RunRecord.toJson).getD .null)]
  | .cancelAcknowledged alreadyTerminal =>
      [("type", .str "cancel_acknowledged"), ("already_terminal", .bool alreadyTerminal)]
  | .rejected code message =>
      [("type", .str "rejected"), ("code", .str code.name), ("message", .str message)]

/-- `RunnerResponse`. -/
structure RunnerResponse where
  version : Nat
  requestId : Uuid
  body : ResponseBody
deriving DecidableEq, Repr

def RunnerResponse.toJson (response : RunnerResponse) : Json.Value :=
  .obj ([("version", .num response.version), ("request_id", idJson response.requestId)] ++
    response.body.fields)

def SignedEnvelope.toJson (envelope : SignedEnvelope) : Json.Value :=
  .obj [("version", .num envelope.version), ("request_id", idJson envelope.requestId),
    ("issued_at_ms", .int envelope.issuedAtMs), ("nonce", .str envelope.nonce),
    ("payload", .str envelope.payload), ("mac", .str envelope.mac)]

/-! ## Frames -/

/-- The longest frame, in bytes. -/
def maxFrameBytes : Nat := 256 * 1024

/-- The byte that ends a frame. -/
def newline : UInt8 := 0x0a

inductive FrameError where
  | io
  | tooLarge
  | truncated
  | multipleFrames
  | malformed (message : String)
deriving DecidableEq, Repr

/-- `SignedEnvelope::sign`, with the code of the envelope without its code. -/
def SignedEnvelope.sign (computeMac : SignedEnvelope → List UInt8) (requestId : Uuid)
    (issuedAtMs : Int) (nonce : List UInt8) (command : RunnerCommand) : SignedEnvelope :=
  let envelope : SignedEnvelope :=
    ⟨protocolVersion, requestId, issuedAtMs, Rust.Base64.encode nonce,
      Rust.Base64.encode (toVec command.toJson), ""⟩
  { envelope with mac := Rust.Base64.encode (computeMac envelope) }

/-- The frame of `RunnerClient::send`; `none` is `FrameTooLarge`. -/
def sendFrame (envelope : SignedEnvelope) : Option (List UInt8) :=
  let frame := toVec envelope.toJson
  if maxFrameBytes < frame.length then none else some (frame ++ [newline])

/-- What `handle_connection` writes. -/
def responseLine (response : RunnerResponse) : List UInt8 := toVec response.toJson ++ [newline]

/-- `read_frame` after it collected `frame`, on the chunks it still reads; an
empty chunk is the end of the stream. -/
def readFrame (frame : List UInt8) : List (List UInt8) → Except FrameError (List UInt8)
  | [] | [] :: _ => .error .truncated
  | chunk :: chunks =>
      match chunk.idxOf? newline with
      | some position =>
          if position + 1 ≠ chunk.length then .error .multipleFrames
          else
            let frame := frame ++ chunk.take position
            if frame.isEmpty then .error (.malformed "empty frame")
            else if maxFrameBytes < frame.length then .error .tooLarge
            else .ok frame
      | none =>
          let frame := frame ++ chunk
          if maxFrameBytes < frame.length then .error .tooLarge else readFrame frame chunks

end Cresix.Runner
