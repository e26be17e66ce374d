import Cresix.Rust.Text

/-!
# Execution requests

What a runner is asked to do and the checks a request passes before anything
is stored or started.  The checks run in the order of the source, so a request
with several faults is refused for the first of them.
-/

namespace Cresix.Runner

open Rust (Uuid)

/-! ## Limits -/

/-- The bytes of one captured log. -/
def maxLogBytes : Nat := 1024 * 1024

/-- The longest timeout. -/
def maxTimeoutSeconds : Nat := 3600

/-- Why a request is refused. -/
inductive ValidationError where
  | nilIdentifier
  | invalidRevision
  | invalidDigest
  | resourceOutOfRange (resource : String)
  | invalidNetworkPolicy
  | invalidDestination
  | blockedDestination
  | simulationInputTooLarge
  | invalidExitCode
deriving DecidableEq, Repr

/-- The text of the error, as `thiserror` displays it. -/
def ValidationError.message : ValidationError → String
  | .nilIdentifier => "run, workspace, and project identifiers must be non-nil"
  | .invalidRevision => "revision must be a full lowercase SHA-1 or SHA-256 object ID"
  | .invalidDigest => "digest must be pinned as sha256:<64 lowercase hex characters>"
  | .resourceOutOfRange resource => "resource " ++ resource ++ " is outside runner limits"
  | .invalidNetworkPolicy => "network allow list must contain between 1 and 32 destinations"
  | .invalidDestination => "network destination must be a lowercase hostname and nonzero port"
  | .blockedDestination =>
      "network destination targets a protected local or metadata address"
  | .simulationInputTooLarge => "simulation log input exceeds the accepted request bound"
  | .invalidExitCode => "simulation exit code is outside the supported range"

/-! ## Git identifiers -/

/-- A byte of a lowercase hexadecimal number. -/
def isLowerHex (byte : UInt8) : Bool :=
  Rust.isAsciiDigit byte || (0x61 ≤ byte && byte ≤ 0x66)

/-- `validate_revision`. -/
def validateRevision (value : String) : Except ValidationError Unit :=
  if (Rust.len value = 40 ∨ Rust.len value = 64) ∧ (Rust.bytes value).all isLowerHex then
    .ok ()
  else .error .invalidRevision

/-- `validate_digest`. -/
def validateDigest (value : String) : Except ValidationError Unit :=
  let tag := Rust.bytes "sha256:"
  if tag.isPrefixOf (Rust.bytes value) then
    let hex := (Rust.bytes value).drop tag.length
    if hex.length = 64 ∧ hex.all isLowerHex then .ok () else .error .invalidDigest
  else .error .invalidDigest

/-! ## Resources -/

/-- What a run may use. -/
structure ResourcePolicy where
  cpuMillis : Nat
  memoryBytes : Nat
  diskBytes : Nat
  processLimit : Nat
  timeoutSeconds : Nat
  logBytes : Nat
deriving DecidableEq, Repr

/-- One range check of `ResourcePolicy::validate`. -/
def checkRange (resource : String) (low high value : Nat) : Except ValidationError Unit :=
  if low ≤ value ∧ value ≤ high then .ok () else .error (.resourceOutOfRange resource)

/-- `ResourcePolicy::validate`. -/
def ResourcePolicy.validate (policy : ResourcePolicy) : Except ValidationError Unit := do
  checkRange "cpu_millis" 10 4000 policy.cpuMillis
  checkRange "memory_bytes" (16 * 1024 * 1024) (4 * 1024 * 1024 * 1024) policy.memoryBytes
  checkRange "disk_bytes" (1024 * 1024) (20 * 1024 * 1024 * 1024) policy.diskBytes
  checkRange "process_limit" 1 512 policy.processLimit
  checkRange "timeout_seconds" 1 maxTimeoutSeconds policy.timeoutSeconds
  checkRange "log_bytes" 1024 maxLogBytes policy.logBytes

/-! ## Network destinations -/

/-- A host and port a run may connect to. -/
structure NetworkDestination where
  host : String
  port : Nat
deriving DecidableEq, Repr

/-- A decimal number of at most three digits, without leading zeros, that fits
a byte. -/
def parseOctet (digits : List UInt8) : Option Nat :=
  if digits.isEmpty ∨ 3 < digits.length ∨ !digits.all Rust.isAsciiDigit then none
  else if 1 < digits.length ∧ digits.head? = some 0x30 then none
  else
    let value := digits.foldl (fun n digit => n * 10 + (digit.toNat - 0x30)) 0
    if value ≤ 255 then some value else none

/-- The groups of a text between its dots. -/
def splitDots : List UInt8 → List (List UInt8)
  | [] => [[]]
  | byte :: rest =>
      if byte = 0x2e then [] :: splitDots rest
      else match splitDots rest with
        | [] => [[byte]]
        | group :: groups => (byte :: group) :: groups

/-- `str::parse::<IpAddr>` on a text without a colon, which is never an IPv6
address. -/
def parseIpAddr (host : List UInt8) : Option (Nat × Nat × Nat × Nat) :=
  match splitDots host with
  | [a, b, c, d] => do
      return (← parseOctet a, ← parseOctet b, ← parseOctet c, ← parseOctet d)
  | _ => none

/-- `Ipv4Addr::is_private`, `is_loopback`, `is_link_local`, `is_unspecified` or
`is_multicast`. -/
def isProtected : Nat × Nat × Nat × Nat → Bool
  | (a, b, c, d) =>
      (a = 10 ∨ (a = 172 ∧ 16 ≤ b ∧ b ≤ 31) ∨ (a = 192 ∧ b = 168)) ∨ a = 127
        ∨ (a = 169 ∧ b = 254) ∨ (a = 0 ∧ b = 0 ∧ c = 0 ∧ d = 0) ∨ (224 ≤ a ∧ a ≤ 239)

/-- Hosts that are refused by name. -/
def blockedHosts : List String :=
  ["localhost", "localhost.localdomain", "metadata.google.internal", "169.254.169.254",
   "127.0.0.1", "::1"]

/-- A byte of a host name. -/
def isHostByte (byte : UInt8) : Bool :=
  Rust.isAsciiLowercase byte || Rust.isAsciiDigit byte || byte == 0x2d || byte == 0x2e

/-- `NetworkDestination::validate`. -/
def NetworkDestination.validate (destination : NetworkDestination) :
    Except ValidationError Unit :=
  let host := destination.host
  if destination.port = 0 ∨ host.isEmpty ∨ 253 < Rust.len host
      ∨ Rust.bytes host ≠ Rust.toAsciiLowercase (Rust.bytes host)
      ∨ Rust.startsWith host "." ∨ Rust.endsWith host "." ∨ Rust.contains host ".."
      ∨ Rust.contains host "*" ∨ !(Rust.bytes host).all isHostByte then
    .error .invalidDestination
  else if host ∈ blockedHosts then .error .blockedDestination
  else match parseIpAddr (Rust.bytes host) with
    | some address => if isProtected address then .error .blockedDestination else .ok ()
    | none => .ok ()

/-- What a run may connect to. -/
inductive NetworkPolicy where
  | denyAll
  | allowList (destinations : List NetworkDestination)
deriving DecidableEq, Repr

/-- `NetworkPolicy::validate`. -/
def NetworkPolicy.validate : NetworkPolicy → Except ValidationError Unit
  | .denyAll => .ok ()
  | .allowList destinations =>
      if destinations.isEmpty ∨ 32 < destinations.length then .error .invalidNetworkPolicy
      else destinations.forM NetworkDestination.validate

/-- Whether a run may propose changes to its repository. -/
inductive RepositoryWritePolicy where
  | none
  | proposal
deriving DecidableEq, Repr

/-! ## Requests -/

/-- What the simulation backend is told to do. -/
structure SimulationPlan where
  delayMs : Nat
  stdout : String
  stderr : String
  exitCode : Int
deriving DecidableEq, Repr

/-- `SimulationPlan::validate`. -/
def SimulationPlan.validate (plan : SimulationPlan) (resources : ResourcePolicy) :
    Except ValidationError Unit :=
  let inputBytes := Rust.saturatingAdd (Rust.len plan.stdout) (Rust.len plan.stderr)
  if min (min (resources.logBytes * 4) Rust.u64Max) (maxLogBytes * 2) < inputBytes then
    .error .simulationInputTooLarge
  else if ¬(-255 ≤ plan.exitCode ∧ plan.exitCode ≤ 255) then .error .invalidExitCode
  else .ok ()

/-- A request to run something. -/
structure ExecutionRequest where
  runId : Uuid
  workspaceId : Uuid
  projectId : Uuid
  /-- The full lowercase object identifier of the revision. -/
  revisionSha : String
  /-- The digest of the manifest the request was resolved with. -/
  manifestDigest : String
  resources : ResourcePolicy
  network : NetworkPolicy
  repositoryWrite : RepositoryWritePolicy
  simulation : SimulationPlan
deriving DecidableEq, Repr

/-- `ExecutionRequest::validate`. -/
def ExecutionRequest.validate (execution : ExecutionRequest) : Except ValidationError Unit :=
  if execution.workspaceId = 0 ∨ execution.projectId = 0 ∨ execution.runId = 0 then
    .error .nilIdentifier
  else do
    validateRevision execution.revisionSha
    validateDigest execution.manifestDigest
    execution.resources.validate
    execution.network.validate
    execution.simulation.validate execution.resources

/-- A request the runner takes on. -/
def ExecutionRequest.Valid (execution : ExecutionRequest) : Prop :=
  execution.validate = .ok ()

instance (execution : ExecutionRequest) : Decidable execution.Valid :=
  inferInstanceAs (Decidable (_ = _))

end Cresix.Runner
