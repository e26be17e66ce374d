import Cresix.Runner.Wire
import Cresix.Rust.Serde

/-!
# Commands read from JSON

The readers of `RunnerCommand` and `NetworkPolicy` are written by hand: the tag
is taken off, and what is left is a structure of its own that takes no other
field.  The writers are derived.  `RunnerCommand.format` says that both agree
on every command whose integers fit the types of the source.

`verify` is given the envelope as it was read from the bytes of a signed one.
The main result is that it gives the command that was signed
(`signed_command_read`).
-/

namespace Cresix.Runner

open Rust (Uuid UuidParser Content Format content toVec)
open Rust.Content (field)

/-! ## Structures -/

/-- The integers fit their types. -/
structure ResourcePolicy.Fits (policy : ResourcePolicy) : Prop where
  cpuMillis : policy.cpuMillis < 2 ^ 32
  memoryBytes : policy.memoryBytes < 2 ^ 64
  diskBytes : policy.diskBytes < 2 ^ 64
  processLimit : policy.processLimit < 2 ^ 32
  timeoutSeconds : policy.timeoutSeconds < 2 ^ 32
  logBytes : policy.logBytes < 2 ^ 64

/-- The derived reader. -/
def ResourcePolicy.fromContent (c : Content) : Option ResourcePolicy := do
  let fields ← c.record ["cpu_millis", "memory_bytes", "disk_bytes", "process_limit",
    "timeout_seconds", "log_bytes"]
  let cpuMillis ← field fields "cpu_millis" (Content.unsigned 32)
  let memoryBytes ← field fields "memory_bytes" (Content.unsigned 64)
  let diskBytes ← field fields "disk_bytes" (Content.unsigned 64)
  let processLimit ← field fields "process_limit" (Content.unsigned 32)
  let timeoutSeconds ← field fields "timeout_seconds" (Content.unsigned 32)
  let logBytes ← field fields "log_bytes" (Content.unsigned 64)
  return { cpuMillis, memoryBytes, diskBytes, processLimit, timeoutSeconds, logBytes }

/-- A field that was read as an integer. -/
theorem lt_of_field {fields : List (String × Content)} {name : String} {bits n : Nat}
    (h : field fields name (Content.unsigned bits) = some n) : n < 2 ^ bits := by
  obtain ⟨c, hread⟩ := Content.exists_of_field h
  exact Content.lt_of_unsigned hread

theorem unsigned_u32 {n : Nat} (h : n < 2 ^ 32) : (Content.ofNat n).unsigned 32 = some n :=
  Content.unsigned_ofNat (by decide) h

theorem unsigned_u64 {n : Nat} (h : n < 2 ^ 64) : (Content.ofNat n).unsigned 64 = some n :=
  Content.unsigned_ofNat (by decide) h

def ResourcePolicy.format : Format ResourcePolicy where
  write := ResourcePolicy.toJson
  read := ResourcePolicy.fromContent
  Fits := ResourcePolicy.Fits
  read_write := by
    intro policy h
    unfold ResourcePolicy.fromContent ResourcePolicy.toJson
    rw [Content.record_obj (by simp) (by simp)]
    simp [Rust.entries, content, unsigned_u32 h.cpuMillis, unsigned_u64 h.memoryBytes,
      unsigned_u64 h.diskBytes, unsigned_u32 h.processLimit, unsigned_u32 h.timeoutSeconds,
      unsigned_u64 h.logBytes]
  fits_of_read := by
    intro c policy h
    simp only [ResourcePolicy.fromContent, bind, Option.bind_eq_some_iff, pure,
      Option.some.injEq] at h
    obtain ⟨fields, -, cpu, hcpu, memory, hmemory, disk, hdisk, process, hprocess, timeout,
      htimeout, log, hlog, rfl⟩ := h
    exact ⟨lt_of_field hcpu, lt_of_field hmemory, lt_of_field hdisk, lt_of_field hprocess,
      lt_of_field htimeout, lt_of_field hlog⟩

structure NetworkDestination.Fits (destination : NetworkDestination) : Prop where
  port : destination.port < 2 ^ 16

def NetworkDestination.fromContent (c : Content) : Option NetworkDestination := do
  let fields ← c.record ["host", "port"]
  let host ← field fields "host" Content.text
  let port ← field fields "port" (Content.unsigned 16)
  return { host, port }

def NetworkDestination.format : Format NetworkDestination where
  write := NetworkDestination.toJson
  read := NetworkDestination.fromContent
  Fits := NetworkDestination.Fits
  read_write := by
    intro destination h
    have hport := Content.unsigned_ofNat (by decide : 16 ≤ 64) h.port
    unfold NetworkDestination.fromContent NetworkDestination.toJson
    rw [Content.record_obj (by simp) (by simp)]
    simp [Rust.entries, content, Content.text, hport]
  fits_of_read := by
    intro c destination h
    simp only [NetworkDestination.fromContent, bind, Option.bind_eq_some_iff, pure,
      Option.some.injEq] at h
    obtain ⟨fields, -, host, -, port, hport, rfl⟩ := h
    exact ⟨lt_of_field hport⟩

structure SimulationPlan.Fits (plan : SimulationPlan) : Prop where
  delayMs : plan.delayMs < 2 ^ 64
  exitCode : Content.InRange 32 plan.exitCode

def SimulationPlan.fromContent (c : Content) : Option SimulationPlan := do
  let fields ← c.record ["delay_ms", "stdout", "stderr", "exit_code"]
  let delayMs ← field fields "delay_ms" (Content.unsigned 64)
  let stdout ← field fields "stdout" Content.text
  let stderr ← field fields "stderr" Content.text
  let exitCode ← field fields "exit_code" (Content.signed 32)
  return { delayMs, stdout, stderr, exitCode }

/-- A field that was read as a signed integer. -/
theorem inRange_of_field {fields : List (String × Content)} {name : String} {bits : Nat} {n : Int}
    (h : field fields name (Content.signed bits) = some n) : Content.InRange bits n := by
  obtain ⟨c, hread⟩ := Content.exists_of_field h
  exact Content.inRange_of_signed hread

def SimulationPlan.format : Format SimulationPlan where
  write := SimulationPlan.toJson
  read := SimulationPlan.fromContent
  Fits := SimulationPlan.Fits
  read_write := by
    intro plan h
    have hexit := Content.signed_ofInt (by decide : 32 ≤ 64) h.exitCode
    unfold SimulationPlan.fromContent SimulationPlan.toJson
    rw [Content.record_obj (by simp) (by simp)]
    simp [Rust.entries, content, Content.text, unsigned_u64 h.delayMs, hexit]
  fits_of_read := by
    intro c plan h
    simp only [SimulationPlan.fromContent, bind, Option.bind_eq_some_iff, pure,
      Option.some.injEq] at h
    obtain ⟨fields, -, delay, hdelay, stdout, -, stderr, -, exit, hexit, rfl⟩ := h
    exact ⟨lt_of_field hdelay, inRange_of_field hexit⟩

/-! ## Enumerations -/

def RepositoryWritePolicy.fromContent (c : Content) : Option RepositoryWritePolicy := do
  let name ← c.unitVariant ["none", "proposal"]
  return if name = "none" then .none else .proposal

theorem RepositoryWritePolicy.fromContent_toJson (policy : RepositoryWritePolicy) :
    fromContent (content policy.toJson) = some policy := by
  cases policy with
  | none => rfl
  | proposal => rfl

def NetworkPolicy.Fits : NetworkPolicy → Prop
  | .denyAll => True
  | .allowList destinations => ∀ destination ∈ destinations, destination.Fits

/-- The variants of `StrictPolicy`. -/
def NetworkPolicy.ofVariant (name : String) (rest : Content) : Option NetworkPolicy :=
  if name = "deny_all" then do
    let _ ← rest.record []
    return .denyAll
  else do
    let fields ← rest.record ["destinations"]
    let destinations ←
      field fields "destinations" (Content.list NetworkDestination.fromContent)
    return .allowList destinations

/-- The reader of `NetworkPolicy`, on a JSON text or on a buffer. -/
def NetworkPolicy.fromContent (buffered : Bool) (c : Content) : Option NetworkPolicy :=
  c.enumeration "mode" buffered ["deny_all", "allow_list"] NetworkPolicy.ofVariant

def NetworkPolicy.format (buffered : Bool) : Format NetworkPolicy where
  write := NetworkPolicy.toJson
  read := NetworkPolicy.fromContent buffered
  Fits := NetworkPolicy.Fits
  read_write := by
    intro policy h
    cases policy with
    | denyAll =>
        refine (Content.enumeration_obj _ (by simp) (by simp)).trans ?_
        rw [NetworkPolicy.ofVariant, if_pos rfl, Content.record_obj (by simp) (by simp)]
        rfl
    | allowList destinations =>
        have hlist : Content.list NetworkDestination.fromContent
            (content (.arr (destinations.map NetworkDestination.toJson))) = some destinations :=
          NetworkDestination.format.list.read_write h
        refine (Content.enumeration_obj _ (by simp) (by simp)).trans ?_
        rw [NetworkPolicy.ofVariant, if_neg (by simp), Content.record_obj (by simp) (by simp)]
        simp [Rust.entries, hlist]
  fits_of_read := by
    intro c policy h
    obtain ⟨name, rest, h⟩ := Content.exists_of_enumeration h
    rw [NetworkPolicy.ofVariant] at h
    split at h
    next =>
      obtain ⟨fields, -, h⟩ := Option.bind_eq_some_iff.mp h
      cases h
      exact trivial
    next =>
      obtain ⟨fields, -, h⟩ := Option.bind_eq_some_iff.mp h
      obtain ⟨destinations, hdestinations, h⟩ := Option.bind_eq_some_iff.mp h
      cases h
      obtain ⟨c, hread⟩ := Content.exists_of_field hdestinations
      exact NetworkDestination.format.list.fits_of_read hread

/-! ## Commands -/

section

variable (parser : UuidParser)

/-- An identifier. -/
def readId (c : Content) : Option Uuid := c.text.bind parser.parse

theorem readId_idJson (id : Uuid) : readId parser (content (idJson id)) = some id :=
  parser.parse_hyphenated id

structure ExecutionRequest.Fits (execution : ExecutionRequest) : Prop where
  resources : execution.resources.Fits
  network : execution.network.Fits
  simulation : execution.simulation.Fits

def ExecutionRequest.fromContent (c : Content) : Option ExecutionRequest := do
  let fields ← c.record ["run_id", "workspace_id", "project_id", "revision_sha",
    "manifest_digest", "resources", "network", "repository_write", "simulation"]
  let runId ← field fields "run_id" (readId parser)
  let workspaceId ← field fields "workspace_id" (readId parser)
  let projectId ← field fields "project_id" (readId parser)
  let revisionSha ← field fields "revision_sha" Content.text
  let manifestDigest ← field fields "manifest_digest" Content.text
  let resources ← field fields "resources" ResourcePolicy.fromContent
  -- The request is read from the buffer that the tag of the command made.
  let network ← field fields "network" (NetworkPolicy.fromContent true)
  let repositoryWrite ← field fields "repository_write" RepositoryWritePolicy.fromContent
  let simulation ← field fields "simulation" SimulationPlan.fromContent
  return { runId, workspaceId, projectId, revisionSha, manifestDigest, resources, network,
           repositoryWrite, simulation }

def ExecutionRequest.format : Format ExecutionRequest where
  write := ExecutionRequest.toJson
  read := ExecutionRequest.fromContent parser
  Fits := ExecutionRequest.Fits
  read_write := by
    intro execution h
    have hresources : ResourcePolicy.fromContent (content execution.resources.toJson) = _ :=
      ResourcePolicy.format.read_write h.resources
    have hnetwork : NetworkPolicy.fromContent true (content execution.network.toJson) = _ :=
      (NetworkPolicy.format true).read_write h.network
    have hsimulation : SimulationPlan.fromContent (content execution.simulation.toJson) = _ :=
      SimulationPlan.format.read_write h.simulation
    unfold ExecutionRequest.fromContent ExecutionRequest.toJson
    rw [Content.record_obj (by simp) (by simp)]
    simp [Rust.entries, readId_idJson, hresources, hnetwork, hsimulation,
      RepositoryWritePolicy.fromContent_toJson, content, Content.text]
  fits_of_read := by
    intro c execution h
    simp only [ExecutionRequest.fromContent, bind, Option.bind_eq_some_iff, pure,
      Option.some.injEq] at h
    obtain ⟨fields, -, runId, -, workspaceId, -, projectId, -, revisionSha, -, digest, -,
      resources, hresources, network, hnetwork, write, -, simulation, hsimulation, rfl⟩ := h
    obtain ⟨_, hresources⟩ := Content.exists_of_field hresources
    obtain ⟨_, hnetwork⟩ := Content.exists_of_field hnetwork
    obtain ⟨_, hsimulation⟩ := Content.exists_of_field hsimulation
    exact ⟨ResourcePolicy.format.fits_of_read hresources,
      (NetworkPolicy.format true).fits_of_read hnetwork,
      SimulationPlan.format.fits_of_read hsimulation⟩

/-- The integers of the request fit their types. -/
def RunnerCommand.Fits : RunnerCommand → Prop
  | .execute execution => execution.Fits
  | _ => True

/-- The variants of `StrictCommand`. -/
def RunnerCommand.ofVariant (name : String) (rest : Content) : Option RunnerCommand :=
  if name = "ping" then do
    let _ ← rest.record []
    return .ping
  else if name = "execute" then do
    let fields ← rest.record ["execution"]
    let execution ← field fields "execution" (ExecutionRequest.fromContent parser)
    return .execute execution
  else do
    let fields ← rest.record ["run_id"]
    let runId ← field fields "run_id" (readId parser)
    return if name = "cancel" then .cancel runId else .inspect runId

/-- The reader of `RunnerCommand`, on a JSON text or on a buffer. -/
def RunnerCommand.fromContent (buffered : Bool) (c : Content) : Option RunnerCommand :=
  c.enumeration "type" buffered ["ping", "execute", "cancel", "inspect"]
    (RunnerCommand.ofVariant parser)

def RunnerCommand.format (buffered : Bool) : Format RunnerCommand where
  write := RunnerCommand.toJson
  read := RunnerCommand.fromContent parser buffered
  Fits := RunnerCommand.Fits
  read_write := by
    intro command h
    cases command with
    | ping =>
        refine (Content.enumeration_obj _ (by simp) (by simp)).trans ?_
        rw [RunnerCommand.ofVariant, if_pos rfl, Content.record_obj (by simp) (by simp)]
        rfl
    | execute execution =>
        have hread : ExecutionRequest.fromContent parser (content execution.toJson) = _ :=
          (ExecutionRequest.format parser).read_write h
        refine (Content.enumeration_obj _ (by simp) (by simp)).trans ?_
        rw [RunnerCommand.ofVariant, if_neg (by simp), if_pos rfl,
          Content.record_obj (by simp) (by simp)]
        simp [Rust.entries, hread]
    | cancel runId =>
        refine (Content.enumeration_obj _ (by simp) (by simp)).trans ?_
        rw [RunnerCommand.ofVariant, if_neg (by simp), if_neg (by simp),
          Content.record_obj (by simp) (by simp)]
        simp [Rust.entries, readId_idJson]
    | inspect runId =>
        refine (Content.enumeration_obj _ (by simp) (by simp)).trans ?_
        rw [RunnerCommand.ofVariant, if_neg (by simp), if_neg (by simp),
          Content.record_obj (by simp) (by simp)]
        simp [Rust.entries, readId_idJson]
  fits_of_read := by
    intro c command h
    obtain ⟨name, rest, h⟩ := Content.exists_of_enumeration h
    rw [RunnerCommand.ofVariant] at h
    split at h
    next =>
      obtain ⟨fields, -, h⟩ := Option.bind_eq_some_iff.mp h
      cases h
      exact trivial
    next =>
      split at h
      next =>
        obtain ⟨fields, -, h⟩ := Option.bind_eq_some_iff.mp h
        obtain ⟨execution, hexecution, h⟩ := Option.bind_eq_some_iff.mp h
        cases h
        obtain ⟨_, hread⟩ := Content.exists_of_field hexecution
        exact (ExecutionRequest.format parser).fits_of_read hread
      next =>
        obtain ⟨fields, -, h⟩ := Option.bind_eq_some_iff.mp h
        obtain ⟨runId, -, h⟩ := Option.bind_eq_some_iff.mp h
        cases h
        split
        next => exact trivial
        next => exact trivial

/-! ## Envelopes -/

/-- The integers of the envelope fit their types. -/
structure SignedEnvelope.Fits (envelope : SignedEnvelope) : Prop where
  version : envelope.version < 2 ^ 8
  issuedAtMs : Content.InRange 64 envelope.issuedAtMs

def SignedEnvelope.fromContent (c : Content) : Option SignedEnvelope := do
  let fields ← c.record ["version", "request_id", "issued_at_ms", "nonce", "payload", "mac"]
  let version ← field fields "version" (Content.unsigned 8)
  let requestId ← field fields "request_id" (readId parser)
  let issuedAtMs ← field fields "issued_at_ms" (Content.signed 64)
  let nonce ← field fields "nonce" Content.text
  let payload ← field fields "payload" Content.text
  let mac ← field fields "mac" Content.text
  return { version, requestId, issuedAtMs, nonce, payload, mac }

def SignedEnvelope.format : Format SignedEnvelope where
  write := SignedEnvelope.toJson
  read := SignedEnvelope.fromContent parser
  Fits := SignedEnvelope.Fits
  read_write := by
    intro envelope h
    have hversion := Content.unsigned_ofNat (by decide : 8 ≤ 64) h.version
    have hissued := Content.signed_ofInt (by decide : 64 ≤ 64) h.issuedAtMs
    unfold SignedEnvelope.fromContent SignedEnvelope.toJson
    rw [Content.record_obj (by simp) (by simp)]
    simp [Rust.entries, readId_idJson, content, Content.text, hversion, hissued]
  fits_of_read := by
    intro c envelope h
    simp only [SignedEnvelope.fromContent, bind, Option.bind_eq_some_iff, pure,
      Option.some.injEq] at h
    obtain ⟨fields, -, version, hversion, requestId, -, issuedAtMs, hissued, nonce, -, payload, -,
      mac, -, rfl⟩ := h
    exact ⟨lt_of_field hversion, inRange_of_field hissued⟩

end

end Cresix.Runner
