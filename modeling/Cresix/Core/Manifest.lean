import Cresix.Library.Checks
import Cresix.Library.SortedMap
import Cresix.Rust.Text
import Mathlib.Data.String.Basic

/-!
# Manifests

`c6.toml` as it is read, and `ProjectManifest::validate`.  The validation is a
chain of checks and two loops that share the names they have met.  `Rules` says
what it is to check, one rule a field, and `validate_iff` that it checks this
and nothing else.

The rules close the paths of agents to other directories and, for the
dockerfile strategy, the path of the dockerfile.  With another strategy a
dockerfile is not looked at (`pathsConfined_iff`).
-/

namespace Cresix.Core

/-! ## The data -/

/-- `f32`, as far as its sign and size are concerned. -/
inductive F32 where
  | nan
  | infinite (negative : Bool)
  | finite (value : Rat)
deriving DecidableEq, Repr

/-- `f32::is_finite`. -/
def F32.isFinite : F32 → Bool
  | finite _ => true
  | _ => false

/-- `<= 0.0`, which no NaN is. -/
def F32.leZero : F32 → Bool
  | nan => false
  | infinite negative => negative
  | finite value => value ≤ 0

inductive BuildStrategy where
  | auto
  | dockerfile
deriving DecidableEq, Repr

structure Build where
  strategy : BuildStrategy
  dockerfile : Option String
deriving DecidableEq, Repr

structure Resources where
  cpu : F32
  memoryMb : Nat
deriving DecidableEq, Repr

structure Service where
  name : String
  command : String
  port : Nat
  secrets : List String
  resources : Resources
deriving DecidableEq, Repr

inductive JobKind where
  | command
  | cron
  | agent
deriving DecidableEq, Repr

structure Job where
  name : String
  kind : JobKind
  command : Option String
  agentConfig : Option String
  schedule : Option String
  timezone : Option String
  timeoutSeconds : Nat
  secrets : List String
  resources : Resources
deriving DecidableEq, Repr

structure SecretDeclaration where
  description : String
deriving DecidableEq, Repr

/-- `ProjectManifest`, without what the validation does not read. -/
structure ProjectManifest where
  version : Nat
  build : Build
  services : List Service
  jobs : List Job
  secrets : SortedMap String SecretDeclaration

inductive ManifestError where
  | invalidToml (text : String)
  | unsupportedVersion (version : Nat)
  | duplicateName (name : String)
  | invalidPort (name : String)
  | invalidCron (name : String)
  | missingAgentConfig (name : String)
  | unknownSecret (name : String)
  | invalidName (name : String)
  | missingCommand (name : String)
  | invalidTimeout (name : String)
  | invalidResources (name : String)
  | partialSchedule (name : String)
  | missingDockerfile
  | unsafePath (path : String)
  | invalidSecretName (name : String)
deriving DecidableEq, Repr

/-- The text of an error, with what Rust puts around a quoted string. -/
def ManifestError.message (quoted : String → String) : ManifestError → String
  | invalidToml text => "c6.toml is not valid TOML: " ++ text
  | unsupportedVersion version =>
      "manifest version " ++ version.repr ++ " is not supported; expected 1"
  | duplicateName name =>
      "service or job name " ++ quoted name ++ " is declared more than once"
  | invalidPort name => "web service " ++ quoted name ++ " must use a port from 1 through 65535"
  | invalidCron name => "cron job " ++ quoted name ++ " must declare both schedule and timezone"
  | missingAgentConfig name =>
      "agent job " ++ quoted name ++ " must declare an agent configuration path"
  | unknownSecret name => "secret reference " ++ quoted name ++ " is not declared in [secrets]"
  | invalidName name =>
      "runtime name " ++ quoted name ++ " must be 1-63 lowercase letters, digits, or hyphens"
  | missingCommand name => "runtime " ++ quoted name ++ " must declare a command"
  | invalidTimeout name => "job " ++ quoted name ++ " must use a positive timeout"
  | invalidResources name =>
      "runtime " ++ quoted name ++ " must request positive, finite CPU and non-zero memory"
  | partialSchedule name =>
      "scheduled job " ++ quoted name ++ " must declare schedule and timezone together"
  | missingDockerfile => "dockerfile builds must declare a relative dockerfile path"
  | unsafePath path => "manifest path " ++ quoted path ++ " must be a safe relative path"
  | invalidSecretName name =>
      "secret name " ++ quoted name ++ " must be a valid uppercase environment variable name"

/-! ## The checks -/

/-- An error if something is wrong. -/
def refuse (wrong : Prop) [Decidable wrong] (error : ManifestError) :
    Except ManifestError Unit :=
  if wrong then .error error else .ok ()

/-- `text.trim().is_empty()`. -/
def isBlank (text : String) : Bool := (Rust.trim text.toList).isEmpty

/-- `validate_name`. -/
def validateName (name : String) : Except ManifestError Unit :=
  let bytes := Rust.bytes name
  let boundaryIsAlphanumeric :=
    bytes.head?.any Rust.isAsciiAlphanumeric && bytes.getLast?.any Rust.isAsciiAlphanumeric
  if !name.isEmpty && Rust.len name ≤ 63 && boundaryIsAlphanumeric
      && bytes.all (fun byte => Rust.isAsciiLowercase byte || Rust.isAsciiDigit byte
        || byte == 0x2d) then
    .ok ()
  else .error (.invalidName name)

/-- `validate_secret_name`. -/
def validateSecretName (name : String) : Except ManifestError Unit :=
  let bytes := Rust.bytes name
  let validStart := bytes.head?.any fun byte => Rust.isAsciiUppercase byte || byte == 0x5f
  if validStart && bytes.tail.all (fun byte => Rust.isAsciiUppercase byte
      || Rust.isAsciiDigit byte || byte == 0x5f) then
    .ok ()
  else .error (.invalidSecretName name)

/-- `validate_resources`. -/
def validateResources (name : String) (resources : Resources) : Except ManifestError Unit :=
  refuse (!resources.cpu.isFinite ∨ resources.cpu.leZero ∨ resources.memoryMb = 0)
    (.invalidResources name)

/-- A component that leads down or nowhere. -/
def isInside : Rust.Component → Bool
  | .normal _ | .curDir => true
  | _ => false

/-- `validate_relative_path`. -/
def validateRelativePath (path : String) : Except ManifestError Unit :=
  let safe := !isBlank path && !Rust.isAbsolute path.toList
    && (Rust.components path.toList).all isInside
  refuse (!safe) (.unsafePath path)

/-- What `validate` makes of the build. -/
def Build.validate (build : Build) : Except ManifestError Unit :=
  if build.strategy = .dockerfile then
    match build.dockerfile.filter fun path => !isBlank path with
    | none => .error .missingDockerfile
    | some path => validateRelativePath path
  else .ok ()

namespace ProjectManifest

/-- `validate_secrets`. -/
def validateSecrets (manifest : ProjectManifest) (references : List String) :
    Except ManifestError Unit :=
  references.forM fun name =>
    refuse (manifest.secrets.get? name).isNone (.unknownSecret name)

/-- The round of the first loop of `validate`, with the names so far. -/
def validateService (manifest : ProjectManifest) (names : List String) (service : Service) :
    Except ManifestError (List String) := do
  validateName service.name
  refuse (service.name ∈ names) (.duplicateName service.name)
  refuse (service.port = 0) (.invalidPort service.name)
  refuse (isBlank service.command) (.missingCommand service.name)
  validateResources service.name service.resources
  manifest.validateSecrets service.secrets
  return service.name :: names

/-- The round of the second loop. -/
def validateJob (manifest : ProjectManifest) (names : List String) (job : Job) :
    Except ManifestError (List String) := do
  validateName job.name
  refuse (job.name ∈ names) (.duplicateName job.name)
  refuse (job.kind = .cron ∧ (job.schedule.isNone ∨ job.timezone.isNone)) (.invalidCron job.name)
  refuse (job.schedule.isSome ≠ job.timezone.isSome) (.partialSchedule job.name)
  refuse (job.kind = .agent ∧ job.agentConfig.isNone) (.missingAgentConfig job.name)
  refuse ((job.kind = .command ∨ job.kind = .cron) ∧ job.command.all isBlank)
    (.missingCommand job.name)
  job.agentConfig.toList.forM validateRelativePath
  refuse (job.timeoutSeconds = 0) (.invalidTimeout job.name)
  validateResources job.name job.resources
  manifest.validateSecrets job.secrets
  return job.name :: names

/-- `ProjectManifest::validate`. -/
def validate (manifest : ProjectManifest) : Except ManifestError Unit := do
  refuse (manifest.version ≠ 1) (.unsupportedVersion manifest.version)
  manifest.build.validate
  manifest.secrets.entries.forM fun entry => validateSecretName entry.1
  let names ← manifest.services.foldlM manifest.validateService []
  let _ ← manifest.jobs.foldlM manifest.validateJob names
  return ()

/-- `ProjectManifest::parse`, with what `toml` makes of a text. -/
def parse (fromToml : String → Except String ProjectManifest) (source : String) :
    Except ManifestError ProjectManifest := do
  let manifest ← (fromToml source).mapError .invalidToml
  manifest.validate
  return manifest

end ProjectManifest

/-! ## The rules -/

/-- A text of blanks. -/
def Blank (text : String) : Prop := ∀ c ∈ text.toList, Rust.isWhitespace c = true

/-- A path that leads nowhere but down. -/
structure Confined (path : String) : Prop where
  nonempty : path ≠ ""
  relative : path.toList.head? ≠ some '/'
  /-- No component is the parent directory. -/
  noParent : ['.', '.'] ∉ path.toList.splitOn '/'

/-- A safe relative path. -/
structure SafePath (path : String) : Prop where
  notBlank : ¬Blank path
  confined : Confined path

/-- A name of a service or a job. -/
structure RuntimeName (name : String) : Prop where
  pos : 0 < Rust.len name
  le : Rust.len name ≤ 63
  /-- Small letters, digits and hyphens. -/
  bytes : ∀ byte ∈ Rust.bytes name, Rust.isAsciiLowercase byte = true ∨
    Rust.isAsciiDigit byte = true ∨ byte = 0x2d
  first : (Rust.bytes name).head? ≠ some 0x2d
  last : (Rust.bytes name).getLast? ≠ some 0x2d

/-- A name of an environment variable in capitals. -/
structure SecretName (name : String) : Prop where
  nonempty : name ≠ ""
  /-- Capitals, digits and underscores. -/
  bytes : ∀ byte ∈ Rust.bytes name, Rust.isAsciiUppercase byte = true ∨
    Rust.isAsciiDigit byte = true ∨ byte = 0x5f
  first : ∀ byte ∈ (Rust.bytes name).head?, Rust.isAsciiDigit byte = false

/-- A request for resources that can be met. -/
structure Resources.Positive (resources : Resources) : Prop where
  cpu : ∃ value, resources.cpu = .finite value ∧ 0 < value
  memory : 0 < resources.memoryMb

namespace ProjectManifest

/-- The secrets that are referred to are declared. -/
def Declares (manifest : ProjectManifest) (references : List String) : Prop :=
  ∀ name ∈ references, ∃ declaration, (name, declaration) ∈ manifest.secrets.entries

structure ServiceRules (manifest : ProjectManifest) (service : Service) : Prop where
  name : RuntimeName service.name
  port : service.port ≠ 0
  command : ¬Blank service.command
  resources : service.resources.Positive
  secrets : manifest.Declares service.secrets

structure JobRules (manifest : ProjectManifest) (job : Job) : Prop where
  name : RuntimeName job.name
  cron : job.kind = .cron → job.schedule.isSome = true ∧ job.timezone.isSome = true
  schedule : job.schedule.isSome = job.timezone.isSome
  agent : job.kind = .agent → job.agentConfig.isSome = true
  command : job.kind = .command ∨ job.kind = .cron →
    ∃ command, job.command = some command ∧ ¬Blank command
  agentConfig : ∀ path, job.agentConfig = some path → SafePath path
  timeout : 0 < job.timeoutSeconds
  resources : job.resources.Positive
  secrets : manifest.Declares job.secrets

/-- What a manifest has to meet. -/
structure Rules (manifest : ProjectManifest) : Prop where
  version : manifest.version = 1
  dockerfile : manifest.build.strategy = .dockerfile →
    ∃ path, manifest.build.dockerfile = some path ∧ SafePath path
  secretNames : ∀ entry ∈ manifest.secrets.entries, SecretName entry.1
  services : ∀ service ∈ manifest.services, manifest.ServiceRules service
  jobs : ∀ job ∈ manifest.jobs, manifest.JobRules job
  /-- No name occurs twice. -/
  names : (manifest.services.map Service.name ++ manifest.jobs.map Job.name).Nodup

end ProjectManifest

section

variable {text name path : String} {resources : Resources} {manifest : ProjectManifest}
  {service : Service} {job : Job} {names names' : List String}

/-! ## What each check checks -/

theorem refuse_eq_ok {wrong : Prop} [Decidable wrong] {error : ManifestError} :
    refuse wrong error = .ok () ↔ ¬wrong := by
  rw [refuse]
  split
  next h => exact iff_of_false (fun h => nomatch h) (not_not.mpr h)
  next h => exact iff_of_true rfl h

theorem accept_eq_ok {right : Prop} [Decidable right] {error : ManifestError} :
    (if right then .ok () else .error error : Except ManifestError Unit) = .ok () ↔ right := by
  split
  next h => exact iff_of_true rfl h
  next h => exact iff_of_false (fun h => nomatch h) h

theorem isBlank_iff : isBlank text = true ↔ Blank text := by
  rw [isBlank, List.isEmpty_iff, Rust.trim_eq_nil_iff, Blank]

theorem bytes_ne_nil (h : text ≠ "") : Rust.bytes text ≠ [] := by
  intro hbytes
  exact h (Rust.bytes_injective (t := "") hbytes)

/-- Of the bytes of a name all but the hyphen are alphanumeric. -/
theorem isAsciiAlphanumeric_iff {byte : UInt8} (h : Rust.isAsciiLowercase byte = true ∨
    Rust.isAsciiDigit byte = true ∨ byte = 0x2d) :
    Rust.isAsciiAlphanumeric byte = true ↔ byte ≠ 0x2d := by
  constructor
  · rintro halnum rfl
    exact absurd halnum (by decide)
  · intro hne
    rw [Rust.isAsciiAlphanumeric, Bool.or_eq_true, Bool.or_eq_true]
    rcases h with hlower | hdigit | heq
    · exact .inl (.inl hlower)
    · exact .inr hdigit
    · exact absurd heq hne

/-- An end of a name is alphanumeric if there is one and it is no hyphen. -/
theorem any_isAsciiAlphanumeric_iff {boundary : Option UInt8} (hsome : boundary.isSome = true)
    (h : ∀ byte ∈ boundary, Rust.isAsciiLowercase byte = true ∨
      Rust.isAsciiDigit byte = true ∨ byte = 0x2d) :
    boundary.any Rust.isAsciiAlphanumeric = true ↔ boundary ≠ some 0x2d := by
  obtain ⟨byte, rfl⟩ := Option.isSome_iff_exists.mp hsome
  rw [Option.any_some, isAsciiAlphanumeric_iff (h byte rfl), ne_eq, ne_eq, Option.some.injEq]

theorem validateName_eq_ok : validateName name = .ok () ↔ RuntimeName name := by
  have hcheck : validateName name = .ok () ↔
      (((name.isEmpty = false ∧ Rust.len name ≤ 63) ∧
        (Rust.bytes name).head?.any Rust.isAsciiAlphanumeric = true ∧
        (Rust.bytes name).getLast?.any Rust.isAsciiAlphanumeric = true) ∧
        ∀ byte ∈ Rust.bytes name, Rust.isAsciiLowercase byte = true ∨
          Rust.isAsciiDigit byte = true ∨ byte = 0x2d) := by
    simp only [validateName, accept_eq_ok, Bool.and_eq_true, Bool.not_eq_true', decide_eq_true_eq,
      List.all_eq_true, Bool.or_eq_true, beq_iff_eq, or_assoc]
  rw [hcheck, ← Bool.not_eq_true, String.isEmpty_iff]
  constructor
  · rintro ⟨⟨⟨hempty, hle⟩, hfirst, hlast⟩, hbytes⟩
    have hne := bytes_ne_nil hempty
    refine ⟨?_, hle, hbytes, ?_, ?_⟩
    · rw [← Rust.length_bytes]
      exact List.length_pos_iff.mpr hne
    · exact (any_isAsciiAlphanumeric_iff (List.isSome_head?.mpr hne) fun byte hmem =>
        hbytes byte (List.mem_of_head? hmem)).mp hfirst
    · exact (any_isAsciiAlphanumeric_iff (List.getLast?_isSome.mpr hne) fun byte hmem =>
        hbytes byte (List.mem_of_getLast? hmem)).mp hlast
  · intro h
    have hne : Rust.bytes name ≠ [] := by
      rw [← List.length_pos_iff, Rust.length_bytes]
      exact h.pos
    refine ⟨⟨⟨?_, h.le⟩, ?_, ?_⟩, h.bytes⟩
    · rintro rfl
      exact hne rfl
    · exact (any_isAsciiAlphanumeric_iff (List.isSome_head?.mpr hne) fun byte hmem =>
        h.bytes byte (List.mem_of_head? hmem)).mpr h.first
    · exact (any_isAsciiAlphanumeric_iff (List.getLast?_isSome.mpr hne) fun byte hmem =>
        h.bytes byte (List.mem_of_getLast? hmem)).mpr h.last

theorem validateSecretName_eq_ok : validateSecretName name = .ok () ↔ SecretName name := by
  have hcheck : validateSecretName name = .ok () ↔
      ((∃ byte, (Rust.bytes name).head? = some byte ∧
        (Rust.isAsciiUppercase byte = true ∨ byte = 0x5f)) ∧
        ∀ byte ∈ (Rust.bytes name).tail, Rust.isAsciiUppercase byte = true ∨
          Rust.isAsciiDigit byte = true ∨ byte = 0x5f) := by
    simp only [validateSecretName, accept_eq_ok, Bool.and_eq_true, List.all_eq_true,
      Bool.or_eq_true, beq_iff_eq, or_assoc, Option.any_eq_true]
  rw [hcheck]
  cases hbytes : Rust.bytes name with
  | nil =>
      refine iff_of_false ?_ ?_
      · rintro ⟨⟨byte, hbyte, -⟩, -⟩
        cases hbyte
      · intro h
        exact bytes_ne_nil h.nonempty hbytes
  | cons first rest =>
      have hnot : ∀ {byte : UInt8}, Rust.isAsciiUppercase byte = true ∨ byte = 0x5f →
          Rust.isAsciiDigit byte = false := by
        rintro byte (hupper | rfl)
        · have hrange : 0x41 ≤ byte ∧ byte ≤ 0x5a := by simpa [Rust.isAsciiUppercase] using hupper
          have hle : 65 ≤ byte.toNat := UInt8.le_iff_toNat_le.mp hrange.1
          refine Bool.eq_false_iff.mpr fun hdigit => ?_
          have hdigits : 0x30 ≤ byte ∧ byte ≤ 0x39 := by simpa [Rust.isAsciiDigit] using hdigit
          have hlow : byte.toNat ≤ 57 := UInt8.le_iff_toNat_le.mp hdigits.2
          omega
        · rfl
      constructor
      · rintro ⟨⟨byte, hbyte, hstart⟩, hrest⟩
        obtain rfl := Option.some.inj hbyte
        refine ⟨?_, ?_, ?_⟩
        · rintro rfl
          exact List.cons_ne_nil first rest hbytes.symm
        · rw [hbytes, List.forall_mem_cons]
          exact ⟨hstart.imp_right .inr, hrest⟩
        · rw [hbytes]
          intro byte hbyte
          obtain rfl := Option.some.inj hbyte
          exact hnot hstart
      · rintro ⟨-, hall, hfirst⟩
        rw [hbytes, List.forall_mem_cons] at hall
        rw [hbytes] at hfirst
        refine ⟨⟨first, rfl, ?_⟩, hall.2⟩
        rcases hall.1 with hupper | hdigit | heq
        · exact .inl hupper
        · exact absurd (hfirst first rfl) (by rw [hdigit]; decide)
        · exact .inr heq

theorem validateResources_eq_ok :
    validateResources name resources = .ok () ↔ resources.Positive := by
  rw [validateResources, refuse_eq_ok, not_or, not_or, Bool.not_eq_true', Bool.not_eq_false]
  constructor
  · rintro ⟨hfinite, hzero, hmemory⟩
    cases hcpu : resources.cpu with
    | nan =>
        rw [hcpu] at hfinite
        cases hfinite
    | infinite negative =>
        rw [hcpu] at hfinite
        cases hfinite
    | finite value =>
        rw [hcpu, F32.leZero, decide_eq_true_eq, Rat.not_le] at hzero
        exact ⟨⟨value, hcpu, hzero⟩, Nat.pos_of_ne_zero hmemory⟩
  · rintro ⟨⟨value, hcpu, hpos⟩, hmemory⟩
    rw [hcpu]
    exact ⟨rfl, fun hle => Rat.not_le.mpr hpos (of_decide_eq_true hle), hmemory.ne'⟩

/-- The components of a path lead down if it does not begin at the root and has
no part for the parent directory. -/
theorem all_isInside_iff (cs : List Char) :
    (Rust.components cs).all isInside = true ↔
      Rust.isAbsolute cs = false ∧ ['.', '.'] ∉ cs.splitOn '/' := by
  rw [List.all_eq_true]
  constructor
  · intro h
    refine ⟨?_, ?_⟩
    · refine Bool.eq_false_iff.mpr fun habsolute => ?_
      have hroot : Rust.Component.rootDir ∈ Rust.components cs := by
        rw [Rust.components, if_pos habsolute]
        exact List.mem_append_left _ (List.mem_append_left _ (List.mem_singleton_self _))
      cases h _ hroot
    · intro hmem
      have hparent : Rust.Component.parentDir ∈ Rust.components cs :=
        List.mem_append_right _ (List.mem_filterMap.mpr ⟨_, hmem, rfl⟩)
      cases h _ hparent
  · rintro ⟨habsolute, hparent⟩ component hmem
    rw [Rust.components, habsolute, if_neg (by decide), List.nil_append] at hmem
    rcases List.mem_append.mp hmem with hlead | hpart
    · split at hlead
      next =>
        rw [List.mem_singleton.mp hlead]
        rfl
      next => cases hlead
    · obtain ⟨part, hpart, heq⟩ := List.mem_filterMap.mp hpart
      rw [Rust.Component.ofPart] at heq
      split at heq
      next => cases heq
      next =>
        split at heq
        next hdots => exact absurd (hdots ▸ hpart) hparent
        next =>
          cases heq
          rfl

theorem validateRelativePath_eq_ok : validateRelativePath path = .ok () ↔ SafePath path := by
  rw [validateRelativePath, refuse_eq_ok, Bool.not_eq_true', Bool.not_eq_false, Bool.and_eq_true,
    Bool.and_eq_true,
    Bool.not_eq_true', Bool.not_eq_true', all_isInside_iff, ← Bool.not_eq_true, isBlank_iff,
    and_assoc]
  constructor
  · rintro ⟨hblank, hrelative, -, hparent⟩
    refine ⟨hblank, ⟨?_, of_decide_eq_false hrelative, hparent⟩⟩
    rintro rfl
    exact hblank fun c hmem => absurd hmem List.not_mem_nil
  · rintro ⟨hblank, hconfined⟩
    have hrelative : Rust.isAbsolute path.toList = false := decide_eq_false hconfined.relative
    exact ⟨hblank, hrelative, hrelative, hconfined.noParent⟩

theorem Build.validate_eq_ok {build : Build} :
    build.validate = .ok () ↔
      (build.strategy = .dockerfile → ∃ path, build.dockerfile = some path ∧ SafePath path) := by
  rw [Build.validate]
  split
  next hstrategy =>
    rw [forall_prop_of_true hstrategy]
    split
    next hnone =>
      refine iff_of_false (fun h => nomatch h) ?_
      rintro ⟨path, hpath, hsafe⟩
      have hblank := Option.filter_eq_none_iff.mp hnone path hpath
      exact hsafe.notBlank (isBlank_iff.mp (by simpa using hblank))
    next path hsome =>
      obtain ⟨hpath, -⟩ := Option.filter_eq_some_iff.mp hsome
      rw [validateRelativePath_eq_ok]
      constructor
      · exact fun hsafe => ⟨path, hpath, hsafe⟩
      · rintro ⟨path', hpath', hsafe⟩
        exact Option.some.inj (hpath'.symm.trans hpath) ▸ hsafe
  next hstrategy => exact iff_of_true rfl fun h => absurd h hstrategy

namespace ProjectManifest

theorem validateSecrets_eq_ok {references : List String} :
    manifest.validateSecrets references = .ok () ↔ manifest.Declares references := by
  rw [validateSecrets, Checks.forM_eq_ok]
  refine forall₂_congr fun name _ => ?_
  rw [refuse_eq_ok, Bool.not_eq_true, Option.isNone_eq_false_iff, Option.isSome_iff_exists]
  exact exists_congr fun declaration => SortedMap.get?_eq_some_iff

theorem pure_eq_ok {ε α : Type} {a b : α} : (pure a : Except ε α) = .ok b ↔ b = a := by
  rw [eq_comm]
  exact Except.ok.injEq b a ▸ Iff.rfl

theorem validateService_eq_ok :
    manifest.validateService names service = .ok names' ↔
      manifest.ServiceRules service ∧ service.name ∉ names ∧ names' = service.name :: names := by
  simp only [validateService, Checks.check_bind_eq_ok, validateName_eq_ok, refuse_eq_ok,
    validateResources_eq_ok, validateSecrets_eq_ok, pure_eq_ok, isBlank_iff]
  constructor
  · rintro ⟨hname, hnew, hport, hcommand, hresources, hsecrets, hnames⟩
    exact ⟨⟨hname, hport, hcommand, hresources, hsecrets⟩, hnew, hnames⟩
  · rintro ⟨⟨hname, hport, hcommand, hresources, hsecrets⟩, hnew, hnames⟩
    exact ⟨hname, hnew, hport, hcommand, hresources, hsecrets, hnames⟩

theorem validateJob_eq_ok :
    manifest.validateJob names job = .ok names' ↔
      manifest.JobRules job ∧ job.name ∉ names ∧ names' = job.name :: names := by
  simp only [validateJob, Checks.check_bind_eq_ok, validateName_eq_ok, refuse_eq_ok,
    validateResources_eq_ok, validateSecrets_eq_ok, pure_eq_ok, Checks.forM_eq_ok,
    validateRelativePath_eq_ok, Option.mem_toList]
  constructor
  · rintro ⟨hname, hnew, hcron, hschedule, hagent, hcommand, hpaths, htimeout, hresources, hsecrets,
      hnames⟩
    refine ⟨⟨hname, ?_, not_not.mp hschedule, ?_, ?_, hpaths, Nat.pos_of_ne_zero htimeout,
      hresources, hsecrets⟩, hnew, hnames⟩
    · intro hkind
      simpa [hkind, ← Option.isSome_iff_ne_none] using hcron
    · intro hkind
      simpa [hkind, ← Option.isSome_iff_ne_none] using hagent
    · intro hkind
      cases hsome : job.command with
      | none =>
          rw [hsome] at hcommand
          exact absurd ⟨hkind, rfl⟩ hcommand
      | some command =>
          refine ⟨command, rfl, fun hblank => hcommand ⟨hkind, ?_⟩⟩
          rw [hsome]
          exact isBlank_iff.mpr hblank
  · rintro ⟨⟨hname, hcron, hschedule, hagent, hcommand, hpaths, htimeout, hresources, hsecrets⟩,
      hnew, hnames⟩
    refine ⟨hname, hnew, ?_, not_not.mpr hschedule, ?_, ?_, hpaths, htimeout.ne', hresources,
      hsecrets, hnames⟩
    · rintro ⟨hkind, hmissing⟩
      have hsome := hcron hkind
      rw [← Option.not_isSome, ← Option.not_isSome, hsome.1, hsome.2] at hmissing
      exact absurd hmissing (by decide)
    · rintro ⟨hkind, hmissing⟩
      rw [← Option.not_isSome, hagent hkind] at hmissing
      cases hmissing
    · rintro ⟨hkind, hblank⟩
      obtain ⟨command, hsome, hnot⟩ := hcommand hkind
      rw [hsome] at hblank
      exact hnot (isBlank_iff.mp hblank)

theorem services_eq_ok {services : List Service} :
    services.foldlM manifest.validateService names = .ok names' ↔
      (∀ service ∈ services, manifest.ServiceRules service) ∧
        (services.map Service.name).Nodup ∧ (∀ service ∈ services, service.name ∉ names) ∧
        names' = (services.map Service.name).reverse ++ names := by
  have hround : ∀ names service names', manifest.validateService names service = .ok names' ↔
      manifest.ServiceRules service ∧ service.name ∉ names ∧ names' = service.name :: names :=
    fun _ _ _ => validateService_eq_ok
  exact Checks.foldlM_keys_eq_ok hround

theorem jobs_eq_ok {jobs : List Job} :
    jobs.foldlM manifest.validateJob names = .ok names' ↔
      (∀ job ∈ jobs, manifest.JobRules job) ∧
        (jobs.map Job.name).Nodup ∧ (∀ job ∈ jobs, job.name ∉ names) ∧
        names' = (jobs.map Job.name).reverse ++ names := by
  have hround : ∀ names job names', manifest.validateJob names job = .ok names' ↔
      manifest.JobRules job ∧ job.name ∉ names ∧ names' = job.name :: names :=
    fun _ _ _ => validateJob_eq_ok
  exact Checks.foldlM_keys_eq_ok hround

/-- A manifest is valid if and only if it meets the rules. -/
theorem validate_iff (manifest : ProjectManifest) :
    manifest.validate = .ok () ↔ manifest.Rules := by
  have hnew : ∀ job ∈ manifest.jobs,
      job.name ∉ (manifest.services.map Service.name).reverse ++ [] ↔
        ∀ name ∈ manifest.services.map Service.name, name ≠ job.name := by
    intro job _
    rw [List.append_nil, List.mem_reverse]
    exact ⟨fun hnot name hmem heq => hnot (heq ▸ hmem), fun hne hmem => hne _ hmem rfl⟩
  rw [validate, Checks.check_bind_eq_ok, refuse_eq_ok, not_not, Checks.check_bind_eq_ok,
    Build.validate_eq_ok, Checks.check_bind_eq_ok, Checks.forM_eq_ok, Checks.bind_eq_ok]
  constructor
  · rintro ⟨hversion, hbuild, hsecrets, names, h, hrest⟩
    obtain ⟨hservices, hdistinct, -, rfl⟩ := services_eq_ok.mp h
    obtain ⟨names', h, -⟩ := Checks.bind_eq_ok.mp hrest
    obtain ⟨hjobs, hdistinct', hdisjoint, -⟩ := jobs_eq_ok.mp h
    refine ⟨hversion, hbuild, fun entry hmem => validateSecretName_eq_ok.mp (hsecrets entry hmem),
      hservices, hjobs, List.nodup_append.mpr ⟨hdistinct, hdistinct', ?_⟩⟩
    intro name hname other hother
    obtain ⟨job, hjob, rfl⟩ := List.mem_map.mp hother
    exact (hnew job hjob).mp (hdisjoint job hjob) name hname
  · intro h
    obtain ⟨hdistinct, hdistinct', hdisjoint⟩ := List.nodup_append.mp h.names
    refine ⟨h.version, h.dockerfile,
      fun entry hmem => validateSecretName_eq_ok.mpr (h.secretNames entry hmem), _,
      services_eq_ok.mpr ⟨h.services, hdistinct, fun _ _ => List.not_mem_nil, rfl⟩,
      Checks.bind_eq_ok.mpr ⟨_, jobs_eq_ok.mpr ⟨h.jobs, hdistinct', ?_, rfl⟩, rfl⟩⟩
    intro job hjob
    refine (hnew job hjob).mpr fun name hname => ?_
    exact hdisjoint name hname job.name (List.mem_map_of_mem hjob)

/-! ## Paths -/

/-- The paths of a manifest lead nowhere but down. -/
structure PathsConfined (manifest : ProjectManifest) : Prop where
  dockerfile : ∀ path, manifest.build.dockerfile = some path → Confined path
  agentConfigs : ∀ job ∈ manifest.jobs, ∀ path, job.agentConfig = some path → Confined path

/-- The paths of a manifest that is read are confined unless the dockerfile of
another strategy is not. -/
theorem pathsConfined_iff {fromToml : String → Except String ProjectManifest} {source : String}
    (h : parse fromToml source = .ok manifest) :
    manifest.PathsConfined ↔
      (manifest.build.strategy = .dockerfile ∨
        ∀ path, manifest.build.dockerfile = some path → Confined path) := by
  obtain ⟨read, -, h⟩ := Checks.bind_eq_ok.mp h
  obtain ⟨hvalid, h⟩ := Checks.check_bind_eq_ok.mp h
  obtain rfl := Except.ok.inj h
  have hrules := (validate_iff read).mp hvalid
  constructor
  · exact fun hpaths => .inr hpaths.dockerfile
  · intro hbuild
    refine ⟨?_, fun job hjob path hpath =>
      ((hrules.jobs job hjob).agentConfig path hpath).confined⟩
    intro path hpath
    rcases hbuild with hstrategy | hconfined
    · obtain ⟨path', hpath', hsafe⟩ := hrules.dockerfile hstrategy
      exact Option.some.inj (hpath'.symm.trans hpath) ▸ hsafe.confined
    · exact hconfined path hpath

/-- A build of the automatic strategy that names a file elsewhere. -/
def straySource : String :=
  "version = 1\n[build]\ndockerfile = \"../../etc/passwd\"\n"

/-- The manifest that is written there. -/
def strayManifest : ProjectManifest :=
  ⟨1, ⟨.auto, some "../../etc/passwd"⟩, [], [], .empty⟩

/-- What TOML makes of this text; every other is left out. -/
def strayToml (source : String) : Except String ProjectManifest :=
  if source = straySource then .ok strayManifest else .error "left out"

theorem parse_stray : parse strayToml straySource = .ok strayManifest := by
  rw [parse, strayToml, if_pos rfl]
  rfl

theorem pathsConfined_iff_stray :
    strayManifest.PathsConfined ↔
      (strayManifest.build.strategy = .dockerfile ∨
        ∀ path, strayManifest.build.dockerfile = some path → Confined path) :=
  pathsConfined_iff parse_stray

/-- It is read, and its dockerfile is outside. -/
theorem stray_dockerfile_accepted :
    parse strayToml straySource = .ok strayManifest ∧ ¬strayManifest.PathsConfined := by
  refine ⟨parse_stray, fun hpaths => ?_⟩
  exact (hpaths.dockerfile _ rfl).noParent (by decide +kernel)

end ProjectManifest

end

end Cresix.Core
