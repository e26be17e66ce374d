import Cresix.Git.Branch
import Cresix.Rust.Base64
import Cresix.Server.Database

/-!
# Requests and errors of the server

What the endpoints are given, the checks a request passes on its own, and the
errors the endpoints answer with.
-/

namespace Cresix.Server

open Git (GitError)

/-! ## Errors -/

/-- A status, a code and a message. -/
structure ApiError where
  status : Nat
  code : String
  message : String
deriving DecidableEq, Repr

namespace ApiError

def bad (message : String) : ApiError := ⟨400, "bad_request", message⟩

def unauthenticated : ApiError := ⟨401, "unauthenticated", "authentication required"⟩

def forbidden (message : String) : ApiError := ⟨403, "forbidden", message⟩

def notFound (kind : String) : ApiError := ⟨404, "not_found", s!"{kind} not found"⟩

def conflict (message : String) : ApiError := ⟨409, "conflict", message⟩

def internal : ApiError := ⟨500, "internal", "internal server error"⟩

end ApiError

/-- The outcome of a step of an endpoint. -/
abbrev Outcome := Except ApiError

/-- `map_err(ApiError::internal)` on a statement. -/
def orInternal {α : Type} : Except Database.SqlError α → Outcome α
  | .ok value => .ok value
  | .error _ => .error .internal

/-- `map_err(map_conflict)` on a statement. -/
def orConflict {α : Type} : Except Database.SqlError α → Outcome α
  | .ok value => .ok value
  | .error .unique => .error (.conflict "resource already exists")
  | .error .constraint => .error .internal

/-- `map_git`. -/
def mapGit : GitError → ApiError
  | .notFound _ | .revisionNotFound _ => .notFound "repository revision"
  | .invalidRef value => .bad (GitError.invalidRef value).message
  | .invalidPath value => .bad (GitError.invalidPath value).message
  | .limitExceeded value => .bad (GitError.limitExceeded value).message
  | _ => .internal

/-- `map_err(map_git)`. -/
def orGit {α : Type} : Except GitError α → Outcome α
  | .ok value => .ok value
  | .error error => .error (mapGit error)

/-- Goes on when the condition holds. -/
def require (condition : Bool) (error : ApiError) : Outcome Unit :=
  if condition then .ok () else .error error

/-- `ok_or_else`. -/
def orElse {α : Type} (value : Option α) (error : ApiError) : Outcome α :=
  match value with
  | some value => .ok value
  | none => .error error

section

variable {α β : Type} {error : ApiError}

theorem orInternal_eq_ok {x : Except Database.SqlError α} {a : α} :
    orInternal x = .ok a ↔ x = .ok a := by
  cases x with
  | error e => simp [orInternal]
  | ok a' => simp [orInternal]

theorem orConflict_eq_ok {x : Except Database.SqlError α} {a : α} :
    orConflict x = .ok a ↔ x = .ok a := by
  cases x with
  | error e => cases e <;> simp [orConflict]
  | ok a' => simp [orConflict]

theorem require_eq_ok {condition : Bool} {u : Unit} :
    require condition error = .ok u ↔ condition = true := by
  cases condition <;> simp [require]

theorem orElse_eq_ok {value : Option α} {a : α} :
    orElse value error = .ok a ↔ value = some a := by
  cases value <;> simp [orElse]

theorem require_eq_error {condition : Bool} {error' : ApiError}
    (h : require condition error = .error error') : error' = error := by
  cases condition with
  | true => cases h
  | false =>
      cases h
      rfl

theorem orElse_eq_error {value : Option α} {error' : ApiError}
    (h : orElse value error = .error error') : error' = error := by
  cases value with
  | some value => cases h
  | none =>
      cases h
      rfl

end

/-! ## Headers -/

/-- The headers an endpoint looks at. -/
structure Headers where
  /-- The values of `Authorization`. -/
  authorization : List String
  /-- The value of `Cookie`. -/
  cookie : Option String
  /-- The value of `x-c6-csrf`. -/
  csrf : Option String
  /-- The value of `Origin`. -/
  origin : Option String
  /-- The values of `Git-Protocol`. -/
  gitProtocol : List String
deriving DecidableEq, Repr

/-- `HeaderValue::to_str`: only visible ASCII, blanks and tabs. -/
def headerText (value : String) : Option String :=
  if value.toList.all fun c => (0x20 ≤ c.val && c.val < 0x7f) || c.val == 0x09 then some value
  else none

def sessionCookie : String := "c6_session"

def csrfCookie : String := "c6_csrf"

/-- `cookie`. -/
def cookie (headers : Headers) (name : String) : Option String := do
  let text ← headerText (← headers.cookie)
  (Rust.split ';' text.toList).findSome? fun piece => do
    let (key, value) ← Rust.splitOnce '=' (Rust.trim piece)
    if String.ofList key = name then some (String.ofList value) else none

/-- `secure_eq`. -/
def secureEq (a b : String) : Bool :=
  Rust.len a = Rust.len b &&
    ((Rust.bytes a).zip (Rust.bytes b)).foldl (fun d (x, y) => d ||| (x ^^^ y)) 0 = 0

theorem foldl_xor_eq_zero {pairs : List (UInt8 × UInt8)} {d : UInt8} :
    pairs.foldl (fun d (x, y) => d ||| (x ^^^ y)) d = 0 ↔
      d = 0 ∧ ∀ pair ∈ pairs, pair.1 = pair.2 := by
  induction pairs generalizing d with
  | nil => simp
  | cons pair pairs ih =>
      rw [List.foldl_cons, ih, UInt8.or_eq_zero_iff, UInt8.xor_eq_zero_iff, List.forall_mem_cons,
        and_assoc]

/-- The folded comparison is equality. -/
theorem secureEq_iff {a b : String} : secureEq a b = true ↔ a = b := by
  rw [secureEq, Bool.and_eq_true, decide_eq_true_iff, decide_eq_true_iff, foldl_xor_eq_zero]
  constructor
  · rintro ⟨hlen, -, hpairs⟩
    rw [← Rust.length_bytes, ← Rust.length_bytes] at hlen
    apply Rust.bytes_injective
    apply List.ext_getElem hlen
    intro n hn hn'
    exact hpairs _ (List.mem_iff_getElem.mpr ⟨n, by simpa [hlen] using hn', List.getElem_zip⟩)
  · rintro rfl
    refine ⟨rfl, rfl, fun pair hpair => ?_⟩
    obtain ⟨n, hn, rfl⟩ := List.mem_iff_getElem.mp hpair
    rw [List.getElem_zip]

/-! ## Requests -/

structure BootstrapRequest where
  token : String
  displayName : String
  deviceLabel : String
  publicKey : String
deriving DecidableEq, Repr

structure InviteRequest where
  role : String
  expiresInMinutes : Option Int
  workspaceId : Option String
deriving DecidableEq, Repr

structure RedeemRequest where
  token : String
  displayName : String
  deviceLabel : String
  publicKey : String
deriving DecidableEq, Repr

structure WorkspaceRequest where
  slug : String
  name : String
deriving DecidableEq, Repr

structure ProjectRequest where
  workspaceId : String
  slug : String
  name : String
  description : String
  defaultBranch : String
deriving DecidableEq, Repr

structure PullRequestInput where
  title : String
  body : String
  sourceBranch : String
  targetBranch : String
deriving DecidableEq, Repr

structure DeploymentInput where
  revisionSha : String
  environment : String
deriving DecidableEq, Repr

structure RunInput where
  job : String
  kind : String
  revisionSha : Option String
deriving DecidableEq, Repr

structure ScheduleInput where
  job : String
  cron : String
  timezone : String
  concurrency : String
  enabled : Bool
deriving DecidableEq, Repr

structure SecretInput where
  name : String
deriving DecidableEq, Repr

structure CredentialResourceRestriction where
  workspaceId : Option String
  projectId : Option String
deriving DecidableEq, Repr

structure CreateCredentialRequest where
  credentialType : CredentialType
  label : String
  expiresAt : Option Instant
  scopes : List CredentialScope
  restriction : Option CredentialResourceRestriction
deriving DecidableEq, Repr

/-! ## Validation -/

/-- `nonempty`. -/
def nonempty (name value : String) (max : Nat) : Outcome Unit :=
  require (!(value.toList.all Rust.isWhitespace || max < Rust.len value))
    (.bad s!"{name} must be 1-{max} characters")

/-- `validate_slug`. -/
def validateSlug (slug : String) : Outcome Unit :=
  require
    (2 ≤ Rust.len slug && Rust.len slug ≤ 63
      && (Rust.bytes slug).all (fun b => Rust.isAsciiLowercase b || Rust.isAsciiDigit b || b == 0x2d)
      && !Rust.startsWith slug "-" && !Rust.endsWith slug "-")
    (.bad "slug must be 2-63 lowercase letters, digits, or hyphens")

/-- `validate_identity`. -/
def validateIdentity (name label key : String) : Outcome Unit := do
  nonempty "displayName" name 120
  nonempty "deviceLabel" label 120
  require (!(Rust.len key < 32 || 8192 < Rust.len key))
    (.bad "publicKey must be 32-8192 characters")

/-- `validate_project`. -/
def validateProject (input : ProjectRequest) : Outcome Unit := do
  validateSlug input.slug
  nonempty "name" input.name 120
  require (!(4096 < Rust.len input.description)) (.bad "description exceeds 4096 bytes")
  orGit (Git.validateBranch input.defaultBranch)

/-- `validate_secret_name`. -/
def validateSecretName (name : String) : Outcome Unit :=
  require
    (Rust.len name ≤ 128 && !name.isEmpty
      && (Rust.bytes name).all fun b => Rust.isAsciiUppercase b || Rust.isAsciiDigit b || b == 0x5f)
    (.bad "secret name must contain only A-Z, 0-9, and underscore")

/-- `validate_credential_label`. -/
def validateCredentialLabel (label : String) : Outcome Unit := do
  nonempty "label" label 80
  require (label.toList.all fun c => !Rust.isControl c) (.bad "label must contain printable characters")

/-- The syntax check of `validate_revision_exists`. -/
def validateRevision (revision : String) : Outcome Unit :=
  require
    ((Rust.len revision = 40 || Rust.len revision = 64)
      && (Rust.bytes revision).all fun b => Rust.isAsciiDigit b || (0x61 ≤ b && b ≤ 0x66))
    (.bad "revisionSha must be a full lowercase Git object ID")

/-! ## Roles -/

/-- The names of the roles. -/
def roles : List String := ["consumer", "reader", "runner", "contributor", "maintainer", "owner"]

/-- `role_rank`. -/
def roleRank : String → Nat
  | "consumer" => 0
  | "reader" => 1
  | "runner" => 2
  | "contributor" => 3
  | "maintainer" => 4
  | "owner" => 5
  | _ => 0

/-- `validate_role`. -/
def validateRole (role : String) : Outcome Unit :=
  require (roles.contains role) (.bad "invalid role")

/-- The role of the user in the workspace is at least the minimum. -/
def Database.hasRole (db : Database) (userId workspaceId minimum : String) : Bool :=
  (db.role userId workspaceId).any fun role => roleRank minimum ≤ roleRank role

/-- `require_role_tx`. -/
def requireRoleTx (db : Database) (userId workspaceId minimum : String) : Outcome Unit :=
  require (db.hasRole userId workspaceId minimum) (.forbidden s!"{minimum} role required")

/-! ## Opaque tokens -/

/-- `CredentialType::token_prefix`. -/
def CredentialType.tokenPrefix : CredentialType → String
  | .cli => "c6c_v1"
  | .git => "c6g_v1"

/-- `CredentialType::allowed_scopes`. -/
def CredentialType.allowedScopes : CredentialType → List CredentialScope
  | .cli => [.apiRead, .apiWrite]
  | .git => [.gitRead, .gitWrite]

/-- `parse_opaque_token`. -/
def parseOpaqueToken (token : String) (expected : CredentialType) : Outcome String := do
  require (!(256 < Rust.len token
    || (Rust.bytes token).any fun b => b == 0x20 || b == 0x09 || b == 0x0a || b == 0x0c || b == 0x0d))
    .unauthenticated
  let rest ← orElse (Rust.stripPrefix token s!"{expected.tokenPrefix}_") .unauthenticated
  require (Rust.len rest = 60 && (Rust.bytes rest)[16]? = some 0x5f) .unauthenticated
  let publicId := Rust.truncate rest 16
  require
    (Rust.len publicId = 16 && (Rust.bytes rest).length - 17 = 43
      && (Rust.Base64.urlSafeNoPad ((Rust.bytes rest).take 16)).any (·.length = 12)
      && (Rust.Base64.urlSafeNoPad ((Rust.bytes rest).drop 17)).any (·.length = 32))
    .unauthenticated
  return publicId

end Cresix.Server
