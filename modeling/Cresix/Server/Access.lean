import Cresix.Library.Concurrent
import Cresix.Rust.Http
import Cresix.Server.Api

/-!
# Who asks, and what they may do

A handler takes the lock of the database, does a transaction or a query, and
lets the lock go, several times over.  Here are the sections a handler is made
of, the authentication of a cookie session and of an opaque token, and the
checks of the caller's role.  Each of them takes the lock for itself.
-/

namespace Cresix.Server

open Concurrent (Program)
open Concurrent.Program (check)
open Git (GitError)

/-! ## Sections -/

/-- The database, and the time the clock shows. -/
structure Store where
  db : Database
  clock : Instant
deriving DecidableEq

/-- `c6_git::SmartHttpError`. -/
inductive SmartHttpError where
  | invalidRequest
  | requestTooLarge
  | responseTooLarge
  | timeout
  | unavailable
  | backendFailed
  | invalidResponse
  | invalidRepository
deriving DecidableEq, Repr

/-- `c6_git::SmartHttpResponse`. -/
structure SmartHttpResponse where
  status : Nat
  headers : List (String × String)
  body : List UInt8
deriving DecidableEq, Repr

/-- What a section is told from outside. -/
structure Input where
  /-- The time that passes before each reading of the clock. -/
  waits : Nat × Nat × Nat
  /-- The identifiers and tokens that are drawn, in order. -/
  random : Nat → String
  /-- The lock, a statement or the commit fails. -/
  fault : Bool
  /-- `GitStore::create`. -/
  create : Except GitError Unit
  /-- `Repository::commit_changes`. -/
  commitChanges : Except GitError String
  /-- `cleanup_new_repository` succeeds. -/
  cleanup : Bool
  /-- `GitStore::open` and `Repository::list_branches`. -/
  branches : Except GitError (List String)
  /-- `GitStore::open` and `Repository::list_commits`. -/
  commits : Except GitError Unit
  /-- `GitStore::open`. -/
  opened : Bool
  /-- `SmartHttpBackend::advertise` and `SmartHttpBackend::upload_pack`, on the
  repository that was opened. -/
  smartHttp : Except SmartHttpError SmartHttpResponse
  /-- `ValidatedSchedule::new` and `next_after`. -/
  schedule : Except String Instant

/-- The readings of the clock in a section. -/
structure Readings where
  first : Instant
  second : Instant
  third : Instant

/-- The readings of a section that starts when the clock shows `clock`. -/
def Input.readings (i : Input) (clock : Instant) : Readings where
  first := clock + i.waits.1
  second := clock + i.waits.1 + i.waits.2.1
  third := clock + i.waits.1 + i.waits.2.1 + i.waits.2.2

/-- A handler of the browser API. -/
abbrev Handler := Program Store Input ApiError

section

variable {ε α : Type}

/-- Work under the lock.  A failure rolls it back. -/
def attempt (fault : ε) (work : Input → Readings → Database → Except ε (α × Database))
    (i : Input) (s : Store) : Except ε α × Store :=
  let now := i.readings s.clock
  match if i.fault then .error fault else work i now s.db with
  | .ok (value, db) => (.ok value, ⟨db, now.third⟩)
  | .error error => (.error error, ⟨s.db, now.third⟩)

/-- A section of work under the lock. -/
def underLock (fault : ε) (work : Input → Readings → Database → Except ε (α × Database)) :
    Program Store Input ε α :=
  .step (attempt fault work)

theorem attempt_cases (fault : ε)
    (work : Input → Readings → Database → Except ε (α × Database)) (i : Input) (s : Store) :
    (∃ value db, work i (i.readings s.clock) s.db = .ok (value, db) ∧
      attempt fault work i s = (.ok value, ⟨db, (i.readings s.clock).third⟩)) ∨
    ∃ error, attempt fault work i s = (.error error, ⟨s.db, (i.readings s.clock).third⟩) := by
  unfold attempt
  cases hwork : (if i.fault then .error fault else work i (i.readings s.clock) s.db) with
  | error error =>
      right
      exact ⟨error, by simp only [hwork]⟩
  | ok result =>
      obtain ⟨value, db⟩ := result
      left
      refine ⟨value, db, ?_, by simp only [hwork]⟩
      split at hwork
      next => cases hwork
      next => exact hwork

/-- A transaction of a handler. -/
def transaction (work : Input → Readings → Database → Outcome (α × Database)) : Handler α :=
  underLock .internal work

/-- A section that changes no table. -/
def query (ask : Readings → Database → Outcome α) : Handler α :=
  transaction fun _ now db => do
    let value ← ask now db
    return (value, db)

/-- Asks something that is not the database. -/
def consult (ask : Input → Readings → Outcome α) : Handler α :=
  .step fun i s => (ask i (i.readings s.clock), ⟨s.db, (i.readings s.clock).third⟩)

end

/-! ## Cookie sessions -/

/-- What the server is configured with; `hash` is SHA-256 in hexadecimal. -/
structure Config where
  hash : String → String
  publicBaseUrl : String
  gitHttp : Bool

structure Principal where
  userId : String
  displayName : String
  sessionId : String
  csrfHash : String
  deviceId : Option String
deriving DecidableEq, Repr

namespace Database

/-- The session is good at the instant: `authenticate` lets it through. -/
def sessionLive (db : Database) (now : Instant) (row : SessionRow) : Bool :=
  row.revokedAt.isNone && db.userLive row.userId
    && (db.deviceOf row.deviceId).all (·.revokedAt.isNone) && now < row.expiresAt

/-- The query of `authenticate`. -/
def sessionPrincipal (db : Database) (tokenHash : String) (now : Instant) : Option Principal := do
  let row ← db.sessions.find? fun row => row.tokenHash = tokenHash && db.sessionLive now row
  let user ← db.users.find? fun user => user.id = row.userId && user.revokedAt.isNone
  return ⟨user.id, user.displayName, row.id, row.csrfHash, row.deviceId⟩

end Database

/-- The end of `authenticate`, for a request that changes something. -/
def checkCsrf (config : Config) (headers : Headers) (p : Principal) : Outcome Unit := do
  let supplied ← orElse (headers.csrf.bind headerText) (.forbidden "missing CSRF token")
  let csrfCookie ← orElse (cookie headers csrfCookie) (.forbidden "missing CSRF cookie")
  require (secureEq supplied csrfCookie && secureEq p.csrfHash (config.hash supplied))
    (.forbidden "invalid CSRF token")

/-- `authenticate`. -/
def authenticate (config : Config) (headers : Headers) (csrf : Bool) : Handler Principal := do
  check (require headers.authorization.isEmpty .unauthenticated)
  let token ← check (orElse (cookie headers sessionCookie) .unauthenticated)
  let p ← query fun now db =>
    orElse (db.sessionPrincipal (config.hash token) now.first) .unauthenticated
  check (if csrf then checkCsrf config headers p else .ok ())
  return p

/-! ## Opaque tokens -/

structure TokenPrincipal where
  userId : String
  displayName : String
  workspaceId : Option String
  projectId : Option String
deriving DecidableEq, Repr

namespace Database

/-- The credential is good at the instant. -/
def credentialLive (db : Database) (now : Instant) (row : CredentialRow) : Bool :=
  row.revokedAt.isNone && now < row.expiresAt && db.userLive row.userId
    && row.deviceId.all db.deviceLive

/-- The query of `authenticate_opaque_token`. -/
def tokenOwner (db : Database) (publicId : String) (expected : CredentialType) (now : Instant) :
    Option (CredentialRow × UserRow) := do
  let row ← db.credentials.find? fun row =>
    row.publicId = publicId && row.credentialType = expected && db.credentialLive now row
  let user ← db.users.find? fun user => user.id = row.userId && user.revokedAt.isNone
  return (row, user)

end Database

/-- `authenticate_opaque_token`. -/
def authenticateOpaqueToken (config : Config) (token : String) (expected : CredentialType)
    (scope : CredentialScope) : Handler TokenPrincipal := do
  let publicId ← check (parseOpaqueToken token expected)
  transaction fun _ now db => do
    let (row, user) ← orElse (db.tokenOwner publicId expected now.first) .unauthenticated
    require (secureEq row.verifier (config.hash token)) .unauthenticated
    require (row.scopes.contains scope)
      (.forbidden "credential scope does not allow this operation")
    let credentials := Table.update (·.id = row.id)
      (fun row => { row with lastUsedAt := some now.second }) db.credentials
    return (⟨user.id, user.displayName, row.workspaceId, row.projectId⟩, { db with credentials })

/-- `validate_optional_origin`. -/
def validateOptionalOrigin (config : Config) (headers : Headers) : Outcome Unit :=
  match headers.origin with
  | none => .ok ()
  | some origin => do
      let origin ← orElse (headerText origin) (.forbidden "invalid Origin header")
      require (Rust.trimEndMatches '/' origin = config.publicBaseUrl)
        (.forbidden "cross-origin request rejected")

/-- The token of `authenticate_bearer`. -/
def bearerToken (config : Config) (headers : Headers) : Outcome String := do
  require (cookie headers sessionCookie).isNone .unauthenticated
  validateOptionalOrigin config headers
  match headers.authorization with
  | [value] =>
      let authorization ← orElse (headerText value) .unauthenticated
      orElse (Rust.stripPrefix authorization "Bearer ") .unauthenticated
  | _ => .error .unauthenticated

/-- `authenticate_bearer`. -/
def authenticateBearer (config : Config) (headers : Headers) (scope : CredentialScope) :
    Handler TokenPrincipal := do
  let token ← check (bearerToken config headers)
  authenticateOpaqueToken config token .cli scope

/-! ## Roles -/

/-- `require_global_owner`. -/
def requireGlobalOwner (p : Principal) : Handler Unit :=
  query fun _ db =>
    require (db.serverOwner = some p.userId) (.forbidden "server administrator required")

/-- `require_role`. -/
def requireRole (p : Principal) (workspaceId minimum : String) : Handler Unit :=
  query fun _ db => requireRoleTx db p.userId workspaceId minimum

/-- `project_workspace`. -/
def projectWorkspace (id : String) : Handler String :=
  query fun _ db => orElse (db.projectWorkspace id) (.notFound "project")

/-- `project_auth`. -/
def projectAuth (config : Config) (headers : Headers) (id minimum : String) (csrf : Bool) :
    Handler Principal := do
  let p ← authenticate config headers csrf
  let workspaceId ← projectWorkspace id
  requireRole p workspaceId minimum
  return p

/-- `membership_role`. -/
def membershipRole (userId workspaceId : String) : Handler String :=
  query fun _ db => orElse (db.role userId workspaceId) .internal

/-- `project_head`. -/
def projectHead (id : String) : Handler String :=
  query fun _ db => orElse ((db.projects.find? (·.id = id)).map (·.headSha)) .internal

/-- `validate_revision_exists`. -/
def validateRevisionExists (revision : String) : Handler Unit := do
  check (validateRevision revision)
  consult fun i _ => orGit i.commits

/-! ## Git over HTTP -/

/-- A status and a message. -/
structure GitHttpError where
  status : Nat
  message : String
deriving DecidableEq, Repr

namespace GitHttpError

def unauthenticated : GitHttpError := ⟨401, "authentication required"⟩

def projectNotFound : GitHttpError := ⟨404, "project not found"⟩

def forbidden : GitHttpError := ⟨403, "Git access forbidden"⟩

def failed : GitHttpError := ⟨500, "Git request failed"⟩

end GitHttpError

/-- The token of `authenticate_git`. -/
def gitToken (headers : Headers) : Option String := do
  guard (cookie headers sessionCookie).isNone
  match headers.authorization with
  | [value] =>
      let value ← headerText value
      guard (Rust.len value ≤ 1024)
      let encoded ← Rust.stripPrefix value "Basic "
      let decoded ← Rust.Base64.standard (Rust.bytes encoded)
      let decoded ← String.fromUTF8? ⟨decoded.toArray⟩
      let (username, token) ← Rust.splitOnce ':' decoded.toList
      guard (String.ofList username = "c6" && !token.contains ':')
      return String.ofList token
  | _ => none

/-- `authenticate_git`. -/
def authenticateGit (config : Config) (headers : Headers) :
    Program Store Input GitHttpError TokenPrincipal :=
  match gitToken headers with
  | none => .fail .unauthenticated
  | some token =>
      (authenticateOpaqueToken config token .git .gitRead).mapError fun error =>
        if error.status = 403 then .forbidden else .unauthenticated

/-- `git_project_slug`. -/
def gitProjectSlug (repositoryName : String) : Except GitHttpError String :=
  match Rust.stripSuffix repositoryName ".git" with
  | some slug => if slug.isEmpty then .error .projectNotFound else .ok slug
  | none => .error .projectNotFound

/-- The query of `authorize_git_project`. -/
def Database.projectBySlug (db : Database) (workspaceSlug projectSlug : String) :
    Option ProjectRow :=
  db.projects.find? fun project =>
    project.slug = projectSlug &&
      db.workspaces.any fun workspace =>
        workspace.id = project.workspaceId && workspace.slug = workspaceSlug

/-- What `authorize_git_project` decides under the lock. -/
def gitProjectAllowed (p : TokenPrincipal) (workspaceSlug projectSlug minimum : String)
    (db : Database) : Except GitHttpError String :=
  match db.projectBySlug workspaceSlug projectSlug with
  | none => .error .projectNotFound
  | some project =>
      match db.role p.userId project.workspaceId with
      | none => .error .projectNotFound
      | some role =>
          if p.workspaceId.any (· ≠ project.workspaceId) || p.projectId.any (· ≠ project.id) then
            .error .projectNotFound
          else if roleRank role < roleRank minimum then .error .forbidden
          else .ok project.id

/-- `authorize_git_project`: the identifier of the project whose repository is
opened. -/
def authorizeGitProject (p : TokenPrincipal) (workspaceSlug projectSlug minimum : String) :
    Program Store Input GitHttpError String := do
  check (match validateSlug workspaceSlug with
    | .ok () => .ok ()
    | .error _ => .error .projectNotFound)
  check (match validateSlug projectSlug with
    | .ok () => .ok ()
    | .error _ => .error .projectNotFound)
  underLock .failed fun i _ db =>
    match gitProjectAllowed p workspaceSlug projectSlug minimum db with
    | .error error => .error error
    | .ok id => if i.opened then .ok (id, db) else .error .projectNotFound

/-- `git_protocol_header`. -/
def gitProtocolHeader (headers : Headers) : Except GitHttpError (Option String) :=
  match headers.gitProtocol with
  | [] => .ok none
  | [value] =>
      match headerText value with
      | some value => .ok (some value)
      | none => .error ⟨400, "invalid Git-Protocol header"⟩
  | _ => .error ⟨400, "invalid Git-Protocol header"⟩

/-- `map_smart_http_error`. -/
def mapSmartHttpError : SmartHttpError → GitHttpError
  | .invalidRequest => ⟨400, "invalid Git request"⟩
  | .requestTooLarge => ⟨413, "Git request too large"⟩
  | .timeout => ⟨504, "Git request timed out"⟩
  | .unavailable => ⟨503, "Git transport unavailable"⟩
  | .invalidRepository => .projectNotFound
  | .responseTooLarge | .backendFailed | .invalidResponse => .failed

/-- `smart_http_response`. -/
def smartHttpResponse (result : SmartHttpResponse) : Except GitHttpError SmartHttpResponse :=
  if Rust.Http.isStatus result.status
      && result.headers.all (fun (name, value) =>
        Rust.Http.isHeaderName name && Rust.Http.isHeaderValue value) then .ok result
  else .error ⟨500, "invalid Git response"⟩

/-- What the backend answers, as a response. -/
def askBackend : Program Store Input GitHttpError SmartHttpResponse :=
  .step fun i s =>
    (match i.smartHttp with
      | .ok result => smartHttpResponse result
      | .error error => .error (mapSmartHttpError error),
      ⟨s.db, (i.readings s.clock).third⟩)

end Cresix.Server
