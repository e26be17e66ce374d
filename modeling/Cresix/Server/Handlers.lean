import Cresix.Server.Access

/-!
# The endpoints of the server

A handler checks its request, finds out who asks and whether they may, and then
does one transaction, which is a function of its own here.  `program` is the
handler of a request.

Left out are the handlers that only read with a cookie session and that no
other handler calls: they change no table.
-/

namespace Cresix.Server

open Concurrent (Program)
open Concurrent.Program (check)

/-! ## Answers -/

/-- What a handler answers. -/
inductive Reply where
  /-- `session_response`: the token, the CSRF token, the expiry and the user. -/
  | issued (token csrf : String) (expiresAt : Instant) (userId displayName : String)
  | invite (id token : String) (expiresAt : Instant) (inviteUrl : String)
  | session (userId displayName : String) (workspaces : List (WorkspaceRow × String))
      (serverAdministrator : Bool) (expiresAt : Instant)
  | noContent
  | credential (row : CredentialRow) (token : String)
  | whoami (serverId userId displayName : String) (workspaces : List (WorkspaceRow × String))
  | projects (rows : List (ProjectRow × String))
  | remote (projectId cloneUrl : String) (fetch push : Bool)
  | git (response : SmartHttpResponse)
  | workspace (id slug name role : String)
  | project (row : ProjectRow) (role : String)
  | pullRequest (row : PullRequestRow)
  | deployment (row : DeploymentRow)
  | run (row : RunRow)
  | schedule (row : ScheduleRow) (nextOccurrence : Instant)
  | secretMetadata (row : SecretMetadataRow)
deriving DecidableEq, Repr

/-! ## Claims, invitations and sessions -/

def sessionHours : Int := 24 * 30

/-- `issue_session`: the token, the CSRF token and the expiry. -/
def issueSession (config : Config) (random : Nat → String) (now : Instant)
    (userId deviceId : String) (db : Database) :
    Outcome ((String × String × Instant) × Database) := do
  let token := random 1
  let csrf := random 2
  let expires := now + hours sessionHours
  let db ← orInternal (db.insertSession
    ⟨random 0, userId, some deviceId, config.hash token, config.hash csrf, now, expires, none⟩)
  return ((token, csrf, expires), db)

/-- The transaction of `claim`. -/
def claimTx (config : Config) (input : BootstrapRequest) (i : Input) (now : Readings)
    (db : Database) : Outcome (Reply × Database) := do
  require db.users.isEmpty (.conflict "server already claimed")
  let expected ← orElse (db.setting "bootstrap_hash") .internal
  require (secureEq expected (config.hash input.token)) (.forbidden "invalid bootstrap token")
  let userId := i.random 0
  let deviceId := i.random 1
  let db ← orInternal (db.insertUser ⟨userId, input.displayName, none⟩)
  let db ← orInternal (db.insertSetting "server_owner_id" userId)
  let db ← orConflict (db.insertDevice
    ⟨deviceId, userId, input.deviceLabel, input.publicKey, now.first, none⟩)
  let db := db.deleteSetting "bootstrap_hash"
  let ((token, csrf, expires), db) ←
    issueSession config (fun n => i.random (n + 2)) now.second userId deviceId db
  return (.issued token csrf expires userId input.displayName, db)

/-- `claim`. -/
def claim (config : Config) (input : BootstrapRequest) : Handler Reply := do
  check (validateIdentity input.displayName input.deviceLabel input.publicKey)
  transaction (claimTx config input)

/-- The transaction of `create_invite`. -/
def createInviteTx (config : Config) (input : InviteRequest) (lifetime : Int) (p : Principal)
    (i : Input) (now : Readings) (db : Database) : Outcome (Reply × Database) := do
  (match input.workspaceId with
    | some workspaceId => requireRoleTx db p.userId workspaceId "owner"
    | none => .ok ())
  let id := i.random 0
  let token := i.random 1
  let created := now.first
  let expires := created + minutes lifetime
  let db ← orInternal (db.insertInvite
    ⟨id, config.hash token, input.role, input.workspaceId, p.userId, created, expires, none, none⟩)
  return (.invite id token expires s!"{config.publicBaseUrl}/join#token={token}", db)

/-- `create_invite`. -/
def createInvite (config : Config) (headers : Headers) (input : InviteRequest) :
    Handler Reply := do
  let p ← authenticate config headers true
  requireGlobalOwner p
  check (validateRole input.role)
  let lifetime := input.expiresInMinutes.getD 30
  check (require (1 ≤ lifetime && lifetime ≤ 10080)
    (.bad "expiresInMinutes must be between 1 and 10080"))
  transaction (createInviteTx config input lifetime p)

/-- The transaction of `redeem_invite`. -/
def redeemInviteTx (config : Config) (input : RedeemRequest) (i : Input) (now : Readings)
    (db : Database) : Outcome (Reply × Database) := do
  let invite ← orElse (db.invites.find? fun row => row.tokenHash = config.hash input.token)
    (.forbidden "invalid invitation")
  require invite.redeemedAt.isNone (.conflict "invitation already redeemed")
  require (now.first < invite.expiresAt) (.forbidden "invitation expired")
  let userId := i.random 0
  let deviceId := i.random 1
  let created := now.second
  let db ← orInternal (db.insertUser ⟨userId, input.displayName, none⟩)
  let db ← orConflict (db.insertDevice
    ⟨deviceId, userId, input.deviceLabel, input.publicKey, created, none⟩)
  let db ← (match invite.workspaceId with
    | some workspaceId => orInternal (db.insertMembership ⟨workspaceId, userId, invite.role⟩)
    | none => .ok db)
  let unredeemed : InviteRow → Bool := fun row => row.id = invite.id && row.redeemedAt.isNone
  require (Table.changed unredeemed db.invites = 1) (.conflict "invitation already redeemed")
  let invites := Table.update unredeemed
    (fun row => { row with redeemedAt := some created, redeemedBy := some userId }) db.invites
  let ((token, csrf, expires), db) ← issueSession config (fun n => i.random (n + 2)) now.third
    userId deviceId { db with invites }
  return (.issued token csrf expires userId input.displayName, db)

/-- `redeem_invite`. -/
def redeemInvite (config : Config) (input : RedeemRequest) : Handler Reply := do
  check (validateIdentity input.displayName input.deviceLabel input.publicKey)
  transaction (redeemInviteTx config input)

/-- The workspaces of a user with their roles, in the order of their names. -/
def Database.workspacesOf (db : Database) (userId : String) : List (WorkspaceRow × String) :=
  (db.workspaces.filterMap fun row => (db.role userId row.id).map fun role => (row, role)).mergeSort
    fun a b => a.1.name ≤ b.1.name

/-- The condition of the renewal in `session`. -/
def Database.renewable (db : Database) (id tokenHash csrfHash : String) (now : Instant)
    (row : SessionRow) : Bool :=
  row.id = id && row.tokenHash = tokenHash && row.csrfHash = csrfHash && row.revokedAt.isNone
    && now < row.expiresAt && db.userLive row.userId && row.deviceId.all db.deviceLive

/-- The transaction of `session`. -/
def sessionTx (config : Config) (token csrf : String) (p : Principal) (_i : Input)
    (now : Readings) (db : Database) : Outcome (Reply × Database) := do
  let checkedAt := now.first
  let expires := now.second + hours sessionHours
  let renewed := db.renewable p.sessionId (config.hash token) (config.hash csrf) checkedAt
  require (Table.changed renewed db.sessions = 1) .unauthenticated
  let sessions := Table.update renewed (fun row => { row with expiresAt := expires }) db.sessions
  return (.session p.userId p.displayName (db.workspacesOf p.userId)
    (db.serverOwner = some p.userId) expires, { db with sessions })

/-- `session`. -/
def session (config : Config) (headers : Headers) : Handler Reply := do
  let token ← check (orElse (cookie headers sessionCookie) .unauthenticated)
  let csrf ← check (orElse (cookie headers csrfCookie) .unauthenticated)
  let p ← authenticate config headers false
  check (require (secureEq p.csrfHash (config.hash csrf)) .unauthenticated)
  transaction (sessionTx config token csrf p)

/-- The transaction of `logout`. -/
def logoutTx (p : Principal) (_i : Input) (now : Readings) (db : Database) :
    Outcome (Reply × Database) :=
  let sessions := Table.update (·.id = p.sessionId)
    (fun row => { row with revokedAt := some now.first }) db.sessions
  .ok (.noContent, { db with sessions })

/-- `logout`. -/
def logout (config : Config) (headers : Headers) : Handler Reply := do
  let p ← authenticate config headers true
  transaction (logoutTx p)

/-! ## Revocations -/

/-- The transaction of `revoke_peer`. -/
def revokePeerTx (id : String) (_i : Input) (now : Readings) (db : Database) :
    Outcome (Reply × Database) := do
  let live : UserRow → Bool := fun row => row.id = id && row.revokedAt.isNone
  require (Table.changed live db.users ≠ 0) (.notFound "peer")
  let users := Table.update live (fun row => { row with revokedAt := some now.first }) db.users
  let sessions := Table.update (fun row => row.userId = id && row.revokedAt.isNone)
    (fun row => { row with revokedAt := some now.second }) db.sessions
  return (.noContent, { db with users, sessions })

/-- `revoke_peer`. -/
def revokePeer (config : Config) (headers : Headers) (id : String) : Handler Reply := do
  let p ← authenticate config headers true
  requireGlobalOwner p
  check (require (p.userId ≠ id) (.bad "cannot revoke your own peer"))
  transaction (revokePeerTx id)

/-- The transaction of `revoke_device`. -/
def revokeDeviceTx (id : String) (p : Principal) (_i : Input) (now : Readings) (db : Database) :
    Outcome (Reply × Database) := do
  let live : DeviceRow → Bool := fun row =>
    row.id = id && row.userId = p.userId && row.revokedAt.isNone
  require (Table.changed live db.devices ≠ 0) (.notFound "device")
  let devices := Table.update live (fun row => { row with revokedAt := some now.first }) db.devices
  let sessions := Table.update (fun row => row.deviceId = some id)
    (fun row => { row with revokedAt := some now.second }) db.sessions
  return (.noContent, { db with devices, sessions })

/-- `revoke_device`. -/
def revokeDevice (config : Config) (headers : Headers) (id : String) : Handler Reply := do
  let p ← authenticate config headers true
  transaction (revokeDeviceTx id p)

/-- The transaction of `revoke_session`. -/
def revokeSessionTx (id : String) (p : Principal) (_i : Input) (now : Readings)
    (db : Database) : Outcome (Reply × Database) := do
  let live : SessionRow → Bool := fun row =>
    row.id = id && row.userId = p.userId && row.revokedAt.isNone
  require (Table.changed live db.sessions ≠ 0) (.notFound "session")
  let sessions := Table.update live (fun row => { row with revokedAt := some now.first })
    db.sessions
  return (.noContent, { db with sessions })

/-- `revoke_session`. -/
def revokeSession (config : Config) (headers : Headers) (id : String) : Handler Reply := do
  let p ← authenticate config headers true
  transaction (revokeSessionTx id p)

/-! ## Credentials -/

/-- `validate_credential_restriction`, under the lock. -/
def validateCredentialRestriction (db : Database) (userId : String) :
    Option CredentialResourceRestriction → Outcome (Option String × Option String)
  | none => .ok (none, none)
  | some ⟨some workspaceId, none⟩ => do
      requireRoleTx db userId workspaceId "reader"
      return (some workspaceId, none)
  | some ⟨workspaceId, some project⟩ => do
      let actual ← orElse
        ((db.projectWorkspace project).filter fun actual => (db.role userId actual).isSome)
        (.notFound "project")
      require (workspaceId.all (· = actual)) (.bad "project is not in the restricted workspace")
      requireRoleTx db userId actual "reader"
      return (some actual, some project)
  | some ⟨none, none⟩ => .error (.bad "restriction must select a workspace or project")

/-- The scopes of a new credential: sorted, and each of them once. -/
def credentialScopes (scopes : List CredentialScope) : List CredentialScope :=
  [.apiRead, .apiWrite, .gitRead, .gitWrite].filter scopes.contains

/-- The transaction of `create_credential`. -/
def createCredentialTx (config : Config) (input : CreateCredentialRequest) (p : Principal)
    (created expires : Instant) (restriction : Option String × Option String) (i : Input)
    (_now : Readings) (db : Database) : Outcome (Reply × Database) := do
  let publicId := i.random 1
  let secret := i.random 2
  let token := s!"{input.credentialType.tokenPrefix}_{publicId}_{secret}"
  let row : CredentialRow :=
    ⟨i.random 0, publicId, config.hash token, p.userId, p.deviceId, input.label,
      input.credentialType, credentialScopes input.scopes, restriction.1, restriction.2, created,
      expires, none, none⟩
  let db ← orInternal (db.insertCredential row)
  return (.credential row token, db)

/-- `create_credential`.  The identifiers in the tables are UUIDs, so reading
them back as such does not fail. -/
def createCredential (config : Config) (headers : Headers) (input : CreateCredentialRequest) :
    Handler Reply := do
  let p ← authenticate config headers true
  check (validateCredentialLabel input.label)
  let scopes := credentialScopes input.scopes
  check (require
    (!(scopes.isEmpty || scopes.any (fun scope => !input.credentialType.allowedScopes.contains scope)
      || (input.credentialType = .git && scopes.contains .gitWrite)))
    (.bad "at least one valid scope is required"))
  let created ← consult fun _ now => .ok now.first
  let expires := input.expiresAt.getD (created + days 30)
  check (require (!(expires ≤ created || created + days 90 < expires))
    (.bad "expiresAt must be in the future and no more than 90 days away"))
  let restriction ← query fun _ db => validateCredentialRestriction db p.userId input.restriction
  transaction (createCredentialTx config input p created expires restriction)

/-- The transaction of `revoke_credential`. -/
def revokeCredentialTx (id : String) (p : Principal) (_i : Input) (now : Readings)
    (db : Database) : Outcome (Reply × Database) := do
  require (db.credentials.any fun row => row.id = id && row.userId = p.userId)
    (.notFound "credential")
  let credentials := Table.update
    (fun row => row.id = id && row.userId = p.userId && row.revokedAt.isNone)
    (fun row => { row with revokedAt := some now.first }) db.credentials
  return (.noContent, { db with credentials })

/-- `revoke_credential`. -/
def revokeCredential (config : Config) (headers : Headers) (id : String) : Handler Reply := do
  let p ← authenticate config headers true
  transaction (revokeCredentialTx id p)

/-! ## Reads with a token -/

/-- What `cli_whoami` answers. -/
def whoamiReply (p : TokenPrincipal) (db : Database) : Outcome Reply := do
  let serverId ← orElse (db.setting "server_id") .internal
  return .whoami serverId p.userId p.displayName
    ((db.workspacesOf p.userId).filter fun (row, _) => p.workspaceId.all (· = row.id))

/-- `cli_whoami`. -/
def cliWhoami (config : Config) (headers : Headers) : Handler Reply := do
  let p ← authenticateBearer config headers .apiRead
  query fun _ db => whoamiReply p db

/-- The credential a handler takes: a token when there is an `Authorization`
header, else the cookie session. -/
def tokenOrSession (config : Config) (headers : Headers) :
    Handler (String × Option TokenPrincipal) := do
  if headers.authorization.isEmpty then
    let p ← authenticate config headers false
    return (p.userId, none)
  else
    let p ← authenticateBearer config headers .apiRead
    return (p.userId, some p)

/-- The condition `list_projects` puts on a project for a token. -/
def TokenPrincipal.lists (p : TokenPrincipal) (row : ProjectRow) : Bool :=
  match p.workspaceId, p.projectId with
  | _, some id => row.id = id
  | some workspaceId, none => row.workspaceId = workspaceId
  | none, none => true

/-- What `list_projects` answers: the latest project first. -/
def projectsReply (userId : String) (p : Option TokenPrincipal) (db : Database) : Reply :=
  let rows := (db.projects.filter fun row => p.all (·.lists row)).filterMap fun row =>
    (db.role userId row.workspaceId).map fun role => (row, role)
  .projects (rows.mergeSort fun a b => b.1.updatedAt ≤ a.1.updatedAt)

/-- `list_projects`. -/
def listProjects (config : Config) (headers : Headers) : Handler Reply := do
  let (userId, p) ← tokenOrSession config headers
  query fun _ db => .ok (projectsReply userId p db)

/-- What `project_remote` answers. -/
def remoteReply (config : Config) (userId : String) (p : Option TokenPrincipal) (id : String)
    (db : Database) : Outcome Reply := do
  let row ← orElse (db.projects.find? fun row => row.id = id
    && (db.role userId row.workspaceId).any fun role => 1 ≤ roleRank role) (.notFound "project")
  let workspace ← orElse (db.workspaces.find? (·.id = row.workspaceId)) (.notFound "project")
  require (!p.any fun p => p.workspaceId.any (· ≠ workspace.id) || p.projectId.any (· ≠ id))
    (.notFound "project")
  return .remote id s!"{config.publicBaseUrl}/git/{workspace.slug}/{row.slug}.git"
    config.gitHttp false

/-- `project_remote`. -/
def projectRemote (config : Config) (headers : Headers) (id : String) : Handler Reply := do
  let (userId, p) ← tokenOrSession config headers
  query fun _ db => remoteReply config userId p id db

/-! ## Git over HTTP -/

/-- The backend is there, and the `Git-Protocol` header is good. -/
def checkTransport (config : Config) (headers : Headers) : Except GitHttpError Unit := do
  if config.gitHttp then .ok () else .error ⟨503, "Git transport unavailable"⟩
  let _ ← gitProtocolHeader headers
  return ()

/-- `git_info_refs`. -/
def gitInfoRefs (config : Config) (headers : Headers) (workspace repositoryName : String)
    (query : Option String) : Program Store Input GitHttpError Reply := do
  let p ← authenticateGit config headers
  let project ← check (gitProjectSlug repositoryName)
  let _ ← authorizeGitProject p workspace project "reader"
  check (checkTransport config headers)
  check (if query.isSome then .ok () else .error ⟨400, "missing Git service query"⟩)
  let response ← askBackend
  return .git response

/-- `git_upload_pack`. -/
def gitUploadPack (config : Config) (headers : Headers) (workspace repositoryName : String) :
    Program Store Input GitHttpError Reply := do
  let p ← authenticateGit config headers
  let project ← check (gitProjectSlug repositoryName)
  let _ ← authorizeGitProject p workspace project "reader"
  check (checkTransport config headers)
  let response ← askBackend
  return .git response

/-! ## Workspaces and projects -/

/-- The transaction of `create_workspace`. -/
def createWorkspaceTx (input : WorkspaceRequest) (p : Principal) (i : Input) (now : Readings)
    (db : Database) : Outcome (Reply × Database) := do
  let id := i.random 0
  let db ← orConflict (db.insertWorkspace ⟨id, input.slug, input.name, now.first⟩)
  let db ← orInternal (db.insertMembership ⟨id, p.userId, "owner"⟩)
  return (.workspace id input.slug input.name "owner", db)

/-- `create_workspace`. -/
def createWorkspace (config : Config) (headers : Headers) (input : WorkspaceRequest) :
    Handler Reply := do
  let p ← authenticate config headers true
  requireGlobalOwner p
  check (validateSlug input.slug)
  check (nonempty "name" input.name 120)
  transaction (createWorkspaceTx input p)

/-- The transaction of `update_workspace`. -/
def updateWorkspaceTx (id : String) (input : WorkspaceRequest) (_i : Input) (_now : Readings)
    (db : Database) : Outcome (Reply × Database) := do
  -- The slug is unique: another workspace that has it makes the update fail.
  require (!(db.workspaces.any (·.id = id)
    && db.workspaces.any fun row => row.slug = input.slug && row.id ≠ id))
    (.conflict "resource already exists")
  require (db.workspaces.any (·.id = id)) (.notFound "workspace")
  let workspaces := Table.update (·.id = id)
    (fun row => { row with slug := input.slug, name := input.name }) db.workspaces
  return (.workspace id input.slug input.name "owner", { db with workspaces })

/-- `update_workspace`. -/
def updateWorkspace (config : Config) (headers : Headers) (id : String)
    (input : WorkspaceRequest) : Handler Reply := do
  let p ← authenticate config headers true
  check (validateSlug input.slug)
  check (nonempty "name" input.name 120)
  requireRole p id "owner"
  transaction (updateWorkspaceTx id input)

/-- The transaction of `create_project`. -/
def createProjectTx (input : ProjectRequest) (id headSha callerRole : String) (created : Instant)
    (_i : Input) (_now : Readings) (db : Database) : Outcome (Reply × Database) := do
  let row : ProjectRow := ⟨id, input.workspaceId, input.slug, input.name, input.description,
    input.defaultBranch, headSha, none, created, created⟩
  let db ← orConflict (db.insertProject row)
  return (.project row callerRole, db)

/-- `create_project`.  A failure after the repository was made removes it. -/
def createProject (config : Config) (headers : Headers) (input : ProjectRequest) :
    Handler Reply := do
  let p ← authenticate config headers true
  requireRole p input.workspaceId "maintainer"
  check (validateProject input)
  let callerRole ← membershipRole p.userId input.workspaceId
  let (id, headSha, created, cleaned) ← consult fun i now => do
    orGit i.create
    match i.commitChanges with
    | .ok headSha => .ok (i.random 0, headSha, now.first, i.cleanup)
    | .error error => .error (if i.cleanup then mapGit error else .internal)
  (transaction (createProjectTx input id headSha callerRole created)).mapError
    fun error => if cleaned then error else .internal

/-- `get_project`. -/
def getProject (config : Config) (headers : Headers) (id : String) : Handler Reply := do
  let p ← authenticate config headers false
  query fun _ db => do
    let row ← orElse (db.projects.find? fun row =>
      row.id = id && (db.role p.userId row.workspaceId).isSome) (.notFound "project")
    let role ← orElse (db.role p.userId row.workspaceId) (.notFound "project")
    return .project row role

/-- The transaction of `update_project`. -/
def updateProjectTx (id : String) (input : ProjectRequest) (_i : Input) (now : Readings)
    (db : Database) : Outcome (Unit × Database) := do
  -- The slug is unique in the workspace of the project.
  require (!db.projects.any fun row => row.id = id && db.projects.any fun other =>
    other.workspaceId = row.workspaceId && other.slug = input.slug && other.id ≠ id)
    (.conflict "resource already exists")
  let projects := Table.update (·.id = id)
    (fun row =>
      { row with
        slug := input.slug
        name := input.name
        description := input.description
        defaultBranch := input.defaultBranch
        updatedAt := now.first })
    db.projects
  return ((), { db with projects })

/-- `update_project`. -/
def updateProject (config : Config) (headers : Headers) (id : String) (input : ProjectRequest) :
    Handler Reply := do
  let p ← authenticate config headers true
  let workspaceId ← projectWorkspace id
  requireRole p workspaceId "maintainer"
  check (validateProject input)
  check (require (input.workspaceId = workspaceId) (.bad "project cannot move workspaces"))
  let branches ← consult fun i _ => orGit i.branches
  check (require (branches.contains input.defaultBranch) (.bad "defaultBranch does not exist"))
  transaction (updateProjectTx id input)
  getProject config headers id

/-! ## Work in a project -/

/-- The transaction of `create_pr`. -/
def createPrTx (id : String) (input : PullRequestInput) (p : Principal) (i : Input)
    (now : Readings) (db : Database) : Outcome (Reply × Database) := do
  let number := ((db.pullRequests.filter (·.projectId = id)).map (·.number)).foldl max 0 + 1
  let row : PullRequestRow := ⟨i.random 0, id, number, input.title, input.body,
    input.sourceBranch, input.targetBranch, p.userId, "open", now.first, now.first⟩
  let db ← orInternal (db.insertPullRequest row)
  return (.pullRequest row, db)

/-- `create_pr`. -/
def createPr (config : Config) (headers : Headers) (id : String) (input : PullRequestInput) :
    Handler Reply := do
  let p ← projectAuth config headers id "contributor" true
  check (nonempty "title" input.title 240)
  check (require (!(32 * 1024 < Rust.len input.body)) (.bad "pull request body exceeds 32768 bytes"))
  check (orGit (Git.validateBranch input.sourceBranch))
  check (orGit (Git.validateBranch input.targetBranch))
  let branches ← consult fun i _ => orGit i.branches
  check (require (branches.contains input.sourceBranch && branches.contains input.targetBranch)
    (.bad "pull request branches must exist"))
  transaction (createPrTx id input p)

/-- The transaction of `create_deployment`. -/
def createDeploymentTx (id : String) (input : DeploymentInput) (p : Principal)
    (created : Instant) (i : Input) (_now : Readings) (db : Database) :
    Outcome (Reply × Database) := do
  let row : DeploymentRow := ⟨i.random 0, id, input.revisionSha, input.environment, "recorded",
    p.userId, created⟩
  let db ← orInternal (db.insertDeployment row)
  return (.deployment row, db)

/-- `create_deployment`. -/
def createDeployment (config : Config) (headers : Headers) (id : String)
    (input : DeploymentInput) : Handler Reply := do
  let p ← projectAuth config headers id "maintainer" true
  check (nonempty "revisionSha" input.revisionSha 128)
  check (require (["production", "preview"].contains input.environment)
    (.bad "invalid environment"))
  validateRevisionExists input.revisionSha
  let created ← consult fun _ now => .ok now.first
  transaction (createDeploymentTx id input p created)

/-- The transaction of `create_run`. -/
def createRunTx (id : String) (input : RunInput) (revision : String) (p : Principal)
    (created : Instant) (i : Input) (_now : Readings) (db : Database) :
    Outcome (Reply × Database) := do
  let row : RunRow := ⟨i.random 0, id, input.job, input.kind, revision, "recorded", p.userId,
    created⟩
  let db ← orInternal (db.insertRun row)
  return (.run row, db)

/-- `create_run`. -/
def createRun (config : Config) (headers : Headers) (id : String) (input : RunInput) :
    Handler Reply := do
  let p ← projectAuth config headers id "runner" true
  check (require (["command", "cron", "agent"].contains input.kind) (.bad "invalid run kind"))
  check (nonempty "job" input.job 120)
  let revision ← (match input.revisionSha with
    | some revision => pure revision
    | none => projectHead id)
  validateRevisionExists revision
  let created ← consult fun _ now => .ok now.first
  transaction (createRunTx id input revision p created)

/-- The transaction of `create_schedule`. -/
def createScheduleTx (id uid : String) (input : ScheduleInput) (next created : Instant)
    (p : Principal) (_i : Input) (_now : Readings) (db : Database) :
    Outcome (Reply × Database) := do
  let row : ScheduleRow := ⟨uid, id, input.job, input.cron, input.timezone, input.concurrency,
    input.enabled, p.userId, created⟩
  let db ← orInternal (db.insertSchedule row)
  return (.schedule row next, db)

/-- `create_schedule`. -/
def createSchedule (config : Config) (headers : Headers) (id : String) (input : ScheduleInput) :
    Handler Reply := do
  let p ← projectAuth config headers id "maintainer" true
  check (nonempty "job" input.job 120)
  check (nonempty "cron" input.cron 256)
  check (nonempty "timezone" input.timezone 128)
  check (require (input.concurrency = "forbid")
    (.bad "only forbid concurrency is available in this release"))
  let (uid, next, created) ← consult fun i now =>
    match i.schedule with
    | .ok next => .ok (i.random 0, next, now.first)
    | .error text => .error (.bad text)
  transaction (createScheduleTx id uid input next created p)

/-- The transaction of `create_secret_metadata`. -/
def createSecretMetadataTx (id : String) (input : SecretInput) (p : Principal)
    (created : Instant) (i : Input) (_now : Readings) (db : Database) :
    Outcome (Reply × Database) := do
  let row : SecretMetadataRow := ⟨i.random 0, id, input.name, p.userId, created⟩
  let db ← orConflict (db.insertSecretMetadata row)
  return (.secretMetadata row, db)

/-- `create_secret_metadata`. -/
def createSecretMetadata (config : Config) (headers : Headers) (id : String)
    (input : SecretInput) : Handler Reply := do
  let p ← projectAuth config headers id "maintainer" true
  check (validateSecretName input.name)
  let created ← consult fun _ now => .ok now.first
  transaction (createSecretMetadataTx id input p created)

/-! ## Requests -/

/-- An endpoint with what the request gives it. -/
inductive Endpoint where
  | claim (input : BootstrapRequest)
  | redeemInvite (input : RedeemRequest)
  | session
  | logout
  | createInvite (input : InviteRequest)
  | revokePeer (id : String)
  | revokeDevice (id : String)
  | revokeSession (id : String)
  | createCredential (input : CreateCredentialRequest)
  | revokeCredential (id : String)
  | cliWhoami
  | listProjects
  | projectRemote (id : String)
  | gitInfoRefs (workspace repositoryName : String) (query : Option String)
  | gitUploadPack (workspace repositoryName : String)
  | createWorkspace (input : WorkspaceRequest)
  | updateWorkspace (id : String) (input : WorkspaceRequest)
  | createProject (input : ProjectRequest)
  | getProject (id : String)
  | updateProject (id : String) (input : ProjectRequest)
  | createPr (id : String) (input : PullRequestInput)
  | createDeployment (id : String) (input : DeploymentInput)
  | createRun (id : String) (input : RunInput)
  | createSchedule (id : String) (input : ScheduleInput)
  | createSecretMetadata (id : String) (input : SecretInput)
deriving DecidableEq, Repr

structure Request where
  headers : Headers
  endpoint : Endpoint
deriving DecidableEq, Repr

/-- What a request fails with. -/
inductive HttpError where
  | api (error : ApiError)
  | git (error : GitHttpError)
deriving DecidableEq, Repr

/-- A handler of the browser API. -/
def browser (handler : Handler Reply) : Program Store Input HttpError Reply :=
  handler.mapError .api

/-- The handler of a request. -/
def program (config : Config) (request : Request) : Program Store Input HttpError Reply :=
  let headers := request.headers
  match request.endpoint with
  | .claim input => browser (claim config input)
  | .redeemInvite input => browser (redeemInvite config input)
  | .session => browser (session config headers)
  | .logout => browser (logout config headers)
  | .createInvite input => browser (createInvite config headers input)
  | .revokePeer id => browser (revokePeer config headers id)
  | .revokeDevice id => browser (revokeDevice config headers id)
  | .revokeSession id => browser (revokeSession config headers id)
  | .createCredential input => browser (createCredential config headers input)
  | .revokeCredential id => browser (revokeCredential config headers id)
  | .cliWhoami => browser (cliWhoami config headers)
  | .listProjects => browser (listProjects config headers)
  | .projectRemote id => browser (projectRemote config headers id)
  | .gitInfoRefs workspace repositoryName query =>
      (gitInfoRefs config headers workspace repositoryName query).mapError .git
  | .gitUploadPack workspace repositoryName =>
      (gitUploadPack config headers workspace repositoryName).mapError .git
  | .createWorkspace input => browser (createWorkspace config headers input)
  | .updateWorkspace id input => browser (updateWorkspace config headers id input)
  | .createProject input => browser (createProject config headers input)
  | .getProject id => browser (getProject config headers id)
  | .updateProject id input => browser (updateProject config headers id input)
  | .createPr id input => browser (createPr config headers id input)
  | .createDeployment id input => browser (createDeployment config headers id input)
  | .createRun id input => browser (createRun config headers id input)
  | .createSchedule id input => browser (createSchedule config headers id input)
  | .createSecretMetadata id input => browser (createSecretMetadata config headers id input)

end Cresix.Server
