import Cresix.Library.Checks
import Cresix.Library.FiniteMap
import Cresix.Library.Table
import Mathlib.Data.Finmap

/-!
# The database of the server

The tables of the self-hosted server, with the constraints its schema puts on
an insertion: primary keys, unique columns, foreign keys and checks.  No
statement of the server deletes a row of a table, apart from the bootstrap hash
in the settings.

Identifiers and hashes are the text that is stored, and times are instants.
The audit table is left out: rows are only added to it, and no operation
decides anything by them.
-/

namespace Cresix.Server

export Checks (bind_eq_ok bind_map_congr bind_eq_error)

/-- An instant, in nanoseconds since the epoch. -/
abbrev Instant := Int

/-- `Duration::minutes`. -/
def minutes (n : Int) : Int := n * 60 * 1000000000

/-- `Duration::hours`. -/
def hours (n : Int) : Int := minutes (n * 60)

/-- `Duration::days`. -/
def days (n : Int) : Int := hours (n * 24)

/-! ## Credentials -/

inductive CredentialType where
  | cli
  | git
deriving DecidableEq, Repr

inductive CredentialScope where
  | apiRead
  | apiWrite
  | gitRead
  | gitWrite
deriving DecidableEq, Repr

/-! ## Rows -/

structure UserRow where
  id : String
  displayName : String
  revokedAt : Option Instant
deriving DecidableEq, Repr

structure DeviceRow where
  id : String
  userId : String
  label : String
  publicKey : String
  createdAt : Instant
  revokedAt : Option Instant
deriving DecidableEq, Repr

structure SessionRow where
  id : String
  userId : String
  deviceId : Option String
  tokenHash : String
  csrfHash : String
  createdAt : Instant
  expiresAt : Instant
  revokedAt : Option Instant
deriving DecidableEq, Repr

structure InviteRow where
  id : String
  tokenHash : String
  role : String
  workspaceId : Option String
  createdBy : String
  createdAt : Instant
  expiresAt : Instant
  redeemedAt : Option Instant
  redeemedBy : Option String
deriving DecidableEq, Repr

structure WorkspaceRow where
  id : String
  slug : String
  name : String
  createdAt : Instant
deriving DecidableEq, Repr

structure MembershipRow where
  workspaceId : String
  userId : String
  role : String
deriving DecidableEq, Repr

/-- The primary key. -/
def MembershipRow.key (row : MembershipRow) : String × String := (row.workspaceId, row.userId)

structure ProjectRow where
  id : String
  workspaceId : String
  slug : String
  name : String
  description : String
  defaultBranch : String
  headSha : String
  publishedSha : Option String
  createdAt : Instant
  updatedAt : Instant
deriving DecidableEq, Repr

/-- The unique path. -/
def ProjectRow.path (row : ProjectRow) : String × String := (row.workspaceId, row.slug)

structure PullRequestRow where
  id : String
  projectId : String
  number : Nat
  title : String
  body : String
  sourceBranch : String
  targetBranch : String
  authorId : String
  status : String
  createdAt : Instant
  updatedAt : Instant
deriving DecidableEq, Repr

structure DeploymentRow where
  id : String
  projectId : String
  revisionSha : String
  environment : String
  status : String
  createdBy : String
  createdAt : Instant
deriving DecidableEq, Repr

structure RunRow where
  id : String
  projectId : String
  job : String
  kind : String
  revisionSha : String
  status : String
  triggerUser : String
  createdAt : Instant
deriving DecidableEq, Repr

structure ScheduleRow where
  id : String
  projectId : String
  job : String
  cron : String
  timezone : String
  concurrency : String
  enabled : Bool
  createdBy : String
  createdAt : Instant
deriving DecidableEq, Repr

structure SecretMetadataRow where
  id : String
  projectId : String
  name : String
  createdBy : String
  createdAt : Instant
deriving DecidableEq, Repr

structure CredentialRow where
  id : String
  publicId : String
  verifier : String
  userId : String
  deviceId : Option String
  label : String
  credentialType : CredentialType
  scopes : List CredentialScope
  workspaceId : Option String
  projectId : Option String
  createdAt : Instant
  expiresAt : Instant
  lastUsedAt : Option Instant
  revokedAt : Option Instant
deriving DecidableEq, Repr

/-- The tables. -/
structure Database where
  settings : Finmap fun _ : String => String
  users : List UserRow
  devices : List DeviceRow
  sessions : List SessionRow
  invites : List InviteRow
  workspaces : List WorkspaceRow
  memberships : List MembershipRow
  projects : List ProjectRow
  pullRequests : List PullRequestRow
  deployments : List DeploymentRow
  runs : List RunRow
  schedules : List ScheduleRow
  secretMetadata : List SecretMetadataRow
  credentials : List CredentialRow
deriving DecidableEq

namespace Database

/-- The tables after `migrate`. -/
def empty : Database := ⟨∅, [], [], [], [], [], [], [], [], [], [], [], [], []⟩

/-! ## Settings -/

/-- `setting`. -/
def setting (db : Database) (key : String) : Option String := db.settings.lookup key

/-- The administrator of the server. -/
def serverOwner (db : Database) : Option String := db.setting "server_owner_id"

/-- Why an insertion fails. -/
inductive SqlError where
  /-- A primary key or a unique column has the value already. -/
  | unique
  /-- A foreign key or a check is violated. -/
  | constraint
deriving DecidableEq, Repr

/-- `INSERT INTO settings`. -/
def insertSetting (key value : String) (db : Database) : Except SqlError Database :=
  if key ∈ db.settings then .error .unique
  else .ok { db with settings := db.settings.insert key value }

/-- `INSERT OR IGNORE INTO settings`. -/
def insertSettingOrIgnore (key value : String) (db : Database) : Database :=
  if key ∈ db.settings then db else { db with settings := db.settings.insert key value }

/-- `DELETE FROM settings`. -/
def deleteSetting (key : String) (db : Database) : Database :=
  { db with settings := db.settings.erase key }

/-! ## Insertions -/

section

variable {ρ : Type}

/-- Inserts a row whose foreign keys and checks are right. -/
def insertRow (right : Bool) (clash : ρ → ρ → Bool) (row : ρ) (table : List ρ) :
    Except SqlError (List ρ) :=
  if right then
    match Table.insert? clash row table with
    | some table => .ok table
    | none => .error .unique
  else .error .constraint

theorem insertRow_eq_ok {right : Bool} {clash : ρ → ρ → Bool} {row : ρ} {table table' : List ρ}
    (h : insertRow right clash row table = .ok table') :
    right = true ∧ (∀ old ∈ table, clash row old = false) ∧ table' = table ++ [row] := by
  unfold insertRow at h
  split at h
  next hright =>
    split at h
    next hinsert =>
      cases h
      exact ⟨hright, Table.insert?_eq_some hinsert⟩
    next => cases h
  next => cases h

end

/-- The identifier is in the table of users. -/
def hasUser (db : Database) (id : String) : Bool := db.users.any (·.id = id)

/-- The identifier is in the table of devices. -/
def hasDevice (db : Database) (id : String) : Bool := db.devices.any (·.id = id)

/-- The identifier is in the table of workspaces. -/
def hasWorkspace (db : Database) (id : String) : Bool := db.workspaces.any (·.id = id)

/-- The identifier is in the table of projects. -/
def hasProject (db : Database) (id : String) : Bool := db.projects.any (·.id = id)

def insertUser (row : UserRow) (db : Database) : Except SqlError Database := do
  let users ← insertRow true (fun new old => new.id = old.id) row db.users
  return { db with users }

def insertDevice (row : DeviceRow) (db : Database) : Except SqlError Database := do
  let devices ← insertRow (db.hasUser row.userId)
    (fun new old => new.id = old.id || new.publicKey = old.publicKey) row db.devices
  return { db with devices }

def insertSession (row : SessionRow) (db : Database) : Except SqlError Database := do
  let sessions ← insertRow (db.hasUser row.userId && row.deviceId.all db.hasDevice)
    (fun new old => new.id = old.id || new.tokenHash = old.tokenHash) row db.sessions
  return { db with sessions }

def insertInvite (row : InviteRow) (db : Database) : Except SqlError Database := do
  let invites ← insertRow (db.hasUser row.createdBy)
    (fun new old => new.id = old.id || new.tokenHash = old.tokenHash) row db.invites
  return { db with invites }

def insertWorkspace (row : WorkspaceRow) (db : Database) : Except SqlError Database := do
  let workspaces ← insertRow true (fun new old => new.id = old.id || new.slug = old.slug)
    row db.workspaces
  return { db with workspaces }

def insertMembership (row : MembershipRow) (db : Database) : Except SqlError Database := do
  let memberships ← insertRow (db.hasWorkspace row.workspaceId && db.hasUser row.userId)
    (fun new old => new.workspaceId = old.workspaceId && new.userId = old.userId)
    row db.memberships
  return { db with memberships }

def insertProject (row : ProjectRow) (db : Database) : Except SqlError Database := do
  let projects ← insertRow (db.hasWorkspace row.workspaceId)
    (fun new old => new.id = old.id || (new.workspaceId = old.workspaceId && new.slug = old.slug))
    row db.projects
  return { db with projects }

def insertPullRequest (row : PullRequestRow) (db : Database) : Except SqlError Database := do
  let pullRequests ← insertRow (db.hasProject row.projectId && db.hasUser row.authorId)
    (fun new old => new.id = old.id || (new.projectId = old.projectId && new.number = old.number))
    row db.pullRequests
  return { db with pullRequests }

def insertDeployment (row : DeploymentRow) (db : Database) : Except SqlError Database := do
  let deployments ← insertRow (db.hasProject row.projectId && db.hasUser row.createdBy)
    (fun new old => new.id = old.id) row db.deployments
  return { db with deployments }

def insertRun (row : RunRow) (db : Database) : Except SqlError Database := do
  let runs ← insertRow (db.hasProject row.projectId && db.hasUser row.triggerUser)
    (fun new old => new.id = old.id) row db.runs
  return { db with runs }

def insertSchedule (row : ScheduleRow) (db : Database) : Except SqlError Database := do
  let schedules ← insertRow (db.hasProject row.projectId && db.hasUser row.createdBy)
    (fun new old => new.id = old.id) row db.schedules
  return { db with schedules }

def insertSecretMetadata (row : SecretMetadataRow) (db : Database) :
    Except SqlError Database := do
  let secretMetadata ← insertRow (db.hasProject row.projectId && db.hasUser row.createdBy)
    (fun new old => new.id = old.id || (new.projectId = old.projectId && new.name = old.name))
    row db.secretMetadata
  return { db with secretMetadata }

/-- `CHECK(length(label) BETWEEN 1 AND 80)` and the check that a project comes
with its workspace. -/
def credentialChecks (row : CredentialRow) : Bool :=
  1 ≤ row.label.length && row.label.length ≤ 80 &&
    (row.projectId.isNone || row.workspaceId.isSome)

def insertCredential (row : CredentialRow) (db : Database) : Except SqlError Database := do
  let credentials ← insertRow
    (db.hasUser row.userId && row.deviceId.all db.hasDevice && row.workspaceId.all db.hasWorkspace
      && row.projectId.all db.hasProject && credentialChecks row)
    (fun new old => new.id = old.id || new.publicId = old.publicId) row db.credentials
  return { db with credentials }

/-! ## What an insertion does -/

section

variable {db db' : Database}

theorem insertSetting_eq_ok {key value : String} (h : db.insertSetting key value = .ok db') :
    key ∉ db.settings ∧ db' = { db with settings := db.settings.insert key value } := by
  unfold insertSetting at h
  split at h
  next => cases h
  next hkey =>
    cases h
    exact ⟨hkey, rfl⟩

theorem insertUser_eq_ok {row : UserRow} (h : db.insertUser row = .ok db') :
    Table.Fresh UserRow.id row db.users ∧ db' = { db with users := db.users ++ [row] } := by
  obtain ⟨users, hinsert, heq⟩ := bind_eq_ok.mp h
  obtain ⟨_, hclash, rfl⟩ := insertRow_eq_ok hinsert
  cases heq
  exact ⟨fun old hold => of_decide_eq_false (hclash old hold), rfl⟩

theorem insertDevice_eq_ok {row : DeviceRow} (h : db.insertDevice row = .ok db') :
    Table.Fresh DeviceRow.id row db.devices ∧
      db' = { db with devices := db.devices ++ [row] } := by
  obtain ⟨devices, hinsert, heq⟩ := bind_eq_ok.mp h
  obtain ⟨_, hclash, rfl⟩ := insertRow_eq_ok hinsert
  cases heq
  exact ⟨fun old hold => of_decide_eq_false (Bool.or_eq_false_iff.mp (hclash old hold)).1, rfl⟩

theorem insertSession_eq_ok {row : SessionRow} (h : db.insertSession row = .ok db') :
    Table.Fresh SessionRow.id row db.sessions ∧ Table.Fresh SessionRow.tokenHash row db.sessions ∧
      db' = { db with sessions := db.sessions ++ [row] } := by
  obtain ⟨sessions, hinsert, heq⟩ := bind_eq_ok.mp h
  obtain ⟨_, hclash, rfl⟩ := insertRow_eq_ok hinsert
  cases heq
  exact ⟨fun old hold => of_decide_eq_false (Bool.or_eq_false_iff.mp (hclash old hold)).1,
    fun old hold => of_decide_eq_false (Bool.or_eq_false_iff.mp (hclash old hold)).2, rfl⟩

theorem insertInvite_eq_ok {row : InviteRow} (h : db.insertInvite row = .ok db') :
    Table.Fresh InviteRow.id row db.invites ∧ Table.Fresh InviteRow.tokenHash row db.invites ∧
      db' = { db with invites := db.invites ++ [row] } := by
  obtain ⟨invites, hinsert, heq⟩ := bind_eq_ok.mp h
  obtain ⟨_, hclash, rfl⟩ := insertRow_eq_ok hinsert
  cases heq
  exact ⟨fun old hold => of_decide_eq_false (Bool.or_eq_false_iff.mp (hclash old hold)).1,
    fun old hold => of_decide_eq_false (Bool.or_eq_false_iff.mp (hclash old hold)).2, rfl⟩

theorem insertWorkspace_eq_ok {row : WorkspaceRow} (h : db.insertWorkspace row = .ok db') :
    Table.Fresh WorkspaceRow.id row db.workspaces ∧
      Table.Fresh WorkspaceRow.slug row db.workspaces ∧
      db' = { db with workspaces := db.workspaces ++ [row] } := by
  obtain ⟨workspaces, hinsert, heq⟩ := bind_eq_ok.mp h
  obtain ⟨_, hclash, rfl⟩ := insertRow_eq_ok hinsert
  cases heq
  exact ⟨fun old hold => of_decide_eq_false (Bool.or_eq_false_iff.mp (hclash old hold)).1,
    fun old hold => of_decide_eq_false (Bool.or_eq_false_iff.mp (hclash old hold)).2, rfl⟩

theorem insertMembership_eq_ok {row : MembershipRow} (h : db.insertMembership row = .ok db') :
    Table.Fresh MembershipRow.key row db.memberships ∧
      db' = { db with memberships := db.memberships ++ [row] } := by
  obtain ⟨memberships, hinsert, heq⟩ := bind_eq_ok.mp h
  obtain ⟨_, hclash, rfl⟩ := insertRow_eq_ok hinsert
  cases heq
  refine ⟨fun old hold hkey => ?_, rfl⟩
  have hno := hclash old hold
  obtain ⟨hworkspace, huser⟩ := Prod.mk.inj hkey
  rw [hworkspace, huser, decide_eq_true rfl, decide_eq_true rfl] at hno
  cases hno

theorem insertProject_eq_ok {row : ProjectRow} (h : db.insertProject row = .ok db') :
    Table.Fresh ProjectRow.id row db.projects ∧ Table.Fresh ProjectRow.path row db.projects ∧
      db' = { db with projects := db.projects ++ [row] } := by
  obtain ⟨projects, hinsert, heq⟩ := bind_eq_ok.mp h
  obtain ⟨_, hclash, rfl⟩ := insertRow_eq_ok hinsert
  cases heq
  refine ⟨fun old hold => of_decide_eq_false (Bool.or_eq_false_iff.mp (hclash old hold)).1, ?_, rfl⟩
  intro old hold hpath
  have hno := (Bool.or_eq_false_iff.mp (hclash old hold)).2
  obtain ⟨hworkspace, hslug⟩ := Prod.mk.inj hpath
  rw [hworkspace, hslug, decide_eq_true rfl, decide_eq_true rfl] at hno
  cases hno

theorem insertCredential_eq_ok {row : CredentialRow} (h : db.insertCredential row = .ok db') :
    Table.Fresh CredentialRow.publicId row db.credentials ∧
      db' = { db with credentials := db.credentials ++ [row] } := by
  obtain ⟨credentials, hinsert, heq⟩ := bind_eq_ok.mp h
  obtain ⟨_, hclash, rfl⟩ := insertRow_eq_ok hinsert
  cases heq
  exact ⟨fun old hold => of_decide_eq_false (Bool.or_eq_false_iff.mp (hclash old hold)).2, rfl⟩

end

/-! ## Queries -/

/-- `SELECT role FROM memberships`. -/
def role (db : Database) (userId workspaceId : String) : Option String :=
  (db.memberships.find? fun row => row.workspaceId = workspaceId && row.userId = userId).map
    (·.role)

/-- `SELECT workspace_id FROM projects`. -/
def projectWorkspace (db : Database) (id : String) : Option String :=
  (db.projects.find? (·.id = id)).map (·.workspaceId)

/-- `EXISTS(SELECT 1 FROM users u WHERE u.id=… AND u.revoked_at IS NULL)`. -/
def userLive (db : Database) (id : String) : Bool :=
  db.users.any fun row => row.id = id && row.revokedAt.isNone

/-- `EXISTS(SELECT 1 FROM devices d WHERE d.id=… AND d.revoked_at IS NULL)`. -/
def deviceLive (db : Database) (id : String) : Bool :=
  db.devices.any fun row => row.id = id && row.revokedAt.isNone

/-- `LEFT JOIN devices`: the device of a row, when it is in the table. -/
def deviceOf (db : Database) (deviceId : Option String) : Option DeviceRow :=
  deviceId.bind fun id => db.devices.find? (·.id = id)

end Database

end Cresix.Server
