import Cresix.Cloud.Database
import Cresix.CloudCore.Catalog
import Cresix.Library.Transition

/-!
# Catalog publication

`put_catalog` authenticates its connector under one lock of the database and
replaces the catalog in a transaction under a later one, so other requests and
revocations come in between.  Every statement of the transaction may fail.  A
transaction that fails leaves the database as it was.
-/

namespace Cresix.Cloud

open CloudCore (CatalogProjectInput PutCatalogRequest)
open Rust (Uuid)
open Transition (System Event)

/-! ## Tables -/

structure WorkspaceBinding where
  id : Uuid
  installationId : Uuid
  catalogRevision : Nat
deriving DecidableEq, Repr

structure CatalogProject where
  bindingId : Uuid
  localProjectId : Uuid
  slug : String
  name : String
  description : String
  defaultBranch : String
  headSha : String
  revision : Nat
  updatedAt : Int
deriving DecidableEq, Repr

structure AuditEvent where
  actorType : String
  actorId : Option Uuid
  action : String
  targetId : Option Uuid
deriving DecidableEq, Repr

/-- The tables `put_catalog` works on. -/
structure CatalogDatabase where
  accounts : Database
  workspaceBindings : List WorkspaceBinding
  catalogProjects : List CatalogProject
  auditEvents : List AuditEvent
deriving DecidableEq, Repr

/-- `ApiError::unauthenticated`. -/
def ApiError.unauthenticated : ApiError := ⟨401, "unauthenticated", "authentication required"⟩

/-- `ApiError::conflict`. -/
def ApiError.conflict (message : String) : ApiError := ⟨409, "conflict", message⟩

/-- `ApiError::internal`. -/
def ApiError.internal : ApiError := ⟨500, "internal", "internal server error"⟩

/-- The row of a project. -/
def CatalogProject.ofInput (bindingId : Uuid) (revision : Nat) (project : CatalogProjectInput) :
    CatalogProject where
  bindingId := bindingId
  localProjectId := project.localProjectId
  slug := project.slug.value
  name := project.name
  description := project.description
  defaultBranch := project.defaultBranch
  headSha := project.headSha
  revision := revision
  updatedAt := project.updatedAt

/-- The primary key and the unique columns of the projects. -/
def CatalogProject.clash (a b : CatalogProject) : Bool :=
  a.bindingId = b.bindingId && (a.slug = b.slug || a.localProjectId = b.localProjectId)

namespace CatalogDatabase

/-- The projects stored for a binding. -/
def projects (db : CatalogDatabase) (bindingId : Uuid) : List CatalogProject :=
  db.catalogProjects.filter (·.bindingId = bindingId)

/-- The revisions stored for a binding. -/
def revisions (db : CatalogDatabase) (bindingId : Uuid) : List Nat :=
  (db.workspaceBindings.filter (·.id = bindingId)).map (·.catalogRevision)

/-- The revision of a binding whose installation is not revoked. -/
def activeRevision (db : CatalogDatabase) (bindingId installationId : Uuid) : Option Nat :=
  (db.workspaceBindings.find? fun row =>
    row.id = bindingId && row.installationId = installationId &&
      db.accounts.installations.any fun installation =>
        installation.id = row.installationId && installation.revokedAt.isNone).map
    (·.catalogRevision)

end CatalogDatabase

/-! ## The handler -/

/-- `CatalogAcceptedResponse`. -/
structure CatalogAccepted where
  bindingId : Uuid
  revision : Nat
  acceptedProjects : Nat
deriving DecidableEq, Repr

/-- A check of the handler. -/
def require (condition : Bool) (error : ApiError) : Except ApiError Unit :=
  if condition then .ok () else .error error

/-- `Option::ok_or_else`. -/
def okOr {α : Type} (value : Option α) (error : ApiError) : Except ApiError α :=
  match value with
  | some value => .ok value
  | none => .error error

/-- The loop over the slugs. -/
def checkSlugs (seen : List String) : List CatalogProjectInput → Except ApiError Unit
  | [] => .ok ()
  | project :: projects =>
      if project.slug.value ∈ seen then .error (.bad "catalog contains duplicate project slug")
      else checkSlugs (project.slug.value :: seen) projects

/-- `put_catalog` before its transaction: the installation it speaks for. -/
def authorizeCatalog (hash : List UInt8 → String) (db : Database) (id : String)
    (authorization : Option String) (input : PutCatalogRequest) : Except ApiError Uuid := do
  let installationId ←
    okOr ((authorization.bind (Rust.stripPrefix · "Bearer ")).bind (db.connector hash))
      .unauthenticated
  require (Rust.hyphenated installationId = id)
    (.forbidden "credential does not belong to installation")
  input.validate.mapError fun error => .bad error.message
  checkSlugs [] input.projects
  return installationId

/-- What the transaction asks of SQLite. -/
inductive Statement where
  | lock
  | begin
  | select
  | delete
  | insert (index : Nat)
  | update
  | audit
  | commit
deriving DecidableEq, Repr

/-- The projects one after the other. -/
def insertProjects (faults : Statement → Bool) (bindingId : Uuid) (revision : Nat) :
    Nat → List CatalogProjectInput → List CatalogProject → Except ApiError (List CatalogProject)
  | _, [], table => .ok table
  | index, project :: projects, table => do
      require (!faults (.insert index)) .internal
      match Table.insert? CatalogProject.clash (.ofInput bindingId revision project) table with
      | some table => insertProjects faults bindingId revision (index + 1) projects table
      | none => .error .internal

/-- The transaction of `put_catalog`. -/
def putCatalogTx (faults : Statement → Bool) (installationId : Uuid) (input : PutCatalogRequest)
    (db : CatalogDatabase) : Except ApiError CatalogDatabase := do
  require (!(faults .lock || faults .begin || faults .select)) .internal
  let current ←
    okOr (db.activeRevision input.bindingId installationId) (.notFound "active workspace binding")
  require (input.revision < 2 ^ 63) (.bad "catalog revision is too large")
  require (current < input.revision) (.conflict "catalog revision must increase monotonically")
  require (!faults .delete) .internal
  let others := db.catalogProjects.filter (·.bindingId ≠ input.bindingId)
  let catalogProjects ←
    insertProjects faults input.bindingId input.revision 0 input.projects others
  require (!(faults .update || faults .audit || faults .commit)) .internal
  return {
    db with
    catalogProjects
    workspaceBindings := Table.update (·.id = input.bindingId)
      (fun row => { row with catalogRevision := input.revision }) db.workspaceBindings
    auditEvents := db.auditEvents ++
      [⟨"installation", some installationId, "catalog.replaced", some installationId⟩] }

/-! ## Runs -/

/-- Where `put_catalog` waits. -/
inductive PutTask where
  /-- For the lock, to authenticate. -/
  | authorizing
  /-- For the lock, to replace the catalog. -/
  | committing (installationId : Uuid)
  | answered (reply : Except ApiError CatalogAccepted)

/-- A request to publish a catalog. -/
structure PutCatalog where
  id : String
  authorization : Option String
  input : PutCatalogRequest
  task : PutTask

/-- The database and the requests of the connectors. -/
structure Catalogs where
  db : CatalogDatabase
  requests : List PutCatalog

inductive CatalogAction where
  /-- `revoke_installation` by an account. -/
  | revoke (id account : Uuid) (now : Nat)
  | putCatalog (id : String) (authorization : Option String) (input : PutCatalogRequest)
  | authorize (request : Nat) (fails : Bool)
  | commit (request : Nat) (faults : Statement → Bool)

namespace Catalogs

def goto (s : Catalogs) (request : Nat) (task : PutTask) : Catalogs :=
  { s with requests := s.requests.modify request fun put => { put with task } }

def step (hash : List UInt8 → String) (s : Catalogs) : CatalogAction → Option Catalogs
  | .revoke id account now =>
      match s.db.accounts.requireInstallationOwner id account with
      | .ok () => some { s with db := { s.db with
          accounts := s.db.accounts.revoke id now
          auditEvents := s.db.auditEvents ++
            [⟨"account", some account, "installation.revoked", some id⟩] } }
      | .error _ => none
  | .putCatalog id authorization input =>
      some { s with requests := s.requests ++ [⟨id, authorization, input, .authorizing⟩] }
  | .authorize request fails =>
      match s.requests[request]? with
      | some ⟨id, authorization, input, .authorizing⟩ =>
          if fails then some (s.goto request (.answered (.error .internal)))
          else
            match authorizeCatalog hash s.db.accounts id authorization input with
            | .ok installationId => some (s.goto request (.committing installationId))
            | .error error => some (s.goto request (.answered (.error error)))
      | _ => none
  | .commit request faults =>
      match s.requests[request]? with
      | some ⟨_, _, input, .committing installationId⟩ =>
          match putCatalogTx faults installationId input s.db with
          | .ok db =>
              some (goto { s with db } request (.answered (.ok
                ⟨input.bindingId, input.revision, input.projects.length⟩)))
          | .error error => some (s.goto request (.answered (.error error)))
      | _ => none

/-- The cloud from any database on. -/
def system (hash : List UInt8 → String) : System Catalogs CatalogAction :=
  .ofOption (fun s => s.requests = [] ∧ Table.Keyed WorkspaceBinding.id s.db.workspaceBindings)
    (step hash)

end Catalogs

/-- The event answers a request with its acceptance. -/
def Accepts (e : Event Catalogs CatalogAction) (input : PutCatalogRequest) : Prop :=
  ∃ request faults put reply, e.label = .commit request faults ∧
    e.post.requests[request]? = some put ∧ put.input = input ∧ put.task = .answered (.ok reply)

/-- The event answers a request with an error. -/
def Rejects (e : Event Catalogs CatalogAction) : Prop :=
  ∃ request put error, ((∃ fails, e.label = .authorize request fails) ∨
    ∃ faults, e.label = .commit request faults) ∧
    e.post.requests[request]? = some put ∧ put.task = .answered (.error error)

/-- Publication is monotone and atomic in a run. -/
structure Published (tr : List (Event Catalogs CatalogAction)) : Prop where
  increasing : tr.Pairwise fun earlier later => ∀ old new, Accepts earlier old →
    Accepts later new → old.bindingId = new.bindingId → old.revision < new.revision
  replaced : ∀ e ∈ tr, ∀ input, Accepts e input → e.post.db.projects input.bindingId =
    input.projects.map (.ofInput input.bindingId input.revision)
  unchanged : ∀ e ∈ tr, Rejects e → e.post.db = e.pre.db
  /-- A binding whose catalog is not accepted keeps its projects and its revision. -/
  others : ∀ e ∈ tr, ∀ bindingId, (∀ input, Accepts e input → input.bindingId ≠ bindingId) →
    e.post.db.projects bindingId = e.pre.db.projects bindingId ∧
      e.post.db.revisions bindingId = e.pre.db.revisions bindingId
  active : ∀ e ∈ tr, ∀ input, Accepts e input → ∀ binding ∈ e.pre.db.workspaceBindings,
    binding.id = input.bindingId → ¬e.pre.db.accounts.Revoked binding.installationId
  /-- Nothing is accepted after the revocation of the installation. -/
  revoked : tr.Pairwise fun earlier later => ∀ id account now, earlier.label = .revoke id account now →
    ∀ input, Accepts later input → ∀ binding ∈ later.pre.db.workspaceBindings,
      binding.id = input.bindingId → binding.installationId ≠ id

end Cresix.Cloud
