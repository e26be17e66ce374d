import Cresix.Server.Revocation

/-!
# Restricted tokens

A token that is restricted to a workspace or to a project shows nothing else.
Each endpoint looks the restriction up in its own way.  They agree because a
credential that names a project names the workspace of that project as well
(`Database.Confines`), and because the paths of projects are unique.

So each answer is a function of the rows inside the restriction, and of the
rows of the user and the settings (`Database.AgreesInside`).
-/

namespace Cresix.Server

open Concurrent (Program)
open Transition (System)

/-! ## Inside the restriction -/

namespace TokenPrincipal

variable (p : TokenPrincipal)

/-- The token is restricted. -/
def Restricted : Prop := p.workspaceId.isSome ∨ p.projectId.isSome

/-- The workspace is inside the restriction. -/
def coversWorkspace (id : String) : Bool := p.workspaceId.all (· = id)

/-- The project is inside the restriction. -/
def covers (row : ProjectRow) : Bool :=
  p.coversWorkspace row.workspaceId && p.projectId.all (· = row.id)

/-- The project is inside the restriction, and the user may read it. -/
def Reads (db : Database) (row : ProjectRow) : Prop :=
  row ∈ db.projects ∧ p.covers row = true ∧ db.hasRole p.userId row.workspaceId "reader" = true

end TokenPrincipal

/-- What `project_remote` answers about a project it shows. -/
def remoteOf (config : Config) (id : String) (workspace : WorkspaceRow) (row : ProjectRow) :
    Reply :=
  .remote id s!"{config.publicBaseUrl}/git/{workspace.slug}/{row.slug}.git" config.gitHttp false

/-- The reply shows what is inside the restriction and what the user is a member
of.  A Git reply comes from the repository of the project `opened`. -/
def Confined (config : Config) (p : TokenPrincipal) (db : Database)
    (opened : Except HttpError String) : Reply → Prop
  | .whoami _ userId _ workspaces => userId = p.userId ∧
      ∀ row role, (row, role) ∈ workspaces → row ∈ db.workspaces ∧
        db.role p.userId row.id = some role ∧ p.coversWorkspace row.id = true
  | .projects rows => ∀ row role, (row, role) ∈ rows → row ∈ db.projects ∧
      db.role p.userId row.workspaceId = some role ∧ p.covers row = true
  | .remote id cloneUrl fetch push => ∃ row workspace, p.Reads db row ∧ row.id = id ∧
      workspace ∈ db.workspaces ∧ workspace.id = row.workspaceId ∧
      .remote id cloneUrl fetch push = remoteOf config id workspace row
  | .git _ => ∃ row, p.Reads db row ∧ opened = .ok row.id
  | _ => False

/-- The databases have the same rows inside the restriction, and the user is a
member of the same workspaces there. -/
structure Database.AgreesInside (p : TokenPrincipal) (db db' : Database) : Prop where
  settings : db'.settings = db.settings
  workspaces : (db'.workspaces.filter fun row => p.coversWorkspace row.id) =
    db.workspaces.filter fun row => p.coversWorkspace row.id
  projects : db'.projects.filter p.covers = db.projects.filter p.covers
  memberships : (db'.memberships.filter fun row =>
      p.coversWorkspace row.workspaceId && row.userId = p.userId) =
    db.memberships.filter fun row => p.coversWorkspace row.workspaceId && row.userId = p.userId

/-- The credentials that name a project name its workspace. -/
def Database.Confines (db : Database) : Prop :=
  ∀ row ∈ db.credentials, db.restrictsTo (row.workspaceId, row.projectId)

/-! ## Who asks, and what is answered -/

/-- The authentication of a token. -/
def tokenPrincipal (config : Config) (request : Request) :
    Program Store Input HttpError TokenPrincipal :=
  match request.endpoint with
  | .gitInfoRefs _ _ _ | .gitUploadPack _ _ =>
      (authenticateGit config request.headers).mapError .git
  | _ => (authenticateBearer config request.headers .apiRead).mapError .api

/-- The project of a path, when the principal may read it. -/
def gitRepository (p : TokenPrincipal) (workspace repositoryName : String) :
    Program Store Input GitHttpError String := do
  let project ← Program.check (gitProjectSlug repositoryName)
  authorizeGitProject p workspace project "reader"

/-- The project a Git request of the principal opens. -/
def openedProject (p : TokenPrincipal) (request : Request) :
    Program Store Input HttpError String :=
  match request.endpoint with
  | .gitInfoRefs workspace repositoryName _ | .gitUploadPack workspace repositoryName =>
      (gitRepository p workspace repositoryName).mapError .git
  | _ => .fail (.git .projectNotFound)

/-- What the handler of a request does with a principal. -/
def answer (config : Config) (p : TokenPrincipal) (request : Request) :
    Program Store Input HttpError Reply :=
  match request.endpoint with
  | .cliWhoami => browser (query fun _ db => whoamiReply p db)
  | .listProjects => browser (query fun _ db => .ok (projectsReply p.userId (some p) db))
  | .projectRemote id =>
      browser (query fun _ db => remoteReply config p.userId (some p) id db)
  | .gitInfoRefs workspace repositoryName query => Program.mapError .git do
      let _ ← gitRepository p workspace repositoryName
      Program.check (checkTransport config request.headers)
      Program.check (if query.isSome then .ok () else .error ⟨400, "missing Git service query"⟩)
      let response ← askBackend
      return .git response
  | .gitUploadPack workspace repositoryName => Program.mapError .git do
      let _ ← gitRepository p workspace repositoryName
      Program.check (checkTransport config request.headers)
      let response ← askBackend
      return .git response
  | _ => .fail (.api .unauthenticated)

section

variable {config : Config} {request : Request} {headers : Headers} {p : TokenPrincipal}
  {s t : Store} {inputs rest : Nat → Input}

theorem bearerToken_authorization {token : String} (h : bearerToken config headers = .ok token) :
    headers.authorization.isEmpty = false := by
  obtain ⟨_, _, h⟩ := bind_eq_ok.mp h
  obtain ⟨_, _, h⟩ := bind_eq_ok.mp h
  split at h
  next value hvalue =>
    rw [hvalue]
    rfl
  next => cases h

theorem run_bind_of_ok {ε α β : Type} {q : Program Store Input ε α} {k : α → Program Store Input ε β}
    {value : α} (h : q.run inputs s = (.ok value, t, rest)) :
    (q >>= k).run inputs s = (k value).run rest t := by
  rw [Program.run_bind, h]

/-- The handler of a request with a token authenticates it and answers. -/
theorem program_run (htoken : request.endpoint.takesToken = true)
    (h : (tokenPrincipal config request).run inputs s = (.ok p, t, rest)) :
    (program config request).run inputs s = (answer config p request).run rest t := by
  obtain ⟨headers, endpoint⟩ := request
  cases endpoint with
  | cliWhoami =>
      show (Program.mapError _ (_ >>= _)).run _ _ = (Program.mapError _ _).run _ _
      rw [Program.run_mapError, run_bind_of_ok (Program.run_mapError_eq_ok.mp h), Program.run_mapError]
  | listProjects | projectRemote =>
      have hbearer := Program.run_mapError_eq_ok.mp h
      obtain ⟨token, hauthorization, _⟩ := Program.run_check_bind_eq_ok.mp hbearer
      have hprincipal : (tokenOrSession config headers).run inputs s =
          (.ok (p.userId, some p), t, rest) := by
        unfold tokenOrSession
        rw [if_neg (by rw [bearerToken_authorization hauthorization]; exact Bool.false_ne_true)]
        rw [run_bind_of_ok hbearer]
        rfl
      show (Program.mapError _ (_ >>= _)).run _ _ = (Program.mapError _ _).run _ _
      rw [Program.run_mapError, run_bind_of_ok hprincipal, Program.run_mapError]
  | gitInfoRefs workspace repositoryName query =>
      show (Program.mapError _ (_ >>= _)).run _ _ = (Program.mapError _ _).run _ _
      rw [Program.run_mapError, run_bind_of_ok (Program.run_mapError_eq_ok.mp h), Program.run_mapError]
      unfold gitRepository
      rw [Program.sequence_assoc]
  | gitUploadPack workspace repositoryName =>
      show (Program.mapError _ (_ >>= _)).run _ _ = (Program.mapError _ _).run _ _
      rw [Program.run_mapError, run_bind_of_ok (Program.run_mapError_eq_ok.mp h), Program.run_mapError]
      unfold gitRepository
      rw [Program.sequence_assoc]
  | _ => cases htoken

/-- A principal has the restriction of a credential. -/
theorem tokenPrincipal_run (htoken : request.endpoint.takesToken = true)
    (h : (tokenPrincipal config request).run inputs s = (.ok p, t, rest)) :
    (∃ row ∈ s.db.credentials, p.workspaceId = row.workspaceId ∧ p.projectId = row.projectId) ∧
      ∃ used now, t.db = { s.db with
        credentials := Table.update used (fun row => { row with lastUsedAt := some now })
          s.db.credentials } := by
  have hcovered : ∃ token expected scope,
      (authenticateOpaqueToken config token expected scope).run inputs s = (.ok p, t, rest) := by
    obtain ⟨headers, endpoint⟩ := request
    cases endpoint with
    | cliWhoami | listProjects | projectRemote =>
        obtain ⟨token, _, h⟩ := Program.run_check_bind_eq_ok.mp (Program.run_mapError_eq_ok.mp h)
        exact ⟨token, _, _, h⟩
    | gitInfoRefs | gitUploadPack =>
        have hgit := Program.run_mapError_eq_ok.mp h
        unfold authenticateGit at hgit
        split at hgit
        next => cases hgit
        next token _ => exact ⟨token, _, _, Program.run_mapError_eq_ok.mp hgit⟩
    | _ => cases htoken
  obtain ⟨token, expected, scope, h⟩ := hcovered
  obtain ⟨publicId, _, h⟩ := Program.run_check_bind_eq_ok.mp h
  obtain ⟨db, hwork, rfl, _⟩ := run_underLock h
  obtain ⟨⟨row, user⟩, howner, hwork⟩ := bind_eq_ok.mp hwork
  obtain ⟨_, _, hwork⟩ := bind_eq_ok.mp hwork
  obtain ⟨_, _, hwork⟩ := bind_eq_ok.mp hwork
  cases hwork
  obtain ⟨hrow, _⟩ := Database.tokenOwner_eq_some (orElse_eq_ok.mp howner)
  exact ⟨⟨row, hrow, rfl, rfl⟩, _, _, rfl⟩

end

/-! ## Credentials name the workspaces of their projects -/

section

variable {config : Config} {now : Instant} {db db' : Database} {endpoint : Endpoint}
  {user : String} {s t : Store}

theorem Database.Confines.update {p : CredentialRow → Bool} {f : CredentialRow → CredentialRow}
    (h : db.Confines) (hf : ∀ row, (f row).workspaceId = row.workspaceId ∧
      (f row).projectId = row.projectId) :
    Database.Confines { db with credentials := Table.update p f db.credentials } := by
  intro row hrow
  obtain ⟨old, hold, rfl⟩ := Table.mem_update hrow
  have hsame : (if p old then f old else old).workspaceId = old.workspaceId ∧
      (if p old then f old else old).projectId = old.projectId := by
    split
    next => exact hf old
    next => exact ⟨rfl, rfl⟩
  show db.restrictsTo _
  rw [hsame.1, hsame.2]
  exact h old hold

/-- The step lemma: only the insertion of a credential adds one. -/
theorem Effect.confines (h : Effect config now db endpoint user db') {clock : Instant}
    (hclock : now ≤ clock) (hconfines : db.Confines) : db'.Confines := by
  have hevolves := h.evolves hclock
  have hkept : db'.credentials = db.credentials → db'.Confines := by
    intro hsame row hrow
    rw [hsame] at hrow
    exact hevolves.restrictsTo (hconfines row hrow)
  cases h with
  | createCredential _ hrestricts =>
      intro row hrow
      rcases List.mem_append.mp hrow with hold | hnew
      · exact hconfines row hold
      · rw [List.mem_singleton.mp hnew]
        exact hrestricts
  | revokeCredential | useCredential _ => exact hconfines.update fun _ => ⟨rfl, rfl⟩
  | _ => exact hkept rfl

/-- In every reachable state the credentials name the workspaces of their
projects. -/
theorem confines_of_reachable {x : Process} (h : (system config).Reachable x) :
    x.db.Confines := by
  refine System.Reachable.induction (I := fun x => x.db.Confines) ?_ ?_ h
  · rintro x ⟨clock, rfl⟩ row hrow
    cases hrow
  · intro x a y hx hconfines hstep
    cases moves_of_reachable hx hstep with
    | same _ hdb => exact hdb ▸ hconfines
    | ensureServer _ hdb =>
        obtain ⟨settings, heq, _⟩ := ensureServer_eq_ok hdb
        rw [heq]
        exact hconfines
    | backfillServerOwner _ hdb =>
        obtain ⟨settings, heq⟩ := backfillServerOwner_eq x.db
        rw [hdb, heq]
        exact hconfines
    | serve _ hclock hchange =>
        obtain ⟨user, heffect, _⟩ := hchange
        exact heffect.confines hclock hconfines

end

/-! ## Answers depend on what is inside -/

section

variable {p : TokenPrincipal} {db db' : Database}

/-- The restriction names a workspace, and the project of the restriction is in
it. -/
structure Database.Anchors (db : Database) (p : TokenPrincipal) (workspaceId : String) :
    Prop where
  workspace : p.workspaceId = some workspaceId
  project : ∀ id, p.projectId = some id →
    ∃ row ∈ db.projects, row.id = id ∧ row.workspaceId = workspaceId

theorem TokenPrincipal.coversWorkspace_iff {workspaceId : String}
    (h : p.workspaceId = some workspaceId) (id : String) :
    p.coversWorkspace id = true ↔ id = workspaceId := by
  unfold coversWorkspace
  rw [h]
  exact decide_eq_true_iff.trans eq_comm

theorem Database.AgreesInside.mem_project (h : db.AgreesInside p db') {row : ProjectRow}
    (hcovers : p.covers row = true) : row ∈ db'.projects ↔ row ∈ db.projects := by
  have hmem : row ∈ db'.projects.filter p.covers ↔ row ∈ db.projects.filter p.covers := by
    rw [h.projects]
  rw [List.mem_filter, List.mem_filter] at hmem
  exact ⟨fun hrow => (hmem.mp ⟨hrow, hcovers⟩).1, fun hrow => (hmem.mpr ⟨hrow, hcovers⟩).1⟩

theorem Database.AgreesInside.role (h : db.AgreesInside p db') {workspaceId : String}
    (hcovers : p.coversWorkspace workspaceId = true) :
    db'.role p.userId workspaceId = db.role p.userId workspaceId := by
  have himp : ∀ row : MembershipRow,
      (decide (row.workspaceId = workspaceId) && decide (row.userId = p.userId)) = true →
        (p.coversWorkspace row.workspaceId && decide (row.userId = p.userId)) = true := by
    intro row hrow
    obtain ⟨hworkspace, huser⟩ := Bool.and_eq_true_iff.mp hrow
    rw [of_decide_eq_true hworkspace, hcovers, huser, Bool.and_true]
  unfold Database.role
  rw [← Table.find?_filter_of_imp himp, h.memberships, Table.find?_filter_of_imp himp]

/-- The workspace rows inside are the same. -/
theorem Database.AgreesInside.mem_workspace (h : db.AgreesInside p db') {row : WorkspaceRow}
    (hcovers : p.coversWorkspace row.id = true) : row ∈ db'.workspaces ↔ row ∈ db.workspaces := by
  have hmem : (row ∈ db'.workspaces.filter fun row => p.coversWorkspace row.id) ↔
      row ∈ db.workspaces.filter fun row => p.coversWorkspace row.id := by
    rw [h.workspaces]
  rw [List.mem_filter, List.mem_filter] at hmem
  exact ⟨fun hrow => (hmem.mp ⟨hrow, hcovers⟩).1, fun hrow => (hmem.mpr ⟨hrow, hcovers⟩).1⟩

theorem Database.Anchors.agrees {workspaceId : String} (h : db.Anchors p workspaceId)
    (hagrees : db.AgreesInside p db') : db'.Anchors p workspaceId := by
  refine ⟨h.workspace, fun id hid => ?_⟩
  obtain ⟨row, hrow, hrowId, hrowWorkspace⟩ := h.project id hid
  have hcovers : p.covers row = true := by
    refine Bool.and_eq_true_iff.mpr
      ⟨(TokenPrincipal.coversWorkspace_iff h.workspace _).mpr hrowWorkspace, ?_⟩
    rw [hid]
    exact decide_eq_true hrowId.symm
  exact ⟨row, (hagrees.mem_project hcovers).mpr hrow, hrowId, hrowWorkspace⟩

/-- The filter of `list_projects` keeps what is inside. -/
theorem Database.Anchors.lists_eq {workspaceId : String} (h : db.Anchors p workspaceId)
    (hwf : db.WellFormed) : db.projects.filter p.lists = db.projects.filter p.covers := by
  refine List.filter_congr fun row hrow => ?_
  unfold TokenPrincipal.lists TokenPrincipal.covers TokenPrincipal.coversWorkspace
  rw [h.workspace]
  cases hproject : p.projectId with
  | none =>
      show decide (row.workspaceId = workspaceId) =
        (decide (workspaceId = row.workspaceId) && true)
      rw [Bool.and_true]
      exact decide_eq_decide.mpr eq_comm
  | some id =>
      show decide (row.id = id) =
        (decide (workspaceId = row.workspaceId) && decide (id = row.id))
      by_cases hid : row.id = id
      · obtain ⟨inside, hinside, hinsideId, hinsideWorkspace⟩ := h.project id hproject
        have hsame : row = inside := hwf.projects row hrow inside hinside
          (hid.trans hinsideId.symm)
        rw [decide_eq_true hid, decide_eq_true hid.symm, Bool.and_true]
        exact (decide_eq_true (by rw [hsame, hinsideWorkspace])).symm
      · rw [decide_eq_false hid, decide_eq_false (Ne.symm hid), Bool.and_false]

/-! ### `list_projects` -/

theorem Database.AgreesInside.projectsReply {workspaceId : String}
    (h : db.AgreesInside p db') (hanchors : db.Anchors p workspaceId) (hwf : db.WellFormed)
    (hwf' : db'.WellFormed) :
    projectsReply p.userId (some p) db' = projectsReply p.userId (some p) db := by
  have hrows : ((db'.projects.filter p.lists).filterMap fun row =>
      (db'.role p.userId row.workspaceId).map fun role => (row, role)) =
      (db.projects.filter p.lists).filterMap fun row =>
        (db.role p.userId row.workspaceId).map fun role => (row, role) := by
    rw [(hanchors.agrees h).lists_eq hwf', hanchors.lists_eq hwf, h.projects]
    refine List.filterMap_congr fun row hrow => ?_
    rw [h.role (Bool.and_eq_true_iff.mp (List.mem_filter.mp hrow).2).1]
  unfold Server.projectsReply
  simp only [Option.all_some]
  rw [hrows]

/-! ### `cli_whoami` -/

theorem mem_workspacesOf {userId role : String} {row : WorkspaceRow} :
    (row, role) ∈ db.workspacesOf userId ↔
      row ∈ db.workspaces ∧ db.role userId row.id = some role := by
  unfold Database.workspacesOf
  rw [List.mem_mergeSort, List.mem_filterMap]
  constructor
  · rintro ⟨row', hrow', hmap⟩
    obtain ⟨role', hrole, heq⟩ := Option.map_eq_some_iff.mp hmap
    cases heq
    exact ⟨hrow', hrole⟩
  · rintro ⟨hrow, hrole⟩
    exact ⟨row, hrow, by rw [hrole]; rfl⟩

theorem Database.AgreesInside.workspacesOf {workspaceId : String}
    (h : db.AgreesInside p db') (hanchors : db.Anchors p workspaceId) (hwf : db.WellFormed) :
    (db'.workspacesOf p.userId).filter (fun listed => p.coversWorkspace listed.1.id) =
      (db.workspacesOf p.userId).filter fun listed => p.coversWorkspace listed.1.id := by
  have hlisted : ∀ db : Database,
      (db.workspaces.filterMap fun row => (db.role p.userId row.id).map fun role =>
        (row, role)).filter (fun listed => p.coversWorkspace listed.1.id) =
      (db.workspaces.filter fun row => p.coversWorkspace row.id).filterMap fun row =>
        (db.role p.userId row.id).map fun role => (row, role) := by
    intro db
    rw [List.filter_filterMap, List.filterMap_filter]
    refine List.filterMap_congr fun row _ => ?_
    cases hcovers : p.coversWorkspace row.id with
    | true => cases db.role p.userId row.id <;> simp [hcovers]
    | false => cases db.role p.userId row.id <;> simp [hcovers]
  have hperm : ((db'.workspacesOf p.userId).filter fun listed =>
      p.coversWorkspace listed.1.id).Perm
      ((db.workspacesOf p.userId).filter fun listed => p.coversWorkspace listed.1.id) := by
    refine ((List.mergeSort_perm _ _).filter _).trans
      (List.Perm.trans ?_ ((List.mergeSort_perm _ _).filter _).symm)
    rw [hlisted, hlisted, h.workspaces]
    refine List.Perm.of_eq (List.filterMap_congr fun row hrow => ?_)
    rw [h.role (List.mem_filter.mp hrow).2]
  refine (Table.eq_of_perm hperm.symm ?_).symm
  -- Only one workspace is inside, so the order of the answer is no matter.
  rintro ⟨row, role⟩ hrow ⟨row', role'⟩ hrow'
  obtain ⟨hmem, hcovers⟩ := List.mem_filter.mp hrow
  obtain ⟨hmem', hcovers'⟩ := List.mem_filter.mp hrow'
  obtain ⟨hworkspace, hrole⟩ := mem_workspacesOf.mp hmem
  obtain ⟨hworkspace', hrole'⟩ := mem_workspacesOf.mp hmem'
  have hid := (TokenPrincipal.coversWorkspace_iff hanchors.workspace row.id).mp hcovers
  have hid' := (TokenPrincipal.coversWorkspace_iff hanchors.workspace row'.id).mp hcovers'
  cases hwf.workspaces row hworkspace row' hworkspace' (hid.trans hid'.symm)
  rw [hrole] at hrole'
  cases hrole'
  rfl

theorem Database.AgreesInside.whoamiReply {workspaceId : String}
    (h : db.AgreesInside p db') (hanchors : db.Anchors p workspaceId) (hwf : db.WellFormed) :
    whoamiReply p db' = whoamiReply p db := by
  have hworkspaces := h.workspacesOf hanchors hwf
  unfold Server.whoamiReply Database.setting
  rw [h.settings]
  unfold TokenPrincipal.coversWorkspace at hworkspaces
  exact congrArg (fun listed => orElse (db.settings.lookup "server_id") ApiError.internal >>=
    fun serverId => Except.ok (Reply.whoami serverId p.userId p.displayName listed)) hworkspaces

/-! ### `project_remote` -/

theorem Database.AgreesInside.reads (h : db.AgreesInside p db') {row : ProjectRow}
    (hcovers : p.covers row = true) : p.Reads db' row ↔ p.Reads db row := by
  unfold TokenPrincipal.Reads Database.hasRole
  rw [h.mem_project hcovers, h.role (Bool.and_eq_true_iff.mp hcovers).1]

theorem TokenPrincipal.covers_iff {row : ProjectRow} :
    p.covers row = true ↔ (p.workspaceId.any (· ≠ row.workspaceId) ||
      p.projectId.any (· ≠ row.id)) = false := by
  unfold covers coversWorkspace
  cases p.workspaceId with
  | none =>
      cases p.projectId with
      | none => simp
      | some id => simp
  | some workspaceId =>
      cases p.projectId with
      | none => simp
      | some id => simp

theorem remoteReply_eq_ok {config : Config} (hwf : db.WellFormed) {id : String} {reply : Reply} :
    remoteReply config p.userId (some p) id db = .ok reply ↔
      ∃ row workspace, p.Reads db row ∧ row.id = id ∧ workspace ∈ db.workspaces ∧
        workspace.id = row.workspaceId ∧ reply = remoteOf config id workspace row := by
  constructor
  · intro h
    obtain ⟨row, hfind, h⟩ := bind_eq_ok.mp h
    obtain ⟨workspace, hworkspace, h⟩ := bind_eq_ok.mp h
    obtain ⟨_, hrestriction, h⟩ := bind_eq_ok.mp h
    cases h
    have hfind' := orElse_eq_ok.mp hfind
    have hworkspace' := orElse_eq_ok.mp hworkspace
    have hfound := List.find?_some hfind'
    obtain ⟨hid, hrole⟩ := Bool.and_eq_true_iff.mp hfound
    have hid' := of_decide_eq_true hid
    have hsame : workspace.id = row.workspaceId := by simpa using List.find?_some hworkspace'
    refine ⟨row, workspace, ⟨List.mem_of_find?_eq_some hfind', ?_, hrole⟩, hid',
      List.mem_of_find?_eq_some hworkspace', hsame, rfl⟩
    rw [TokenPrincipal.covers_iff, ← hsame, hid']
    simpa using require_eq_ok.mp hrestriction
  · rintro ⟨row, workspace, ⟨hrow, hcovers, hrole⟩, rfl, hworkspace, hsame, rfl⟩
    refine bind_eq_ok.mpr ⟨row, orElse_eq_ok.mpr ?_, bind_eq_ok.mpr ⟨workspace,
      orElse_eq_ok.mpr ?_, bind_eq_ok.mpr ⟨(), require_eq_ok.mpr ?_, rfl⟩⟩⟩
    · refine Table.find?_eq_some_of_unique hrow ?_ fun other hother hfound => ?_
      · exact Bool.and_eq_true_iff.mpr ⟨decide_eq_true rfl, hrole⟩
      · exact hwf.projects other hother row hrow
          (of_decide_eq_true (Bool.and_eq_true_iff.mp hfound).1)
    · refine Table.find?_eq_some_of_unique hworkspace (decide_eq_true hsame)
        fun other hother hfound => ?_
      exact hwf.workspaces other hother workspace hworkspace
        ((of_decide_eq_true hfound).trans hsame.symm)
    · rw [TokenPrincipal.covers_iff, ← hsame] at hcovers
      simpa using hcovers

theorem remoteReply_eq_error {config : Config} {id userId : String} {error : ApiError}
    (h : remoteReply config userId (some p) id db = .error error) :
    error = .notFound "project" := by
  rcases bind_eq_error h with h | ⟨row, _, h⟩
  · exact orElse_eq_error h
  · rcases bind_eq_error h with h | ⟨workspace, _, h⟩
    · exact orElse_eq_error h
    · rcases bind_eq_error h with h | ⟨_, _, h⟩
      · exact require_eq_error h
      · cases h

theorem Database.AgreesInside.remoteReply {config : Config} (h : db.AgreesInside p db')
    (hwf : db.WellFormed) (hwf' : db'.WellFormed) (id : String) :
    remoteReply config p.userId (some p) id db' = remoteReply config p.userId (some p) id db := by
  have hiff : ∀ reply, Server.remoteReply config p.userId (some p) id db' = .ok reply ↔
      Server.remoteReply config p.userId (some p) id db = .ok reply := by
    intro reply
    rw [remoteReply_eq_ok hwf, remoteReply_eq_ok hwf']
    refine exists_congr fun row => exists_congr fun workspace => ?_
    constructor
    · rintro ⟨hreads, hid, hworkspace, hsame, hreply⟩
      have hcovers := (Bool.and_eq_true_iff.mp hreads.2.1).1
      exact ⟨(h.reads hreads.2.1).mp hreads, hid,
        (h.mem_workspace (hsame ▸ hcovers)).mp hworkspace, hsame, hreply⟩
    · rintro ⟨hreads, hid, hworkspace, hsame, hreply⟩
      have hcovers := (Bool.and_eq_true_iff.mp hreads.2.1).1
      exact ⟨(h.reads hreads.2.1).mpr hreads, hid,
        (h.mem_workspace (hsame ▸ hcovers)).mpr hworkspace, hsame, hreply⟩
  cases hreply : Server.remoteReply config p.userId (some p) id db with
  | ok reply => exact (hiff reply).mpr hreply
  | error error =>
      cases hreply' : Server.remoteReply config p.userId (some p) id db' with
      | ok reply =>
          rw [(hiff reply).mp hreply'] at hreply
          cases hreply
      | error error' => rw [remoteReply_eq_error hreply, remoteReply_eq_error hreply']

/-! ### The Git endpoints -/

/-- The project has the path. -/
def Database.Located (db : Database) (workspaceSlug projectSlug : String) (row : ProjectRow) :
    Prop :=
  row ∈ db.projects ∧ row.slug = projectSlug ∧
    ∃ workspace ∈ db.workspaces, workspace.id = row.workspaceId ∧ workspace.slug = workspaceSlug

theorem Database.Located.unique (hwf : db.WellFormed) {workspaceSlug projectSlug : String}
    {row row' : ProjectRow} (h : db.Located workspaceSlug projectSlug row)
    (h' : db.Located workspaceSlug projectSlug row') : row = row' := by
  obtain ⟨hrow, hslug, workspace, hworkspace, hid, hpath⟩ := h
  obtain ⟨hrow', hslug', workspace', hworkspace', hid', hpath'⟩ := h'
  have hsame := hwf.slugs workspace hworkspace workspace' hworkspace' (hpath.trans hpath'.symm)
  refine hwf.paths row hrow row' hrow' (Prod.ext ?_ (hslug.trans hslug'.symm))
  show row.workspaceId = row'.workspaceId
  rw [← hid, hsame, hid']

theorem Database.projectBySlug_located {workspaceSlug projectSlug : String} {row : ProjectRow}
    (h : db.projectBySlug workspaceSlug projectSlug = some row) :
    db.Located workspaceSlug projectSlug row := by
  have hfound := List.find?_some h
  obtain ⟨hslug, hworkspace⟩ := Bool.and_eq_true_iff.mp hfound
  obtain ⟨workspace, hmem, hboth⟩ := List.any_eq_true.mp hworkspace
  obtain ⟨hid, hpath⟩ := Bool.and_eq_true_iff.mp hboth
  exact ⟨List.mem_of_find?_eq_some h, of_decide_eq_true hslug, workspace, hmem,
    of_decide_eq_true hid, of_decide_eq_true hpath⟩

theorem Database.Located.projectBySlug (hwf : db.WellFormed) {workspaceSlug projectSlug : String}
    {row : ProjectRow} (h : db.Located workspaceSlug projectSlug row) :
    db.projectBySlug workspaceSlug projectSlug = some row := by
  have hholds : ∀ row, db.Located workspaceSlug projectSlug row →
      (decide (row.slug = projectSlug) && db.workspaces.any fun workspace =>
        decide (workspace.id = row.workspaceId) && decide (workspace.slug = workspaceSlug)) =
          true := by
    rintro row ⟨_, hslug, workspace, hmem, hid, hpath⟩
    refine Bool.and_eq_true_iff.mpr ⟨decide_eq_true hslug, List.any_eq_true.mpr
      ⟨workspace, hmem, ?_⟩⟩
    exact Bool.and_eq_true_iff.mpr ⟨decide_eq_true hid, decide_eq_true hpath⟩
  cases hfind : db.projectBySlug workspaceSlug projectSlug with
  | none => exact absurd (hholds row h) (List.find?_eq_none.mp hfind row h.1)
  | some row' => rw [(Database.projectBySlug_located hfind).unique hwf h]

/-- What the user may do with the project of a path decides the answer, when
the project is inside. -/
theorem gitProjectAllowed_of_inside (hwf : db.WellFormed)
    {workspaceSlug projectSlug minimum role : String} {row : ProjectRow}
    (hrow : db.Located workspaceSlug projectSlug row) (hcovers : p.covers row = true)
    (hrole : db.role p.userId row.workspaceId = some role) :
    gitProjectAllowed p workspaceSlug projectSlug minimum db =
      if roleRank role < roleRank minimum then .error .forbidden else .ok row.id := by
  unfold gitProjectAllowed
  rw [hrow.projectBySlug hwf]
  simp only [hrole]
  rw [TokenPrincipal.covers_iff.mp hcovers]
  rfl

/-- A project that is not inside is not found. -/
theorem gitProjectAllowed_of_outside {workspaceSlug projectSlug minimum : String}
    (hnone : ∀ row, db.Located workspaceSlug projectSlug row → p.covers row = true →
      db.role p.userId row.workspaceId = none) :
    gitProjectAllowed p workspaceSlug projectSlug minimum db = .error .projectNotFound := by
  unfold gitProjectAllowed
  split
  next => rfl
  next row hrow =>
    split
    next => rfl
    next role hrole =>
      cases hcovers : p.covers row with
      | true =>
          rw [hnone row (Database.projectBySlug_located hrow) hcovers] at hrole
          cases hrole
      | false =>
          refine if_pos ?_
          cases houtside : (p.workspaceId.any (· ≠ row.workspaceId) ||
              p.projectId.any (· ≠ row.id)) with
          | true => rfl
          | false =>
              rw [TokenPrincipal.covers_iff.mpr houtside] at hcovers
              cases hcovers

theorem Database.AgreesInside.located (h : db.AgreesInside p db')
    {workspaceSlug projectSlug : String} {row : ProjectRow} (hcovers : p.covers row = true) :
    db'.Located workspaceSlug projectSlug row ↔ db.Located workspaceSlug projectSlug row := by
  have hinside := (Bool.and_eq_true_iff.mp hcovers).1
  unfold Database.Located
  rw [h.mem_project hcovers]
  refine and_congr_right fun _ => and_congr_right fun _ => exists_congr fun workspace => ?_
  constructor
  · rintro ⟨hmem, hid, hslug⟩
    exact ⟨(h.mem_workspace (hid ▸ hinside)).mp hmem, hid, hslug⟩
  · rintro ⟨hmem, hid, hslug⟩
    exact ⟨(h.mem_workspace (hid ▸ hinside)).mpr hmem, hid, hslug⟩

theorem Database.AgreesInside.gitProjectAllowed (h : db.AgreesInside p db')
    (hwf : db.WellFormed) (hwf' : db'.WellFormed) (workspaceSlug projectSlug minimum : String) :
    gitProjectAllowed p workspaceSlug projectSlug minimum db' =
      gitProjectAllowed p workspaceSlug projectSlug minimum db := by
  by_cases hexists : ∃ row role, db.Located workspaceSlug projectSlug row ∧
      p.covers row = true ∧ db.role p.userId row.workspaceId = some role
  · obtain ⟨row, role, hrow, hcovers, hrole⟩ := hexists
    rw [gitProjectAllowed_of_inside hwf hrow hcovers hrole]
    refine gitProjectAllowed_of_inside hwf' ((h.located hcovers).mpr hrow) hcovers ?_
    rw [h.role (Bool.and_eq_true_iff.mp hcovers).1, hrole]
  · have hnone : ∀ row, db.Located workspaceSlug projectSlug row → p.covers row = true →
        db.role p.userId row.workspaceId = none := by
      intro row hrow hcovers
      cases hrole : db.role p.userId row.workspaceId with
      | none => rfl
      | some role => exact absurd ⟨row, role, hrow, hcovers, hrole⟩ hexists
    rw [gitProjectAllowed_of_outside hnone]
    refine gitProjectAllowed_of_outside fun row hrow hcovers => ?_
    rw [h.role (Bool.and_eq_true_iff.mp hcovers).1]
    exact hnone row ((h.located hcovers).mp hrow) hcovers

end

/-! ## Two stores -/

/-- The store with other workspaces, projects and memberships. -/
def Store.withProjects (workspaces : List WorkspaceRow) (projects : List ProjectRow)
    (memberships : List MembershipRow) (s : Store) : Store :=
  ⟨{ s.db with workspaces, projects, memberships }, s.clock⟩

section

variable {config : Config} {request : Request} {p : TokenPrincipal} {s : Store}
  {inputs inputs' : Nat → Input} {I : Input → Input → Prop} {workspaces : List WorkspaceRow}
  {projects : List ProjectRow} {memberships : List MembershipRow} {ε α : Type}

/-- The relation of two stores that differ in these tables. -/
abbrev Differs (workspaces : List WorkspaceRow) (projects : List ProjectRow)
    (memberships : List MembershipRow) (s s' : Store) : Prop :=
  s' = s.withProjects workspaces projects memberships

/-- The rule for work under the lock that does alike in both stores. -/
theorem underLock_alike {fault : ε} {work : Input → Readings → Database → Except ε (α × Database)}
    (hinputs : ∀ n, I (inputs n) (inputs' n)) (hwaits : (inputs' 0).waits = (inputs 0).waits)
    (hfault : (inputs' 0).fault = (inputs 0).fault)
    (hwork : ∀ now, work (inputs' 0) now { s.db with workspaces, projects, memberships } =
      (work (inputs 0) now s.db).map fun result =>
        (result.1, { result.2 with workspaces, projects, memberships })) :
    Program.Alike (Differs workspaces projects memberships) I
      ((underLock fault work).run inputs s)
      ((underLock fault work).run inputs' (s.withProjects workspaces projects memberships)) := by
  have hreadings : (inputs' 0).readings s.clock = (inputs 0).readings s.clock := by
    unfold Input.readings
    rw [hwaits]
  have hattempt : attempt fault work (inputs' 0) (s.withProjects workspaces projects memberships) =
      ((attempt fault work (inputs 0) s).1,
        (attempt fault work (inputs 0) s).2.withProjects workspaces projects memberships) := by
    unfold attempt Store.withProjects
    simp only [hreadings, hfault, hwork]
    cases (inputs 0).fault with
    | true => rfl
    | false =>
        cases work (inputs 0) ((inputs 0).readings s.clock) s.db with
        | ok result => rfl
        | error error => rfl
  refine .step hinputs ?_ ?_
  · rw [hattempt]
  · rw [hattempt]

theorem query_alike {ask : Readings → Database → Outcome α} (hI : ∀ i, I i i)
    (hask : ∀ now, ask now { s.db with workspaces, projects, memberships } = ask now s.db) :
    Program.Alike (Differs workspaces projects memberships) I ((query ask).run inputs s)
      ((query ask).run inputs (s.withProjects workspaces projects memberships)) := by
  refine underLock_alike (fun n => hI _) rfl rfl fun now => ?_
  rw [hask]
  cases ask now s.db with
  | ok value => rfl
  | error error => rfl

/-- Authentication does not look at these tables. -/
theorem tokenPrincipal_alike (hinputs : ∀ n, I (inputs n) (inputs' n))
    (hwaits : ∀ n, (inputs' n).waits = (inputs n).waits)
    (hfault : ∀ n, (inputs' n).fault = (inputs n).fault) :
    Program.Alike (Differs workspaces projects memberships) I
      ((tokenPrincipal config request).run inputs s)
      ((tokenPrincipal config request).run inputs'
        (s.withProjects workspaces projects memberships)) := by
  have hcovered : ∀ token expected scope, Program.Alike (Differs workspaces projects memberships) I
      ((authenticateOpaqueToken config token expected scope).run inputs s)
      ((authenticateOpaqueToken config token expected scope).run inputs'
        (s.withProjects workspaces projects memberships)) := by
    intro token expected scope
    refine .check_bind rfl hinputs fun publicId _ => ?_
    refine underLock_alike hinputs (hwaits 0) (hfault 0) fun now => ?_
    refine bind_map_congr fun owner => ?_
    obtain ⟨row, user⟩ := owner
    exact bind_map_congr fun _ => bind_map_congr fun _ => rfl
  have hbearer : Program.Alike (Differs workspaces projects memberships) I
      (((authenticateBearer config request.headers .apiRead).mapError HttpError.api).run inputs s)
      (((authenticateBearer config request.headers .apiRead).mapError HttpError.api).run inputs'
        (s.withProjects workspaces projects memberships)) :=
    .mapError (.check_bind rfl hinputs fun token _ => hcovered token _ _)
  have hgit : Program.Alike (Differs workspaces projects memberships) I
      (((authenticateGit config request.headers).mapError HttpError.git).run inputs s)
      (((authenticateGit config request.headers).mapError HttpError.git).run inputs'
        (s.withProjects workspaces projects memberships)) := by
    refine .mapError ?_
    unfold authenticateGit
    split
    next => exact ⟨rfl, rfl, hinputs⟩
    next token _ => exact .mapError (hcovered token _ _)
  unfold tokenPrincipal
  split
  next => exact hgit
  next => exact hgit
  next => exact hbearer

/-- Git looks at the project of the path, and at the repository of a project
the principal may read. -/
theorem gitRepository_alike {workspace repositoryName : String}
    (hinputs : ∀ n, I (inputs n) (inputs' n)) (hwaits : (inputs' 0).waits = (inputs 0).waits)
    (hfault : (inputs' 0).fault = (inputs 0).fault)
    (hallowed : ∀ project, gitProjectAllowed p workspace project "reader"
        { s.db with workspaces, projects, memberships } =
      gitProjectAllowed p workspace project "reader" s.db)
    (hopened : ∀ project id, gitProjectAllowed p workspace project "reader" s.db = .ok id →
      (inputs' 0).opened = (inputs 0).opened) :
    Program.Alike (Differs workspaces projects memberships) I
      ((gitRepository p workspace repositoryName).run inputs s)
      ((gitRepository p workspace repositoryName).run inputs'
        (s.withProjects workspaces projects memberships)) := by
  unfold gitRepository authorizeGitProject
  refine .check_bind rfl hinputs fun project _ => ?_
  refine .check_bind rfl hinputs fun _ _ => .check_bind rfl hinputs fun _ _ => ?_
  refine underLock_alike hinputs hwaits hfault fun now => ?_
  simp only [hallowed]
  cases hcase : gitProjectAllowed p workspace project "reader" s.db with
  | error error => rfl
  | ok id =>
      simp only [hopened project id hcase]
      cases (inputs 0).opened with
      | true => rfl
      | false => rfl

/-- The backend does not look at the store. -/
theorem askBackend_alike (hinputs : inputs' = inputs) :
    Program.Alike (Differs workspaces projects memberships) Eq (askBackend.run inputs s)
      (askBackend.run inputs' (s.withProjects workspaces projects memberships)) := by
  subst hinputs
  exact .step (fun _ => rfl) rfl rfl

/-- The handlers answer alike when the inside is the same. -/
theorem answer_alike {workspaceId : String}
    (hagrees : s.db.AgreesInside p { s.db with workspaces, projects, memberships })
    (hanchors : s.db.Anchors p workspaceId) (hwf : s.db.WellFormed)
    (hwf' : Database.WellFormed { s.db with workspaces, projects, memberships })
    (htoken : request.endpoint.takesToken = true) :
    Program.Alike (Differs workspaces projects memberships) Eq
      ((answer config p request).run inputs s)
      ((answer config p request).run inputs (s.withProjects workspaces projects memberships)) := by
  have hgit : ∀ workspace repositoryName, Program.Alike (Differs workspaces projects memberships)
      Eq ((gitRepository p workspace repositoryName).run inputs s)
      ((gitRepository p workspace repositoryName).run inputs
        (s.withProjects workspaces projects memberships)) := fun workspace _ =>
    gitRepository_alike (fun _ => rfl) rfl rfl
      (fun project => hagrees.gitProjectAllowed hwf hwf' workspace project "reader")
      fun _ _ _ => rfl
  obtain ⟨headers, endpoint⟩ := request
  cases endpoint with
  | cliWhoami =>
      exact .mapError (query_alike (fun _ => rfl) fun _ => hagrees.whoamiReply hanchors hwf)
  | listProjects =>
      exact .mapError (query_alike (fun _ => rfl) fun _ =>
        congrArg Except.ok (hagrees.projectsReply hanchors hwf hwf'))
  | projectRemote id =>
      exact .mapError (query_alike (fun _ => rfl) fun _ => hagrees.remoteReply hwf hwf' id)
  | gitInfoRefs workspace repositoryName query =>
      refine .mapError (.bind (hgit workspace repositoryName) ?_)
      intro _ t rest t' rest' _ _ hstates hrest
      cases hstates
      refine .check_bind rfl hrest fun _ _ => .check_bind rfl hrest fun _ _ => ?_
      refine .bind (askBackend_alike (funext fun n => (hrest n).symm)) ?_
      intro response u left u' left' _ _ hstates' hleft
      exact ⟨rfl, hstates', hleft⟩
  | gitUploadPack workspace repositoryName =>
      refine .mapError (.bind (hgit workspace repositoryName) ?_)
      intro _ t rest t' rest' _ _ hstates hrest
      cases hstates
      refine .check_bind rfl hrest fun _ _ => ?_
      refine .bind (askBackend_alike (funext fun n => (hrest n).symm)) ?_
      intro response u left u' left' _ _ hstates' hleft
      exact ⟨rfl, hstates', hleft⟩
  | _ => cases htoken

end

/-! ## Confinement -/

section

variable {config : Config} {request : Request} {p : TokenPrincipal} {x : Process} {s t u : Store}
  {inputs rest left : Nat → Input}

/-- A restricted principal of a reachable state names a workspace. -/
theorem anchors_of_confines (hconfines : s.db.Confines) (hrestricted : p.Restricted)
    {row : CredentialRow} (hrow : row ∈ s.db.credentials) (hworkspace : p.workspaceId = row.workspaceId)
    (hproject : p.projectId = row.projectId) : ∃ workspaceId, s.db.Anchors p workspaceId := by
  have hrestricts := hconfines row hrow
  have hanchors : ∀ workspaceId, p.workspaceId = some workspaceId →
      s.db.Anchors p workspaceId := by
    intro workspaceId hworkspaceId
    refine ⟨hworkspaceId, fun id hid => ?_⟩
    obtain ⟨workspaceId', hsame, hfind⟩ := hrestricts id (hproject ▸ hid)
    obtain ⟨project, hproject', heq⟩ := Option.map_eq_some_iff.mp hfind
    refine ⟨project, List.mem_of_find?_eq_some hproject', ?_, ?_⟩
    · simpa using List.find?_some hproject'
    · rw [heq]
      exact Option.some.inj (hsame.symm.trans (hworkspace.symm.trans hworkspaceId))
  rcases hrestricted with hsome | hsome
  · obtain ⟨workspaceId, hworkspaceId⟩ := Option.isSome_iff_exists.mp hsome
    exact ⟨workspaceId, hanchors workspaceId hworkspaceId⟩
  · obtain ⟨id, hid⟩ := Option.isSome_iff_exists.mp hsome
    obtain ⟨workspaceId, hsame, _⟩ := hrestricts id (hproject ▸ hid)
    exact ⟨workspaceId, hanchors workspaceId (hworkspace.trans hsame)⟩

theorem gitProjectAllowed_eq_ok {workspaceSlug projectSlug id : String}
    (h : gitProjectAllowed p workspaceSlug projectSlug "reader" s.db = .ok id) :
    ∃ row, p.Reads s.db row ∧ row.id = id := by
  unfold gitProjectAllowed at h
  split at h
  next => cases h
  next row hrow =>
    split at h
    next => cases h
    next role hrole =>
      split at h
      next => cases h
      next hinside =>
        split at h
        next => cases h
        next hrank =>
          cases h
          refine ⟨row, ⟨(Database.projectBySlug_located hrow).1, ?_, ?_⟩, rfl⟩
          · exact TokenPrincipal.covers_iff.mpr (Bool.eq_false_iff.mpr hinside)
          · unfold Database.hasRole
            rw [hrole]
            exact decide_eq_true (Nat.le_of_not_lt hrank)

theorem gitRepository_run {workspace repositoryName id : String}
    (h : (gitRepository p workspace repositoryName).run inputs s = (.ok id, t, rest)) :
    ∃ row, p.Reads s.db row ∧ row.id = id := by
  obtain ⟨project, _, h⟩ := Program.run_check_bind_eq_ok.mp h
  obtain ⟨_, _, h⟩ := Program.run_check_bind_eq_ok.mp h
  obtain ⟨_, _, h⟩ := Program.run_check_bind_eq_ok.mp h
  obtain ⟨db, hwork, _⟩ := run_underLock h
  split at hwork
  next => cases hwork
  next id' hallowed =>
    split at hwork
    next =>
      cases hwork
      exact gitProjectAllowed_eq_ok hallowed
    next => cases hwork

/-- What an answer shows is confined. -/
theorem answer_confined {workspaceId : String} (hanchors : s.db.Anchors p workspaceId)
    (hwf : s.db.WellFormed) (htoken : request.endpoint.takesToken = true) {reply : Reply}
    (h : (answer config p request).run inputs s = (.ok reply, t, rest)) :
    Confined config p s.db ((openedProject p request).run inputs s).1 reply := by
  have hgit : ∀ workspace repositoryName id u left,
      (gitRepository p workspace repositoryName).run inputs s = (.ok id, u, left) →
      ∃ row, p.Reads s.db row ∧
        (((gitRepository p workspace repositoryName).mapError HttpError.git).run inputs s).1 =
          .ok row.id := by
    intro workspace repositoryName id u left hrun
    obtain ⟨row, hreads, rfl⟩ := gitRepository_run hrun
    refine ⟨row, hreads, ?_⟩
    rw [Program.run_mapError, hrun]
    rfl
  obtain ⟨headers, endpoint⟩ := request
  cases endpoint with
  | cliWhoami =>
      have hask := run_query (Program.run_mapError_eq_ok.mp h)
      obtain ⟨serverId, _, hreply⟩ := bind_eq_ok.mp hask
      cases hreply
      refine ⟨rfl, fun row role hmem => ?_⟩
      obtain ⟨hlisted, hcovers⟩ := List.mem_filter.mp hmem
      obtain ⟨hrow, hrole⟩ := mem_workspacesOf.mp hlisted
      exact ⟨hrow, hrole, hcovers⟩
  | listProjects =>
      have hask := run_query (Program.run_mapError_eq_ok.mp h)
      cases hask
      intro row role hmem
      rw [List.mem_mergeSort] at hmem
      obtain ⟨row', hrow', hmap⟩ := List.mem_filterMap.mp hmem
      obtain ⟨role', hrole, heq⟩ := Option.map_eq_some_iff.mp hmap
      cases heq
      have hlists : (s.db.projects.filter fun row => (some p).all (·.lists row)) =
          s.db.projects.filter p.covers := hanchors.lists_eq hwf
      rw [hlists] at hrow'
      obtain ⟨hrow, hcovers⟩ := List.mem_filter.mp hrow'
      exact ⟨hrow, hrole, hcovers⟩
  | projectRemote id =>
      have hask := run_query (Program.run_mapError_eq_ok.mp h)
      obtain ⟨row, workspace, hreads, hid, hworkspace, hsame, rfl⟩ :=
        (remoteReply_eq_ok hwf).mp hask
      exact ⟨row, workspace, hreads, hid, hworkspace, hsame, rfl⟩
  | gitInfoRefs workspace repositoryName query =>
      obtain ⟨id, u, left, hrun, h⟩ := Program.run_bind_eq_ok.mp (Program.run_mapError_eq_ok.mp h)
      obtain ⟨_, _, h⟩ := Program.run_check_bind_eq_ok.mp h
      obtain ⟨_, _, h⟩ := Program.run_check_bind_eq_ok.mp h
      obtain ⟨response, _, _, _, h⟩ := Program.run_bind_eq_ok.mp h
      cases h
      exact hgit workspace repositoryName id u left hrun
  | gitUploadPack workspace repositoryName =>
      obtain ⟨id, u, left, hrun, h⟩ := Program.run_bind_eq_ok.mp (Program.run_mapError_eq_ok.mp h)
      obtain ⟨_, _, h⟩ := Program.run_check_bind_eq_ok.mp h
      obtain ⟨response, _, _, _, h⟩ := Program.run_bind_eq_ok.mp h
      cases h
      exact hgit workspace repositoryName id u left hrun
  | _ => cases htoken

/-- A restricted token of a reachable server shows only what is inside its
restriction and what its user is a member of, and nothing outside changes an
answer. -/
theorem token_confinement (hx : (system config).Reachable x)
    (htoken : request.endpoint.takesToken = true)
    (hp : (tokenPrincipal config request).run inputs x.pool.state = (.ok p, t, rest))
    (hrestricted : p.Restricted) :
    (∀ reply u left, (program config request).run inputs x.pool.state = (.ok reply, u, left) →
      Confined config p x.db ((openedProject p request).run rest t).1 reply) ∧
    ∀ workspaces projects memberships,
      Database.WellFormed { x.db with workspaces, projects, memberships } →
      x.db.AgreesInside p { x.db with workspaces, projects, memberships } →
      ((program config request).run inputs
          (x.pool.state.withProjects workspaces projects memberships)).1 =
        ((program config request).run inputs x.pool.state).1 := by
  have hwf := wellFormed_of_reachable hx
  obtain ⟨⟨row, hrow, hworkspace, hproject⟩, used, now, hdb⟩ := tokenPrincipal_run htoken hp
  obtain ⟨workspaceId, hanchors⟩ :=
    anchors_of_confines (confines_of_reachable hx) hrestricted hrow hworkspace hproject
  -- Authentication changes the credentials only.
  have hwfAfter : t.db.WellFormed := by
    rw [hdb]
    exact { hwf with credentials := hwf.credentials.update fun _ => rfl }
  have hanchorsAfter : t.db.Anchors p workspaceId := by
    rw [hdb]
    exact ⟨hanchors.workspace, hanchors.project⟩
  constructor
  · intro reply u left hrun
    rw [program_run htoken hp] at hrun
    have hconfined := answer_confined hanchorsAfter hwfAfter htoken hrun
    rw [hdb] at hconfined
    exact hconfined
  · intro workspaces projects memberships hwf' hagrees
    have hauth : Program.Alike (Differs workspaces projects memberships) Eq
        ((tokenPrincipal config request).run inputs x.pool.state)
        ((tokenPrincipal config request).run inputs
          (x.pool.state.withProjects workspaces projects memberships)) :=
      tokenPrincipal_alike (fun _ => rfl) (fun _ => rfl) (fun _ => rfl)
    rw [hp] at hauth
    have hp' : (tokenPrincipal config request).run inputs
        (x.pool.state.withProjects workspaces projects memberships) =
          (.ok p, t.withProjects workspaces projects memberships, rest) :=
      Prod.ext hauth.outcome (Prod.ext hauth.states (funext fun n => (hauth.inputs n).symm))
    rw [program_run htoken hp, program_run htoken hp']
    refine (answer_alike ?_ hanchorsAfter hwfAfter ?_ htoken).outcome
    · rw [hdb]
      exact ⟨rfl, hagrees.workspaces, hagrees.projects, hagrees.memberships⟩
    · rw [hdb]
      exact { hwf' with credentials := hwf.credentials.update fun _ => rfl }

end

/-! ## A token for one workspace -/

/-- The server of the first run, with the digests of two tokens. -/
def tokenConfig : Config where
  hash
    | "c6c_v1_AAAAAAAAAAAAAAAA_AAAAAAAAAAAAAAAAAAAAAAAAAAAAAAAAAAAAAAAAAAA" =>
        "5e7767b9a679288fd35d403e84f1517968a5a7ae5d2e2253f60a7799fbfed829"
    | "c6g_v1_AAAAAAAAAAAAAAAA_AAAAAAAAAAAAAAAAAAAAAAAAAAAAAAAAAAAAAAAAAAA" =>
        "46a648664db19de10f70062423f2a2aa4ea54bf5bb0729a3d27713637d107819"
    | text => sampleConfig.hash text
  publicBaseUrl := sampleConfig.publicBaseUrl
  gitHttp := true

/-- The administrator opens a workspace and makes a token for it. -/
def sampleTokens (type : CredentialType) (scope : CredentialScope) : List Action :=
  sampleClaim ++
    [.request ⟨sampleHeaders, .createWorkspace ⟨"alpha", "Alpha"⟩⟩, .serve 1 (sampleInput []),
      .serve 1 (sampleInput []), .serve 1 (sampleInput ["workspace-1"]),
      .request ⟨sampleHeaders, .createCredential ⟨type, "laptop", none, [scope],
        some ⟨some "workspace-1", none⟩⟩⟩, .serve 2 (sampleInput []), .serve 2 (sampleInput []),
      .serve 2 (sampleInput []), .serve 2 (sampleInput ["credential-1", "AAAAAAAAAAAAAAAA",
        "AAAAAAAAAAAAAAAAAAAAAAAAAAAAAAAAAAAAAAAAAAA"])]

/-- The token asks who it is. -/
def sampleWhoami : Request where
  headers := ⟨["Bearer c6c_v1_AAAAAAAAAAAAAAAA_AAAAAAAAAAAAAAAAAAAAAAAAAAAAAAAAAAAAAAAAAAA"],
    none, none, none, []⟩
  endpoint := .cliWhoami

/-- The token is told its workspace, and a project elsewhere makes no
difference. -/
theorem token_confinement_whoami :
    ∃ x p t rest reply, (system tokenConfig).Reachable x ∧
      (tokenPrincipal tokenConfig sampleWhoami).run (fun _ => sampleInput []) x.pool.state =
        (.ok p, t, rest) ∧
      Confined tokenConfig p x.db ((openedProject p sampleWhoami).run rest t).1 reply ∧
      ((program tokenConfig sampleWhoami).run (fun _ => sampleInput [])
        (x.pool.state.withProjects x.db.workspaces
          [⟨"project-2", "workspace-2", "beta", "Beta", "", "main", "", none, 0, 0⟩]
          x.db.memberships)).1 = .ok reply := by
  have hdata : (stateAfter tokenConfig (sampleTokens .cli .apiRead)).map (fun x =>
      (((tokenPrincipal tokenConfig sampleWhoami).run (fun _ => sampleInput [])
          x.pool.state).1.toOption,
        ((program tokenConfig sampleWhoami).run (fun _ => sampleInput [])
          x.pool.state).1.toOption, x.db.projects)) =
      some (some ⟨"user-1", "Ada", some "workspace-1", none⟩,
        some (.whoami "server-1" "user-1" "Ada" [(⟨"workspace-1", "alpha", "Alpha", 0⟩, "owner")]),
        []) := by
    decide +kernel
  obtain ⟨x, hx, hfacts⟩ := Option.map_eq_some_iff.mp hdata
  obtain ⟨hprincipal, hrest⟩ := Prod.mk.inj hfacts
  obtain ⟨hreply, hprojects⟩ := Prod.mk.inj hrest
  obtain ⟨t, rest, hp⟩ := Program.run_of_toOption hprincipal
  obtain ⟨u, left, hrun⟩ := Program.run_of_toOption hreply
  have hreachable := reachable_of_stateAfter hx
  obtain ⟨hconfined, hsame⟩ := token_confinement hreachable rfl hp (.inl rfl)
  refine ⟨x, _, t, rest, _, hreachable, hp, hconfined _ u left hrun, ?_⟩
  rw [hsame, hrun]
  · refine { wellFormed_of_reachable hreachable with projects := ?_, paths := ?_ }
    · intro a ha b hb _
      rw [List.mem_singleton.mp ha, List.mem_singleton.mp hb]
    · intro a ha b hb _
      rw [List.mem_singleton.mp ha, List.mem_singleton.mp hb]
  · refine ⟨rfl, rfl, ?_, rfl⟩
    show [_].filter _ = x.db.projects.filter _
    rw [hprojects]
    rfl

end Cresix.Server
