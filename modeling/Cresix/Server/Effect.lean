import Cresix.Server.Evolution

/-!
# What a section does to the tables

`Effect` lists the ways in which a section of a handler changes the database,
each with what the handler made sure of.  A transaction that succeeds has one
of them (`claimTx_effect` and so on); an effect keeps the database well formed
(`Effect.wellFormed`) and lets it evolve (`Effect.evolves`).
-/

namespace Cresix.Server

open Table (Fresh)

/-- The endpoint takes an opaque token. -/
def Endpoint.takesToken : Endpoint → Bool
  | .cliWhoami | .listProjects | .projectRemote _ | .gitInfoRefs _ _ _ | .gitUploadPack _ _ => true
  | _ => false

/-- The endpoint records something for a project. -/
def Endpoint.records : Endpoint → Bool
  | .createPr _ _ | .createDeployment _ _ | .createRun _ _ | .createSchedule _ _
  | .createSecretMetadata _ _ => true
  | _ => false

/-- The memberships an invitation brings to the user who redeems it. -/
def InviteRow.membershipsFor (invite : InviteRow) (userId : String) : List MembershipRow :=
  match invite.workspaceId with
  | some workspaceId => [⟨workspaceId, userId, invite.role⟩]
  | none => []

theorem InviteRow.membershipsFor_of_some {invite : InviteRow} {userId workspaceId : String}
    (h : invite.workspaceId = some workspaceId) :
    invite.membershipsFor userId = [⟨workspaceId, userId, invite.role⟩] := by
  unfold membershipsFor
  rw [h]

theorem InviteRow.membershipsFor_of_none {invite : InviteRow} {userId : String}
    (h : invite.workspaceId = none) : invite.membershipsFor userId = [] := by
  unfold membershipsFor
  rw [h]

/-- A section of a request to the endpoint, made for the user, that starts at
the instant, leads from one database to the other. -/
inductive Effect (config : Config) (now : Instant) (db : Database) :
    Endpoint → String → Database → Prop where
  /-- The first user claims the server. -/
  | claim {input : BootstrapRequest} (user : UserRow) {device : DeviceRow} {session : SessionRow} :
      db.users = [] → db.serverOwner = none → user.revokedAt = none →
      Fresh DeviceRow.id device db.devices →
      Fresh SessionRow.id session db.sessions → Fresh SessionRow.tokenHash session db.sessions →
      Effect config now db (.claim input) user.id
        { db with
          settings := (db.settings.insert "server_owner_id" user.id).erase "bootstrap_hash"
          users := db.users ++ [user]
          devices := db.devices ++ [device]
          sessions := db.sessions ++ [session] }
  /-- An invitation is redeemed: the new user joins its workspace. -/
  | redeem {input : RedeemRequest} (invite : InviteRow) (at' : Instant) (user : UserRow)
      {device : DeviceRow} {session : SessionRow} :
      invite ∈ db.invites → invite.tokenHash = config.hash input.token →
      invite.redeemedAt = none → now < invite.expiresAt →
      Fresh UserRow.id user db.users → Fresh DeviceRow.id device db.devices →
      Fresh SessionRow.id session db.sessions → Fresh SessionRow.tokenHash session db.sessions →
      (∀ row ∈ invite.membershipsFor user.id, Fresh MembershipRow.key row db.memberships) →
      Effect config now db (.redeemInvite input) user.id
        { db with
          users := db.users ++ [user]
          devices := db.devices ++ [device]
          memberships := db.memberships ++ invite.membershipsFor user.id
          invites := Table.update (fun row => row.id = invite.id && row.redeemedAt.isNone)
            (fun row => { row with redeemedAt := some at', redeemedBy := some user.id }) db.invites
          sessions := db.sessions ++ [session] }
  /-- The administrator invites; to a workspace only as its owner. -/
  | createInvite {input : InviteRequest} {invite : InviteRow} :
      db.serverOwner = some invite.createdBy →
      (∀ workspaceId, invite.workspaceId = some workspaceId →
        db.hasRole invite.createdBy workspaceId "owner" = true) →
      invite.redeemedAt = none → Fresh InviteRow.id invite db.invites →
      Fresh InviteRow.tokenHash invite db.invites →
      Effect config now db (.createInvite input) invite.createdBy
        { db with invites := db.invites ++ [invite] }
  /-- Live sessions are renewed. -/
  | renew {user : String} {p : SessionRow → Bool} {expires : Instant} :
      (∀ row, p row = true → ¬ row.Dead now) →
      Effect config now db .session user
        { db with sessions := Table.update p (fun row => { row with expiresAt := expires }) db.sessions }
  | logout {user : String} {p : SessionRow → Bool} {at' : Instant} :
      Effect config now db .logout user
        { db with sessions := Table.update p (fun row => { row with revokedAt := some at' }) db.sessions }
  | revokeSession {id user : String} {p : SessionRow → Bool} {at' : Instant} :
      Effect config now db (.revokeSession id) user
        { db with sessions := Table.update p (fun row => { row with revokedAt := some at' }) db.sessions }
  /-- The administrator revokes another user. -/
  | revokePeer {id user : String} {p : SessionRow → Bool} {at' at'' : Instant} :
      db.serverOwner = some user → user ≠ id →
      Effect config now db (.revokePeer id) user
        { db with
          users := Table.update (fun row => row.id = id && row.revokedAt.isNone)
            (fun row => { row with revokedAt := some at' }) db.users
          sessions := Table.update p (fun row => { row with revokedAt := some at'' }) db.sessions }
  /-- A device is revoked. -/
  | revokeDevice {id user : String} {p : DeviceRow → Bool} {q : SessionRow → Bool}
      {at' at'' : Instant} :
      Effect config now db (.revokeDevice id) user
        { db with
          devices := Table.update p (fun row => { row with revokedAt := some at' }) db.devices
          sessions := Table.update q (fun row => { row with revokedAt := some at'' }) db.sessions }
  | createCredential {input : CreateCredentialRequest} {row : CredentialRow} :
      Fresh CredentialRow.publicId row db.credentials →
      (∀ id, row.projectId = some id →
        ∃ workspaceId, row.workspaceId = some workspaceId ∧
          db.projectWorkspace id = some workspaceId) →
      Effect config now db (.createCredential input) row.userId
        { db with credentials := db.credentials ++ [row] }
  | revokeCredential {id user : String} {p : CredentialRow → Bool} {at' : Instant} :
      Effect config now db (.revokeCredential id) user
        { db with
          credentials := Table.update p (fun row => { row with revokedAt := some at' }) db.credentials }
  /-- A token was used. -/
  | useCredential {endpoint : Endpoint} {user : String} {p : CredentialRow → Bool} {at' : Instant} :
      endpoint.takesToken = true →
      Effect config now db endpoint user
        { db with
          credentials := Table.update p (fun row => { row with lastUsedAt := some at' }) db.credentials }
  /-- The administrator opens a workspace and becomes its owner. -/
  | createWorkspace {input : WorkspaceRequest} {user : String} {workspace : WorkspaceRow} :
      db.serverOwner = some user → Fresh WorkspaceRow.id workspace db.workspaces →
      Fresh WorkspaceRow.slug workspace db.workspaces →
      Fresh MembershipRow.key ⟨workspace.id, user, "owner"⟩ db.memberships →
      Effect config now db (.createWorkspace input) user
        { db with
          workspaces := db.workspaces ++ [workspace]
          memberships := db.memberships ++ [⟨workspace.id, user, "owner"⟩] }
  | updateWorkspace {id user : String} {input : WorkspaceRequest} :
      (∀ row ∈ db.workspaces, row.slug = input.slug → row.id = id) →
      Effect config now db (.updateWorkspace id input) user
        { db with
          workspaces := Table.update (·.id = id)
            (fun row => { row with slug := input.slug, name := input.name }) db.workspaces }
  | createProject {input : ProjectRequest} {user : String} {project : ProjectRow} :
      Fresh ProjectRow.id project db.projects → Fresh ProjectRow.path project db.projects →
      Effect config now db (.createProject input) user
        { db with projects := db.projects ++ [project] }
  | updateProject {id user : String} {input : ProjectRequest} {f : ProjectRow → ProjectRow} :
      (∀ row, ProjectRow.Kept row (f row)) →
      (∀ row ∈ db.projects, row.id = id → ∀ other ∈ db.projects, other.id ≠ id →
        (f row).path ≠ other.path) →
      Effect config now db (.updateProject id input) user
        { db with projects := Table.update (·.id = id) f db.projects }
  /-- Something is recorded for a project. -/
  | record {endpoint : Endpoint} {user : String} {pullRequests : List PullRequestRow}
      {deployments : List DeploymentRow} {runs : List RunRow} {schedules : List ScheduleRow}
      {secretMetadata : List SecretMetadataRow} :
      endpoint.records = true →
      Effect config now db endpoint user
        { db with
          pullRequests := pullRequests
          deployments := deployments
          runs := runs
          schedules := schedules
          secretMetadata := secretMetadata }

namespace Effect

variable {config : Config} {now clock : Instant} {db db' : Database} {endpoint : Endpoint}
  {user : String}

/-! ## Every effect -/

theorem wellFormed (h : Effect config now db endpoint user db') (hwf : db.WellFormed) :
    db'.WellFormed := by
  cases h with
  | claim _ husers _ _ hdevice hsession htoken =>
      exact { hwf with
        users := by
          rw [husers]
          exact (Table.Keyed.nil _).append fun _ hold => absurd hold List.not_mem_nil
        devices := hwf.devices.append hdevice
        sessions := hwf.sessions.append hsession
        tokens := hwf.tokens.append htoken }
  | redeem invite at' user _ _ _ _ huser hdevice hsession htoken hmember =>
      refine { hwf with
        users := hwf.users.append huser
        devices := hwf.devices.append hdevice
        sessions := hwf.sessions.append hsession
        tokens := hwf.tokens.append htoken
        invites := hwf.invites.update fun _ => rfl
        invitations := hwf.invitations.update fun _ => rfl
        memberships := ?_ }
      show Table.Keyed _ (db.memberships ++ invite.membershipsFor user.id)
      cases hworkspace : invite.workspaceId with
      | some workspaceId =>
          rw [InviteRow.membershipsFor_of_some hworkspace] at *
          exact hwf.memberships.append (hmember _ List.mem_cons_self)
      | none =>
          rw [InviteRow.membershipsFor_of_none hworkspace, List.append_nil]
          exact hwf.memberships
  | createInvite _ _ _ hinvite htoken =>
      exact { hwf with
        invites := hwf.invites.append hinvite
        invitations := hwf.invitations.append htoken }
  | renew _ | logout | revokeSession =>
      exact { hwf with
        sessions := hwf.sessions.update fun _ => rfl
        tokens := hwf.tokens.update fun _ => rfl }
  | revokePeer _ _ =>
      exact { hwf with
        users := hwf.users.update fun _ => rfl
        sessions := hwf.sessions.update fun _ => rfl
        tokens := hwf.tokens.update fun _ => rfl }
  | revokeDevice =>
      exact { hwf with
        devices := hwf.devices.update fun _ => rfl
        sessions := hwf.sessions.update fun _ => rfl
        tokens := hwf.tokens.update fun _ => rfl }
  | createCredential hrow _ => exact { hwf with credentials := hwf.credentials.append hrow }
  | revokeCredential | useCredential _ =>
      exact { hwf with credentials := hwf.credentials.update fun _ => rfl }
  | createWorkspace _ hworkspace hslug hmember =>
      exact { hwf with
        workspaces := hwf.workspaces.append hworkspace
        slugs := hwf.slugs.append hslug
        memberships := hwf.memberships.append hmember }
  | updateWorkspace hslug =>
      refine { hwf with
        workspaces := hwf.workspaces.update fun _ => rfl
        slugs := hwf.slugs.rename ?_ ?_ }
      · intro a ha b hb hida hidb
        exact hwf.workspaces a ha b hb
          ((of_decide_eq_true hida).trans (of_decide_eq_true hidb).symm)
      · intro a _ _ b hb hidb hsame
        exact of_decide_eq_false hidb (hslug b hb hsame.symm)
  | createProject hproject hpath =>
      exact { hwf with
        projects := hwf.projects.append hproject
        paths := hwf.paths.append hpath }
  | updateProject hf hpath =>
      refine { hwf with
        projects := hwf.projects.update fun row => (hf row).id
        paths := hwf.paths.rename ?_ ?_ }
      · intro a ha b hb hida hidb
        exact hwf.projects a ha b hb
          ((of_decide_eq_true hida).trans (of_decide_eq_true hidb).symm)
      · intro a ha hida b hb hidb
        exact hpath a ha (of_decide_eq_true hida) b hb (of_decide_eq_false hidb)
  | record _ => exact { hwf with }

theorem evolves (h : Effect config now db endpoint user db') (hclock : now ≤ clock) :
    Evolves ⟨db, now⟩ ⟨db', clock⟩ := by
  have same : Evolves ⟨db, now⟩ ⟨db, clock⟩ := .of_db_eq hclock rfl
  cases h with
  | claim _ _ howner _ _ _ _ =>
      exact { same with
        owner := fun userId hsome => by
          have hnone : some userId = none := hsome.symm.trans howner
          cases hnone
        users := .append (fun _ => ⟨rfl, id⟩) _ _
        devices := .append (fun _ => ⟨rfl, id⟩) _ _
        sessions := .append (fun _ => ⟨rfl, rfl, rfl, rfl, id, fun _ => rfl⟩) _ _ }
  | redeem _ _ _ _ _ _ _ _ _ _ _ _ =>
      refine { same with
        users := .append (fun _ => ⟨rfl, id⟩) _ _
        devices := .append (fun _ => ⟨rfl, id⟩) _ _
        sessions := .append (fun _ => ⟨rfl, rfl, rfl, rfl, id, fun _ => rfl⟩) _ _
        memberships := .append (fun _ => rfl) _ _
        invites := .update (fun _ => ⟨rfl, rfl, rfl, rfl, rfl, rfl, fun _ => rfl⟩) ?_ _ }
      intro row hrow
      refine ⟨rfl, rfl, rfl, rfl, rfl, rfl, fun hredeemed => ?_⟩
      have hnone := (Bool.and_eq_true_iff.mp hrow).2
      rw [Option.isNone_iff_eq_none.mp hnone] at hredeemed
      cases hredeemed
  | createInvite _ _ _ _ _ =>
      exact { same with
        invites := .append (fun _ => ⟨rfl, rfl, rfl, rfl, rfl, rfl, fun _ => rfl⟩) _ _ }
  | renew hlive =>
      exact { same with
        sessions := .update (fun _ => ⟨rfl, rfl, rfl, rfl, id, fun _ => rfl⟩)
          (fun row hrow => ⟨rfl, rfl, rfl, rfl, id, fun hdead => absurd hdead (hlive row hrow)⟩) _ }
  | logout | revokeSession =>
      exact { same with
        sessions := .update (fun _ => ⟨rfl, rfl, rfl, rfl, id, fun _ => rfl⟩)
          (fun _ _ => ⟨rfl, rfl, rfl, rfl, fun _ => rfl, fun _ => rfl⟩) _ }
  | revokePeer _ _ =>
      exact { same with
        users := .update (fun _ => ⟨rfl, id⟩) (fun _ _ => ⟨rfl, fun _ => rfl⟩) _
        sessions := .update (fun _ => ⟨rfl, rfl, rfl, rfl, id, fun _ => rfl⟩)
          (fun _ _ => ⟨rfl, rfl, rfl, rfl, fun _ => rfl, fun _ => rfl⟩) _ }
  | revokeDevice =>
      exact { same with
        devices := .update (fun _ => ⟨rfl, id⟩) (fun _ _ => ⟨rfl, fun _ => rfl⟩) _
        sessions := .update (fun _ => ⟨rfl, rfl, rfl, rfl, id, fun _ => rfl⟩)
          (fun _ _ => ⟨rfl, rfl, rfl, rfl, fun _ => rfl, fun _ => rfl⟩) _ }
  | createCredential _ _ =>
      exact { same with credentials := .append (fun _ => ⟨rfl, rfl, rfl, rfl, rfl, id⟩) _ _ }
  | revokeCredential =>
      exact { same with
        credentials := .update (fun _ => ⟨rfl, rfl, rfl, rfl, rfl, id⟩)
          (fun _ _ => ⟨rfl, rfl, rfl, rfl, rfl, fun _ => rfl⟩) _ }
  | useCredential _ =>
      exact { same with
        credentials := .update (fun _ => ⟨rfl, rfl, rfl, rfl, rfl, id⟩)
          (fun _ _ => ⟨rfl, rfl, rfl, rfl, rfl, id⟩) _ }
  | createWorkspace _ _ _ _ => exact { same with memberships := .append (fun _ => rfl) _ _ }
  | createProject _ _ => exact { same with projects := .append (fun _ => ⟨rfl, rfl⟩) _ _ }
  | updateProject hf _ =>
      exact { same with projects := .update (fun _ => ⟨rfl, rfl⟩) (fun row _ => hf row) _ }
  | updateWorkspace _ | record _ => exact { same with }

end Effect

/-! ## Transactions -/

section

variable {config : Config} {i : Input} {r : Readings} {now created expires : Instant}
  {db db' : Database} {reply : Reply} {p : Principal} {id : String}

theorem issueSession_eq_ok {random : Nat → String} {userId deviceId : String}
    {issued : String × String × Instant}
    (h : issueSession config random now userId deviceId db = .ok (issued, db')) :
    ∃ session : SessionRow, Fresh SessionRow.id session db.sessions ∧
      Fresh SessionRow.tokenHash session db.sessions ∧
      db' = { db with sessions := db.sessions ++ [session] } := by
  obtain ⟨db₁, hinsert, h⟩ := bind_eq_ok.mp h
  cases h
  exact ⟨_, Database.insertSession_eq_ok (orInternal_eq_ok.mp hinsert)⟩

theorem claimTx_effect {input : BootstrapRequest}
    (h : claimTx config input i r db = .ok (reply, db')) :
    ∃ user, Effect config now db (.claim input) user db' := by
  obtain ⟨_, hempty, h⟩ := bind_eq_ok.mp h
  obtain ⟨expected, _, h⟩ := bind_eq_ok.mp h
  obtain ⟨_, _, h⟩ := bind_eq_ok.mp h
  obtain ⟨db₁, huser, h⟩ := bind_eq_ok.mp h
  obtain ⟨db₂, howner, h⟩ := bind_eq_ok.mp h
  obtain ⟨db₃, hdevice, h⟩ := bind_eq_ok.mp h
  obtain ⟨⟨issued, db₄⟩, hissue, h⟩ := bind_eq_ok.mp h
  cases h
  obtain ⟨_, rfl⟩ := Database.insertUser_eq_ok (orInternal_eq_ok.mp huser)
  obtain ⟨hnone, rfl⟩ := Database.insertSetting_eq_ok (orInternal_eq_ok.mp howner)
  obtain ⟨hfresh, rfl⟩ := Database.insertDevice_eq_ok (orConflict_eq_ok.mp hdevice)
  obtain ⟨session, hsession, htoken, rfl⟩ := issueSession_eq_ok hissue
  exact ⟨_, .claim ⟨i.random 0, input.displayName, none⟩
    (List.isEmpty_iff.mp (require_eq_ok.mp hempty)) (Finmap.lookup_eq_none.mpr hnone) rfl hfresh
    hsession htoken⟩

theorem redeemInviteTx_effect {input : RedeemRequest} (hstart : now ≤ r.first)
    (h : redeemInviteTx config input i r db = .ok (reply, db')) :
    ∃ user, Effect config now db (.redeemInvite input) user db' := by
  obtain ⟨invite, hinvite, h⟩ := bind_eq_ok.mp h
  obtain ⟨_, hunredeemed, h⟩ := bind_eq_ok.mp h
  obtain ⟨_, hexpiry, h⟩ := bind_eq_ok.mp h
  obtain ⟨db₁, huser, h⟩ := bind_eq_ok.mp h
  obtain ⟨db₂, hdevice, h⟩ := bind_eq_ok.mp h
  obtain ⟨db₃, hmember, h⟩ := bind_eq_ok.mp h
  obtain ⟨_, _, h⟩ := bind_eq_ok.mp h
  obtain ⟨⟨issued, db₄⟩, hissue, h⟩ := bind_eq_ok.mp h
  cases h
  obtain ⟨hfresh, rfl⟩ := Database.insertUser_eq_ok (orInternal_eq_ok.mp huser)
  obtain ⟨hdeviceFresh, rfl⟩ := Database.insertDevice_eq_ok (orConflict_eq_ok.mp hdevice)
  obtain ⟨session, hsession, htoken, rfl⟩ := issueSession_eq_ok hissue
  have hfind := orElse_eq_ok.mp hinvite
  have hmem := List.mem_of_find?_eq_some hfind
  have hhash : invite.tokenHash = config.hash input.token := by
    simpa using List.find?_some hfind
  have hnone := Option.isNone_iff_eq_none.mp (require_eq_ok.mp hunredeemed)
  have hlive := lt_of_le_of_lt hstart (of_decide_eq_true (require_eq_ok.mp hexpiry))
  have hmember' : (∀ row ∈ invite.membershipsFor (i.random 0),
        Fresh MembershipRow.key row db.memberships) ∧
      ∃ memberships, memberships = db.memberships ++ invite.membershipsFor (i.random 0) ∧
        db₃ = { db with
          users := db.users ++ [⟨i.random 0, input.displayName, none⟩]
          devices := db.devices ++ [⟨i.random 1, i.random 0, input.deviceLabel, input.publicKey,
            r.second, none⟩]
          memberships } := by
    split at hmember
    next workspaceId hworkspace =>
      obtain ⟨hnew, rfl⟩ := Database.insertMembership_eq_ok (orInternal_eq_ok.mp hmember)
      rw [InviteRow.membershipsFor_of_some hworkspace]
      refine ⟨fun row hrow => ?_, _, rfl, rfl⟩
      rw [List.mem_singleton.mp hrow]
      exact hnew
    next hworkspace =>
      cases hmember
      rw [InviteRow.membershipsFor_of_none hworkspace]
      exact ⟨fun row hrow => absurd hrow List.not_mem_nil, _, (List.append_nil _).symm, rfl⟩
  obtain ⟨hnew, memberships, rfl, rfl⟩ := hmember'
  exact ⟨_, .redeem invite r.second ⟨i.random 0, input.displayName, none⟩ hmem hhash hnone hlive
    hfresh hdeviceFresh hsession htoken hnew⟩

theorem sessionTx_effect {token csrf : String} (hstart : now ≤ r.first)
    (h : sessionTx config token csrf p i r db = .ok (reply, db')) :
    Effect config now db .session p.userId db' := by
  obtain ⟨_, _, h⟩ := bind_eq_ok.mp h
  cases h
  refine .renew fun row hrow hdead => ?_
  simp only [Database.renewable, Bool.and_eq_true, decide_eq_true_eq] at hrow
  obtain ⟨⟨⟨⟨_, hnone⟩, hlive⟩, _⟩, _⟩ := hrow
  rcases hdead with hrevoked | hexpired
  · rw [Option.isNone_iff_eq_none.mp hnone] at hrevoked
    cases hrevoked
  · exact absurd (hexpired.trans hstart) (not_le.mpr hlive)

theorem logoutTx_effect (h : logoutTx p i r db = .ok (reply, db')) :
    Effect config now db .logout p.userId db' := by
  cases h
  exact .logout

theorem createInviteTx_effect {input : InviteRequest} {lifetime : Int}
    (howner : db.serverOwner = some p.userId)
    (h : createInviteTx config input lifetime p i r db = .ok (reply, db')) :
    Effect config now db (.createInvite input) p.userId db' := by
  obtain ⟨_, hrole, h⟩ := bind_eq_ok.mp h
  obtain ⟨db₁, hinsert, h⟩ := bind_eq_ok.mp h
  cases h
  obtain ⟨hfresh, htoken, rfl⟩ := Database.insertInvite_eq_ok (orInternal_eq_ok.mp hinsert)
  refine .createInvite howner ?_ rfl hfresh htoken
  intro workspaceId hworkspace
  have hworkspace' : input.workspaceId = some workspaceId := hworkspace
  rw [hworkspace'] at hrole
  exact require_eq_ok.mp hrole

theorem revokePeerTx_effect (howner : db.serverOwner = some p.userId) (hother : p.userId ≠ id)
    (h : revokePeerTx id i r db = .ok (reply, db')) :
    Effect config now db (.revokePeer id) p.userId db' := by
  obtain ⟨_, _, h⟩ := bind_eq_ok.mp h
  cases h
  exact .revokePeer howner hother

theorem revokeDeviceTx_effect (h : revokeDeviceTx id p i r db = .ok (reply, db')) :
    Effect config now db (.revokeDevice id) p.userId db' := by
  obtain ⟨_, _, h⟩ := bind_eq_ok.mp h
  cases h
  exact .revokeDevice

theorem revokeSessionTx_effect (h : revokeSessionTx id p i r db = .ok (reply, db')) :
    Effect config now db (.revokeSession id) p.userId db' := by
  obtain ⟨_, _, h⟩ := bind_eq_ok.mp h
  cases h
  exact .revokeSession

theorem createCredentialTx_effect {input : CreateCredentialRequest}
    {restriction : Option String × Option String}
    (hrestriction : ∀ id, restriction.2 = some id → ∃ workspaceId,
      restriction.1 = some workspaceId ∧ db.projectWorkspace id = some workspaceId)
    (h : createCredentialTx config input p created expires restriction i r db = .ok (reply, db')) :
    Effect config now db (.createCredential input) p.userId db' := by
  obtain ⟨db₁, hinsert, h⟩ := bind_eq_ok.mp h
  cases h
  obtain ⟨hfresh, rfl⟩ := Database.insertCredential_eq_ok (orInternal_eq_ok.mp hinsert)
  exact .createCredential hfresh hrestriction

theorem revokeCredentialTx_effect (h : revokeCredentialTx id p i r db = .ok (reply, db')) :
    Effect config now db (.revokeCredential id) p.userId db' := by
  obtain ⟨_, _, h⟩ := bind_eq_ok.mp h
  cases h
  exact .revokeCredential

theorem createWorkspaceTx_effect {input : WorkspaceRequest}
    (howner : db.serverOwner = some p.userId)
    (h : createWorkspaceTx input p i r db = .ok (reply, db')) :
    Effect config now db (.createWorkspace input) p.userId db' := by
  obtain ⟨db₁, hworkspace, h⟩ := bind_eq_ok.mp h
  obtain ⟨db₂, hmember, h⟩ := bind_eq_ok.mp h
  cases h
  obtain ⟨hfresh, hslug, rfl⟩ := Database.insertWorkspace_eq_ok (orConflict_eq_ok.mp hworkspace)
  obtain ⟨hnew, rfl⟩ := Database.insertMembership_eq_ok (orInternal_eq_ok.mp hmember)
  exact .createWorkspace howner hfresh hslug hnew

theorem updateWorkspaceTx_effect {input : WorkspaceRequest} {user : String}
    (h : updateWorkspaceTx id input i r db = .ok (reply, db')) :
    Effect config now db (.updateWorkspace id input) user db' := by
  obtain ⟨_, hslug, h⟩ := bind_eq_ok.mp h
  obtain ⟨_, hthere, h⟩ := bind_eq_ok.mp h
  cases h
  refine .updateWorkspace fun row hrow hsame => ?_
  have hno := require_eq_ok.mp hslug
  rw [require_eq_ok.mp hthere, Bool.true_and, Bool.not_eq_true'] at hno
  by_contra hother
  have hclash := List.any_eq_false.mp hno row hrow
  rw [decide_eq_true hsame, decide_eq_true hother] at hclash
  exact hclash rfl

theorem createProjectTx_effect {input : ProjectRequest} {headSha callerRole user : String}
    (h : createProjectTx input id headSha callerRole created i r db = .ok (reply, db')) :
    Effect config now db (.createProject input) user db' := by
  obtain ⟨db₁, hinsert, h⟩ := bind_eq_ok.mp h
  cases h
  obtain ⟨hfresh, hpath, rfl⟩ := Database.insertProject_eq_ok (orConflict_eq_ok.mp hinsert)
  exact .createProject hfresh hpath

theorem updateProjectTx_effect {input : ProjectRequest} {u : Unit} {user : String}
    (h : updateProjectTx id input i r db = .ok (u, db')) :
    Effect config now db (.updateProject id input) user db' := by
  obtain ⟨_, hpath, h⟩ := bind_eq_ok.mp h
  cases h
  refine .updateProject (fun _ => ⟨rfl, rfl⟩) fun row hrow hid other hother hne hsame => ?_
  obtain ⟨hworkspace, hslug⟩ := Prod.mk.inj hsame
  have hno := List.any_eq_false.mp ((Bool.not_eq_true' _).mp (require_eq_ok.mp hpath)) row hrow
  rw [decide_eq_true hid, Bool.true_and] at hno
  refine hno (List.any_eq_true.mpr ⟨other, hother, ?_⟩)
  rw [decide_eq_true hworkspace.symm, decide_eq_true hslug.symm, decide_eq_true hne]
  rfl

theorem createPrTx_effect {input : PullRequestInput}
    (h : createPrTx id input p i r db = .ok (reply, db')) :
    Effect config now db (.createPr id input) p.userId db' := by
  obtain ⟨db₁, hinsert, h⟩ := bind_eq_ok.mp h
  cases h
  obtain ⟨rows, _, heq⟩ := bind_eq_ok.mp (orInternal_eq_ok.mp hinsert)
  cases heq
  exact .record rfl

theorem createDeploymentTx_effect {input : DeploymentInput}
    (h : createDeploymentTx id input p created i r db = .ok (reply, db')) :
    Effect config now db (.createDeployment id input) p.userId db' := by
  obtain ⟨db₁, hinsert, h⟩ := bind_eq_ok.mp h
  cases h
  obtain ⟨rows, _, heq⟩ := bind_eq_ok.mp (orInternal_eq_ok.mp hinsert)
  cases heq
  exact .record rfl

theorem createRunTx_effect {input : RunInput} {revision : String}
    (h : createRunTx id input revision p created i r db = .ok (reply, db')) :
    Effect config now db (.createRun id input) p.userId db' := by
  obtain ⟨db₁, hinsert, h⟩ := bind_eq_ok.mp h
  cases h
  obtain ⟨rows, _, heq⟩ := bind_eq_ok.mp (orInternal_eq_ok.mp hinsert)
  cases heq
  exact .record rfl

theorem createScheduleTx_effect {uid : String} {input : ScheduleInput} {next : Instant}
    (h : createScheduleTx id uid input next created p i r db = .ok (reply, db')) :
    Effect config now db (.createSchedule id input) p.userId db' := by
  obtain ⟨db₁, hinsert, h⟩ := bind_eq_ok.mp h
  cases h
  obtain ⟨rows, _, heq⟩ := bind_eq_ok.mp (orInternal_eq_ok.mp hinsert)
  cases heq
  exact .record rfl

theorem createSecretMetadataTx_effect {input : SecretInput}
    (h : createSecretMetadataTx id input p created i r db = .ok (reply, db')) :
    Effect config now db (.createSecretMetadata id input) p.userId db' := by
  obtain ⟨db₁, hinsert, h⟩ := bind_eq_ok.mp h
  cases h
  obtain ⟨rows, _, heq⟩ := bind_eq_ok.mp (orConflict_eq_ok.mp hinsert)
  cases heq
  exact .record rfl

end

end Cresix.Server
