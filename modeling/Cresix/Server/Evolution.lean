import Cresix.Server.Handlers

/-!
# How the tables evolve

Rows stay in their tables: they may be revoked, renewed or used up, but their
keys, and the revocations and expiries that were reached, are kept.  `Evolves`
is this relation between an earlier and a later store.  It is reflexive and
transitive, so it is what a handler may rely on between its sections.

`WellFormed` says that the keys of the tables are keys.
-/

namespace Cresix.Server

/-! ## Rows -/

/-- What is kept of a user. -/
structure UserRow.Kept (a b : UserRow) : Prop where
  id : b.id = a.id
  revoked : a.revokedAt.isSome → b.revokedAt.isSome

/-- What is kept of a device. -/
structure DeviceRow.Kept (a b : DeviceRow) : Prop where
  id : b.id = a.id
  revoked : a.revokedAt.isSome → b.revokedAt.isSome

/-- The session is over for good. -/
def SessionRow.Dead (now : Instant) (row : SessionRow) : Prop :=
  row.revokedAt.isSome ∨ row.expiresAt ≤ now

/-- What is kept of a session.  Its expiry moves while it is alive only. -/
structure SessionRow.Kept (now : Instant) (a b : SessionRow) : Prop where
  id : b.id = a.id
  userId : b.userId = a.userId
  deviceId : b.deviceId = a.deviceId
  tokenHash : b.tokenHash = a.tokenHash
  revoked : a.revokedAt.isSome → b.revokedAt.isSome
  expiry : a.Dead now → b.expiresAt = a.expiresAt

/-- What is kept of an invitation.  Once it is redeemed it is never changed. -/
structure InviteRow.Kept (a b : InviteRow) : Prop where
  id : b.id = a.id
  tokenHash : b.tokenHash = a.tokenHash
  role : b.role = a.role
  workspaceId : b.workspaceId = a.workspaceId
  createdBy : b.createdBy = a.createdBy
  expiresAt : b.expiresAt = a.expiresAt
  redeemed : a.redeemedAt.isSome → b = a

/-- What is kept of a project. -/
structure ProjectRow.Kept (a b : ProjectRow) : Prop where
  id : b.id = a.id
  workspaceId : b.workspaceId = a.workspaceId

/-- What is kept of a credential. -/
structure CredentialRow.Kept (a b : CredentialRow) : Prop where
  id : b.id = a.id
  publicId : b.publicId = a.publicId
  userId : b.userId = a.userId
  deviceId : b.deviceId = a.deviceId
  expiresAt : b.expiresAt = a.expiresAt
  revoked : a.revokedAt.isSome → b.revokedAt.isSome

theorem SessionRow.Dead.kept {now now' : Instant} {a b : SessionRow} (hdead : a.Dead now)
    (hkept : SessionRow.Kept now a b) (htime : now ≤ now') : b.Dead now' := by
  rcases hdead with hrevoked | hexpired
  · exact .inl (hkept.revoked hrevoked)
  · refine .inr ?_
    rw [hkept.expiry (.inr hexpired)]
    exact le_trans hexpired htime

theorem SessionRow.Kept.trans {now now' : Instant} {a b c : SessionRow}
    (h : SessionRow.Kept now a b) (h' : SessionRow.Kept now' b c) (htime : now ≤ now') :
    SessionRow.Kept now a c where
  id := h'.id.trans h.id
  userId := h'.userId.trans h.userId
  deviceId := h'.deviceId.trans h.deviceId
  tokenHash := h'.tokenHash.trans h.tokenHash
  revoked := fun hrevoked => h'.revoked (h.revoked hrevoked)
  expiry := fun hdead => (h'.expiry (hdead.kept h htime)).trans (h.expiry hdead)

theorem InviteRow.Kept.trans {a b c : InviteRow} (h : InviteRow.Kept a b)
    (h' : InviteRow.Kept b c) : InviteRow.Kept a c where
  id := h'.id.trans h.id
  tokenHash := h'.tokenHash.trans h.tokenHash
  role := h'.role.trans h.role
  workspaceId := h'.workspaceId.trans h.workspaceId
  createdBy := h'.createdBy.trans h.createdBy
  expiresAt := h'.expiresAt.trans h.expiresAt
  redeemed := fun hredeemed => by
    obtain rfl := h.redeemed hredeemed
    exact h'.redeemed hredeemed

/-! ## Stores -/

/-- The later store has what the earlier one had. -/
structure Evolves (s t : Store) : Prop where
  clock : s.clock ≤ t.clock
  owner : ∀ userId, s.db.serverOwner = some userId → t.db.serverOwner = some userId
  users : Table.Grows UserRow.Kept s.db.users t.db.users
  devices : Table.Grows DeviceRow.Kept s.db.devices t.db.devices
  sessions : Table.Grows (SessionRow.Kept s.clock) s.db.sessions t.db.sessions
  invites : Table.Grows InviteRow.Kept s.db.invites t.db.invites
  memberships : Table.Grows Eq s.db.memberships t.db.memberships
  projects : Table.Grows ProjectRow.Kept s.db.projects t.db.projects
  credentials : Table.Grows CredentialRow.Kept s.db.credentials t.db.credentials

namespace Evolves

variable {s t u : Store}

/-- The tables are the same. -/
theorem of_db_eq (hclock : s.clock ≤ t.clock) (hdb : t.db = s.db) : Evolves s t where
  clock := hclock
  owner := fun _ h => hdb ▸ h
  users := hdb ▸ .refl (fun _ => ⟨rfl, id⟩) _
  devices := hdb ▸ .refl (fun _ => ⟨rfl, id⟩) _
  sessions := hdb ▸ .refl (fun _ => ⟨rfl, rfl, rfl, rfl, id, fun _ => rfl⟩) _
  invites := hdb ▸ .refl (fun _ => ⟨rfl, rfl, rfl, rfl, rfl, rfl, fun _ => rfl⟩) _
  memberships := hdb ▸ .refl (fun _ => rfl) _
  projects := hdb ▸ .refl (fun _ => ⟨rfl, rfl⟩) _
  credentials := hdb ▸ .refl (fun _ => ⟨rfl, rfl, rfl, rfl, rfl, id⟩) _

/-- Only the settings differ. -/
theorem of_settings (hclock : s.clock ≤ t.clock)
    (howner : ∀ userId, s.db.serverOwner = some userId → t.db.serverOwner = some userId)
    (hdb : ∃ settings, t.db = { s.db with settings }) : Evolves s t := by
  obtain ⟨settings, hdb⟩ := hdb
  have same : Evolves s ⟨s.db, t.clock⟩ := .of_db_eq hclock rfl
  have tables : Evolves s ⟨{ s.db with settings }, t.clock⟩ :=
    { same with owner := fun userId h => (congrArg Database.serverOwner hdb) ▸ howner userId h }
  obtain ⟨db, clock⟩ := t
  cases hdb
  exact tables

theorem refl (s : Store) : Evolves s s := of_db_eq (le_refl _) rfl

theorem trans (h : Evolves s t) (h' : Evolves t u) : Evolves s u where
  clock := h.clock.trans h'.clock
  owner := fun userId howner => h'.owner userId (h.owner userId howner)
  users := h.users.trans
    (fun _ _ _ hab hbc => ⟨hbc.id.trans hab.id, fun hr => hbc.revoked (hab.revoked hr)⟩) h'.users
  devices := h.devices.trans
    (fun _ _ _ hab hbc => ⟨hbc.id.trans hab.id, fun hr => hbc.revoked (hab.revoked hr)⟩)
    h'.devices
  sessions := h.sessions.trans (fun _ _ _ hab hbc => hab.trans hbc h.clock) h'.sessions
  invites := h.invites.trans (fun _ _ _ hab hbc => hab.trans hbc) h'.invites
  memberships := h.memberships.trans (fun _ _ _ hab hbc => hab.trans hbc) h'.memberships
  projects := h.projects.trans
    (fun _ _ _ hab hbc => ⟨hbc.id.trans hab.id, hbc.workspaceId.trans hab.workspaceId⟩)
    h'.projects
  credentials := h.credentials.trans
    (fun _ _ _ hab hbc => ⟨hbc.id.trans hab.id, hbc.publicId.trans hab.publicId,
      hbc.userId.trans hab.userId, hbc.deviceId.trans hab.deviceId,
      hbc.expiresAt.trans hab.expiresAt, fun hr => hbc.revoked (hab.revoked hr)⟩)
    h'.credentials

/-- A role is never lost. -/
theorem role (h : Evolves s t) {userId workspaceId role : String}
    (hrole : s.db.role userId workspaceId = some role) :
    t.db.role userId workspaceId = some role := by
  obtain ⟨row, hfind, hrow⟩ := Option.map_eq_some_iff.mp hrole
  obtain ⟨row', hfind', rfl⟩ := h.memberships.find? (fun _ _ hrow => hrow ▸ rfl) hfind
  exact Option.map_eq_some_iff.mpr ⟨row, hfind', hrow⟩

theorem hasRole (h : Evolves s t) {userId workspaceId minimum : String}
    (hrole : s.db.hasRole userId workspaceId minimum = true) :
    t.db.hasRole userId workspaceId minimum = true := by
  obtain ⟨role, hsome, hrank⟩ := (Option.any_eq_true _ _).mp hrole
  exact (Option.any_eq_true _ _).mpr ⟨role, h.role hsome, hrank⟩

/-- A project stays in its workspace. -/
theorem projectWorkspace (h : Evolves s t) {id workspaceId : String}
    (hproject : s.db.projectWorkspace id = some workspaceId) :
    t.db.projectWorkspace id = some workspaceId := by
  obtain ⟨row, hfind, hrow⟩ := Option.map_eq_some_iff.mp hproject
  obtain ⟨row', hfind', hkept⟩ := h.projects.find?
    (fun _ _ hkept => by rw [hkept.id]) hfind
  exact Option.map_eq_some_iff.mpr ⟨row', hfind', hkept.workspaceId.trans hrow⟩

end Evolves

/-! ## Keys -/

/-- The keys of the tables are keys. -/
structure Database.WellFormed (db : Database) : Prop where
  users : Table.Keyed UserRow.id db.users
  devices : Table.Keyed DeviceRow.id db.devices
  sessions : Table.Keyed SessionRow.id db.sessions
  tokens : Table.Keyed SessionRow.tokenHash db.sessions
  invites : Table.Keyed InviteRow.id db.invites
  invitations : Table.Keyed InviteRow.tokenHash db.invites
  workspaces : Table.Keyed WorkspaceRow.id db.workspaces
  slugs : Table.Keyed WorkspaceRow.slug db.workspaces
  memberships : Table.Keyed MembershipRow.key db.memberships
  projects : Table.Keyed ProjectRow.id db.projects
  paths : Table.Keyed ProjectRow.path db.projects
  credentials : Table.Keyed CredentialRow.publicId db.credentials

theorem Database.WellFormed.empty : WellFormed .empty :=
  ⟨.nil _, .nil _, .nil _, .nil _, .nil _, .nil _, .nil _, .nil _, .nil _, .nil _, .nil _, .nil _⟩

end Cresix.Server
