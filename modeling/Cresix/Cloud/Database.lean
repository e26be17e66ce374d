import Cresix.Cloud.Proxy
import Cresix.CloudCore.Token
import Cresix.Library.Table

/-!
# Installations

The tables of the cloud database that say which installations there are, who
owns them and which connector may speak for them, with the statements that
read and change them.  A revoked row keeps its time of revocation, so
`Database.Revoked` is kept by every statement.
-/

namespace Cresix.Cloud

open CloudCore (ParsedToken TokenClass)
open Rust (Uuid)

structure Installation where
  id : Uuid
  ownerAccountId : Uuid
  localServerId : Uuid
  routeId : String
  connectedAt : Option Nat
  revokedAt : Option Nat
deriving DecidableEq, Repr

structure ConnectorCredential where
  installationId : Uuid
  publicId : List UInt8
  secretHash : String
  revokedAt : Option Nat
deriving DecidableEq, Repr

structure Database where
  installations : List Installation
  connectorCredentials : List ConnectorCredential
deriving DecidableEq, Repr

/-- `ApiError::not_found`. -/
def ApiError.notFound (kind : String) : ApiError := ⟨404, "not_found", kind ++ " not found"⟩

/-- `ApiError::forbidden`. -/
def ApiError.forbidden (message : String) : ApiError := ⟨403, "forbidden", message⟩

namespace Database

/-! ## Statements -/

/-- The unique columns of the installations. -/
def clash (a b : Installation) : Bool :=
  a.id = b.id || a.routeId = b.routeId
    || (a.ownerAccountId = b.ownerAccountId && a.localServerId = b.localServerId)

/-- The transaction of `register_installation`. -/
def registerInstallation (db : Database) (id account localServerId : Uuid) (routeId : String)
    (publicId : List UInt8) (secretHash : String) : Option Database :=
  match Table.insert? clash ⟨id, account, localServerId, routeId, none, none⟩ db.installations,
    Table.insert? (·.publicId = ·.publicId) ⟨id, publicId, secretHash, none⟩
      db.connectorCredentials with
  | some installations, some connectorCredentials => some ⟨installations, connectorCredentials⟩
  | _, _ => none

/-- `installation_by_id`. -/
def installationById (db : Database) (id : Uuid) : Option Installation :=
  db.installations.find? (·.id = id)

/-- `require_installation_owner`. -/
def requireInstallationOwner (db : Database) (id account : Uuid) : Except ApiError Unit :=
  match db.installationById id with
  | none => .error (.notFound "installation")
  | some row =>
      if row.ownerAccountId = account then .ok ()
      else .error (.forbidden "installation owner required")

/-- The updates of `revoke_installation`. -/
def revoke (db : Database) (id : Uuid) (now : Nat) : Database where
  installations :=
    Table.update (·.id = id) (fun row => { row with revokedAt := some now }) db.installations
  connectorCredentials :=
    Table.update (fun row => row.installationId = id && row.revokedAt.isNone)
      (fun row => { row with revokedAt := some now }) db.connectorCredentials

/-- The query of `register_relay_if_active`. -/
def activeRoute (db : Database) (id : Uuid) : Option String :=
  (db.installations.find? fun row => row.id = id && row.revokedAt.isNone &&
    db.connectorCredentials.any fun credential =>
      credential.installationId = row.id && credential.revokedAt.isNone).map (·.routeId)

/-- `UPDATE installations SET connected_at`. -/
def setConnected (db : Database) (id : Uuid) (at' : Option Nat) : Database :=
  { db with
    installations := Table.update (fun row => row.id = id && row.revokedAt.isNone)
      (fun row => { row with connectedAt := at' }) db.installations }

/-- `connector`, with the hash of the secrets. -/
def connector (db : Database) (hash : List UInt8 → String) (token : String) : Option Uuid :=
  match ParsedToken.parse (Rust.bytes token) with
  | some (.ok parsed) =>
      if parsed.tokenClass ≠ .connector then none
      else
        match db.connectorCredentials.find? fun credential =>
            credential.publicId = parsed.publicId && credential.revokedAt.isNone &&
              db.installations.any fun row =>
                row.id = credential.installationId && row.revokedAt.isNone with
        | some credential =>
            if credential.secretHash = hash parsed.secret then some credential.installationId
            else none
        | none => none
  | _ => none

/-! ## Revoked installations -/

/-- Every row of the installation is revoked. -/
def Revoked (db : Database) (id : Uuid) : Prop :=
  ∀ row ∈ db.installations, row.id = id → row.revokedAt ≠ none

/-- The primary key and the unique route of the installations. -/
structure Keyed (db : Database) : Prop where
  id : Table.Keyed Installation.id db.installations
  route : Table.Keyed Installation.routeId db.installations

/-- The installation owns the route. -/
def Routes (db : Database) (id : Uuid) (route : String) : Prop :=
  ∃ row ∈ db.installations, row.id = id ∧ row.routeId = route

section

variable {db : Database} {id id' : Uuid} {route : String}

theorem activeRoute_eq_some (h : db.activeRoute id = some route) :
    db.Routes id route ∧ ¬ db.Revoked id := by
  obtain ⟨row, hfind, rfl⟩ := Option.map_eq_some_iff.mp h
  have hrow := List.mem_of_find?_eq_some hfind
  have hactive := List.find?_some hfind
  simp only [Bool.and_eq_true, decide_eq_true_eq, Option.isNone_iff_eq_none] at hactive
  refine ⟨⟨row, hrow, hactive.1.1, rfl⟩, ?_⟩
  intro hrevoked
  exact hrevoked row hrow hactive.1.1 hactive.1.2

theorem installationById_eq_some {row : Installation} (h : db.installationById id = some row) :
    row ∈ db.installations ∧ row.id = id :=
  ⟨List.mem_of_find?_eq_some h, by simpa using List.find?_some h⟩

/-- An installation has one route and a route one installation. -/
theorem Keyed.routes_iff (h : db.Keyed) {route' : String} (ha : db.Routes id route)
    (hb : db.Routes id' route') : route = route' ↔ id = id' := by
  obtain ⟨a, hmemA, rfl, rfl⟩ := ha
  obtain ⟨b, hmemB, rfl, rfl⟩ := hb
  constructor
  · intro hroute
    rw [h.route a hmemA b hmemB hroute]
  · intro hid
    rw [h.id a hmemA b hmemB hid]

end

/-! ## What a statement keeps -/

/-- Old rows keep their names and their revocations, and the keys stay unique. -/
structure Keeps (old new : Database) : Prop where
  routes : ∀ {id route}, old.Routes id route → new.Routes id route
  revoked : ∀ {id}, (∃ route, old.Routes id route) → old.Revoked id → new.Revoked id
  keyed : old.Keyed → new.Keyed

theorem Keeps.refl (db : Database) : Keeps db db := ⟨id, fun _ => id, id⟩

/-- An update that keeps the names and the revocations. -/
theorem keeps_update {db : Database} {p : Installation → Bool} {f : Installation → Installation}
    {connectorCredentials : List ConnectorCredential}
    (hid : ∀ row, (f row).id = row.id ∧ (f row).routeId = row.routeId)
    (hrevoked : ∀ row, row.revokedAt ≠ none → (f row).revokedAt ≠ none) :
    Keeps db ⟨Table.update p f db.installations, connectorCredentials⟩ := by
  have hfields : ∀ row : Installation, (if p row then f row else row).id = row.id ∧
      (if p row then f row else row).routeId = row.routeId := by
    intro row
    split
    next => exact hid row
    next => exact ⟨rfl, rfl⟩
  refine ⟨?_, ?_, ?_⟩
  · rintro id route ⟨row, hrow, rfl, rfl⟩
    exact ⟨_, List.mem_map_of_mem hrow, (hfields row).1, (hfields row).2⟩
  · rintro id - h row hrow hrowId
    obtain ⟨old, hold, rfl⟩ := Table.mem_update hrow
    have hkept := h old hold ((hfields old).1.symm.trans hrowId)
    split
    next => exact hrevoked old hkept
    next => exact hkept
  · intro h
    exact ⟨h.id.update fun row => (hid row).1, h.route.update fun row => (hid row).2⟩

theorem keeps_setConnected (db : Database) (id : Uuid) (at' : Option Nat) :
    Keeps db (db.setConnected id at') :=
  keeps_update (fun _ => ⟨rfl, rfl⟩) fun _ h => h

theorem keeps_revoke (db : Database) (id : Uuid) (now : Nat) : Keeps db (db.revoke id now) :=
  keeps_update (fun _ => ⟨rfl, rfl⟩) fun _ _ => Option.some_ne_none now

theorem revoked_revoke (db : Database) (id : Uuid) (now : Nat) : (db.revoke id now).Revoked id := by
  intro row hrow hid
  obtain ⟨old, hold, rfl⟩ := Table.mem_update hrow
  split
  next => exact Option.some_ne_none now
  next hne =>
    rw [if_neg hne] at hid
    simp [hid] at hne

theorem Revoked.revoke {db : Database} {id id' : Uuid} {now : Nat} (h : db.Revoked id) :
    (db.revoke id' now).Revoked id := by
  intro row hrow hid
  obtain ⟨old, hold, rfl⟩ := Table.mem_update hrow
  split
  next => exact Option.some_ne_none now
  next hne =>
    rw [if_neg hne] at hid
    exact h old hold hid

theorem keeps_registerInstallation {db db' : Database} {id account localServerId : Uuid}
    {routeId secretHash : String} {publicId : List UInt8}
    (h : db.registerInstallation id account localServerId routeId publicId secretHash =
      some db') : Keeps db db' := by
  unfold registerInstallation at h
  split at h
  next installations credentials hinsert _ =>
    cases h
    obtain ⟨hfresh, rfl⟩ := Table.insert?_eq_some hinsert
    have hnew : ∀ row ∈ db.installations, row.id ≠ id ∧ row.routeId ≠ routeId := by
      intro row hrow
      have hclash := hfresh row hrow
      simp only [clash, Bool.or_eq_false_iff, decide_eq_false_iff_not] at hclash
      exact ⟨fun he => hclash.1.1 he.symm, fun he => hclash.1.2 he.symm⟩
    refine ⟨?_, ?_, ?_⟩
    · rintro id' route ⟨row, hrow, hid, hroute⟩
      exact ⟨row, List.mem_append_left _ hrow, hid, hroute⟩
    · rintro id' ⟨route, old, hold, hid, -⟩ hrevoked row hrow hrowId
      rcases List.mem_append.mp hrow with hrow | hrow
      · exact hrevoked row hrow hrowId
      · rw [List.mem_singleton.mp hrow] at hrowId
        exact absurd (hid.trans hrowId.symm) (hnew old hold).1
    · intro hkeyed
      refine ⟨hkeyed.id.append fun row hrow => ?_, hkeyed.route.append fun row hrow => ?_⟩
      · exact (hnew row hrow).1.symm
      · exact (hnew row hrow).2.symm
  next => cases h

end Database

end Cresix.Cloud
