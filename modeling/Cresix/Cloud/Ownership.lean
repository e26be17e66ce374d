import Cresix.Cloud.Bootstrap
import Cresix.Cloud.Publication
import Cresix.Cloud.Registry
import Cresix.Library.Checks

/-!
# Who owns what in the cloud

Workspaces, their members and their bindings to installations, beside the
installations and the relays.  An operation takes its account from a session
before its transaction, so its account is any account here.

`bind_installation` asks who owns the installation and not whether it is
revoked.  `BindsLive` rules that out.  `Lawful` is what then holds in every run:
who made a binding, that bindings are unique, and that nothing comes to a
revoked installation any more (`Dead`).
-/

namespace Cresix.Cloud

open CloudCore (boundedText)
open Relay (ControlCodec)
open Rust (Uuid)
open Transition (System Event)

/-! ## Tables -/

structure WorkspaceNamespace where
  value : String
  valid : CloudCore.validateSlug value "workspace namespace" 3 63 reservedNames = .ok ()
deriving DecidableEq

structure Workspace where
  id : Uuid
  nameSpace : String
  displayName : String
  ownerAccountId : Uuid
deriving DecidableEq, Repr

structure Membership where
  workspaceId : Uuid
  accountId : Uuid
  role : String
deriving DecidableEq, Repr

/-- What is bound to what. -/
structure BindRequest where
  workspaceId : Uuid
  installationId : Uuid
  localWorkspaceId : Uuid
deriving DecidableEq, Repr

structure Binding where
  id : Uuid
  bound : BindRequest
  catalogRevision : Nat
deriving DecidableEq, Repr

namespace Binding

/-- The unique pair of columns. -/
def localKey (row : Binding) : Uuid × Uuid := (row.bound.installationId, row.bound.localWorkspaceId)

/-- The primary key and the unique columns of the bindings. -/
def clash (a b : Binding) : Bool :=
  a.id = b.id || a.bound.workspaceId = b.bound.workspaceId || a.localKey = b.localKey

end Binding

/-- The relays and the tables of the workspaces. -/
structure Ownership where
  cloud : Process
  workspaces : List Workspace
  memberships : List Membership
  bindings : List Binding

namespace Ownership

/-! ## Operations -/

/-- `create_workspace`. -/
def createWorkspace (s : Ownership) (account id : Uuid) (nameSpace : WorkspaceNamespace)
    (name : String) : Except ApiError Ownership := do
  (boundedText name "name" 1 100).mapError fun error => .bad error.message
  let workspaces ← okOr
    (Table.insert? (fun a b => a.id = b.id || a.nameSpace = b.nameSpace)
      ⟨id, nameSpace.value, name, account⟩ s.workspaces)
    (.conflict "identifier is already in use")
  let memberships ← okOr
    (Table.insert? (fun a b => a.workspaceId = b.workspaceId && a.accountId = b.accountId)
      ⟨id, account, "owner"⟩ s.memberships)
    .internal
  return { s with workspaces, memberships }

/-- The query of `bind_installation` for the owner role. -/
def ownsWorkspace (s : Ownership) (account workspaceId : Uuid) : Bool :=
  s.memberships.any fun row =>
    row.workspaceId = workspaceId && row.accountId = account && row.role = "owner"

/-- `bind_installation`.  The path is an identifier as it is stored; another
text has no member. -/
def bindInstallation (s : Ownership) (account : Uuid) (bound : BindRequest) (id : Uuid) :
    Except ApiError Ownership := do
  s.cloud.db.requireInstallationOwner bound.installationId account
  require (s.ownsWorkspace account bound.workspaceId) (.forbidden "workspace owner role required")
  let bindings ← okOr (Table.insert? Binding.clash ⟨id, bound, 0⟩ s.bindings)
    (.conflict "identifier is already in use")
  return { s with bindings }

/-- The binding `put_catalog` publishes for: its installation is not revoked. -/
def activeBinding (s : Ownership) (installationId bindingId : Uuid) : Option Binding :=
  s.bindings.find? fun row =>
    row.id = bindingId && row.bound.installationId = installationId &&
      s.cloud.db.installations.any fun installation =>
        installation.id = row.bound.installationId && installation.revokedAt.isNone

/-- `put_catalog`, as far as the bindings are concerned. -/
def putCatalog (s : Ownership) (installationId bindingId : Uuid) (revision : Nat) :
    Except ApiError Ownership := do
  let current ← okOr (s.activeBinding installationId bindingId) (.notFound "active workspace binding")
  require (revision < 2 ^ 63) (.bad "catalog revision is too large")
  require (current.catalogRevision < revision)
    (.conflict "catalog revision must increase monotonically")
  return { s with
    bindings := Table.update (·.id = bindingId)
      (fun row => { row with catalogRevision := revision }) s.bindings }

/-- `Cloud::open` on the tables another process left. -/
def reopen (s : Ownership) : Ownership :=
  { s with cloud :=
    { s.cloud with
      db := { s.cloud.db with
        installations := Table.update (·.revokedAt.isNone)
          (fun row => { row with connectedAt := none }) s.cloud.db.installations }
      relays := ∅
      revoking := none
      sessions := []
      proxies := [] } }

/-! ## Steps -/

end Ownership

inductive OwnershipAction where
  /-- A step of the relays: a registration of an installation, a revocation, a
  registration of a relay, and all the others. -/
  | cloud (action : Action)
  | createWorkspace (account id : Uuid) (nameSpace : WorkspaceNamespace) (name : String)
  | bind (account : Uuid) (bound : BindRequest) (id : Uuid)
  | putCatalog (installationId bindingId : Uuid) (revision : Nat)
  | reopen

namespace Ownership

/-- The step an action leads to.  An operation that fails is rolled back. -/
def step (codec : ControlCodec) (hash : List UInt8 → String) (s : Ownership) :
    OwnershipAction → Option Ownership
  | .cloud action => (s.cloud.step codec hash action).map fun cloud => { s with cloud }
  | .createWorkspace account id nameSpace name =>
      (s.createWorkspace account id nameSpace name).toOption
  | .bind account bound id => (s.bindInstallation account bound id).toOption
  | .putCatalog installationId bindingId revision =>
      (s.putCatalog installationId bindingId revision).toOption
  | .reopen => some s.reopen

/-- Empty tables, and nothing connected. -/
structure Started (s : Ownership) : Prop where
  cloud : s.cloud.Started
  db : s.cloud.db = ⟨[], []⟩
  workspaces : s.workspaces = []
  memberships : s.memberships = []
  bindings : s.bindings = []

/-- Any order of the steps. -/
def system (codec : ControlCodec) (hash : List UInt8 → String) : System Ownership OwnershipAction :=
  .ofOption Started (step codec hash)

/-! ## The graph -/

/-- The account is an owner of the workspace. -/
def OwnsWorkspace (s : Ownership) (account workspaceId : Uuid) : Prop :=
  ∃ row ∈ s.memberships, row.workspaceId = workspaceId ∧ row.accountId = account ∧
    row.role = "owner"

/-- The account owns the installation. -/
def OwnsInstallation (s : Ownership) (account installationId : Uuid) : Prop :=
  ∃ row ∈ s.cloud.db.installations, row.id = installationId ∧ row.ownerAccountId = account

/-- There is an installation that is not revoked. -/
def Live (s : Ownership) (id : Uuid) : Prop :=
  ∃ row ∈ s.cloud.db.installations, row.id = id ∧ row.revokedAt = none

/-- There is an installation, and it is revoked. -/
def Gone (s : Ownership) (id : Uuid) : Prop :=
  (∃ route, s.cloud.db.Routes id route) ∧ s.cloud.db.Revoked id

/-- What nothing gives an installation between two states: another state, a live
credential, a binding or an entry of the registry. -/
structure Dead (s t : Ownership) (id : Uuid) : Prop where
  gone : t.Gone id
  credentials : ∀ credential ∈ t.cloud.db.connectorCredentials,
    credential.installationId = id → credential.revokedAt ≠ none
  bindings : ∀ row ∈ t.bindings, row.bound.installationId = id → row ∈ s.bindings
  routes : ∀ {route}, s.cloud.db.Routes id route → t.cloud.db.Routes id route
  registry : ∀ {route registration}, s.cloud.db.Routes id route →
    t.cloud.relays.lookup route = some registration →
    s.cloud.relays.lookup route = some registration

/-- What the ownership graph promises after a run. -/
structure Lawful (tr : List (Event Ownership OwnershipAction)) (t : Ownership) : Prop where
  /-- Each binding was made by an owner of both ends, for a live installation. -/
  inserted : ∀ row ∈ t.bindings, ∃ e ∈ tr, ∃ account,
    e.label = .bind account row.bound row.id ∧
      e.pre.OwnsWorkspace account row.bound.workspaceId ∧
      e.pre.OwnsInstallation account row.bound.installationId ∧
      e.pre.Live row.bound.installationId
  workspace : Table.Keyed (fun row : Binding => row.bound.workspaceId) t.bindings
  localWorkspace : Table.Keyed Binding.localKey t.bindings
  /-- A revocation is for ever. -/
  revoked : ∀ e ∈ tr, ∀ id, e.post.Gone id → Dead e.post t id

/-- The installations that are bound are live. -/
def BindsLive (s : Ownership) (a : OwnershipAction) (_ : Ownership) : Prop :=
  ∀ account bound id, a = .bind account bound id → s.Live bound.installationId

end Ownership

/-! ## The installations -/

namespace Database

variable {db db' : Database} {id : Uuid}

/-- A credential that is not revoked is one of an installation that is not. -/
def Sound (db : Database) : Prop :=
  ∀ credential ∈ db.connectorCredentials, credential.revokedAt = none →
    ∃ row ∈ db.installations, row.id = credential.installationId ∧ row.revokedAt = none

/-- What the operations do to the installations. -/
inductive Changes (db : Database) : Database → Prop where
  | same : Changes db db
  | registerInstallation {id account localServerId : Uuid} {routeId secretHash : String}
      {publicId : List UInt8} {db' : Database} :
      db.registerInstallation id account localServerId routeId publicId secretHash = some db' →
      Changes db db'
  | revoke (id : Uuid) (now : Nat) : Changes db (db.revoke id now)
  | connected (p : Installation → Bool) (at' : Option Nat) :
      Changes db { db with
        installations := Table.update p (fun row => { row with connectedAt := at' })
          db.installations }

theorem Changes.keeps (h : db.Changes db') : Keeps db db' := by
  cases h with
  | same => exact .refl db
  | registerInstallation hregister => exact keeps_registerInstallation hregister
  | revoke id now => exact keeps_revoke db id now
  | connected p at' => exact keeps_update (fun _ => ⟨rfl, rfl⟩) fun _ h => h

theorem Sound.registerInstallation {account localServerId : Uuid} {routeId secretHash : String}
    {publicId : List UInt8} (h : db.Sound)
    (hregister : db.registerInstallation id account localServerId routeId publicId secretHash =
      some db') : db'.Sound := by
  unfold Database.registerInstallation at hregister
  split at hregister
  next installations credentials hinstallations hcredentials =>
    cases hregister
    obtain ⟨-, rfl⟩ := Table.insert?_eq_some hinstallations
    obtain ⟨-, rfl⟩ := Table.insert?_eq_some hcredentials
    intro credential hmem hlive
    rcases List.mem_append.mp hmem with hold | hnew
    · obtain ⟨row, hrow, hid⟩ := h credential hold hlive
      exact ⟨row, List.mem_append_left _ hrow, hid⟩
    · rw [List.mem_singleton.mp hnew]
      exact ⟨_, List.mem_append_right _ (List.mem_singleton_self _), rfl, rfl⟩
  next => cases hregister

theorem Sound.revoke (h : db.Sound) (id : Uuid) (now : Nat) : (db.revoke id now).Sound := by
  intro credential hmem hlive
  obtain ⟨old, hold, rfl⟩ := Table.mem_update hmem
  split at hlive
  next => cases hlive
  next hother =>
    rw [if_neg hother]
    obtain ⟨row, hrow, hid, hrowLive⟩ := h old hold hlive
    have hne : row.id ≠ id := by
      intro heq
      simp [← hid, heq, hlive] at hother
    refine ⟨row, ?_, hid, hrowLive⟩
    exact List.mem_map.mpr ⟨row, hrow, if_neg (by simpa using hne)⟩

theorem Changes.sound (h : db.Changes db') (hsound : db.Sound) : db'.Sound := by
  cases h with
  | same => exact hsound
  | registerInstallation hregister => exact hsound.registerInstallation hregister
  | revoke id now => exact hsound.revoke id now
  | connected p at' =>
      intro credential hmem hlive
      obtain ⟨row, hrow, hid, hrowLive⟩ := hsound credential hmem hlive
      refine ⟨_, List.mem_map_of_mem hrow, ?_⟩
      split
      next => exact ⟨hid, hrowLive⟩
      next => exact ⟨hid, hrowLive⟩

theorem Sound.revoked (h : db.Sound) (hrevoked : db.Revoked id) :
    ∀ credential ∈ db.connectorCredentials, credential.installationId = id →
      credential.revokedAt ≠ none := by
  rintro credential hmem rfl hlive
  obtain ⟨row, hrow, hid, hrowLive⟩ := h credential hmem hlive
  exact hrevoked row hrow hid hrowLive

end Database

namespace Process

variable {cloud : Process} {a : Action} {r : Registry} {id : Uuid} {route : String}
variable {registration : RelayRegistration}

theorem RegistryMove.changes (h : cloud.RegistryMove a r) : cloud.db.Changes r.db := by
  cases h with
  | rest | revoked _ | unregister _ _ => exact .same
  | registerInstallation hregister => exact .registerInstallation hregister
  | revoke _ _ => exact .revoke _ _
  | register _ _ => exact .connected _ _
  | disconnected _ => exact .connected _ _

/-- No entry comes for the route of a revoked installation. -/
theorem RegistryMove.lookup_of_revoked (h : cloud.RegistryMove a r) (hkeyed : cloud.db.Keyed)
    (hroute : cloud.db.Routes id route) (hrevoked : cloud.db.Revoked id)
    (hlookup : r.relays.lookup route = some registration) :
    cloud.relays.lookup route = some registration := by
  cases h with
  | rest | registerInstallation _ | revoke _ _ | disconnected _ => exact hlookup
  | revoked _ | unregister _ _ =>
      dsimp only at hlookup
      rw [Finmap.lookup_erase_eq_ite] at hlookup
      split at hlookup
      next => cases hlookup
      next => exact hlookup
  | register _ hactive =>
      dsimp only at hlookup
      rw [Finmap.lookup_insert_eq_ite] at hlookup
      split at hlookup
      next heq =>
        obtain ⟨hroutes, hlive⟩ := Database.activeRoute_eq_some hactive
        have hid := (hkeyed.routes_iff hroute hroutes).mp heq
        exact absurd (hid ▸ hrevoked) hlive
      next => exact hlookup

end Process

namespace Ownership

variable {codec : ControlCodec} {hash : List UInt8 → String} {s t u : Ownership}
variable {a : OwnershipAction} {id : Uuid}

/-! ## What a step does -/

/-- The ways a step changes the bindings. -/
inductive BindingMove (s : Ownership) : OwnershipAction → List Binding → Prop where
  | same {a : OwnershipAction} : BindingMove s a s.bindings
  | bind {account id : Uuid} {bound : BindRequest} :
      s.OwnsWorkspace account bound.workspaceId →
      s.OwnsInstallation account bound.installationId →
      (∀ old ∈ s.bindings, Binding.clash ⟨id, bound, 0⟩ old = false) →
      BindingMove s (.bind account bound id) (s.bindings ++ [⟨id, bound, 0⟩])
  | publish {a : OwnershipAction} {current : Binding} (revision : Nat) :
      current ∈ s.bindings → s.Live current.bound.installationId →
      BindingMove s a (Table.update (·.id = current.id)
        (fun row => { row with catalogRevision := revision }) s.bindings)

/-- What a step does to the installations, the registry and the bindings. -/
structure Move (s : Ownership) (a : OwnershipAction) (t : Ownership) : Prop where
  changes : s.cloud.db.Changes t.cloud.db
  registry : s.cloud.db.Keyed → ∀ {id route registration}, s.cloud.db.Routes id route →
    s.cloud.db.Revoked id → t.cloud.relays.lookup route = some registration →
    s.cloud.relays.lookup route = some registration
  bindings : s.BindingMove a t.bindings

theorem requireInstallationOwner_eq_ok {account : Uuid}
    (h : s.cloud.db.requireInstallationOwner id account = .ok ()) :
    s.OwnsInstallation account id := by
  unfold Database.requireInstallationOwner at h
  split at h
  next => cases h
  next row hrow =>
    obtain ⟨hmem, hid⟩ := Database.installationById_eq_some hrow
    split at h
    next howner => exact ⟨row, hmem, hid, howner⟩
    next => cases h

theorem bindInstallation_move {account : Uuid} {bound : BindRequest}
    (h : s.bindInstallation account bound id = .ok t) : Move s (.bind account bound id) t := by
  obtain ⟨_, howner, h⟩ := Checks.bind_eq_ok.mp h
  obtain ⟨_, hmember, h⟩ := Checks.bind_eq_ok.mp h
  obtain ⟨bindings, hinsert, h⟩ := Checks.bind_eq_ok.mp h
  cases h
  obtain ⟨hfresh, rfl⟩ := Table.insert?_eq_some (okOr_eq_ok.mp hinsert)
  obtain ⟨row, hrow, hrole⟩ := List.any_eq_true.mp (require_eq_ok.mp hmember)
  simp only [Bool.and_eq_true, decide_eq_true_eq] at hrole
  refine ⟨.same, fun _ _ _ _ _ _ hlookup => hlookup, ?_⟩
  exact .bind ⟨row, hrow, hrole.1.1, hrole.1.2, hrole.2⟩ (requireInstallationOwner_eq_ok howner)
    hfresh

theorem createWorkspace_move {account : Uuid} {nameSpace : WorkspaceNamespace} {name : String}
    (h : s.createWorkspace account id nameSpace name = .ok t) :
    Move s (.createWorkspace account id nameSpace name) t := by
  obtain ⟨_, _, h⟩ := Checks.bind_eq_ok.mp h
  obtain ⟨_, _, h⟩ := Checks.bind_eq_ok.mp h
  obtain ⟨_, _, h⟩ := Checks.bind_eq_ok.mp h
  cases h
  exact ⟨.same, fun _ _ _ _ _ _ hlookup => hlookup, .same⟩

theorem putCatalog_move {bindingId : Uuid} {revision : Nat}
    (h : s.putCatalog id bindingId revision = .ok t) : Move s a t := by
  obtain ⟨current, hcurrent, h⟩ := Checks.bind_eq_ok.mp h
  obtain ⟨_, _, h⟩ := Checks.bind_eq_ok.mp h
  obtain ⟨_, _, h⟩ := Checks.bind_eq_ok.mp h
  cases h
  have hfind := okOr_eq_ok.mp hcurrent
  have hactive := List.find?_some hfind
  simp only [Bool.and_eq_true, decide_eq_true_eq, List.any_eq_true,
    Option.isNone_iff_eq_none] at hactive
  obtain ⟨⟨rfl, -⟩, hlive⟩ := hactive
  refine ⟨.same, fun _ _ _ _ _ _ hlookup => hlookup, ?_⟩
  exact .publish revision (List.mem_of_find?_eq_some hfind) hlive

theorem step_move (h : s.step codec hash a = some t) : Move s a t := by
  cases a with
  | cloud action =>
      obtain ⟨cloud, hstep, rfl⟩ := Option.map_eq_some_iff.mp h
      have hmove := Process.step_registry hstep
      exact ⟨hmove.changes, fun hkeyed => hmove.lookup_of_revoked hkeyed, .same⟩
  | createWorkspace account id nameSpace name =>
      exact createWorkspace_move (Checks.toOption_eq_some.mp h)
  | bind account bound id => exact bindInstallation_move (Checks.toOption_eq_some.mp h)
  | putCatalog installationId bindingId revision =>
      exact putCatalog_move (Checks.toOption_eq_some.mp h)
  | reopen =>
      cases h
      refine ⟨.connected _ none, ?_, .same⟩
      intro _ _ _ _ _ _ hlookup
      cases hlookup

/-! ## The invariant -/

/-- The keys of the tables, and the credentials of the installations. -/
structure Sound (s : Ownership) : Prop where
  keyed : s.cloud.db.Keyed
  credentials : s.cloud.db.Sound
  id : Table.Keyed Binding.id s.bindings
  workspace : Table.Keyed (fun row : Binding => row.bound.workspaceId) s.bindings
  localWorkspace : Table.Keyed Binding.localKey s.bindings

theorem Started.sound (h : s.Started) : s.Sound := by
  have hdb := h.db
  have hbindings := h.bindings
  refine ⟨h.cloud.keyed, ?_, ?_, ?_, ?_⟩
  · rw [hdb]
    intro credential hmem
    cases hmem
  · rw [hbindings]
    exact .nil _
  · rw [hbindings]
    exact .nil _
  · rw [hbindings]
    exact .nil _

/-- A key that a clash compares and a publication keeps. -/
theorem BindingMove.keyed {bindings : List Binding} (h : s.BindingMove a bindings) {κ : Type}
    {key : Binding → κ} (hkept : ∀ row revision, key { row with catalogRevision := revision } =
      key row) (hclash : ∀ a b, Binding.clash a b = false → key a ≠ key b)
    (hkeyed : Table.Keyed key s.bindings) : Table.Keyed key bindings := by
  cases h with
  | same => exact hkeyed
  | bind _ _ hfresh => exact hkeyed.append fun old hold => hclash _ old (hfresh old hold)
  | publish revision _ _ => exact hkeyed.update fun row => hkept row revision

theorem Binding.ne_of_clash {x y : Binding} (h : x.clash y = false) :
    x.id ≠ y.id ∧ x.bound.workspaceId ≠ y.bound.workspaceId ∧ x.localKey ≠ y.localKey := by
  simp only [Binding.clash, Bool.or_eq_false_iff, decide_eq_false_iff_not] at h
  exact ⟨h.1.1, h.1.2, h.2⟩

theorem Sound.move (h : s.Sound) (hmove : Move s a t) : t.Sound where
  keyed := hmove.changes.keeps.keyed h.keyed
  credentials := hmove.changes.sound h.credentials
  id := hmove.bindings.keyed (fun _ _ => rfl) (fun _ _ h => (Binding.ne_of_clash h).1) h.id
  workspace :=
    hmove.bindings.keyed (fun _ _ => rfl) (fun _ _ h => (Binding.ne_of_clash h).2.1) h.workspace
  localWorkspace :=
    hmove.bindings.keyed (fun _ _ => rfl) (fun _ _ h => (Binding.ne_of_clash h).2.2)
      h.localWorkspace

theorem Gone.not_live (h : s.Gone id) : ¬ s.Live id := by
  rintro ⟨row, hrow, hid, hlive⟩
  exact h.2 row hrow hid hlive

theorem Move.gone (h : Move s a t) (hgone : s.Gone id) : t.Gone id := by
  obtain ⟨⟨route, hroute⟩, hrevoked⟩ := hgone
  exact ⟨⟨route, h.changes.keeps.routes hroute⟩, h.changes.keeps.revoked ⟨route, hroute⟩ hrevoked⟩

/-- A step makes no binding of a revoked installation. -/
theorem Sound.bindings (h : s.Sound) (hmove : Move s a t) (hlive : BindsLive s a t)
    (hgone : s.Gone id) : ∀ row ∈ t.bindings, row.bound.installationId = id → row ∈ s.bindings := by
  have hbindings := hmove.bindings
  generalize t.bindings = bindings at hbindings
  intro row hrow hid
  cases hbindings with
  | same => exact hrow
  | bind _ _ _ =>
      rcases List.mem_append.mp hrow with hold | hnew
      · exact hold
      · have hbound := hlive _ _ _ rfl
        rw [List.mem_singleton.mp hnew] at hid
        exact absurd (hid ▸ hbound) hgone.not_live
  | @publish _ current revision hcurrent hcurrentLive =>
      obtain ⟨old, hold, rfl⟩ := Table.mem_update hrow
      split at hid
      next hpublished =>
        -- It would be the binding that is published, whose installation is live.
        have heq : old = current := h.id old hold current hcurrent (of_decide_eq_true hpublished)
        rw [← heq] at hcurrentLive
        exact absurd (hid ▸ hcurrentLive) hgone.not_live
      next hother =>
        rw [if_neg hother]
        exact hold

/-- What a step gives a revoked installation. -/
theorem Sound.dead (h : s.Sound) (hmove : Move s a t) (hlive : BindsLive s a t)
    (hgone : s.Gone id) : Dead s t id where
  gone := hmove.gone hgone
  credentials := (h.move hmove).credentials.revoked (hmove.gone hgone).2
  bindings := h.bindings hmove hlive hgone
  routes hroute := hmove.changes.keeps.routes hroute
  registry hroute hlookup := hmove.registry h.keyed hroute hgone.2 hlookup

theorem Dead.trans {id : Uuid} (h : Dead s t id) (h' : Dead t u id) : Dead s u id where
  gone := h'.gone
  credentials := h'.credentials
  bindings row hrow hid := h.bindings row (h'.bindings row hrow hid) hid
  routes hroute := h'.routes (h.routes hroute)
  registry hroute hlookup := h.registry hroute (h'.registry (h.routes hroute) hlookup)

theorem Sound.dead_self (h : s.Sound) (hgone : s.Gone id) : Dead s s id where
  gone := hgone
  credentials := h.credentials.revoked hgone.2
  bindings _ hrow _ := hrow
  routes hroute := hroute
  registry _ hlookup := hlookup

/-! ## Runs -/

/-- Where a binding after a step comes from. -/
theorem Move.binding (h : Move s a t) {row : Binding} (hrow : row ∈ t.bindings) :
    (∃ old ∈ s.bindings, old.id = row.id ∧ old.bound = row.bound) ∨
      ∃ account, a = .bind account row.bound row.id ∧
        s.OwnsWorkspace account row.bound.workspaceId ∧
        s.OwnsInstallation account row.bound.installationId := by
  have hbindings := h.bindings
  generalize t.bindings = bindings at hbindings hrow
  cases hbindings with
  | same => exact .inl ⟨row, hrow, rfl, rfl⟩
  | @bind account id bound hworkspace hinstallation _ =>
      rcases List.mem_append.mp hrow with hold | hnew
      · exact .inl ⟨row, hold, rfl, rfl⟩
      · rw [List.mem_singleton.mp hnew]
        exact .inr ⟨account, rfl, hworkspace, hinstallation⟩
  | publish revision _ _ =>
      obtain ⟨old, hold, rfl⟩ := Table.mem_update hrow
      left
      refine ⟨old, hold, ?_⟩
      split
      next => exact ⟨rfl, rfl⟩
      next => exact ⟨rfl, rfl⟩

theorem Lawful.step {tr : List (Event Ownership OwnershipAction)} (h : Lawful tr s)
    (hsound : s.Sound) (hmove : Move s a t) (hlive : BindsLive s a t) :
    Lawful (tr ++ [⟨s, a, t⟩]) t where
  inserted row hrow := by
    rcases hmove.binding hrow with ⟨old, hold, hid, hbound⟩ | ⟨account, hbind, howns⟩
    · obtain ⟨e, he, hinserted⟩ := h.inserted old hold
      rw [hid, hbound] at hinserted
      exact ⟨e, List.mem_append_left _ he, hinserted⟩
    · refine ⟨_, List.mem_append_right _ (List.mem_singleton_self _), account, hbind, ?_⟩
      exact ⟨howns.1, howns.2, hlive account row.bound row.id hbind⟩
  workspace := (hsound.move hmove).workspace
  localWorkspace := (hsound.move hmove).localWorkspace
  revoked e he id hgone := by
    rcases List.mem_append.mp he with hold | hnew
    · have hdead := h.revoked e hold id hgone
      exact hdead.trans (hsound.dead hmove hlive hdead.gone)
    · obtain rfl := List.mem_singleton.mp hnew
      exact (hsound.move hmove).dead_self hgone

/-- In every run whose bindings are made for live installations, each binding was
made by an owner of both ends, the bindings are unique, and a revoked
installation stays revoked and gets nothing any more. -/
theorem lawful_of_run {tr : List (Event Ownership OwnershipAction)}
    (hstart : (system codec hash).start s)
    (hrun : ((system codec hash).restrict BindsLive).Run s tr t) : Lawful tr t := by
  have hs : s.Started := hstart
  have hinv : t.Sound ∧ Lawful tr t := by
    apply hrun.history (I := fun tr t => t.Sound ∧ Lawful tr t)
    · refine ⟨hs.sound, ?_, hs.sound.workspace, hs.sound.localWorkspace, ?_⟩
      · rw [hs.bindings]
        intro row hrow
        cases hrow
      · intro e he
        cases he
    · intro tr t a u _ hinv hstep
      have hmove := step_move hstep.1
      exact ⟨hinv.1.move hmove, hinv.2.step hinv.1 hmove hstep.2⟩
  exact hinv.2

/-! ## A binding of a revoked installation -/

/-- The check of `BindsLive` on a state. -/
def bindsLive (s : Ownership) : OwnershipAction → Bool
  | .bind _ bound _ => s.cloud.db.installations.any fun row =>
      row.id = bound.installationId && row.revokedAt.isNone
  | _ => true

theorem BindsLive.of_bindsLive (h : s.bindsLive a = true) : BindsLive s a t := by
  rintro account bound id rfl
  obtain ⟨row, hrow, hlive⟩ := List.any_eq_true.mp h
  simp only [Bool.and_eq_true, decide_eq_true_eq, Option.isNone_iff_eq_none] at hlive
  exact ⟨row, hrow, hlive.1, hlive.2⟩

def emptyOwnership : Ownership := ⟨emptyCloud, [], [], []⟩

theorem emptyOwnership_started : emptyOwnership.Started where
  cloud := emptyCloud_started
  db := rfl
  workspaces := rfl
  memberships := rfl
  bindings := rfl

/-- Account `7` registers installation `1` and opens workspace `3`. -/
def openSteps : List OwnershipAction :=
  [.cloud (.registerInstallation 1 7 9 "home" (List.replicate 16 0x41) "hash"),
    .createWorkspace 7 3 ⟨"home-team", by decide⟩ "Home"]

def revokeSteps : List OwnershipAction := [.cloud (.revoke 7 1), .cloud .revoked]

/-- The workspace is bound, and then the installation is revoked. -/
def boundSteps : List OwnershipAction := openSteps ++ [.bind 7 ⟨3, 1, 5⟩ 4] ++ revokeSteps

/-- The installation is revoked, and then the workspace is bound to it. -/
def lateSteps : List OwnershipAction := openSteps ++ revokeSteps ++ [.bind 7 ⟨3, 1, 5⟩ 4]

def eventsOf (actions : List OwnershipAction) : List (Event Ownership OwnershipAction) :=
  System.events (step sampleCodec sampleHash) emptyOwnership actions

theorem lawful_boundSteps : ∃ t, Lawful (eventsOf boundSteps) t ∧
    ∃ e ∈ eventsOf boundSteps, e.post.bindings ≠ [] := by
  obtain ⟨t, hrun⟩ : ∃ t, (system sampleCodec sampleHash).Run emptyOwnership
      (eventsOf boundSteps) t := System.Run.events (by decide)
  have hlive : ∀ e ∈ eventsOf boundSteps, e.pre.bindsLive e.label = true := by decide
  refine ⟨t, ?_, by decide⟩
  exact lawful_of_run emptyOwnership_started
    (hrun.restrict fun e he => .of_bindsLive (hlive e he))

/-- A revoked installation gets a binding. -/
theorem binding_of_revoked :
    ¬ ∀ (codec : ControlCodec) (hash : List UInt8 → String) (s t : Ownership)
        (tr : List (Event Ownership OwnershipAction)),
      (system codec hash).start s → (system codec hash).Run s tr t → Lawful tr t := by
  intro hall
  have hdata : (System.follow (step sampleCodec sampleHash) emptyOwnership lateSteps).map
      (fun run => (run.2.bindings, (run.1[3]?).map fun e =>
        (e.post.cloud.db.installations, e.post.bindings))) =
      some ([⟨4, ⟨3, 1, 5⟩, 0⟩], some ([⟨1, 7, 9, "home", none, some 0⟩], [])) := by
    decide
  obtain ⟨⟨tr, t⟩, hfollow, heq⟩ := Option.map_eq_some_iff.mp hdata
  obtain ⟨hbound, hrevoked⟩ := Prod.mk.inj heq
  obtain ⟨e, he, heq⟩ := Option.map_eq_some_iff.mp hrevoked
  obtain ⟨hinstallations, hnone⟩ := Prod.mk.inj heq
  have hgone : e.post.Gone 1 := by
    constructor
    · refine ⟨"home", ⟨1, 7, 9, "home", none, some 0⟩, ?_, rfl, rfl⟩
      rw [hinstallations]
      exact List.mem_singleton_self _
    · intro row hrow _
      rw [hinstallations] at hrow
      rw [List.mem_singleton.mp hrow]
      exact Option.some_ne_none 0
  have hlawful := hall sampleCodec sampleHash _ _ _ emptyOwnership_started
    (System.Run.of_follow hfollow)
  have hdead := hlawful.revoked e (List.mem_of_getElem? he) 1 hgone
  have hmem : (⟨4, ⟨3, 1, 5⟩, 0⟩ : Binding) ∈ t.bindings := by
    have ht : t.bindings = [⟨4, ⟨3, 1, 5⟩, 0⟩] := hbound
    rw [ht]
    exact List.mem_singleton_self _
  have hold := hdead.bindings _ hmem rfl
  rw [hnone] at hold
  cases hold

end Ownership

end Cresix.Cloud
