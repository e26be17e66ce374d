import Cresix.Cloud.Registry

/-!
# Presence

The column `connected_at` says whether a connector is there.  A registration
sets it together with the entry of the registry.  A cleanup takes the entry away
first and clears the column later, so in between it is the session that stands
for the column (`Registry.Consistent`).  A session that registers in between
loses its column to the cleanup.  `NotClearing` rules that out, and under it the
column agrees with the registry whenever no cleanup is half done.
-/

namespace Cresix.Cloud

open Relay
open Rust (Uuid)
open Transition (System Event)

/-- The update of `Cloud::open`: nothing is connected to a new process. -/
def Database.disconnectAll (db : Database) : Database :=
  { db with
    installations := Table.update (·.revokedAt.isNone)
      (fun row => { row with connectedAt := none }) db.installations }

namespace Process

/-- A process that has opened its database. -/
structure Opened (cloud : Process) : Prop extends cloud.Started where
  opened : ∃ db : Database, cloud.db = db.disconnectAll

/-- No session registers an installation while a cleanup of the installation is
half done. -/
def NotClearing (cloud : Process) (a : Action) (_ : Process) : Prop :=
  ∀ number session route other, a = .session number .register →
    cloud.sessions[number]? = some session →
    cloud.db.activeRoute session.installationId = some route →
    cloud.registry.clearing other ≠ some session.installationId

/-- The column of every installation that is not revoked and of which no
cleanup is half done agrees with the registry. -/
def PresenceConsistent (cloud : Process) : Prop :=
  ∀ row ∈ cloud.db.installations, row.revokedAt = none →
    (∀ number, cloud.registry.clearing number ≠ some row.id) →
    (row.connectedAt ≠ none ↔ cloud.relays.lookup row.routeId ≠ none)

end Process

/-! ## The registry and the column -/

/-- The column stands for an entry of the registry or for a cleanup that is
half done. -/
structure Registry.Consistent (r : Registry) : Prop where
  connected : ∀ row ∈ r.db.installations, row.revokedAt = none →
    (row.connectedAt ≠ none ↔
      r.relays.lookup row.routeId ≠ none ∨ ∃ number, r.clearing number = some row.id)
  /-- What is being cleaned up is not in the registry. -/
  exclusive : ∀ row ∈ r.db.installations, ∀ number, r.clearing number = some row.id →
    r.relays.lookup row.routeId = none
  /-- It is being cleaned up by one session. -/
  unique : ∀ number other id, r.clearing number = some id → r.clearing other = some id →
    number = other
  listed : ∀ number id, r.clearing number = some id → ∃ route, r.db.Routes id route

section

variable {codec : ControlCodec} {hash : List UInt8 → String} {cloud cloud' : Process}
variable {tr : List (Event Process Action)} {a : Action} {r : Registry}

theorem Process.Opened.consistent (h : cloud.Opened) : cloud.registry.Consistent := by
  have hnone : ∀ number, cloud.registry.clearing number = none := by
    intro number
    simp [Process.registry, h.sessions]
  have hempty : ∀ route, cloud.registry.relays.lookup route = none := by
    intro route
    rw [show cloud.registry.relays = cloud.relays from rfl, h.relays]
    exact Finmap.lookup_empty route
  refine ⟨?_, ?_, ?_, ?_⟩
  · intro row hrow hlive
    obtain ⟨db, hdb⟩ := h.opened
    rw [show cloud.registry.db = cloud.db from rfl, hdb] at hrow
    obtain ⟨old, -, rfl⟩ := Table.mem_update hrow
    refine iff_of_false ?_ ?_
    · split
      next => simp
      next hrevoked =>
        rw [if_neg hrevoked] at hlive
        exact absurd (Option.isNone_iff_eq_none.mpr hlive) hrevoked
    · simp [hempty, hnone]
  all_goals simp [hnone]

/-- A session that is cleaning up is cleaning up its own installation. -/
theorem Process.clearing_of_session {number : Nat} {session : Session} {id : Uuid}
    (hsession : cloud.sessions[number]? = some session)
    (hclearing : cloud.registry.clearing number = some id) : id = session.installationId := by
  simp only [Process.registry, hsession, Option.bind_some, Session.clearing] at hclearing
  split at hclearing
  next => exact (Option.some.inj hclearing).symm
  next => cases hclearing

/-- A route is in the registry only when an installation owns it. -/
theorem Process.RegistryInvariant.lookup_none (h : cloud.RegistryInvariant) {route : String}
    (hfresh : ∀ row ∈ cloud.db.installations, row.routeId ≠ route) :
    cloud.relays.lookup route = none := by
  cases hlookup : cloud.relays.lookup route with
  | none => rfl
  | some registration =>
      obtain ⟨session, -, -, row, hrow, -, hroute⟩ := h.registered hlookup
      exact absurd hroute (hfresh row hrow)

/-! ### What a step preserves -/

/-- A new installation is not connected. -/
theorem Registry.Consistent.registerInstallation {db : Database}
    {id account localServerId : Uuid} {routeId secretHash : String} {publicId : List UInt8}
    (h : cloud.registry.Consistent) (hinv : cloud.RegistryInvariant)
    (hdb : cloud.db.registerInstallation id account localServerId routeId publicId secretHash =
      some db) : Registry.Consistent { cloud.registry with db } := by
  refine ⟨?_, ?_, h.unique, ?_⟩
  · intro row hrow hlive
    rcases Database.mem_registerInstallation hdb hrow with hold | ⟨rfl, hfresh⟩
    · exact h.connected row hold hlive
    · refine iff_of_false (by simp) ?_
      rintro (hlookup | ⟨number, hclearing⟩)
      · exact hlookup (hinv.lookup_none fun old hold => (hfresh old hold).2)
      · obtain ⟨_, old, hold, hid, -⟩ := h.listed number _ hclearing
        exact (hfresh old hold).1 hid
  · intro row hrow number hclearing
    rcases Database.mem_registerInstallation hdb hrow with hold | ⟨rfl, hfresh⟩
    · exact h.exclusive row hold number hclearing
    · exact hinv.lookup_none fun old hold => (hfresh old hold).2
  · intro number other hclearing
    obtain ⟨route, hroutes⟩ := h.listed number other hclearing
    exact ⟨route, (Database.keeps_registerInstallation hdb).routes hroutes⟩

/-- A revocation changes no row that is not revoked. -/
theorem Registry.Consistent.revoke {id : Uuid} {now : Nat} {revoking : Option Installation}
    (h : r.Consistent) :
    Registry.Consistent { r with db := r.db.revoke id now, revoking } := by
  refine ⟨?_, ?_, h.unique, ?_⟩
  · intro row hrow hlive
    obtain ⟨old, hold, -, -, hcase⟩ := Database.mem_revoke hrow
    split at hcase
    next => exact absurd hlive hcase
    next =>
      subst hcase
      exact h.connected row hold hlive
  · intro row hrow number hclearing
    obtain ⟨old, hold, hid, hroute, -⟩ := Database.mem_revoke hrow
    rw [hroute]
    exact h.exclusive old hold number (hid ▸ hclearing)
  · intro number other hclearing
    obtain ⟨route, hroutes⟩ := h.listed number other hclearing
    exact ⟨route, (Database.keeps_revoke _ _ _).routes hroutes⟩

/-- The route that a revocation takes out is not one of a row that is not revoked. -/
theorem Registry.Consistent.revoked {installation : Installation} (h : cloud.registry.Consistent)
    (hinv : cloud.RegistryInvariant) (hlock : cloud.revoking = some installation) :
    Registry.Consistent { cloud.registry with
      relays := cloud.relays.erase installation.routeId, revoking := none } := by
  obtain ⟨⟨revoked, hmem, hid, hroute⟩, hrevoked⟩ := hinv.revoking hlock
  refine ⟨?_, ?_, h.unique, h.listed⟩
  · intro row hrow hlive
    have hne : row.routeId ≠ installation.routeId := by
      intro heq
      have hsame : row = revoked := hinv.keyed.route row hrow revoked hmem (heq.trans hroute.symm)
      exact hrevoked row hrow (hsame ▸ hid) hlive
    dsimp only
    rw [Finmap.lookup_erase_ne hne]
    exact h.connected row hrow hlive
  · intro row hrow number hclearing
    dsimp only
    rw [Finmap.lookup_erase_eq_ite]
    split
    next => rfl
    next => exact h.exclusive row hrow number hclearing

/-- A registration sets the column and the entry. -/
theorem Registry.Consistent.register {number now : Nat} {id : Uuid} {route : String}
    (h : cloud.registry.Consistent) (hinv : cloud.RegistryInvariant)
    (hactive : cloud.db.activeRoute id = some route)
    (hfree : ∀ other, cloud.registry.clearing other ≠ some id) :
    Registry.Consistent { cloud.registry with
      db := cloud.db.setConnected id (some now)
      relays := cloud.relays.insert route ⟨number⟩ } := by
  obtain ⟨active, hmem, rfl, rfl, hlive⟩ := Database.activeRoute_row hactive
  -- the row of the route is the row of the installation
  have hroute : ∀ old ∈ cloud.db.installations, old.routeId = active.routeId ↔ old.id = active.id :=
    fun old hold => ⟨fun heq => by rw [hinv.keyed.route old hold active hmem heq],
      fun heq => by rw [hinv.keyed.id old hold active hmem heq]⟩
  refine ⟨?_, ?_, h.unique, ?_⟩
  · intro row hrow hlive'
    obtain ⟨old, hold, hid, hrouteId, hkept, hcolumn⟩ := Database.mem_setConnected hrow
    dsimp only
    rw [hcolumn, hrouteId, hid, Finmap.lookup_insert_eq_ite]
    by_cases hown : old.id = active.id
    · rw [if_pos ⟨hown, hkept ▸ hlive'⟩, if_pos ((hroute old hold).mpr hown)]
      simp
    · rw [if_neg fun hboth => hown hboth.1, if_neg fun heq => hown ((hroute old hold).mp heq)]
      exact h.connected old hold (hkept ▸ hlive')
  · intro row hrow other hclearing
    obtain ⟨old, hold, hid, hrouteId, -, -⟩ := Database.mem_setConnected hrow
    dsimp only
    rw [hrouteId, Finmap.lookup_insert_eq_ite]
    rw [hid] at hclearing
    split
    next heq =>
      rw [(hroute old hold).mp heq] at hclearing
      exact absurd hclearing (hfree other)
    next => exact h.exclusive old hold other hclearing
  · intro other otherId hclearing
    obtain ⟨route, hroutes⟩ := h.listed other otherId hclearing
    exact ⟨route, (Database.keeps_setConnected _ _ _).routes hroutes⟩

/-- A cleanup takes the entry over. -/
theorem Registry.Consistent.unregister {number : Nat} {session : Session} {route : String}
    (h : cloud.registry.Consistent) (hinv : cloud.RegistryInvariant)
    (hsession : cloud.sessions[number]? = some session)
    (hlookup : cloud.relays.lookup route = some ⟨number⟩) :
    Registry.Consistent { cloud.registry with
      relays := cloud.relays.erase route
      clearing := Function.update cloud.registry.clearing number (some session.installationId) } := by
  obtain ⟨own, hown, -, active, hmem, hid, rfl⟩ := hinv.registered hlookup
  obtain rfl : own = session := Option.some.inj (hown.symm.trans hsession)
  have hroute : ∀ row ∈ cloud.db.installations,
      row.routeId = active.routeId ↔ row.id = own.installationId :=
    fun row hrow => ⟨fun heq => by rw [hinv.keyed.route row hrow active hmem heq, hid],
      fun heq => by rw [hinv.keyed.id row hrow active hmem (heq.trans hid.symm)]⟩
  have hnone : ∀ other, cloud.registry.clearing other ≠ some own.installationId := by
    intro other hclearing
    have hgone := h.exclusive active hmem other (hid ▸ hclearing)
    cases hgone.symm.trans hlookup
  -- what the other sessions clean up is as it was
  have hclearing : ∀ other id, id ≠ own.installationId →
      (Function.update cloud.registry.clearing number (some own.installationId) other = some id ↔
        cloud.registry.clearing other = some id) := by
    intro other id hne
    rcases eq_or_ne other number with rfl | hother
    · rw [Function.update_self]
      refine iff_of_false (fun heq => hne (Option.some.inj heq).symm) fun hold => hne ?_
      exact Process.clearing_of_session hsession hold
    · rw [Function.update_of_ne hother]
  refine ⟨?_, ?_, ?_, ?_⟩
  · intro row hrow hlive
    dsimp only
    rw [Finmap.lookup_erase_eq_ite]
    by_cases hrowId : row.id = own.installationId
    · refine iff_of_true ?_ (.inr ⟨number, by rw [Function.update_self, hrowId]⟩)
      refine (h.connected row hrow hlive).mpr (.inl ?_)
      rw [(hroute row hrow).mpr hrowId]
      exact fun hgone => by cases hgone.symm.trans hlookup
    · rw [if_neg fun heq => hrowId ((hroute row hrow).mp heq)]
      simp only [hclearing _ _ hrowId]
      exact h.connected row hrow hlive
  · intro row hrow other hother
    dsimp only
    rw [Finmap.lookup_erase_eq_ite]
    split
    next => rfl
    next hne =>
      have hrowId : row.id ≠ own.installationId := fun heq => hne ((hroute row hrow).mpr heq)
      exact h.exclusive row hrow other ((hclearing other _ hrowId).mp hother)
  · intro m n id hm hn
    dsimp only at hm hn
    by_cases hown : id = own.installationId
    · have hnumber : ∀ k, Function.update cloud.registry.clearing number
          (some own.installationId) k = some id → k = number := by
        intro k hk
        by_contra hne
        rw [Function.update_of_ne hne, hown] at hk
        exact hnone k hk
      rw [hnumber m hm, hnumber n hn]
    · exact h.unique m n id ((hclearing m id hown).mp hm) ((hclearing n id hown).mp hn)
  · intro other id hother
    dsimp only at hother
    by_cases hown : id = own.installationId
    · exact ⟨_, active, hmem, hid.trans hown.symm, rfl⟩
    · exact h.listed other id ((hclearing other id hown).mp hother)

/-- The end of a cleanup clears the column. -/
theorem Registry.Consistent.disconnected {number : Nat} {id : Uuid} (h : r.Consistent)
    (hclearing : r.clearing number = some id) :
    Registry.Consistent { r with
      db := r.db.setConnected id none
      clearing := Function.update r.clearing number none } := by
  have hother : ∀ other id', Function.update r.clearing number none other = some id' ↔
      r.clearing other = some id' ∧ id' ≠ id := by
    intro other id'
    rcases eq_or_ne other number with rfl | hne
    · rw [Function.update_self, hclearing]
      simp [eq_comm]
    · rw [Function.update_of_ne hne]
      refine ⟨fun hold => ⟨hold, fun heq => hne ?_⟩, fun hold => hold.1⟩
      exact h.unique _ _ _ (heq ▸ hold) hclearing
  refine ⟨?_, ?_, ?_, ?_⟩
  · intro row hrow hlive
    obtain ⟨old, hold, hid, hrouteId, hkept, hcolumn⟩ := Database.mem_setConnected hrow
    dsimp only
    simp only [hother]
    rw [hcolumn, hrouteId, hid]
    by_cases hown : old.id = id
    · rw [if_pos ⟨hown, hkept ▸ hlive⟩, h.exclusive old hold number (hown ▸ hclearing)]
      simp [hown]
    · rw [if_neg fun hboth => hown hboth.1]
      simp only [ne_eq, hown, not_false_eq_true, and_true]
      exact h.connected old hold (hkept ▸ hlive)
  · intro row hrow other hrest
    obtain ⟨old, hold, hid, hrouteId, -, -⟩ := Database.mem_setConnected hrow
    rw [hrouteId]
    exact h.exclusive old hold other (hid ▸ ((hother other _).mp hrest).1)
  · intro m n id' hm hn
    exact h.unique m n id' ((hother m id').mp hm).1 ((hother n id').mp hn).1
  · intro other id' hrest
    obtain ⟨route, hroutes⟩ := h.listed other id' ((hother other id').mp hrest).1
    exact ⟨route, (Database.keeps_setConnected _ _ _).routes hroutes⟩

theorem Registry.Consistent.move (h : cloud.registry.Consistent) (hinv : cloud.RegistryInvariant)
    (hmove : cloud.RegistryMove a r) (hfree : cloud.NotClearing a cloud') : r.Consistent := by
  cases hmove with
  | rest => exact h
  | registerInstallation hdb => exact h.registerInstallation hinv hdb
  | revoke _ _ => exact h.revoke
  | revoked hlock => exact h.revoked hinv hlock
  | register hsession hactive =>
      exact h.register hinv hactive fun other => hfree _ _ _ other rfl hsession hactive
  | unregister hsession hlookup => exact h.unregister hinv hsession hlookup
  | disconnected hclearing => exact h.disconnected hclearing

theorem Registry.Consistent.presence (h : cloud.registry.Consistent) :
    cloud.PresenceConsistent := by
  intro row hrow hlive hquiet
  refine (h.connected row hrow hlive).trans ⟨fun hor => ?_, .inl⟩
  rcases hor with hlookup | ⟨number, hclearing⟩
  · exact hlookup
  · exact absurd hclearing (hquiet number)

/-- In every run in which no session registers an installation while a cleanup of it is half
done, the column agrees with the registry. -/
theorem presence_of_notClearing (hstart : cloud.Opened)
    (hrun : ((Process.system codec hash).restrict Process.NotClearing).Run cloud tr cloud') :
    cloud'.PresenceConsistent := by
  have hboth : cloud'.RegistryInvariant ∧ cloud'.registry.Consistent := by
    refine hrun.invariant (I := fun cloud => cloud.RegistryInvariant ∧ cloud.registry.Consistent)
      ?_ ⟨hstart.registryInvariant, hstart.consistent⟩
    intro s b t ⟨hinv, hconsistent⟩ hstep
    exact ⟨hinv.move (step_move hstep.1),
      hconsistent.move hinv (Process.step_registry hstep.1) hstep.2⟩
  exact hboth.2.presence

end

/-! ### Cleanups in time and too late -/

theorem emptyCloud_opened : emptyCloud.Opened where
  toStarted := emptyCloud_started
  opened := ⟨⟨[], []⟩, rfl⟩

/-- No session of the cloud cleans up. -/
def Process.calm (cloud : Process) : Bool :=
  cloud.sessions.all fun session => session.clearing.isNone

theorem Process.clearing_of_calm {cloud : Process} (h : cloud.calm = true) (number : Nat) :
    cloud.registry.clearing number = none := by
  show (cloud.sessions[number]?).bind Session.clearing = none
  cases hsession : cloud.sessions[number]? with
  | none => rfl
  | some session =>
      have hnone := List.all_eq_true.mp h session (List.mem_of_getElem? hsession)
      exact Option.isNone_iff_eq_none.mp hnone

/-- A step registers a session. -/
def Action.registers : Action → Bool
  | .session _ .register => true
  | _ => false

/-- A session is cleaned up before the next one registers. -/
def cleanedSteps : List Action :=
  connectSteps ++ [.session 0 .lost, .session 0 .unregister, .session 0 .disconnected] ++
    reconnectSteps

theorem presence_of_notClearing_cleaned : ∃ cloud',
    ((Process.system sampleCodec sampleHash).restrict Process.NotClearing).Run emptyCloud
      (eventsOf cleanedSteps) cloud' ∧ cloud'.PresenceConsistent := by
  obtain ⟨cloud', hrun⟩ : ∃ cloud', (Process.system sampleCodec sampleHash).Run emptyCloud
      (eventsOf cleanedSteps) cloud' := System.Run.events (by decide +kernel)
  have hcalm : ∀ e ∈ eventsOf cleanedSteps, e.label.registers = true → e.pre.calm = true := by
    decide +kernel
  have hrestrict := hrun.restrict (C := Process.NotClearing) (by
    rintro e he number session route other hlabel - -
    have hregisters : e.label.registers = true := by rw [hlabel]; rfl
    rw [Process.clearing_of_calm (hcalm e he hregisters) other]
    exact nofun)
  exact ⟨cloud', hrestrict, presence_of_notClearing emptyCloud_opened hrestrict⟩

/-- The next session registers while the cleanup is half done. -/
def overlappingSteps : List Action :=
  connectSteps ++ [.session 0 .lost, .session 0 .unregister] ++ reconnectSteps ++
    [.session 0 .disconnected]

/-- The session is registered and its column is cleared. -/
def Process.absent (cloud : Process) : Bool :=
  cloud.calm && cloud.db.installations.any fun row =>
    decide (row.revokedAt = none ∧ row.connectedAt = none ∧
      cloud.relays.lookup row.routeId = some ⟨1⟩)

/-- The column does not always agree with the registry. -/
theorem presence_not_consistent :
    ¬∀ (cloud cloud' : Process) (tr : List (Event Process Action)), cloud.Opened →
      (Process.system sampleCodec sampleHash).Run cloud tr cloud' → cloud'.PresenceConsistent := by
  intro hall
  have hfollow : (System.follow (Process.step sampleCodec sampleHash) emptyCloud
      overlappingSteps).any (fun result => result.2.absent) = true := by
    decide +kernel
  obtain ⟨⟨tr, cloud'⟩, hrun, habsent⟩ := (Option.any_eq_true _ _).mp hfollow
  have hpresence := hall emptyCloud cloud' tr emptyCloud_opened (.of_follow hrun)
  simp only [Process.absent, Bool.and_eq_true, List.any_eq_true, decide_eq_true_eq] at habsent
  obtain ⟨hcalm, row, hrow, hlive, hcolumn, hlookup⟩ := habsent
  have hquiet : ∀ number, cloud'.registry.clearing number ≠ some row.id := by
    intro number
    rw [Process.clearing_of_calm hcalm number]
    exact nofun
  refine (hpresence row hrow hlive hquiet).mpr ?_ hcolumn
  rw [hlookup]
  exact nofun

end Cresix.Cloud
