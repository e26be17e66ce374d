import Cresix.Cloud.Revocation

/-!
# The registry of relays

A route is put into the registry and taken out of it under the lock of the
registry, by the registration of a session, by its cleanup, and by a revocation.
`Registry` is what these steps share, and `step_registry` lists them once.  The
registry never offers a revoked installation, and an entry goes only by the
cleanup of its own session, by a replacement or by a revocation.

The column `connected_at` is cleared after the lock is released, so a cleanup
that is half done clears it for a session that registered in between.
`NotClearing` rules that out.
-/

namespace Cresix.Cloud

open Relay
open Rust (Uuid)
open Transition (System Event)

/-- The installation whose `connected_at` the session has still to clear. -/
def Session.clearing (session : Session) : Option Uuid :=
  match session.task with
  | .unregistered true => some session.installationId
  | _ => none

/-- What registrations, cleanups and revocations share. -/
structure Registry where
  db : Database
  relays : Finmap fun _ : String => RelayRegistration
  revoking : Option Installation
  /-- The sessions whose cleanup is half done. -/
  clearing : Nat → Option Uuid

namespace Process

def registry (cloud : Process) : Registry where
  db := cloud.db
  relays := cloud.relays
  revoking := cloud.revoking
  clearing number := (cloud.sessions[number]?).bind Session.clearing

/-- The ways a step changes the registry. -/
inductive RegistryMove (cloud : Process) : Action → Registry → Prop where
  | rest {a : Action} : RegistryMove cloud a cloud.registry
  | registerInstallation {a : Action} {db : Database} {id account localServerId : Uuid}
      {routeId secretHash : String} {publicId : List UInt8} :
      cloud.db.registerInstallation id account localServerId routeId publicId secretHash =
        some db →
      RegistryMove cloud a { cloud.registry with db }
  | revoke {a : Action} {installation : Installation} {now : Nat} :
      cloud.revoking = none → installation ∈ cloud.db.installations →
      RegistryMove cloud a { cloud.registry with
        db := cloud.db.revoke installation.id now, revoking := some installation }
  | revoked {installation : Installation} :
      cloud.revoking = some installation →
      RegistryMove cloud .revoked { cloud.registry with
        relays := cloud.relays.erase installation.routeId, revoking := none }
  | register {number now : Nat} {session : Session} {route : String} :
      cloud.sessions[number]? = some session →
      cloud.db.activeRoute session.installationId = some route →
      RegistryMove cloud (.session number .register) { cloud.registry with
        db := cloud.db.setConnected session.installationId (some now)
        relays := cloud.relays.insert route ⟨number⟩ }
  | unregister {number : Nat} {session : Session} {route : String} :
      cloud.sessions[number]? = some session → cloud.relays.lookup route = some ⟨number⟩ →
      RegistryMove cloud (.session number .unregister) { cloud.registry with
        relays := cloud.relays.erase route
        clearing := Function.update cloud.registry.clearing number
          (some session.installationId) }
  | disconnected {a : Action} {number : Nat} {id : Uuid} :
      cloud.registry.clearing number = some id →
      RegistryMove cloud a { cloud.registry with
        db := cloud.db.setConnected id none
        clearing := Function.update cloud.registry.clearing number none }

section

variable {cloud cloud' : Process} {a : Action} {number : Nat} {proxy : Proxy}
variable {session session' : Session}

/-! ## Every step is one of them -/

theorem RegistryMove.of_eq (h : cloud'.registry = cloud.registry) :
    RegistryMove cloud a cloud'.registry := by
  rw [h]
  exact .rest

theorem clearing_setSession (hsession : cloud.sessions[number]? = some session) :
    (cloud.setSession number session').registry.clearing =
      Function.update cloud.registry.clearing number session'.clearing := by
  funext other
  rcases eq_or_ne other number with rfl | hne
  · rw [Function.update_self]
    simp only [registry, setSession_self hsession, Option.bind_some]
  · rw [Function.update_of_ne hne]
    simp only [registry, setSession_of_ne hne]

/-- A session goes on, and the database and the registry change with it. -/
theorem registry_setSession (hsession : cloud.sessions[number]? = some session)
    (db : Database) (relays : Finmap fun _ : String => RelayRegistration) :
    (setSession { cloud with db, relays } number session').registry =
      { cloud.registry with
        db, relays
        clearing := Function.update cloud.registry.clearing number session'.clearing } := by
  have hclearing :=
    @clearing_setSession { cloud with db, relays } number session session' hsession
  exact congrArg (fun clearing => { cloud.registry with db, relays, clearing }) hclearing

/-- It neither begins nor ends a cleanup. -/
theorem registry_setSession_eq (hsession : cloud.sessions[number]? = some session)
    (hclearing : session'.clearing = session.clearing) (db : Database)
    (relays : Finmap fun _ : String => RelayRegistration) :
    (setSession { cloud with db, relays } number session').registry =
      { cloud.registry with db, relays } := by
  have hold : cloud.registry.clearing number = session.clearing := by
    simp only [registry, hsession, Option.bind_some]
  rw [registry_setSession hsession, hclearing, ← hold, Function.update_eq_self]

theorem registry_setReply (exchange : ProxyExchange) (reply : Reply) :
    (cloud.setReply exchange reply).registry = cloud.registry := by
  simp [registry]

theorem registry_dropQueue (queue : Option ProxyExchange) :
    (cloud.dropQueue queue).registry = cloud.registry := by
  simp [registry]

/-- A session that has just connected has nothing to clean up. -/
theorem registry_connect (session : Session) (hclearing : session.clearing = none) :
    registry { cloud with sessions := cloud.sessions ++ [session] } = cloud.registry := by
  refine congrArg (fun clearing => { cloud.registry with clearing }) (funext fun number => ?_)
  rw [List.getElem?_append]
  split
  next => rfl
  next hlong =>
    rw [List.getElem?_eq_none (Nat.not_lt.mp hlong)]
    cases number - cloud.sessions.length with
    | zero => exact hclearing
    | succ => rfl

theorem stepProxy_registry {action : ProxyAction}
    (h : cloud.stepProxy number proxy action = some cloud') :
    cloud'.registry = cloud.registry := by
  cases action with
  | send =>
      simp only [stepProxy] at h
      split at h
      next registration request _ =>
        split at h
        next session hsession =>
          obtain ⟨hsession, -⟩ := receiver_eq_some hsession
          split_ifs at h
          cases h
          have hclearing : { session with
              queue := some ⟨request, proxy.deadline, number⟩ }.clearing = session.clearing := rfl
          exact registry_setSession_eq hsession hclearing cloud.db cloud.relays
        next => cases h
      next => cases h
  | _ =>
      simp only [stepProxy] at h
      repeat' split at h
      all_goals first
        | (cases h; rfl)
        | cases h

/-- A session on which no cleanup is half done, before and after. -/
theorem RegistryMove.goOn (hsession : cloud.sessions[number]? = some session)
    (hclearing : session'.clearing = session.clearing) :
    RegistryMove cloud a (cloud.setSession number session').registry :=
  .of_eq (registry_setSession_eq hsession hclearing _ _)

theorem clearing_greet (codec : ControlCodec) (session : Session) {authorization : String}
    (htask : session.task = .hello authorization) (message : Message) :
    (session.greet codec authorization message).clearing = session.clearing := by
  have hnone : session.clearing = none := by simp [Session.clearing, htask]
  rw [hnone]
  unfold Session.greet
  repeat' split
  all_goals rfl

theorem clearing_receive (codec : ControlCodec) (session : Session) (htask : session.task = .idle)
    (message : Message) : (session.receive codec message).clearing = session.clearing := by
  have hnone : session.clearing = none := by simp [Session.clearing, htask]
  rw [hnone]
  unfold Session.receive
  repeat' split
  all_goals simp [Session.clearing, htask]

theorem clearing_afterExchange (session : Session) {exchange : ProxyExchange} {requestId : Uuid}
    {task : ExchangeTask} (htask : session.task = .executing exchange requestId task)
    (result : Except String ProxyResult) :
    (session.afterExchange result).clearing = session.clearing := by
  have hnone : session.clearing = none := by simp [Session.clearing, htask]
  rw [hnone]
  cases result with
  | error => rfl
  | ok =>
      simp only [Session.afterExchange]
      split <;> rfl

theorem stepSession_registry {codec : ControlCodec} {action : SessionAction}
    (hsession : cloud.sessions[number]? = some session)
    (h : cloud.stepSession codec number session action = some cloud') :
    RegistryMove cloud (.session number action) cloud'.registry := by
  cases action with
  | hello message =>
      simp only [stepSession] at h
      split at h
      next htask =>
        cases h
        exact .goOn hsession (clearing_greet codec session htask message)
      next => cases h
  | message message =>
      simp only [stepSession] at h
      split at h
      next htask =>
        cases h
        exact .goOn hsession (clearing_receive codec session htask message)
      next => cases h
  | finish =>
      simp only [stepSession] at h
      split at h
      next result htask =>
        cases h
        rw [registry_setReply]
        exact .goOn hsession (clearing_afterExchange session htask result)
      next => cases h
  | timeout =>
      simp only [stepSession] at h
      split at h
      next => cases h
      next htask =>
        split_ifs at h
        cases h
        rw [registry_setReply]
        exact .goOn hsession (by simp [Session.clearing, htask])
      next => cases h
  | register =>
      simp only [stepSession] at h
      split at h
      next htask =>
        split at h
        next => cases h
        next =>
          split at h
          next =>
            cases h
            exact .goOn hsession (by simp [Session.clearing, htask])
          next route hroute =>
            cases h
            rw [registry_setSession_eq hsession (by simp [Session.clearing, htask])]
            exact .register hsession hroute
      next => cases h
  | unregister =>
      simp only [stepSession] at h
      split at h
      next route htask hroute =>
        split at h
        next => cases h
        next =>
          split at h
          next hlookup =>
            cases h
            have hmove := RegistryMove.unregister hsession hlookup
            rwa [registry_setSession hsession]
          next =>
            cases h
            exact .goOn hsession (by simp [Session.clearing, htask])
      next => cases h
  | disconnected =>
      simp only [stepSession] at h
      split at h
      next removed htask =>
        cases h
        rw [registry_dropQueue]
        cases removed with
        | false => exact .goOn hsession (by simp [Session.clearing, htask])
        | true =>
            have hclearing : cloud.registry.clearing number = some session.installationId := by
              simp [registry, hsession, Session.clearing, htask]
            rw [registry_setSession hsession]
            exact .disconnected hclearing
      next => cases h
  | take | send | receive | abort | lost | noSenders =>
      simp only [stepSession] at h
      repeat' split at h
      all_goals cases h
      all_goals
        refine .goOn hsession ?_
        simp [Session.clearing, Session.take, Session.execute, *]

theorem step_registry {codec : ControlCodec} {hash : List UInt8 → String}
    (h : cloud.step codec hash a = some cloud') : RegistryMove cloud a cloud'.registry := by
  cases a with
  | tick time =>
      cases h
      exact .rest
  | registerInstallation id account localServerId routeId publicId secretHash =>
      obtain ⟨db, hdb, rfl⟩ := Option.map_eq_some_iff.mp h
      exact .registerInstallation hdb
  | revoke account id =>
      simp only [step] at h
      split at h
      next => cases h
      next hlock =>
        rw [Bool.not_eq_true, Option.isSome_eq_false_iff, Option.isNone_iff_eq_none] at hlock
        split at h
        next installation _ hfind =>
          cases h
          obtain ⟨hmem, rfl⟩ := Database.installationById_eq_some hfind
          exact .revoke hlock hmem
        next => cases h
  | revoked =>
      simp only [step] at h
      split at h
      next installation hlock =>
        cases h
        exact .revoked hlock
      next => cases h
  | request route request =>
      cases h
      exact .rest
  | proxy number action =>
      simp only [step] at h
      split at h
      next => exact .of_eq (stepProxy_registry h)
      next => cases h
  | connect token =>
      simp only [step] at h
      split at h
      next =>
        cases h
        exact .of_eq (registry_connect _ rfl)
      next => cases h
  | session number action =>
      simp only [step] at h
      split at h
      next session hsession => exact stepSession_registry hsession h
      next => cases h

end

end Process

/-! ## Rows -/

namespace Database

variable {db db' : Database} {row : Installation} {id account localServerId : Uuid}
variable {routeId secretHash : String} {publicId : List UInt8}

/-- The installation of an active route is not revoked. -/
theorem activeRoute_row (h : db.activeRoute id = some routeId) :
    ∃ row ∈ db.installations, row.id = id ∧ row.routeId = routeId ∧ row.revokedAt = none := by
  obtain ⟨row, hfind, rfl⟩ := Option.map_eq_some_iff.mp h
  have hactive := List.find?_some hfind
  simp only [Bool.and_eq_true, decide_eq_true_eq, Option.isNone_iff_eq_none] at hactive
  exact ⟨row, List.mem_of_find?_eq_some hfind, hactive.1.1, rfl, hactive.1.2⟩

/-- A row after a registration is an old one or the new one. -/
theorem mem_registerInstallation
    (h : db.registerInstallation id account localServerId routeId publicId secretHash = some db')
    (hrow : row ∈ db'.installations) :
    row ∈ db.installations ∨ (row = ⟨id, account, localServerId, routeId, none, none⟩ ∧
      ∀ old ∈ db.installations, old.id ≠ id ∧ old.routeId ≠ routeId) := by
  unfold registerInstallation at h
  split at h
  next installations credentials hinsert _ =>
    cases h
    obtain ⟨hfresh, rfl⟩ := Table.insert?_eq_some hinsert
    rcases List.mem_append.mp hrow with hold | hnew
    · exact .inl hold
    · refine .inr ⟨List.mem_singleton.mp hnew, ?_⟩
      intro old hold
      have hclash := hfresh old hold
      simp only [clash, Bool.or_eq_false_iff, decide_eq_false_iff_not] at hclash
      exact ⟨fun he => hclash.1.1 he.symm, fun he => hclash.1.2 he.symm⟩
  next => cases h

/-- A row after a revocation is revoked, or it is an old one. -/
theorem mem_revoke {now : Nat} (hrow : row ∈ (db.revoke id now).installations) :
    ∃ old ∈ db.installations, row.id = old.id ∧ row.routeId = old.routeId ∧
      (if old.id = id then row.revokedAt ≠ none else row = old) := by
  obtain ⟨old, hold, rfl⟩ := Table.mem_update hrow
  refine ⟨old, hold, ?_⟩
  by_cases hid : old.id = id <;> simp [hid]

/-- A row after an update of `connected_at` is updated, or it is an old one. -/
theorem mem_setConnected {at' : Option Nat} (hrow : row ∈ (db.setConnected id at').installations) :
    ∃ old ∈ db.installations, row.id = old.id ∧ row.routeId = old.routeId ∧
      row.revokedAt = old.revokedAt ∧
      row.connectedAt = if old.id = id ∧ old.revokedAt = none then at' else old.connectedAt := by
  obtain ⟨old, hold, rfl⟩ := Table.mem_update hrow
  refine ⟨old, hold, ?_⟩
  by_cases hid : old.id = id ∧ old.revokedAt = none
  · simp [hid.1, hid.2]
  · have hfalse : ¬(old.id = id && old.revokedAt.isNone) = true := by
      simpa using hid
    simp [hid, hfalse]

end Database

/-! ## The registry is safe -/

/-- A revoked installation that is still in the registry is being revoked. -/
structure Registry.Safe (r : Registry) : Prop where
  keyed : r.db.Keyed
  offered : ∀ row ∈ r.db.installations, row.revokedAt ≠ none → r.relays.lookup row.routeId ≠ none →
    ∃ installation, r.revoking = some installation ∧ installation.routeId = row.routeId

/-- The step takes the entry of a route away. -/
inductive Ends (e : Event Process Action) (route : String) (registration : RelayRegistration) :
    Prop where
  /-- Its own session is cleaned up. -/
  | cleanup : e.label = .session registration.sessionId .unregister →
      Ends e route registration
  /-- Another session registers on the route. -/
  | replaced {number : Nat} : e.label = .session number .register →
      number ≠ registration.sessionId → e.post.relays.lookup route = some ⟨number⟩ →
      Ends e route registration
  /-- The installation is revoked. -/
  | revoked {installation : Installation} : e.label = .revoked →
      e.pre.revoking = some installation → installation.routeId = route →
      Ends e route registration

section

variable {codec : ControlCodec} {hash : List UInt8 → String} {cloud cloud' : Process}
variable {tr : List (Event Process Action)} {a : Action} {r : Registry}

theorem Registry.Safe.move (h : cloud.registry.Safe) (hmove : cloud.RegistryMove a r) :
    r.Safe := by
  cases hmove with
  | rest => exact h
  | registerInstallation hdb =>
      refine ⟨(Database.keeps_registerInstallation hdb).keyed h.keyed, ?_⟩
      intro row hrow hrevoked hlookup
      rcases Database.mem_registerInstallation hdb hrow with hold | ⟨rfl, -⟩
      · exact h.offered row hold hrevoked hlookup
      · exact absurd rfl hrevoked
  | @revoke _ installation now hlock hmem =>
      refine ⟨(Database.keeps_revoke _ _ _).keyed h.keyed, ?_⟩
      intro row hrow hrevoked hlookup
      obtain ⟨old, hold, hid, hroute, hcase⟩ := Database.mem_revoke hrow
      split at hcase
      next hown =>
        refine ⟨installation, rfl, ?_⟩
        rw [hroute, h.keyed.id old hold installation hmem hown]
      next =>
        subst hcase
        obtain ⟨other, hother, -⟩ := h.offered row hold hrevoked hlookup
        rw [show cloud.registry.revoking = cloud.revoking from rfl, hlock] at hother
        cases hother
  | @revoked installation hlock =>
      refine ⟨h.keyed, ?_⟩
      intro row hrow hrevoked hlookup
      dsimp only at hlookup
      rw [Finmap.lookup_erase_eq_ite] at hlookup
      split_ifs at hlookup with hroute
      · exact absurd rfl hlookup
      · obtain ⟨other, hother, hsame⟩ := h.offered row hrow hrevoked hlookup
        cases hlock.symm.trans hother
        exact absurd hsame.symm hroute
  | @register number now session route hsession hactive =>
      refine ⟨(Database.keeps_setConnected _ _ _).keyed h.keyed, ?_⟩
      intro row hrow hrevoked hlookup
      obtain ⟨old, hold, -, hroute, hkept, -⟩ := Database.mem_setConnected hrow
      dsimp only at hlookup
      rw [Finmap.lookup_insert_eq_ite] at hlookup
      split_ifs at hlookup with heq
      · obtain ⟨active, hmem, -, hown, hlive⟩ := Database.activeRoute_row hactive
        rw [h.keyed.route old hold active hmem (hroute.symm.trans (heq.trans hown.symm)),
          hlive] at hkept
        exact absurd hkept hrevoked
      · rw [hroute] at hlookup ⊢
        exact h.offered old hold (hkept ▸ hrevoked) hlookup
  | unregister _ _ =>
      refine ⟨h.keyed, ?_⟩
      intro row hrow hrevoked hlookup
      dsimp only at hlookup
      rw [Finmap.lookup_erase_eq_ite] at hlookup
      split_ifs at hlookup
      · exact absurd rfl hlookup
      · exact h.offered row hrow hrevoked hlookup
  | disconnected _ =>
      refine ⟨(Database.keeps_setConnected _ _ _).keyed h.keyed, ?_⟩
      intro row hrow hrevoked hlookup
      obtain ⟨old, hold, -, hroute, hkept, -⟩ := Database.mem_setConnected hrow
      rw [hroute] at hlookup ⊢
      exact h.offered old hold (hkept ▸ hrevoked) hlookup

/-- An entry stays, or the step ends it. -/
theorem Process.RegistryMove.lookup (hmove : cloud.RegistryMove a cloud'.registry)
    {route : String} {registration : RelayRegistration}
    (hlookup : cloud.relays.lookup route = some registration) :
    cloud'.relays.lookup route = some registration ∨ Ends ⟨cloud, a, cloud'⟩ route registration := by
  have hrelays : ∀ relays, cloud'.registry.relays = relays → cloud'.relays = relays := fun _ h => h
  generalize hr : cloud'.registry = r at hmove
  cases hmove with
  | rest | registerInstallation _ | revoke _ _ | disconnected _ =>
      refine .inl ?_
      rw [hrelays _ (congrArg Registry.relays hr)]
      exact hlookup
  | @revoked installation hlock =>
      rw [hrelays _ (congrArg Registry.relays hr), Finmap.lookup_erase_eq_ite]
      split
      next hroute => exact .inr (.revoked rfl hlock hroute.symm)
      next => exact .inl hlookup
  | @register number now session own hsession hactive =>
      have hnew := hrelays _ (congrArg Registry.relays hr)
      by_cases hroute : route = own
      · subst hroute
        have hentry : cloud'.relays.lookup route = some ⟨number⟩ := by
          rw [hnew, Finmap.lookup_insert]
        rcases eq_or_ne number registration.sessionId with rfl | hne
        · exact .inl hentry
        · exact .inr (.replaced rfl hne hentry)
      · refine .inl ?_
        rw [hnew, Finmap.lookup_insert_of_ne _ hroute]
        exact hlookup
  | @unregister number session own hsession hown =>
      rw [hrelays _ (congrArg Registry.relays hr), Finmap.lookup_erase_eq_ite]
      split
      next hroute =>
        subst hroute
        cases hlookup.symm.trans hown
        exact .inr (.cleanup rfl)
      next => exact .inl hlookup

/-- An entry stays through a run, or a step of the run ends it. -/
theorem lookup_of_run (hrun : (Process.system codec hash).Run cloud tr cloud') {route : String}
    {registration : RelayRegistration} (hlookup : cloud.relays.lookup route = some registration) :
    cloud'.relays.lookup route = some registration ∨ ∃ e ∈ tr, Ends e route registration := by
  induction hrun with
  | refl => exact .inl hlookup
  | snoc _ hstep ih =>
      rcases ih with hkept | ⟨e, he, hends⟩
      · rcases (Process.step_registry hstep).lookup hkept with hstays | hends
        · exact .inl hstays
        · exact .inr ⟨_, List.mem_append_right _ List.mem_cons_self, hends⟩
      · exact .inr ⟨e, List.mem_append_left _ he, hends⟩

/-- A cleanup leaves the registrations of other sessions as they are. -/
theorem lookup_of_unregister {number : Nat} {route : String} {registration : RelayRegistration}
    (hmove : cloud.RegistryMove (.session number .unregister) cloud'.registry)
    (hother : registration.sessionId ≠ number) :
    cloud'.relays.lookup route = some registration ↔
      cloud.relays.lookup route = some registration := by
  have hrelays : cloud'.relays = cloud'.registry.relays := rfl
  rw [hrelays]
  generalize cloud'.registry = r at hmove
  cases hmove with
  | rest | registerInstallation _ | revoke _ _ | disconnected _ => exact Iff.rfl
  | unregister _ hown =>
      dsimp only
      rw [Finmap.lookup_erase_eq_ite]
      split
      next hroute =>
        subst hroute
        rw [hown]
        refine iff_of_false nofun fun heq => hother ?_
        cases heq
        rfl
      next => exact Iff.rfl

theorem Process.Started.safe (h : cloud.Started) : cloud.registry.Safe := by
  refine ⟨h.keyed, ?_⟩
  intro row _ _ hlookup
  rw [show cloud.registry.relays = cloud.relays from rfl, h.relays] at hlookup
  exact absurd (Finmap.lookup_empty _) hlookup

/-- In every run: while its lock is free the registry holds no route of a revoked installation,
every entry is one of a session of the installation that owns the route, a cleanup leaves the
entries of other sessions as they are, and an entry stays until the cleanup of its session, a
replacement or a revocation. -/
theorem registry_safety (hstart : cloud.Started)
    (hrun : (Process.system codec hash).Run cloud tr cloud') :
    (cloud'.revoking = none → ∀ row ∈ cloud'.db.installations, row.revokedAt ≠ none →
      cloud'.relays.lookup row.routeId = none) ∧
    (∀ route registration, cloud'.relays.lookup route = some registration →
      cloud'.Registered route registration) ∧
    (∀ e ∈ tr, ∀ number, e.label = .session number .unregister →
      ∀ route registration, registration.sessionId ≠ number →
        (e.post.relays.lookup route = some registration ↔
          e.pre.relays.lookup route = some registration)) ∧
    ∀ route registration, cloud'.relays.lookup route = some registration →
      ∀ later cloud'', (Process.system codec hash).Run cloud' later cloud'' →
        cloud''.relays.lookup route = some registration ∨
          ∃ e ∈ later, Ends e route registration := by
  have hsafe : cloud'.registry.Safe :=
    System.Run.invariant (I := fun cloud => cloud.registry.Safe)
      (fun _ _ _ h hstep => h.move (Process.step_registry hstep)) hrun hstart.safe
  refine ⟨?_, ?_, ?_, ?_⟩
  · intro hfree row hrow hrevoked
    by_contra hlookup
    obtain ⟨installation, hlock, -⟩ := hsafe.offered row hrow hrevoked hlookup
    cases hfree.symm.trans hlock
  · intro route registration hlookup
    exact (registryInvariant_of_run hstart.registryInvariant hrun).registered hlookup
  · intro e he number hlabel route registration hother
    have hmove := Process.step_registry (hrun.step_of_mem he)
    rw [hlabel] at hmove
    exact lookup_of_unregister hmove hother
  · intro route registration hlookup later cloud'' hlater
    exact lookup_of_run hlater hlookup

end

/-! ### A session that is replaced -/

/-- The connector connects again. -/
def reconnectSteps : List Action :=
  [.connect RelaySessionState.testToken.value,
    .session 1 (.hello (.text (sampleCodec.toString
      (.clientHello ⟨1, RelaySessionState.testToken⟩)))),
    .session 1 .register]

/-- A session registers, another one replaces it, and the first one is cleaned up. -/
def replacedSteps : List Action :=
  connectSteps ++ reconnectSteps ++ [.session 0 .lost, .session 0 .unregister]

/-- The first session is cleaned up. -/
def Action.isCleanup : Action → Bool
  | .session 0 .unregister => true
  | _ => false

theorem Action.eq_of_isCleanup {a : Action} (h : a.isCleanup = true) :
    a = .session 0 .unregister := by
  unfold Action.isCleanup at h
  split at h
  next => rfl
  next => cases h

theorem registry_safety_replaced : ∃ cloud',
    (Process.system sampleCodec sampleHash).Run emptyCloud (eventsOf replacedSteps) cloud' ∧
    ∃ e ∈ eventsOf replacedSteps, e.label = .session 0 .unregister ∧
      e.post.relays.lookup "home" = some ⟨1⟩ := by
  obtain ⟨cloud', hrun⟩ : ∃ cloud', (Process.system sampleCodec sampleHash).Run emptyCloud
      (eventsOf replacedSteps) cloud' := System.Run.events (by decide)
  have hcleanup : (eventsOf replacedSteps)[8]?.map (fun e =>
      (e.label.isCleanup, e.pre.relays.lookup "home")) = some (true, some ⟨1⟩) := by
    decide +kernel
  obtain ⟨e, he, hboth⟩ := Option.map_eq_some_iff.mp hcleanup
  obtain ⟨hlabel, hhome⟩ := Prod.mk.inj hboth
  have hunregister := Action.eq_of_isCleanup hlabel
  have hmem := List.mem_of_getElem? he
  obtain ⟨-, -, hothers, -⟩ := registry_safety emptyCloud_started hrun
  exact ⟨cloud', hrun, e, hmem, hunregister,
    (hothers e hmem 0 hunregister "home" ⟨1⟩ (by decide)).mpr hhome⟩

end Cresix.Cloud
