import Cresix.Server.Steps

/-!
# Revocation and expiry are permanent

What authentication lets through is good at that moment (`authenticate_run`,
`authenticateOpaqueToken_run`).  Rows keep what was revoked and the expiries
that were reached, and keys are keys, so nothing that was over in an earlier
state is good in a later one.
-/

namespace Cresix.Server

open Concurrent (Program)
open Transition (System Event)

/-- The credential is over for good. -/
def CredentialRow.Dead (now : Instant) (row : CredentialRow) : Prop :=
  row.revokedAt.isSome ∨ row.expiresAt ≤ now

/-! ## What authentication lets through -/

section

variable {config : Config} {headers : Headers} {s t : Store} {inputs rest : Nat → Input}

theorem run_underLock {ε α : Type} {fault : ε}
    {work : Input → Readings → Database → Except ε (α × Database)} {value : α}
    (h : (underLock fault work).run inputs s = (.ok value, t, rest)) :
    ∃ db, work (inputs 0) ((inputs 0).readings s.clock) s.db = .ok (value, db) ∧
      t = ⟨db, ((inputs 0).readings s.clock).third⟩ ∧ rest = fun n => inputs (n + 1) := by
  unfold underLock at h
  rw [Program.run_step] at h
  rcases attempt_cases fault work (inputs 0) s with ⟨value', db, hwork, heq⟩ | ⟨error, heq⟩
  · rw [heq] at h
    cases h
    exact ⟨db, hwork, rfl, rfl⟩
  · rw [heq] at h
    cases h

theorem run_query {α : Type} {ask : Readings → Database → Outcome α} {value : α}
    (h : (query ask).run inputs s = (.ok value, t, rest)) :
    ask ((inputs 0).readings s.clock) s.db = .ok value := by
  unfold query transaction at h
  obtain ⟨db, hwork, _⟩ := run_underLock h
  obtain ⟨value', hask, heq⟩ := bind_eq_ok.mp hwork
  cases heq
  exact hask

theorem authenticate_run {csrf : Bool} {p : Principal}
    (h : (authenticate config headers csrf).run inputs s = (.ok p, t, rest)) :
    ∃ token, cookie headers sessionCookie = some token ∧
      s.db.sessionPrincipal (config.hash token) ((inputs 0).readings s.clock).first = some p := by
  obtain ⟨_, _, h⟩ := Program.run_check_bind_eq_ok.mp h
  obtain ⟨token, htoken, h⟩ := Program.run_check_bind_eq_ok.mp h
  obtain ⟨p', _, _, hquery, h⟩ := Program.run_bind_eq_ok.mp h
  obtain ⟨_, _, h⟩ := Program.run_check_bind_eq_ok.mp h
  cases h
  exact ⟨token, orElse_eq_ok.mp htoken, orElse_eq_ok.mp (run_query hquery)⟩

theorem Database.tokenOwner_eq_some {db : Database} {publicId : String}
    {expected : CredentialType} {now : Instant} {row : CredentialRow} {user : UserRow}
    (h : db.tokenOwner publicId expected now = some (row, user)) :
    row ∈ db.credentials ∧ row.publicId = publicId ∧ row.credentialType = expected ∧
      db.credentialLive now row = true ∧ user ∈ db.users ∧ user.id = row.userId := by
  obtain ⟨row', hfind, h⟩ := Option.bind_eq_some_iff.mp h
  obtain ⟨user', huser, h⟩ := Option.bind_eq_some_iff.mp h
  cases h
  have hrow : (row.publicId = publicId ∧ row.credentialType = expected) ∧
      db.credentialLive now row = true := by
    simpa using List.find?_some hfind
  have huser' : user.id = row.userId ∧ user.revokedAt = none := by
    simpa using List.find?_some huser
  exact ⟨List.mem_of_find?_eq_some hfind, hrow.1.1, hrow.1.2, hrow.2,
    List.mem_of_find?_eq_some huser, huser'.1⟩

theorem authenticateOpaqueToken_run {token : String} {expected : CredentialType}
    {scope : CredentialScope} {p : TokenPrincipal}
    (h : (authenticateOpaqueToken config token expected scope).run inputs s = (.ok p, t, rest)) :
    ∃ publicId row user, parseOpaqueToken token expected = .ok publicId ∧
      s.db.tokenOwner publicId expected ((inputs 0).readings s.clock).first = some (row, user) ∧
      secureEq row.verifier (config.hash token) = true ∧ row.scopes.contains scope = true ∧
      p = ⟨user.id, user.displayName, row.workspaceId, row.projectId⟩ := by
  obtain ⟨publicId, hparse, h⟩ := Program.run_check_bind_eq_ok.mp h
  obtain ⟨db, hwork, _⟩ := run_underLock h
  obtain ⟨⟨row, user⟩, howner, hwork⟩ := bind_eq_ok.mp hwork
  obtain ⟨_, hverifier, hwork⟩ := bind_eq_ok.mp hwork
  obtain ⟨_, hscope, hwork⟩ := bind_eq_ok.mp hwork
  cases hwork
  exact ⟨publicId, row, user, hparse, orElse_eq_ok.mp howner, require_eq_ok.mp hverifier,
    require_eq_ok.mp hscope, rfl⟩

end

/-! ## What is over stays over -/

section

variable {s t : Store} {now : Instant}

/-- The user of the row was revoked. -/
def Database.UserRevoked (db : Database) (userId : String) : Prop :=
  ∃ user ∈ db.users, user.id = userId ∧ user.revokedAt.isSome

/-- The device was revoked. -/
def Database.DeviceRevoked (db : Database) (deviceId : String) : Prop :=
  ∃ device ∈ db.devices, device.id = deviceId ∧ device.revokedAt.isSome

theorem Evolves.userRevoked (h : Evolves s t) {userId : String}
    (hrevoked : s.db.UserRevoked userId) : t.db.UserRevoked userId := by
  obtain ⟨user, hmem, hid, hrevoked⟩ := hrevoked
  obtain ⟨user', hmem', hkept⟩ := h.users.mem hmem
  exact ⟨user', hmem', hkept.id.trans hid, hkept.revoked hrevoked⟩

theorem Evolves.deviceRevoked (h : Evolves s t) {deviceId : String}
    (hrevoked : s.db.DeviceRevoked deviceId) : t.db.DeviceRevoked deviceId := by
  obtain ⟨device, hmem, hid, hrevoked⟩ := hrevoked
  obtain ⟨device', hmem', hkept⟩ := h.devices.mem hmem
  exact ⟨device', hmem', hkept.id.trans hid, hkept.revoked hrevoked⟩

/-- A session that is over is still there, over, with the expiry it had. -/
theorem Evolves.session_dead (h : Evolves s t) {row : SessionRow} (hrow : row ∈ s.db.sessions)
    (hdead : row.Dead s.clock) :
    ∃ row' ∈ t.db.sessions, SessionRow.Kept s.clock row row' ∧ row'.expiresAt = row.expiresAt ∧
      row'.Dead t.clock := by
  obtain ⟨row', hrow', hkept⟩ := h.sessions.mem hrow
  exact ⟨row', hrow', hkept, hkept.expiry hdead, hdead.kept hkept h.clock⟩

theorem Database.not_userLive (hwf : t.db.WellFormed) {userId : String}
    (hrevoked : t.db.UserRevoked userId) : t.db.userLive userId = false := by
  obtain ⟨user, hmem, hid, hrevoked⟩ := hrevoked
  refine List.any_eq_false.mpr fun other hother hlive => ?_
  obtain ⟨hsame, hnone⟩ := Bool.and_eq_true_iff.mp hlive
  rw [hwf.users user hmem other hother (hid.trans (of_decide_eq_true hsame).symm)] at hrevoked
  rw [Option.isNone_iff_eq_none.mp hnone] at hrevoked
  cases hrevoked

theorem Database.not_deviceLive (hwf : t.db.WellFormed) {deviceId : String}
    (hrevoked : t.db.DeviceRevoked deviceId) : t.db.deviceLive deviceId = false := by
  obtain ⟨device, hmem, hid, hrevoked⟩ := hrevoked
  refine List.any_eq_false.mpr fun other hother hlive => ?_
  obtain ⟨hsame, hnone⟩ := Bool.and_eq_true_iff.mp hlive
  rw [hwf.devices device hmem other hother (hid.trans (of_decide_eq_true hsame).symm)] at hrevoked
  rw [Option.isNone_iff_eq_none.mp hnone] at hrevoked
  cases hrevoked

theorem Database.deviceOf_revoked (hwf : t.db.WellFormed) {deviceId : String}
    (hrevoked : t.db.DeviceRevoked deviceId) :
    (t.db.deviceOf (some deviceId)).all (·.revokedAt.isNone) = false := by
  obtain ⟨device, hmem, hid, hrevoked⟩ := hrevoked
  cases hfind : t.db.deviceOf (some deviceId) with
  | none =>
      have hno := List.find?_eq_none.mp hfind device hmem
      rw [decide_eq_true hid] at hno
      exact absurd rfl hno
  | some other =>
      have hsame : other.id = deviceId := by simpa using List.find?_some hfind
      rw [hwf.devices other (List.mem_of_find?_eq_some hfind) device hmem (hsame.trans hid.symm)]
      show device.revokedAt.isNone = false
      rw [← Option.not_isSome, hrevoked]
      rfl

/-- A session that is good now was good before, and so were its user and its
device. -/
theorem Evolves.live_session (h : Evolves s t) (hwf : t.db.WellFormed) {row : SessionRow}
    (hrow : row ∈ t.db.sessions) (hlive : t.db.sessionLive now row = true)
    (hnow : t.clock ≤ now) :
    (∀ old ∈ s.db.sessions, old.id = row.id ∨ old.tokenHash = row.tokenHash →
      ¬ old.Dead s.clock) ∧
    ¬ s.db.UserRevoked row.userId ∧
    ∀ deviceId, row.deviceId = some deviceId → ¬ s.db.DeviceRevoked deviceId := by
  simp only [Database.sessionLive, Bool.and_eq_true, decide_eq_true_eq] at hlive
  obtain ⟨⟨⟨hnone, huser⟩, hdevice⟩, hexpiry⟩ := hlive
  refine ⟨fun old hold hsame hdead => ?_, fun hrevoked => ?_, fun deviceId hid hrevoked => ?_⟩
  · obtain ⟨row', hrow', hkept, _, hdead'⟩ := h.session_dead hold hdead
    have heq : row' = row := by
      rcases hsame with hid | htoken
      · exact hwf.sessions row' hrow' row hrow (hkept.id.trans hid)
      · exact hwf.tokens row' hrow' row hrow (hkept.tokenHash.trans htoken)
    rw [heq] at hdead'
    rcases hdead' with hrevoked | hexpired
    · rw [Option.isNone_iff_eq_none.mp hnone] at hrevoked
      cases hrevoked
    · exact absurd (hexpired.trans hnow) (not_le.mpr hexpiry)
  · rw [Database.not_userLive hwf (h.userRevoked hrevoked)] at huser
    cases huser
  · rw [hid, Database.deviceOf_revoked hwf (h.deviceRevoked hrevoked)] at hdevice
    cases hdevice

/-- A credential that is good now was good before, and so were its user and its
device. -/
theorem Evolves.live_credential (h : Evolves s t) (hwf : t.db.WellFormed) {row : CredentialRow}
    (hrow : row ∈ t.db.credentials) (hlive : t.db.credentialLive now row = true)
    (hnow : t.clock ≤ now) :
    (∀ old ∈ s.db.credentials, old.publicId = row.publicId → ¬ old.Dead s.clock) ∧
    ¬ s.db.UserRevoked row.userId ∧
    ∀ deviceId, row.deviceId = some deviceId → ¬ s.db.DeviceRevoked deviceId := by
  simp only [Database.credentialLive, Bool.and_eq_true, decide_eq_true_eq] at hlive
  obtain ⟨⟨⟨hnone, hexpiry⟩, huser⟩, hdevice⟩ := hlive
  refine ⟨fun old hold hsame hdead => ?_, fun hrevoked => ?_, fun deviceId hid hrevoked => ?_⟩
  · obtain ⟨row', hrow', hkept⟩ := h.credentials.mem hold
    have heq : row' = row := hwf.credentials row' hrow' row hrow (hkept.publicId.trans hsame)
    rcases hdead with hrevoked | hexpired
    · have hrevoked' := hkept.revoked hrevoked
      rw [heq, Option.isNone_iff_eq_none.mp hnone] at hrevoked'
      cases hrevoked'
    · rw [← hkept.expiresAt, heq] at hexpired
      exact absurd ((hexpired.trans h.clock).trans hnow) (not_le.mpr hexpiry)
  · rw [Database.not_userLive hwf (h.userRevoked hrevoked)] at huser
    cases huser
  · rw [hid] at hdevice
    have hdevice' : t.db.deviceLive deviceId = true := hdevice
    rw [Database.not_deviceLive hwf (h.deviceRevoked hrevoked)] at hdevice'
    cases hdevice'

end

/-! ## Over every run -/

section

variable {config : Config} {x y : Process} {tr : List (Event Process Action)}

/-- What was revoked or has expired in a state is refused in every later one:
the session, the credential, and every session and credential of the user and
of the device.  A session that is over keeps its expiry. -/
theorem revocation_permanent (hx : (system config).Reachable x)
    (hrun : (system config).Run x tr y) :
    (∀ headers csrf inputs p t rest,
      (authenticate config headers csrf).run inputs y.pool.state = (.ok p, t, rest) →
      (∀ row ∈ x.db.sessions, (row.id = p.sessionId ∨
        (cookie headers sessionCookie).map config.hash = some row.tokenHash) →
        ¬ row.Dead x.clock) ∧
      ¬ x.db.UserRevoked p.userId ∧
      ∀ deviceId, p.deviceId = some deviceId → ¬ x.db.DeviceRevoked deviceId) ∧
    (∀ token expected scope inputs p t rest,
      (authenticateOpaqueToken config token expected scope).run inputs y.pool.state =
        (.ok p, t, rest) →
      ¬ x.db.UserRevoked p.userId ∧
      ∃ row ∈ y.db.credentials, parseOpaqueToken token expected = .ok row.publicId ∧
        row.userId = p.userId ∧
        (∀ old ∈ x.db.credentials, old.publicId = row.publicId → ¬ old.Dead x.clock) ∧
        ∀ deviceId, row.deviceId = some deviceId → ¬ x.db.DeviceRevoked deviceId) ∧
    (∀ row ∈ x.db.sessions, row.Dead x.clock →
      ∃ row' ∈ y.db.sessions, row'.id = row.id ∧ row'.expiresAt = row.expiresAt ∧
        row'.Dead y.clock) := by
  have hevolves := evolves_of_run hx hrun
  have hwf := wellFormed_of_reachable (hx.run hrun)
  refine ⟨?_, ?_, ?_⟩
  · intro headers csrf inputs p t rest h
    obtain ⟨token, htoken, hp⟩ := authenticate_run h
    obtain ⟨row, hrow, hhash, hlive, hid, huser, hdevice⟩ :=
      Database.sessionPrincipal_eq_some hp
    obtain ⟨hdead, huserLive, hdeviceLive⟩ :=
      hevolves.live_session hwf hrow hlive (Input.le_first _ _)
    refine ⟨fun old hold hsame => hdead old hold ?_, huser ▸ huserLive, hdevice ▸ hdeviceLive⟩
    rcases hsame with hsame | hsame
    · exact .inl (hsame.trans hid)
    · rw [htoken] at hsame
      exact .inr ((Option.some.inj hsame).symm.trans hhash.symm)
  · intro token expected scope inputs p t rest h
    obtain ⟨publicId, row, user, hparse, howner, _, _, rfl⟩ := authenticateOpaqueToken_run h
    obtain ⟨hrow, hpublic, _, hlive, _, huser⟩ := Database.tokenOwner_eq_some howner
    obtain ⟨hdead, huserLive, hdeviceLive⟩ :=
      hevolves.live_credential hwf hrow hlive (Input.le_first _ _)
    exact ⟨huser ▸ huserLive, row, hrow, hpublic ▸ hparse, huser.symm, hdead, hdeviceLive⟩
  · intro row hrow hdead
    obtain ⟨row', hrow', hkept, hexpiry, hdead'⟩ := hevolves.session_dead hrow hdead
    exact ⟨row', hrow', hkept.id, hexpiry, hdead'⟩

end

/-- The session of a claim is refused after thirty days. -/
theorem revocation_permanent_expired :
    ∃ x y tr, (system sampleConfig).Reachable x ∧ (system sampleConfig).Run x tr y ∧
      (∃ row ∈ x.db.sessions, row.tokenHash = sampleConfig.hash "token-1" ∧ row.Dead x.clock) ∧
      ∀ csrf inputs p t rest,
        (authenticate sampleConfig sampleHeaders csrf).run inputs y.pool.state ≠
          (.ok p, t, rest) := by
  have hdata : (stateAfter sampleConfig (sampleClaim ++ [.tick 2592000000000000])).map
      (fun x => (x.db.sessions, x.clock)) =
      some ([⟨"session-1", "user-1", some "device-1", sampleConfig.hash "token-1",
        sampleConfig.hash "csrf-1", 0, 2592000000000000, none⟩], 2592000000000000) := by
    decide
  obtain ⟨x, hx, hrow⟩ := Option.map_eq_some_iff.mp hdata
  obtain ⟨hsessions, hclock⟩ := Prod.mk.inj hrow
  have hreachable := reachable_of_stateAfter hx
  have hrun := System.Run.single (M := system sampleConfig) (s := x) (a := .stop) rfl
  obtain ⟨row, hmem, hhash, hexpiry⟩ : ∃ row ∈ x.db.sessions,
      row.tokenHash = sampleConfig.hash "token-1" ∧ row.expiresAt = x.clock := by
    have hclock' : x.clock = 2592000000000000 := hclock
    rw [hsessions, hclock']
    exact ⟨_, List.mem_cons_self, rfl, rfl⟩
  have hdead : row.Dead x.clock := .inr (le_of_eq hexpiry)
  refine ⟨x, _, _, hreachable, hrun, ⟨row, hmem, hhash, hdead⟩, ?_⟩
  intro csrf inputs p t rest h
  have hcookie : cookie sampleHeaders sessionCookie = some "token-1" := by decide
  obtain ⟨hlive, _⟩ := (revocation_permanent hreachable hrun).1 _ _ _ _ _ _ h
  exact hlive row hmem (.inr (by rw [hcookie, hhash]; rfl)) hdead

end Cresix.Server
