import Cresix.Server.Effect

/-!
# What the handlers guarantee

A handler may rely on the tables evolving between its sections, and on more,
if `R` says so.  In return each of its sections leaves the database alone or
has an effect that fits its endpoint.  When the endpoint needs a cookie
session, the request came with the token of a session that was good in an
earlier state, and the user of that session has the role the endpoint asks for
in the state that is changed.
-/

namespace Cresix.Server

open Concurrent (Program)

/-! ## Permission -/

/-- The user has the role in the workspace of the project. -/
def Database.hasProjectRole (db : Database) (userId id minimum : String) : Bool :=
  (db.projectWorkspace id).any fun workspaceId => db.hasRole userId workspaceId minimum

/-- The endpoint changes something for the user of a cookie session. -/
def Endpoint.mutates : Endpoint → Bool
  | .logout | .createInvite _ | .revokePeer _ | .revokeDevice _ | .revokeSession _
  | .createCredential _ | .revokeCredential _ | .createWorkspace _ | .updateWorkspace _ _
  | .createProject _ | .updateProject _ _ | .createPr _ _ | .createDeployment _ _
  | .createRun _ _ | .createSchedule _ _ | .createSecretMetadata _ _ => true
  | _ => false

theorem Endpoint.mutates_of_takesToken {endpoint : Endpoint} (h : endpoint.takesToken = true) :
    endpoint.mutates = false := by
  cases endpoint with
  | cliWhoami | listProjects | projectRemote | gitInfoRefs | gitUploadPack => rfl
  | _ => cases h

/-- The user may read what a credential is restricted to. -/
def Database.permitsRestriction (db : Database) (userId : String) :
    Option CredentialResourceRestriction → Bool
  | none => true
  | some ⟨some workspaceId, none⟩ => db.hasRole userId workspaceId "reader"
  | some ⟨_, some id⟩ => db.hasProjectRole userId id "reader"
  | some ⟨none, none⟩ => false

/-- The user has what the endpoint asks for. -/
def Database.permits (db : Database) (userId : String) : Endpoint → Bool
  | .createInvite input =>
      db.serverOwner = some userId
        && input.workspaceId.all fun workspaceId => db.hasRole userId workspaceId "owner"
  | .revokePeer _ | .createWorkspace _ => db.serverOwner = some userId
  | .createCredential input => db.permitsRestriction userId input.restriction
  | .updateWorkspace id _ => db.hasRole userId id "owner"
  | .createProject input => db.hasRole userId input.workspaceId "maintainer"
  | .updateProject id _ | .createDeployment id _ | .createSchedule id _
  | .createSecretMetadata id _ => db.hasProjectRole userId id "maintainer"
  | .createPr id _ => db.hasProjectRole userId id "contributor"
  | .createRun id _ => db.hasProjectRole userId id "runner"
  | _ => true

theorem Evolves.hasProjectRole {s t : Store} (h : Evolves s t) {userId id minimum : String}
    (hrole : s.db.hasProjectRole userId id minimum = true) :
    t.db.hasProjectRole userId id minimum = true := by
  obtain ⟨workspaceId, hproject, hrole⟩ := (Option.any_eq_true _ _).mp hrole
  exact (Option.any_eq_true _ _).mpr ⟨workspaceId, h.projectWorkspace hproject, h.hasRole hrole⟩

theorem Evolves.permitsRestriction {s t : Store} (h : Evolves s t) {userId : String}
    {restriction : Option CredentialResourceRestriction}
    (hpermits : s.db.permitsRestriction userId restriction = true) :
    t.db.permitsRestriction userId restriction = true := by
  unfold Database.permitsRestriction at *
  split at hpermits
  next => rfl
  next => exact h.hasRole hpermits
  next => exact h.hasProjectRole hpermits
  next => cases hpermits

/-- What is permitted stays so. -/
theorem Evolves.permits {s t : Store} (h : Evolves s t) {userId : String} {endpoint : Endpoint}
    (hpermits : s.db.permits userId endpoint = true) : t.db.permits userId endpoint = true := by
  cases endpoint with
  | createInvite input =>
      obtain ⟨howner, hworkspace⟩ := Bool.and_eq_true_iff.mp hpermits
      refine Bool.and_eq_true_iff.mpr
        ⟨decide_eq_true (h.owner _ (of_decide_eq_true howner)), ?_⟩
      refine (Option.all_eq_true _ _).mpr fun workspaceId hsome => h.hasRole ?_
      exact (Option.all_eq_true _ _).mp hworkspace workspaceId hsome
  | revokePeer | createWorkspace =>
      exact decide_eq_true (h.owner _ (of_decide_eq_true hpermits))
  | createCredential input => exact h.permitsRestriction hpermits
  | updateWorkspace | createProject => exact h.hasRole hpermits
  | updateProject | createPr | createDeployment | createRun | createSchedule
  | createSecretMetadata => exact h.hasProjectRole hpermits
  | _ => rfl

theorem requireRoleTx_eq_ok {db : Database} {userId workspaceId minimum : String} {u : Unit} :
    requireRoleTx db userId workspaceId minimum = .ok u ↔
      db.hasRole userId workspaceId minimum = true :=
  require_eq_ok

theorem validateCredentialRestriction_permits {db : Database} {userId : String}
    {restriction : Option CredentialResourceRestriction} {ids : Option String × Option String}
    (h : validateCredentialRestriction db userId restriction = .ok ids) :
    db.permitsRestriction userId restriction = true := by
  unfold validateCredentialRestriction at h
  split at h
  next => rfl
  next workspaceId =>
    obtain ⟨_, hrole, _⟩ := bind_eq_ok.mp h
    exact require_eq_ok.mp hrole
  next workspaceId id =>
    obtain ⟨actual, hactual, h⟩ := bind_eq_ok.mp h
    obtain ⟨_, _, h⟩ := bind_eq_ok.mp h
    obtain ⟨_, hrole, _⟩ := bind_eq_ok.mp h
    obtain ⟨hproject, _⟩ := Option.filter_eq_some_iff.mp (orElse_eq_ok.mp hactual)
    have hreader : db.hasProjectRole userId id "reader" = true :=
      (Option.any_eq_true _ _).mpr ⟨actual, hproject, requireRoleTx_eq_ok.mp hrole⟩
    cases workspaceId with
    | none => exact hreader
    | some workspaceId => exact hreader
  next => cases h

/-- A project comes with its workspace. -/
def Database.restrictsTo (db : Database) (ids : Option String × Option String) : Prop :=
  ∀ id, ids.2 = some id → ∃ workspaceId, ids.1 = some workspaceId ∧
    db.projectWorkspace id = some workspaceId

theorem Evolves.restrictsTo {s t : Store} (h : Evolves s t) {ids : Option String × Option String}
    (hids : s.db.restrictsTo ids) : t.db.restrictsTo ids := by
  intro id hid
  obtain ⟨workspaceId, hworkspace, hproject⟩ := hids id hid
  exact ⟨workspaceId, hworkspace, h.projectWorkspace hproject⟩

theorem validateCredentialRestriction_restrictsTo {db : Database} {userId : String}
    {restriction : Option CredentialResourceRestriction} {ids : Option String × Option String}
    (h : validateCredentialRestriction db userId restriction = .ok ids) : db.restrictsTo ids := by
  unfold validateCredentialRestriction at h
  split at h
  next =>
    cases h
    intro id hid
    cases hid
  next workspaceId =>
    obtain ⟨_, _, h⟩ := bind_eq_ok.mp h
    cases h
    intro id hid
    cases hid
  next workspaceId id =>
    obtain ⟨actual, hactual, h⟩ := bind_eq_ok.mp h
    obtain ⟨_, _, h⟩ := bind_eq_ok.mp h
    obtain ⟨_, _, h⟩ := bind_eq_ok.mp h
    cases h
    intro id' hid
    cases hid
    exact ⟨actual, rfl, (Option.filter_eq_some_iff.mp (orElse_eq_ok.mp hactual)).1⟩
  next => cases h

/-! ## Rely and guarantee -/

/-- What a handler may rely on. -/
structure Rely (R : Store → Store → Prop) : Prop where
  refl : ∀ s, R s s
  trans : ∀ s t u, R s t → R t u → R s u
  evolves : ∀ s t, R s t → Evolves s t

theorem Rely.of_evolves : Rely Evolves where
  refl := .refl
  trans := fun _ _ _ h h' => h.trans h'
  evolves := fun _ _ h => h

section

variable (config : Config) (R : Store → Store → Prop)

/-- The request came with the token of a session of the user that was good. -/
def Caller (headers : Headers) (userId : String) (s : Store) : Prop :=
  ∃ s₀ token row, R s₀ s ∧ cookie headers sessionCookie = some token ∧ row ∈ s₀.db.sessions ∧
    row.tokenHash = config.hash token ∧ s₀.db.sessionLive s₀.clock row = true ∧
    row.userId = userId

/-- How a section of the request may change the database. -/
def Change (request : Request) (s : Store) (db : Database) : Prop :=
  ∃ user, Effect config s.clock s.db request.endpoint user db ∧
    (request.endpoint.mutates = true →
      Caller config R request.headers user s ∧ s.db.permits user request.endpoint = true)

/-- What a section of the request guarantees. -/
def Guarantee (request : Request) (s t : Store) : Prop :=
  s.clock ≤ t.clock ∧ (t.db = s.db ∨ Change config R request s t.db)

end

theorem Input.le_first (i : Input) (clock : Instant) : clock ≤ (i.readings clock).first := by
  exact le_add_of_nonneg_right (Int.natCast_nonneg _)

theorem Input.le_third (i : Input) (clock : Instant) : clock ≤ (i.readings clock).third := by
  refine le_trans (i.le_first clock) ?_
  refine le_trans (le_add_of_nonneg_right (Int.natCast_nonneg i.waits.2.1)) ?_
  exact le_add_of_nonneg_right (Int.natCast_nonneg i.waits.2.2)

section

variable {config : Config} {R : Store → Store → Prop} {request : Request} {headers : Headers}
  {s : Store} {ε α β : Type} {Q : α → Store → Prop} {Q' : β → Store → Prop}

/-- The rule for work under the lock. -/
theorem underLock_ensures {fault : ε} {work : Input → Readings → Database → Except ε (α × Database)}
    (h : ∀ t i value db, R s t → t.clock ≤ (i.readings t.clock).first →
      work i (i.readings t.clock) t.db = .ok (value, db) →
      (db = t.db ∨ Change config R request t db) ∧ ∀ t', R t t' → t'.db = db → Q value t') :
    (underLock fault work).Ensures R (Guarantee config R request) Q s := by
  refine .step fun t i hst => ?_
  have hclock := i.le_third t.clock
  rcases attempt_cases fault work i t with ⟨value, db, hwork, heq⟩ | ⟨error, heq⟩
  · rw [heq]
    obtain ⟨hchange, hQ⟩ := h t i value db hst (i.le_first t.clock) hwork
    refine ⟨⟨hclock, hchange⟩, fun hR value' hvalue => ?_⟩
    cases hvalue
    exact hQ _ hR rfl
  · rw [heq]
    refine ⟨⟨hclock, .inl rfl⟩, fun _ value hvalue => ?_⟩
    cases hvalue

/-- The rule for a transaction that ends a handler. -/
theorem transaction_ensures {work : Input → Readings → Database → Outcome (α × Database)}
    (h : ∀ t i value db, R s t → t.clock ≤ (i.readings t.clock).first →
      work i (i.readings t.clock) t.db = .ok (value, db) → Change config R request t db) :
    (transaction work).Ensures R (Guarantee config R request) (fun _ _ => True) s :=
  underLock_ensures fun t i value db hst hfirst hwork =>
    ⟨.inr (h t i value db hst hfirst hwork), fun _ _ _ => trivial⟩

theorem query_ensures {ask : Readings → Database → Outcome α}
    (h : ∀ t now value t', R s t → t.clock ≤ now.first → ask now t.db = .ok value → R t t' →
      t'.db = t.db → Q value t') :
    (query ask).Ensures R (Guarantee config R request) Q s := by
  unfold query transaction
  refine underLock_ensures fun t i value db hst hfirst hwork => ?_
  obtain ⟨value', hask, heq⟩ := bind_eq_ok.mp hwork
  cases heq
  exact ⟨.inl rfl, fun t' hR hdb => h t _ value t' hst hfirst hask hR hdb⟩

/-- A query the handler goes on after whatever it says. -/
theorem query_ensures' {ask : Readings → Database → Outcome α} :
    (query ask).Ensures R (Guarantee config R request) (fun _ _ => True) s :=
  query_ensures fun _ _ _ _ _ _ _ _ _ => trivial

theorem consult_ensures {ask : Input → Readings → Outcome α} :
    (consult ask).Ensures R (Guarantee config R request) (fun _ _ => True) s :=
  .step fun t i _ => ⟨⟨i.le_third t.clock, .inl rfl⟩, fun _ _ _ => trivial⟩

theorem check_ensures {result : Except ε α} {k : α → Program Store Input ε β}
    (h : ∀ value, result = .ok value →
      (k value).Ensures R (Guarantee config R request) Q' s) :
    (Program.check result >>= k).Ensures R (Guarantee config R request) Q' s := by
  cases result with
  | ok value => exact h value rfl
  | error error => trivial

theorem Rely.bind (hR : Rely R) {p : Program Store Input ε α} {k : α → Program Store Input ε β}
    (h : p.Ensures R (Guarantee config R request) Q s)
    (hk : ∀ value t, R s t → Q value t →
      (k value).Ensures R (Guarantee config R request) Q' t) :
    (p >>= k).Ensures R (Guarantee config R request) Q' s :=
  Program.Ensures.bind hR.refl hR.trans h hk

/-! ## Authentication and roles -/

theorem Caller.later (hR : Rely R) {userId : String} {t : Store}
    (h : Caller config R headers userId s) (hst : R s t) : Caller config R headers userId t := by
  obtain ⟨s₀, token, row, hs₀, hrest⟩ := h
  exact ⟨s₀, token, row, hR.trans _ _ _ hs₀ hst, hrest⟩

/-- A session that is good at an instant was good before. -/
theorem Database.sessionLive_of_le {db : Database} {now now' : Instant} {row : SessionRow}
    (h : db.sessionLive now' row = true) (hle : now ≤ now') : db.sessionLive now row = true := by
  unfold sessionLive at *
  rw [Bool.and_eq_true] at *
  exact ⟨h.1, decide_eq_true (lt_of_le_of_lt hle (of_decide_eq_true h.2))⟩

theorem Database.sessionPrincipal_eq_some {db : Database} {tokenHash : String} {now : Instant}
    {p : Principal} (h : db.sessionPrincipal tokenHash now = some p) :
    ∃ row ∈ db.sessions, row.tokenHash = tokenHash ∧ db.sessionLive now row = true ∧
      p.sessionId = row.id ∧ p.userId = row.userId ∧ p.deviceId = row.deviceId := by
  obtain ⟨row, hfind, h⟩ := Option.bind_eq_some_iff.mp h
  obtain ⟨user, huser, h⟩ := Option.bind_eq_some_iff.mp h
  cases h
  have hrow : row.tokenHash = tokenHash ∧ db.sessionLive now row = true := by
    simpa using List.find?_some hfind
  have huser' : user.id = row.userId ∧ user.revokedAt = none := by
    simpa using List.find?_some huser
  exact ⟨row, List.mem_of_find?_eq_some hfind, hrow.1, hrow.2, rfl, huser'.1, rfl⟩

theorem authenticate_ensures (hR : Rely R) (csrf : Bool) :
    (authenticate config headers csrf).Ensures R (Guarantee config R request)
      (fun p t => Caller config R headers p.userId t) s := by
  refine check_ensures fun _ _ => check_ensures fun token htoken => ?_
  have hquery : (query fun now db =>
      orElse (db.sessionPrincipal (config.hash token) now.first) .unauthenticated).Ensures R
        (Guarantee config R request) (fun p t => Caller config R headers p.userId t) s := by
    refine query_ensures fun t now p t' _ hfirst hask htt' _ => ?_
    obtain ⟨row, hmem, hhash, hlive, _, huser, _⟩ :=
      Database.sessionPrincipal_eq_some (orElse_eq_ok.mp hask)
    exact ⟨t, token, row, htt', orElse_eq_ok.mp htoken, hmem, hhash,
      Database.sessionLive_of_le hlive hfirst, huser.symm⟩
  refine hR.bind hquery fun p t _ hcaller => check_ensures fun _ _ => hcaller

theorem requireGlobalOwner_ensures (hR : Rely R) {p : Principal} :
    (requireGlobalOwner p).Ensures R (Guarantee config R request)
      (fun _ t => t.db.serverOwner = some p.userId) s := by
  refine query_ensures fun t _ _ t' _ _ hask htt' _ => ?_
  exact (hR.evolves _ _ htt').owner _ (of_decide_eq_true (require_eq_ok.mp hask))

theorem requireRole_ensures (hR : Rely R) {p : Principal} {workspaceId minimum : String} :
    (requireRole p workspaceId minimum).Ensures R (Guarantee config R request)
      (fun _ t => t.db.hasRole p.userId workspaceId minimum = true) s := by
  refine query_ensures fun t _ _ t' _ _ hask htt' _ => ?_
  exact (hR.evolves _ _ htt').hasRole (require_eq_ok.mp hask)

theorem projectWorkspace_ensures (hR : Rely R) {id : String} :
    (projectWorkspace id).Ensures R (Guarantee config R request)
      (fun workspaceId t => t.db.projectWorkspace id = some workspaceId) s := by
  refine query_ensures fun t _ _ t' _ _ hask htt' _ => ?_
  exact (hR.evolves _ _ htt').projectWorkspace (orElse_eq_ok.mp hask)

theorem projectAuth_ensures (hR : Rely R) {id minimum : String} (csrf : Bool) :
    (projectAuth config headers id minimum csrf).Ensures R (Guarantee config R request)
      (fun p t => Caller config R headers p.userId t ∧
        t.db.hasProjectRole p.userId id minimum = true) s := by
  refine hR.bind (authenticate_ensures hR csrf) fun p t _ hcaller => ?_
  refine hR.bind (projectWorkspace_ensures hR) fun workspaceId u htu hproject => ?_
  refine hR.bind (requireRole_ensures hR) fun _ v huv hrole => ?_
  exact ⟨(hcaller.later hR htu).later hR huv,
    (Option.any_eq_true _ _).mpr ⟨_, (hR.evolves _ _ huv).projectWorkspace hproject, hrole⟩⟩

end

/-! ## The handlers -/

section

variable {config : Config} {R : Store → Store → Prop} {request : Request} {headers : Headers}
  {s : Store} {id : String}

theorem claim_ensures {input : BootstrapRequest} :
    (claim config input).Ensures R (Guarantee config R ⟨headers, .claim input⟩)
      (fun _ _ => True) s := by
  refine check_ensures fun _ _ => transaction_ensures fun t i reply db _ _ hwork => ?_
  obtain ⟨user, heffect⟩ := claimTx_effect hwork
  exact ⟨user, heffect, fun h => Bool.noConfusion h⟩

theorem redeemInvite_ensures {input : RedeemRequest} :
    (redeemInvite config input).Ensures R (Guarantee config R ⟨headers, .redeemInvite input⟩)
      (fun _ _ => True) s := by
  refine check_ensures fun _ _ => transaction_ensures fun t i reply db _ hfirst hwork => ?_
  obtain ⟨user, heffect⟩ := redeemInviteTx_effect hfirst hwork
  exact ⟨user, heffect, fun h => Bool.noConfusion h⟩

theorem session_ensures (hR : Rely R) :
    (session config headers).Ensures R (Guarantee config R ⟨headers, .session⟩)
      (fun _ _ => True) s := by
  refine check_ensures fun token _ => check_ensures fun csrf _ => ?_
  refine hR.bind (authenticate_ensures hR false) fun p t _ _ => check_ensures fun _ _ => ?_
  refine transaction_ensures fun u i reply db _ hfirst hwork => ?_
  exact ⟨p.userId, sessionTx_effect hfirst hwork, fun h => Bool.noConfusion h⟩

/-- A handler that authenticates and then does one transaction. -/
theorem authenticated_ensures (hR : Rely R) {work : Principal → Input → Readings → Database →
      Outcome (Reply × Database)} {endpoint : Endpoint}
    (hpermits : ∀ db userId, Database.permits db userId endpoint = true)
    (heffect : ∀ p i r now reply db db', work p i r db = .ok (reply, db') →
      Effect config now db endpoint p.userId db') :
    (authenticate config headers true >>= fun p => transaction (work p)).Ensures R
      (Guarantee config R ⟨headers, endpoint⟩) (fun _ _ => True) s := by
  refine hR.bind (authenticate_ensures hR true) fun p t _ hcaller => ?_
  refine transaction_ensures fun u i reply db htu _ hwork => ?_
  exact ⟨p.userId, heffect p _ _ _ _ _ _ hwork, fun _ => ⟨hcaller.later hR htu, hpermits _ _⟩⟩

theorem createInvite_ensures (hR : Rely R) {input : InviteRequest} :
    (createInvite config headers input).Ensures R
      (Guarantee config R ⟨headers, .createInvite input⟩) (fun _ _ => True) s := by
  refine hR.bind (authenticate_ensures hR true) fun p t _ hcaller => ?_
  refine hR.bind (requireGlobalOwner_ensures hR) fun _ u htu howner => ?_
  refine check_ensures fun _ _ => check_ensures fun _ _ => ?_
  refine transaction_ensures fun v i reply db huv _ hwork => ?_
  have howner' := (hR.evolves _ _ huv).owner _ howner
  have heffect : Effect config v.clock v.db (.createInvite input) p.userId db :=
    createInviteTx_effect howner' hwork
  refine ⟨p.userId, heffect, fun _ => ⟨(hcaller.later hR htu).later hR huv, ?_⟩⟩
  obtain ⟨_, hrole, _⟩ := bind_eq_ok.mp hwork
  refine Bool.and_eq_true_iff.mpr ⟨decide_eq_true howner', ?_⟩
  show input.workspaceId.all _ = true
  cases hworkspace : input.workspaceId with
  | none => rfl
  | some workspaceId =>
      rw [hworkspace] at hrole
      exact require_eq_ok.mp hrole

theorem revokePeer_ensures (hR : Rely R) :
    (revokePeer config headers id).Ensures R (Guarantee config R ⟨headers, .revokePeer id⟩)
      (fun _ _ => True) s := by
  refine hR.bind (authenticate_ensures hR true) fun p t _ hcaller => ?_
  refine hR.bind (requireGlobalOwner_ensures hR) fun _ u htu howner => ?_
  refine check_ensures fun _ hother => transaction_ensures fun v i reply db huv _ hwork => ?_
  have howner' := (hR.evolves _ _ huv).owner _ howner
  exact ⟨p.userId, revokePeerTx_effect howner' (of_decide_eq_true (require_eq_ok.mp hother)) hwork,
    fun _ => ⟨(hcaller.later hR htu).later hR huv, decide_eq_true howner'⟩⟩

theorem createCredential_ensures (hR : Rely R) {input : CreateCredentialRequest} :
    (createCredential config headers input).Ensures R
      (Guarantee config R ⟨headers, .createCredential input⟩) (fun _ _ => True) s := by
  refine hR.bind (authenticate_ensures hR true) fun p t _ hcaller => ?_
  refine check_ensures fun _ _ => check_ensures fun _ _ => ?_
  refine hR.bind consult_ensures fun created u htu _ => check_ensures fun _ _ => ?_
  have hquery : (query fun _ db =>
      validateCredentialRestriction db p.userId input.restriction).Ensures R
        (Guarantee config R ⟨headers, .createCredential input⟩)
        (fun ids v => v.db.permits p.userId (.createCredential input) = true ∧
          v.db.restrictsTo ids) u := by
    refine query_ensures fun v _ _ v' _ _ hask hvv' _ => ?_
    exact ⟨(hR.evolves _ _ hvv').permits (validateCredentialRestriction_permits hask),
      (hR.evolves _ _ hvv').restrictsTo (validateCredentialRestriction_restrictsTo hask)⟩
  refine hR.bind hquery fun restriction v huv ⟨hpermits, hids⟩ => ?_
  refine transaction_ensures fun w i reply db hvw _ hwork => ?_
  exact ⟨p.userId, createCredentialTx_effect ((hR.evolves _ _ hvw).restrictsTo hids) hwork,
    fun _ => ⟨((hcaller.later hR htu).later hR huv).later hR hvw,
      (hR.evolves _ _ hvw).permits hpermits⟩⟩

theorem createWorkspace_ensures (hR : Rely R) {input : WorkspaceRequest} :
    (createWorkspace config headers input).Ensures R
      (Guarantee config R ⟨headers, .createWorkspace input⟩) (fun _ _ => True) s := by
  refine hR.bind (authenticate_ensures hR true) fun p t _ hcaller => ?_
  refine hR.bind (requireGlobalOwner_ensures hR) fun _ u htu howner => ?_
  refine check_ensures fun _ _ => check_ensures fun _ _ => ?_
  refine transaction_ensures fun v i reply db huv _ hwork => ?_
  have howner' := (hR.evolves _ _ huv).owner _ howner
  exact ⟨p.userId, createWorkspaceTx_effect howner' hwork,
    fun _ => ⟨(hcaller.later hR htu).later hR huv, decide_eq_true howner'⟩⟩

theorem updateWorkspace_ensures (hR : Rely R) {input : WorkspaceRequest} :
    (updateWorkspace config headers id input).Ensures R
      (Guarantee config R ⟨headers, .updateWorkspace id input⟩) (fun _ _ => True) s := by
  refine hR.bind (authenticate_ensures hR true) fun p t _ hcaller => ?_
  refine check_ensures fun _ _ => check_ensures fun _ _ => ?_
  refine hR.bind (requireRole_ensures hR) fun _ u htu hrole => ?_
  refine transaction_ensures fun v i reply db huv _ hwork => ?_
  exact ⟨p.userId, updateWorkspaceTx_effect hwork,
    fun _ => ⟨(hcaller.later hR htu).later hR huv, (hR.evolves _ _ huv).hasRole hrole⟩⟩

theorem createProject_ensures (hR : Rely R) {input : ProjectRequest} :
    (createProject config headers input).Ensures R
      (Guarantee config R ⟨headers, .createProject input⟩) (fun _ _ => True) s := by
  refine hR.bind (authenticate_ensures hR true) fun p t _ hcaller => ?_
  refine hR.bind (requireRole_ensures hR) fun _ u htu hrole => check_ensures fun _ _ => ?_
  refine hR.bind query_ensures' fun callerRole v huv _ => ?_
  refine hR.bind consult_ensures fun made w hvw _ => ?_
  refine Program.Ensures.mapError (transaction_ensures fun x i reply db hwx _ hwork => ?_)
  have hux := hR.trans _ _ _ (hR.trans _ _ _ huv hvw) hwx
  exact ⟨p.userId, createProjectTx_effect hwork,
    fun _ => ⟨(hcaller.later hR htu).later hR hux, (hR.evolves _ _ hux).hasRole hrole⟩⟩

theorem getProject_ensures (hR : Rely R) :
    (getProject config headers id).Ensures R (Guarantee config R request) (fun _ _ => True) s :=
  hR.bind (authenticate_ensures hR false) fun _ _ _ _ => query_ensures'

theorem updateProject_ensures (hR : Rely R) {input : ProjectRequest} :
    (updateProject config headers id input).Ensures R
      (Guarantee config R ⟨headers, .updateProject id input⟩) (fun _ _ => True) s := by
  refine hR.bind (authenticate_ensures hR true) fun p t _ hcaller => ?_
  refine hR.bind (projectWorkspace_ensures hR) fun workspaceId u htu hproject => ?_
  refine hR.bind (requireRole_ensures hR) fun _ v huv hrole => ?_
  refine check_ensures fun _ _ => check_ensures fun _ _ => ?_
  refine hR.bind consult_ensures fun branches w hvw _ => check_ensures fun _ _ => ?_
  have hupdate : (transaction (updateProjectTx id input)).Ensures R
      (Guarantee config R ⟨headers, .updateProject id input⟩) (fun _ _ => True) w := by
    refine transaction_ensures fun x i _ db hwx _ hwork => ?_
    have hvx := hR.trans _ _ _ hvw hwx
    refine ⟨p.userId, updateProjectTx_effect hwork, fun _ =>
      ⟨((hcaller.later hR htu).later hR huv).later hR hvx, ?_⟩⟩
    exact (Option.any_eq_true _ _).mpr
      ⟨workspaceId, (hR.evolves _ _ (hR.trans _ _ _ huv hvx)).projectWorkspace hproject,
        (hR.evolves _ _ hvx).hasRole hrole⟩
  exact hR.bind hupdate fun _ _ _ _ => getProject_ensures hR

/-- The end of a handler that records something for a project. -/
theorem record_ensures (hR : Rely R) {work : Input → Readings → Database →
      Outcome (Reply × Database)} {endpoint : Endpoint} {p : Principal} {minimum : String}
    (hcaller : Caller config R headers p.userId s)
    (hrole : s.db.hasProjectRole p.userId id minimum = true)
    (hpermits : ∀ db : Database, db.permits p.userId endpoint =
      db.hasProjectRole p.userId id minimum)
    (heffect : ∀ i r now reply db db', work i r db = .ok (reply, db') →
      Effect config now db endpoint p.userId db') :
    (transaction work).Ensures R (Guarantee config R ⟨headers, endpoint⟩) (fun _ _ => True) s := by
  refine transaction_ensures fun t i reply db hst _ hwork => ?_
  refine ⟨p.userId, heffect _ _ _ _ _ _ hwork, fun _ => ⟨hcaller.later hR hst, ?_⟩⟩
  show t.db.permits p.userId endpoint = true
  rw [hpermits]
  exact (hR.evolves _ _ hst).hasProjectRole hrole

theorem createPr_ensures (hR : Rely R) {input : PullRequestInput} :
    (createPr config headers id input).Ensures R
      (Guarantee config R ⟨headers, .createPr id input⟩) (fun _ _ => True) s := by
  refine hR.bind (projectAuth_ensures hR true) fun p t _ hauth => ?_
  refine check_ensures fun _ _ => check_ensures fun _ _ => ?_
  refine check_ensures fun _ _ => check_ensures fun _ _ => ?_
  refine hR.bind consult_ensures fun branches u htu _ => check_ensures fun _ _ => ?_
  exact record_ensures hR (hauth.1.later hR htu) ((hR.evolves _ _ htu).hasProjectRole hauth.2)
    (fun _ => rfl) fun _ _ _ _ _ _ hwork => createPrTx_effect hwork

theorem validateRevisionExists_ensures {revision : String} :
    (validateRevisionExists revision).Ensures R (Guarantee config R request)
      (fun _ _ => True) s :=
  check_ensures fun _ _ => consult_ensures

theorem createDeployment_ensures (hR : Rely R) {input : DeploymentInput} :
    (createDeployment config headers id input).Ensures R
      (Guarantee config R ⟨headers, .createDeployment id input⟩) (fun _ _ => True) s := by
  refine hR.bind (projectAuth_ensures hR true) fun p t _ hauth => ?_
  refine check_ensures fun _ _ => check_ensures fun _ _ => ?_
  refine hR.bind validateRevisionExists_ensures fun _ u htu _ => ?_
  refine hR.bind consult_ensures fun created v huv _ => ?_
  have htv := hR.trans _ _ _ htu huv
  exact record_ensures hR (hauth.1.later hR htv) ((hR.evolves _ _ htv).hasProjectRole hauth.2)
    (fun _ => rfl) fun _ _ _ _ _ _ hwork => createDeploymentTx_effect hwork

theorem createRun_ensures (hR : Rely R) {input : RunInput} :
    (createRun config headers id input).Ensures R
      (Guarantee config R ⟨headers, .createRun id input⟩) (fun _ _ => True) s := by
  refine hR.bind (projectAuth_ensures hR true) fun p t _ hauth => ?_
  refine check_ensures fun _ _ => check_ensures fun _ _ => ?_
  refine hR.bind (Q := fun _ _ => True) ?revision fun revision u htu _ => ?_
  case revision =>
    split
    next => trivial
    next => exact query_ensures'
  refine hR.bind validateRevisionExists_ensures fun _ v huv _ => ?_
  refine hR.bind consult_ensures fun created w hvw _ => ?_
  have htw := hR.trans _ _ _ htu (hR.trans _ _ _ huv hvw)
  exact record_ensures hR (hauth.1.later hR htw) ((hR.evolves _ _ htw).hasProjectRole hauth.2)
    (fun _ => rfl) fun _ _ _ _ _ _ hwork => createRunTx_effect hwork

theorem createSchedule_ensures (hR : Rely R) {input : ScheduleInput} :
    (createSchedule config headers id input).Ensures R
      (Guarantee config R ⟨headers, .createSchedule id input⟩) (fun _ _ => True) s := by
  refine hR.bind (projectAuth_ensures hR true) fun p t _ hauth => ?_
  refine check_ensures fun _ _ => check_ensures fun _ _ => ?_
  refine check_ensures fun _ _ => check_ensures fun _ _ => ?_
  refine hR.bind consult_ensures fun made u htu _ => ?_
  exact record_ensures hR (hauth.1.later hR htu) ((hR.evolves _ _ htu).hasProjectRole hauth.2)
    (fun _ => rfl) fun _ _ _ _ _ _ hwork => createScheduleTx_effect hwork

theorem createSecretMetadata_ensures (hR : Rely R) {input : SecretInput} :
    (createSecretMetadata config headers id input).Ensures R
      (Guarantee config R ⟨headers, .createSecretMetadata id input⟩) (fun _ _ => True) s := by
  refine hR.bind (projectAuth_ensures hR true) fun p t _ hauth => check_ensures fun _ _ => ?_
  refine hR.bind consult_ensures fun created u htu _ => ?_
  exact record_ensures hR (hauth.1.later hR htu) ((hR.evolves _ _ htu).hasProjectRole hauth.2)
    (fun _ => rfl) fun _ _ _ _ _ _ hwork => createSecretMetadataTx_effect hwork

/-! ## Handlers with a token -/

theorem authenticateOpaqueToken_ensures (htoken : request.endpoint.takesToken = true)
    {token : String} {expected : CredentialType} {scope : CredentialScope} :
    (authenticateOpaqueToken config token expected scope).Ensures R
      (Guarantee config R request) (fun _ _ => True) s := by
  refine check_ensures fun publicId _ => transaction_ensures fun t i p db _ _ hwork => ?_
  obtain ⟨⟨row, user⟩, _, hwork⟩ := bind_eq_ok.mp hwork
  obtain ⟨_, _, hwork⟩ := bind_eq_ok.mp hwork
  obtain ⟨_, _, hwork⟩ := bind_eq_ok.mp hwork
  cases hwork
  refine ⟨user.id, .useCredential htoken, fun hmutates => ?_⟩
  rw [Endpoint.mutates_of_takesToken htoken] at hmutates
  cases hmutates

theorem authenticateBearer_ensures (htoken : request.endpoint.takesToken = true)
    {scope : CredentialScope} :
    (authenticateBearer config headers scope).Ensures R (Guarantee config R request)
      (fun _ _ => True) s :=
  check_ensures fun _ _ => authenticateOpaqueToken_ensures htoken

theorem tokenOrSession_ensures (hR : Rely R) (htoken : request.endpoint.takesToken = true) :
    (tokenOrSession config headers).Ensures R (Guarantee config R request)
      (fun _ _ => True) s := by
  unfold tokenOrSession
  split
  next => exact hR.bind (authenticate_ensures hR false) fun _ _ _ _ => trivial
  next => exact hR.bind (authenticateBearer_ensures htoken) fun _ _ _ _ => trivial

theorem authenticateGit_ensures (htoken : request.endpoint.takesToken = true) :
    (authenticateGit config headers).Ensures R (Guarantee config R request)
      (fun _ _ => True) s := by
  unfold authenticateGit
  split
  next => trivial
  next => exact (authenticateOpaqueToken_ensures htoken).mapError

theorem authorizeGitProject_ensures {p : TokenPrincipal} {workspace project minimum : String} :
    (authorizeGitProject p workspace project minimum).Ensures R (Guarantee config R request)
      (fun _ _ => True) s := by
  refine check_ensures fun _ _ => check_ensures fun _ _ => ?_
  refine underLock_ensures fun u i id db _ _ hwork => ⟨.inl ?_, fun _ _ _ => trivial⟩
  split at hwork
  next => cases hwork
  next =>
    split at hwork
    next =>
      cases hwork
      rfl
    next => cases hwork

theorem askBackend_ensures :
    askBackend.Ensures R (Guarantee config R request) (fun _ _ => True) s :=
  .step fun t i _ => ⟨⟨i.le_third t.clock, .inl rfl⟩, fun _ _ _ => trivial⟩

theorem gitInfoRefs_ensures (hR : Rely R) (htoken : request.endpoint.takesToken = true)
    {workspace repositoryName : String} {query : Option String} :
    (gitInfoRefs config headers workspace repositoryName query).Ensures R
      (Guarantee config R request) (fun _ _ => True) s := by
  refine hR.bind (authenticateGit_ensures htoken) fun p t _ _ => check_ensures fun project _ => ?_
  refine hR.bind authorizeGitProject_ensures fun _ u _ _ => ?_
  refine check_ensures fun _ _ => check_ensures fun _ _ => ?_
  exact hR.bind askBackend_ensures fun _ _ _ _ => trivial

theorem gitUploadPack_ensures (hR : Rely R) (htoken : request.endpoint.takesToken = true)
    {workspace repositoryName : String} :
    (gitUploadPack config headers workspace repositoryName).Ensures R
      (Guarantee config R request) (fun _ _ => True) s := by
  refine hR.bind (authenticateGit_ensures htoken) fun p t _ _ => check_ensures fun project _ => ?_
  refine hR.bind authorizeGitProject_ensures fun _ u _ _ => check_ensures fun _ _ => ?_
  exact hR.bind askBackend_ensures fun _ _ _ _ => trivial

/-! ## Every request -/

theorem program_ensures (hR : Rely R) (request : Request) :
    (program config request).Ensures R (Guarantee config R request) (fun _ _ => True) s := by
  obtain ⟨headers, endpoint⟩ := request
  cases endpoint with
  | claim input => exact claim_ensures.mapError
  | redeemInvite input => exact redeemInvite_ensures.mapError
  | session => exact (session_ensures hR).mapError
  | logout =>
      exact (authenticated_ensures hR (fun _ _ => rfl)
        fun _ _ _ _ _ _ _ hwork => logoutTx_effect hwork).mapError
  | createInvite input => exact (createInvite_ensures hR).mapError
  | revokePeer id => exact (revokePeer_ensures hR).mapError
  | revokeDevice id =>
      exact (authenticated_ensures hR (fun _ _ => rfl)
        fun _ _ _ _ _ _ _ hwork => revokeDeviceTx_effect hwork).mapError
  | revokeSession id =>
      exact (authenticated_ensures hR (fun _ _ => rfl)
        fun _ _ _ _ _ _ _ hwork => revokeSessionTx_effect hwork).mapError
  | createCredential input => exact (createCredential_ensures hR).mapError
  | revokeCredential id =>
      exact (authenticated_ensures hR (fun _ _ => rfl)
        fun _ _ _ _ _ _ _ hwork => revokeCredentialTx_effect hwork).mapError
  | cliWhoami =>
      exact (hR.bind (authenticateBearer_ensures rfl) fun _ _ _ _ => query_ensures').mapError
  | listProjects =>
      exact (hR.bind (tokenOrSession_ensures hR rfl) fun _ _ _ _ => query_ensures').mapError
  | projectRemote id =>
      exact (hR.bind (tokenOrSession_ensures hR rfl) fun _ _ _ _ => query_ensures').mapError
  | gitInfoRefs workspace repositoryName query => exact (gitInfoRefs_ensures hR rfl).mapError
  | gitUploadPack workspace repositoryName => exact (gitUploadPack_ensures hR rfl).mapError
  | createWorkspace input => exact (createWorkspace_ensures hR).mapError
  | updateWorkspace id input => exact (updateWorkspace_ensures hR).mapError
  | createProject input => exact (createProject_ensures hR).mapError
  | getProject id => exact (getProject_ensures hR).mapError
  | updateProject id input => exact (updateProject_ensures hR).mapError
  | createPr id input => exact (createPr_ensures hR).mapError
  | createDeployment id input => exact (createDeployment_ensures hR).mapError
  | createRun id input => exact (createRun_ensures hR).mapError
  | createSchedule id input => exact (createSchedule_ensures hR).mapError
  | createSecretMetadata id input => exact (createSecretMetadata_ensures hR).mapError

end

end Cresix.Server
