import Cresix.Server.Steps

/-!
# Authorization when a request commits

A handler authenticates, looks up the role and changes the tables in sections
of their own.  Roles are never lost, so the role is right when the request
commits.  The session need not be: another request may revoke it, or it may
expire, after it was authenticated.  Where no step of a run does that to a
request that is still in service, every commit is authorized.
-/

namespace Cresix.Server

open Transition (System Event)

section

variable (config : Config)

/-- The request came with the token of a session that is good, and whose user
has what the endpoint asks for. -/
def Authorized (request : Request) (s : Store) : Prop :=
  ∃ token row, cookie request.headers sessionCookie = some token ∧ row ∈ s.db.sessions ∧
    row.tokenHash = config.hash token ∧ s.db.sessionLive s.clock row = true ∧
    s.db.permits row.userId request.endpoint = true

/-- The session of the headers is good. -/
def SessionGood (headers : Headers) (s : Store) : Prop :=
  ∃ token row, cookie headers sessionCookie = some token ∧ row ∈ s.db.sessions ∧
    row.tokenHash = config.hash token ∧ s.db.sessionLive s.clock row = true

/-- The step does not end a session whose request goes on being served. -/
def SparesSessions (x : Process) (_ : Action) (y : Process) : Prop :=
  ∀ thread ∈ y.pool.threads, thread.program.Running → thread.request.endpoint.mutates = true →
    SessionGood config thread.request.headers x.pool.state →
    SessionGood config thread.request.headers y.pool.state

/-- What a request relies on then. -/
def KeepsSession (request : Request) (s t : Store) : Prop :=
  Evolves s t ∧ (request.endpoint.mutates = true →
    SessionGood config request.headers s → SessionGood config request.headers t)

theorem rely_keepsSession (request : Request) : Rely (KeepsSession config request) where
  refl := fun s => ⟨.refl s, fun _ h => h⟩
  trans := fun _ _ _ h h' => ⟨h.1.trans h'.1, fun hmutates hgood =>
    h'.2 hmutates (h.2 hmutates hgood)⟩
  evolves := fun _ _ h => h.1

end

section

variable {config : Config} {x y : Process} {a : Action} {tr : List (Event Process Action)}

/-- The step lemma: a step that spares the sessions keeps the handlers sound. -/
theorem sound_of_spares (hsound : x.Sound config (KeepsSession config))
    (hstep : step config x a = some y) (hspares : SparesSessions config x a y) :
    y.Sound config (KeepsSession config) := by
  obtain ⟨hmoves, hkeeps⟩ := hsound.step (rely_keepsSession config) hstep
  exact hkeeps fun thread hthread hrunning =>
    ⟨hmoves.evolves, fun hmutates => hspares thread hthread hrunning hmutates⟩

/-- The change of a commit. -/
theorem change_of_commits {R : Request → Store → Store → Prop} (hmoves : Moves config R x a y)
    {request : Request} (hcommits : Commits request ⟨x, a, y⟩) :
    Change config (R request) request x.pool.state y.db := by
  obtain ⟨hserved, hchanged⟩ := hcommits
  cases hmoves with
  | same _ hdb => exact absurd hdb hchanged
  | ensureServer _ _ => cases hserved
  | backfillServerOwner _ _ => cases hserved
  | serve hserved' _ hchange =>
      rw [hserved'] at hserved
      cases hserved
      exact hchange

/-- The row of the caller's session is still there. -/
theorem Caller.row {R : Store → Store → Prop} (hR : Rely R) {headers : Headers} {userId : String}
    {s : Store} (h : Caller config R headers userId s) :
    ∃ token row, cookie headers sessionCookie = some token ∧ row ∈ s.db.sessions ∧
      row.tokenHash = config.hash token ∧ row.userId = userId := by
  obtain ⟨s₀, token, row, hs₀, htoken, hrow, hhash, _, huser⟩ := h
  obtain ⟨row', hrow', hkept⟩ := (hR.evolves _ _ hs₀).sessions.mem hrow
  exact ⟨token, row', htoken, hrow', hkept.tokenHash.trans hhash, hkept.userId.trans huser⟩

/-- Whatever happened to the session, its user has what the endpoint asks for
when the request commits. -/
theorem permits_of_commits (hx : (system config).Reachable x)
    (hstep : (system config).step x a y) {request : Request}
    (hmutates : request.endpoint.mutates = true) (hcommits : Commits request ⟨x, a, y⟩) :
    ∃ token row, cookie request.headers sessionCookie = some token ∧ row ∈ x.db.sessions ∧
      row.tokenHash = config.hash token ∧ x.db.permits row.userId request.endpoint = true := by
  obtain ⟨user, _, hcaller⟩ := change_of_commits (moves_of_reachable hx hstep) hcommits
  obtain ⟨hcaller, hpermits⟩ := hcaller hmutates
  obtain ⟨token, row, htoken, hrow, hhash, huser⟩ := hcaller.row .of_evolves
  exact ⟨token, row, htoken, hrow, hhash, by rw [huser]; exact hpermits⟩

theorem authorized_of_commits (hsound : x.Sound config (KeepsSession config))
    (hwf : x.db.WellFormed) (hstep : step config x a = some y) {request : Request}
    (hmutates : request.endpoint.mutates = true) (hcommits : Commits request ⟨x, a, y⟩) :
    Authorized config request x.pool.state := by
  obtain ⟨hmoves, _⟩ := hsound.step (rely_keepsSession config) hstep
  obtain ⟨user, _, hcaller⟩ := change_of_commits hmoves hcommits
  obtain ⟨hcaller, hpermits⟩ := hcaller hmutates
  obtain ⟨token, row, htoken, hrow, hhash, huser⟩ := hcaller.row (rely_keepsSession config request)
  obtain ⟨s₀, token₀, row₀, hs₀, htoken₀, hrow₀, hhash₀, hlive₀, _⟩ := hcaller
  -- The session was good when it was authenticated, so it is good now.
  obtain ⟨token', live, htoken', hlive, hhash', hgood⟩ :=
    hs₀.2 hmutates ⟨token₀, row₀, htoken₀, hrow₀, hhash₀, hlive₀⟩
  have htokens : token' = token := Option.some.inj (htoken'.symm.trans htoken)
  have hsame : live = row := hwf.tokens live hlive row hrow
    (hhash'.trans ((congrArg config.hash htokens).trans hhash.symm))
  rw [hsame] at hgood
  exact ⟨token, row, htoken, hrow, hhash, hgood, by rw [huser]; exact hpermits⟩

/-- In every run whose steps spare the sessions of the requests in service,
every mutation commits in a state in which its session is good and its user has
what the endpoint asks for. -/
theorem authorization_at_commit {clock : Instant}
    (hrun : ((system config).restrict (SparesSessions config)).Run (.initial clock) tr x) :
    ∀ e ∈ tr, ∀ request, request.endpoint.mutates = true → Commits request e →
      Authorized config request e.pre.pool.state := by
  intro e he request hmutates hcommits
  obtain ⟨before, _, _, hbefore, hstep, _⟩ := hrun.split he
  have hsound : e.pre.Sound config (KeepsSession config) := by
    refine System.Run.invariant (I := fun x => x.Sound config (KeepsSession config)) ?_ hbefore
      (.initial clock)
    intro x a y hsound hstep
    exact sound_of_spares hsound hstep.1 hstep.2
  have hreachable : (system config).Reachable e.pre :=
    System.Reachable.run (.of_start ⟨clock, rfl⟩) hbefore.of_restrict
  exact authorized_of_commits hsound (wellFormed_of_reachable hreachable) hstep.1 hmutates hcommits

end

/-! ## A revocation in between -/

/-- A workspace is asked for, and the session is logged out before the request
looks for the administrator. -/
def sampleRace : List Action :=
  sampleClaim ++
    [.request ⟨sampleHeaders, .createWorkspace ⟨"alpha", "Alpha"⟩⟩, .serve 1 (sampleInput []),
      .request ⟨sampleHeaders, .logout⟩, .serve 2 (sampleInput []), .serve 2 (sampleInput []),
      .serve 1 (sampleInput [])]

/-- The workspace is created all the same. -/
theorem commit_after_logout :
    ¬ ∀ config clock tr x, (system config).Run (.initial clock) tr x →
      ∀ e ∈ tr, ∀ request, request.endpoint.mutates = true → Commits request e →
        Authorized config request e.pre.pool.state := by
  intro hall
  have hdata : (stateAfter sampleConfig sampleRace).map (fun x =>
      (x.db.sessions.map (·.revokedAt), x.db.workspaces,
        (x.pool.threads[1]?).map (·.request))) =
      some ([some 0], [], some ⟨sampleHeaders, .createWorkspace ⟨"alpha", "Alpha"⟩⟩) := by
    decide
  have hlast : ((stateAfter sampleConfig sampleRace).bind fun x =>
      step sampleConfig x (.serve 1 (sampleInput ["workspace-1"]))).map
        (fun y => y.db.workspaces.length) = some 1 := by
    decide
  obtain ⟨x, hx, hfacts⟩ := Option.map_eq_some_iff.mp hdata
  obtain ⟨hsessions, hrest⟩ := Prod.mk.inj hfacts
  obtain ⟨hworkspaces, hthread⟩ := Prod.mk.inj hrest
  rw [hx] at hlast
  obtain ⟨y, hstep, hlength⟩ := Option.map_eq_some_iff.mp hlast
  have hstep' : (system sampleConfig).step x (.serve 1 (sampleInput ["workspace-1"])) y := hstep
  have hcommits : Commits ⟨sampleHeaders, .createWorkspace ⟨"alpha", "Alpha"⟩⟩
      ⟨x, .serve 1 (sampleInput ["workspace-1"]), y⟩ := by
    refine ⟨hthread, fun hsame => ?_⟩
    have hsame' : y.db = x.db := hsame
    rw [hsame', hworkspaces] at hlength
    cases hlength
  obtain ⟨token, row, _, hrow, _, hlive, _⟩ := hall sampleConfig 0 _ y
    ((run_of_stateAfter hx).snoc hstep') _ (List.mem_append_right _ List.mem_cons_self) _ rfl
    hcommits
  have hrevoked : row.revokedAt ∈ x.db.sessions.map (·.revokedAt) :=
    List.mem_map.mpr ⟨row, hrow, rfl⟩
  rw [hsessions] at hrevoked
  unfold Database.sessionLive at hlive
  rw [List.mem_singleton.mp hrevoked] at hlive
  cases hlive

/-- A step that leaves the sessions as they are spares them, and so does one
after which no mutation is in service. -/
theorem SparesSessions.of_same {config : Config} {x y : Process} {a : Action}
    (h : (∀ thread ∈ y.pool.threads,
        thread.program.outcome.isSome = true ∨ thread.request.endpoint.mutates = false) ∨
      (y.db.sessions = x.db.sessions ∧ y.db.users = x.db.users ∧ y.db.devices = x.db.devices ∧
        y.clock = x.clock)) :
    SparesSessions config x a y := by
  intro thread hthread hrunning hmutates hgood
  rcases h with hover | ⟨hsessions, husers, hdevices, hclock⟩
  · rcases hover thread hthread with hdone | hreads
    · cases hprogram : thread.program with
      | locked act next =>
          rw [hprogram] at hdone
          cases hdone
      | done value =>
          rw [hprogram] at hrunning
          exact hrunning.elim
      | fail error =>
          rw [hprogram] at hrunning
          exact hrunning.elim
    · rw [hreads] at hmutates
      cases hmutates
  · obtain ⟨token, row, htoken, hrow, hhash, hlive⟩ := hgood
    refine ⟨token, row, htoken, hsessions ▸ hrow, hhash, ?_⟩
    show (Database.sessionLive y.db y.clock row) = true
    unfold Database.sessionLive Database.userLive Database.deviceOf
    rw [husers, hdevices, hclock]
    exact hlive

/-- A workspace is created with nothing in between. -/
def sampleWorkspace : List Action :=
  sampleClaim ++
    [.request ⟨sampleHeaders, .createWorkspace ⟨"alpha", "Alpha"⟩⟩, .serve 1 (sampleInput []),
      .serve 1 (sampleInput []), .serve 1 (sampleInput ["workspace-1"])]

/-- Its session is good when it is inserted. -/
theorem authorization_at_commit_workspace :
    ∃ e ∈ System.events (step sampleConfig) (.initial 0) sampleWorkspace,
      Commits ⟨sampleHeaders, .createWorkspace ⟨"alpha", "Alpha"⟩⟩ e ∧
        Authorized sampleConfig ⟨sampleHeaders, .createWorkspace ⟨"alpha", "Alpha"⟩⟩
          e.pre.pool.state := by
  have hspares : ∀ e ∈ System.events (step sampleConfig) (.initial 0) sampleWorkspace,
      (∀ thread ∈ e.post.pool.threads,
        thread.program.outcome.isSome = true ∨ thread.request.endpoint.mutates = false) ∨
      (e.post.db.sessions = e.pre.db.sessions ∧ e.post.db.users = e.pre.db.users ∧
        e.post.db.devices = e.pre.db.devices ∧ e.post.clock = e.pre.clock) := by
    decide
  have hinserted : ∃ e ∈ System.events (step sampleConfig) (.initial 0) sampleWorkspace,
      served e = some ⟨sampleHeaders, .createWorkspace ⟨"alpha", "Alpha"⟩⟩ ∧
        e.post.db.workspaces ≠ e.pre.db.workspaces := by
    decide
  obtain ⟨x, hrun⟩ : ∃ x, (system sampleConfig).Run (.initial 0)
      (System.events (step sampleConfig) (.initial 0) sampleWorkspace) x :=
    System.Run.events (by decide)
  have hrun' : ((system sampleConfig).restrict (SparesSessions sampleConfig)).Run (.initial 0)
      (System.events (step sampleConfig) (.initial 0) sampleWorkspace) x :=
    System.Run.restrict hrun fun e he => .of_same (hspares e he)
  obtain ⟨e, he, hserved, hworkspaces⟩ := hinserted
  have hcommits : Commits ⟨sampleHeaders, .createWorkspace ⟨"alpha", "Alpha"⟩⟩ e :=
    ⟨hserved, fun hsame => hworkspaces (congrArg Database.workspaces hsame)⟩
  exact ⟨e, he, hcommits, authorization_at_commit hrun' e he _ rfl hcommits⟩

end Cresix.Server
