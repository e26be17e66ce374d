import Cresix.Server.Guarantee
import Cresix.Server.System

/-!
# What a step of the server does

The threads of a reachable server keep what their handlers guarantee, so every
step leaves the database alone, opens the server, or is a section with an
effect that fits its request (`Moves`).  It follows that the tables evolve and
stay well formed over every run.
-/

namespace Cresix.Server

open Concurrent (Pool Program)
open Transition (System Event)

/-! ## One step -/

/-- The ways to take a step. -/
inductive Takes (config : Config) (x : Process) : Action → Process → Prop where
  | ensureServer {token serverId : String} {db : Database} :
      x.phase = .down → ensureServer config token serverId x.db = .ok db →
      Takes config x (.ensureServer token serverId)
        ⟨.opening, { x.pool with state := ⟨db, x.clock⟩ }⟩
  | backfillServerOwner :
      x.phase = .opening →
      Takes config x .backfillServerOwner
        ⟨.up, { x.pool with state := ⟨backfillServerOwner x.db, x.clock⟩ }⟩
  | request {request : Request} :
      x.phase = .up → Takes config x (.request request) ⟨.up, x.pool.start (program config) request⟩
  | serve {n : Nat} {i : Input} {pool : Pool Store Input HttpError Reply Request} :
      x.phase = .up → x.pool.run n i = some pool → Takes config x (.serve n i) ⟨.up, pool⟩
  | tick {time : Nat} :
      Takes config x (.tick time) ⟨x.phase, { x.pool with state := ⟨x.db, x.clock + time⟩ }⟩
  | stop : Takes config x .stop ⟨.down, ⟨x.pool.state, []⟩⟩

theorem takes_of_step {config : Config} {x y : Process} {a : Action}
    (hstep : step config x a = some y) : Takes config x a y := by
  unfold step at hstep
  split at hstep
  next token serverId =>
    split at hstep
    next hphase =>
      split at hstep
      next db hdb =>
        cases hstep
        exact .ensureServer hphase hdb
      next => cases hstep
    next => cases hstep
  next =>
    split at hstep
    next hphase =>
      cases hstep
      exact .backfillServerOwner hphase
    next => cases hstep
  next request =>
    split at hstep
    next hphase =>
      cases hstep
      exact .request hphase
    next => cases hstep
  next n i =>
    split at hstep
    next hphase =>
      obtain ⟨pool, hrun, heq⟩ := Option.map_eq_some_iff.mp hstep
      cases heq
      exact .serve hphase hrun
    next => cases hstep
  next time =>
    cases hstep
    exact .tick
  next =>
    cases hstep
    exact .stop

section

variable (config : Config) (R : Request → Store → Store → Prop)

/-- Every request in service keeps what its handler guarantees. -/
def Process.Sound (x : Process) : Prop :=
  Pool.Sound R (fun request => Guarantee config (R request) request) x.pool

/-- What a step does to the store. -/
inductive Moves (x : Process) : Action → Process → Prop where
  | same {a : Action} {y : Process} : x.clock ≤ y.clock → y.db = x.db → Moves x a y
  | ensureServer {token serverId : String} {y : Process} :
      y.clock = x.clock → ensureServer config token serverId x.db = .ok y.db →
      Moves x (.ensureServer token serverId) y
  | backfillServerOwner {y : Process} :
      y.clock = x.clock → y.db = backfillServerOwner x.db → Moves x .backfillServerOwner y
  | serve {n : Nat} {i : Input} {request : Request} {y : Process} :
      served ⟨x, .serve n i, y⟩ = some request → x.clock ≤ y.clock →
      Change config (R request) request x.pool.state y.db → Moves x (.serve n i) y

end

section

variable {config : Config} {R : Request → Store → Store → Prop} {x y : Process} {a : Action}

/-- The step lemma.  The handlers go on keeping what they guarantee if the step
changes the store along what those in service rely on. -/
theorem Process.Sound.step (hR : ∀ request, Rely (R request)) (h : x.Sound config R)
    (hstep : step config x a = some y) :
    Moves config R x a y ∧
      ((∀ thread ∈ y.pool.threads, thread.program.Running →
        R thread.request x.pool.state y.pool.state) → y.Sound config R) := by
  have htrans : ∀ request a b c, R request a b → R request b c → R request a c :=
    fun request => (hR request).trans
  cases takes_of_step hstep with
  | ensureServer _ hdb => exact ⟨.ensureServer rfl hdb, fun hrely => h.env htrans hrely⟩
  | backfillServerOwner _ => exact ⟨.backfillServerOwner rfl rfl, fun hrely => h.env htrans hrely⟩
  | @request request _ =>
      exact ⟨.same (le_refl _) rfl, fun _ => h.start (program_ensures (hR request) request)⟩
  | @serve n i pool _ hrun =>
      obtain ⟨⟨thread, hthread, hclock, hdb⟩, hsound⟩ :=
        Pool.Sound.run (fun request => (hR request).refl) htrans h hrun
      refine ⟨?_, hsound⟩
      rcases hdb with hsame | hchange
      · exact .same hclock hsame
      · refine .serve ?_ hclock hchange
        show (x.pool.threads[n]?).map _ = some thread.request
        rw [hthread]
        rfl
  | tick =>
      refine ⟨.same ?_ rfl, fun hrely => h.env htrans hrely⟩
      exact le_add_of_nonneg_right (Int.natCast_nonneg _)
  | stop => exact ⟨.same (le_refl _) rfl, fun _ thread hthread => absurd hthread List.not_mem_nil⟩

end

/-! ## Opening -/

theorem ensureServer_eq_ok {config : Config} {token serverId : String} {db db' : Database}
    (h : ensureServer config token serverId db = .ok db') :
    ∃ settings, db' = { db with settings } ∧ db'.serverOwner = db.serverOwner := by
  unfold ensureServer at h
  split at h
  next =>
    cases h
    exact ⟨db.settings, rfl, rfl⟩
  next =>
    obtain ⟨db₁, hid, hhash⟩ := bind_eq_ok.mp h
    obtain ⟨_, rfl⟩ := Database.insertSetting_eq_ok hid
    obtain ⟨_, rfl⟩ := Database.insertSetting_eq_ok hhash
    refine ⟨_, rfl, ?_⟩
    show Finmap.lookup _ (Finmap.insert _ _ (Finmap.insert _ _ _)) = Finmap.lookup _ _
    rw [Finmap.lookup_insert_of_ne _ (by decide), Finmap.lookup_insert_of_ne _ (by decide)]

theorem backfillServerOwner_eq (db : Database) :
    ∃ settings, backfillServerOwner db = { db with settings } := by
  unfold backfillServerOwner Database.insertSettingOrIgnore
  split
  next =>
    split
    next => exact ⟨db.settings, rfl⟩
    next => exact ⟨_, rfl⟩
  next => exact ⟨db.settings, rfl⟩

/-- An administrator is not replaced. -/
theorem backfillServerOwner_of_some {db : Database} {userId : String}
    (h : db.serverOwner = some userId) : backfillServerOwner db = db := by
  unfold backfillServerOwner Database.insertSettingOrIgnore
  split
  next => exact if_pos (Finmap.mem_of_lookup_eq_some h)
  next => rfl

section

variable {config : Config} {R : Request → Store → Store → Prop} {x y : Process} {a : Action}

theorem Moves.evolves (h : Moves config R x a y) : Evolves x.pool.state y.pool.state := by
  cases h with
  | same hclock hdb => exact .of_db_eq hclock hdb
  | ensureServer hclock hdb =>
      obtain ⟨settings, heq, howner⟩ := ensureServer_eq_ok hdb
      exact .of_settings hclock.ge (fun userId hsome => howner.trans hsome) ⟨settings, heq⟩
  | backfillServerOwner hclock hdb =>
      obtain ⟨settings, heq⟩ := backfillServerOwner_eq x.db
      refine .of_settings hclock.ge (fun userId hsome => ?_) ⟨settings, hdb.trans heq⟩
      have hkept := backfillServerOwner_of_some hsome
      exact (congrArg Database.serverOwner (hdb.trans hkept)).trans hsome
  | serve _ hclock hchange =>
      obtain ⟨user, heffect, _⟩ := hchange
      exact heffect.evolves hclock

theorem Moves.wellFormed (h : Moves config R x a y) (hwf : x.db.WellFormed) :
    y.db.WellFormed := by
  cases h with
  | same _ hdb => exact hdb ▸ hwf
  | ensureServer _ hdb =>
      obtain ⟨settings, heq, _⟩ := ensureServer_eq_ok hdb
      rw [heq]
      exact { hwf with }
  | backfillServerOwner _ hdb =>
      obtain ⟨settings, heq⟩ := backfillServerOwner_eq x.db
      rw [hdb, heq]
      exact { hwf with }
  | serve _ _ hchange =>
      obtain ⟨user, heffect, _⟩ := hchange
      exact heffect.wellFormed hwf

/-! ## Every run -/

theorem Process.Sound.initial (clock : Instant) : (Process.initial clock).Sound config R :=
  fun _ hthread => absurd hthread List.not_mem_nil

/-- The handlers of a reachable server keep what they guarantee. -/
theorem sound_of_reachable (h : (system config).Reachable x) :
    x.Sound config fun _ => Evolves := by
  refine System.Reachable.invariant ?_ ?_ h
  · rintro x ⟨clock, rfl⟩
    exact .initial clock
  · intro x a y hsound hstep
    obtain ⟨hmoves, hkeeps⟩ := hsound.step (fun _ => .of_evolves) hstep
    exact hkeeps fun _ _ _ => hmoves.evolves

theorem moves_of_reachable (h : (system config).Reachable x)
    (hstep : (system config).step x a y) : Moves config (fun _ => Evolves) x a y :=
  ((sound_of_reachable h).step (fun _ => .of_evolves) hstep).1

theorem wellFormed_of_reachable (h : (system config).Reachable x) : x.db.WellFormed := by
  refine System.Reachable.induction (I := fun x => x.db.WellFormed) ?_ ?_ h
  · rintro x ⟨clock, rfl⟩
    exact .empty
  · intro x a y hx hwf hstep
    exact (moves_of_reachable hx hstep).wellFormed hwf

/-- The tables evolve over every run. -/
theorem evolves_of_run {tr : List (Event Process Action)} (h : (system config).Reachable x)
    (hrun : (system config).Run x tr y) : Evolves x.pool.state y.pool.state := by
  induction hrun with
  | refl => exact .refl _
  | snoc hbefore hstep ih => exact ih.trans (moves_of_reachable (h.run hbefore) hstep).evolves

/-- The threads of a reachable server are in the handlers of their requests. -/
theorem serves_of_reachable (h : (system config).Reachable x) : x.pool.Serves (program config) := by
  refine System.Reachable.invariant (I := fun x => x.pool.Serves (program config)) ?_ ?_ h
  · rintro x ⟨clock, rfl⟩ thread hthread
    cases hthread
  · intro x a y hserves hstep
    cases takes_of_step hstep with
    | ensureServer | backfillServerOwner | tick => exact hserves
    | @request request _ => exact hserves.start request
    | serve _ hrun => exact hserves.run hrun
    | stop =>
        intro thread hthread
        cases hthread

/-- The section of a handler that checks its request and does one transaction. -/
theorem serve_transaction {n : Nat} {i : Input} {request : Request} {checked : Outcome Unit}
    {work : Input → Readings → Database → Outcome (Reply × Database)}
    (hx : (system config).Reachable x) (hstep : (system config).step x (.serve n i) y)
    (hserved : served ⟨x, .serve n i, y⟩ = some request)
    (hprogram : program config request =
      browser (Program.check checked >>= fun _ => transaction work)) :
    (∃ reply, work i (i.readings x.clock) x.db = .ok (reply, y.db) ∧
      answered ⟨x, .serve n i, y⟩ = some (.ok reply)) ∨
    (y.db = x.db ∧ ∃ error, answered ⟨x, .serve n i, y⟩ = some (.error error)) := by
  cases takes_of_step hstep with
  | serve _ hrun =>
      obtain ⟨request', act, next, hthread, rfl⟩ := Pool.run_eq_some hrun
      have hrequest : request' = request := by
        have hserved' : (x.pool.threads[n]?).map (·.request) = some request := hserved
        rw [hthread] at hserved'
        exact Option.some.inj hserved'
      subst hrequest
      have hreaches := serves_of_reachable hx _ (List.mem_of_getElem? hthread)
      have hlt : n < x.pool.threads.length := (List.getElem?_eq_some_iff.mp hthread).1
      have hanswered : answered ⟨x, .serve n i, ⟨.up, ⟨act i x.pool.state,
          x.pool.threads.set n ⟨request', next i x.pool.state⟩⟩⟩⟩ =
            (next i x.pool.state).outcome := by
        show ((x.pool.threads.set n _)[n]?).bind _ = _
        rw [List.getElem?_set_self hlt]
        rfl
      rw [hprogram] at hreaches
      cases checked with
      | error error =>
          have hfailed : (Program.check (.error (.api error)) :
              Program Store Input HttpError Reply).Reaches (.locked act next) := hreaches
          cases hfailed.of_check
      | ok _ =>
          have hreaches' : (browser (transaction work)).Reaches (.locked act next) := hreaches
          have hsection : browser (transaction work) = Program.step fun i s =>
              ((attempt .internal work i s).1.mapError .api, (attempt .internal work i s).2) :=
            Program.mapError_step _ _
          rw [hsection] at hreaches'
          rcases hreaches'.of_step with heq | ⟨result, heq⟩
          · cases heq
            rw [hanswered, Program.outcome_check]
            show (∃ reply, _ ∧ _) ∨ ((attempt .internal work i x.pool.state).2.db = _ ∧ _)
            rcases attempt_cases .internal work i x.pool.state with
              ⟨reply, db, hwork, hattempt⟩ | ⟨error, hattempt⟩
            · left
              refine ⟨reply, hwork.trans ?_, ?_⟩
              · show _ = Except.ok (reply, (attempt .internal work i x.pool.state).2.db)
                rw [hattempt]
              · show some ((attempt .internal work i x.pool.state).1.mapError _) = _
                rw [hattempt]
                rfl
            · right
              refine ⟨by rw [hattempt]; rfl, .api error, ?_⟩
              show some ((attempt .internal work i x.pool.state).1.mapError _) = _
              rw [hattempt]
              rfl
          · exact absurd heq.symm Program.check_ne_locked

end

/-! ## A first run -/

/-- A server whose `hash` gives the digests of the tokens used below. -/
def sampleConfig : Config where
  hash
    | "claim-me" => "f17ef7c14f68f509cf1e35243cde3e85102b3c0fcd3f8f9d1c8e45561dea2810"
    | "token-1" => "3f08aace122ee2368432c1ca23a049bc640bafbf00fdf33a52429f38ba12dbf9"
    | "csrf-1" => "3f6f36ef4d060436a9ebe8029c2ae4566c983c31afadb2ca5f6a25d0b56d43a1"
    | "token-2" => "0f6bffa9661cb5dd2f3f7b2929f33061f58a7ba7fdd689530b1a306f8ed8f3ec"
    | "token-3" => "a2f2b0b588bcc84fbf4d2ac8cc086b6f84de3e00fa3c1ba11e38ac078eb03192"
    | "csrf-3" => "63201594e9a2bd399d749eb104c45bae725f206b41c36c624c8f49746ec0f53f"
    | _ => "e3b0c44298fc1c149afbf4c8996fb92427ae41e4649b934ca495991b7852b855"
  publicBaseUrl := "https://c6.example"
  gitHttp := false

/-- A section in which nothing goes wrong and no time passes. -/
def sampleInput (random : List String) : Input where
  waits := (0, 0, 0)
  random := fun n => random.getD n ""
  fault := false
  create := .ok ()
  commitChanges := .ok ""
  cleanup := true
  branches := .ok []
  commits := .ok ()
  opened := true
  smartHttp := .error .unavailable
  schedule := .error ""

/-- The headers of the user who claims the server. -/
def sampleHeaders : Headers :=
  ⟨[], some "c6_session=token-1; c6_csrf=csrf-1", some "csrf-1", none, []⟩

/-- The server is started and claimed. -/
def sampleClaim : List Action :=
  [.ensureServer "claim-me" "server-1", .backfillServerOwner,
    .request ⟨⟨[], none, none, none, []⟩,
      .claim ⟨"claim-me", "Ada", "laptop", "a public key of thirty-two bytes"⟩⟩,
    .serve 0 (sampleInput ["user-1", "device-1", "session-1", "token-1", "csrf-1"])]

/-- The state some steps lead to from the start. -/
def stateAfter (config : Config) (actions : List Action) : Option Process :=
  (System.follow (step config) (.initial 0) actions).map (·.2)

theorem run_of_stateAfter {config : Config} {actions : List Action} {x : Process}
    (h : stateAfter config actions = some x) :
    (system config).Run (.initial 0) (System.events (step config) (.initial 0) actions) x := by
  obtain ⟨⟨tr, y⟩, hfollow, heq⟩ := Option.map_eq_some_iff.mp h
  cases heq
  have hevents : System.events (step config) (.initial 0) actions = tr := by
    unfold System.events
    rw [hfollow]
    rfl
  rw [hevents]
  exact .of_follow hfollow

theorem reachable_of_stateAfter {config : Config} {actions : List Action} {x : Process}
    (h : stateAfter config actions = some x) : (system config).Reachable x :=
  ⟨_, _, ⟨0, rfl⟩, run_of_stateAfter h⟩

end Cresix.Server
