import Cresix.Cloud.Moves

/-!
# Revocation

A revocation takes the route out of the registry and no session registers the
installation again.  It does not reach the handlers that cloned the
registration before, nor what is already in the queue of a session: such a
request is still started after the revocation has returned.

`Drained` says that there is none of these.  In every run, a revocation that
returns while the installation is drained lets no request start any more.
-/

namespace Cresix.Cloud

open Relay
open Rust (Uuid)
open Transition (System Event)

/-- The clone of a handler that has not sent its exchange yet. -/
def ProxyTask.unsent? : ProxyTask → Option RelayRegistration
  | .reading registration _ | .sending registration _ => some registration
  | _ => none

namespace Process

/-- The session of the registration runs for the installation. -/
def Serves (cloud : Process) (registration : RelayRegistration) (id : Uuid) : Prop :=
  ∃ session, cloud.sessions[registration.sessionId]? = some session ∧
    session.installationId = id ∧ session.Serving

/-- No request is on its way to a connector of the installation. -/
structure Drained (cloud : Process) (id : Uuid) : Prop where
  /-- No handler can still send to a session of it. -/
  clones : ∀ {number : Nat} {proxy : Proxy} {registration : RelayRegistration},
    cloud.proxies[number]? = some proxy →
    proxy.task.unsent? = some registration → ¬ cloud.Serves registration id
  /-- No session of it has an exchange queued, or taken and not started. -/
  queues : ∀ {number : Nat} {session : Session}, cloud.sessions[number]? = some session →
    session.installationId = id → session.Serving →
    session.queue = none ∧ ∀ exchange frame, ¬ session.WillStart exchange frame

/-- Ingress to the installation is terminated. -/
structure Terminated (cloud : Process) (id : Uuid) : Prop extends cloud.Drained id where
  listed : ∃ route, cloud.db.Routes id route
  revoked : cloud.db.Revoked id
  unregistered : ∀ {route registration}, cloud.relays.lookup route = some registration →
    ¬ cloud.Serves registration id

/-- The registration is one of a session for the installation of the route. -/
def Registered (cloud : Process) (route : String) (registration : RelayRegistration) : Prop :=
  ∃ session, cloud.sessions[registration.sessionId]? = some session ∧ session.Joined ∧
    cloud.db.Routes session.installationId route

/-- What the registry and the database agree on. -/
structure RegistryInvariant (cloud : Process) : Prop where
  keyed : cloud.db.Keyed
  registered : ∀ {route registration}, cloud.relays.lookup route = some registration →
    cloud.Registered route registration
  revoking : ∀ {installation}, cloud.revoking = some installation →
    cloud.db.Routes installation.id installation.routeId ∧ cloud.db.Revoked installation.id

end Process

/-! ## The registry -/

section

variable {cloud cloud' : Process} {a : Action} {id : Uuid}

theorem Move.keeps (h : Move cloud a cloud') : Database.Keeps cloud.db cloud'.db := by
  cases h with
  | tick => exact .refl _
  | registerInstallation hkeeps => exact hkeeps
  | revoke => exact Database.keeps_revoke _ _ _
  | revoked => exact .refl _
  | request => exact .refl _
  | proxy => exact .refl _
  | enqueue => exact .refl _
  | connect => exact .refl _
  | register => exact Database.keeps_setConnected _ _ _
  | take => exact .refl _
  | session => exact .refl _
  | settle =>
      rw [Process.setReply_db]
      exact .refl _
  | unregister => exact .refl _
  | leave _ _ hkeeps =>
      rw [Process.dropQueue_db]
      exact hkeeps

/-- An entry of the registry is an old one, or the session has just registered. -/
theorem Move.lookup_relays (h : Move cloud a cloud') {route : String}
    {registration : RelayRegistration} (hlookup : cloud'.relays.lookup route = some registration) :
    cloud.relays.lookup route = some registration ∨
      ∃ session, cloud.sessions[registration.sessionId]? = some session ∧
        session.task = .registering ∧ cloud.revoking = none ∧
        cloud.db.activeRoute session.installationId = some route ∧
        cloud'.sessions[registration.sessionId]? =
          some { session with route := some route, task := .idle } := by
  cases h with
  | tick => exact .inl hlookup
  | registerInstallation => exact .inl hlookup
  | revoke => exact .inl hlookup
  | @revoked _ installation =>
      simp only [Finmap.lookup_erase_eq_ite] at hlookup
      split_ifs at hlookup
      exact .inl hlookup
  | request => exact .inl hlookup
  | proxy => exact .inl hlookup
  | enqueue => exact .inl hlookup
  | connect => exact .inl hlookup
  | @register _ number session route' hsession htask hlock hroute =>
      have hlookup : (cloud.relays.insert route' ⟨number⟩).lookup route = some registration :=
        hlookup
      rw [Finmap.lookup_insert_eq_ite] at hlookup
      split_ifs at hlookup with heq
      · cases hlookup
        subst heq
        exact .inr ⟨session, hsession, htask, hlock, hroute, Process.setSession_self hsession _⟩
      · exact .inl hlookup
  | take => exact .inl hlookup
  | session => exact .inl hlookup
  | settle =>
      rw [Process.setReply_relays] at hlookup
      exact .inl hlookup
  | @unregister _ number session route' =>
      have hlookup : (cloud.relays.erase route').lookup route = some registration := hlookup
      rw [Finmap.lookup_erase_eq_ite] at hlookup
      split_ifs at hlookup
      exact .inl hlookup
  | leave =>
      rw [Process.dropQueue_relays] at hlookup
      exact .inl hlookup

/-- A revocation that holds the lock held it before, or has just committed. -/
theorem Move.revoking_cases (h : Move cloud a cloud') {installation : Installation}
    (hlock : cloud'.revoking = some installation) :
    cloud.revoking = some installation ∨
      (installation ∈ cloud.db.installations ∧
        cloud'.db = cloud.db.revoke installation.id cloud.now) := by
  cases h with
  | tick => exact .inl hlock
  | registerInstallation => exact .inl hlock
  | revoke _ hmem =>
      cases hlock
      exact .inr ⟨hmem, rfl⟩
  | revoked => cases hlock
  | request => exact .inl hlock
  | proxy => exact .inl hlock
  | enqueue => exact .inl hlock
  | connect => exact .inl hlock
  | register => exact .inl hlock
  | take => exact .inl hlock
  | session => exact .inl hlock
  | settle =>
      rw [Process.setReply_revoking] at hlock
      exact .inl hlock
  | unregister => exact .inl hlock
  | leave =>
      rw [Process.dropQueue_revoking] at hlock
      exact .inl hlock

theorem Process.RegistryInvariant.move (h : cloud.RegistryInvariant) (hmove : Move cloud a cloud') :
    cloud'.RegistryInvariant where
  keyed := hmove.keeps.keyed h.keyed
  registered := by
    intro route registration hlookup
    rcases hmove.lookup_relays hlookup with hold | ⟨session, -, -, -, hroute, hnew⟩
    · obtain ⟨session, hsession, hjoined, hroutes⟩ := h.registered hold
      obtain ⟨session', hsession', hid, hkept⟩ := hmove.session_kept hsession
      exact ⟨session', hsession', hkept hjoined, hid ▸ hmove.keeps.routes hroutes⟩
    · exact ⟨_, hnew, trivial, hmove.keeps.routes (Database.activeRoute_eq_some hroute).1⟩
  revoking := by
    intro installation hlock
    rcases hmove.revoking_cases hlock with hold | ⟨hmem, hdb⟩
    · obtain ⟨hroutes, hrevoked⟩ := h.revoking hold
      exact ⟨hmove.keeps.routes hroutes, hmove.keeps.revoked ⟨_, hroutes⟩ hrevoked⟩
    · rw [hdb]
      exact ⟨(Database.keeps_revoke _ _ _).routes ⟨installation, hmem, rfl, rfl⟩,
        Database.revoked_revoke _ _ _⟩

/-! ## Terminated ingress -/

/-- A session that runs after a step ran before, when its installation is revoked. -/
theorem Move.serves (h : Move cloud a cloud') (hrevoked : cloud.db.Revoked id)
    {registration : RelayRegistration} (hserves : cloud'.Serves registration id) :
    cloud.Serves registration id := by
  obtain ⟨session', hsession', hid, hserving⟩ := hserves
  cases h.sessionMove hsession' with
  | calm hsession hcalm _ =>
      exact ⟨_, hsession, hcalm.installationId ▸ hid, hcalm.serving hserving⟩
  | admitted hsession _ _ _ _ _ => exact ⟨_, hsession, hid, hserving⟩
  | taken hsession htask _ _ =>
      refine ⟨_, hsession, hid, ?_⟩
      simp [Session.Serving, htask]
  | registered _ _ _ hroute =>
      subst hid
      exact absurd hrevoked (Database.activeRoute_eq_some hroute).2
  | left => exact absurd hserving (by simp [Session.Serving])
  | connected => exact absurd hserving (by simp [Session.Serving])

/-- A handler with a clone got it from the registry, or had it before. -/
theorem Move.unsent (h : Move cloud a cloud') {number : Nat} {proxy' : Proxy}
    {registration : RelayRegistration} (hproxy : cloud'.proxies[number]? = some proxy')
    (hunsent : proxy'.task.unsent? = some registration) :
    (∃ proxy, cloud.proxies[number]? = some proxy ∧ proxy.task.unsent? = some registration) ∨
      ∃ route, cloud.relays.lookup route = some registration := by
  cases h.proxyStep hproxy with
  | moved hold hmove =>
      cases hmove with
      | fetch htask hlookup =>
          cases hunsent
          exact .inr ⟨_, hlookup⟩
      | body htask =>
          cases hunsent
          exact .inl ⟨_, hold, by rw [htask]; rfl⟩
      | answer => cases hunsent
      | drop => cases hunsent
  | admitted => cases hunsent
  | replied hold => exact .inl ⟨_, hold, hunsent⟩
  | arrived => cases hunsent

theorem Process.Terminated.move (h : cloud.Terminated id) (hmove : Move cloud a cloud') :
    cloud'.Terminated id where
  listed := by
    obtain ⟨route, hroutes⟩ := h.listed
    exact ⟨route, hmove.keeps.routes hroutes⟩
  revoked := hmove.keeps.revoked h.listed h.revoked
  unregistered := by
    intro route registration hlookup hserves
    rcases hmove.lookup_relays hlookup with hold | ⟨session, hsession, -, -, hroute, hnew⟩
    · exact h.unregistered hold (hmove.serves h.revoked hserves)
    · obtain ⟨session', hsession', hid, -⟩ := hserves
      rw [hnew] at hsession'
      cases hsession'
      subst hid
      exact absurd h.revoked (Database.activeRoute_eq_some hroute).2
  clones := by
    intro number proxy registration hproxy hunsent hserves
    have hbefore := hmove.serves h.revoked hserves
    rcases hmove.unsent hproxy hunsent with ⟨old, hold, hclone⟩ | ⟨route, hlookup⟩
    · exact h.clones hold hclone hbefore
    · exact h.unregistered hlookup hbefore
  queues := by
    intro number session' hsession' hid hserving
    cases hmove.sessionMove hsession' with
    | calm hsession hcalm _ =>
        obtain ⟨hqueue, hstarts⟩ :=
          h.queues hsession (hcalm.installationId ▸ hid) (hcalm.serving hserving)
        exact ⟨hcalm.queue.trans hqueue, fun exchange frame hwill =>
          hstarts exchange frame (hcalm.willStart hwill)⟩
    | @admitted session exchange proxy hsession _ hproxy htask _ _ =>
        have hclone : proxy.task.unsent? = some ⟨number⟩ := by rw [htask]; rfl
        exact absurd ⟨session, hsession, hid, hserving⟩ (h.clones hproxy hclone)
    | @taken session exchange requestId hsession htask hqueue _ =>
        have hrunning : session.Serving := by simp [Session.Serving, htask]
        rw [(h.queues hsession hid hrunning).1] at hqueue
        cases hqueue
    | registered _ _ _ hroute =>
        subst hid
        exact absurd h.revoked (Database.activeRoute_eq_some hroute).2
    | left => exact absurd hserving (by simp [Session.Serving])
    | connected => exact absurd hserving (by simp [Session.Serving])

/-- The route is gone and nothing was on its way. -/
theorem Process.Drained.terminated (hdrained : cloud.Drained id) (h : cloud.RegistryInvariant)
    {installation : Installation} (hlock : cloud.revoking = some installation)
    (hid : installation.id = id) :
    Process.Terminated { cloud with
      relays := cloud.relays.erase installation.routeId, revoking := none } id := by
  subst hid
  obtain ⟨hroutes, hrevoked⟩ := h.revoking hlock
  refine ⟨⟨hdrained.clones, hdrained.queues⟩, ⟨_, hroutes⟩, hrevoked, ?_⟩
  rintro route registration hlookup ⟨session, hsession, hid, -⟩
  have hlookup : (cloud.relays.erase installation.routeId).lookup route = some registration :=
    hlookup
  rw [Finmap.lookup_erase_eq_ite] at hlookup
  split_ifs at hlookup with hroute
  obtain ⟨session', hsession', -, hroutes'⟩ := h.registered hlookup
  obtain rfl := Option.some.inj (hsession'.symm.trans hsession)
  exact hroute ((h.keyed.routes_iff hroutes' hroutes).mpr hid)

/-- No session of the installation starts a request. -/
theorem Process.Terminated.not_starts (h : cloud.Terminated id) {number : Nat} {session : Session}
    (hsession : cloud.sessions[number]? = some session) {exchange : ProxyExchange}
    {frame : RequestStartFrame} (hstarts : session.startsNext = some (exchange, frame)) :
    session.installationId ≠ id := by
  intro hid
  have hwill := Session.willStart_of_startsNext hstarts
  exact (h.queues hsession hid hwill.serving).2 exchange frame hwill

end

/-! ## Runs -/

section

variable {codec : ControlCodec} {hash : List UInt8 → String} {cloud cloud' : Process}
variable {tr : List (Event Process Action)}

theorem Process.Started.registryInvariant (h : cloud.Started) : cloud.RegistryInvariant where
  keyed := h.keyed
  registered := by
    intro route registration hlookup
    rw [h.relays, Finmap.lookup_empty] at hlookup
    cases hlookup
  revoking := by
    intro installation hlock
    rw [h.revoking] at hlock
    cases hlock

theorem registryInvariant_of_run (hstart : cloud.RegistryInvariant)
    (hrun : (Process.system codec hash).Run cloud tr cloud') : cloud'.RegistryInvariant :=
  hrun.invariant (fun _ _ _ h hstep => h.move (step_move hstep)) hstart

theorem Process.Terminated.of_run {id : Uuid} (h : cloud.Terminated id)
    (hrun : (Process.system codec hash).Run cloud tr cloud') : cloud'.Terminated id :=
  System.Run.invariant (I := fun cloud => cloud.Terminated id)
    (fun _ _ _ h hstep => h.move (step_move hstep)) hrun h

/-- In every run, once a revocation has returned that found the installation drained, no
`RequestStart` is sent to a connector of it. -/
theorem revocation_terminates_ingress (hstart : cloud.Started)
    (hrun : (Process.system codec hash).Run cloud tr cloud')
    {before after : List (Event Process Action)} {e : Event Process Action}
    (htr : tr = before ++ e :: after) {id : Uuid} (hreturns : revokedInstallation e = some id)
    (hdrained : e.pre.Drained id) :
    ∀ e' ∈ after, ∀ session exchange frame, startSent e' = some (session, exchange, frame) →
      session.installationId ≠ id := by
  subst htr
  obtain ⟨hbefore, hstep, hafter⟩ := hrun.split_at
  obtain ⟨installation, hlabel, hlock, hid⟩ := revokedInstallation_eq_some hreturns
  have hinv := registryInvariant_of_run hstart.registryInvariant hbefore
  have hterminated : e.post.Terminated id := by
    have hpost : e.pre.step codec hash e.label = some e.post := hstep
    rw [hlabel] at hpost
    simp only [Process.step, hlock] at hpost
    rw [← Option.some.inj hpost]
    exact hdrained.terminated hinv hlock hid
  intro e' he' session exchange frame hsent
  obtain ⟨_, _, rfl, hrun', -, -⟩ := hafter.split he'
  obtain ⟨number, -, hsession, hstarts⟩ := startSent_eq_some hsent
  exact (hterminated.of_run hrun').not_starts hsession hstarts

end

/-! ### A drained installation -/

/-- No handler has an exchange to send and no session has one. -/
def Process.quiet (cloud : Process) : Bool :=
  cloud.proxies.all (fun proxy => proxy.task.unsent?.isNone) &&
    cloud.sessions.all fun session => session.queue.isNone && session.running.isNone

theorem Process.drained_of_quiet {cloud : Process} (h : cloud.quiet = true) (id : Uuid) :
    cloud.Drained id := by
  simp only [quiet, Bool.and_eq_true, List.all_eq_true, Option.isNone_iff_eq_none] at h
  refine ⟨?_, ?_⟩
  · intro number proxy registration hproxy hunsent _
    rw [h.1 proxy (List.mem_of_getElem? hproxy)] at hunsent
    cases hunsent
  · intro number session hsession _ _
    obtain ⟨hqueue, hrunning⟩ := h.2 session (List.mem_of_getElem? hsession)
    refine ⟨hqueue, fun exchange frame hwill => ?_⟩
    rw [hwill.running] at hrunning
    cases hrunning

theorem eq_append_of_getElem? {l : List α} {n : Nat} {a : α} (h : l[n]? = some a) :
    l = l.take n ++ a :: l.drop (n + 1) := by
  obtain ⟨hlt, rfl⟩ := List.getElem?_eq_some_iff.mp h
  rw [← List.drop_eq_getElem_cons hlt, List.take_append_drop]

/-- The installation is revoked with no request under way; one comes later. -/
def revokedIdle : List Action :=
  connectSteps ++ [.revoke 7 1, .revoked, .request "home" (getRequest "status"), .proxy 0 .lookup]

theorem revocation_terminates_ingress_idle : ∃ e cloud',
    (Process.system sampleCodec sampleHash).Run emptyCloud (eventsOf revokedIdle) cloud' ∧
    (eventsOf revokedIdle)[5]? = some e ∧ revokedInstallation e = some 1 ∧ e.pre.Drained 1 ∧
    ∀ e' ∈ (eventsOf revokedIdle).drop 6, ∀ session exchange frame,
      startSent e' = some (session, exchange, frame) → session.installationId ≠ 1 := by
  obtain ⟨cloud', hrun⟩ : ∃ cloud', (Process.system sampleCodec sampleHash).Run emptyCloud
      (eventsOf revokedIdle) cloud' := System.Run.events (by decide)
  have hreturns : (eventsOf revokedIdle)[5]?.bind (fun e =>
      if e.pre.quiet then revokedInstallation e else none) = some 1 := by decide +kernel
  obtain ⟨e, he, hreturned⟩ := Option.bind_eq_some_iff.mp hreturns
  split_ifs at hreturned with hquiet
  have hdrained := Process.drained_of_quiet hquiet 1
  exact ⟨e, cloud', hrun, he, hreturned, hdrained, revocation_terminates_ingress emptyCloud_started
    hrun (eq_append_of_getElem? he) hreturned hdrained⟩

/-! ### A request whose body arrives late -/

/-- A handler has cloned the registration and waits for the body when the installation is
revoked. -/
def revokedWhileReading : List Action :=
  connectSteps ++
    [.request "home" (getRequest "status"), .proxy 0 .lookup, .revoke 7 1, .revoked,
      .proxy 0 (.body []), .proxy 0 .send, .session 0 (.take 5), .session 0 .send]

/-- The request is started after the revocation has returned. -/
theorem revocation_leaves_ingress : ∃ e cloud',
    (Process.system sampleCodec sampleHash).Run emptyCloud (eventsOf revokedWhileReading) cloud' ∧
    (eventsOf revokedWhileReading)[7]? = some e ∧ revokedInstallation e = some 1 ∧
    ∃ e' ∈ (eventsOf revokedWhileReading).drop 8, ∃ session exchange frame,
      startSent e' = some (session, exchange, frame) ∧ session.installationId = 1 := by
  obtain ⟨cloud', hrun⟩ : ∃ cloud', (Process.system sampleCodec sampleHash).Run emptyCloud
      (eventsOf revokedWhileReading) cloud' := System.Run.events (by decide)
  have hreturns : (eventsOf revokedWhileReading)[7]?.bind revokedInstallation = some 1 := by
    decide
  have hstarts : ((eventsOf revokedWhileReading).drop 8).any (fun e =>
      (startSent e).any fun sent => decide (sent.1.installationId = 1)) = true := by
    decide
  obtain ⟨e, he, hreturned⟩ := Option.bind_eq_some_iff.mp hreturns
  obtain ⟨e', he', hsent⟩ := List.any_eq_true.mp hstarts
  obtain ⟨⟨session, exchange, frame⟩, hsent, hid⟩ := (Option.any_eq_true _ _).mp hsent
  exact ⟨e, cloud', hrun, he, hreturned, e', he', session, exchange, frame, hsent,
    of_decide_eq_true hid⟩

end Cresix.Cloud
