import Cresix.Cli.Pinning

/-!
# Finding what was stored

The credential helper keeps a token under the first alias that has the origin of
the request, and searches the aliases again when it is asked for the token.  An
alias that was added in between and comes before that one hides the token, for
its own credential is looked up instead.  Nothing else does: a token is found as
long as no such alias is added (`stored_token_found`).
-/

namespace Cresix.Cli

open Transition

variable {crate : UrlCrate} {s t u : CliState} {tr : List CliEvent} {e : CliEvent} {call : Call}
  {config : Config} {origin : Origin} {request : HelperRequest} {name path token : String}

/-- A helper process has stored a token. -/
def StoresToken (crate : UrlCrate) (s : CliState) (request : HelperRequest) (token : String)
    (u : CliState) : Prop :=
  ∃ arg stdin io, readRequest crate stdin = .ok (some request) ∧ request.token? = some token ∧
    s.step crate ⟨.helper arg stdin io, .helper (.ok .stored)⟩ = some u

/-- A helper process that is asked for the origin and path of a request and that can read the
local state prints a token. -/
def FindsToken (crate : UrlCrate) (t : CliState) (request : HelperRequest) (token : String) :
    Prop :=
  ∀ stdin io request', readRequest crate stdin = .ok (some request') →
    request'.origin.eq request.origin = true → request'.path = request.path →
    io.lock = none → io.loadConfig = none → io.loadCredentials = none →
    execute crate (some "get") stdin io t.disk = (.ok (.printed token), t.disk)

/-- A process was asked to store or to erase a token for an origin and a path. -/
def Command.Replaces (crate : UrlCrate) (origin : Origin) (path : String) (command : Command) :
    Prop :=
  ∃ arg stdin io operation request, command = .helper arg stdin io ∧
    Operation.ofArg arg = .ok operation ∧ operation ≠ .get ∧
    readRequest crate stdin = .ok (some request) ∧
    request.origin.eq origin = true ∧ request.path = path

/-- `server add` has written a server of an origin under an alias before all those that have the
origin in a configuration. -/
def Overtakes (crate : UrlCrate) (config : Config) (origin : Origin) (e : CliEvent) : Prop :=
  ∃ request status io configured, e.label.command = .serverAdd request (.ok status) io ∧
    Origin.parse crate request.origin request.allowHttpLocalhost = .ok configured ∧
    configured.eq origin = true ∧
    (∀ name server, config.servers.get? name = some server →
      server.isFor crate origin = true → request.alias status < name) ∧
    e.post.disk.config ≠ e.pre.disk.config

/-! ## What a search finds -/

/-- The first alias of an origin has the token for a path. -/
structure Found (crate : UrlCrate) (origin : Origin) (path token name : String)
    (disk : LocalState) : Prop where
  /-- The alias has the origin. -/
  server : ∃ server, disk.config.servers.get? name = some server ∧
    server.isFor crate origin = true
  /-- No alias before it has. -/
  first : ∀ other server, disk.config.servers.get? other = some server →
    server.isFor crate origin = true → name ≤ other
  /-- It has the token. -/
  token : disk.credentials.gitToken name path = some token

theorem isFor_congr {server : Server} {a b : Origin} (h : a.eq b = true) :
    server.isFor crate a = true ↔ server.isFor crate b = true := by
  rw [isFor_iff, isFor_iff]
  constructor
  · rintro ⟨configured, hparse, heq⟩
    exact ⟨configured, hparse, Origin.eq_trans heq h⟩
  · rintro ⟨configured, hparse, heq⟩
    exact ⟨configured, hparse, Origin.eq_trans heq (Origin.eq_symm h)⟩

theorem matchedServer_congr {a b : Origin} (h : a.eq b = true) :
    matchedServer crate config a = matchedServer crate config b := by
  have hcongr : ∀ server : Server, server.isFor crate a = server.isFor crate b :=
    fun server => Bool.eq_iff_iff.mpr (isFor_congr h)
  simp only [matchedServer, hcongr]

/-- A server has at most one origin. -/
theorem eq_of_isFor {server : Server} {a b : Origin} (h : server.isFor crate a = true)
    (h' : server.isFor crate b = true) : a.eq b = true := by
  obtain ⟨configured, hparse, heq⟩ := isFor_iff.mp h
  obtain ⟨configured', hparse', heq'⟩ := isFor_iff.mp h'
  obtain rfl := Origin.parse_unique hparse hparse'
  exact Origin.eq_trans (Origin.eq_symm heq) heq'

theorem Found.matched {disk : LocalState} (h : Found crate origin path token name disk) :
    ∃ server, matchedServer crate disk.config origin = some (name, server) := by
  obtain ⟨server, hget, hfor⟩ := h.server
  exact ⟨server, matchedServer_eq_some_iff.mpr ⟨hget, hfor, h.first⟩⟩

/-- The token is printed. -/
theorem Found.finds (h : Found crate request.origin request.path token name t.disk) :
    FindsToken crate t request token := by
  intro stdin io request' hread horigin hpath hlock hconfig hcredentials
  obtain ⟨server, hmatch⟩ := h.matched
  rw [← matchedServer_congr horigin] at hmatch
  have htoken := h.token
  rw [← hpath] at htoken
  simp [execute, Operation.ofArg, hread, serveRequest, hlock, hconfig, hmatch, hcredentials,
    serve, htoken]

/-- What is stored is found at first. -/
theorem Found.of_stores (h : StoresToken crate s request token u) :
    ∃ name server, matchedServer crate s.disk.config request.origin = some (name, server) ∧
      Found crate request.origin request.path token name u.disk := by
  obtain ⟨arg, stdin, io, hread, hgiven, hstep⟩ := h
  rcases execute_cases (CliState.step_helper hstep) with ⟨-, -, hstored⟩ | h
  · exact absurd rfl hstored
  · obtain ⟨operation, request', -, hread', heffect⟩ := h
    rw [hread] at hread'
    cases hread'
    generalize u.disk = disk at heffect
    generalize hreply : (Except.ok HelperOutput.stored : Except String HelperOutput) = reply
      at heffect
    cases heffect with
    | quiet _ stored => exact absurd hreply.symm stored
    | printed => cases hreply
    | @stored _ name token' server _ matched given =>
        rw [hgiven] at given
        cases given
        obtain ⟨hget, hfor, hfirst⟩ := matchedServer_eq_some_iff.mp matched
        exact ⟨name, server, matched, ⟨server, hget, hfor⟩, hfirst,
          CredentialStore.gitToken_setGitToken_self⟩
    | erased _ _ _ stored => exact absurd hreply.symm stored

/-! ## Steps -/

/-- A server that is added has the origin for which it is added. -/
theorem isFor_server (hcrate : crate.Lawful) {added : AddRequest} {status : ServerStatus}
    {configured : Origin}
    (hparse : Origin.parse crate added.origin added.allowHttpLocalhost = .ok configured) :
    (added.server configured status).isFor crate configured = true :=
  isFor_iff.mpr ⟨configured, Origin.parse_asStr hcrate hparse, Origin.eq_iff.mpr rfl⟩

/-- Another server leaves the token found, unless it comes before all that had the origin. -/
theorem Found.add (hcrate : crate.Lawful) {disk : LocalState} {added : AddRequest}
    {status : ServerStatus} {configured : Origin}
    (h : Found crate origin path token name disk)
    (hparse : Origin.parse crate added.origin added.allowHttpLocalhost = .ok configured)
    (hpinned : ∀ existing, disk.config.servers.get? (added.alias status) = some existing →
      existing.baseUrl = configured.asStr)
    (hfirst : configured.eq origin = true → name ≤ added.alias status) :
    Found crate origin path token name { disk with
      config := disk.config.add (added.alias status) (added.server configured status) } := by
  have hadded : (added.server configured status).isFor crate configured = true :=
    isFor_server hcrate hparse
  refine ⟨?_, ?_, h.token⟩
  · obtain ⟨server, hget, hfor⟩ := h.server
    by_cases hname : name = added.alias status
    · subst hname
      refine ⟨added.server configured status, SortedMap.get?_insert_self, ?_⟩
      obtain ⟨before, hbefore, heq⟩ := isFor_iff.mp hfor
      rw [hpinned server hget] at hbefore
      obtain rfl := Origin.parse_unique hbefore (Origin.parse_asStr hcrate hparse)
      exact (isFor_congr heq).mp hadded
    · exact ⟨server, (SortedMap.get?_insert_ne hname).trans hget, hfor⟩
  · intro other server hget hfor
    by_cases hother : other = added.alias status
    · subst hother
      have hserver : server = added.server configured status :=
        (Option.some.inj (SortedMap.get?_insert_self.symm.trans hget)).symm
      subst hserver
      exact hfirst (eq_of_isFor hadded hfor)
    · exact h.first other server ((SortedMap.get?_insert_ne hother).symm.trans hget) hfor

/-- A process for another origin or path leaves the token found. -/
theorem Found.helped {disk disk' : LocalState} {operation : Operation}
    {request : HelperRequest} {reply : Except String HelperOutput}
    (h : Found crate origin path token name disk)
    (heffect : HelperEffect crate operation request disk reply disk')
    (hother : operation ≠ .get → ¬(request.origin.eq origin = true ∧ request.path = path)) :
    Found crate origin path token name disk' := by
  have hkey : ∀ name' server, operation ≠ .get →
      matchedServer crate disk.config request.origin = some (name', server) →
      ¬(name = name' ∧ path = request.path) := by
    rintro name' server hoperation hmatch ⟨rfl, rfl⟩
    obtain ⟨hget, hfor, -⟩ := matchedServer_eq_some_iff.mp hmatch
    obtain ⟨server', hget', hfor'⟩ := h.server
    rw [hget] at hget'
    cases hget'
    exact hother hoperation ⟨eq_of_isFor hfor hfor', rfl⟩
  cases heffect with
  | quiet => exact h
  | printed => exact h
  | stored store matched =>
      refine ⟨h.server, h.first, ?_⟩
      rw [CredentialStore.gitToken_setGitToken_ne (hkey _ _ (by simp [store]) matched)]
      exact h.token
  | erased erase matched =>
      refine ⟨h.server, h.first, ?_⟩
      rw [CredentialStore.gitToken_removeGitToken_ne (hkey _ _ (by simp [erase]) matched)]
      exact h.token

theorem Found.step (hcrate : crate.Lawful) {server : Server}
    (hmatch : matchedServer crate config origin = some (name, server))
    (h : Found crate origin path token name s.disk) (hstep : s.step crate call = some t)
    (hkeep : ¬call.command.Replaces crate origin path)
    (hfirst : ¬Overtakes crate config origin ⟨s, call, t⟩) :
    Found crate origin path token name t.disk := by
  have heffect := (CliState.step_effect hstep).1
  rw [Overtakes] at hfirst
  generalize t.disk = disk at heffect hfirst
  cases heffect with
  | same => exact h
  | used => exact ⟨h.server, h.first, h.token⟩
  | loggedIn => exact ⟨h.server, h.first, h.token⟩
  | loggedOut => exact ⟨h.server, h.first, h.token⟩
  | @added added answer io configured status command parsed answered pinned =>
      by_cases hsame : s.disk.config.add (added.alias status) (added.server configured status) =
        s.disk.config
      · rw [hsame]
        exact h
      · refine h.add hcrate parsed (fun existing hget => (pinned existing hget).2) ?_
        intro heq
        by_contra hlt
        obtain ⟨-, -, hleast⟩ := matchedServer_eq_some_iff.mp hmatch
        refine hfirst ⟨added, status, io, configured, answered ▸ command, parsed, heq, ?_, hsame⟩
        intro other server' hget hfor
        exact lt_of_lt_of_le (not_le.mp hlt) (hleast other server' hget hfor)
  | @helped arg stdin io reply operation request disk label operates read effect =>
      refine h.helped effect ?_
      rintro hoperation ⟨heq, hpath⟩
      subst label
      exact hkeep ⟨arg, stdin, io, operation, request, rfl, operates, hoperation, read, heq, hpath⟩

/-- A token that was stored is found after any run in which no process was asked to store or erase
one for the same origin and path, and in which no server of the origin was added under an alias
before all those that had the origin when the token was stored. -/
theorem stored_token_found (crate : UrlCrate) (hcrate : crate.Lawful) {s u t : CliState}
    {tr : List CliEvent} {request : HelperRequest} {token : String}
    (hstores : StoresToken crate s request token u) (hrun : (processes crate).Run u tr t)
    (hkeep : ∀ e ∈ tr, ¬e.label.command.Replaces crate request.origin request.path)
    (hfirst : ∀ e ∈ tr, ¬Overtakes crate s.disk.config request.origin e) :
    FindsToken crate t request token := by
  obtain ⟨name, server, hmatch, hfound⟩ := Found.of_stores hstores
  suffices h : Found crate request.origin request.path token name t.disk from h.finds
  induction hrun with
  | refl => exact hfound
  | @snoc tr t v call hrun hstep ih =>
      have hbefore := ih (fun e he => hkeep e (List.mem_append_left _ he))
        (fun e he => hfirst e (List.mem_append_left _ he))
      have hlast : (⟨t, call, v⟩ : CliEvent) ∈ tr ++ [⟨t, call, v⟩] :=
        List.mem_append_right _ List.mem_cons_self
      exact hbefore.step hcrate hmatch hstep (hkeep _ hlast) (hfirst _ hlast)

/-! ## A token that is hidden -/

theorem sampleCrate_lawful : sampleCrate.Lawful := by
  have hroot : ∀ {text : String} {url : Url}, sampleCrate.parse text = some url → url.Root →
      url = sampleRoot := by
    intro text url hurl hroot
    simp only [sampleCrate] at hurl
    split at hurl
    next =>
      cases hurl
      rfl
    next =>
      split at hurl
      next =>
        cases hurl
        exact absurd hroot.path (by decide)
      next => cases hurl
  constructor
  · intro text url hurl hweb
    obtain rfl := hroot hurl hweb
    rfl
  · intro text url hurl hweb
    obtain rfl := hroot hurl hweb
    decide

/-- One server is configured and a user has logged in to it. -/
def sampleState : CliState where
  disk := ⟨⟨some "zeta", true, SortedMap.empty.insert "zeta"
    ⟨"https://c6.example", Rust.hyphenated 5, false⟩⟩, .default⟩
  logins _ := none

/-- What a helper process takes from its input. -/
def requestSummary (crate : UrlCrate) (stdin : List UInt8) :
    Option (Option String × Origin × String) :=
  match readRequest crate stdin with
  | .ok (some request) => some (request.token?, request.origin, request.path)
  | _ => none

theorem readRequest_of_summary {stdin : List UInt8} {given : Option String}
    (h : requestSummary crate stdin = some (given, origin, path)) :
    ∃ request, readRequest crate stdin = .ok (some request) ∧ request.token? = given ∧
      request.origin = origin ∧ request.path = path := by
  rw [requestSummary] at h
  split at h
  next request hread =>
    cases h
    exact ⟨request, hread, rfl, rfl, rfl⟩
  next => cases h

/-- The token is stored, the server is added under another name, and the token is asked for. -/
theorem sample_hidden_isSome :
    ((sampleState.step sampleCrate sampleStore).bind fun u =>
      (u.step sampleCrate (sampleAdd "alpha")).bind fun t =>
        t.step sampleCrate (sampleGet .absent)).isSome = true := by
  decide +kernel

/-- The token is stored, the server is added under a later name, and the token is asked for. -/
theorem sample_found_isSome :
    ((sampleState.step sampleCrate sampleStore).bind fun u =>
      u.step sampleCrate (sampleAdd "zeta2")).isSome = true := by
  decide +kernel

theorem sampleStore_summary :
    requestSummary sampleCrate (sampleRequest "username=c6\npassword=c6g_v1_a_b\n") =
      some (some "c6g_v1_a_b", ⟨sampleRoot⟩, "/git/a/b.git") := by
  decide +kernel

theorem sampleGet_summary :
    requestSummary sampleCrate (sampleRequest "\n") =
      some (none, ⟨sampleRoot⟩, "/git/a/b.git") := by
  decide +kernel

/-- A step of `server add` stores and erases no token. -/
theorem not_replaces_sampleAdd (name : String) :
    ¬(sampleAdd name).command.Replaces crate origin path := by
  rintro ⟨arg, stdin, io, operation, request, hcommand, -⟩
  cases hcommand

/-- Once the server has been added under a name that comes first, the stored token is not found. -/
theorem stored_token_hidden : ¬∀ (s u t : CliState) (tr : List CliEvent) (request : HelperRequest)
    (token : String), StoresToken sampleCrate s request token u →
    (processes sampleCrate).Run u tr t →
    (∀ e ∈ tr, ¬e.label.command.Replaces sampleCrate request.origin request.path) →
    FindsToken sampleCrate t request token := by
  intro hclaim
  obtain ⟨v, hv⟩ := Option.isSome_iff_exists.mp sample_hidden_isSome
  obtain ⟨u, hu, hv⟩ := Option.bind_eq_some_iff.mp hv
  obtain ⟨t, ht, hv⟩ := Option.bind_eq_some_iff.mp hv
  obtain ⟨request, hread, hgiven, horigin, hpath⟩ := readRequest_of_summary sampleStore_summary
  obtain ⟨request', hread', -, horigin', hpath'⟩ := readRequest_of_summary sampleGet_summary
  have hfinds := hclaim sampleState u t _ request "c6g_v1_a_b" ⟨_, _, _, hread, hgiven, hu⟩
    (System.Run.single ht) (fun e he => by
      obtain rfl := List.mem_singleton.mp he
      exact not_replaces_sampleAdd "alpha")
  have hprinted := hfinds _ .sound request' hread'
    (by rw [horigin, horigin']; exact Origin.eq_iff.mpr rfl) (hpath'.trans hpath.symm) rfl rfl rfl
  rw [CliState.step_helper hv] at hprinted
  cases hprinted

/-- After the server has been added under a later name, the stored token is found. -/
theorem stored_token_found_sample : ∃ u t request,
    sampleState.step sampleCrate sampleStore = some u ∧
      u.step sampleCrate (sampleAdd "zeta2") = some t ∧
      readRequest sampleCrate (sampleRequest "username=c6\npassword=c6g_v1_a_b\n") =
        .ok (some request) ∧
      FindsToken sampleCrate t request "c6g_v1_a_b" := by
  obtain ⟨t, ht⟩ := Option.isSome_iff_exists.mp sample_found_isSome
  obtain ⟨u, hu, ht⟩ := Option.bind_eq_some_iff.mp ht
  obtain ⟨request, hread, hgiven, horigin, hpath⟩ := readRequest_of_summary sampleStore_summary
  refine ⟨u, t, request, hu, ht, hread, ?_⟩
  refine stored_token_found sampleCrate sampleCrate_lawful ⟨_, _, _, hread, hgiven, hu⟩
    (System.Run.single ht) ?_ ?_
  · intro e he
    obtain rfl := List.mem_singleton.mp he
    exact not_replaces_sampleAdd "zeta2"
  · intro e he
    obtain rfl := List.mem_singleton.mp he
    rintro ⟨added, status, io, configured, hcommand, -, -, hfirst, -⟩
    cases hcommand
    rw [horigin] at hfirst
    exact absurd (hfirst "zeta" ⟨"https://c6.example", Rust.hyphenated 5, false⟩ (by decide +kernel)
      (by decide +kernel)) (by decide +kernel)

end Cresix.Cli
