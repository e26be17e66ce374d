import Cresix.Cli.Processes

/-!
# Pinned credentials

An alias stands for one base URL and one server id for good.  So what was true
when a credential was stored under an alias is true of the alias ever after: the
server of an API token has accepted it, and a Git token was stored for an origin
that is still the origin of its alias (`Provenance`).  What the helper prints is
then what was stored for that origin and that path (`credentials_are_pinned`).
-/

namespace Cresix.Cli

open Transition

variable {crate : UrlCrate} {s₀ s t : CliState} {tr : List CliEvent} {e : CliEvent} {call : Call}

/-! ## Configurations -/

/-- The aliases of a configuration keep their base URLs and server ids. -/
def Config.Pins (old new : Config) : Prop :=
  ∀ name server, old.servers.get? name = some server → ∃ server',
    new.servers.get? name = some server' ∧ server'.baseUrl = server.baseUrl ∧
      server'.serverId = server.serverId

theorem Config.Pins.of_servers {old new : Config} (h : new.servers = old.servers) :
    old.Pins new := by
  intro name server hget
  exact ⟨server, h ▸ hget, rfl, rfl⟩

theorem Config.Pins.trans {a b c : Config} (h : a.Pins b) (h' : b.Pins c) : a.Pins c := by
  intro name server hget
  obtain ⟨server', hget', hurl', hid'⟩ := h name server hget
  obtain ⟨server'', hget'', hurl'', hid''⟩ := h' name server' hget'
  exact ⟨server'', hget'', hurl''.trans hurl', hid''.trans hid'⟩

/-- An alias is added again only for the server that it stands for. -/
theorem Config.pins_add {config : Config} {name : String} {server : Server}
    (h : ∀ existing, config.servers.get? name = some existing →
      existing.serverId = server.serverId ∧ existing.baseUrl = server.baseUrl) :
    config.Pins (config.add name server) := by
  intro other existing hget
  rcases eq_or_ne other name with rfl | hne
  · obtain ⟨hid, hurl⟩ := h existing hget
    exact ⟨server, SortedMap.get?_insert_self, hurl.symm, hid.symm⟩
  · refine ⟨existing, ?_, rfl, rfl⟩
    rw [Config.add, SortedMap.get?_insert_ne hne, hget]

theorem DiskEffect.pins {disk : LocalState} (h : DiskEffect crate s call disk) :
    s.disk.config.Pins disk.config := by
  cases h with
  | same => exact .of_servers rfl
  | added command parsed answered pinned => exact Config.pins_add pinned
  | used name => exact .of_servers rfl
  | loggedIn plaintext => exact .of_servers rfl
  | loggedOut name => exact .of_servers rfl
  | helped label operates read effect => exact .of_servers (by rw [effect.config_eq])

/-! ## Where the credentials come from -/

/-- The base URL is the text of the origin. -/
def Server.HasOrigin (crate : UrlCrate) (server : Server) (origin : Origin) : Prop :=
  ∃ flag, Origin.parse crate server.baseUrl flag = .ok origin

/-- The server of an origin has accepted a token and reported an id. -/
def AcceptedBy (tr : List CliEvent) (origin : Origin) (token serverId : String) : Prop :=
  ∃ e ∈ tr, ∃ pid who, e.label.command = .whoami pid origin token (.ok who) ∧
    Rust.hyphenated who.serverId = serverId

/-- A helper process was asked to store a token for an origin and a path. -/
def StoredFor (crate : UrlCrate) (tr : List CliEvent) (origin : Origin) (path token : String) :
    Prop :=
  ∃ e ∈ tr, ∃ arg stdin io request, e.label.command = .helper arg stdin io ∧
    Operation.ofArg arg = .ok .store ∧ readRequest crate stdin = .ok (some request) ∧
    request.token? = some token ∧ request.origin.eq origin = true ∧ request.path = path

theorem AcceptedBy.snoc {origin : Origin} {token serverId : String}
    (h : AcceptedBy tr origin token serverId) : AcceptedBy (tr ++ [e]) origin token serverId := by
  obtain ⟨e', hmem, h⟩ := h
  exact ⟨e', List.mem_append_left _ hmem, h⟩

theorem StoredFor.snoc {origin : Origin} {path token : String}
    (h : StoredFor crate tr origin path token) :
    StoredFor crate (tr ++ [e]) origin path token := by
  obtain ⟨e', hmem, h⟩ := h
  exact ⟨e', List.mem_append_left _ hmem, h⟩

theorem Server.HasOrigin.of_baseUrl {server server' : Server} {origin : Origin}
    (h : server.HasOrigin crate origin) (hurl : server'.baseUrl = server.baseUrl) :
    server'.HasOrigin crate origin := by
  obtain ⟨flag, hparse⟩ := h
  exact ⟨flag, hurl ▸ hparse⟩

/-- A login has asked the server of the base URL that it has read, and goes on only when that
server has accepted the token. -/
def LoginPhase.Traced (crate : UrlCrate) (tr : List CliEvent) : LoginPhase → Prop
  | .asking login => ∃ flag, Origin.parse crate login.baseUrl flag = .ok login.origin
  | .accepted login _ => (∃ flag, Origin.parse crate login.baseUrl flag = .ok login.origin) ∧
      AcceptedBy tr login.origin login.token login.pinned

theorem LoginPhase.Traced.snoc {phase : LoginPhase} (h : phase.Traced crate tr) :
    phase.Traced crate (tr ++ [e]) := by
  cases phase with
  | asking login => exact h
  | accepted login who => exact h.imp_right AcceptedBy.snoc

/-- An API token that a login has stored. -/
def ApiStored (crate : UrlCrate) (tr : List CliEvent) (config : Config) (name token : String) :
    Prop :=
  ∃ server origin, config.servers.get? name = some server ∧ server.HasOrigin crate origin ∧
    AcceptedBy tr origin token server.serverId

/-- A Git token that a helper process has stored. -/
def GitStored (crate : UrlCrate) (tr : List CliEvent) (config : Config) (v : GitCredential) :
    Prop :=
  ∃ server origin, config.servers.get? v.server = some server ∧ server.HasOrigin crate origin ∧
    StoredFor crate tr origin v.path v.token

theorem ApiStored.snoc {config config' : Config} {name token : String}
    (h : ApiStored crate tr config name token) (hpins : config.Pins config') :
    ApiStored crate (tr ++ [e]) config' name token := by
  obtain ⟨server, origin, hget, horigin, haccepted⟩ := h
  obtain ⟨server', hget', hurl, hid⟩ := hpins _ _ hget
  exact ⟨server', origin, hget', horigin.of_baseUrl hurl, hid ▸ haccepted.snoc⟩

theorem GitStored.snoc {config config' : Config} {v : GitCredential}
    (h : GitStored crate tr config v) (hpins : config.Pins config') :
    GitStored crate (tr ++ [e]) config' v := by
  obtain ⟨server, origin, hget, horigin, hstored⟩ := h
  obtain ⟨server', hget', hurl, -⟩ := hpins _ _ hget
  exact ⟨server', origin, hget', horigin.of_baseUrl hurl, hstored.snoc⟩

/-- Where everything in a state comes from that a run has led to. -/
structure Provenance (crate : UrlCrate) (s₀ : CliState) (tr : List CliEvent) (t : CliState) :
    Prop where
  /-- The aliases are pinned. -/
  pins : s₀.disk.config.Pins t.disk.config
  logins : ∀ pid phase, t.logins pid = some phase → phase.Traced crate tr
  /-- An API token is an old one or was accepted by the server of its alias. -/
  api : ∀ name token, t.disk.credentials.api.lookup name = some token →
    s₀.disk.credentials.api.lookup name = some token ∨
      ApiStored crate tr t.disk.config name token
  /-- A Git token is an old one or was stored for the origin of its alias. -/
  git : ∀ v ∈ t.disk.credentials.git, v ∈ s₀.disk.credentials.git ∨
    GitStored crate tr t.disk.config v

theorem Provenance.refl (h : ∀ pid, s₀.logins pid = none) : Provenance crate s₀ [] s₀ where
  pins := .of_servers rfl
  logins pid phase hphase := by
    rw [h pid] at hphase
    cases hphase
  api name token hlookup := .inl hlookup
  git v hmem := .inl hmem

/-! ## Steps -/

/-- The logins after a step. -/
theorem Provenance.logins_step {logins : Nat → Option LoginPhase} {pid : Nat} {phase : LoginPhase}
    (h : Provenance crate s₀ tr s) (heffect : LoginEffect crate s call logins)
    (hphase : logins pid = some phase) : phase.Traced crate (tr ++ [⟨s, call, t⟩]) := by
  have hupdate : ∀ pid' phase', (∀ next, phase' = some next →
      next.Traced crate (tr ++ [⟨s, call, t⟩])) →
      Function.update s.logins pid' phase' pid = some phase →
      phase.Traced crate (tr ++ [⟨s, call, t⟩]) := by
    intro pid' phase' hnext hphase
    rcases eq_or_ne pid pid' with rfl | hne
    · rw [Function.update_self] at hphase
      exact hnext phase hphase
    · rw [Function.update_of_ne hne] at hphase
      exact (h.logins pid phase hphase).snoc
  cases heffect with
  | same => exact (h.logins pid phase hphase).snoc
  | asked read =>
      refine hupdate _ _ ?_ hphase
      intro next hnext
      cases hnext
      exact startLogin_eq_ok read
  | @accepted pid' login who asking command pinned =>
      refine hupdate _ _ ?_ hphase
      intro next hnext
      cases hnext
      have hasked : ∃ flag, Origin.parse crate login.baseUrl flag = .ok login.origin :=
        h.logins pid' _ asking
      exact ⟨hasked, _, List.mem_append_right _ List.mem_cons_self, pid', who, command, pinned⟩
  | ended pid' =>
      refine hupdate _ _ ?_ hphase
      intro next hnext
      cases hnext

/-- The API tokens after a step. -/
theorem Provenance.api_step {disk : LocalState} {name token : String}
    (h : Provenance crate s₀ tr s) (heffect : DiskEffect crate s call disk)
    (hlookup : disk.credentials.api.lookup name = some token) :
    s₀.disk.credentials.api.lookup name = some token ∨
      ApiStored crate (tr ++ [⟨s, call, t⟩]) disk.config name token := by
  have hkeep : s.disk.credentials.api.lookup name = some token →
      s₀.disk.credentials.api.lookup name = some token ∨
        ApiStored crate (tr ++ [⟨s, call, t⟩]) disk.config name token :=
    fun hold => (h.api name token hold).imp_right fun hstored => hstored.snoc heffect.pins
  cases heffect with
  | same => exact hkeep hlookup
  | added => exact hkeep hlookup
  | used => exact hkeep hlookup
  | @loggedIn pid login who current plaintext phase configured serverId baseUrl =>
      rw [CredentialStore.setApiToken, Finmap.lookup_insert_eq_ite] at hlookup
      split at hlookup
      next hname =>
        cases hlookup
        subst hname
        right
        obtain ⟨⟨flag, hparse⟩, haccepted⟩ := h.logins pid _ phase
        exact ⟨current, login.origin, configured, ⟨flag, baseUrl ▸ hparse⟩,
          serverId ▸ haccepted.snoc⟩
      next => exact hkeep hlookup
  | loggedOut name' =>
      rw [CredentialStore.removeApiToken, Finmap.lookup_erase_eq_ite] at hlookup
      split at hlookup
      next => cases hlookup
      next => exact hkeep hlookup
  | helped label operates read effect =>
      rw [effect.api_eq] at hlookup
      exact hkeep hlookup

/-- The Git tokens after a step. -/
theorem Provenance.git_step {disk : LocalState} {v : GitCredential}
    (h : Provenance crate s₀ tr s) (heffect : DiskEffect crate s call disk)
    (hmem : v ∈ disk.credentials.git) :
    v ∈ s₀.disk.credentials.git ∨ GitStored crate (tr ++ [⟨s, call, t⟩]) disk.config v := by
  have hkeep : v ∈ s.disk.credentials.git →
      v ∈ s₀.disk.credentials.git ∨ GitStored crate (tr ++ [⟨s, call, t⟩]) disk.config v :=
    fun hold => (h.git v hold).imp_right fun hstored => hstored.snoc heffect.pins
  cases heffect with
  | same => exact hkeep hmem
  | added => exact hkeep hmem
  | used => exact hkeep hmem
  | loggedIn => exact hkeep hmem
  | loggedOut => exact hkeep hmem
  | @helped arg stdin io reply operation request disk label operates read effect =>
      cases effect with
      | quiet => exact hkeep hmem
      | printed => exact hkeep hmem
      | erased => exact hkeep (CredentialStore.mem_of_mem_retained hmem)
      | stored store matched given =>
          rcases CredentialStore.mem_setGitToken hmem with hold | rfl
          · exact hkeep hold
          · right
            obtain ⟨hget, hfor, -⟩ := matchedServer_eq_some_iff.mp matched
            obtain ⟨configured, hparse, heq⟩ := isFor_iff.mp hfor
            subst label
            refine ⟨_, configured, hget, ⟨_, hparse⟩, _,
              List.mem_append_right _ List.mem_cons_self, arg, stdin, io, request, rfl, ?_⟩
            exact ⟨store ▸ operates, read, given, Origin.eq_symm heq, rfl⟩

theorem Provenance.step (h : Provenance crate s₀ tr s) (hstep : s.step crate call = some t) :
    Provenance crate s₀ (tr ++ [⟨s, call, t⟩]) t := by
  obtain ⟨hdisk, hlogins⟩ := CliState.step_effect hstep
  exact ⟨h.pins.trans hdisk.pins, fun _ _ => h.logins_step hlogins,
    fun _ _ => h.api_step hdisk, fun _ => h.git_step hdisk⟩

theorem Provenance.of_run (hidle : ∀ pid, s₀.logins pid = none)
    (hrun : (processes crate).Run s₀ tr t) : Provenance crate s₀ tr t :=
  hrun.history (.refl hidle) fun _ _ _ _ _ h hstep => h.step hstep

/-! ## What is printed -/

/-- A token is printed under an alias whose server has the origin of the request. -/
theorem CliState.step_printed {arg : Option String} {stdin : List UInt8} {io : LocalIo}
    {token : String}
    (hstep : s.step crate ⟨.helper arg stdin io, .helper (.ok (.printed token))⟩ = some t) :
    ∃ request name server, readRequest crate stdin = .ok (some request) ∧
      s.disk.config.servers.get? name = some server ∧
      server.isFor crate request.origin = true ∧
      ⟨name, request.path, token⟩ ∈ s.disk.credentials.git := by
  rcases execute_cases (step_helper hstep) with ⟨-, hprinted, -⟩ | h
  · exact absurd rfl (hprinted token)
  · obtain ⟨operation, request, -, hread, heffect⟩ := h
    generalize t.disk = disk at heffect
    generalize hreply : Except.ok (HelperOutput.printed token) = reply at heffect
    cases heffect with
    | quiet printed => exact absurd hreply.symm (printed token)
    | printed get matched found =>
        cases hreply
        obtain ⟨hget, hfor, -⟩ := matchedServer_eq_some_iff.mp matched
        exact ⟨request, _, _, hread, hget, hfor, CredentialStore.mem_of_gitToken found⟩
    | stored store matched given printed => exact absurd hreply.symm (printed token)
    | erased erase matched printed => exact absurd hreply.symm (printed token)

/-- What holds of a run of the processes. -/
structure CredentialsPinned (crate : UrlCrate) (s : CliState) (tr : List CliEvent) (t : CliState) :
    Prop where
  /-- An alias keeps its base URL and its server id. -/
  pins : s.disk.config.Pins t.disk.config
  /-- An API token that was not there at the start was accepted by a server at the base URL of its
  alias that reported the server id of the alias. -/
  api : ∀ name token, t.disk.credentials.api.lookup name = some token →
    s.disk.credentials.api.lookup name = some token ∨
      ∃ server origin, t.disk.config.servers.get? name = some server ∧
        server.HasOrigin crate origin ∧ AcceptedBy tr origin token server.serverId
  /-- A token is printed for the origin and the path for which it was stored before, unless it
  was there at the start, for the path and under an alias of the origin. -/
  git : ∀ before e after, tr = before ++ e :: after → ∀ arg stdin io token,
    e.label = ⟨.helper arg stdin io, .helper (.ok (.printed token))⟩ →
    ∃ request, readRequest crate stdin = .ok (some request) ∧
      (StoredFor crate before request.origin request.path token ∨
        ∃ name server, ⟨name, request.path, token⟩ ∈ s.disk.credentials.git ∧
          e.pre.disk.config.servers.get? name = some server ∧
          server.isFor crate request.origin = true)

/-- The credentials are pinned whatever the processes do, from any local state on, and whatever
the servers answer. -/
theorem credentials_are_pinned (crate : UrlCrate) {s t : CliState} {tr : List CliEvent}
    (hidle : ∀ pid, s.logins pid = none) (hrun : (processes crate).Run s tr t) :
    CredentialsPinned crate s tr t := by
  have hprovenance := Provenance.of_run hidle hrun
  refine ⟨hprovenance.pins, hprovenance.api, ?_⟩
  rintro before ⟨u, call, v⟩ after rfl arg stdin io token hlabel
  obtain ⟨hbefore, hstep, -⟩ := hrun.split_at
  cases hlabel
  obtain ⟨request, name, server, hread, hget, hfor, hmem⟩ := CliState.step_printed hstep
  refine ⟨request, hread, ?_⟩
  rcases (Provenance.of_run hidle hbefore).git _ hmem with hold | hstored
  · exact .inr ⟨name, server, hold, hget, hfor⟩
  · left
    obtain ⟨server', origin, hget', ⟨flag, hparse⟩, e, he, arg', stdin', io', request', hcommand,
      hstore, hread', hgiven, heq, hpath⟩ := hstored
    obtain ⟨configured, hconfigured, hsame⟩ := isFor_iff.mp hfor
    rw [hget] at hget'
    cases hget'
    rw [Origin.parse_unique hparse hconfigured] at heq
    exact ⟨e, he, arg', stdin', io', request', hcommand, hstore, hread', hgiven,
      Origin.eq_trans heq hsame, hpath⟩

/-! ## A run -/

/-- The root of a server. -/
def sampleRoot : Url :=
  ⟨"https://c6.example/", "https", "", none, some "c6.example", none, "/", none, none⟩

/-- The URL of a repository at the server. -/
def sampleRemote : Url :=
  { sampleRoot with asStr := "https://c6.example/git/a/b.git", path := "/git/a/b.git" }

/-- The `url` crate as far as the run asks it. -/
def sampleCrate : UrlCrate where
  parse text :=
    if text = "https://c6.example" ∨ text = "https://c6.example/" then some sampleRoot
    else if text = "https://c6.example/git/a/b.git" then some sampleRemote
    else none
  setPath url path := { url with path := if path.isEmpty then "/" else path }

/-- Nothing is configured and nothing stored. -/
def CliState.fresh : CliState := ⟨⟨.default, .default⟩, fun _ => none⟩

/-- What Git writes to a helper process for the repository. -/
def sampleRequest (rest : String) : List UInt8 :=
  Rust.bytes ("protocol=https\nhost=c6.example\npath=git/a/b.git\n" ++ rest)

/-- `server add` with a name. -/
def sampleAdd (name : String) : Call where
  command := .serverAdd ⟨"https://c6.example", some name, false⟩ (.ok ⟨true, 5, "C6"⟩) .sound
  reply := .c6 (.ok (.added name "https://c6.example" (Rust.hyphenated 5)))

/-- A login at the server. -/
def sampleLogin : List Call :=
  [⟨.login 0 ⟨none, true, true, none⟩ (Rust.bytes "c6c_v1_a_b\n") none, .running⟩,
    ⟨.whoami 0 ⟨sampleRoot⟩ "c6c_v1_a_b" (.ok ⟨5, 7, "user"⟩), .running⟩,
    ⟨.finishLogin 0 .sound, .c6 (.ok (.loggedIn "zeta" 7 "user"))⟩]

/-- A token for the repository is stored. -/
def sampleStore : Call where
  command := .helper (some "store") (sampleRequest "username=c6\npassword=c6g_v1_a_b\n") .sound
  reply := .helper (.ok .stored)

/-- A token for the repository is asked for. -/
def sampleGet (output : HelperOutput) : Call where
  command := .helper (some "get") (sampleRequest "\n") .sound
  reply := .helper (.ok output)

/-- A server is added, a user logs in, and a token is stored and printed. -/
def sampleCalls : List Call :=
  sampleAdd "zeta" :: sampleLogin ++ [sampleStore, sampleGet (.printed "c6g_v1_a_b")]

theorem sample_isSome :
    (System.follow (CliState.step sampleCrate) .fresh sampleCalls).isSome = true := by
  decide +kernel

theorem credentials_are_pinned_sample : ∃ t, CredentialsPinned sampleCrate .fresh
    (System.events (CliState.step sampleCrate) .fresh sampleCalls) t := by
  obtain ⟨t, hrun⟩ : ∃ t, (processes sampleCrate).Run .fresh
      (System.events (CliState.step sampleCrate) .fresh sampleCalls) t :=
    System.Run.events sample_isSome
  exact ⟨t, credentials_are_pinned sampleCrate (fun _ => rfl) hrun⟩

end Cresix.Cli
