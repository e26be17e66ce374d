import Cresix.Cli.State

/-!
# Commands of `c6`

The commands that change the local state: `server add`, `server use`, `auth
login` and `auth logout`.  `server add` asks the server before it takes the
lock, and reads nothing of the local state before that.  `auth login` reads the
configuration without the lock, asks the server, and then reads the
configuration again under the lock.  What a server answers is an input.
-/

namespace Cresix.Cli

/-- What a command prints. -/
inductive Output where
  | added (name baseUrl serverId : String)
  | using (name : String)
  | loggedIn (server : String) (userId : Rust.Uuid) (displayName : String)
  | loggedOut (server : String) (removed : Bool)
deriving DecidableEq, Repr

/-- `Config::save` at the end of a command. -/
def saveConfig (io : LocalIo) (state : LocalState) (config : Config) (output : Output) :
    Except AppError Output × LocalState :=
  (match io.saveConfig.error? with
    | none => .ok output
    | some message => .error (.localState message),
   { state with config := io.saveConfig.after state.config config })

/-- Takes the lock and reads the configuration. -/
def locked (io : LocalIo) (state : LocalState)
    (act : Config → Except AppError Output × LocalState) :
    Except AppError Output × LocalState :=
  match io.lock, io.loadConfig with
  | some message, _ => (.error (.localState message), state)
  | none, some message => (.error (.localState message), state)
  | none, none => act state.config

/-! ## Adding a server -/

/-- The arguments of `server add`. -/
structure AddRequest where
  origin : String
  name : Option String
  allowHttpLocalhost : Bool
deriving DecidableEq, Repr

/-- The answer to `Client::status`. -/
structure ServerStatus where
  claimed : Bool
  serverId : Rust.Uuid
  serverName : String
deriving DecidableEq, Repr

/-- An ASCII letter or digit, or `-`. -/
def isAliasChar (c : Char) : Bool := c.isAlphanum || c == '-'

/-- The alias of a server for which none is given. -/
def defaultAlias (serverName : String) : String :=
  let cs := serverName.toList.map fun c => if isAliasChar c.toLower then c.toLower else '-'
  String.ofList ((cs.dropWhile (· = '-')).reverse.dropWhile (· = '-')).reverse

/-- The alias that a server is added under. -/
def AddRequest.alias (request : AddRequest) (status : ServerStatus) : String :=
  request.name.getD (defaultAlias status.serverName)

def validAlias (name : String) : Bool :=
  !name.isEmpty && name.toList.all fun c => isAliasChar c || c == '_'

/-- The server of an origin that has answered. -/
def AddRequest.server (request : AddRequest) (origin : Origin) (status : ServerStatus) : Server :=
  ⟨origin.asStr, Rust.hyphenated status.serverId, request.allowHttpLocalhost⟩

/-- The server is another one than the alias stands for. -/
def Server.conflicts (existing server : Server) : Bool :=
  existing.serverId != server.serverId || existing.baseUrl != server.baseUrl

/-- The configuration with a server more. -/
def Config.add (config : Config) (name : String) (server : Server) : Config :=
  { config with
    servers := config.servers.insert name server
    defaultServer := config.defaultServer.or (some name) }

/-- `server add` under the lock. -/
def addServer (name : String) (server : Server) (io : LocalIo) (state : LocalState) :
    Except AppError Output × LocalState :=
  locked io state fun config =>
    if (config.servers.get? name).any fun existing => existing.conflicts server then
      (.error .conflict, state)
    else
      saveConfig io state (config.add name server) (.added name server.baseUrl server.serverId)

/-- `server_command` for `ServerCommand::Add`. -/
def serverAdd (crate : UrlCrate) (request : AddRequest) (answer : Except ClientError ServerStatus)
    (io : LocalIo) (state : LocalState) : Except AppError Output × LocalState :=
  match Origin.parse crate request.origin request.allowHttpLocalhost with
  | .error e => (.error (.ofClient e), state)
  | .ok origin =>
      match answer with
      | .error e => (.error (.ofClient e), state)
      | .ok status =>
          if !validAlias (request.alias status) then
            (.error (.usage "server alias must contain letters, numbers, '-' or '_'"), state)
          else
            addServer (request.alias status) (request.server origin status) io state

/-- `server_command` for `ServerCommand::Use`. -/
def serverUse (name : String) (io : LocalIo) (state : LocalState) :
    Except AppError Output × LocalState :=
  locked io state fun config =>
    match config.servers.get? name with
    | none => (.error .notFound, state)
    | some _ => saveConfig io state { config with defaultServer := some name } (.using name)

/-! ## Logging in and out -/

/-- The arguments of `auth login`, and `C6_ALLOW_PLAINTEXT_CREDENTIALS`. -/
structure LoginArgs where
  server : Option String
  tokenStdin : Bool
  plaintextStore : Bool
  environment : Option String
deriving DecidableEq, Repr

/-- What a login keeps of the configuration that it has read, and the token. -/
structure Login where
  name : String
  baseUrl : String
  origin : Origin
  pinned : String
  token : String
deriving DecidableEq, Repr

/-- What a login reads of the answer to `Client::whoami`. -/
structure WhoAmI where
  serverId : Rust.Uuid
  userId : Rust.Uuid
  displayName : String
deriving DecidableEq, Repr

/-- `auth login` up to the request to the server. -/
def startLogin (crate : UrlCrate) (args : LoginArgs) (stdin : List UInt8)
    (loadConfig : Option String) (config : Config) : Except AppError Login :=
  if !args.tokenStdin then .error (.usage "tokens are accepted only with --token-stdin")
  else if !plaintextAllowed args.plaintextStore args.environment then
    .error (.localState ("the headless plaintext credential fallback requires " ++
      "--plaintext-store (token will be plaintext at rest)"))
  else
    match loadConfig with
    | some message => .error (.localState message)
    | none =>
        match selectedServer config args.server with
        | .error e => .error e
        | .ok (name, selected) =>
            match Origin.parse crate selected.baseUrl selected.allowHttpLocalhost with
            | .error e => .error (.ofClient e)
            | .ok origin =>
                match readSecretStdin stdin with
                | .error e => .error e
                | .ok token => .ok ⟨name, selected.baseUrl, origin, selected.serverId, token⟩

/-- What a login makes of the answer of the server. -/
def acceptLogin (login : Login) (answer : Except ClientError WhoAmI) : Except AppError WhoAmI :=
  match answer with
  | .error e => .error (.ofClient e)
  | .ok who => if Rust.hyphenated who.serverId ≠ login.pinned then .error .protocol else .ok who

/-- Writes the credentials of a login, and then the configuration. -/
def saveLogin (login : Login) (who : WhoAmI) (io : LocalIo) (state : LocalState) :
    Except AppError Output × LocalState :=
  let store := state.credentials.setApiToken login.name login.token
  let state' := { state with credentials := io.saveCredentials.after state.credentials store }
  match io.saveCredentials.error? with
  | some message => (.error (.localState message), state')
  | none =>
      saveConfig io state' { state.config with plaintextCredentials := true }
        (.loggedIn login.name who.userId who.displayName)

/-- `auth login` under the lock. -/
def finishLogin (login : Login) (who : WhoAmI) (io : LocalIo) (state : LocalState) :
    Except AppError Output × LocalState :=
  locked io state fun config =>
    match selectedServer config (some login.name) with
    | .error e => (.error e, state)
    | .ok (_, current) =>
        if current.serverId ≠ login.pinned || current.baseUrl ≠ login.baseUrl then
          (.error .conflict, state)
        else
          match io.loadCredentials with
          | some message => (.error (.localState message), state)
          | none => saveLogin login who io state

/-- `auth_command` for `AuthCommand::Logout`. -/
def logout (requested : Option String) (io : LocalIo) (state : LocalState) :
    Except AppError Output × LocalState :=
  locked io state fun config =>
    match selectedServer config requested with
    | .error e => (.error e, state)
    | .ok (name, _) =>
        match io.loadCredentials with
        | some message => (.error (.localState message), state)
        | none =>
            let (store, removed) := state.credentials.removeApiToken name
            (match io.saveCredentials.error? with
              | none => .ok (.loggedOut name removed)
              | some message => .error (.localState message),
             { state with
               credentials := io.saveCredentials.after state.credentials store })

/-! ## What a command does -/

variable {crate : UrlCrate} {io : LocalIo} {state state' : LocalState} {config : Config}
  {reply : Except AppError Output} {name : String}

/-- Nothing is done unless the lock is taken and the configuration read. -/
theorem locked_cases {act : Config → Except AppError Output × LocalState}
    (h : locked io state act = (reply, state')) :
    state' = state ∨ act state.config = (reply, state') := by
  simp only [locked] at h
  split at h
  next =>
    cases h
    exact .inl rfl
  next =>
    cases h
    exact .inl rfl
  next => exact .inr h

theorem saveConfig_cases {output : Output}
    (h : saveConfig io state config output = (reply, state')) :
    state' = state ∨ state' = { state with config := config } := by
  simp only [saveConfig, Prod.mk.injEq] at h
  obtain ⟨-, rfl⟩ := h
  rcases io.saveConfig.after_cases state.config config with hafter | hafter
  · left
    rw [hafter]
  · right
    rw [hafter]

/-- What `server add` may leave behind. -/
theorem serverAdd_cases {request : AddRequest} {answer : Except ClientError ServerStatus}
    (h : serverAdd crate request answer io state = (reply, state')) :
    state' = state ∨ ∃ origin status,
      Origin.parse crate request.origin request.allowHttpLocalhost = .ok origin ∧
      answer = .ok status ∧
      (∀ existing, state.config.servers.get? (request.alias status) = some existing →
        existing.serverId = Rust.hyphenated status.serverId ∧ existing.baseUrl = origin.asStr) ∧
      state' = { state with
        config := state.config.add (request.alias status) (request.server origin status) } := by
  simp only [serverAdd] at h
  split at h
  next =>
    cases h
    exact .inl rfl
  next origin horigin =>
    split at h
    next =>
      cases h
      exact .inl rfl
    next status =>
      split at h
      next =>
        cases h
        exact .inl rfl
      next =>
        rcases locked_cases h with hsame | h
        · exact .inl hsame
        · split at h
          next =>
            cases h
            exact .inl rfl
          next hconflict =>
            refine (saveConfig_cases h).imp_right fun hstate => ?_
            refine ⟨origin, status, horigin, rfl, ?_, hstate⟩
            intro existing hexisting
            simpa [hexisting, Server.conflicts, AddRequest.server] using hconflict

/-- What `server use` may leave behind. -/
theorem serverUse_cases (h : serverUse name io state = (reply, state')) :
    state' = state ∨
      state' = { state with config := { state.config with defaultServer := some name } } := by
  rcases locked_cases h with hsame | h
  · exact .inl hsame
  · split at h
    next =>
      cases h
      exact .inl rfl
    next => exact saveConfig_cases h

/-- A login goes to the origin of the server that it has read. -/
theorem startLogin_eq_ok {args : LoginArgs} {stdin : List UInt8} {loadConfig : Option String}
    {login : Login} (h : startLogin crate args stdin loadConfig config = .ok login) :
    ∃ flag, Origin.parse crate login.baseUrl flag = .ok login.origin := by
  simp only [startLogin] at h
  split at h
  next => cases h
  next =>
    split at h
    next => cases h
    next =>
      split at h
      next => cases h
      next =>
        split at h
        next => cases h
        next selected _ =>
          split at h
          next => cases h
          next horigin =>
            split at h
            next => cases h
            next =>
              cases h
              exact ⟨selected.allowHttpLocalhost, horigin⟩

/-- A login goes on only after the server has reported the pinned id. -/
theorem acceptLogin_eq_ok_iff {login : Login} {answer : Except ClientError WhoAmI} {who : WhoAmI} :
    acceptLogin login answer = .ok who ↔
      answer = .ok who ∧ Rust.hyphenated who.serverId = login.pinned := by
  cases answer with
  | error e => simp [acceptLogin]
  | ok who' =>
      simp only [acceptLogin, ne_eq, ite_not]
      split
      next hpinned =>
        constructor
        · intro h
          cases h
          exact ⟨rfl, hpinned⟩
        · rintro ⟨heq, -⟩
          cases heq
          rfl
      next hpinned =>
        constructor
        · intro h
          cases h
        · rintro ⟨heq, hwho⟩
          cases heq
          exact absurd hwho hpinned

theorem saveLogin_cases {login : Login} {who : WhoAmI}
    (h : saveLogin login who io state = (reply, state')) :
    state' = state ∨ ∃ plaintext,
      state' = ⟨{ state.config with plaintextCredentials := plaintext },
        state.credentials.setApiToken login.name login.token⟩ := by
  simp only [saveLogin] at h
  cases hio : io.saveCredentials with
  | saved =>
      right
      simp only [hio, Written.error?, Written.after] at h
      rcases saveConfig_cases h with rfl | rfl
      · exact ⟨state.config.plaintextCredentials, rfl⟩
      · exact ⟨true, rfl⟩
  | failed message =>
      left
      simp only [hio, Written.error?, Written.after, Prod.mk.injEq] at h
      exact h.2.symm
  | replaced message =>
      right
      simp only [hio, Written.error?, Written.after, Prod.mk.injEq] at h
      exact ⟨state.config.plaintextCredentials, h.2.symm⟩

/-- What a login may leave behind once it has the lock. -/
theorem finishLogin_cases {login : Login} {who : WhoAmI}
    (h : finishLogin login who io state = (reply, state')) :
    state' = state ∨ ∃ current plaintext,
      state.config.servers.get? login.name = some current ∧
      current.serverId = login.pinned ∧ current.baseUrl = login.baseUrl ∧
      state' = ⟨{ state.config with plaintextCredentials := plaintext },
        state.credentials.setApiToken login.name login.token⟩ := by
  rcases locked_cases h with hsame | h
  · exact .inl hsame
  · split at h
    next =>
      cases h
      exact .inl rfl
    next requested current hselected =>
      split at h
      next =>
        cases h
        exact .inl rfl
      next hpinned =>
        split at h
        next =>
          cases h
          exact .inl rfl
        next =>
          simp only [ne_eq, Bool.or_eq_true, decide_eq_true_eq, not_or, not_not] at hpinned
          have hcurrent : state.config.servers.get? login.name = some current := by
            have hname : requested = login.name := by
              simp only [selectedServer, Option.some_or] at hselected
              split at hselected
              next => cases hselected
              next =>
                cases hselected
                rfl
            rw [← hname]
            exact get?_of_selectedServer hselected
          rcases saveLogin_cases h with hsame | ⟨plaintext, hstate⟩
          · exact .inl hsame
          · exact .inr ⟨current, plaintext, hcurrent, hpinned.1, hpinned.2, hstate⟩

/-- What `auth logout` may leave behind. -/
theorem logout_cases {requested : Option String}
    (h : logout requested io state = (reply, state')) :
    state' = state ∨ ∃ name,
      state' = { state with credentials := (state.credentials.removeApiToken name).1 } := by
  rcases locked_cases h with hsame | h
  · exact .inl hsame
  · split at h
    next =>
      cases h
      exact .inl rfl
    next name _ _ =>
      split at h
      next =>
        cases h
        exact .inl rfl
      next =>
        simp only [Prod.mk.injEq] at h
        obtain ⟨-, rfl⟩ := h
        rcases io.saveCredentials.after_cases state.credentials
          (state.credentials.removeApiToken name).1 with hafter | hafter
        · left
          rw [hafter]
        · right
          exact ⟨name, by rw [hafter]⟩

end Cresix.Cli
