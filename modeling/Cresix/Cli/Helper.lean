import Cresix.Cli.State
import Cresix.Rust.Lines

/-!
# The Git credential helper

Git starts `git-credential-c6` with an operation and gives it a request on its
standard input.  The process reads the request before it takes the lock.  The
credential is kept under an alias, which is the first one whose server has the
origin of the request (`matchedServer`).  `Effect` says what a process may do
to the local state.
-/

namespace Cresix.Cli

/-! ## The input -/

abbrev Fields := SortedMap String String

/-- `valid_field_name`. -/
def validFieldName (key : String) : Bool :=
  let base := (Rust.stripSuffix key "[]").getD key
  !base.isEmpty
    && !base.toList.any (fun c => c == '[' || c == ']')
    && (Rust.bytes base).all fun b => Rust.isAsciiAlphanumeric b || b == 0x5f || b == 0x2d

/-- The fields that are read.  What Git may add is let through and left out. -/
def knownFields : List String := ["url", "protocol", "host", "path", "username", "password"]

/-- The loop of `parse_fields`. -/
def parseLines (values : Fields) : List (List Char) → Except String Fields
  | [] => .ok values
  | line :: rest =>
      if line.isEmpty then .ok values
      else
        match Rust.splitOnce '=' line with
        | none => .error "malformed credential input"
        | some (key, value) =>
            let key := String.ofList key
            if !validFieldName key then .error "malformed credential key"
            else if value.any Rust.isControl then .error "malformed credential value"
            else if !knownFields.contains key then parseLines values rest
            else if (values.get? key).isSome then .error "duplicate credential field"
            else parseLines (values.insert key (String.ofList value)) rest

/-- `parse_fields`. -/
def parseFields (input : String) : Except String Fields :=
  parseLines .empty (Rust.lines input.toList)

/-- The URL of a request; `none` when it names no web server. -/
def requestUrl (crate : UrlCrate) (fields : Fields) : Except String (Option Url) :=
  match fields.get? "url" with
  | some value =>
      if (fields.get? "protocol").isSome || (fields.get? "host").isSome
          || (fields.get? "path").isSome then
        .error "ambiguous credential target"
      else
        match crate.parse value with
        | none => .error "invalid credential URL"
        | some url => .ok (some url)
  | none =>
      match fields.get? "protocol", fields.get? "host" with
      | none, _ => .ok none
      | some _, none => .ok none
      | some protocol, some host =>
          if protocol ≠ "https" && protocol ≠ "http" then .ok none
          else
            match crate.parse
                (protocol ++ "://" ++ host ++ "/" ++ (fields.get? "path").getD "") with
            | none => .error "invalid credential target"
            | some url => .ok (some url)

/-- The text of the origin of a URL. -/
def originText (url : Url) (host : String) : String :=
  url.scheme ++ "://" ++ host ++ (url.port.map fun p => ":" ++ toString p).getD ""

/-- `request_target`. -/
def requestTarget (crate : UrlCrate) (fields : Fields) :
    Except String (Option (Origin × String)) :=
  match requestUrl crate fields with
  | .error message => .error message
  | .ok none => .ok none
  | .ok (some url) =>
      if url.username ≠ "" || url.password.isSome || url.query.isSome || url.fragment.isSome then
        .ok none
      else
        match url.hostStr with
        | none => .error "missing host"
        | some host =>
            match Origin.parse crate (originText url host) (url.scheme == "http") with
            | .error _ => .error "invalid credential origin"
            | .ok origin =>
                .ok (some (origin, "/" ++ String.ofList (url.path.toList.dropWhile (· = '/'))))

/-- What a process asks for. -/
structure HelperRequest where
  fields : Fields
  origin : Origin
  path : String

/-- What a process makes of its input; `none` when the request is not for it. -/
def readText (crate : UrlCrate) (input : String) : Except String (Option HelperRequest) :=
  if 64 * 1024 < Rust.len input then .error "credential input too large"
  else
    match parseFields input with
    | .error message => .error message
    | .ok fields =>
        match requestTarget crate fields with
        | .error message => .error message
        | .ok none => .ok none
        | .ok (some (origin, path)) =>
            .ok (if validGitPath path then some ⟨fields, origin, path⟩ else none)

/-- What a process reads from its standard input. -/
def readRequest (crate : UrlCrate) (stdin : List UInt8) :
    Except String (Option HelperRequest) :=
  match Rust.fromUtf8 (stdin.take (64 * 1024 + 1)) with
  | none => .error "stream did not contain valid UTF-8"
  | some input => readText crate input

/-- The token of a request to store one, when it is a token of a Git credential. -/
def HelperRequest.token? (request : HelperRequest) : Option String :=
  if (request.fields.get? "username").any fun v => v ≠ "c6" then none
  else
    match request.fields.get? "password" with
    | none => none
    | some token =>
        if !Rust.startsWith token "c6g_v1_" || token.toList.any Rust.isWhitespace then none
        else some token

/-! ## The process -/

inductive Operation where
  | get | store | erase
deriving DecidableEq, Repr

/-- The operation of a process, from its first argument. -/
def Operation.ofArg (arg : Option String) : Except String Operation :=
  if arg = some "get" then .ok .get
  else if arg = some "store" then .ok .store
  else if arg = some "erase" then .ok .erase
  else .error "expected get, store, or erase"

/-- How a process ends that does not fail. -/
inductive HelperOutput where
  /-- The request is none that it serves. -/
  | ignored
  /-- It has written `username=c6` and the token as the password. -/
  | printed (token : String)
  /-- There is no credential. -/
  | absent
  | stored
  | erased
deriving DecidableEq, Repr

/-- The server has the origin. -/
def Server.isFor (crate : UrlCrate) (server : Server) (origin : Origin) : Bool :=
  match Origin.parse crate server.baseUrl server.allowHttpLocalhost with
  | .error _ => false
  | .ok configured => configured.eq origin

/-- The first alias whose server has the origin. -/
def matchedServer (crate : UrlCrate) (config : Config) (origin : Origin) :
    Option (String × Server) :=
  config.servers.find? fun _ server => server.isFor crate origin

/-- `CredentialStore::save` at the end of a process. -/
def saveStore (io : LocalIo) (state : LocalState) (store : CredentialStore)
    (output : HelperOutput) : Except String HelperOutput × LocalState :=
  (match io.saveCredentials.error? with
    | none => .ok output
    | some message => .error message,
   { state with credentials := io.saveCredentials.after state.credentials store })

/-- What a process does under the lock for the alias it has found. -/
def serve (operation : Operation) (request : HelperRequest) (name : String) (io : LocalIo)
    (state : LocalState) : Except String HelperOutput × LocalState :=
  match operation with
  | .get =>
      match state.credentials.gitToken name request.path with
      | some token => (.ok (.printed token), state)
      | none => (.ok .absent, state)
  | .store =>
      if !state.config.plaintextCredentials then
        (.error ("plaintext credential storage is not enabled; " ++
          "run `c6 auth login --plaintext-store --token-stdin` first"), state)
      else
        match request.token? with
        | none => (.ok .ignored, state)
        | some token =>
            saveStore io state (state.credentials.setGitToken name request.path token) .stored
  | .erase =>
      let (store, removed) := state.credentials.removeGitToken name request.path
      if removed then saveStore io state store .erased else (.ok .absent, state)

/-- What a process does under the lock. -/
def serveRequest (crate : UrlCrate) (operation : Operation) (request : HelperRequest)
    (io : LocalIo) (state : LocalState) : Except String HelperOutput × LocalState :=
  match io.lock, io.loadConfig with
  | some message, _ => (.error message, state)
  | none, some message => (.error message, state)
  | none, none =>
      match matchedServer crate state.config request.origin with
      | none => (.ok .ignored, state)
      | some (name, _) =>
          match io.loadCredentials with
          | some message => (.error message, state)
          | none => serve operation request name io state

/-- `execute`. -/
def execute (crate : UrlCrate) (arg : Option String) (stdin : List UInt8) (io : LocalIo)
    (state : LocalState) : Except String HelperOutput × LocalState :=
  match Operation.ofArg arg with
  | .error message => (.error message, state)
  | .ok operation =>
      match readRequest crate stdin with
      | .error message => (.error message, state)
      | .ok none => (.ok .ignored, state)
      | .ok (some request) => serveRequest crate operation request io state

/-! ## What a process does -/

variable {crate : UrlCrate} {config : Config} {operation : Operation} {request : HelperRequest}
  {io : LocalIo} {state state' : LocalState} {reply : Except String HelperOutput}
  {origin : Origin} {name token : String} {server : Server}

theorem isFor_iff : server.isFor crate origin = true ↔
    ∃ configured, Origin.parse crate server.baseUrl server.allowHttpLocalhost = .ok configured ∧
      configured.eq origin = true := by
  rw [Server.isFor]
  split
  next herror => simp [herror]
  next configured hparse => simp [hparse]

/-- The alias of a request has the origin, and no alias before it has. -/
theorem matchedServer_eq_some_iff :
    matchedServer crate config origin = some (name, server) ↔
      config.servers.get? name = some server ∧ server.isFor crate origin = true ∧
        ∀ other server', config.servers.get? other = some server' →
          server'.isFor crate origin = true → name ≤ other :=
  SortedMap.find?_eq_some_iff

/-- What a process with a request may answer and leave behind. -/
inductive HelperEffect (crate : UrlCrate) (operation : Operation) (request : HelperRequest)
    (state : LocalState) : Except String HelperOutput → LocalState → Prop where
  /-- Nothing is printed and nothing stored. -/
  | quiet {reply : Except String HelperOutput} (printed : ∀ token, reply ≠ .ok (.printed token))
      (stored : reply ≠ .ok .stored) : HelperEffect crate operation request state reply state
  /-- The token of the alias is printed. -/
  | printed {name token : String} {server : Server} (get : operation = .get)
      (matched : matchedServer crate state.config request.origin = some (name, server))
      (found : state.credentials.gitToken name request.path = some token) :
      HelperEffect crate operation request state (.ok (.printed token)) state
  /-- A token is stored for the alias, whether or not that is reported. -/
  | stored {reply : Except String HelperOutput} {name token : String} {server : Server}
      (store : operation = .store)
      (matched : matchedServer crate state.config request.origin = some (name, server))
      (given : request.token? = some token) (printed : ∀ token, reply ≠ .ok (.printed token)) :
      HelperEffect crate operation request state reply
        { state with credentials := state.credentials.setGitToken name request.path token }
  /-- The token of the alias is erased, whether or not that is reported. -/
  | erased {reply : Except String HelperOutput} {name : String} {server : Server}
      (erase : operation = .erase)
      (matched : matchedServer crate state.config request.origin = some (name, server))
      (printed : ∀ token, reply ≠ .ok (.printed token)) (stored : reply ≠ .ok .stored) :
      HelperEffect crate operation request state reply
        { state with credentials := (state.credentials.removeGitToken name request.path).1 }

theorem HelperEffect.of_error (message : String) :
    HelperEffect crate operation request state (.error message) state := by
  refine .quiet ?_ ?_
  · intro token heq
    cases heq
  · intro heq
    cases heq

theorem saveStore_cases (io : LocalIo) (state : LocalState) (store : CredentialStore)
    (output : HelperOutput) :
    (saveStore io state store output = (.ok output, { state with credentials := store })) ∨
      (∃ message, saveStore io state store output = (.error message, state)) ∨
      ∃ message, saveStore io state store output =
        (.error message, { state with credentials := store }) := by
  cases hio : io.saveCredentials with
  | saved =>
      left
      simp [saveStore, hio, Written.error?, Written.after]
  | failed message =>
      right
      left
      exact ⟨message, by simp [saveStore, hio, Written.error?, Written.after]⟩
  | replaced message =>
      right
      right
      exact ⟨message, by simp [saveStore, hio, Written.error?, Written.after]⟩

theorem serve_effect
    (hmatch : matchedServer crate state.config request.origin = some (name, server))
    (h : serve operation request name io state = (reply, state')) :
    HelperEffect crate operation request state reply state' := by
  cases operation with
  | get =>
      simp only [serve] at h
      split at h
      next token htoken =>
        cases h
        exact .printed rfl hmatch htoken
      next =>
        cases h
        exact .quiet (by simp) (by simp)
  | store =>
      simp only [serve] at h
      split at h
      next =>
        cases h
        exact .of_error _
      next =>
        split at h
        next =>
          cases h
          exact .quiet (by simp) (by simp)
        next token htoken =>
          rcases saveStore_cases io state
            (state.credentials.setGitToken name request.path token) .stored with
            hsave | ⟨message, hsave⟩ | ⟨message, hsave⟩
          · rw [hsave] at h
            cases h
            exact .stored rfl hmatch htoken (by simp)
          · rw [hsave] at h
            cases h
            exact .of_error _
          · rw [hsave] at h
            cases h
            exact .stored rfl hmatch htoken (by simp)
  | erase =>
      simp only [serve] at h
      split at h
      next =>
        rcases saveStore_cases io state
          (state.credentials.removeGitToken name request.path).1 .erased with
          hsave | ⟨message, hsave⟩ | ⟨message, hsave⟩
        · rw [hsave] at h
          cases h
          exact .erased rfl hmatch (by simp) (by simp)
        · rw [hsave] at h
          cases h
          exact .of_error _
        · rw [hsave] at h
          cases h
          exact .erased rfl hmatch (by simp) (by simp)
      next =>
        cases h
        exact .quiet (by simp) (by simp)

theorem serveRequest_effect (h : serveRequest crate operation request io state = (reply, state')) :
    HelperEffect crate operation request state reply state' := by
  simp only [serveRequest] at h
  split at h
  next =>
    cases h
    exact .of_error _
  next =>
    cases h
    exact .of_error _
  next =>
    split at h
    next =>
      cases h
      exact .quiet (by simp) (by simp)
    next hmatch =>
      split at h
      next =>
        cases h
        exact .of_error _
      next => exact serve_effect hmatch h

/-- A process that has no request to serve leaves the state alone. -/
theorem execute_cases {arg : Option String} {stdin : List UInt8}
    (h : execute crate arg stdin io state = (reply, state')) :
    (state' = state ∧ (∀ token, reply ≠ .ok (.printed token)) ∧ reply ≠ .ok .stored) ∨
      ∃ operation request, Operation.ofArg arg = .ok operation ∧
        readRequest crate stdin = .ok (some request) ∧
        HelperEffect crate operation request state reply state' := by
  simp only [execute] at h
  split at h
  next =>
    cases h
    exact .inl ⟨rfl, by simp, by simp⟩
  next operation hoperation =>
    split at h
    next =>
      cases h
      exact .inl ⟨rfl, by simp, by simp⟩
    next =>
      cases h
      exact .inl ⟨rfl, by simp, by simp⟩
    next request hrequest =>
      exact .inr ⟨operation, request, hoperation, hrequest, serveRequest_effect h⟩

/-- A process leaves the configuration alone. -/
theorem HelperEffect.config_eq (h : HelperEffect crate operation request state reply state') :
    state'.config = state.config := by
  cases h with
  | quiet => rfl
  | printed => rfl
  | stored => rfl
  | erased => rfl

/-- A process leaves the API tokens alone. -/
theorem HelperEffect.api_eq (h : HelperEffect crate operation request state reply state') :
    state'.credentials.api = state.credentials.api := by
  cases h with
  | quiet => rfl
  | printed => rfl
  | stored => rfl
  | erased => rfl

end Cresix.Cli
