import Cresix.Cli.Origin
import Cresix.Library.FiniteMap
import Cresix.Library.SortedMap
import Mathlib.Data.String.Basic

/-!
# The local state of the command line

A configuration and a credential store, each in a file of its own.  What the
processes do to them they do under one lock.  What may go wrong in a process, the
lock, the reading and the writing of a file, is an input (`LocalIo`).  A file is
replaced by a rename, and an error may be reported behind it.
-/

namespace Cresix.Cli

/-! ## Errors -/

inductive AppError where
  | usage (message : String)
  | authentication | forbidden | notFound | conflict
  | network (message : String)
  | protocol
  | localState (message : String)
deriving DecidableEq, Repr

/-- `AppError::from` of a `ClientError`. -/
def AppError.ofClient : ClientError → AppError
  | .invalidOrigin =>
      .usage "server URL must be an origin without a path, query, fragment, or credentials"
  | .insecureOrigin =>
      .usage "server URL must use HTTPS (loopback HTTP requires explicit opt-in)"
  | .unauthenticated => .authentication
  | .forbidden => .forbidden
  | .notFound => .notFound
  | .conflict => .conflict
  | .network message => .network message
  | .protocol => .protocol
  | .api _ => .protocol

/-! ## The configuration -/

structure Server where
  baseUrl : String
  serverId : String
  allowHttpLocalhost : Bool
deriving DecidableEq, Repr

structure Config where
  defaultServer : Option String
  plaintextCredentials : Bool
  /-- The servers, in the order of their aliases. -/
  servers : SortedMap String Server

/-- `Config::default`. -/
def Config.default : Config := ⟨none, false, .empty⟩

/-- `selected_server`. -/
def selectedServer (config : Config) (requested : Option String) :
    Except AppError (String × Server) :=
  match requested.or config.defaultServer with
  | none => .error (.localState "no server selected; use `c6 server add`")
  | some name =>
      match config.servers.get? name with
      | none => .error (.localState ("server alias `" ++ name ++ "` is not configured"))
      | some server => .ok (name, server)

theorem get?_of_selectedServer {config : Config} {requested : Option String} {name : String}
    {server : Server} (h : selectedServer config requested = .ok (name, server)) :
    config.servers.get? name = some server := by
  simp only [selectedServer] at h
  split at h
  next => cases h
  next =>
    split at h
    next => cases h
    next hget =>
      cases h
      exact hget

/-! ## The credentials -/

structure GitCredential where
  server : String
  path : String
  token : String
deriving DecidableEq, Repr

structure CredentialStore where
  /-- The API token of an alias. -/
  api : Finmap fun _ : String => String
  git : List GitCredential

namespace CredentialStore

/-- `CredentialStore::default`. -/
def default : CredentialStore := ⟨∅, []⟩

variable (store : CredentialStore)

/-- `CredentialStore::set_api_token`. -/
def setApiToken (server token : String) : CredentialStore :=
  { store with api := store.api.insert server token }

/-- `CredentialStore::remove_api_token`. -/
def removeApiToken (server : String) : CredentialStore × Bool :=
  ({ store with api := store.api.erase server }, (store.api.lookup server).isSome)

/-- `CredentialStore::git_token`. -/
def gitToken (server path : String) : Option String :=
  (store.git.find? fun v => v.server == server && v.path == path).map GitCredential.token

/-- The credentials but that of one path at one server. -/
def retained (server path : String) : List GitCredential :=
  store.git.filter fun v => v.server != server || v.path != path

/-- `CredentialStore::set_git_token`. -/
def setGitToken (server path token : String) : CredentialStore :=
  { store with git := store.retained server path ++ [⟨server, path, token⟩] }

/-- `CredentialStore::remove_git_token`. -/
def removeGitToken (server path : String) : CredentialStore × Bool :=
  ({ store with git := store.retained server path },
    store.git.length != (store.retained server path).length)

section

variable {store} {server path server' path' token : String} {v : GitCredential}

theorem mem_of_gitToken (h : store.gitToken server path = some token) :
    ⟨server, path, token⟩ ∈ store.git := by
  obtain ⟨v, hfind, rfl⟩ := Option.map_eq_some_iff.mp h
  have hkey := List.find?_some hfind
  simp only [Bool.and_eq_true, beq_iff_eq] at hkey
  obtain ⟨rfl, rfl⟩ := hkey
  exact List.mem_of_find?_eq_some hfind

theorem mem_of_mem_retained (h : v ∈ store.retained server path) : v ∈ store.git :=
  (List.mem_filter.mp h).1

theorem mem_setGitToken (h : v ∈ (store.setGitToken server path token).git) :
    v ∈ store.git ∨ v = ⟨server, path, token⟩ := by
  rcases List.mem_append.mp h with hold | hnew
  · exact .inl (mem_of_mem_retained hold)
  · exact .inr (List.mem_singleton.mp hnew)

/-- A credential that is taken away is missed under no other key. -/
theorem find?_retained (h : ¬(server' = server ∧ path' = path)) :
    (store.retained server path).find? (fun v => v.server == server' && v.path == path') =
      store.git.find? fun v => v.server == server' && v.path == path' := by
  rw [retained, List.find?_filter]
  congr 1
  funext v
  by_cases hkey : v.server = server' ∧ v.path = path'
  · obtain ⟨rfl, rfl⟩ := hkey
    rw [not_and_or] at h
    simpa using h
  · rw [not_and_or] at hkey
    rcases hkey with hkey | hkey
    · simp [hkey]
    · simp [hkey]

theorem gitToken_setGitToken_self :
    (store.setGitToken server path token).gitToken server path = some token := by
  have hnone : (store.retained server path).find?
      (fun v => v.server == server && v.path == path) = none := by
    rw [List.find?_eq_none]
    intro v hv
    have hkept := (List.mem_filter.mp hv).2
    simp only [Bool.or_eq_true, bne_iff_ne] at hkept
    rw [Bool.and_eq_true, beq_iff_eq, beq_iff_eq, not_and_or]
    exact hkept
  simp [gitToken, setGitToken, hnone]

theorem gitToken_setGitToken_ne (h : ¬(server' = server ∧ path' = path)) :
    (store.setGitToken server path token).gitToken server' path' =
      store.gitToken server' path' := by
  have hlast : [(⟨server, path, token⟩ : GitCredential)].find?
      (fun v => v.server == server' && v.path == path') = none := by
    rw [not_and_or] at h
    rcases h with h | h
    · simp [Ne.symm h]
    · simp [Ne.symm h]
  rw [gitToken, gitToken, setGitToken, List.find?_append, hlast, Option.or_none,
    find?_retained h]

theorem gitToken_removeGitToken_ne (h : ¬(server' = server ∧ path' = path)) :
    (store.removeGitToken server path).1.gitToken server' path' = store.gitToken server' path' := by
  rw [gitToken, gitToken, removeGitToken, find?_retained h]

end

end CredentialStore

/-! ## The files -/

/-- What both files hold. -/
structure LocalState where
  config : Config
  credentials : CredentialStore

/-- What becomes of a file that is written. -/
inductive Written where
  | saved
  /-- The file is as it was. -/
  | failed (message : String)
  /-- The file is replaced, and what follows the rename fails. -/
  | replaced (message : String)
deriving DecidableEq, Repr

/-- How the system answers a process: the error of each step that fails. -/
structure LocalIo where
  lock : Option String := none
  loadConfig : Option String := none
  loadCredentials : Option String := none
  saveConfig : Written := .saved
  saveCredentials : Written := .saved
deriving DecidableEq, Repr

/-- Nothing fails. -/
def LocalIo.sound : LocalIo := {}

/-- The file after it was written. -/
def Written.after {α : Type} (written : Written) (old new : α) : α :=
  match written with
  | .failed _ => old
  | _ => new

/-- The error of a write. -/
def Written.error? : Written → Option String
  | .saved => none
  | .failed message => some message
  | .replaced message => some message

theorem Written.after_cases {α : Type} (written : Written) (old new : α) :
    written.after old new = old ∨ written.after old new = new := by
  cases written with
  | failed => exact .inl rfl
  | saved => exact .inr rfl
  | replaced => exact .inr rfl

/-! ## A token on standard input -/

/-- `read_secret_stdin`. -/
def readSecretStdin (stdin : List UInt8) : Except AppError String :=
  let bytes := stdin.take (16 * 1024 + 1)
  if 16 * 1024 < bytes.length then .error (.usage "token input is too large")
  else
    match Rust.fromUtf8 bytes with
    | none => .error (.usage "token must be UTF-8")
    | some text =>
        let token := Rust.trim text.toList
        if !Rust.startsWith (String.ofList token) "c6c_v1_" || token.any Rust.isWhitespace then
          .error .authentication
        else .ok (String.ofList token)

/-- `plaintext_allowed`. -/
def plaintextAllowed (explicit : Bool) (environment : Option String) : Bool :=
  explicit || environment == some "1"

end Cresix.Cli
