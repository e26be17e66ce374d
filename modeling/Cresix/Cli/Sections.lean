import Cresix.Cli.Processes
import Cresix.Cli.StateFiles
import Mathlib.Data.Countable.Basic
import Mathlib.Logic.Equiv.List

/-!
# Commands on the files

The commands of `c6` and of the credential helper as sections: the loads and
saves of the source in their order, with what is done between them.  The formats
of the two files are parameters.

`StateCommand.perform` is what a command does to the local state in one step, as
the rest of the development takes it.  On the files, with any number of
processes, failing calls and kills, the commands do the same, one after the other
(`local_state_serializes`).
-/

namespace Cresix.Cli

open Transition (System Event)

/-! ## Formats -/

/-- The readers and writers of the two files, with the version in the file. -/
structure StateFormats where
  /-- `toml::from_slice`. -/
  fromToml : List UInt8 → Except String (Nat × Config)
  /-- `toml::to_string_pretty`. -/
  toToml : Nat × Config → List UInt8
  /-- `serde_json::from_slice` of a `DiskStore`. -/
  fromJson : List UInt8 → Except String (Nat × CredentialStore)
  /-- `serde_json::to_vec` of a `DiskStore`. -/
  toJson : Nat × CredentialStore → List UInt8
  fromToml_toToml : ∀ config, fromToml (toToml (1, config)) = .ok (1, config)
  fromJson_toJson : ∀ store, fromJson (toJson (1, store)) = .ok (1, store)

/-- `StateError::Invalid`, as it is shown. -/
def invalidState (reason : String) : String := "invalid local state: " ++ reason

namespace StateFormats

variable (formats : StateFormats)

/-- `Config::load`, of the bytes of the file. -/
def readConfig : Option (List UInt8) → Except String Config
  | none => .ok .default
  | some bytes =>
      match formats.fromToml bytes with
      | .error reason => .error (invalidState reason)
      | .ok (version, config) =>
          if version ≠ 1 then .error (invalidState "unsupported config version") else .ok config

/-- `CredentialStore::load`, of the bytes of the file. -/
def readCredentials : Option (List UInt8) → Except String CredentialStore
  | none => .ok .default
  | some bytes =>
      match formats.fromJson bytes with
      | .error reason => .error (invalidState reason)
      | .ok (version, store) =>
          if version ≠ 1 then .error (invalidState "unsupported credential store version")
          else .ok store

theorem readConfig_toToml (config : Config) :
    formats.readConfig (some (formats.toToml (1, config))) = .ok config := by
  rw [readConfig, formats.fromToml_toToml]
  rfl

theorem readCredentials_toJson (store : CredentialStore) :
    formats.readCredentials (some (formats.toJson (1, store))) = .ok store := by
  rw [readCredentials, formats.fromJson_toJson]
  rfl

end StateFormats

/-! ## Commands -/

/-- What a process of the command line does with the local state. -/
inductive StateCommand where
  /-- `server add`, after the server has answered. -/
  | addServer (name : String) (server : Server)
  | serverUse (name : String)
  /-- `auth login` before it asks the server. -/
  | startLogin (args : LoginArgs) (stdin : List UInt8)
  /-- `auth login`, after the server has answered. -/
  | finishLogin (login : Login) (who : WhoAmI)
  | logout (requested : Option String)
  /-- The credential helper, with a request to serve. -/
  | helper (operation : Operation) (request : HelperRequest)

inductive StateReply where
  | c6 (result : Except AppError Output)
  | login (result : Except AppError Login)
  | helper (result : Except String HelperOutput)

/-- What a command does in one step. -/
def StateCommand.perform (crate : UrlCrate) (io : LocalIo) (state : LocalState) :
    StateCommand → StateReply × LocalState
  | .addServer name server =>
      let (result, state') := Cli.addServer name server io state
      (.c6 result, state')
  | .serverUse name =>
      let (result, state') := Cli.serverUse name io state
      (.c6 result, state')
  | .startLogin args stdin =>
      (.login (Cli.startLogin crate args stdin io.loadConfig state.config), state)
  | .finishLogin login who =>
      let (result, state') := Cli.finishLogin login who io state
      (.c6 result, state')
  | .logout requested =>
      let (result, state') := Cli.logout requested io state
      (.c6 result, state')
  | .helper operation request =>
      let (result, state') := serveRequest crate operation request io state
      (.helper result, state')

section

variable (formats : StateFormats)

/-- `Config::load` first; `unread` is the reply when that fails. -/
def withConfig (unread : String → StateReply) (act : Config → Section StateReply) :
    Section StateReply :=
  .load .config fun loaded =>
    match loaded >>= formats.readConfig with
    | .error message => .done (unread message)
    | .ok config => act config

/-- `CredentialStore::load` in a section. -/
def withCredentials (unread : String → StateReply) (act : CredentialStore → Section StateReply) :
    Section StateReply :=
  .load .credentials fun loaded =>
    match loaded >>= formats.readCredentials with
    | .error message => .done (unread message)
    | .ok store => act store

/-- `Config::save` at the end of a command of `c6`. -/
def saveConfigAnd (config : Config) (output : Output) : Section StateReply :=
  .save .config (formats.toToml (1, config)) fun saved =>
    .done (.c6 (match saved with
      | .ok () => .ok output
      | .error message => .error (.localState message)))

/-- `CredentialStore::save` in a section. -/
def saveCredentials (store : CredentialStore) (next : Except String Unit → Section StateReply) :
    Section StateReply :=
  .save .credentials (formats.toJson (1, store)) next

/-- The reply of `c6` after an error of the local state. -/
def localC6 (message : String) : StateReply := .c6 (.error (.localState message))

/-- The reply of the helper after an error of the local state. -/
def localHelper (message : String) : StateReply := .helper (.error message)

def addServerWork (name : String) (server : Server) (config : Config) : Section StateReply :=
  if (config.servers.get? name).any fun existing => existing.conflicts server then
    .done (.c6 (.error .conflict))
  else
    saveConfigAnd formats (config.add name server) (.added name server.baseUrl server.serverId)

def serverUseWork (name : String) (config : Config) : Section StateReply :=
  match config.servers.get? name with
  | none => .done (.c6 (.error .notFound))
  | some _ => saveConfigAnd formats { config with defaultServer := some name } (.using name)

def finishLoginWork (login : Login) (who : WhoAmI) (config : Config) : Section StateReply :=
  match selectedServer config (some login.name) with
  | .error e => .done (.c6 (.error e))
  | .ok (_, current) =>
      if current.serverId ≠ login.pinned || current.baseUrl ≠ login.baseUrl then
        .done (.c6 (.error .conflict))
      else
        withCredentials formats localC6 fun store =>
          saveCredentials formats (store.setApiToken login.name login.token) fun
            | .error message => .done (localC6 message)
            | .ok () =>
                saveConfigAnd formats { config with plaintextCredentials := true }
                  (.loggedIn login.name who.userId who.displayName)

def logoutWork (requested : Option String) (config : Config) : Section StateReply :=
  match selectedServer config requested with
  | .error e => .done (.c6 (.error e))
  | .ok (name, _) =>
      withCredentials formats localC6 fun store =>
        saveCredentials formats (store.removeApiToken name).1 fun
          | .error message => .done (localC6 message)
          | .ok () => .done (.c6 (.ok (.loggedOut name (store.removeApiToken name).2)))

/-- `CredentialStore::save` at the end of the helper. -/
def saveStoreAnd (store : CredentialStore) (output : HelperOutput) : Section StateReply :=
  saveCredentials formats store fun saved =>
    .done (.helper (match saved with
      | .ok () => .ok output
      | .error message => .error message))

/-- The helper with both files read, for the alias it has found. -/
def serveWork (operation : Operation) (request : HelperRequest) (name : String) (config : Config)
    (store : CredentialStore) : Section StateReply :=
  match operation with
  | .get =>
      match store.gitToken name request.path with
      | some token => .done (.helper (.ok (.printed token)))
      | none => .done (.helper (.ok .absent))
  | .store =>
      if !config.plaintextCredentials then
        .done (.helper (.error ("plaintext credential storage is not enabled; " ++
          "run `c6 auth login --plaintext-store --token-stdin` first")))
      else
        match request.token? with
        | none => .done (.helper (.ok .ignored))
        | some token => saveStoreAnd formats (store.setGitToken name request.path token) .stored
  | .erase =>
      if (store.removeGitToken name request.path).2 then
        saveStoreAnd formats (store.removeGitToken name request.path).1 .erased
      else .done (.helper (.ok .absent))

def helperWork (crate : UrlCrate) (operation : Operation) (request : HelperRequest)
    (config : Config) : Section StateReply :=
  match matchedServer crate config request.origin with
  | none => .done (.helper (.ok .ignored))
  | some (name, _) =>
      withCredentials formats localHelper fun store =>
        serveWork formats operation request name config store

/-- `auth login` before it asks the server.  Two checks come before the load. -/
def startLoginWork (crate : UrlCrate) (args : LoginArgs) (stdin : List UInt8) :
    Section StateReply :=
  if !args.tokenStdin || !plaintextAllowed args.plaintextStore args.environment then
    .done (.login (startLogin crate args stdin none .default))
  else
    withConfig formats (fun message => .login (startLogin crate args stdin (some message) .default))
      fun config => .done (.login (startLogin crate args stdin none config))

/-- What a command asks of a process. -/
def StateCommand.task (crate : UrlCrate) : StateCommand → StateTask StateReply
  | .addServer name server =>
      ⟨true, withConfig formats localC6 (addServerWork formats name server), localC6⟩
  | .serverUse name => ⟨true, withConfig formats localC6 (serverUseWork formats name), localC6⟩
  | .startLogin args stdin =>
      ⟨false, startLoginWork formats crate args stdin, fun m => .login (.error (.localState m))⟩
  | .finishLogin login who =>
      ⟨true, withConfig formats localC6 (finishLoginWork formats login who), localC6⟩
  | .logout requested => ⟨true, withConfig formats localC6 (logoutWork formats requested), localC6⟩
  | .helper operation request =>
      ⟨true, withConfig formats localHelper (helperWork formats crate operation request),
        localHelper⟩

end

/-! ## What a section comes to -/

section

variable {α : Type} {rest : Section α} {c c' : Contents} {file : StateFile}

theorem reaches_done {result : α} (h : (Section.done result).Reaches c rest c') :
    rest = .done result ∧ c' = c := by
  cases h
  exact ⟨rfl, rfl⟩

/-- A load: the process stops at it, it fails, or it gives the file. -/
theorem reaches_load {next : Except String (Option (List UInt8)) → Section α}
    (h : (Section.load file next).Reaches c rest c') :
    (rest = .load file next ∧ c' = c) ∨ (∃ error, (next (.error error)).Reaches c rest c') ∨
      (next (.ok (c file))).Reaches c rest c' := by
  cases h with
  | refl => exact .inl ⟨rfl, rfl⟩
  | unread error h => exact .inr (.inl ⟨error, h⟩)
  | loaded h => exact .inr (.inr h)

/-- What a save comes to, when the process does not stop at it. -/
def Written.outcome : Written → Except String Unit
  | .saved => .ok ()
  | .failed message => .error message
  | .replaced message => .error message

theorem reaches_save {bytes : List UInt8} {next : Except String Unit → Section α}
    (h : (Section.save file bytes next).Reaches c rest c') :
    (rest = .save file bytes next ∧ c' = c) ∨ ∃ written : Written,
      (next written.outcome).Reaches
        (written.after c (Function.update c file (some bytes))) rest c' := by
  cases h with
  | refl => exact .inl ⟨rfl, rfl⟩
  | saved h => exact .inr ⟨.saved, h⟩
  | unsaved error h => exact .inr ⟨.failed error, h⟩
  | replaced error h => exact .inr ⟨.replaced error, h⟩

end

/-! ## On the files as in one step -/

section

variable {formats : StateFormats} {crate : UrlCrate} {command : StateCommand}
variable {rest : Section StateReply} {c c' : Contents} {state : LocalState} {config : Config}

/-- The bytes of the files are those of the local state. -/
structure Decodes (formats : StateFormats) (c : Contents) (state : LocalState) : Prop where
  config : formats.readConfig (c .config) = .ok state.config
  credentials : formats.readCredentials (c .credentials) = .ok state.credentials

theorem Decodes.saveConfig (h : Decodes formats c state) (written : Written) :
    Decodes formats
      (written.after c (Function.update c .config (some (formats.toToml (1, config)))))
      { state with config := written.after state.config config } := by
  have hnew : Decodes formats (Function.update c .config (some (formats.toToml (1, config))))
      { state with config } := ⟨formats.readConfig_toToml config, h.credentials⟩
  cases written with
  | saved => exact hnew
  | failed => exact h
  | replaced => exact hnew

theorem Decodes.saveCredentials (h : Decodes formats c state) (store : CredentialStore)
    (written : Written) :
    Decodes formats
      (written.after c (Function.update c .credentials (some (formats.toJson (1, store)))))
      { state with credentials := written.after state.credentials store } := by
  have hnew : Decodes formats
      (Function.update c .credentials (some (formats.toJson (1, store))))
      { state with credentials := store } := ⟨h.config, formats.readCredentials_toJson store⟩
  cases written with
  | saved => exact hnew
  | failed => exact h
  | replaced => exact hnew

/-- The command does in one step, with some answers of the system, what it came
to on the files. -/
def Does (formats : StateFormats) (crate : UrlCrate) (command : StateCommand) (state : LocalState)
    (rest : Section StateReply) (c' : Contents) : Prop :=
  ∃ io : LocalIo, Decodes formats c' (command.perform crate io state).2 ∧
    ∀ reply, rest = .done reply → (command.perform crate io state).1 = reply

/-- A command without the lock or without its configuration. -/
theorem perform_refused (hlocks : (command.task formats crate).locks = true) (message : String) :
    command.perform crate { lock := some message } state =
      ((command.task formats crate).unlocked message, state) := by
  cases command with
  | startLogin => cases hlocks
  | _ => rfl

theorem perform_unread (hlocks : (command.task formats crate).locks = true) (message : String) :
    command.perform crate { loadConfig := some message } state =
      ((command.task formats crate).unlocked message, state) := by
  cases command with
  | startLogin => cases hlocks
  | _ => rfl

/-- A process that stopped at a load of the configuration. -/
theorem does_stopped (hlocks : (command.task formats crate).locks = true)
    (hc : Decodes formats c' state) (hrest : ∀ reply, rest ≠ .done reply) :
    Does formats crate command state rest c' := by
  refine ⟨{ loadConfig := some "" }, ?_, fun reply hreply => absurd hreply (hrest reply)⟩
  rw [perform_unread hlocks]
  exact hc

/-- A command after its load of the configuration. -/
theorem does_withConfig (hlocks : (command.task formats crate).locks = true)
    (hc : Decodes formats c state) {act : Config → Section StateReply}
    (hact : (act state.config).Reaches c rest c' → Does formats crate command state rest c')
    (h : (withConfig formats (command.task formats crate).unlocked act).Reaches c rest c') :
    Does formats crate command state rest c' := by
  rcases reaches_load h with ⟨rfl, rfl⟩ | ⟨error, h⟩ | h
  · exact does_stopped hlocks hc nofun
  · obtain ⟨rfl, rfl⟩ := reaches_done h
    refine ⟨{ loadConfig := some error }, ?_, ?_⟩
    · rw [perform_unread hlocks]
      exact hc
    · intro reply hreply
      cases hreply
      rw [perform_unread hlocks]
  · rw [show (Except.ok (c .config) >>= formats.readConfig) = .ok state.config from hc.config] at h
    exact hact h

/-- The end of a command with a save of the configuration. -/
theorem reaches_saveConfigAnd (hc : Decodes formats c state) {output : Output}
    (h : (saveConfigAnd formats config output).Reaches c rest c') :
    ∃ written : Written,
      Decodes formats c' { state with config := written.after state.config config } ∧
        ∀ reply, rest = .done reply → reply = .c6 (match written.error? with
          | none => .ok output
          | some message => .error (.localState message)) := by
  rcases reaches_save h with ⟨rfl, rfl⟩ | ⟨written, h⟩
  · exact ⟨.failed "", hc, nofun⟩
  · obtain ⟨rfl, rfl⟩ := reaches_done h
    refine ⟨written, hc.saveConfig written, ?_⟩
    intro reply hreply
    cases hreply
    cases written <;> rfl

/-- A load of the credentials: the process stops at it, it fails, or it gives
those of the local state. -/
theorem reaches_withCredentials (hc : Decodes formats c state) {unread : String → StateReply}
    {act : CredentialStore → Section StateReply}
    (h : (withCredentials formats unread act).Reaches c rest c') :
    (c' = c ∧ ∃ message, ∀ reply, rest = .done reply → reply = unread message) ∨
      (act state.credentials).Reaches c rest c' := by
  rcases reaches_load h with ⟨rfl, rfl⟩ | ⟨error, h⟩ | h
  · exact .inl ⟨rfl, "", nofun⟩
  · obtain ⟨rfl, rfl⟩ := reaches_done h
    refine .inl ⟨rfl, error, fun reply hreply => ?_⟩
    cases hreply
    rfl
  · rw [show (Except.ok (c .credentials) >>= formats.readCredentials) = .ok state.credentials from
      hc.credentials] at h
    exact .inr h

/-- The end of a command that saves nothing. -/
theorem does_end {reply : StateReply} (hc : Decodes formats c state)
    (hperform : command.perform crate {} state = (reply, state))
    (h : (Section.done reply).Reaches c rest c') : Does formats crate command state rest c' := by
  obtain ⟨rfl, rfl⟩ := reaches_done h
  refine ⟨{}, ?_, ?_⟩
  · rw [hperform]
    exact hc
  · intro other hother
    cases hother
    rw [hperform]

theorem does_addServer {name : String} {server : Server} (hc : Decodes formats c state)
    (h : (addServerWork formats name server state.config).Reaches c rest c') :
    Does formats crate (.addServer name server) state rest c' := by
  simp only [addServerWork] at h
  split at h
  next hconflict =>
    refine does_end hc ?_ h
    simp only [StateCommand.perform, addServer, locked, if_pos hconflict]
  next hconflict =>
    obtain ⟨written, hdecodes, hreply⟩ := reaches_saveConfigAnd hc h
    refine ⟨{ saveConfig := written }, ?_, ?_⟩
    · simp only [StateCommand.perform, addServer, locked, if_neg hconflict]
      exact hdecodes
    · intro reply hdone
      simp only [StateCommand.perform, addServer, locked, if_neg hconflict]
      exact (hreply reply hdone).symm

theorem does_serverUse {name : String} (hc : Decodes formats c state)
    (h : (serverUseWork formats name state.config).Reaches c rest c') :
    Does formats crate (.serverUse name) state rest c' := by
  simp only [serverUseWork] at h
  split at h
  next hnone =>
    refine does_end hc ?_ h
    simp only [StateCommand.perform, serverUse, locked, hnone]
  next hsome =>
    obtain ⟨written, hdecodes, hreply⟩ := reaches_saveConfigAnd hc h
    refine ⟨{ saveConfig := written }, ?_, ?_⟩
    · simp only [StateCommand.perform, serverUse, locked, hsome]
      exact hdecodes
    · intro reply hdone
      simp only [StateCommand.perform, serverUse, locked, hsome]
      exact (hreply reply hdone).symm

/-- A save of the credentials: the process stops at it or it reports an error, or
it goes on with the file replaced. -/
theorem reaches_saveCredentials (hc : Decodes formats c state) {store : CredentialStore}
    (unsaved : String → StateReply) {next : Except String Unit → Section StateReply}
    (hnext : ∀ message, next (.error message) = .done (unsaved message))
    (h : (saveCredentials formats store next).Reaches c rest c') :
    (∃ (written : Written) (message : String), written.error? = some message ∧
      Decodes formats c' { state with credentials := written.after state.credentials store } ∧
        ∀ reply, rest = .done reply → reply = unsaved message) ∨
    ∃ c₁, Decodes formats c₁ { state with credentials := store } ∧
      (next (.ok ())).Reaches c₁ rest c' := by
  rcases reaches_save h with ⟨rfl, rfl⟩ | ⟨written, h⟩
  · exact .inl ⟨.failed "", "", rfl, hc, nofun⟩
  · have hdecodes := hc.saveCredentials store written
    cases written with
    | saved => exact .inr ⟨_, hdecodes, h⟩
    | failed message =>
        rw [Written.outcome, hnext] at h
        obtain ⟨rfl, rfl⟩ := reaches_done h
        refine .inl ⟨.failed message, message, rfl, hdecodes, fun reply hreply => ?_⟩
        cases hreply
        rfl
    | replaced message =>
        rw [Written.outcome, hnext] at h
        obtain ⟨rfl, rfl⟩ := reaches_done h
        refine .inl ⟨.replaced message, message, rfl, hdecodes, fun reply hreply => ?_⟩
        cases hreply
        rfl

theorem does_finishLogin {login : Login} {who : WhoAmI} (hc : Decodes formats c state)
    (h : (finishLoginWork formats login who state.config).Reaches c rest c') :
    Does formats crate (.finishLogin login who) state rest c' := by
  simp only [finishLoginWork] at h
  split at h
  next e hselected =>
    refine does_end hc ?_ h
    simp only [StateCommand.perform, finishLogin, locked, hselected]
  next name current hselected =>
    split at h
    next hother =>
      refine does_end hc ?_ h
      simp only [StateCommand.perform, finishLogin, locked, hselected, if_pos hother]
    next hsame =>
      rcases reaches_withCredentials hc h with ⟨rfl, message, hreply⟩ | h
      · refine ⟨{ loadCredentials := some message }, ?_, ?_⟩
        · simp only [StateCommand.perform, finishLogin, locked, hselected, if_neg hsame]
          exact hc
        · intro reply hdone
          rw [hreply reply hdone]
          simp only [StateCommand.perform, finishLogin, locked, hselected, if_neg hsame]
          rfl
      · rcases reaches_saveCredentials hc localC6 (fun _ => rfl) h with
          ⟨written, message, herror, hdecodes, hreply⟩ | ⟨c₁, hc₁, h⟩
        · refine ⟨{ saveCredentials := written }, ?_, ?_⟩
          · simp only [StateCommand.perform, finishLogin, locked, hselected, if_neg hsame, saveLogin,
              herror]
            exact hdecodes
          · intro reply hdone
            rw [hreply reply hdone]
            simp only [StateCommand.perform, finishLogin, locked, hselected, if_neg hsame, saveLogin,
              herror]
            rfl
        · obtain ⟨written, hdecodes, hreply⟩ := reaches_saveConfigAnd hc₁ h
          refine ⟨{ saveConfig := written }, ?_, ?_⟩
          · simp only [StateCommand.perform, finishLogin, locked, hselected, if_neg hsame]
            exact hdecodes
          · intro reply hdone
            simp only [StateCommand.perform, finishLogin, locked, hselected, if_neg hsame]
            exact (hreply reply hdone).symm

theorem does_logout {requested : Option String} (hc : Decodes formats c state)
    (h : (logoutWork formats requested state.config).Reaches c rest c') :
    Does formats crate (.logout requested) state rest c' := by
  simp only [logoutWork] at h
  split at h
  next e hselected =>
    refine does_end hc ?_ h
    simp only [StateCommand.perform, logout, locked, hselected]
  next name current hselected =>
    rcases reaches_withCredentials hc h with ⟨rfl, message, hreply⟩ | h
    · refine ⟨{ loadCredentials := some message }, ?_, ?_⟩
      · simp only [StateCommand.perform, logout, locked, hselected]
        exact hc
      · intro reply hdone
        rw [hreply reply hdone]
        simp only [StateCommand.perform, logout, locked, hselected]
        rfl
    · rcases reaches_saveCredentials hc localC6 (fun _ => rfl) h with
        ⟨written, message, herror, hdecodes, hreply⟩ | ⟨c₁, hc₁, h⟩
      · refine ⟨{ saveCredentials := written }, ?_, ?_⟩
        · simp only [StateCommand.perform, logout, locked, hselected]
          exact hdecodes
        · intro reply hdone
          rw [hreply reply hdone]
          simp only [StateCommand.perform, logout, locked, hselected, herror]
          rfl
      · obtain ⟨rfl, rfl⟩ := reaches_done h
        refine ⟨{}, ?_, ?_⟩
        · simp only [StateCommand.perform, logout, locked, hselected]
          exact hc₁
        · intro reply hreply
          cases hreply
          simp only [StateCommand.perform, logout, locked, hselected]
          rfl

/-- The end of the helper with a save. -/
theorem does_saveStoreAnd {store : CredentialStore} {output : HelperOutput}
    (hc : Decodes formats c state)
    (hperform : ∀ written : Written, (command.perform crate { saveCredentials := written } state) =
      (.helper (saveStore { saveCredentials := written } state store output).1,
        (saveStore { saveCredentials := written } state store output).2))
    (h : (saveStoreAnd formats store output).Reaches c rest c') :
    Does formats crate command state rest c' := by
  rcases reaches_saveCredentials hc localHelper (fun _ => rfl) h with
    ⟨written, message, herror, hdecodes, hreply⟩ | ⟨c₁, hc₁, h⟩
  · refine ⟨{ saveCredentials := written }, ?_, ?_⟩
    · rw [hperform]
      exact hdecodes
    · intro reply hdone
      rw [hperform, hreply reply hdone]
      simp only [saveStore, herror]
      rfl
  · obtain ⟨rfl, rfl⟩ := reaches_done h
    refine ⟨{}, ?_, ?_⟩
    · rw [hperform .saved]
      exact hc₁
    · intro reply hreply
      cases hreply
      rw [hperform .saved]
      rfl

theorem does_helper {operation : Operation} {request : HelperRequest}
    (hc : Decodes formats c state)
    (h : (helperWork formats crate operation request state.config).Reaches c rest c') :
    Does formats crate (.helper operation request) state rest c' := by
  simp only [helperWork] at h
  split at h
  next hnone =>
    refine does_end hc ?_ h
    simp only [StateCommand.perform, serveRequest, hnone]
  next name server hmatched =>
    rcases reaches_withCredentials hc h with ⟨rfl, message, hreply⟩ | h
    · refine ⟨{ loadCredentials := some message }, ?_, ?_⟩
      · simp only [StateCommand.perform, serveRequest, hmatched]
        exact hc
      · intro reply hdone
        rw [hreply reply hdone]
        simp only [StateCommand.perform, serveRequest, hmatched]
        rfl
    · have hserve : ∀ io : LocalIo, io.lock = none → io.loadConfig = none →
          io.loadCredentials = none →
          (StateCommand.helper operation request).perform crate io state =
            (.helper (serve operation request name io state).1,
              (serve operation request name io state).2) := by
        intro io hlock hconfig hcredentials
        simp only [StateCommand.perform, serveRequest, hmatched, hlock, hconfig, hcredentials]
      cases operation with
      | get =>
          simp only [serveWork] at h
          split at h
          next token htoken =>
            refine does_end hc ?_ h
            rw [hserve _ rfl rfl rfl]
            simp only [serve, htoken]
          next hnone =>
            refine does_end hc ?_ h
            rw [hserve _ rfl rfl rfl]
            simp only [serve, hnone]
      | store =>
          simp only [serveWork] at h
          split at h
          next hplain =>
            refine does_end hc ?_ h
            rw [hserve _ rfl rfl rfl]
            simp only [serve, if_pos hplain]
          next hplain =>
            split at h
            next hnone =>
              refine does_end hc ?_ h
              rw [hserve _ rfl rfl rfl]
              simp only [serve, if_neg hplain, hnone]
            next token htoken =>
              refine does_saveStoreAnd hc (fun written => ?_) h
              rw [hserve _ rfl rfl rfl]
              simp only [serve, if_neg hplain, htoken]
      | erase =>
          simp only [serveWork] at h
          split at h
          next hremoved =>
            refine does_saveStoreAnd hc (fun written => ?_) h
            rw [hserve _ rfl rfl rfl]
            simp only [serve, if_pos hremoved]
          next hremoved =>
            refine does_end hc ?_ h
            rw [hserve _ rfl rfl rfl]
            simp only [serve, if_neg hremoved]

theorem task_does (hlocks : (command.task formats crate).locks = true)
    (hc : Decodes formats c state)
    (h : (command.task formats crate).work.Reaches c rest c') :
    Does formats crate command state rest c' := by
  cases command with
  | addServer => exact does_withConfig hlocks hc (does_addServer hc) h
  | serverUse => exact does_withConfig hlocks hc (does_serverUse hc) h
  | startLogin => cases hlocks
  | finishLogin => exact does_withConfig hlocks hc (does_finishLogin hc) h
  | logout => exact does_withConfig hlocks hc (does_logout hc) h
  | helper => exact does_withConfig hlocks hc (does_helper hc) h

/-! ## Serial runs of commands -/

/-- The commands one after the other, each in one step.  The reply of a process
that was killed is not seen. -/
def commands (crate : UrlCrate) : System LocalState (SerialCall StateReply StateCommand) where
  start _ := True
  step state call state' := ∃ io : LocalIo, (call.command.perform crate io state).2 = state' ∧
    ∀ reply, call.result = some reply → (call.command.perform crate io state).1 = reply

theorem commands_of_serves {call : SerialCall StateReply StateCommand}
    (hc : Decodes formats c state)
    (h : Serves (StateCommand.task formats crate) c call c') :
    ∃ state', (commands crate).step state call state' ∧ Decodes formats c' state' := by
  cases h with
  | finished hlocks hreaches =>
      obtain ⟨io, hdecodes, hreply⟩ := task_does hlocks hc hreaches
      refine ⟨_, ⟨io, rfl, ?_⟩, hdecodes⟩
      intro reply heq
      cases heq
      exact hreply _ rfl
  | refused error hlocks =>
      refine ⟨state, ⟨{ lock := some error.message },
        congrArg Prod.snd (perform_refused hlocks error.message), ?_⟩, hc⟩
      intro reply heq
      cases heq
      exact congrArg Prod.fst (perform_refused hlocks error.message)
  | killed hlocks hreaches =>
      obtain ⟨io, hdecodes, -⟩ := task_does hlocks hc hreaches
      exact ⟨_, ⟨io, rfl, nofun⟩, hdecodes⟩

theorem commands_of_serial {tr : List (Event Contents (SerialCall StateReply StateCommand))}
    (hc : Decodes formats c state)
    (h : (serial (StateCommand.task formats crate)).Run c tr c') :
    ∃ tr' state', (commands crate).Run state tr' state' ∧
      tr'.map (·.label) = tr.map (·.label) ∧ Decodes formats c' state' := by
  induction h with
  | refl => exact ⟨[], state, .refl, rfl, hc⟩
  | @snoc tr c₁ c₂ call hrun hst ih =>
      obtain ⟨tr', state₁, hcommands, hlabels, hc₁⟩ := ih
      obtain ⟨state₂, hstep, hc₂⟩ := commands_of_serves hc₁ hst
      refine ⟨tr' ++ [⟨state₁, call, state₂⟩], state₂, .snoc hcommands hstep, ?_, hc₂⟩
      rw [List.map_append, List.map_append, hlabels]
      rfl

/-! ## No half files -/

/-- The bytes are a whole file. -/
def Parses (formats : StateFormats) : StateFile → List UInt8 → Prop
  | .config, bytes => ∃ config, formats.readConfig (some bytes) = .ok config
  | .credentials, bytes => ∃ store, formats.readCredentials (some bytes) = .ok store

/-- The message is not that of a file that cannot be read. -/
def Plain (message : String) : Prop := ∀ reason, message ≠ invalidState reason

def AppError.Plain : AppError → Prop
  | .localState message => Cli.Plain message
  | _ => True

/-- The reply is not that of a command that found a file it could not read. -/
def StateReply.Plain : StateReply → Prop
  | .c6 (.error e) => e.Plain
  | .login (.error e) => e.Plain
  | .helper (.error message) => Cli.Plain message
  | _ => True

/-- The text does not start as such a message does. -/
def otherHead (text : String) : Bool := text.toList.head?.any (· != 'i')

theorem otherHead_append {text rest : String} (h : otherHead text) : otherHead (text ++ rest) := by
  rw [otherHead, Option.any_eq_true] at h ⊢
  obtain ⟨c, hc, hne⟩ := h
  refine ⟨c, ?_, hne⟩
  rw [String.toList_append, List.head?_append, hc, Option.some_or]

theorem not_otherHead_append {text rest : String} (h : text.toList.head? = some 'i') :
    ¬otherHead (text ++ rest) := by
  rw [otherHead, String.toList_append, List.head?_append, h, Option.some_or]
  decide

theorem plain_of_otherHead {message : String} (h : otherHead message) : Plain message :=
  fun _ heq => absurd (heq ▸ h) (not_otherHead_append (by decide))

theorem IsCallError.plain {error : String} (h : IsCallError error) : Plain error := by
  cases h with
  | io =>
      exact plain_of_otherHead (otherHead_append (otherHead_append (otherHead_append (by decide))))
  | unsafeState =>
      exact plain_of_otherHead (otherHead_append (otherHead_append (otherHead_append (by decide))))

theorem LockError.plain (error : LockError) : Plain error.message := by
  rcases error.lock with h | h
  · exact h.plain
  · rw [h]
    exact plain_of_otherHead (by decide)

/-- A command that does not find its server says so. -/
theorem plain_selectedServer {requested : Option String} {e : AppError}
    (h : selectedServer config requested = .error e) : e.Plain := by
  simp only [selectedServer] at h
  split at h
  next =>
    cases h
    exact plain_of_otherHead (by decide)
  next =>
    split at h
    next =>
      cases h
      exact plain_of_otherHead (otherHead_append (otherHead_append (by decide)))
    next => cases h

theorem plain_readSecretStdin {stdin : List UInt8} {e : AppError}
    (h : readSecretStdin stdin = .error e) : e.Plain := by
  simp only [readSecretStdin] at h
  split at h
  next =>
    cases h
    trivial
  next =>
    split at h
    next =>
      cases h
      trivial
    next =>
      split at h
      next =>
        cases h
        trivial
      next => cases h

theorem sound_withConfig {unread : String → StateReply} {act : Config → Section StateReply}
    (hunread : ∀ message, Plain message → (unread message).Plain)
    (hact : ∀ config, (act config).Sound (Parses formats) StateReply.Plain) :
    (withConfig formats unread act).Sound (Parses formats) StateReply.Plain := by
  refine ⟨hact .default, ?_, fun error herror => hunread error herror.plain⟩
  rintro bytes ⟨config, hread⟩
  simp only [show (Except.ok (some bytes) >>= formats.readConfig) = .ok config from hread]
  exact hact config

theorem sound_withCredentials {unread : String → StateReply}
    {act : CredentialStore → Section StateReply}
    (hunread : ∀ message, Plain message → (unread message).Plain)
    (hact : ∀ store, (act store).Sound (Parses formats) StateReply.Plain) :
    (withCredentials formats unread act).Sound (Parses formats) StateReply.Plain := by
  refine ⟨hact .default, ?_, fun error herror => hunread error herror.plain⟩
  rintro bytes ⟨store, hread⟩
  simp only [show (Except.ok (some bytes) >>= formats.readCredentials) = .ok store from hread]
  exact hact store

theorem sound_saveConfigAnd {output : Output} :
    (saveConfigAnd formats config output).Sound (Parses formats) StateReply.Plain :=
  ⟨⟨config, formats.readConfig_toToml config⟩, trivial, fun _ herror => herror.plain⟩

theorem sound_saveCredentials {store : CredentialStore} {unsaved : String → StateReply}
    {next : Except String Unit → Section StateReply}
    (hunsaved : ∀ message, Plain message → (unsaved message).Plain)
    (hnext : ∀ message, next (.error message) = .done (unsaved message))
    (hsaved : (next (.ok ())).Sound (Parses formats) StateReply.Plain) :
    (saveCredentials formats store next).Sound (Parses formats) StateReply.Plain := by
  refine ⟨⟨store, formats.readCredentials_toJson store⟩, hsaved, fun error herror => ?_⟩
  rw [hnext]
  exact hunsaved error herror.plain

theorem sound_finishLogin {login : Login} {who : WhoAmI} :
    (finishLoginWork formats login who config).Sound (Parses formats) StateReply.Plain := by
  simp only [finishLoginWork]
  split
  next hselected => exact plain_selectedServer hselected
  next =>
    split
    next => trivial
    next =>
      refine sound_withCredentials (fun _ => id) fun store => ?_
      exact sound_saveCredentials (fun _ => id) (fun _ => rfl) sound_saveConfigAnd

theorem sound_logout {requested : Option String} :
    (logoutWork formats requested config).Sound (Parses formats) StateReply.Plain := by
  simp only [logoutWork]
  split
  next hselected => exact plain_selectedServer hselected
  next =>
    refine sound_withCredentials (fun _ => id) fun store => ?_
    exact sound_saveCredentials (fun _ => id) (fun _ => rfl) trivial

theorem sound_saveStoreAnd {store : CredentialStore} {output : HelperOutput} :
    (saveStoreAnd formats store output).Sound (Parses formats) StateReply.Plain :=
  sound_saveCredentials (fun _ => id) (fun _ => rfl) trivial

theorem sound_serve {operation : Operation} {request : HelperRequest} {name : String}
    {store : CredentialStore} :
    (serveWork formats operation request name config store).Sound (Parses formats)
      StateReply.Plain := by
  cases operation with
  | get =>
      simp only [serveWork]
      split <;> trivial
  | store =>
      simp only [serveWork]
      split
      next => exact plain_of_otherHead (otherHead_append (by decide))
      next =>
        split
        next => trivial
        next => exact sound_saveStoreAnd
  | erase =>
      simp only [serveWork]
      split
      next => exact sound_saveStoreAnd
      next => trivial

theorem sound_helper {operation : Operation} {request : HelperRequest} :
    (helperWork formats crate operation request config).Sound (Parses formats)
      StateReply.Plain := by
  simp only [helperWork]
  split
  next => trivial
  next => exact sound_withCredentials (fun _ => id) fun store => sound_serve

/-- What a login says before it asks the server. -/
theorem plain_startLogin {args : LoginArgs} {stdin : List UInt8} {unread : Option String}
    (hunread : ∀ message, unread = some message → Plain message) :
    (StateReply.login (startLogin crate args stdin unread config)).Plain := by
  simp only [startLogin]
  split
  next => trivial
  next =>
    split
    next => exact plain_of_otherHead (otherHead_append (by decide))
    next =>
      split
      next message => exact hunread message rfl
      next =>
        split
        next hselected => exact plain_selectedServer hselected
        next =>
          split
          next e _ => cases e <;> trivial
          next =>
            split
            next hsecret => exact plain_readSecretStdin hsecret
            next => trivial

/-- Every command saves whole files, and reads whole files only. -/
theorem task_sound : SoundTasks (StateCommand.task formats crate) (Parses formats)
    StateReply.Plain := by
  intro command
  cases command with
  | addServer name server =>
      refine ⟨sound_withConfig (fun _ => id) fun config => ?_, fun error => error.plain⟩
      simp only [addServerWork]
      split
      next => trivial
      next => exact sound_saveConfigAnd
  | serverUse name =>
      refine ⟨sound_withConfig (fun _ => id) fun config => ?_, fun error => error.plain⟩
      simp only [serverUseWork]
      split
      next => trivial
      next => exact sound_saveConfigAnd
  | startLogin args stdin =>
      refine ⟨?_, fun error => error.plain⟩
      show (startLoginWork formats crate args stdin).Sound _ _
      simp only [startLoginWork]
      split
      next => exact plain_startLogin nofun
      next =>
        refine sound_withConfig (fun message hplain => plain_startLogin fun _ heq => ?_)
          fun config => plain_startLogin nofun
        cases heq
        exact hplain
  | finishLogin => exact ⟨sound_withConfig (fun _ => id) fun _ => sound_finishLogin, fun e => e.plain⟩
  | logout => exact ⟨sound_withConfig (fun _ => id) fun _ => sound_logout, fun e => e.plain⟩
  | helper => exact ⟨sound_withConfig (fun _ => id) fun _ => sound_helper, fun e => e.plain⟩

/-- What does not take the lock saves nothing. -/
theorem task_readOnly (command : StateCommand)
    (hlocks : (command.task formats crate).locks = false) :
    (command.task formats crate).work.ReadOnly := by
  cases command with
  | startLogin args stdin =>
      show (startLoginWork formats crate args stdin).ReadOnly
      simp only [startLoginWork]
      split
      next => trivial
      next =>
        intro loaded
        show Section.ReadOnly (match loaded >>= formats.readConfig with | .error _ => _ | .ok _ => _)
        split <;> trivial
  | _ => cases hlocks

end

/-! ## The local state -/

instance countableChar : Countable Char :=
  Function.Injective.countable (f := Char.toNat) fun _ _ h => Char.toNat_inj.mp h

instance countableString : Countable String :=
  Function.Injective.countable (f := String.toList) fun _ _ h => String.toList_inj.mp h

instance : Countable Config := by
  refine Function.Injective.countable (f := fun config =>
    (config.defaultServer, config.plaintextCredentials, config.servers.entries.map
      fun e : String × Server =>
        (e.1, e.2.baseUrl, e.2.serverId, e.2.allowHttpLocalhost))) ?_
  rintro ⟨defaultServer, plaintext, ⟨entries, _⟩⟩ ⟨defaultServer', plaintext', ⟨entries', _⟩⟩ h
  obtain ⟨rfl, h⟩ := Prod.ext_iff.mp h
  obtain ⟨rfl, h⟩ := Prod.ext_iff.mp h
  have hentry : Function.Injective fun e : String × Server =>
      (e.1, e.2.baseUrl, e.2.serverId, e.2.allowHttpLocalhost) := by
    rintro ⟨name, ⟨_, _, _⟩⟩ ⟨name', ⟨_, _, _⟩⟩ h
    simpa using h
  obtain rfl := hentry.list_map h
  rfl

instance : Countable CredentialStore := by
  refine Function.Injective.countable (f := fun store =>
    (store.api.entries.map fun e => (e.1, e.2),
      store.git.map fun v => (v.server, v.path, v.token))) ?_
  rintro ⟨api, git⟩ ⟨api', git'⟩ h
  obtain ⟨hapi, hgit⟩ := Prod.ext_iff.mp h
  have hentry : Function.Injective fun e : (_ : String) × String => (e.1, e.2) := by
    rintro ⟨_, _⟩ ⟨_, _⟩ h
    simpa using h
  have hcredential : Function.Injective fun v : GitCredential => (v.server, v.path, v.token) := by
    rintro ⟨_, _, _⟩ ⟨_, _, _⟩ h
    simpa using h
  obtain rfl := Finmap.ext (Multiset.map_injective hentry hapi)
  obtain rfl := hcredential.list_map hgit
  rfl

/-- What there are no more of than numbers can be written and read. -/
theorem exists_codec (α : Type) [Countable α] :
    ∃ (decode : List UInt8 → Except String (Nat × α)) (encode : Nat × α → List UInt8),
      ∀ a, decode (encode (1, a)) = .ok (1, a) := by
  classical
  obtain ⟨number, hnumber⟩ := exists_injective_nat α
  refine ⟨fun bytes =>
    if h : ∃ a, number a = bytes.length then .ok (1, h.choose) else .error "expected value",
    fun (_, a) => List.replicate (number a) 0, fun a => ?_⟩
  have h : ∃ b, number b = (List.replicate (number a) (0 : UInt8)).length :=
    ⟨a, List.length_replicate.symm⟩
  have hchoose : h.choose = a := hnumber (h.choose_spec.trans List.length_replicate)
  simp only [dif_pos h, hchoose]

theorem exists_stateFormats : Nonempty StateFormats := by
  obtain ⟨fromToml, toToml, htoml⟩ := exists_codec Config
  obtain ⟨fromJson, toJson, hjson⟩ := exists_codec CredentialStore
  exact ⟨fromToml, toToml, fromJson, toJson, htoml, hjson⟩

/-- There is no file yet. -/
def noFiles : StateProcesses StateReply StateCommand where
  path := "/home/user/.config/c6"
  dir := ⟨fun _ => none, fun _ => ⟨false, false, 0, []⟩, 0, nofun⟩
  holder := none
  process _ := none

/-- Nothing fails. -/
def plainCall : CallInput := ⟨none, 0, 0o600, rfl, false, false⟩

end Cresix.Cli
