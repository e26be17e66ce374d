import Cresix.Cli.Commands
import Cresix.Cli.Helper
import Cresix.Library.Transition
import Mathlib.Logic.Function.Basic

/-!
# Processes on the local state

The processes of `c6` and of the credential helper run in any order, and a login
takes three steps between which others run: it reads the configuration, it is
answered by the server, and it takes the lock.  Every other process touches the
local state in one step.  A label keeps what the process was given, what the
server answered and what the process answered.  `DiskEffect` says once what a
step may do to the local state.
-/

namespace Cresix.Cli

open Transition

/-- A login between its steps. -/
inductive LoginPhase where
  /-- The request to the server is on its way. -/
  | asking (login : Login)
  /-- The server has accepted the token. -/
  | accepted (login : Login) (who : WhoAmI)
deriving DecidableEq, Repr

structure CliState where
  disk : LocalState
  /-- The logins that run, by process. -/
  logins : Nat → Option LoginPhase

inductive Command where
  | serverAdd (request : AddRequest) (answer : Except ClientError ServerStatus) (io : LocalIo)
  | serverUse (name : String) (io : LocalIo)
  /-- A login reads the configuration and the token and asks the server. -/
  | login (pid : Nat) (args : LoginArgs) (stdin : List UInt8) (loadConfig : Option String)
  /-- The server of an origin answers a login that has sent it a token. -/
  | whoami (pid : Nat) (origin : Origin) (token : String) (answer : Except ClientError WhoAmI)
  /-- A login takes the lock and ends. -/
  | finishLogin (pid : Nat) (io : LocalIo)
  | logout (requested : Option String) (io : LocalIo)
  | helper (arg : Option String) (stdin : List UInt8) (io : LocalIo)

/-- What a process answers. -/
inductive Reply where
  /-- The process has not ended. -/
  | running
  | c6 (result : Except AppError Output)
  | helper (result : Except String HelperOutput)
deriving DecidableEq

structure Call where
  command : Command
  reply : Reply

namespace CliState

/-- Where a login is. -/
def setLogin (s : CliState) (pid : Nat) (phase : Option LoginPhase) : CliState :=
  { s with logins := Function.update s.logins pid phase }

/-- A command of `c6` that runs in one step. -/
def c6 (s : CliState) (result : Except AppError Output × LocalState) : Reply × CliState :=
  (.c6 result.1, { s with disk := result.2 })

/-- One step of a process; `none` when no process is there to take it. -/
def perform (crate : UrlCrate) (s : CliState) : Command → Option (Reply × CliState)
  | .serverAdd request answer io => some (s.c6 (Cli.serverAdd crate request answer io s.disk))
  | .serverUse name io => some (s.c6 (Cli.serverUse name io s.disk))
  | .login pid args stdin loadConfig =>
      match s.logins pid with
      | some _ => none
      | none =>
          match startLogin crate args stdin loadConfig s.disk.config with
          | .error e => some (.c6 (.error e), s)
          | .ok login => some (.running, s.setLogin pid (some (.asking login)))
  | .whoami pid origin token answer =>
      match s.logins pid with
      | some (.asking login) =>
          if login.origin = origin ∧ login.token = token then
            match acceptLogin login answer with
            | .error e => some (.c6 (.error e), s.setLogin pid none)
            | .ok who => some (.running, s.setLogin pid (some (.accepted login who)))
          else none
      | _ => none
  | .finishLogin pid io =>
      match s.logins pid with
      | some (.accepted login who) =>
          some ((s.setLogin pid none).c6 (Cli.finishLogin login who io s.disk))
      | _ => none
  | .logout requested io => some (s.c6 (Cli.logout requested io s.disk))
  | .helper arg stdin io =>
      let (result, disk) := execute crate arg stdin io s.disk
      some (.helper result, { s with disk := disk })

/-- One step with the answer of the process. -/
def step (crate : UrlCrate) (s : CliState) (call : Call) : Option CliState :=
  match s.perform crate call.command with
  | none => none
  | some (reply, t) => if reply = call.reply then some t else none

end CliState

/-- The processes of one user, from any local state on, with no login under way. -/
def processes (crate : UrlCrate) : System CliState Call :=
  .ofOption (fun s => ∀ pid, s.logins pid = none) (CliState.step crate)

abbrev CliEvent := Event CliState Call

/-! ## What a step does -/

/-- What a step may do to the local state. -/
inductive DiskEffect (crate : UrlCrate) (s : CliState) (call : Call) : LocalState → Prop where
  | same : DiskEffect crate s call s.disk
  /-- `server add` writes a server that the alias stands for already, or under a new alias. -/
  | added {request : AddRequest} {answer : Except ClientError ServerStatus} {io : LocalIo}
      {origin : Origin} {status : ServerStatus}
      (command : call.command = .serverAdd request answer io)
      (parsed : Origin.parse crate request.origin request.allowHttpLocalhost = .ok origin)
      (answered : answer = .ok status)
      (pinned : ∀ existing, s.disk.config.servers.get? (request.alias status) = some existing →
        existing.serverId = Rust.hyphenated status.serverId ∧ existing.baseUrl = origin.asStr) :
      DiskEffect crate s call { s.disk with
        config := s.disk.config.add (request.alias status) (request.server origin status) }
  | used (name : String) : DiskEffect crate s call { s.disk with
      config := { s.disk.config with defaultServer := some name } }
  /-- A login stores its token for the server that has accepted it. -/
  | loggedIn {pid : Nat} {login : Login} {who : WhoAmI} {current : Server} (plaintext : Bool)
      (phase : s.logins pid = some (.accepted login who))
      (configured : s.disk.config.servers.get? login.name = some current)
      (serverId : current.serverId = login.pinned) (baseUrl : current.baseUrl = login.baseUrl) :
      DiskEffect crate s call ⟨{ s.disk.config with plaintextCredentials := plaintext },
        s.disk.credentials.setApiToken login.name login.token⟩
  | loggedOut (name : String) : DiskEffect crate s call { s.disk with
      credentials := (s.disk.credentials.removeApiToken name).1 }
  /-- A helper process has served a request. -/
  | helped {arg : Option String} {stdin : List UInt8} {io : LocalIo}
      {reply : Except String HelperOutput} {operation : Operation} {request : HelperRequest}
      {disk : LocalState} (label : call = ⟨.helper arg stdin io, .helper reply⟩)
      (operates : Operation.ofArg arg = .ok operation)
      (read : readRequest crate stdin = .ok (some request))
      (effect : HelperEffect crate operation request s.disk reply disk) :
      DiskEffect crate s call disk

/-- What a step may do to the logins. -/
inductive LoginEffect (crate : UrlCrate) (s : CliState) (call : Call) :
    (Nat → Option LoginPhase) → Prop where
  | same : LoginEffect crate s call s.logins
  | asked {pid : Nat} {args : LoginArgs} {stdin : List UInt8} {loadConfig : Option String}
      {login : Login} (read : startLogin crate args stdin loadConfig s.disk.config = .ok login) :
      LoginEffect crate s call (Function.update s.logins pid (some (.asking login)))
  | accepted {pid : Nat} {login : Login} {who : WhoAmI}
      (phase : s.logins pid = some (.asking login))
      (command : call.command = .whoami pid login.origin login.token (.ok who))
      (pinned : Rust.hyphenated who.serverId = login.pinned) :
      LoginEffect crate s call (Function.update s.logins pid (some (.accepted login who)))
  | ended (pid : Nat) : LoginEffect crate s call (Function.update s.logins pid none)

variable {crate : UrlCrate} {s t : CliState} {call : Call}

theorem CliState.step_eq_some (h : s.step crate call = some t) :
    s.perform crate call.command = some (call.reply, t) := by
  simp only [step] at h
  split at h
  next => cases h
  next hperform =>
    split at h
    next hreply =>
      cases h
      rw [hperform, hreply]
    next => cases h

/-- A helper process does what `execute` says. -/
theorem CliState.step_helper {arg : Option String} {stdin : List UInt8} {io : LocalIo}
    {result : Except String HelperOutput}
    (h : s.step crate ⟨.helper arg stdin io, .helper result⟩ = some t) :
    execute crate arg stdin io s.disk = (result, t.disk) := by
  have hperform := step_eq_some h
  simp only [perform, Option.some.injEq, Prod.mk.injEq] at hperform
  obtain ⟨hresult, rfl⟩ := hperform
  exact Prod.ext (Reply.helper.inj hresult) rfl

/-- A step that is taken has one of the effects on either part of the state. -/
theorem CliState.step_effect (h : s.step crate call = some t) :
    DiskEffect crate s call t.disk ∧ LoginEffect crate s call t.logins := by
  have hperform := step_eq_some h
  obtain ⟨command, reply⟩ := call
  cases command with
  | serverAdd request answer io =>
      simp only [perform, c6, Option.some.injEq, Prod.mk.injEq] at hperform
      obtain ⟨-, rfl⟩ := hperform
      refine ⟨?_, .same⟩
      rcases serverAdd_cases (Prod.eta (Cli.serverAdd crate request answer io s.disk)).symm with hsame | h
      · rw [hsame]
        exact .same
      · obtain ⟨origin, status, hparse, hanswer, hpinned, hstate⟩ := h
        rw [hstate]
        exact .added rfl hparse hanswer hpinned
  | serverUse name io =>
      simp only [perform, c6, Option.some.injEq, Prod.mk.injEq] at hperform
      obtain ⟨-, rfl⟩ := hperform
      refine ⟨?_, .same⟩
      rcases serverUse_cases (Prod.eta (Cli.serverUse name io s.disk)).symm with hsame | hstate
      · rw [hsame]
        exact .same
      · rw [hstate]
        exact .used name
  | login pid args stdin loadConfig =>
      simp only [perform] at hperform
      split at hperform
      next => cases hperform
      next =>
        split at hperform
        next =>
          cases hperform
          exact ⟨.same, .same⟩
        next login hlogin =>
          cases hperform
          exact ⟨.same, .asked hlogin⟩
  | whoami pid origin token answer =>
      simp only [perform] at hperform
      split at hperform
      next login hphase =>
        split at hperform
        next hsent =>
          obtain ⟨rfl, rfl⟩ := hsent
          split at hperform
          next =>
            cases hperform
            exact ⟨.same, .ended pid⟩
          next who haccept =>
            cases hperform
            obtain ⟨rfl, hpinned⟩ := acceptLogin_eq_ok_iff.mp haccept
            exact ⟨.same, .accepted hphase rfl hpinned⟩
        next => cases hperform
      next => cases hperform
  | finishLogin pid io =>
      simp only [perform] at hperform
      split at hperform
      next login who hphase =>
        simp only [c6, setLogin, Option.some.injEq, Prod.mk.injEq] at hperform
        obtain ⟨-, rfl⟩ := hperform
        refine ⟨?_, .ended pid⟩
        rcases finishLogin_cases (Prod.eta (Cli.finishLogin login who io s.disk)).symm with hsame | h
        · simp only [hsame]
          exact .same
        · obtain ⟨current, plaintext, hcurrent, hid, hurl, hstate⟩ := h
          simp only [hstate]
          exact .loggedIn plaintext hphase hcurrent hid hurl
      next => cases hperform
  | logout requested io =>
      simp only [perform, c6, Option.some.injEq, Prod.mk.injEq] at hperform
      obtain ⟨-, rfl⟩ := hperform
      refine ⟨?_, .same⟩
      rcases logout_cases (Prod.eta (Cli.logout requested io s.disk)).symm with hsame | ⟨name, hstate⟩
      · rw [hsame]
        exact .same
      · rw [hstate]
        exact .loggedOut name
  | helper arg stdin io =>
      simp only [perform, Option.some.injEq, Prod.mk.injEq] at hperform
      obtain ⟨rfl, rfl⟩ := hperform
      refine ⟨?_, .same⟩
      rcases execute_cases (Prod.eta (execute crate arg stdin io s.disk)).symm with h | h
      · obtain ⟨hsame, -⟩ := h
        simp only [hsame]
        exact .same
      · obtain ⟨operation, request, hoperation, hread, heffect⟩ := h
        exact .helped rfl hoperation hread heffect

end Cresix.Cli
