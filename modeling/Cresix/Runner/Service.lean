import Cresix.Library.Transition
import Cresix.Runner.Request
import Mathlib.Logic.Function.Basic

/-!
# The runner service

`RunnerService` with every handler it is serving.  A handler is where its
task stands between two awaits: `step` runs one handler up to its next await,
so a run of `service` is any interleaving of the handlers at the granularity
at which the Tokio tasks can interleave.  The store is taken to load and save
in one step and not to fail.  What the backend does and what the clock shows
are inputs of the steps.

`Step` lists what a step can do, one constructor per way out of a piece of
the source; `Step.of_step` is the only place that unfolds `step`.
-/

namespace Cresix.Runner

open Rust (Uuid)
open Transition (System)

/-! ## Records -/

inductive RunStatus where
  | succeeded
  | failed
  | cancelled
  | timedOut
  | interrupted
deriving DecidableEq, Repr

/-- The captured output of a run. -/
structure CapturedLog where
  content : String
  truncated : Bool
deriving DecidableEq, Repr

/-- The terminal result of a run. -/
structure RunRecord where
  /-- The request as it was accepted. -/
  request : ExecutionRequest
  status : RunStatus
  exitCode : Option Int
  stdout : CapturedLog
  stderr : CapturedLog
  startedAtMs : Int
  finishedAtMs : Int
deriving DecidableEq, Repr

/-- What the backend gives back. -/
structure BackendOutput where
  exitCode : Int
  stdout : String
  stderr : String
deriving DecidableEq, Repr

/-- How a run ended. -/
inductive RunOutcome where
  | exited (output : BackendOutput)
  | backendFailed (message : String)
  | cancelled
  | timedOut
deriving DecidableEq, Repr

/-- The loop of `capture_log`: steps back from `boundary` to the start of a
character. -/
def floorCharBoundary (content : List UInt8) : Nat → Nat
  | 0 => 0
  | boundary + 1 =>
      if Rust.isCharBoundary content (boundary + 1) then boundary + 1
      else floorCharBoundary content boundary

/-- `capture_log`. -/
def captureLog (content : String) (limit : Nat) : CapturedLog :=
  if Rust.len content ≤ limit then ⟨content, false⟩
  else ⟨Rust.truncate content (floorCharBoundary (Rust.bytes content) limit), true⟩

/-- `build_record`; `now` is the clock at the end. -/
def buildRecord (request : ExecutionRequest) (startedAtMs : Int) (outcome : RunOutcome)
    (now : Int) : RunRecord :=
  let limit := request.resources.logBytes
  let (status, exitCode, stdout, stderr) := match outcome with
    | .exited output =>
        (if output.exitCode = 0 then .succeeded else .failed, some output.exitCode,
          captureLog output.stdout limit, captureLog output.stderr limit)
    | .backendFailed message =>
        (RunStatus.interrupted, none, captureLog "" limit, captureLog message limit)
    | .cancelled => (.cancelled, none, captureLog "" limit, captureLog "" limit)
    | .timedOut => (.timedOut, none, captureLog "" limit, captureLog "" limit)
  { request, status, exitCode, stdout, stderr, startedAtMs, finishedAtMs := now }

@[simp] theorem buildRecord_request (request : ExecutionRequest) (startedAtMs : Int)
    (outcome : RunOutcome) (now : Int) :
    (buildRecord request startedAtMs outcome now).request = request := rfl

/-! ## Commands and answers -/

inductive ErrorCode where
  | authenticationFailed
  | replayDetected
  | staleRequest
  | unsupportedVersion
  | malformedRequest
  | invalidExecution
  | idempotencyConflict
  | notFound
  | persistenceFailed
  | internal
deriving DecidableEq, Repr

/-- What a handler is asked. -/
inductive RunnerCommand where
  | ping
  | execute (execution : ExecutionRequest)
  | cancel (runId : Uuid)
  | inspect (runId : Uuid)
deriving DecidableEq, Repr

/-- What a handler answers. -/
inductive ResponseBody where
  | pong
  | finished (record : RunRecord)
  | status (record : Option RunRecord)
  | cancelAcknowledged (alreadyTerminal : Bool)
  | rejected (code : ErrorCode) (message : String)
deriving DecidableEq, Repr

/-! ## The state -/

/-- Names a handler and the cancellation channel it makes. -/
abbrev HandlerId := Nat

/-- An entry of the map of active runs. -/
structure ActiveRun where
  request : ExecutionRequest
  /-- The handler whose cancellation channel the entry holds the sender of. -/
  cancel : HandlerId
deriving DecidableEq, Repr

/-- Where a handler stands. -/
inductive Handler where
  /-- Nothing was asked yet. -/
  | idle
  /-- `execute` before `store.load`. -/
  | load (execution : ExecutionRequest)
  /-- `execute` before it locks the active runs; the load found nothing. -/
  | check (execution : ExecutionRequest)
  /-- `execute` before the first poll of its `select!`; its entry is in the map. -/
  | poll (execution : ExecutionRequest)
  /-- `execute` in the `select!` with the backend started. -/
  | run (execution : ExecutionRequest) (startedAtMs : Int)
  /-- `execute` before it removes its entry. -/
  | remove (execution : ExecutionRequest) (startedAtMs : Int) (outcome : RunOutcome)
  /-- `execute` before `store.save`. -/
  | save (record : RunRecord)
  /-- `inspect` before `store.load`. -/
  | inspect (runId : Uuid)
  /-- `cancel` before it locks the active runs. -/
  | cancel (runId : Uuid)
  /-- `cancel` before `store.load`; the run was not active. -/
  | cancelLoad (runId : Uuid)
  /-- The answer is given. -/
  | returned (command : RunnerCommand) (body : ResponseBody)
deriving DecidableEq, Repr

/-- The service and its handlers. -/
structure RunnerService where
  /-- The result store. -/
  store : Uuid → Option RunRecord
  /-- The runs that are active. -/
  active : Uuid → Option ActiveRun
  /-- The handlers whose cancellation channel was sent `true`. -/
  cancelSent : HandlerId → Bool
  /-- Where each handler stands. -/
  handlers : HandlerId → Handler

/-- A service without handlers over a store. -/
def RunnerService.new (store : Uuid → Option RunRecord) : RunnerService where
  store := store
  active _ := none
  cancelSent _ := false
  handlers _ := .idle

/-- What `time::timeout` of the backend gives. -/
inductive BackendResult where
  | elapsed
  | failed (message : String)
  | output (output : BackendOutput)
deriving DecidableEq, Repr

/-- The outcome of a run whose backend branch is taken. -/
def BackendResult.outcome : BackendResult → RunOutcome
  | .elapsed => .timedOut
  | .failed message => .backendFailed ("simulation backend failed: " ++ message)
  | .output result => .exited result

/-- The next piece of a handler, with what it reads from outside. -/
inductive Action where
  /-- A verified command reaches a handler. -/
  | call (h : HandlerId) (command : RunnerCommand)
  | load (h : HandlerId)
  | check (h : HandlerId)
  /-- The first poll of the `select!`. -/
  | poll (h : HandlerId) (now : Int)
  /-- A later poll; `result` is there when the backend branch is ready. -/
  | wake (h : HandlerId) (result : Option BackendResult)
  | remove (h : HandlerId) (now : Int)
  | save (h : HandlerId)
  | inspect (h : HandlerId)
  | cancel (h : HandlerId)
  | cancelLoad (h : HandlerId)
deriving DecidableEq, Repr

namespace RunnerService

/-! ## The pieces of the handlers -/

/-- The service with a handler further on. -/
def goto (s : RunnerService) (h : HandlerId) (next : Handler) : RunnerService :=
  { s with handlers := Function.update s.handlers h next }

/-- `cancellation.changed()` is ready: the channel was sent a value, or its
sender is gone. -/
def cancellationChanged (s : RunnerService) (h : HandlerId) (runId : Uuid) : Bool :=
  s.cancelSent h || (s.active runId).all fun run => run.cancel != h

/-- `handle` up to the first await of the command. -/
def receive : RunnerCommand → Handler
  | .ping => .returned .ping .pong
  | .inspect runId => .inspect runId
  | .cancel runId => .cancel runId
  | .execute execution =>
      match execution.validate with
      | .error error =>
          .returned (.execute execution) (.rejected .invalidExecution error.message)
      | .ok () => .load execution

/-- `execute` after `store.load`. -/
def afterLoad (execution : ExecutionRequest) : Option RunRecord → Handler
  | some record =>
      if record.request = execution then .returned (.execute execution) (.finished record)
      else .returned (.execute execution)
        (.rejected .idempotencyConflict "run ID is already bound to a different execution")
  | none => .check execution

/-- The answer of `execute` when the run is active. -/
def activeConflict (execution : ExecutionRequest) (existing : ActiveRun) : ResponseBody :=
  .rejected .idempotencyConflict
    (if existing.request = execution then "run is already active"
     else "run ID is active with a different execution")

/-- `cancel` after `store.load`. -/
def afterCancelLoad : Option RunRecord → ResponseBody
  | some _ => .cancelAcknowledged true
  | none => .rejected .notFound "run was not found"

/-- Runs one handler up to its next await; `none` when the handler does not
stand before that piece. -/
def step (s : RunnerService) : Action → Option RunnerService
  | .call h command =>
      match s.handlers h with
      | .idle => some (s.goto h (receive command))
      | _ => none
  | .load h =>
      match s.handlers h with
      | .load execution => some (s.goto h (afterLoad execution (s.store execution.runId)))
      | _ => none
  | .check h =>
      match s.handlers h with
      | .check execution =>
          match s.active execution.runId with
          | some existing =>
              some (s.goto h (.returned (.execute execution) (activeConflict execution existing)))
          | none =>
              some { s.goto h (.poll execution) with
                active := Function.update s.active execution.runId (some ⟨execution, h⟩) }
      | _ => none
  | .poll h now =>
      match s.handlers h with
      | .poll execution =>
          if s.cancellationChanged h execution.runId then
            some (s.goto h (.remove execution now .cancelled))
          else some (s.goto h (.run execution now))
      | _ => none
  | .wake h result =>
      match s.handlers h with
      | .run execution startedAtMs =>
          -- `biased`: the cancellation branch is polled first
          if s.cancellationChanged h execution.runId then
            some (s.goto h (.remove execution startedAtMs .cancelled))
          else result.map fun result =>
            s.goto h (.remove execution startedAtMs result.outcome)
      | _ => none
  | .remove h now =>
      match s.handlers h with
      | .remove execution startedAtMs outcome =>
          some { s.goto h (.save (buildRecord execution startedAtMs outcome now)) with
            active := Function.update s.active execution.runId none }
      | _ => none
  | .save h =>
      match s.handlers h with
      | .save record =>
          some { s.goto h (.returned (.execute record.request) (.finished record)) with
            store := Function.update s.store record.request.runId (some record) }
      | _ => none
  | .inspect h =>
      match s.handlers h with
      | .inspect runId => some (s.goto h (.returned (.inspect runId) (.status (s.store runId))))
      | _ => none
  | .cancel h =>
      match s.handlers h with
      | .cancel runId =>
          match s.active runId with
          | some run =>
              some { s.goto h (.returned (.cancel runId) (.cancelAcknowledged false)) with
                cancelSent := Function.update s.cancelSent run.cancel true }
          | none => some (s.goto h (.cancelLoad runId))
      | _ => none
  | .cancelLoad h =>
      match s.handlers h with
      | .cancelLoad runId =>
          some (s.goto h (.returned (.cancel runId) (afterCancelLoad (s.store runId))))
      | _ => none

/-- The service from any store, under any interleaving of any handlers. -/
def service : System RunnerService Action :=
  .ofOption (fun s => ∃ store, s = new store) step

/-! ## What a step can do -/

/-- The ways out of the pieces. -/
inductive Step (s : RunnerService) : Action → RunnerService → Prop where
  | call {h : HandlerId} {command : RunnerCommand} :
      s.handlers h = .idle → Step s (.call h command) (s.goto h (receive command))
  | load {h : HandlerId} {execution : ExecutionRequest} :
      s.handlers h = .load execution →
      Step s (.load h) (s.goto h (afterLoad execution (s.store execution.runId)))
  | conflict {h : HandlerId} {execution : ExecutionRequest} {existing : ActiveRun} :
      s.handlers h = .check execution → s.active execution.runId = some existing →
      Step s (.check h)
        (s.goto h (.returned (.execute execution) (activeConflict execution existing)))
  | claim {h : HandlerId} {execution : ExecutionRequest} :
      s.handlers h = .check execution → s.active execution.runId = none →
      Step s (.check h) { s.goto h (.poll execution) with
        active := Function.update s.active execution.runId (some ⟨execution, h⟩) }
  | skip {h : HandlerId} {execution : ExecutionRequest} {now : Int} :
      s.handlers h = .poll execution → s.cancellationChanged h execution.runId = true →
      Step s (.poll h now) (s.goto h (.remove execution now .cancelled))
  | start {h : HandlerId} {execution : ExecutionRequest} {now : Int} :
      s.handlers h = .poll execution → s.cancellationChanged h execution.runId = false →
      Step s (.poll h now) (s.goto h (.run execution now))
  | abort {h : HandlerId} {execution : ExecutionRequest} {startedAtMs : Int}
      {result : Option BackendResult} :
      s.handlers h = .run execution startedAtMs →
      s.cancellationChanged h execution.runId = true →
      Step s (.wake h result) (s.goto h (.remove execution startedAtMs .cancelled))
  | finish {h : HandlerId} {execution : ExecutionRequest} {startedAtMs : Int}
      {result : BackendResult} :
      s.handlers h = .run execution startedAtMs →
      s.cancellationChanged h execution.runId = false →
      Step s (.wake h (some result)) (s.goto h (.remove execution startedAtMs result.outcome))
  | remove {h : HandlerId} {execution : ExecutionRequest} {startedAtMs now : Int}
      {outcome : RunOutcome} :
      s.handlers h = .remove execution startedAtMs outcome →
      Step s (.remove h now)
        { s.goto h (.save (buildRecord execution startedAtMs outcome now)) with
          active := Function.update s.active execution.runId none }
  | save {h : HandlerId} {record : RunRecord} :
      s.handlers h = .save record →
      Step s (.save h)
        { s.goto h (.returned (.execute record.request) (.finished record)) with
          store := Function.update s.store record.request.runId (some record) }
  | inspect {h : HandlerId} {runId : Uuid} :
      s.handlers h = .inspect runId →
      Step s (.inspect h) (s.goto h (.returned (.inspect runId) (.status (s.store runId))))
  | cancel {h : HandlerId} {runId : Uuid} {run : ActiveRun} :
      s.handlers h = .cancel runId → s.active runId = some run →
      Step s (.cancel h)
        { s.goto h (.returned (.cancel runId) (.cancelAcknowledged false)) with
          cancelSent := Function.update s.cancelSent run.cancel true }
  | cancelMiss {h : HandlerId} {runId : Uuid} :
      s.handlers h = .cancel runId → s.active runId = none →
      Step s (.cancel h) (s.goto h (.cancelLoad runId))
  | cancelLoad {h : HandlerId} {runId : Uuid} :
      s.handlers h = .cancelLoad runId →
      Step s (.cancelLoad h)
        (s.goto h (.returned (.cancel runId) (afterCancelLoad (s.store runId))))

theorem Step.of_step {s t : RunnerService} {a : Action} (hstep : s.step a = some t) :
    Step s a t := by
  cases a with
  | call h command =>
      simp only [step] at hstep
      split at hstep
      next hh => cases hstep; exact .call hh
      next => cases hstep
  | load h =>
      simp only [step] at hstep
      split at hstep
      next hh => cases hstep; exact .load hh
      next => cases hstep
  | check h =>
      simp only [step] at hstep
      split at hstep
      next hh =>
        split at hstep
        next hactive => cases hstep; exact .conflict hh hactive
        next hactive => cases hstep; exact .claim hh hactive
      next => cases hstep
  | poll h now =>
      simp only [step] at hstep
      split at hstep
      next hh =>
        split at hstep
        next hchanged => cases hstep; exact .skip hh hchanged
        next hchanged => cases hstep; exact .start hh (eq_false_of_ne_true hchanged)
      next => cases hstep
  | wake h result =>
      simp only [step] at hstep
      split at hstep
      next hh =>
        split at hstep
        next hchanged => cases hstep; exact .abort hh hchanged
        next hchanged =>
          obtain ⟨_, rfl, rfl⟩ := Option.map_eq_some_iff.mp hstep
          exact .finish hh (eq_false_of_ne_true hchanged)
      next => cases hstep
  | remove h now =>
      simp only [step] at hstep
      split at hstep
      next hh => cases hstep; exact .remove hh
      next => cases hstep
  | save h =>
      simp only [step] at hstep
      split at hstep
      next hh => cases hstep; exact .save hh
      next => cases hstep
  | inspect h =>
      simp only [step] at hstep
      split at hstep
      next hh => cases hstep; exact .inspect hh
      next => cases hstep
  | cancel h =>
      simp only [step] at hstep
      split at hstep
      next hh =>
        split at hstep
        next hactive => cases hstep; exact .cancel hh hactive
        next hactive => cases hstep; exact .cancelMiss hh hactive
      next => cases hstep
  | cancelLoad h =>
      simp only [step] at hstep
      split at hstep
      next hh => cases hstep; exact .cancelLoad hh
      next => cases hstep

end RunnerService

end Cresix.Runner
