import Cresix.Server.Handlers
import Cresix.Library.Transition

/-!
# Runs of the server

The server opens its database, serves requests, and may be stopped at any
moment; what is under way is lost then, and the database stays.  The requests
in service take the lock of the database in any order, and time passes.
-/

namespace Cresix.Server

open Concurrent (Pool)
open Transition (System Event)

/-! ## Opening -/

/-- `ensure_server`, with the token it was supplied or has in its file and the
identifier it draws. -/
def ensureServer (config : Config) (token serverId : String) (db : Database) :
    Except Database.SqlError Database :=
  if "server_id" ∈ db.settings then .ok db
  else do
    let db ← db.insertSetting "server_id" serverId
    db.insertSetting "bootstrap_hash" (config.hash token)

/-- `backfill_server_owner`. -/
def backfillServerOwner (db : Database) : Database :=
  match db.users.find? (·.revokedAt.isNone) with
  | some owner => db.insertSettingOrIgnore "server_owner_id" owner.id
  | none => db

/-! ## States and steps -/

inductive Phase where
  | down
  /-- `ensure_server` is done. -/
  | opening
  | up
deriving DecidableEq, Repr

/-- The process of the server, with its database. -/
structure Process where
  phase : Phase
  pool : Pool Store Input HttpError Reply Request

namespace Process

def db (x : Process) : Database := x.pool.state.db

def clock (x : Process) : Instant := x.pool.state.clock

/-- Before the server was ever started. -/
def initial (clock : Instant) : Process := ⟨.down, ⟨⟨.empty, clock⟩, []⟩⟩

end Process

inductive Action where
  | ensureServer (token serverId : String)
  | backfillServerOwner
  | request (request : Request)
  /-- A request in service does its next section. -/
  | serve (thread : Nat) (input : Input)
  | tick (time : Nat)
  /-- The process ends, or a start fails. -/
  | stop

/-- The step an action leads to. -/
def step (config : Config) (x : Process) : Action → Option Process
  | .ensureServer token serverId =>
      if x.phase = .down then
        match ensureServer config token serverId x.db with
        | .ok db => some ⟨.opening, { x.pool with state := ⟨db, x.clock⟩ }⟩
        | .error _ => none
      else none
  | .backfillServerOwner =>
      if x.phase = .opening then
        some ⟨.up, { x.pool with state := ⟨backfillServerOwner x.db, x.clock⟩ }⟩
      else none
  | .request request =>
      if x.phase = .up then some ⟨.up, x.pool.start (program config) request⟩ else none
  | .serve thread input =>
      if x.phase = .up then (x.pool.run thread input).map fun pool => ⟨.up, pool⟩ else none
  | .tick time => some ⟨x.phase, { x.pool with state := ⟨x.db, x.clock + time⟩ }⟩
  | .stop => some ⟨.down, ⟨x.pool.state, []⟩⟩

/-- The server from an empty database on. -/
def system (config : Config) : System Process Action :=
  .ofOption (fun x => ∃ clock, x = .initial clock) (step config)

/-- The request whose section an event is. -/
def served (e : Event Process Action) : Option Request :=
  match e.label with
  | .serve thread _ => (e.pre.pool.threads[thread]?).map (·.request)
  | _ => none

/-- What the section of an event answers, when it is the last one. -/
def answered (e : Event Process Action) : Option (Except HttpError Reply) :=
  match e.label with
  | .serve thread _ => (e.post.pool.threads[thread]?).bind (·.program.outcome)
  | _ => none

/-- A section of the request changes the database. -/
def Commits (request : Request) (e : Event Process Action) : Prop :=
  served e = some request ∧ e.post.db ≠ e.pre.db

end Cresix.Server
