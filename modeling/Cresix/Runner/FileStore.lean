import Cresix.Library.Directory
import Cresix.Library.Refinement
import Cresix.Runner.Idempotency
import Cresix.Runner.Wire
import Cresix.Rust.Fs
import Cresix.Rust.Serde

/-!
# The results on disk

`RunnerService` over `FileResultStore`, call by call.  A record is written to a
temporary file, whose name only its run has, and then renamed.  Each call may
fail, a file is read and written in any pieces, and the process may be killed
and started anew between any two calls.

`FileService.toService` is the service over the records that are in the
directory.  A load takes place at the end of the file, or where there is none,
and a save at the rename.  With this the service on disk refines the one whose
store loads and saves in one step, fails, and survives a restart.  What a run
was answered once it is answered from then on.
-/

namespace Cresix.Runner

open Rust (File Uuid toVec)
open Transition (System Event)
open Transition.System (Refines seenEvent seenEvents)

/-! ## The service over a store that may fail -/

/-- The run whose record a handler is about to load. -/
def Handler.loads : Handler → Option Uuid
  | .load execution => some execution.runId
  | .inspect runId => some runId
  | .cancelLoad runId => some runId
  | _ => none

/-- A handler after its `store.load`. -/
def Handler.loaded (result : Option RunRecord) : Handler → Handler
  | .load execution => RunnerService.afterLoad execution result
  | .inspect runId => .returned (.inspect runId) (.status result)
  | .cancelLoad runId => .returned (.cancel runId) (RunnerService.afterCancelLoad result)
  | handler => handler

/-- A handler whose `store.load` or `store.save` failed. -/
def Handler.storeFailed (error : String) : Handler → Option Handler
  | .load execution => some (.returned (.execute execution) (failed error))
  | .inspect runId => some (.returned (.inspect runId) (failed error))
  | .cancelLoad runId => some (.returned (.cancel runId) (failed error))
  | .save record => some (.returned (.execute record.request) (failed error))
  | _ => none
where
  /-- The answer with a `StoreError`. -/
  failed (error : String) : ResponseBody :=
    .rejected .persistenceFailed ("result persistence failed: " ++ error)

/-- The piece in which a handler loads. -/
def Handler.loadAction (h : HandlerId) : Handler → Action
  | .inspect _ => .inspect h
  | .cancelLoad _ => .cancelLoad h
  | _ => .load h

/-- The piece has a call of the store in it. -/
def Action.usesStore : Action → Bool
  | .load _ => true
  | .save _ => true
  | .inspect _ => true
  | .cancelLoad _ => true
  | _ => false

inductive ServiceAction where
  | act (a : Action)
  /-- The store fails. -/
  | fail (h : HandlerId) (error : String)
  /-- The process ends, and another one starts on the same store. -/
  | restart

namespace RunnerService

def stepOrFail (s : RunnerService) : ServiceAction → Option RunnerService
  | .act a => s.step a
  | .fail h error => ((s.handlers h).storeFailed error).map (s.goto h)
  | .restart => some (new s.store)

/-- The service over a store that loads and saves in one step and may fail. -/
def failingService : System RunnerService ServiceAction :=
  .ofOption (fun s => ∃ store, s = new store) stepOrFail

end RunnerService

/-! ## The service over files -/

/-- The name of the file of a run. -/
def recordName (runId : Uuid) : String := Rust.hyphenated runId ++ ".json"

/-- The name under which it is written. -/
def temporaryName (runId : Uuid) : String := "." ++ Rust.hyphenated runId ++ ".tmp"

/-- Where a handler stands in a call of the store. -/
inductive StoreCall where
  /-- `load` has the file open and has read so much of it. -/
  | read (inode : Nat) (got : List UInt8)
  /-- `save` has the temporary file open and has so much left to write. -/
  | write (inode : Nat) (rest : List UInt8)
  | setPermissions
  | rename

/-- The service and the directory of its store. -/
structure FileService where
  dir : Directory String File
  active : Uuid → Option ActiveRun
  cancelSent : HandlerId → Bool
  handlers : HandlerId → Handler
  /-- The calls of the store that have begun. -/
  calls : HandlerId → Option StoreCall

inductive FileAction where
  /-- A piece of a handler without a call of the store. -/
  | act (a : Action)
  | openRecord (h : HandlerId)
  /-- Up to `n + 1` bytes are read. -/
  | read (h : HandlerId) (n : Nat)
  /-- `fs::write` opens the temporary file, with the mode the umask leaves. -/
  | openTemporary (h : HandlerId) (mode : Nat)
  /-- Up to `n + 1` bytes are written. -/
  | write (h : HandlerId) (n : Nat)
  | setPermissions (h : HandlerId)
  | rename (h : HandlerId)
  /-- The next call on a file fails. -/
  | fail (h : HandlerId) (error : String)
  | restart

/-- What the system says of a name that is not there. -/
def noSuchFile : String := "No such file or directory (os error 2)"

namespace FileService

/-- The process has just started. -/
def new (dir : Directory String File) : FileService where
  dir := dir
  active _ := none
  cancelSent _ := false
  handlers _ := .idle
  calls _ := none

/-- The directory is changed. -/
def changed (s : FileService) (dir : Directory String File) : FileService := { s with dir }

/-- A handler goes on after its call of the store. -/
def answer (s : FileService) (h : HandlerId) (next : Handler) : FileService :=
  { s with handlers := Function.update s.handlers h next, calls := Function.update s.calls h none }

/-- A handler goes on in its call of the store. -/
def enter (s : FileService) (h : HandlerId) (call : StoreCall) : FileService :=
  { s with calls := Function.update s.calls h (some call) }

/-- The call of the store failed. -/
def failed (s : FileService) (h : HandlerId) (error : String) : Option FileService :=
  ((s.handlers h).storeFailed error).map (s.answer h)

/-- The part of the service that is in memory, over a store. -/
def inMemory (s : FileService) (store : Uuid → Option RunRecord) : RunnerService :=
  ⟨store, s.active, s.cancelSent, s.handlers⟩

section

-- `serde_json::from_slice`.
variable (fromSlice : List UInt8 → Except String RunRecord)

/-- `FileResultStore::load` and `save`, and the pieces of the handlers around
them. -/
def step (s : FileService) : FileAction → Option FileService
  | .act a =>
      if a.usesStore then none
      else ((s.inMemory fun _ => none).step a).map fun t =>
        { s with active := t.active, cancelSent := t.cancelSent, handlers := t.handlers }
  | .openRecord h =>
      match s.calls h, (s.handlers h).loads with
      | none, some runId =>
          match s.dir.entry (recordName runId) with
          | some inode => some (s.enter h (.read inode []))
          -- `NotFound` is no error.
          | none => some (s.answer h ((s.handlers h).loaded none))
      | _, _ => none
  | .read h n =>
      match s.calls h with
      | some (.read inode got) =>
          match (s.dir.inode inode).content.drop got.length with
          | [] =>
              match fromSlice got with
              | .ok record => some (s.answer h ((s.handlers h).loaded (some record)))
              | .error error => s.failed h error
          | rest => some (s.enter h (.read inode (got ++ rest.take (n + 1))))
      | _ => none
  | .openTemporary h mode =>
      match s.calls h, s.handlers h with
      | none, .save record =>
          let name := temporaryName record.request.runId
          let bytes := toVec record.toJson
          match s.dir.entry name with
          | some inode =>
              some ((s.changed (s.dir.modify inode fun file => { file with content := [] })).enter h
                (.write inode bytes))
          | none =>
              some ((s.changed (s.dir.create name ⟨true, mode, []⟩)).enter h
                (.write s.dir.next bytes))
      | _, _ => none
  | .write h n =>
      match s.calls h with
      | some (.write _ []) => some (s.enter h .setPermissions)
      | some (.write inode (byte :: rest)) =>
          let piece := (byte :: rest).take (n + 1)
          some ((s.changed (s.dir.modify inode fun file =>
            { file with content := file.content ++ piece })).enter h
              (.write inode ((byte :: rest).drop (n + 1))))
      | _ => none
  | .setPermissions h =>
      match s.calls h, s.handlers h with
      | some .setPermissions, .save record =>
          match s.dir.entry (temporaryName record.request.runId) with
          | some inode =>
              some ((s.changed (s.dir.modify inode fun file => { file with mode := 0o600 })).enter h
                .rename)
          | none => s.failed h noSuchFile
      | _, _ => none
  | .rename h =>
      match s.calls h, s.handlers h with
      | some .rename, .save record =>
          let name := temporaryName record.request.runId
          match s.dir.entry name with
          | some _ =>
              some ((s.changed (s.dir.rename name (recordName record.request.runId))).answer h
                (.returned (.execute record.request) (.finished record)))
          | none => s.failed h noSuchFile
      | _, _ => none
  | .fail h error => s.failed h error
  | .restart => some (new s.dir)

/-- The records in the directory. -/
def records (s : FileService) (runId : Uuid) : Option RunRecord :=
  (s.dir.lookup (recordName runId)).bind fun file => (fromSlice file.content).toOption

/-- The service over the records in the directory. -/
def toService (s : FileService) : RunnerService := s.inMemory (s.records fromSlice)

/-- What is seen of a step above the files. -/
def seen (s : FileService) : FileAction → Option ServiceAction
  | .act a => some (.act a)
  | .openRecord h =>
      match ((s.handlers h).loads).bind fun runId => s.dir.entry (recordName runId) with
      | some _ => none
      | none => some (.act ((s.handlers h).loadAction h))
  | .read h _ =>
      match s.calls h with
      | some (.read inode got) =>
          if (s.dir.inode inode).content.length ≤ got.length then
            some (.act ((s.handlers h).loadAction h))
          else none
      | _ => none
  | .openTemporary _ _ => none
  | .write _ _ => none
  | .setPermissions _ => none
  | .rename h => some (.act (.save h))
  | .fail h error => some (.fail h error)
  | .restart => some .restart

/-- Each file of a record holds a record of its run, whole, and no file has two
names. -/
structure WellFormed (dir : Directory String File) : Prop where
  unlinked : dir.Unlinked
  whole : ∀ runId file, dir.lookup (recordName runId) = some file → ∃ record : RunRecord,
    record.request.runId = runId ∧ file.content = toVec record.toJson ∧
      fromSlice file.content = .ok record

def fileService : System FileService FileAction :=
  .ofOption (fun s => ∃ dir, WellFormed fromSlice dir ∧ s = new dir) (step fromSlice)

/-- What is saved is read back, and a claim finds no record stored or about to
be. -/
structure Admits (s : FileService) (a : FileAction) (t : FileService) : Prop where
  readable : ∀ h record, t.handlers h = .save record →
    fromSlice (toVec record.toJson) = .ok record
  fresh : ∀ action, a = .act action → ∀ runId,
    RunnerService.ClaimsFresh runId (s.toService fromSlice) action (t.toService fromSlice)

end

/-! ## Names -/

theorem hyphenated_injective {a b : Uuid} (h : Rust.hyphenated a = Rust.hyphenated b) : a = b := by
  apply BitVec.eq_of_toNat_eq
  rw [← Rust.ofHex_hyphenated a, ← Rust.ofHex_hyphenated b, h]

theorem recordName_injective {a b : Uuid} (h : recordName a = recordName b) : a = b :=
  hyphenated_injective ((String.append_left_inj ".json").mp h)

theorem temporaryName_injective {a b : Uuid} (h : temporaryName a = temporaryName b) : a = b :=
  hyphenated_injective
    ((String.append_right_inj ".").mp ((String.append_left_inj ".tmp").mp h))

theorem recordName_ne_temporaryName (a b : Uuid) : recordName a ≠ temporaryName b := by
  intro h
  have hlast := congrArg (fun name => name.toList.getLast?) h
  simp only [recordName, temporaryName, String.toList_append, List.getLast?_append] at hlast
  simp at hlast

/-! ## Intact states -/

/-- What a call of the store has come to, on a file with this content. -/
def StoreHolds (handler : Handler) (inode : Nat) (content : List UInt8) : StoreCall → Prop
  | .read i got => i = inode ∧ handler.loads.isSome ∧ got <+: content
  | .write i rest =>
      i = inode ∧ ∃ record, handler = .save record ∧ content ++ rest = toVec record.toJson
  | .setPermissions => ∃ record, handler = .save record ∧ content = toVec record.toJson
  | .rename => ∃ record, handler = .save record ∧ content = toVec record.toJson

/-- The file that a handler works on in its call of the store. -/
def fileName : Handler → Option String
  | .save record => some (temporaryName record.request.runId)
  | handler => handler.loads.map recordName

theorem fileName_of_loads {handler : Handler} {runId : Uuid} (h : handler.loads = some runId) :
    fileName handler = some (recordName runId) := by
  cases handler with
  | save => cases h
  | _ => exact congrArg (Option.map recordName) h

theorem fileName_cases {handler : Handler} {name : String} (h : fileName handler = some name) :
    (∃ runId, handler.loads = some runId ∧ name = recordName runId) ∨
      ∃ record, handler = .save record ∧ name = temporaryName record.request.runId := by
  cases handler with
  | save record => exact .inr ⟨record, rfl, (Option.some.inj h).symm⟩
  | load execution => exact .inl ⟨_, rfl, (Option.some.inj h).symm⟩
  | inspect runId => exact .inl ⟨_, rfl, (Option.some.inj h).symm⟩
  | cancelLoad runId => exact .inl ⟨_, rfl, (Option.some.inj h).symm⟩
  | _ => cases h

/-- A handler in a call of the store has its file under its name. -/
def CallHolds (dir : Directory String File) (handler : Handler) (call : StoreCall) : Prop :=
  ∃ name inode, fileName handler = some name ∧ dir.entry name = some inode ∧
    StoreHolds handler inode (dir.inode inode).content call

/-- What holds in every run. -/
structure Intact (fromSlice : List UInt8 → Except String RunRecord) (s : FileService) : Prop where
  wellFormed : WellFormed fromSlice s.dir
  calls : ∀ h call, s.calls h = some call → CallHolds s.dir (s.handlers h) call
  readable : ∀ h record, s.handlers h = .save record →
    fromSlice (toVec record.toJson) = .ok record
  phase : ∀ runId, RunnerService.Phase runId 0 (s.toService fromSlice)

/-! ## What a step can do -/

variable {fromSlice : List UInt8 → Except String RunRecord} {s t : FileService}

/-- The ways through the calls of the store, but for those that cannot happen in
an intact directory. -/
inductive Step (fromSlice : List UInt8 → Except String RunRecord) (s : FileService) :
    FileAction → FileService → Prop where
  | act {a : Action} {u : RunnerService} :
      a.usesStore = false → (s.inMemory fun _ => none).step a = some u →
      Step fromSlice s (.act a)
        { s with active := u.active, cancelSent := u.cancelSent, handlers := u.handlers }
  | openRecord {h : HandlerId} {runId : Uuid} {inode : Nat} :
      s.calls h = none → (s.handlers h).loads = some runId →
      s.dir.entry (recordName runId) = some inode →
      Step fromSlice s (.openRecord h) (s.enter h (.read inode []))
  | missing {h : HandlerId} {runId : Uuid} :
      s.calls h = none → (s.handlers h).loads = some runId →
      s.dir.entry (recordName runId) = none →
      Step fromSlice s (.openRecord h) (s.answer h ((s.handlers h).loaded none))
  | read {h : HandlerId} {inode n : Nat} {got rest : List UInt8} :
      s.calls h = some (.read inode got) →
      (s.dir.inode inode).content.drop got.length = rest → rest ≠ [] →
      Step fromSlice s (.read h n) (s.enter h (.read inode (got ++ rest.take (n + 1))))
  | ended {h : HandlerId} {inode n : Nat} {got : List UInt8} {record : RunRecord} :
      s.calls h = some (.read inode got) → (s.dir.inode inode).content.drop got.length = [] →
      fromSlice got = .ok record →
      Step fromSlice s (.read h n) (s.answer h ((s.handlers h).loaded (some record)))
  | truncate {h : HandlerId} {mode inode : Nat} {record : RunRecord} :
      s.calls h = none → s.handlers h = .save record →
      s.dir.entry (temporaryName record.request.runId) = some inode →
      Step fromSlice s (.openTemporary h mode)
        ((s.changed (s.dir.modify inode fun file => { file with content := [] })).enter h
          (.write inode (toVec record.toJson)))
  | create {h : HandlerId} {mode : Nat} {record : RunRecord} :
      s.calls h = none → s.handlers h = .save record →
      Step fromSlice s (.openTemporary h mode)
        ((s.changed (s.dir.create (temporaryName record.request.runId) ⟨true, mode, []⟩)).enter h
          (.write s.dir.next (toVec record.toJson)))
  | write {h : HandlerId} {n inode : Nat} {rest : List UInt8} :
      s.calls h = some (.write inode rest) →
      Step fromSlice s (.write h n)
        ((s.changed (s.dir.modify inode fun file =>
          { file with content := file.content ++ rest.take (n + 1) })).enter h
            (.write inode (rest.drop (n + 1))))
  | written {h : HandlerId} {n inode : Nat} :
      s.calls h = some (.write inode []) →
      Step fromSlice s (.write h n) (s.enter h .setPermissions)
  | setPermissions {h : HandlerId} {inode : Nat} {record : RunRecord} :
      s.calls h = some .setPermissions → s.handlers h = .save record →
      s.dir.entry (temporaryName record.request.runId) = some inode →
      Step fromSlice s (.setPermissions h)
        ((s.changed (s.dir.modify inode fun file => { file with mode := 0o600 })).enter h .rename)
  | rename {h : HandlerId} {inode : Nat} {record : RunRecord} :
      s.calls h = some .rename → s.handlers h = .save record →
      s.dir.entry (temporaryName record.request.runId) = some inode →
      Step fromSlice s (.rename h)
        ((s.changed (s.dir.rename (temporaryName record.request.runId)
          (recordName record.request.runId))).answer h
            (.returned (.execute record.request) (.finished record)))
  | fail {h : HandlerId} {error : String} {next : Handler} :
      (s.handlers h).storeFailed error = some next →
      Step fromSlice s (.fail h error) (s.answer h next)
  | restart : Step fromSlice s .restart (new s.dir)

/-- A record that was read to its end. -/
theorem Intact.ended (hs : Intact fromSlice s) {h : HandlerId} {inode : Nat} {got : List UInt8}
    (hcall : s.calls h = some (.read inode got))
    (hend : (s.dir.inode inode).content.drop got.length = []) :
    ∃ runId record, (s.handlers h).loads = some runId ∧ fromSlice got = .ok record ∧
      s.records fromSlice runId = some record := by
  obtain ⟨name, i, hname, hentry, rfl, hloads, hprefix⟩ := hs.calls h _ hcall
  obtain ⟨runId, hrun⟩ := Option.isSome_iff_exists.mp hloads
  obtain rfl := Option.some.inj ((fileName_of_loads hrun).symm.trans hname)
  have hgot : got = (s.dir.inode inode).content :=
    hprefix.eq_of_length_le (List.drop_eq_nil_iff.mp hend)
  have hfile := Directory.lookup_of_entry hentry
  obtain ⟨record, -, -, hread⟩ := hs.wellFormed.whole runId _ hfile
  refine ⟨runId, record, hrun, hgot ▸ hread, ?_⟩
  rw [records, hfile, Option.bind_some, hread]
  rfl

/-- The temporary file is there until it is renamed. -/
theorem Intact.entry (hs : Intact fromSlice s) {h : HandlerId} {call : StoreCall}
    {record : RunRecord} (hcall : s.calls h = some call) (hh : s.handlers h = .save record) :
    ∃ inode, s.dir.entry (temporaryName record.request.runId) = some inode := by
  obtain ⟨name, inode, hname, hentry, -⟩ := hs.calls h _ hcall
  rw [hh] at hname
  obtain rfl := Option.some.inj hname
  exact ⟨inode, hentry⟩

theorem Step.of_step (hs : Intact fromSlice s) {a : FileAction}
    (hstep : s.step fromSlice a = some t) : Step fromSlice s a t := by
  cases a with
  | act a =>
      simp only [step] at hstep
      split at hstep
      next => cases hstep
      next huses =>
        obtain ⟨u, hu, rfl⟩ := Option.map_eq_some_iff.mp hstep
        exact .act (eq_false_of_ne_true huses) hu
  | openRecord h =>
      simp only [step] at hstep
      split at hstep
      next runId hcall hloads =>
        split at hstep
        next inode hentry => cases hstep; exact .openRecord hcall hloads hentry
        next hentry => cases hstep; exact .missing hcall hloads hentry
      next => cases hstep
  | read h n =>
      simp only [step] at hstep
      split at hstep
      next inode got hcall =>
        split at hstep
        next hend =>
          obtain ⟨runId, record, -, hread, -⟩ := hs.ended hcall hend
          rw [hread] at hstep
          cases hstep
          exact .ended hcall hend hread
        next hne => cases hstep; exact .read hcall rfl hne
      next => cases hstep
  | openTemporary h mode =>
      simp only [step] at hstep
      split at hstep
      next record hcall hh =>
        split at hstep
        next inode hentry => cases hstep; exact .truncate hcall hh hentry
        next => cases hstep; exact .create hcall hh
      next => cases hstep
  | write h n =>
      simp only [step] at hstep
      split at hstep
      next hcall => cases hstep; exact .written hcall
      next hcall => cases hstep; exact .write hcall
      next => cases hstep
  | setPermissions h =>
      simp only [step] at hstep
      split at hstep
      next record hcall hh =>
        obtain ⟨inode, hentry⟩ := hs.entry hcall hh
        rw [hentry] at hstep
        cases hstep
        exact .setPermissions hcall hh hentry
      next => cases hstep
  | rename h =>
      simp only [step] at hstep
      split at hstep
      next record hcall hh =>
        obtain ⟨inode, hentry⟩ := hs.entry hcall hh
        rw [hentry] at hstep
        cases hstep
        exact .rename hcall hh hentry
      next => cases hstep
  | fail h error =>
      obtain ⟨next, hnext, rfl⟩ := Option.map_eq_some_iff.mp hstep
      exact .fail hnext
  | restart =>
      cases hstep
      exact .restart

/-! ## The directory -/

@[simp] theorem dir_enter {h : HandlerId} {call : StoreCall} : (s.enter h call).dir = s.dir := rfl

@[simp] theorem dir_answer {h : HandlerId} {next : Handler} : (s.answer h next).dir = s.dir := rfl

@[simp] theorem dir_changed {dir : Directory String File} : (s.changed dir).dir = dir := rfl

section

variable {dir dir' : Directory String File} {handler : Handler} {call : StoreCall} {h : HandlerId}

/-- A change of a directory that concerns one name only. -/
structure Private (name : String) (dir dir' : Directory String File) : Prop where
  unlinked : dir'.Unlinked
  others : ∀ other, other ≠ name → Directory.SoleKept other dir dir'
  lookup : ∀ other, other ≠ name → dir'.lookup other = dir.lookup other

theorem Private.modify {name : String} {i : Nat} {f : File → File} (hunlinked : dir.Unlinked)
    (hentry : dir.entry name = some i) : Private name dir (dir.modify i f) where
  unlinked := hunlinked.modify
  others _ hne := .modify (hunlinked name i hentry) hne
  lookup _ hne := Directory.lookup_modify_of_ne (hunlinked name i hentry) hne

theorem Private.create {name : String} {file : File} (hunlinked : dir.Unlinked) :
    Private name dir (dir.create name file) where
  unlinked := hunlinked.create
  others _ hne := .create hne
  lookup _ hne := Directory.lookup_create_of_ne hne

/-- The files of the records are as they were. -/
theorem Private.wellFormed {runId : Uuid} (h : Private (temporaryName runId) dir dir')
    (hdir : WellFormed fromSlice dir) : WellFormed fromSlice dir' where
  unlinked := h.unlinked
  whole other file hfile := by
    rw [h.lookup _ (recordName_ne_temporaryName other runId)] at hfile
    exact hdir.whole other file hfile

theorem Private.records {runId : Uuid} (h : Private (temporaryName runId) s.dir dir') :
    (s.changed dir').records fromSlice = s.records fromSlice := by
  funext other
  rw [FileService.records, FileService.records, changed,
    h.lookup _ (recordName_ne_temporaryName other runId)]

theorem CallHolds.kept (hcall : CallHolds dir handler call) (hdir : dir.Unlinked)
    (hkept : ∀ name, fileName handler = some name → Directory.SoleKept name dir dir') :
    CallHolds dir' handler call := by
  obtain ⟨name, inode, hname, hentry, hholds⟩ := hcall
  obtain ⟨hsole, hinode⟩ := hkept name hname inode (hdir name inode hentry)
  exact ⟨name, inode, hname, hsole.1, by rwa [hinode]⟩

/-- One handler goes on in its call, and what it does to the directory concerns
nobody else. -/
theorem calls_of_others (hs : Intact fromSlice s)
    (hothers : ∀ other, other ≠ h → t.calls other = s.calls other ∧
      t.handlers other = s.handlers other)
    (hkept : ∀ other, other ≠ h → ∀ name, fileName (s.handlers other) = some name →
      (s.calls other).isSome → Directory.SoleKept name s.dir t.dir)
    (hown : ∀ call, t.calls h = some call → CallHolds t.dir (t.handlers h) call) :
    ∀ other call, t.calls other = some call → CallHolds t.dir (t.handlers other) call := by
  intro other call hcall
  rcases eq_or_ne other h with rfl | hne
  · exact hown call hcall
  · obtain ⟨hcalls, hhandlers⟩ := hothers other hne
    rw [hcalls] at hcall
    rw [hhandlers]
    refine (hs.calls other call hcall).kept hs.wellFormed.unlinked ?_
    intro name hname
    exact hkept other hne name hname (by rw [hcall]; rfl)

/-- Nobody else saves what a handler saves. -/
theorem Intact.only_saver (hs : Intact fromSlice s) {record : RunRecord}
    (hh : s.handlers h = .save record) {other : HandlerId}
    (hother : (s.handlers other).saves record.request.runId = true) : other = h := by
  have hhere : (s.handlers h).saves record.request.runId = true := by
    rw [hh]
    exact decide_eq_true rfl
  cases hs.phase record.request.runId with
  | free _ _ hsaves _ _ => cases (hsaves h).symm.trans hhere
  | held _ _ _ hsaves _ _ => cases (hsaves h).symm.trans hhere
  | released _ _ _ hsaves _ =>
      have heq := of_decide_eq_true ((hsaves h).symm.trans hhere)
      have heq' := of_decide_eq_true ((hsaves other).symm.trans hother)
      rw [heq, heq']

/-- The temporary file of a run is that of the handler that saves it. -/
theorem Intact.fileName_ne (hs : Intact fromSlice s) {record : RunRecord}
    (hh : s.handlers h = .save record) {other : HandlerId} (hne : other ≠ h) {name : String}
    (hname : fileName (s.handlers other) = some name) :
    name ≠ temporaryName record.request.runId := by
  rintro rfl
  rcases fileName_cases hname with ⟨runId, -, heq⟩ | ⟨saved, hsaved, heq⟩
  · exact recordName_ne_temporaryName _ _ heq.symm
  · refine hne (hs.only_saver hh ?_)
    rw [hsaved]
    exact decide_eq_true (temporaryName_injective heq.symm)

/-- Nobody reads the record of a run that is being saved. -/
theorem Intact.recordName_ne (hs : Intact fromSlice s) {record : RunRecord}
    (hh : s.handlers h = .save record) {other : HandlerId} {name : String}
    (hname : fileName (s.handlers other) = some name) (hcall : (s.calls other).isSome) :
    name ≠ recordName record.request.runId := by
  rintro rfl
  obtain ⟨call, hcall⟩ := Option.isSome_iff_exists.mp hcall
  obtain ⟨name, inode, hname', hentry, -⟩ := hs.calls other call hcall
  obtain rfl := Option.some.inj (hname.symm.trans hname')
  have hfile := Directory.lookup_of_entry hentry
  obtain ⟨stored, -, -, hread⟩ := hs.wellFormed.whole _ _ hfile
  have hstore : (s.toService fromSlice).store record.request.runId = some stored := by
    show s.records fromSlice _ = _
    rw [FileService.records, hfile, Option.bind_some, hread]
    rfl
  have hfalse : (s.handlers h).saves record.request.runId = false :=
    ((hs.phase record.request.runId).of_store hstore).2 h
  rw [hh, show (Handler.save record).saves record.request.runId = true from
    decide_eq_true rfl] at hfalse
  cases hfalse

end

/-! ## Above the files -/

/-- The piece that loads, in one step. -/
theorem step_loadAction {r : RunnerService} {h : HandlerId} {runId : Uuid}
    (hloads : (r.handlers h).loads = some runId) :
    r.step ((r.handlers h).loadAction h) =
      some (r.goto h ((r.handlers h).loaded (r.store runId))) := by
  cases hh : r.handlers h with
  | load execution =>
      rw [hh] at hloads
      cases hloads
      simp only [Handler.loadAction, RunnerService.step, hh, Handler.loaded]
  | inspect asked =>
      rw [hh] at hloads
      cases hloads
      simp only [Handler.loadAction, RunnerService.step, hh, Handler.loaded]
  | cancelLoad asked =>
      rw [hh] at hloads
      cases hloads
      simp only [Handler.loadAction, RunnerService.step, hh, Handler.loaded]
  | _ =>
      rw [hh] at hloads
      cases hloads

/-- A piece without a call of the store does not look at it. -/
theorem step_store {r : RunnerService} {a : Action} (store : Uuid → Option RunRecord)
    (huses : a.usesStore = false) :
    ({ r with store } : RunnerService).step a = (r.step a).map fun u => { u with store } := by
  cases a with
  | load => cases huses
  | save => cases huses
  | inspect => cases huses
  | cancelLoad => cases huses
  | check h =>
      simp only [RunnerService.step]
      split
      next => split <;> rfl
      next => rfl
  | poll h now =>
      simp only [RunnerService.step]
      split
      next =>
        rw [apply_ite (Option.map _)]
        rfl
      next => rfl
  | wake h result =>
      simp only [RunnerService.step]
      split
      next =>
        rw [apply_ite (Option.map _), Option.map_map]
        rfl
      next => rfl
  | cancel h =>
      simp only [RunnerService.step]
      split
      next => split <;> rfl
      next => rfl
  | _ =>
      simp only [RunnerService.step]
      split
      next => rfl
      next => rfl

/-- Nor does it move a handler that is at one. -/
theorem step_keeps {r u : RunnerService} {a : Action} (huses : a.usesStore = false)
    (hstep : r.step a = some u) {h : HandlerId} {name : String}
    (hname : fileName (r.handlers h) = some name) : u.handlers h = r.handlers h := by
  obtain ⟨moved, next, hu, hnone⟩ : ∃ moved next,
      u.handlers = Function.update r.handlers moved next ∧ fileName (r.handlers moved) = none := by
    cases RunnerService.Step.of_step hstep with
    | call hh => exact ⟨_, _, rfl, by rw [hh]; rfl⟩
    | conflict hh _ => exact ⟨_, _, rfl, by rw [hh]; rfl⟩
    | claim hh _ => exact ⟨_, _, rfl, by rw [hh]; rfl⟩
    | skip hh _ => exact ⟨_, _, rfl, by rw [hh]; rfl⟩
    | start hh _ => exact ⟨_, _, rfl, by rw [hh]; rfl⟩
    | abort hh _ => exact ⟨_, _, rfl, by rw [hh]; rfl⟩
    | finish hh _ => exact ⟨_, _, rfl, by rw [hh]; rfl⟩
    | remove hh => exact ⟨_, _, rfl, by rw [hh]; rfl⟩
    | cancel hh _ => exact ⟨_, _, rfl, by rw [hh]; rfl⟩
    | cancelMiss hh _ => exact ⟨_, _, rfl, by rw [hh]; rfl⟩
    | load => cases huses
    | save => cases huses
    | inspect => cases huses
    | cancelLoad => cases huses
  rw [hu]
  refine Function.update_of_ne ?_ ..
  rintro rfl
  rw [hnone] at hname
  cases hname

/-- The records after the rename. -/
theorem records_renamed (hs : Intact fromSlice s) {h : HandlerId} {record : RunRecord}
    (hcall : s.calls h = some .rename) (hh : s.handlers h = .save record) :
    (s.changed (s.dir.rename (temporaryName record.request.runId)
      (recordName record.request.runId))).records fromSlice =
        Function.update (s.records fromSlice) record.request.runId (some record) := by
  obtain ⟨name, inode, hname, hentry, saved, hsaved, hcontent⟩ := hs.calls h _ hcall
  rw [hh] at hname hsaved
  obtain rfl := Option.some.inj hname
  cases hsaved
  funext runId
  rcases eq_or_ne runId record.request.runId with rfl | hne
  · rw [Function.update_self, records, changed,
      Directory.lookup_rename_target (recordName_ne_temporaryName _ _),
      Directory.lookup_of_entry hentry, Option.bind_some, hcontent, hs.readable h record hh]
    rfl
  · rw [Function.update_of_ne hne, records, records, changed,
      Directory.lookup_rename_of_ne (recordName_ne_temporaryName _ _)
        (fun heq => hne (recordName_injective heq))]

/-- What is seen of a step is a step of the service over a store. -/
theorem Intact.matched (hs : Intact fromSlice s) {a : FileAction} {b : ServiceAction}
    (hstep : Step fromSlice s a t) (hseen : s.seen a = some b) :
    (s.toService fromSlice).stepOrFail b = some (t.toService fromSlice) := by
  cases hstep with
  | @act a u huses hu =>
      cases hseen
      show ({ s.inMemory (fun _ => none) with store := _ } : RunnerService).step a = _
      rw [step_store _ huses, hu]
      rfl
  | @openRecord h runId inode hcall hloads hentry =>
      simp only [seen, hloads, Option.bind_some, hentry] at hseen
      cases hseen
  | @missing h runId hcall hloads hentry =>
      simp only [seen, hloads, Option.bind_some, hentry] at hseen
      cases hseen
      have hnone : (s.toService fromSlice).store runId = none := by
        show s.records fromSlice runId = none
        rw [records, Directory.lookup_eq_none_iff.mpr hentry]
        rfl
      have hload := step_loadAction (r := s.toService fromSlice) hloads
      rw [hnone] at hload
      exact hload
  | @read h inode n got rest hcall hrest hne =>
      have hlong : ¬(s.dir.inode inode).content.length ≤ got.length :=
        fun hle => hne (hrest.symm.trans (List.drop_eq_nil_of_le hle))
      simp only [seen, hcall, if_neg hlong] at hseen
      cases hseen
  | @ended h inode n got record hcall hend hread =>
      simp only [seen, hcall, if_pos (List.drop_eq_nil_iff.mp hend)] at hseen
      cases hseen
      obtain ⟨runId, stored, hloads, hread', hstore⟩ := hs.ended hcall hend
      cases hread.symm.trans hread'
      have hload := step_loadAction (r := s.toService fromSlice) hloads
      rw [show (s.toService fromSlice).store runId = some record from hstore] at hload
      exact hload
  | truncate => cases hseen
  | create => cases hseen
  | write => cases hseen
  | written => cases hseen
  | setPermissions => cases hseen
  | @rename h inode record hcall hh hentry =>
      cases hseen
      have hsave : (s.toService fromSlice).handlers h = .save record := hh
      simp only [RunnerService.stepOrFail, RunnerService.step, hsave]
      show some ({ (s.toService fromSlice).goto h _ with
        store := Function.update (s.records fromSlice) record.request.runId (some record) } :
          RunnerService) = _
      rw [← records_renamed hs hcall hh]
      rfl
  | @fail h error next hnext =>
      cases hseen
      show Option.map _ ((s.handlers h).storeFailed error) = _
      rw [hnext]
      rfl
  | restart =>
      cases hseen
      rfl

/-- The handler that writes has its temporary file open. -/
theorem Intact.writes (hs : Intact fromSlice s) {h : HandlerId} {inode : Nat} {rest : List UInt8}
    (hcall : s.calls h = some (.write inode rest)) : ∃ record,
    s.handlers h = .save record ∧
      s.dir.entry (temporaryName record.request.runId) = some inode ∧
      (s.dir.inode inode).content ++ rest = toVec record.toJson := by
  obtain ⟨name, i, hname, hentry, rfl, record, hh, hcontent⟩ := hs.calls h _ hcall
  rw [hh] at hname
  obtain rfl := Option.some.inj hname
  exact ⟨record, hh, hentry, hcontent⟩

/-- What is not seen changes nothing above the files. -/
theorem Intact.silent (hs : Intact fromSlice s) {a : FileAction} (hstep : Step fromSlice s a t)
    (hseen : s.seen a = none) : t.toService fromSlice = s.toService fromSlice := by
  have hprivate : ∀ {dir' : Directory String File} {runId : Uuid} {h : HandlerId}
      {call : StoreCall}, Private (temporaryName runId) s.dir dir' →
      ((s.changed dir').enter h call).toService fromSlice = s.toService fromSlice := by
    intro dir' runId h call hdir
    show (s.inMemory ((s.changed dir').records fromSlice)) = _
    rw [hdir.records]
    rfl
  cases hstep with
  | act => cases hseen
  | openRecord => rfl
  | @missing h runId hcall hloads hentry =>
      simp only [seen, hloads, Option.bind_some, hentry] at hseen
      cases hseen
  | read => rfl
  | @ended h inode n got record hcall hend hread =>
      simp only [seen, hcall, if_pos (List.drop_eq_nil_iff.mp hend)] at hseen
      cases hseen
  | truncate hcall hh hentry => exact hprivate (.modify hs.wellFormed.unlinked hentry)
  | create hcall hh => exact hprivate (.create hs.wellFormed.unlinked)
  | write hcall =>
      obtain ⟨record, -, hentry, -⟩ := hs.writes hcall
      exact hprivate (.modify hs.wellFormed.unlinked hentry)
  | written => rfl
  | setPermissions hcall hh hentry => exact hprivate (.modify hs.wellFormed.unlinked hentry)
  | rename => cases hseen
  | fail => cases hseen
  | restart => cases hseen

/-! ## What a step keeps -/

/-- The claims of a step above the files are fresh. -/
def Fresh (r : RunnerService) (b : ServiceAction) (u : RunnerService) : Prop :=
  ∀ a, b = .act a → ∀ runId, RunnerService.ClaimsFresh runId r a u

theorem fresh_of_usesStore {r u : RunnerService} {a : Action} (huses : a.usesStore = true) :
    Fresh r (.act a) u := by
  intro a' heq runId h execution hcheck
  cases heq
  subst hcheck
  cases huses

theorem usesStore_loadAction (h : HandlerId) (handler : Handler) :
    (handler.loadAction h).usesStore = true := by
  cases handler <;> rfl

theorem Admits.fresh_of_seen {a : FileAction} {b : ServiceAction} (hadmits : Admits fromSlice s a t)
    (hseen : s.seen a = some b) : Fresh (s.toService fromSlice) b (t.toService fromSlice) := by
  cases a with
  | act a =>
      cases hseen
      intro a' heq
      cases heq
      exact hadmits.fresh a rfl
  | openRecord h =>
      simp only [seen] at hseen
      split at hseen
      next => cases hseen
      next =>
        cases hseen
        exact fresh_of_usesStore (usesStore_loadAction h _)
  | read h n =>
      simp only [seen] at hseen
      split at hseen
      next =>
        split at hseen
        next =>
          cases hseen
          exact fresh_of_usesStore (usesStore_loadAction h _)
        next => cases hseen
      next => cases hseen
  | rename h =>
      cases hseen
      exact fresh_of_usesStore rfl
  | openTemporary => cases hseen
  | write => cases hseen
  | setPermissions => cases hseen
  | fail =>
      cases hseen
      exact nofun
  | restart =>
      cases hseen
      exact nofun

/-- Without the starts of the backend. -/
theorem phase_zero {r : RunnerService} {runId : Uuid} {n : Nat}
    (h : RunnerService.Phase runId n r) : RunnerService.Phase runId 0 r := by
  cases h with
  | free hactive hholds hsaves _ _ =>
      exact .free hactive hholds hsaves (Nat.zero_le 1) fun _ => rfl
  | held hstore hactive hholds hsaves _ _ =>
      exact .held hstore hactive hholds hsaves (Nat.zero_le 1) fun _ => rfl
  | released hstore hactive hholds hsaves _ =>
      exact .released hstore hactive hholds hsaves (Nat.zero_le 1)

/-- A save that fails leaves the identifier free. -/
theorem phase_fail {r : RunnerService} {runId : Uuid} {h : HandlerId} {error : String}
    {next : Handler} (hphase : RunnerService.Phase runId 0 r)
    (hfail : (r.handlers h).storeFailed error = some next) :
    RunnerService.Phase runId 0 (r.goto h next) := by
  have hnext : ∃ command body, next = .returned command body := by
    cases hh : r.handlers h <;> rw [hh] at hfail <;> cases hfail <;> exact ⟨_, _, rfl⟩
  obtain ⟨command, body, rfl⟩ := hnext
  cases hphase with
  | free hactive hholds hsaves hn hzero =>
      refine .free hactive ?_ ?_ hn hzero
      · exact RunnerService.goto_forall (p := fun _ x => x.holds runId = none) rfl
          fun h' _ => hholds h'
      · exact RunnerService.goto_forall (p := fun _ x => x.saves runId = false) rfl
          fun h' _ => hsaves h'
  | @held owner execution started hstore hactive hholds hsaves hn hzero =>
      have hne : h ≠ owner := by
        rintro rfl
        have hown := hholds h
        rw [if_pos rfl] at hown
        cases hh : r.handlers h <;> rw [hh] at hfail hown <;> cases hfail <;> cases hown
      refine .held hstore hactive ?_ ?_ hn hzero
      · refine RunnerService.goto_forall
          (p := fun h' x => x.holds runId = if h' = owner then _ else none) ?_ fun h' _ => hholds h'
        rw [if_neg hne]
        rfl
      · exact RunnerService.goto_forall (p := fun _ x => x.saves runId = false) rfl
          fun h' _ => hsaves h'
  | @released saver hstore hactive hholds hsaves hn =>
      have hholds' : ∀ h', ((r.goto h (.returned command body)).handlers h').holds runId = none :=
        RunnerService.goto_forall (p := fun _ x => x.holds runId = none) rfl fun h' _ => hholds h'
      rcases eq_or_ne h saver with rfl | hne
      · refine .free hactive hholds' ?_ hn fun _ => rfl
        refine RunnerService.goto_forall (p := fun _ x => x.saves runId = false) rfl ?_
        intro h' hother
        rw [hsaves, decide_eq_false hother]
      · refine .released (h := saver) hstore hactive hholds' ?_ hn
        refine RunnerService.goto_forall (p := fun h' x => x.saves runId = decide (h' = saver)) ?_
          fun h' _ => hsaves h'
        exact (decide_eq_false hne).symm

theorem phase_step {r u : RunnerService} {b : ServiceAction}
    (hphase : ∀ runId, RunnerService.Phase runId 0 r) (hstep : r.stepOrFail b = some u)
    (hfresh : Fresh r b u) : ∀ runId, RunnerService.Phase runId 0 u := by
  intro runId
  cases b with
  | act a => exact phase_zero ((hphase runId).step (.of_step hstep) (hfresh a rfl runId))
  | fail h error =>
      obtain ⟨next, hnext, rfl⟩ := Option.map_eq_some_iff.mp hstep
      exact phase_fail (hphase runId) hnext
  | restart =>
      cases hstep
      exact .new r.store

/-- The files after a step. -/
theorem Intact.wellFormed_step (hs : Intact fromSlice s) {a : FileAction}
    (hstep : Step fromSlice s a t) : WellFormed fromSlice t.dir := by
  have hunlinked := hs.wellFormed.unlinked
  cases hstep with
  | truncate hcall hh hentry =>
      rw [dir_enter, dir_changed]
      exact (Private.modify hunlinked hentry).wellFormed hs.wellFormed
  | create hcall hh => exact (Private.create hunlinked).wellFormed hs.wellFormed
  | write hcall =>
      obtain ⟨record, -, hentry, -⟩ := hs.writes hcall
      rw [dir_enter, dir_changed]
      exact (Private.modify hunlinked hentry).wellFormed hs.wellFormed
  | setPermissions hcall hh hentry =>
      rw [dir_enter, dir_changed]
      exact (Private.modify hunlinked hentry).wellFormed hs.wellFormed
  | @rename h inode record hcall hh hentry =>
      rw [dir_answer, dir_changed]
      refine ⟨hunlinked.rename (recordName_ne_temporaryName _ _), ?_⟩
      intro runId file hfile
      rcases eq_or_ne runId record.request.runId with rfl | hne
      · obtain ⟨name, i, hname, hentry, saved, hsaved, hcontent⟩ := hs.calls h _ hcall
        rw [hh] at hname hsaved
        obtain rfl := Option.some.inj hname
        cases hsaved
        rw [Directory.lookup_rename_target (recordName_ne_temporaryName _ _),
          Directory.lookup_of_entry hentry] at hfile
        cases hfile
        exact ⟨record, rfl, hcontent, hcontent ▸ hs.readable h record hh⟩
      · rw [Directory.lookup_rename_of_ne (recordName_ne_temporaryName _ _)
          (fun heq => hne (recordName_injective heq))] at hfile
        exact hs.wellFormed.whole runId file hfile
  | _ => exact hs.wellFormed

section

variable {h : HandlerId} {call : StoreCall} {next : Handler}

/-- A handler goes on in its call, and the directory stays. -/
theorem Intact.calls_enter (hs : Intact fromSlice s)
    (hown : CallHolds s.dir (s.handlers h) call) : ∀ other c,
    (s.enter h call).calls other = some c → CallHolds s.dir (s.handlers other) c := by
  refine calls_of_others (t := s.enter h call) hs (h := h) ?_ (fun _ _ _ _ _ => .refl) ?_
  · exact fun other hne => ⟨Function.update_of_ne hne .., rfl⟩
  · intro c hc
    rw [show (s.enter h call).calls h = some call from Function.update_self ..] at hc
    cases hc
    exact hown

/-- A handler that saves goes on in its call, on its temporary file. -/
theorem Intact.calls_save (hs : Intact fromSlice s) {record : RunRecord}
    {dir' : Directory String File} (hh : s.handlers h = .save record)
    (hdir : Private (temporaryName record.request.runId) s.dir dir')
    (hown : CallHolds dir' (s.handlers h) call) : ∀ other c,
    ((s.changed dir').enter h call).calls other = some c →
      CallHolds dir' (s.handlers other) c := by
  refine calls_of_others (t := (s.changed dir').enter h call) hs (h := h) ?_ ?_ ?_
  · exact fun other hne => ⟨Function.update_of_ne hne .., rfl⟩
  · intro other hne name hname _
    exact hdir.others name (hs.fileName_ne hh hne hname)
  · intro c hc
    rw [show ((s.changed dir').enter h call).calls h = some call from Function.update_self ..] at hc
    cases hc
    exact hown

/-- A handler is through with its call. -/
theorem Intact.calls_answer (hs : Intact fromSlice s) {dir' : Directory String File}
    (hkept : ∀ other, other ≠ h → ∀ name, fileName (s.handlers other) = some name →
      (s.calls other).isSome → Directory.SoleKept name s.dir dir') : ∀ other c,
    ((s.changed dir').answer h next).calls other = some c →
      CallHolds dir' (((s.changed dir').answer h next).handlers other) c := by
  refine calls_of_others (t := (s.changed dir').answer h next) hs (h := h) ?_ hkept ?_
  · exact fun other hne => ⟨Function.update_of_ne hne .., Function.update_of_ne hne ..⟩
  · intro c hc
    rw [show ((s.changed dir').answer h next).calls h = none from Function.update_self ..] at hc
    cases hc

end

/-- The calls of the store after a step. -/
theorem Intact.calls_step (hs : Intact fromSlice s) {a : FileAction}
    (hstep : Step fromSlice s a t) :
    ∀ h call, t.calls h = some call → CallHolds t.dir (t.handlers h) call := by
  have hunlinked := hs.wellFormed.unlinked
  cases hstep with
  | @act a u huses hu =>
      intro h call hcall
      have hholds := hs.calls h call hcall
      obtain ⟨name, inode, hname, hrest⟩ := id hholds
      show CallHolds s.dir (u.handlers h) call
      rw [show u.handlers h = s.handlers h from step_keeps huses hu hname]
      exact hholds
  | @openRecord h runId inode hcall hloads hentry =>
      refine hs.calls_enter ⟨_, inode, fileName_of_loads hloads, hentry, rfl, ?_, List.nil_prefix⟩
      rw [hloads]
      rfl
  | missing => exact hs.calls_answer fun _ _ _ _ _ => Directory.SoleKept.refl
  | @read h inode n got rest hcall hrest hne =>
      obtain ⟨name, i, hname, hentry, rfl, hloads, hprefix⟩ := hs.calls h _ hcall
      refine hs.calls_enter ⟨name, inode, hname, hentry, rfl, hloads, ?_⟩
      obtain ⟨suffix, hcontent⟩ := hprefix
      rw [← hcontent, List.drop_left] at hrest
      rw [← hcontent, hrest]
      exact List.prefix_append_right_inj got |>.mpr (List.take_prefix ..)
  | ended => exact hs.calls_answer fun _ _ _ _ _ => Directory.SoleKept.refl
  | @truncate h mode inode record hcall hh hentry =>
      refine hs.calls_save hh (.modify hunlinked hentry) ?_
      rw [hh]
      refine ⟨_, inode, rfl, hentry, rfl, record, rfl, ?_⟩
      rw [Directory.inode_modify_self]
      rfl
  | @create h mode record hcall hh =>
      refine hs.calls_save hh (.create hunlinked) ?_
      rw [hh]
      refine ⟨_, s.dir.next, rfl, Directory.entry_create_self, rfl, record, rfl, ?_⟩
      rw [Directory.inode_create_self]
      rfl
  | @write h n inode rest hcall =>
      obtain ⟨record, hh, hentry, hcontent⟩ := hs.writes hcall
      refine hs.calls_save hh (.modify hunlinked hentry) ?_
      rw [hh]
      refine ⟨_, inode, rfl, hentry, rfl, record, rfl, ?_⟩
      rw [Directory.inode_modify_self, ← hcontent, List.append_assoc, List.take_append_drop]
  | @written h n inode hcall =>
      obtain ⟨record, hh, hentry, hcontent⟩ := hs.writes hcall
      refine hs.calls_enter ?_
      rw [hh]
      rw [List.append_nil] at hcontent
      exact ⟨_, inode, rfl, hentry, record, rfl, hcontent⟩
  | @setPermissions h inode record hcall hh hentry =>
      obtain ⟨name, i, hname, hentry', saved, hsaved, hcontent⟩ := hs.calls h _ hcall
      rw [hh] at hname hsaved
      obtain rfl := Option.some.inj hname
      cases hsaved
      cases hentry.symm.trans hentry'
      refine hs.calls_save hh (.modify hunlinked hentry) ?_
      rw [hh]
      refine ⟨_, inode, rfl, hentry, record, rfl, ?_⟩
      rw [Directory.inode_modify_self]
      exact hcontent
  | @rename h inode record hcall hh hentry =>
      refine hs.calls_answer ?_
      intro other hne name hname hsome
      exact .rename (hs.fileName_ne hh hne hname) (hs.recordName_ne hh hname hsome)
  | fail => exact hs.calls_answer fun _ _ _ _ _ => Directory.SoleKept.refl
  | restart => nofun

theorem Intact.step (hs : Intact fromSlice s) {a : FileAction}
    (hstep : Step fromSlice s a t) (hadmits : Admits fromSlice s a t) : Intact fromSlice t where
  wellFormed := hs.wellFormed_step hstep
  calls := hs.calls_step hstep
  readable := hadmits.readable
  phase := by
    cases hseen : s.seen a with
    | none =>
        rw [hs.silent hstep hseen]
        exact hs.phase
    | some b => exact phase_step hs.phase (hs.matched hstep hseen) (hadmits.fresh_of_seen hseen)

theorem Intact.new {dir : Directory String File} (hdir : WellFormed fromSlice dir) :
    Intact fromSlice (new dir) where
  wellFormed := hdir
  calls _ _ hcall := by cases hcall
  readable _ _ hh := by cases hh
  phase _ := .new _

/-- The service on disk refines the service over a store that may fail. -/
theorem fileService_refines (fromSlice : List UInt8 → Except String RunRecord) :
    Refines ((fileService fromSlice).restrict (Admits fromSlice))
      (RunnerService.failingService.restrict Fresh) (Intact fromSlice) (toService fromSlice)
      seen where
  keeps _ _ _ hs hstep := hs.step (.of_step hs hstep.1) hstep.2
  matched _ _ _ _ hs hstep hseen :=
    ⟨hs.matched (.of_step hs hstep.1) hseen, hstep.2.fresh_of_seen hseen⟩
  silent _ _ _ hs hstep hseen := hs.silent (.of_step hs hstep.1) hseen

/-! ## Answers -/

/-- A handler has come to answer a request to execute. -/
def Answered (before after : HandlerId → Handler) (h : HandlerId) (execution : ExecutionRequest)
    (body : ResponseBody) : Prop :=
  before h ≠ after h ∧ after h = .returned (.execute execution) body

/-- What was answered once is answered from then on, also after restarts. -/
structure Durable (fromSlice : List UInt8 → Except String RunRecord) (runId : Uuid)
    (tr : List (Event FileService FileAction)) : Prop where
  /-- After a finished answer the same request gets the same record, and another
  one is refused.  The store may fail. -/
  replays : tr.Pairwise fun first later =>
    ∀ h execution record h' execution' body,
      Answered first.pre.handlers first.post.handlers h execution (.finished record) →
      execution.runId = runId →
      Answered later.pre.handlers later.post.handlers h' execution' body →
      execution'.runId = runId →
      (execution' = execution → body = .finished record
        ∨ ∃ message, body = .rejected .persistenceFailed message) ∧
      (execution' ≠ execution → ∃ code message, body = .rejected code message)
  /-- A record that is in the directory stays. -/
  persists : ∀ e ∈ tr, ∀ record, (e.pre.toService fromSlice).store runId = some record →
    (e.post.toService fromSlice).store runId = some record

section

variable {r u : RunnerService} {b : ServiceAction} {h : HandlerId} {runId : Uuid}
variable {execution : ExecutionRequest} {body : ResponseBody} {record : RunRecord}

theorem storeFailed_returned {handler next : Handler} {error : String}
    (hfail : handler.storeFailed error = some next) :
    ∃ command, next = .returned command (Handler.storeFailed.failed error) := by
  cases handler <;> cases hfail <;> exact ⟨_, rfl⟩

/-- How a request to execute can be answered over a store that may fail. -/
theorem reply_step (hstep : r.stepOrFail b = some u)
    (hanswer : Answered r.handlers u.handlers h execution body) :
    RunnerService.Reply r u h execution body ∨
      ∃ message, body = .rejected .persistenceFailed message := by
  cases b with
  | act a => exact .inl (RunnerService.Step.reply (.of_step hstep) (a := a) hanswer)
  | fail h' error =>
      obtain ⟨next, hnext, rfl⟩ := Option.map_eq_some_iff.mp hstep
      obtain ⟨command, rfl⟩ := storeFailed_returned hnext
      obtain ⟨rfl, hreturned⟩ := RunnerService.Answers.moved (a := .load 0) (s := r) hanswer rfl
      cases hreturned
      exact .inr ⟨_, rfl⟩
  | restart =>
      cases hstep
      cases hanswer.2

theorem validated_step (hvalid : RunnerService.Validated r) (hstep : r.stepOrFail b = some u) :
    RunnerService.Validated u := by
  cases b with
  | act a => exact hvalid.step (.of_step hstep)
  | fail h error =>
      obtain ⟨next, hnext, rfl⟩ := Option.map_eq_some_iff.mp hstep
      obtain ⟨command, rfl⟩ := storeFailed_returned hnext
      exact RunnerService.goto_forall
        (p := fun _ x => ∀ execution, x.request = some execution → execution.Valid)
        (fun _ heq => by cases heq) fun h' _ => hvalid h'
  | restart =>
      cases hstep
      intro h execution heq
      cases heq

theorem persists_step (hphase : RunnerService.Phase runId 0 r) (hstep : r.stepOrFail b = some u)
    (hstore : r.store runId = some record) : u.store runId = some record := by
  cases b with
  | act a => exact hphase.persists (.of_step hstep) hstore
  | fail h error =>
      obtain ⟨next, -, rfl⟩ := Option.map_eq_some_iff.mp hstep
      exact hstore
  | restart =>
      cases hstep
      exact hstore

/-- A record that is answered is stored. -/
theorem settle_step (hphase : RunnerService.Phase execution.runId 0 r)
    (hvalid : RunnerService.Validated r) (hstep : r.stepOrFail b = some u)
    (hanswer : Answered r.handlers u.handlers h execution (.finished record)) :
    execution.Valid ∧ record.request = execution ∧ u.store execution.runId = some record := by
  rcases reply_step hstep hanswer with hreply | ⟨message, hbody⟩
  · generalize hbody : ResponseBody.finished record = body at hreply
    cases hreply with
    | invalid => cases hbody
    | bound => cases hbody
    | conflict => cases hbody
    | replay hh hstore heq =>
        cases hbody
        exact ⟨hvalid h _ (by rw [hh]; rfl), heq, persists_step hphase hstep hstore⟩
    | finished hh heq hstore =>
        cases hbody
        exact ⟨hvalid h _ (by rw [hh, ← heq]; rfl), heq, hstore⟩
  · cases hbody

/-- An answer about a run whose record is stored. -/
theorem replay_step (hphase : RunnerService.Phase execution.runId 0 r)
    (hvalid : record.request.Valid) (hstore : r.store execution.runId = some record)
    (hstep : r.stepOrFail b = some u)
    (hanswer : Answered r.handlers u.handlers h execution body) :
    (execution = record.request → body = .finished record
      ∨ ∃ message, body = .rejected .persistenceFailed message) ∧
    (execution ≠ record.request → ∃ code message, body = .rejected code message) := by
  obtain ⟨hactive, hsaves⟩ := hphase.of_store hstore
  rcases reply_step hstep hanswer with hreply | ⟨message, rfl⟩
  · cases hreply with
    | invalid hinvalid =>
        exact ⟨fun heq => absurd (heq ▸ hvalid) hinvalid, fun _ => ⟨_, _, rfl⟩⟩
    | replay _ hloaded heq =>
        cases hstore.symm.trans hloaded
        exact ⟨fun _ => .inl rfl, fun hne => absurd heq.symm hne⟩
    | bound _ hloaded hne =>
        cases hstore.symm.trans hloaded
        exact ⟨fun heq => absurd heq.symm hne, fun _ => ⟨_, _, rfl⟩⟩
    | conflict _ hsome =>
        rw [hactive] at hsome
        cases hsome
    | @finished saved hh heq _ =>
        have hfalse := hsaves h
        rw [hh, ← heq, show (Handler.save saved).saves saved.request.runId = true from
          decide_eq_true rfl] at hfalse
        cases hfalse
  · exact ⟨fun _ => .inr ⟨message, rfl⟩, fun _ => ⟨_, _, rfl⟩⟩

end

/-! ## Runs -/

/-- What holds after a run. -/
structure History (fromSlice : List UInt8 → Except String RunRecord) (runId : Uuid)
    (tr : List (Event FileService FileAction)) (s : FileService) : Prop where
  intact : Intact fromSlice s
  validated : RunnerService.Validated (s.toService fromSlice)
  /-- A record that was answered is stored. -/
  settled : ∀ e ∈ tr, ∀ h execution record,
    Answered e.pre.handlers e.post.handlers h execution (.finished record) →
    execution.runId = runId →
    execution.Valid ∧ record.request = execution ∧
      (s.toService fromSlice).store runId = some record
  law : Durable fromSlice runId tr

section

variable {runId : Uuid} {tr : List (Event FileService FileAction)} {a : FileAction}

/-- A step leaves the store as it was, or is a step above the files. -/
theorem History.cases (hhist : History fromSlice runId tr s) (hstep : Step fromSlice s a t) :
    t.toService fromSlice = s.toService fromSlice ∨
      ∃ b, (s.toService fromSlice).stepOrFail b = some (t.toService fromSlice) := by
  cases hseen : s.seen a with
  | none => exact .inl (hhist.intact.silent hstep hseen)
  | some b => exact .inr ⟨b, hhist.intact.matched hstep hseen⟩

theorem History.persists (hhist : History fromSlice runId tr s) (hstep : Step fromSlice s a t)
    {record : RunRecord} (hstore : (s.toService fromSlice).store runId = some record) :
    (t.toService fromSlice).store runId = some record := by
  rcases hhist.cases hstep with hsame | ⟨b, hb⟩
  · rwa [hsame]
  · exact persists_step (hhist.intact.phase runId) hb hstore

/-- An answer is given above the files. -/
theorem History.answered (hhist : History fromSlice runId tr s) (hstep : Step fromSlice s a t)
    {h : HandlerId} {execution : ExecutionRequest} {body : ResponseBody}
    (hanswer : Answered s.handlers t.handlers h execution body) :
    ∃ b, (s.toService fromSlice).stepOrFail b = some (t.toService fromSlice) := by
  rcases hhist.cases hstep with hsame | hb
  · exact absurd (congrFun (congrArg RunnerService.handlers hsame) h).symm hanswer.1
  · exact hb

theorem History.step (hhist : History fromSlice runId tr s) (hstep : Step fromSlice s a t)
    (hadmits : Admits fromSlice s a t) : History fromSlice runId (tr ++ [⟨s, a, t⟩]) t := by
  have hphase := hhist.intact.phase runId
  refine ⟨hhist.intact.step hstep hadmits, ?_, ?_, ?_, ?_⟩
  · rcases hhist.cases hstep with hsame | ⟨b, hb⟩
    · rw [hsame]
      exact hhist.validated
    · exact validated_step hhist.validated hb
  · refine Transition.forall_mem_snoc ?_ ?_
    · intro e he h execution record hanswer hrun
      obtain ⟨hvalid, heq, hstore⟩ := hhist.settled e he h execution record hanswer hrun
      exact ⟨hvalid, heq, hhist.persists hstep hstore⟩
    · rintro h execution record hanswer rfl
      obtain ⟨b, hb⟩ := hhist.answered hstep hanswer
      exact settle_step hphase hhist.validated hb hanswer
  · refine Transition.pairwise_snoc hhist.law.replays ?_
    rintro e he h execution record h' execution' body hfirst hrun hlater rfl
    obtain ⟨hvalid, rfl, hstore⟩ := hhist.settled e he h execution record hfirst hrun
    obtain ⟨b, hb⟩ := hhist.answered hstep hlater
    exact replay_step hphase hvalid hstore hb hlater
  · refine Transition.forall_mem_snoc hhist.law.persists ?_
    intro record hstore
    exact hhist.persists hstep hstore

theorem History.new {dir : Directory String File} (hdir : WellFormed fromSlice dir) :
    History fromSlice runId [] (new dir) where
  intact := .new hdir
  validated _ _ heq := by cases heq
  settled := nofun
  law := ⟨.nil, nofun⟩

end

/-- From any directory of whole records, in every run in which the claims are
fresh: seen from above the files it is a run of the service over a store that
loads and saves in one step, the records are always whole, and what a run was
answered once it is answered from then on. -/
theorem file_store_durable (fromSlice : List UInt8 → Except String RunRecord)
    {dir : Directory String File} {tr : List (Event FileService FileAction)} {t : FileService}
    (hdir : WellFormed fromSlice dir)
    (hrun : ((fileService fromSlice).restrict (Admits fromSlice)).Run (new dir) tr t) :
    RunnerService.failingService.Run ((new dir).toService fromSlice)
        (seenEvents (toService fromSlice) seen tr) (t.toService fromSlice) ∧
      WellFormed fromSlice t.dir ∧ ∀ runId, Durable fromSlice runId tr := by
  have hrefines := fileService_refines fromSlice
  refine ⟨(hrefines.run (.new hdir) hrun).of_restrict,
    (hrefines.run_keeps (.new hdir) hrun).wellFormed, fun runId => ?_⟩
  have hhist : History fromSlice runId tr t := by
    refine hrun.history (I := History fromSlice runId) (.new hdir) ?_
    intro tr s t a _ hhist hstep
    exact hhist.step (.of_step hhist.intact hstep.1) hstep.2
  exact hhist.law

/-- The directory of a store that was just made. -/
def emptyStore : Directory String File := .empty ⟨true, 0, []⟩

/-- The record of a run of `printOk`. -/
def okRecord : RunRecord := buildRecord RunnerService.printOk 10 (.exited ⟨0, "ok", ""⟩) 11

/-- Reads that record. -/
def readOk (bytes : List UInt8) : Except String RunRecord :=
  if bytes = toVec okRecord.toJson then .ok okRecord else .error "expected value"

/-- A request is run, its record is not saved, and the service starts anew. -/
theorem file_store_durable_restart : ∃ tr t,
    ((fileService readOk).restrict (Admits readOk)).Run (new emptyStore) tr t ∧
      tr.length = 8 ∧ Durable readOk 1 tr := by
  let go (s : FileService) (next : Handler) : FileService :=
    { s with handlers := Function.update s.handlers 0 next }
  let s₀ := new emptyStore
  let s₁ := go s₀ (.load RunnerService.printOk)
  let s₂ := s₁.answer 0 (.check RunnerService.printOk)
  let s₃ := { go s₂ (.poll RunnerService.printOk) with
    active := Function.update s₂.active 1 (some ⟨RunnerService.printOk, 0⟩) }
  let s₄ := go s₃ (.run RunnerService.printOk 10)
  let s₅ := go s₄ (.remove RunnerService.printOk 10 (.exited ⟨0, "ok", ""⟩))
  let s₆ := { go s₅ (.save okRecord) with active := Function.update s₅.active 1 none }
  let s₇ := s₆.answer 0
    (.returned (.execute RunnerService.printOk) (Handler.storeFailed.failed "No space left"))
  let P (_ : HandlerId) (handler : Handler) : Prop :=
    ∀ record, handler = .save record → readOk (toVec record.toJson) = .ok record
  have hgo : ∀ (handlers : HandlerId → Handler) (next : Handler), P 0 next →
      (∀ h, P h (handlers h)) → ∀ h, P h (Function.update handlers 0 next h) :=
    fun handlers next hnext hrest =>
      (Function.forall_update_iff handlers P).mpr ⟨hnext, fun h _ => hrest h⟩
  have h₀ : ∀ h, P h (s₀.handlers h) := fun _ _ heq => by cases heq
  have h₁ : ∀ h, P h (s₁.handlers h) := hgo _ _ (fun _ heq => by cases heq) h₀
  have h₂ : ∀ h, P h (s₂.handlers h) := hgo _ _ (fun _ heq => by cases heq) h₁
  have h₃ : ∀ h, P h (s₃.handlers h) := hgo _ _ (fun _ heq => by cases heq) h₂
  have h₄ : ∀ h, P h (s₄.handlers h) := hgo _ _ (fun _ heq => by cases heq) h₃
  have h₅ : ∀ h, P h (s₅.handlers h) := hgo _ _ (fun _ heq => by cases heq) h₄
  have h₆ : ∀ h, P h (s₆.handlers h) :=
    hgo _ _ (fun _ heq => by cases heq; exact if_pos rfl) h₅
  have h₇ : ∀ h, P h (s₇.handlers h) := hgo _ _ (fun _ heq => by cases heq) h₆
  have hsaves : ∀ h, (s₂.handlers h).saves 1 = false :=
    RunnerService.goto_forall (s := s₁.inMemory fun _ => none) (p := fun _ x => x.saves 1 = false) rfl
      fun h' _ => RunnerService.goto_forall (s := s₀.inMemory fun _ => none)
        (p := fun _ x => x.saves 1 = false) rfl (fun _ _ => rfl) h'
  have hcall : s₀.step readOk (.act (.call 0 (.execute RunnerService.printOk))) = some s₁ := by
    show some (go s₀ (RunnerService.receive (.execute RunnerService.printOk))) = some s₁
    simp only [RunnerService.receive, RunnerService.printOk_valid]
    rfl
  have hcheck : ∀ action, FileAction.act (.check 0) = .act action → ∀ runId,
      RunnerService.ClaimsFresh runId (s₂.toService readOk) action (s₃.toService readOk) := by
    intro action heq runId h execution hlabel hh hrun _
    cases heq
    cases hlabel
    cases hh
    cases hrun
    exact ⟨rfl, hsaves⟩
  have hrun : ((fileService readOk).restrict (Admits readOk)).Run s₀
      [⟨s₀, .act (.call 0 (.execute RunnerService.printOk)), s₁⟩, ⟨s₁, .openRecord 0, s₂⟩,
        ⟨s₂, .act (.check 0), s₃⟩, ⟨s₃, .act (.poll 0 10), s₄⟩,
        ⟨s₄, .act (.wake 0 (some (.output ⟨0, "ok", ""⟩))), s₅⟩, ⟨s₅, .act (.remove 0 11), s₆⟩,
        ⟨s₆, .fail 0 "No space left", s₇⟩, ⟨s₇, .restart, s₀⟩] s₀ :=
    .cons ⟨hcall, h₁, fun _ heq _ _ _ hlabel => by cases heq; cases hlabel⟩
      (.cons ⟨rfl, h₂, fun _ heq => by cases heq⟩ (.cons ⟨rfl, h₃, hcheck⟩
        (.cons ⟨rfl, h₄, fun _ heq _ _ _ hlabel => by cases heq; cases hlabel⟩
          (.cons ⟨rfl, h₅, fun _ heq _ _ _ hlabel => by cases heq; cases hlabel⟩
            (.cons ⟨rfl, h₆, fun _ heq _ _ _ hlabel => by cases heq; cases hlabel⟩
              (.cons ⟨rfl, h₇, fun _ heq => by cases heq⟩
                (.single ⟨rfl, h₀, fun _ heq => by cases heq⟩)))))))
  have hempty : WellFormed readOk emptyStore :=
    ⟨fun _ _ hi => (Option.some_ne_none _ hi.symm).elim, fun _ _ hfile => by cases hfile⟩
  exact ⟨_, s₀, hrun, rfl, (file_store_durable readOk hempty hrun).2.2 1⟩

end FileService

end Cresix.Runner
