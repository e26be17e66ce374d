import Cresix.Cli.State
import Cresix.Library.Directory
import Cresix.Library.Transition

/-!
# The files of the local state

`StateLock`, `read_secure` and `write_atomic` call by call, for any number of
processes on one directory.  A process works on the two files under the lock, or
reads them without it.  Each call may fail, a file is read and written in any
pieces, and a process may be killed between any two calls: the lock goes with
it, its temporary file stays.

What a process does under the lock is a `Section`, whose loads and saves are the
calls of the source.  `Section.Reaches` is what it comes to when nobody else
works on the files.  The main results are that every run is serial
(`Consistent.step`) and that nobody reads half a file (`Untorn.step`).
-/

namespace Cresix.Cli

open Transition (System Event)

/-! ## Sections -/

inductive StateFile where
  | config
  | credentials
deriving DecidableEq, Repr

def StateFile.name : StateFile → String
  | .config => "config.toml"
  | .credentials => "credentials.json"

/-- What a process does between two calls on the files, up to its result. -/
inductive Section (α : Type) where
  | done (result : α)
  /-- `read_secure`. -/
  | load (file : StateFile) (next : Except String (Option (List UInt8)) → Section α)
  /-- `write_atomic`. -/
  | save (file : StateFile) (bytes : List UInt8) (next : Except String Unit → Section α)

/-- The bytes of the files that are there. -/
abbrev Contents := StateFile → Option (List UInt8)

/-- What a section comes to on files that nobody else works on.  A save that
reports an error may have replaced the file. -/
inductive Section.Reaches {α : Type} : Section α → Contents → Section α → Contents → Prop where
  | refl {s : Section α} {c : Contents} : Reaches s c s c
  | loaded {file : StateFile} {next : Except String (Option (List UInt8)) → Section α}
      {rest : Section α} {c c' : Contents} :
      Reaches (next (.ok (c file))) c rest c' → Reaches (.load file next) c rest c'
  | unread {file : StateFile} {next : Except String (Option (List UInt8)) → Section α}
      {rest : Section α} {c c' : Contents} (error : String) :
      Reaches (next (.error error)) c rest c' → Reaches (.load file next) c rest c'
  | saved {file : StateFile} {bytes : List UInt8} {next : Except String Unit → Section α}
      {rest : Section α} {c c' : Contents} :
      Reaches (next (.ok ())) (Function.update c file (some bytes)) rest c' →
      Reaches (.save file bytes next) c rest c'
  | unsaved {file : StateFile} {bytes : List UInt8} {next : Except String Unit → Section α}
      {rest : Section α} {c c' : Contents} (error : String) :
      Reaches (next (.error error)) c rest c' → Reaches (.save file bytes next) c rest c'
  | replaced {file : StateFile} {bytes : List UInt8} {next : Except String Unit → Section α}
      {rest : Section α} {c c' : Contents} (error : String) :
      Reaches (next (.error error)) (Function.update c file (some bytes)) rest c' →
      Reaches (.save file bytes next) c rest c'

theorem Section.Reaches.trans {α : Type} {s t u : Section α} {c c' c'' : Contents}
    (h : Reaches s c t c') (h' : Reaches t c' u c'') : Reaches s c u c'' := by
  induction h with
  | refl => exact h'
  | loaded _ ih => exact .loaded (ih h')
  | unread error _ ih => exact .unread error (ih h')
  | saved _ ih => exact .saved (ih h')
  | unsaved error _ ih => exact .unsaved error (ih h')
  | replaced error _ ih => exact .replaced error (ih h')

/-- `StateError::Io`, as it is shown. -/
def ioError (path error : String) : String := "I/O error for " ++ path ++ ": " ++ error

/-- `StateError::Unsafe`, as it is shown. -/
def unsafeState (path reason : String) : String :=
  "unsafe local state at " ++ path ++ ": " ++ reason

/-- What a load or a save may fail with. -/
inductive IsCallError : String → Prop where
  | io (path error : String) : IsCallError (ioError path error)
  | unsafeState (path reason : String) : IsCallError (unsafeState path reason)

/-- A section saves nothing but what `P` holds of, as long as it loads nothing
else, and `Q` holds of its result. -/
def Section.Sound {α : Type} (P : StateFile → List UInt8 → Prop) (Q : α → Prop) :
    Section α → Prop
  | .done result => Q result
  | .load file next =>
      (next (.ok none)).Sound P Q ∧ (∀ bytes, P file bytes → (next (.ok (some bytes))).Sound P Q) ∧
        ∀ error, IsCallError error → (next (.error error)).Sound P Q
  | .save file bytes next =>
      P file bytes ∧ (next (.ok ())).Sound P Q ∧
        ∀ error, IsCallError error → (next (.error error)).Sound P Q

/-- A section that saves nothing. -/
def Section.ReadOnly {α : Type} : Section α → Prop
  | .done _ => True
  | .load _ next => ∀ loaded, (next loaded).ReadOnly
  | .save _ _ _ => False

/-! ## Processes -/

/-- A file of the directory, with what `validate_metadata` looks at. -/
structure OwnedFile where
  /-- It is a regular file and not a link. -/
  regular : Bool
  /-- It belongs to the user. -/
  owned : Bool
  mode : Nat
  content : List UInt8
deriving DecidableEq, Repr

/-- `validate_metadata`, on a path that is shown so. -/
def OwnedFile.validate (path : String) (file : OwnedFile) : Except String Unit :=
  if !file.regular then .error (unsafeState path "must be a regular file, not a symlink")
  else if !file.owned || file.mode % 0o100 ≠ 0 then
    .error (unsafeState path "must be owned by the current user with mode 0600 or stricter")
  else .ok ()

theorem OwnedFile.validate_error {path error : String} {file : OwnedFile}
    (h : file.validate path = .error error) : IsCallError error := by
  simp only [validate] at h
  split at h
  next =>
    cases h
    exact .unsafeState ..
  next =>
    split at h
    next =>
      cases h
      exact .unsafeState ..
    next => cases h

/-- The name of the temporary file of a process. -/
def StateFile.temporary (file : StateFile) (pid : Nat) : String :=
  "." ++ file.name ++ "." ++ pid.repr ++ ".tmp"

/-- Where a process stands. -/
inductive Phase (α : Type) where
  /-- In the loop of `StateLock::acquire`. -/
  | waiting
  | ready (rest : Section α)
  /-- `read_secure` before it opens the file. -/
  | checked (file : StateFile) (next : Except String (Option (List UInt8)) → Section α)
  | reading (file : StateFile) (inode : Nat) (got : List UInt8)
      (next : Except String (Option (List UInt8)) → Section α)
  /-- `write_atomic` before it creates its temporary file. -/
  | create (file : StateFile) (bytes : List UInt8) (next : Except String Unit → Section α)
  | writing (file : StateFile) (bytes : List UInt8) (inode : Nat) (left : List UInt8)
      (next : Except String Unit → Section α)
  | rename (file : StateFile) (bytes : List UInt8) (next : Except String Unit → Section α)
  /-- The file is replaced, and the directory not synchronized yet. -/
  | replaced (file : StateFile) (bytes : List UInt8) (next : Except String Unit → Section α)
  /-- An error: the temporary file is removed first. -/
  | remove (file : StateFile) (error : String) (call : IsCallError error)
      (next : Except String Unit → Section α)
  | ended (result : α)

/-- What is asked of a process. -/
structure StateTask (α : Type) where
  /-- It takes the lock first. -/
  locks : Bool
  work : Section α
  /-- Its result when it does not get the lock. -/
  unlocked : String → α

structure StateProcess (α κ : Type) where
  command : κ
  phase : Phase α

/-- The directory with its processes, and who holds the lock. -/
structure StateProcesses (α κ : Type) where
  /-- The path of the directory. -/
  path : String
  dir : Directory String OwnedFile
  holder : Option Nat
  process : Nat → Option (StateProcess α κ)

/-- What `StateLock::acquire` fails with. -/
structure LockError where
  message : String
  lock : IsCallError message ∨
    message = "timed out waiting for another C6 process to finish updating local state"

/-- What a call is told from outside. -/
structure CallInput where
  /-- It fails so. -/
  fails : Option String
  /-- So many bytes are read or written, and one more. -/
  amount : Nat
  /-- What the umask leaves of `0o600`. -/
  mode : Nat
  exclusive : mode % 0o100 = 0
  /-- `write_atomic` does not see the metadata of the file. -/
  blind : Bool
  /-- The temporary file cannot be removed. -/
  stays : Bool

inductive StateCall (κ : Type) where
  | start (pid : Nat) (command : κ)
  /-- `flock` succeeds. -/
  | lock (pid : Nat)
  /-- There is no lock file, or the time is up. -/
  | noLock (pid : Nat) (error : LockError)
  /-- The next call on the files. -/
  | call (pid : Nat) (input : CallInput)
  /-- The process ends and gives up the lock. -/
  | finish (pid : Nat)
  | kill (pid : Nat)

def noEntry : String := "No such file or directory (os error 2)"

def fileExists : String := "File exists (os error 17)"

section

variable {α κ : Type}

/-! ## Calls on the files -/

/-- An error on the way to the file, which is removed first. -/
def toRemove (file : StateFile) (next : Except String Unit → Section α) (path error : String) :
    Phase α :=
  .remove file (ioError path error) (.io path error) next

/-- A call of a process that fails. -/
def failed (path : String) (pid : Nat) (error : String) : Phase α → Option (Phase α)
  | .ready (.load file next) =>
      some (.ready (next (.error (ioError (path ++ "/" ++ file.name) error))))
  | .ready (.save _ _ next) => some (.ready (next (.error (ioError path error))))
  | .checked file next =>
      some (.ready (next (.error (ioError (path ++ "/" ++ file.name) error))))
  | .reading file _ _ next =>
      some (.ready (next (.error (ioError (path ++ "/" ++ file.name) error))))
  | .create file _ next => some (toRemove file next (path ++ "/" ++ file.temporary pid) error)
  | .writing file _ _ _ next => some (toRemove file next (path ++ "/" ++ file.temporary pid) error)
  | .rename file _ next => some (toRemove file next (path ++ "/" ++ file.name) error)
  | .replaced file _ next => some (toRemove file next path error)
  | _ => none

/-- The checks of `read_secure`, on the file that is there. -/
def beginLoad (path : String) (file : StateFile)
    (next : Except String (Option (List UInt8)) → Section α) : Option OwnedFile → Phase α
  | none => .ready (next (.ok none))
  | some found =>
      match found.validate (path ++ "/" ++ file.name) with
      | .error error => .ready (next (.error error))
      | .ok () => .checked file next

/-- The checks of `write_atomic`. -/
def beginSave (path : String) (file : StateFile) (bytes : List UInt8)
    (next : Except String Unit → Section α) : Option OwnedFile → Phase α
  | none => .create file bytes next
  | some found =>
      match found.validate (path ++ "/" ++ file.name) with
      | .error error => .ready (next (.error error))
      | .ok () => .create file bytes next

/-- The next call of a process on the directory at `path`, when it does not
fail; `none` when it is through with the files. -/
def advance (path : String) (pid : Nat) (input : CallInput) (dir : Directory String OwnedFile) :
    Phase α → Option (Phase α × Directory String OwnedFile)
  | .ready (.load file next) => some (beginLoad path file next (dir.lookup file.name), dir)
  | .ready (.save file bytes next) =>
      some (beginSave path file bytes next (if input.blind then none else dir.lookup file.name), dir)
  | .checked file next =>
      match dir.entry file.name with
      | some inode => some (.reading file inode [] next, dir)
      | none => some (.ready (next (.error (ioError (path ++ "/" ++ file.name) noEntry))), dir)
  | .reading file inode got next =>
      match (dir.inode inode).content.drop got.length with
      | [] => some (.ready (next (.ok (some got))), dir)
      | rest => some (.reading file inode (got ++ rest.take (input.amount + 1)) next, dir)
  | .create file bytes next =>
      let name := file.temporary pid
      match dir.entry name with
      | some _ => some (toRemove file next (path ++ "/" ++ name) fileExists, dir)
      | none =>
          some (.writing file bytes dir.next bytes next, dir.create name ⟨true, true, input.mode, []⟩)
  | .writing file bytes _ [] next => some (.rename file bytes next, dir)
  | .writing file bytes inode (byte :: left) next =>
      some (.writing file bytes inode ((byte :: left).drop (input.amount + 1)) next,
        dir.modify inode fun found =>
          { found with content := found.content ++ (byte :: left).take (input.amount + 1) })
  | .rename file bytes next =>
      let name := file.temporary pid
      match dir.entry name with
      | some _ => some (.replaced file bytes next, dir.rename name file.name)
      | none => some (toRemove file next (path ++ "/" ++ file.name) noEntry, dir)
  | .replaced _ _ next => some (.ready (next (.ok ())), dir)
  | .remove file error _ next =>
      some (.ready (next (.error error)),
        if input.stays then dir else dir.unlink (file.temporary pid))
  | _ => none

/-- The next call of a process. -/
def Phase.call (path : String) (pid : Nat) (input : CallInput) (dir : Directory String OwnedFile)
    (phase : Phase α) : Option (Phase α × Directory String OwnedFile) :=
  match input.fails with
  | some error => (failed path pid error phase).map fun next => (next, dir)
  | none => advance path pid input dir phase

namespace StateProcesses

/-- A process goes on. -/
def goto (s : StateProcesses α κ) (pid : Nat) (p : StateProcess α κ) : StateProcesses α κ :=
  { s with process := Function.update s.process pid (some p) }

/-- The holder after a process gave up the lock. -/
def without (s : StateProcesses α κ) (pid : Nat) : Option Nat :=
  if s.holder = some pid then none else s.holder

/-- What happens to a process; `none` when it does not stand there. -/
def step (task : κ → StateTask α) (s : StateProcesses α κ) :
    StateCall κ → Option (StateProcesses α κ)
  | .start pid command =>
      match s.process pid with
      | some _ => none
      | none =>
          some (s.goto pid
            ⟨command, if (task command).locks then .waiting else .ready (task command).work⟩)
  | .lock pid =>
      match s.process pid, s.holder with
      | some ⟨command, .waiting⟩, none =>
          some { s.goto pid ⟨command, .ready (task command).work⟩ with holder := some pid }
      | _, _ => none
  | .noLock pid error =>
      match s.process pid with
      | some ⟨command, .waiting⟩ =>
          some (s.goto pid ⟨command, .ended ((task command).unlocked error.message)⟩)
      | _ => none
  | .call pid input =>
      match s.process pid with
      | some ⟨command, phase⟩ =>
          (phase.call s.path pid input s.dir).map fun (next, dir) =>
            { s.goto pid ⟨command, next⟩ with dir }
      | none => none
  | .finish pid =>
      match s.process pid with
      | some ⟨command, .ready (.done result)⟩ =>
          some { s.goto pid ⟨command, .ended result⟩ with holder := s.without pid }
      | _ => none
  | .kill pid =>
      match s.process pid with
      | some _ =>
          some { s with
            process := Function.update s.process pid none
            holder := s.without pid }
      | none => none

/-- Any processes on a directory whose files have no links. -/
def system (task : κ → StateTask α) : System (StateProcesses α κ) (StateCall κ) :=
  .ofOption (fun s => s.dir.Unlinked ∧ s.holder = none ∧ ∀ pid, s.process pid = none) (step task)

end StateProcesses

/-! ## One after the other -/

/-- What is kept of a process that had the lock, or did not get it. -/
structure SerialCall (α κ : Type) where
  pid : Nat
  command : κ
  /-- Its result, unless it was killed. -/
  result : Option α

/-- What a process may do to files that nobody else works on. -/
inductive Serves (task : κ → StateTask α) (c : Contents) : SerialCall α κ → Contents → Prop where
  | finished {pid : Nat} {command : κ} {result : α} {c' : Contents} :
      (task command).locks = true → (task command).work.Reaches c (.done result) c' →
      Serves task c ⟨pid, command, some result⟩ c'
  | refused {pid : Nat} {command : κ} (error : LockError) :
      (task command).locks = true →
      Serves task c ⟨pid, command, some ((task command).unlocked error.message)⟩ c
  | killed {pid : Nat} {command : κ} {rest : Section α} {c' : Contents} :
      (task command).locks = true → (task command).work.Reaches c rest c' →
      Serves task c ⟨pid, command, none⟩ c'

/-- One process after the other. -/
def serial (task : κ → StateTask α) : System Contents (SerialCall α κ) where
  start _ := True
  step := Serves task

/-- What is kept of a step. -/
def StateProcesses.served (task : κ → StateTask α) (s : StateProcesses α κ) :
    StateCall κ → Option (SerialCall α κ)
  | .noLock pid error =>
      (s.process pid).map fun p => ⟨pid, p.command, some ((task p.command).unlocked error.message)⟩
  | .finish pid =>
      match s.process pid with
      | some ⟨command, .ready (.done result)⟩ =>
          if (task command).locks then some ⟨pid, command, some result⟩ else none
      | _ => none
  | .kill pid =>
      if s.holder = some pid then (s.process pid).map fun p => ⟨pid, p.command, none⟩ else none
  | _ => none

/-- The bytes of both files. -/
def contents (dir : Directory String OwnedFile) : Contents :=
  fun file => (dir.lookup file.name).map OwnedFile.content

/-! ## The directory -/

theorem StateFile.name_injective {file other : StateFile} (h : file.name = other.name) :
    file = other := by
  cases file <;> cases other <;> first | rfl | exact absurd h (by decide)

/-- A temporary file is neither of the two. -/
theorem StateFile.name_ne_temporary (file other : StateFile) (pid : Nat) :
    file.name ≠ other.temporary pid := by
  intro h
  have hhead := congrArg (fun name => name.toList.head?) h
  cases file <;> simp [StateFile.name, StateFile.temporary] at hhead

variable {task : κ → StateTask α} {work rest : Section α} {base c : Contents} {pid : Nat}
variable {path : String} {input : CallInput} {dir dir' : Directory String OwnedFile}
variable {phase next : Phase α} {file : StateFile} {inode : Nat}

theorem contents_create {name : String} {found : OwnedFile} (h : ∀ file : StateFile, file.name ≠ name) :
    contents (dir.create name found) = contents dir := by
  funext file
  rw [contents, contents, Directory.lookup_create_of_ne (h file)]

theorem contents_modify {name : String} {f : OwnedFile → OwnedFile} (hsole : dir.Sole name inode)
    (h : ∀ file : StateFile, file.name ≠ name) :
    contents (dir.modify inode f) = contents dir := by
  funext file
  rw [contents, contents, Directory.lookup_modify_of_ne hsole (h file)]

theorem contents_unlink {name : String} (h : ∀ file : StateFile, file.name ≠ name) :
    contents (dir.unlink name) = contents dir := by
  funext file
  rw [contents, contents, Directory.lookup_unlink_of_ne (h file)]

theorem contents_rename (hentry : dir.entry (file.temporary pid) = some inode) :
    contents (dir.rename (file.temporary pid) file.name) =
      Function.update (contents dir) file (some (dir.inode inode).content) := by
  funext other
  rcases eq_or_ne other file with rfl | hne
  · rw [Function.update_self, contents,
      Directory.lookup_rename_target (StateFile.name_ne_temporary _ _ _),
      Directory.lookup_of_entry hentry, Option.map_some]
  · rw [Function.update_of_ne hne, contents, contents,
      Directory.lookup_rename_of_ne (StateFile.name_ne_temporary _ _ _)
        fun heq => hne (StateFile.name_injective heq)]

/-! ## The process that has the lock -/

/-- What a process with the lock has come to, from the files as it found them. -/
def Holds (work : Section α) (base : Contents) (pid : Nat) (dir : Directory String OwnedFile) :
    Phase α → Prop
  | .waiting => False
  | .ready rest => work.Reaches base rest (contents dir)
  | .checked file next => work.Reaches base (.load file next) (contents dir)
  | .reading file inode got next =>
      work.Reaches base (.load file next) (contents dir) ∧
        dir.entry file.name = some inode ∧ got <+: (dir.inode inode).content
  | .create file bytes next => work.Reaches base (.save file bytes next) (contents dir)
  | .writing file bytes inode left next =>
      work.Reaches base (.save file bytes next) (contents dir) ∧
        dir.entry (file.temporary pid) = some inode ∧ (dir.inode inode).content ++ left = bytes
  | .rename file bytes next =>
      work.Reaches base (.save file bytes next) (contents dir) ∧
        ∃ inode, dir.entry (file.temporary pid) = some inode ∧ (dir.inode inode).content = bytes
  | .replaced file bytes next =>
      ∃ c, work.Reaches base (.save file bytes next) c ∧
        contents dir = Function.update c file (some bytes)
  | .remove _ error _ next => work.Reaches base (next (.error error)) (contents dir)
  | .ended _ => False

theorem Holds.failed {error : String} (h : Holds work base pid dir phase)
    (hnext : failed path pid error phase = some next) : Holds work base pid dir next := by
  cases phase with
  | ready rest =>
      cases rest with
      | done => cases hnext
      | load =>
          cases hnext
          exact Section.Reaches.trans h (.unread _ .refl)
      | save =>
          cases hnext
          exact Section.Reaches.trans h (.unsaved _ .refl)
  | checked =>
      cases hnext
      exact Section.Reaches.trans h (.unread _ .refl)
  | reading =>
      cases hnext
      exact h.1.trans (.unread _ .refl)
  | create =>
      cases hnext
      exact Section.Reaches.trans h (.unsaved _ .refl)
  | writing =>
      cases hnext
      exact h.1.trans (.unsaved _ .refl)
  | rename =>
      cases hnext
      exact h.1.trans (.unsaved _ .refl)
  | replaced =>
      cases hnext
      obtain ⟨c, hreaches, hcontents⟩ := h
      refine hreaches.trans (.replaced (ioError path error) ?_)
      rw [hcontents]
      exact .refl
  | waiting => cases hnext
  | remove => cases hnext
  | ended => cases hnext

theorem contents_of_lookup_none (h : dir.lookup file.name = none) : contents dir file = none := by
  rw [contents, h]
  rfl

theorem Holds.beginLoad {load : Except String (Option (List UInt8)) → Section α}
    (h : work.Reaches base (.load file load) (contents dir)) :
    Holds work base pid dir (beginLoad path file load (dir.lookup file.name)) := by
  cases hfound : dir.lookup file.name with
  | none =>
      have hloaded : (Section.load file load).Reaches (contents dir)
          (load (.ok (contents dir file))) (contents dir) := .loaded .refl
      rw [contents_of_lookup_none hfound] at hloaded
      exact h.trans hloaded
  | some found =>
      simp only [Cli.beginLoad]
      split
      next error _ => exact h.trans (.unread _ .refl)
      next => exact h

theorem Holds.beginSave {bytes : List UInt8} {save : Except String Unit → Section α}
    {found : Option OwnedFile} (h : work.Reaches base (.save file bytes save) (contents dir)) :
    Holds work base pid dir (beginSave path file bytes save found) := by
  cases found with
  | none => exact h
  | some found =>
      simp only [Cli.beginSave]
      split
      next error _ => exact h.trans (.unsaved _ .refl)
      next => exact h

/-- The end of a file that was read. -/
theorem Holds.ended {got : List UInt8} {load : Except String (Option (List UInt8)) → Section α}
    (h : Holds work base pid dir (.reading file inode got load))
    (hend : (dir.inode inode).content.drop got.length = []) :
    Holds work base pid dir (.ready (load (.ok (some got)))) := by
  obtain ⟨hreaches, hentry, hprefix⟩ := h
  have hgot : got = (dir.inode inode).content :=
    hprefix.eq_of_length_le (List.drop_eq_nil_iff.mp hend)
  have hloaded : (Section.load file load).Reaches (contents dir)
      (load (.ok (contents dir file))) (contents dir) := .loaded .refl
  rw [show contents dir file = some got by
    rw [contents, Directory.lookup_of_entry hentry, Option.map_some, ← hgot]] at hloaded
  exact hreaches.trans hloaded

theorem Holds.advance (hunlinked : dir.Unlinked) (h : Holds work base pid dir phase)
    (hnext : advance path pid input dir phase = some (next, dir')) :
    Holds work base pid dir' next ∧ dir'.Unlinked := by
  have hname := fun file' : StateFile => StateFile.name_ne_temporary file'
  cases phase with
  | ready rest =>
      cases rest with
      | done => cases hnext
      | load file load =>
          cases hnext
          exact ⟨.beginLoad h, hunlinked⟩
      | save file bytes save =>
          cases hnext
          exact ⟨.beginSave h, hunlinked⟩
  | checked file load =>
      simp only [Cli.advance] at hnext
      split at hnext
      next inode hentry =>
        cases hnext
        exact ⟨⟨h, hentry, List.nil_prefix⟩, hunlinked⟩
      next =>
        cases hnext
        exact ⟨Section.Reaches.trans h (.unread _ .refl), hunlinked⟩
  | reading file inode got load =>
      simp only [Cli.advance] at hnext
      split at hnext
      next hend =>
        cases hnext
        exact ⟨h.ended hend, hunlinked⟩
      next hne =>
        cases hnext
        obtain ⟨hreaches, hentry, suffix, hcontent⟩ := h
        refine ⟨⟨hreaches, hentry, ?_⟩, hunlinked⟩
        rw [← hcontent, List.drop_left]
        exact (List.prefix_append_right_inj got).mpr (List.take_prefix ..)
  | create file bytes save =>
      simp only [Cli.advance] at hnext
      split at hnext
      next =>
        cases hnext
        exact ⟨Section.Reaches.trans h (.unsaved _ .refl), hunlinked⟩
      next =>
        cases hnext
        refine ⟨⟨?_, Directory.entry_create_self, ?_⟩, hunlinked.create⟩
        · rw [contents_create fun file' => hname file' file pid]
          exact h
        · rw [Directory.inode_create_self]
          rfl
  | writing file bytes inode left save =>
      obtain ⟨hreaches, hentry, hcontent⟩ := h
      cases left with
      | nil =>
          cases hnext
          rw [List.append_nil] at hcontent
          exact ⟨⟨hreaches, inode, hentry, hcontent⟩, hunlinked⟩
      | cons byte left =>
          cases hnext
          refine ⟨⟨?_, hentry, ?_⟩, hunlinked.modify⟩
          · rw [contents_modify (hunlinked _ _ hentry) fun file' => hname file' file pid]
            exact hreaches
          · rw [Directory.inode_modify_self, ← hcontent, List.append_assoc, List.take_append_drop]
  | rename file bytes save =>
      obtain ⟨hreaches, inode, hentry, hcontent⟩ := h
      simp only [Cli.advance, hentry] at hnext
      cases hnext
      refine ⟨⟨contents dir, hreaches, ?_⟩, hunlinked.rename (hname file file pid)⟩
      rw [contents_rename hentry, hcontent]
  | replaced file bytes save =>
      cases hnext
      obtain ⟨c, hreaches, hcontents⟩ := h
      exact ⟨hreaches.trans (.saved (hcontents ▸ .refl)), hunlinked⟩
  | remove file error call save =>
      cases hnext
      split
      next => exact ⟨h, hunlinked⟩
      next =>
        refine ⟨?_, hunlinked.unlink⟩
        show work.Reaches _ _ (contents _)
        rw [contents_unlink fun file' => hname file' file pid]
        exact h
  | waiting => cases hnext
  | ended => cases hnext

theorem Holds.call (hunlinked : dir.Unlinked) (h : Holds work base pid dir phase)
    (hnext : phase.call path pid input dir = some (next, dir')) :
    Holds work base pid dir' next ∧ dir'.Unlinked := by
  simp only [Phase.call] at hnext
  split at hnext
  next error _ =>
    obtain ⟨phase', hfailed, heq⟩ := Option.map_eq_some_iff.mp hnext
    cases heq
    exact ⟨h.failed hfailed, hunlinked⟩
  next => exact h.advance hunlinked hnext

/-! ## The others -/

/-- A process that only reads. -/
def Phase.ReadOnly : Phase α → Prop
  | .ready rest => rest.ReadOnly
  | .checked _ next => ∀ loaded, (next loaded).ReadOnly
  | .reading _ _ _ next => ∀ loaded, (next loaded).ReadOnly
  | _ => False

theorem Phase.ReadOnly.call (h : phase.ReadOnly)
    (hnext : phase.call path pid input dir = some (next, dir')) : next.ReadOnly ∧ dir' = dir := by
  simp only [Phase.call] at hnext
  split at hnext
  next error _ =>
    obtain ⟨phase', hfailed, heq⟩ := Option.map_eq_some_iff.mp hnext
    cases heq
    refine ⟨?_, rfl⟩
    cases phase with
    | ready rest =>
        cases rest with
        | load =>
            cases hfailed
            exact h _
        | _ => cases hfailed <;> exact h.elim
    | checked =>
        cases hfailed
        exact h _
    | reading =>
        cases hfailed
        exact h _
    | _ => exact h.elim
  next =>
    cases phase with
    | ready rest =>
        cases rest with
        | done => cases hnext
        | save => exact h.elim
        | load file load =>
            cases hnext
            refine ⟨?_, rfl⟩
            cases dir.lookup file.name with
            | none => exact h _
            | some found =>
                simp only [beginLoad]
                split
                next => exact h _
                next => exact h
    | checked =>
        simp only [advance] at hnext
        split at hnext
        next =>
          cases hnext
          exact ⟨h, rfl⟩
        next =>
          cases hnext
          exact ⟨h _, rfl⟩
    | reading =>
        simp only [advance] at hnext
        split at hnext
        next =>
          cases hnext
          exact ⟨h _, rfl⟩
        next =>
          cases hnext
          exact ⟨h, rfl⟩
    | _ => exact h.elim

/-- A process without the lock. -/
def Phase.Apart (locks : Bool) : Phase α → Prop
  | .waiting => locks = true
  | .ended _ => True
  | phase => locks = false ∧ phase.ReadOnly

theorem Phase.ReadOnly.apart (h : phase.ReadOnly) : phase.Apart false := by
  cases phase with
  | ready => exact ⟨rfl, h⟩
  | checked => exact ⟨rfl, h⟩
  | reading => exact ⟨rfl, h⟩
  | _ => exact h.elim

/-- A process that goes on without the lock only reads. -/
theorem Phase.Apart.of_call {locks : Bool} (h : phase.Apart locks)
    (hnext : phase.call path pid input dir = some (next, dir')) :
    locks = false ∧ phase.ReadOnly := by
  cases phase with
  | waiting =>
      simp only [Phase.call] at hnext
      split at hnext
      next => cases hnext
      next => cases hnext
  | ended =>
      simp only [Phase.call] at hnext
      split at hnext
      next => cases hnext
      next => cases hnext
  | _ => exact h

/-! ## Serial runs -/

variable {s t : StateProcesses α κ}

/-- The files are as the last process with the lock has left them, or as the
one that has it now is changing them. -/
structure Consistent (task : κ → StateTask α) (s : StateProcesses α κ) (base : Contents) :
    Prop where
  unlinked : s.dir.Unlinked
  idle : s.holder = none → contents s.dir = base
  held : ∀ pid, s.holder = some pid → ∃ p, s.process pid = some p ∧
    (task p.command).locks = true ∧ Holds (task p.command).work base pid s.dir p.phase
  others : ∀ pid p, s.process pid = some p → s.holder ≠ some pid →
    p.phase.Apart (task p.command).locks

/-- What is kept of a step is a step of the serial run, from the files as they
were found. -/
inductive Follows (task : κ → StateTask α) (s : StateProcesses α κ) (a : StateCall κ)
    (base base' : Contents) : Prop where
  | silent : s.served task a = none → base' = base → Follows task s a base base'
  | served (call : SerialCall α κ) :
      s.served task a = some call → Serves task base call base' → Follows task s a base base'

/-- Another process goes on. -/
theorem Consistent.others_goto (hs : Consistent task s base) {p : StateProcess α κ}
    (hp : s.holder ≠ some pid → p.phase.Apart (task p.command).locks) :
    ∀ other q, (s.goto pid p).process other = some q → s.holder ≠ some other →
      q.phase.Apart (task q.command).locks := by
  intro other q hq hholder
  rcases eq_or_ne other pid with rfl | hne
  · rw [show (s.goto other p).process other = some p from Function.update_self ..] at hq
    cases hq
    exact hp hholder
  · rw [show (s.goto pid p).process other = s.process other from
      Function.update_of_ne hne ..] at hq
    exact hs.others other q hq hholder

/-- A process without the lock goes on, and the files stay. -/
theorem Consistent.goto (hs : Consistent task s base) {p : StateProcess α κ}
    (hholder : s.holder ≠ some pid) (hp : p.phase.Apart (task p.command).locks) :
    Consistent task (s.goto pid p) base where
  unlinked := hs.unlinked
  idle := hs.idle
  held other hother := by
    obtain ⟨q, hq, hrest⟩ := hs.held other hother
    refine ⟨q, ?_, hrest⟩
    rw [← hq]
    refine Function.update_of_ne ?_ ..
    rintro rfl
    exact hholder hother
  others := hs.others_goto fun _ => hp

/-- Nobody has the lock who is at its start or through. -/
theorem Consistent.holder_ne (hs : Consistent task s base) {p : StateProcess α κ}
    (hp : s.process pid = some p)
    (hphase : ∀ work, ¬Holds work base pid s.dir p.phase) : s.holder ≠ some pid := by
  intro hholder
  obtain ⟨q, hq, -, hholds⟩ := hs.held pid hholder
  cases hp.symm.trans hq
  exact hphase _ hholds

/-- The lock is given up. -/
theorem Consistent.release (hs : Consistent task s base) (hholder : s.holder = some pid)
    {process : Nat → Option (StateProcess α κ)}
    (hprocess : ∀ other, other ≠ pid → process other = s.process other)
    (hown : ∀ p, process pid = some p → p.phase.Apart (task p.command).locks) :
    Consistent task { s with process, holder := none } (contents s.dir) where
  unlinked := hs.unlinked
  idle _ := rfl
  held _ h := by cases h
  others other p hp _ := by
    rcases eq_or_ne other pid with rfl | hne
    · exact hown p hp
    · refine hs.others other p ((hprocess other hne).symm.trans hp) ?_
      intro hother
      exact hne (Option.some.inj (hother.symm.trans hholder))

/-- Without the lock nothing is given up. -/
theorem StateProcesses.without_of_ne (h : s.holder ≠ some pid) : s.without pid = s.holder :=
  if_neg h

/-- What a process with the lock may have come to when it is killed. -/
theorem Holds.reaches (h : Holds work base pid dir phase) :
    ∃ rest, work.Reaches base rest (contents dir) := by
  cases phase with
  | ready => exact ⟨_, h⟩
  | checked => exact ⟨_, h⟩
  | reading => exact ⟨_, h.1⟩
  | create => exact ⟨_, h⟩
  | writing => exact ⟨_, h.1⟩
  | rename => exact ⟨_, h.1⟩
  | replaced file bytes save =>
      obtain ⟨c, hreaches, hcontents⟩ := h
      refine ⟨save (.ok ()), hreaches.trans (.saved ?_)⟩
      rw [hcontents]
      exact .refl
  | remove => exact ⟨_, h⟩
  | waiting => exact h.elim
  | ended => exact h.elim

/-- The step lemma. -/
theorem Consistent.step (hreaders : ∀ command, (task command).locks = false →
    (task command).work.ReadOnly) (hs : Consistent task s base) {a : StateCall κ}
    (hstep : s.step task a = some t) :
    ∃ base', Consistent task t base' ∧ Follows task s a base base' := by
  cases a with
  | start pid command =>
      simp only [StateProcesses.step] at hstep
      split at hstep
      next => cases hstep
      next hnone =>
        cases hstep
        refine ⟨base, hs.goto ?_ ?_, .silent rfl rfl⟩
        · intro hholder
          obtain ⟨q, hq, -⟩ := hs.held pid hholder
          rw [hnone] at hq
          cases hq
        · show Phase.Apart (task command).locks (if (task command).locks then _ else _)
          cases hlocks : (task command).locks with
          | true => exact rfl
          | false => exact ⟨rfl, hreaders command hlocks⟩
  | lock pid =>
      simp only [StateProcesses.step] at hstep
      split at hstep
      next command hprocess hholder =>
        cases hstep
        have hlocks : (task command).locks = true :=
          hs.others pid _ hprocess (by rw [hholder]; nofun)
        have hidle := hs.idle hholder
        refine ⟨base, ⟨hs.unlinked, nofun, ?_, ?_⟩, .silent rfl rfl⟩
        · intro other hother
          cases hother
          refine ⟨_, Function.update_self .., hlocks, ?_⟩
          show Section.Reaches _ _ _ (contents s.dir)
          rw [hidle]
          exact .refl
        · intro other q hq hother
          have hne : other ≠ pid := by
            rintro rfl
            exact hother rfl
          exact hs.others other q ((Function.update_of_ne hne ..).symm.trans hq)
            (by rw [hholder]; nofun)
      next => cases hstep
  | noLock pid error =>
      simp only [StateProcesses.step] at hstep
      split at hstep
      next command hprocess =>
        cases hstep
        have hholder := hs.holder_ne hprocess fun _ => id
        refine ⟨base, hs.goto hholder trivial,
          .served ⟨pid, command, some ((task command).unlocked error.message)⟩ ?_
            (.refused error (hs.others pid _ hprocess hholder))⟩
        simp only [StateProcesses.served, hprocess, Option.map_some]
      next => cases hstep
  | call pid input =>
      simp only [StateProcesses.step] at hstep
      split at hstep
      next command phase hprocess =>
        obtain ⟨⟨next, dir⟩, hcall, rfl⟩ := Option.map_eq_some_iff.mp hstep
        by_cases hholder : s.holder = some pid
        · obtain ⟨p, hp, hlocks, hholds⟩ := hs.held pid hholder
          cases hprocess.symm.trans hp
          obtain ⟨hnext, hunlinked⟩ := hholds.call hs.unlinked hcall
          refine ⟨base, ⟨hunlinked, ?_, ?_, ?_⟩, .silent rfl rfl⟩
          · intro hnone
            rw [show s.holder = none from hnone] at hholder
            cases hholder
          · intro other hother
            cases hholder.symm.trans hother
            exact ⟨_, Function.update_self .., hlocks, hnext⟩
          · exact hs.others_goto fun hne => absurd hholder hne
        · obtain ⟨hlocks, hreads⟩ := (hs.others pid _ hprocess hholder).of_call hcall
          obtain ⟨hnext, rfl⟩ := hreads.call hcall
          refine ⟨base, hs.goto hholder ?_, .silent rfl rfl⟩
          rw [show (task command).locks = false from hlocks]
          exact hnext.apart
      next => cases hstep
  | finish pid =>
      simp only [StateProcesses.step] at hstep
      split at hstep
      next command result hprocess =>
        cases hstep
        by_cases hholder : s.holder = some pid
        · obtain ⟨p, hp, hlocks, hholds⟩ := hs.held pid hholder
          cases hprocess.symm.trans hp
          rw [StateProcesses.without, if_pos hholder]
          refine ⟨contents s.dir, hs.release hholder (fun _ hne => Function.update_of_ne hne ..) ?_,
            .served ⟨pid, command, some result⟩ ?_ (.finished hlocks hholds)⟩
          · intro q hq
            rw [show (s.goto pid ⟨command, .ended result⟩).process pid = some ⟨command, .ended result⟩
              from Function.update_self ..] at hq
            cases hq
            trivial
          · simp only [StateProcesses.served, hprocess]
            exact if_pos hlocks
        · obtain ⟨hlocks, -⟩ := hs.others pid _ hprocess hholder
          rw [StateProcesses.without_of_ne hholder]
          refine ⟨base, hs.goto hholder trivial, .silent ?_ rfl⟩
          simp only [StateProcesses.served, hprocess]
          exact if_neg (by rw [show (task command).locks = false from hlocks]; nofun)
      next => cases hstep
  | kill pid =>
      simp only [StateProcesses.step] at hstep
      split at hstep
      next p hprocess =>
        cases hstep
        by_cases hholder : s.holder = some pid
        · obtain ⟨q, hq, hlocks, hholds⟩ := hs.held pid hholder
          cases hprocess.symm.trans hq
          obtain ⟨rest, hreaches⟩ := hholds.reaches
          rw [StateProcesses.without, if_pos hholder]
          refine ⟨contents s.dir, hs.release hholder (fun _ hne => Function.update_of_ne hne ..) ?_,
            .served ⟨pid, p.command, none⟩ ?_ (.killed hlocks hreaches)⟩
          · intro q hq
            rw [Function.update_self] at hq
            cases hq
          · simp only [StateProcesses.served, if_pos hholder, hprocess, Option.map_some]
        · rw [StateProcesses.without_of_ne hholder]
          refine ⟨base, ⟨hs.unlinked, hs.idle, ?_, ?_⟩, .silent (if_neg hholder) rfl⟩
          · intro other hother
            obtain ⟨q, hq, hrest⟩ := hs.held other hother
            refine ⟨q, ?_, hrest⟩
            rw [← hq]
            refine Function.update_of_ne ?_ ..
            rintro rfl
            exact hholder hother
          · intro other q hq hother
            rcases eq_or_ne other pid with rfl | hne
            · have hnone : Function.update s.process other none other = none :=
                Function.update_self ..
              cases hnone.symm.trans hq
            · exact hs.others other q ((Function.update_of_ne hne ..).symm.trans hq) hother
      next => cases hstep

/-- Every run is a serial one, in the order in which the processes give up the
lock. -/
theorem Consistent.run (hreaders : ∀ command, (task command).locks = false →
    (task command).work.ReadOnly) {tr : List (Event (StateProcesses α κ) (StateCall κ))}
    (hstart : (StateProcesses.system task).start s)
    (hrun : (StateProcesses.system task).Run s tr t) :
    ∃ tr' base, (serial task).Run (contents s.dir) tr' base ∧
      tr'.map (·.label) = tr.filterMap (fun e => e.pre.served task e.label) ∧
      Consistent task t base := by
  induction hrun with
  | refl =>
      obtain ⟨hunlinked, hholder, hnone⟩ := hstart
      refine ⟨[], _, .refl, rfl, hunlinked, fun _ => rfl, ?_, ?_⟩
      · intro pid hpid
        rw [hholder] at hpid
        cases hpid
      · intro pid p hp
        rw [hnone] at hp
        cases hp
  | @snoc tr u v a hrun hst ih =>
      obtain ⟨tr', base, hserial, hlabels, hs⟩ := ih
      obtain ⟨base', ht, hfollows⟩ := hs.step hreaders hst
      rw [List.filterMap_append, ← hlabels]
      cases hfollows with
      | silent hserved hbase =>
          subst hbase
          refine ⟨tr', base', hserial, ?_, ht⟩
          simp only [List.filterMap_cons, List.filterMap_nil, hserved, List.append_nil]
      | served call hserved hserves =>
          refine ⟨tr' ++ [⟨base, call, base'⟩], base', .snoc hserial hserves, ?_, ht⟩
          simp only [List.filterMap_cons, List.filterMap_nil, hserved, List.map_append, List.map_cons,
            List.map_nil]

/-! ## Whole files -/

/-- What a call of the process with the lock changes. -/
inductive Change (pid : Nat) (dir : Directory String OwnedFile) :
    Phase α → Directory String OwnedFile → Prop where
  | same {phase : Phase α} : Change pid dir phase dir
  | created {phase : Phase α} {file : StateFile} {found : OwnedFile} :
      Change pid dir phase (dir.create (file.temporary pid) found)
  | written {phase : Phase α} {file : StateFile} {inode : Nat} {f : OwnedFile → OwnedFile} :
      dir.entry (file.temporary pid) = some inode → Change pid dir phase (dir.modify inode f)
  | renamed {file : StateFile} {bytes : List UInt8} {inode : Nat}
      {next : Except String Unit → Section α} :
      dir.entry (file.temporary pid) = some inode → (dir.inode inode).content = bytes →
      Change pid dir (.rename file bytes next) (dir.rename (file.temporary pid) file.name)
  | removed {phase : Phase α} {file : StateFile} :
      Change pid dir phase (dir.unlink (file.temporary pid))

theorem Holds.change (h : Holds work base pid dir phase)
    (hnext : phase.call path pid input dir = some (next, dir')) : Change pid dir phase dir' := by
  simp only [Phase.call] at hnext
  split at hnext
  next =>
    obtain ⟨phase', -, heq⟩ := Option.map_eq_some_iff.mp hnext
    cases heq
    exact .same
  next =>
    cases phase with
    | ready rest =>
        cases rest with
        | done => cases hnext
        | load => cases hnext; exact .same
        | save => cases hnext; exact .same
    | checked =>
        simp only [Cli.advance] at hnext
        split at hnext
        next => cases hnext; exact .same
        next => cases hnext; exact .same
    | reading =>
        simp only [Cli.advance] at hnext
        split at hnext
        next => cases hnext; exact .same
        next => cases hnext; exact .same
    | create =>
        simp only [Cli.advance] at hnext
        split at hnext
        next => cases hnext; exact .same
        next => cases hnext; exact .created
    | writing file bytes inode left save =>
        cases left with
        | nil => cases hnext; exact .same
        | cons => cases hnext; exact .written h.2.1
    | rename file bytes save =>
        obtain ⟨-, inode, hentry, hcontent⟩ := h
        simp only [Cli.advance, hentry] at hnext
        cases hnext
        exact .renamed hentry hcontent
    | replaced => cases hnext; exact .same
    | remove file error call save =>
        cases hnext
        split
        next => exact .same
        next => exact .removed
    | waiting => cases hnext
    | ended => cases hnext

/-- A file that is open for reading is whole, and nobody changes it. -/
structure Frozen (P : List UInt8 → Prop) (dir : Directory String OwnedFile) (file : StateFile)
    (inode : Nat) (got : List UInt8) : Prop where
  allocated : inode < dir.next
  /-- It has the name it was opened under, or none. -/
  named : ∀ name, dir.entry name = some inode → name = file.name
  whole : P (dir.inode inode).content
  begun : got <+: (dir.inode inode).content

theorem Frozen.change {P : List UInt8 → Prop} {got : List UInt8}
    (h : Frozen P dir file inode got) (hchange : Change pid dir phase dir') :
    Frozen P dir' file inode got := by
  cases hchange with
  | same => exact h
  | @created _ other found =>
      refine ⟨Nat.lt_succ_of_lt h.allocated, ?_, ?_, ?_⟩
      · intro name hname
        by_cases hself : name = other.temporary pid
        · subst hself
          rw [Directory.entry_create_self] at hname
          cases hname
          exact absurd h.allocated (Nat.lt_irrefl _)
        · rw [Directory.entry_create_of_ne hself] at hname
          exact h.named name hname
      · rw [Directory.inode_create_of_lt h.allocated]
        exact h.whole
      · rw [Directory.inode_create_of_lt h.allocated]
        exact h.begun
  | @written _ other i f hentry =>
      have hne : inode ≠ i := by
        rintro rfl
        exact StateFile.name_ne_temporary file other pid (h.named _ hentry).symm
      refine ⟨h.allocated, h.named, ?_, ?_⟩
      · rw [Directory.inode_modify_of_ne hne]
        exact h.whole
      · rw [Directory.inode_modify_of_ne hne]
        exact h.begun
  | @renamed other bytes i save hentry hcontent =>
      refine ⟨?_, ?_, ?_, ?_⟩
      · rw [Directory.next_rename]
        exact h.allocated
      · intro name hname
        rcases Directory.entry_rename_of_some hname with hname | ⟨-, htemporary⟩
        · exact h.named name hname
        · exact absurd (h.named _ htemporary).symm (StateFile.name_ne_temporary file other pid)
      · rw [Directory.inode_rename]
        exact h.whole
      · rw [Directory.inode_rename]
        exact h.begun
  | removed =>
      refine ⟨h.allocated, fun name hname => h.named name (Directory.entry_unlink_of_some hname),
        ?_, ?_⟩
      · rw [Directory.inode_unlink]
        exact h.whole
      · rw [Directory.inode_unlink]
        exact h.begun

section

variable {P : StateFile → List UInt8 → Prop} {Q : α → Prop}

/-- What a process goes on with is sound. -/
def Phase.Sound (P : StateFile → List UInt8 → Prop) (Q : α → Prop) : Phase α → Prop
  | .waiting => True
  | .ready rest => rest.Sound P Q
  | .checked file next => (Section.load file next).Sound P Q
  | .reading file _ _ next => (Section.load file next).Sound P Q
  | .create file bytes next => (Section.save file bytes next).Sound P Q
  | .writing file bytes _ _ next => (Section.save file bytes next).Sound P Q
  | .rename file bytes next => (Section.save file bytes next).Sound P Q
  | .replaced file bytes next => (Section.save file bytes next).Sound P Q
  | .remove _ error _ next => (next (.error error)).Sound P Q
  | .ended result => Q result

/-- The files that a process has open for reading. -/
def Phase.Freezes (P : StateFile → List UInt8 → Prop) (dir : Directory String OwnedFile) :
    Phase α → Prop
  | .reading file inode got _ => Frozen (P file) dir file inode got
  | _ => True

theorem Phase.Sound.failed {error : String} (h : phase.Sound P Q)
    (hnext : failed path pid error phase = some next) : next.Sound P Q := by
  cases phase with
  | ready rest =>
      cases rest with
      | done => cases hnext
      | load =>
          cases hnext
          exact h.2.2 _ (.io ..)
      | save =>
          cases hnext
          exact h.2.2 _ (.io ..)
  | checked =>
      cases hnext
      exact h.2.2 _ (.io ..)
  | reading =>
      cases hnext
      exact h.2.2 _ (.io ..)
  | create =>
      cases hnext
      exact h.2.2 _ (.io ..)
  | writing =>
      cases hnext
      exact h.2.2 _ (.io ..)
  | rename =>
      cases hnext
      exact h.2.2 _ (.io ..)
  | replaced =>
      cases hnext
      exact h.2.2 _ (.io ..)
  | waiting => cases hnext
  | remove => cases hnext
  | ended => cases hnext

theorem Phase.Sound.call (h : phase.Sound P Q) (hfreezes : phase.Freezes P dir)
    (hnext : phase.call path pid input dir = some (next, dir')) : next.Sound P Q := by
  simp only [Phase.call] at hnext
  split at hnext
  next =>
    obtain ⟨phase', hfailed, heq⟩ := Option.map_eq_some_iff.mp hnext
    cases heq
    exact h.failed hfailed
  next =>
    cases phase with
    | ready rest =>
        cases rest with
        | done => cases hnext
        | load file load =>
            cases hnext
            cases dir.lookup file.name with
            | none => exact h.1
            | some found =>
                simp only [beginLoad]
                split
                next hinvalid => exact h.2.2 _ (OwnedFile.validate_error hinvalid)
                next => exact h
        | save file bytes save =>
            cases hnext
            generalize (if input.blind then none else dir.lookup file.name) = found
            cases found with
            | none => exact h
            | some found =>
                simp only [beginSave]
                split
                next hinvalid => exact h.2.2 _ (OwnedFile.validate_error hinvalid)
                next => exact h
    | checked =>
        simp only [advance] at hnext
        split at hnext
        next => cases hnext; exact h
        next => cases hnext; exact h.2.2 _ (.io ..)
    | reading file inode got load =>
        simp only [advance] at hnext
        split at hnext
        next hend =>
          cases hnext
          refine h.2.1 got ?_
          rw [hfreezes.begun.eq_of_length_le (List.drop_eq_nil_iff.mp hend)]
          exact hfreezes.whole
        next => cases hnext; exact h
    | create =>
        simp only [advance] at hnext
        split at hnext
        next => cases hnext; exact h.2.2 _ (.io ..)
        next => cases hnext; exact h
    | writing file bytes inode left save =>
        cases left with
        | nil => cases hnext; exact h
        | cons => cases hnext; exact h
    | rename file bytes save =>
        simp only [advance] at hnext
        split at hnext
        next => cases hnext; exact h
        next => cases hnext; exact h.2.2 _ (.io ..)
    | replaced => cases hnext; exact h.2.1
    | remove => cases hnext; exact h
    | waiting => cases hnext
    | ended => cases hnext

/-- The files of the local state are whole. -/
def Whole (P : StateFile → List UInt8 → Prop) (dir : Directory String OwnedFile) : Prop :=
  ∀ file bytes, contents dir file = some bytes → P file bytes

theorem Whole.change (h : Whole P dir) (hunlinked : dir.Unlinked) (hsound : phase.Sound P Q)
    (hchange : Change pid dir phase dir') : Whole P dir' := by
  have hname := fun file' : StateFile => StateFile.name_ne_temporary file'
  cases hchange with
  | same => exact h
  | @created _ other =>
      rw [Whole, contents_create fun file' => hname file' other pid]
      exact h
  | @written _ other _ _ hentry =>
      rw [Whole, contents_modify (hunlinked _ _ hentry) fun file' => hname file' other pid]
      exact h
  | @renamed other bytes i save hentry hcontent =>
      rw [Whole, contents_rename hentry]
      intro file bytes' hbytes
      rcases eq_or_ne file other with rfl | hne
      · rw [Function.update_self] at hbytes
        cases hbytes
        rw [hcontent]
        exact hsound.1
      · rw [Function.update_of_ne hne] at hbytes
        exact h file bytes' hbytes
  | @removed _ other =>
      rw [Whole, contents_unlink fun file' => hname file' other pid]
      exact h

/-- A file that is opened under its name. -/
theorem Frozen.open (h : Whole P dir) (hunlinked : dir.Unlinked)
    (hentry : dir.entry file.name = some inode) : Frozen (P file) dir file inode [] where
  allocated := dir.allocated _ _ hentry
  named name hname := (hunlinked _ _ hentry).2 name hname
  whole := h file _ (by rw [contents, Directory.lookup_of_entry hentry]; rfl)
  begun := List.nil_prefix

theorem Phase.Freezes.call (h : phase.Freezes P dir) (hwhole : Whole P dir)
    (hunlinked : dir.Unlinked) (hnext : phase.call path pid input dir = some (next, dir')) :
    next.Freezes P dir' := by
  simp only [Phase.call] at hnext
  split at hnext
  next error _ =>
    obtain ⟨phase', hfailed, heq⟩ := Option.map_eq_some_iff.mp hnext
    cases heq
    cases phase with
    | ready rest => cases rest <;> cases hfailed <;> trivial
    | _ => cases hfailed <;> trivial
  next =>
    cases phase with
    | ready rest =>
        cases rest with
        | done => cases hnext
        | load file load =>
            cases hnext
            cases dir.lookup file.name with
            | none => trivial
            | some found =>
                simp only [beginLoad]
                split <;> trivial
        | save file bytes save =>
            cases hnext
            generalize (if input.blind then none else dir.lookup file.name) = found
            cases found with
            | none => trivial
            | some found =>
                simp only [beginSave]
                split <;> trivial
    | checked =>
        simp only [advance] at hnext
        split at hnext
        next inode hentry => cases hnext; exact .open hwhole hunlinked hentry
        next => cases hnext; trivial
    | reading file inode got load =>
        simp only [advance] at hnext
        split at hnext
        next => cases hnext; trivial
        next =>
          cases hnext
          obtain ⟨suffix, hcontent⟩ := h.begun
          refine ⟨h.allocated, h.named, h.whole, ?_⟩
          rw [← hcontent, List.drop_left]
          exact (List.prefix_append_right_inj got).mpr (List.take_prefix ..)
    | create =>
        simp only [advance] at hnext
        split at hnext
        next => cases hnext; trivial
        next => cases hnext; trivial
    | writing file bytes inode left save =>
        cases left with
        | nil => cases hnext; trivial
        | cons => cases hnext; trivial
    | rename file bytes save =>
        simp only [advance] at hnext
        split at hnext
        next => cases hnext; trivial
        next => cases hnext; trivial
    | replaced => cases hnext; trivial
    | remove => cases hnext; trivial
    | waiting => cases hnext
    | ended => cases hnext

end

/-- Nobody has half a file. -/
structure Untorn (P : StateFile → List UInt8 → Prop) (Q : α → Prop) (s : StateProcesses α κ) :
    Prop where
  whole : Whole P s.dir
  sound : ∀ pid p, s.process pid = some p → p.phase.Sound P Q
  freezes : ∀ pid p, s.process pid = some p → p.phase.Freezes P s.dir

section

variable {P : StateFile → List UInt8 → Prop} {Q : α → Prop}

/-- The tasks are sound, and their results without the lock. -/
def SoundTasks (task : κ → StateTask α) (P : StateFile → List UInt8 → Prop) (Q : α → Prop) :
    Prop :=
  ∀ command, (task command).work.Sound P Q ∧
    ∀ error : LockError, Q ((task command).unlocked error.message)

/-- What holds of every process after one of them went on or ended. -/
theorem forall_process {R : StateProcess α κ → Prop} {process : Nat → Option (StateProcess α κ)}
    {next : Option (StateProcess α κ)} (h : ∀ other p, process other = some p → R p)
    (hnext : ∀ p, next = some p → R p) :
    ∀ other p, Function.update process pid next other = some p → R p := by
  intro other p hp
  rcases eq_or_ne other pid with rfl | hne
  · rw [Function.update_self] at hp
    exact hnext p hp
  · rw [Function.update_of_ne hne] at hp
    exact h other p hp

/-- A process goes on, and the files stay. -/
theorem Untorn.goto (hs : Untorn P Q s) (pid : Nat) {p : StateProcess α κ} (hsound : p.phase.Sound P Q)
    (hfreezes : p.phase.Freezes P s.dir) : Untorn P Q (s.goto pid p) where
  whole := hs.whole
  sound := forall_process hs.sound fun q hq => by cases hq; exact hsound
  freezes := forall_process hs.freezes fun q hq => by cases hq; exact hfreezes

theorem Phase.Freezes.change (h : phase.Freezes P dir) {own : Phase α}
    (hchange : Change pid dir own dir') : phase.Freezes P dir' := by
  cases phase with
  | reading => exact Frozen.change h hchange
  | _ => trivial

/-- The step lemma. -/
theorem Untorn.step (htask : SoundTasks task P Q) (hconsistent : Consistent task s base)
    (hs : Untorn P Q s) {a : StateCall κ} (hstep : s.step task a = some t) : Untorn P Q t := by
  cases a with
  | start pid command =>
      simp only [StateProcesses.step] at hstep
      split at hstep
      next => cases hstep
      next =>
        cases hstep
        cases hlocks : (task command).locks with
        | true => exact hs.goto pid trivial trivial
        | false => exact hs.goto pid (htask command).1 trivial
  | lock pid =>
      simp only [StateProcesses.step] at hstep
      split at hstep
      next command _ _ =>
        cases hstep
        have hgoto := hs.goto pid (p := ⟨command, .ready (task command).work⟩) (htask command).1
          trivial
        exact ⟨hgoto.whole, hgoto.sound, hgoto.freezes⟩
      next => cases hstep
  | noLock pid error =>
      simp only [StateProcesses.step] at hstep
      split at hstep
      next command _ =>
        cases hstep
        exact hs.goto pid ((htask command).2 error) trivial
      next => cases hstep
  | call pid input =>
      simp only [StateProcesses.step] at hstep
      split at hstep
      next command phase hprocess =>
        obtain ⟨⟨next, dir⟩, hcall, rfl⟩ := Option.map_eq_some_iff.mp hstep
        have hunlinked := hconsistent.unlinked
        have hsound := hs.sound pid _ hprocess
        have hfreezes := hs.freezes pid _ hprocess
        have hchange : Change pid s.dir phase dir := by
          by_cases hholder : s.holder = some pid
          · obtain ⟨p, hp, -, hholds⟩ := hconsistent.held pid hholder
            cases hprocess.symm.trans hp
            exact hholds.change hcall
          · obtain ⟨-, hreads⟩ := (hconsistent.others pid _ hprocess hholder).of_call hcall
            obtain ⟨-, rfl⟩ := hreads.call hcall
            exact .same
        refine ⟨hs.whole.change hunlinked hsound hchange, ?_, ?_⟩
        · exact forall_process hs.sound fun q hq => by
            cases hq
            exact hsound.call hfreezes hcall
        · refine forall_process (R := fun q => q.phase.Freezes P dir)
            (fun other q hq => (hs.freezes other q hq).change hchange) fun q hq => ?_
          cases hq
          exact hfreezes.call hs.whole hunlinked hcall
      next => cases hstep
  | finish pid =>
      simp only [StateProcesses.step] at hstep
      split at hstep
      next command result hprocess =>
        cases hstep
        have hresult : Q result := hs.sound pid _ hprocess
        have hgoto := hs.goto pid (p := ⟨command, .ended result⟩) hresult trivial
        exact ⟨hgoto.whole, hgoto.sound, hgoto.freezes⟩
      next => cases hstep
  | kill pid =>
      simp only [StateProcesses.step] at hstep
      split at hstep
      next =>
        cases hstep
        exact ⟨hs.whole, forall_process hs.sound nofun, forall_process hs.freezes nofun⟩
      next => cases hstep

/-- Nobody ever has half a file. -/
theorem Untorn.run (hreaders : ∀ command, (task command).locks = false →
    (task command).work.ReadOnly) (htask : SoundTasks task P Q)
    {tr : List (Event (StateProcesses α κ) (StateCall κ))}
    (hstart : (StateProcesses.system task).start s) (hwhole : Whole P s.dir)
    (hrun : (StateProcesses.system task).Run s tr t) : Untorn P Q t := by
  refine hrun.history (I := fun _ u => Untorn P Q u) ⟨hwhole, ?_, ?_⟩ ?_
  · intro pid p hp
    rw [hstart.2.2 pid] at hp
    cases hp
  · intro pid p hp
    rw [hstart.2.2 pid] at hp
    cases hp
  · intro before u a v hbefore hu hst
    obtain ⟨-, base, -, -, hconsistent⟩ := Consistent.run hreaders hstart hbefore
    exact hu.step htask hconsistent hst

end

end

end Cresix.Cli
