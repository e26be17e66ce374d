import Cresix.Library.Concurrent
import Cresix.Rust.Text

/-!
# A file beside a database

A process that works on one file and one database, step by step, and may fail
or end in each step.  What a step has done by then stays: a file that was
created, the first bytes of what was written, a transaction that was
committed.  For what is on disk it makes no difference whether a step failed or
the process ended in it.
-/

namespace Rust

open Concurrent (Program)

/-- `str::from_utf8`. -/
def fromUtf8 (content : List UInt8) : Option String := String.fromUTF8? ⟨content.toArray⟩

@[simp] theorem fromUtf8_bytes (s : String) : fromUtf8 (bytes s) = some s := by
  simp only [fromUtf8, bytes, String.fromUTF8?, Array.toArray_toList]
  exact dif_pos s.isValidUTF8

theorem bytes_of_fromUtf8 {content : List UInt8} {text : String}
    (h : fromUtf8 content = some text) : bytes text = content := by
  unfold fromUtf8 String.fromUTF8? at h
  split at h
  next =>
    cases h
    rfl
  next => cases h

/-- A file. -/
structure File where
  /-- It is a regular file, and neither a directory nor a link. -/
  regular : Bool
  mode : Nat
  content : List UInt8
deriving DecidableEq, Repr

/-- The file, if there is one, and the database. -/
structure Disk (δ : Type) where
  file : Option File
  db : δ

/-- Why a process ends. -/
inductive IoError where
  /-- A step failed, or the process was stopped in it. -/
  | stopped
  | alreadyExists
  | notFound
  /-- An error of the code itself. -/
  | bail (message : String)
deriving DecidableEq, Repr

/-- Where a step is stopped, if it is: after so much of its effect. -/
abbrev Stop := Option Nat

/-- The program of a process. -/
abbrev DiskProgram (δ : Type) := Program (Disk δ) Stop IoError

namespace DiskProgram

variable {δ α : Type}

/-- A step, and what it leaves when it is stopped. -/
def step (act : Disk δ → Except IoError α × Disk δ) (cut : Nat → Disk δ → Disk δ) :
    DiskProgram δ α :=
  Program.step fun stop disk =>
    match stop with
    | none => act disk
    | some n => (.error .stopped, cut n disk)

/-- A step that changes nothing. -/
def read (f : Disk δ → Except IoError α) : DiskProgram δ α :=
  step (fun disk => (f disk, disk)) fun _ disk => disk

/-- The disk with an empty new file. -/
def created (mode : Nat) (disk : Disk δ) : Disk δ := { disk with file := some ⟨true, mode, []⟩ }

/-- `OpenOptions::create_new`. -/
def createNew (mode : Nat) : DiskProgram δ Unit :=
  step (fun disk =>
      match disk.file with
      | none => (.ok (), created mode disk)
      | some _ => (.error .alreadyExists, disk))
    fun n disk => if n = 0 ∨ disk.file.isSome then disk else created mode disk

/-- The disk with more bytes in its file. -/
def appended (bytes : List UInt8) (disk : Disk δ) : Disk δ :=
  { disk with file := disk.file.map fun file => { file with content := file.content ++ bytes } }

/-- The disk with only so many bytes in its file. -/
def truncated (n : Nat) (disk : Disk δ) : Disk δ :=
  { disk with file := disk.file.map fun file => { file with content := file.content.take n } }

/-- `write_all`, on a file that this process created and has open at its end.
What it wrote before may be lost with the rest when it is stopped. -/
def writeAll (bytes : List UInt8) : DiskProgram δ Unit :=
  step (fun disk => (.ok (), appended bytes disk)) fun n disk => truncated n (appended bytes disk)

/-- `sync_all`. -/
def syncAll : DiskProgram δ Unit := step (fun disk => (.ok (), disk)) truncated

/-- A transaction.  When it is stopped it has been committed or not. -/
def transaction (f : δ → Except IoError δ) : DiskProgram δ Unit :=
  step (fun disk =>
      match f disk.db with
      | .ok db => (.ok (), { disk with db })
      | .error error => (.error error, disk))
    fun n disk =>
      match f disk.db with
      | .ok db => if n = 0 then disk else { disk with db }
      | .error _ => disk

/-! ## One step of a run -/

section

variable {β : Type} {act : Disk δ → Except IoError α × Disk δ} {cut : Nat → Disk δ → Disk δ}
variable {k : α → DiskProgram δ β} {stops : Nat → Stop} {disk disk' : Disk δ}

theorem run_stopped {n : Nat} (h : stops 0 = some n) :
    (step act cut >>= k).run stops disk =
      (.error .stopped, cut n disk, fun n => stops (n + 1)) := by
  rw [Program.run_bind, step, Program.run_step, h]

theorem run_taken {value : α} (h : stops 0 = none) (hact : act disk = (.ok value, disk')) :
    (step act cut >>= k).run stops disk = (k value).run (fun n => stops (n + 1)) disk' := by
  rw [Program.run_bind, step, Program.run_step, h]
  simp only [hact]

theorem run_read_stopped {f : Disk δ → Except IoError α} {n : Nat} (h : stops 0 = some n) :
    (read f >>= k).run stops disk = (.error .stopped, disk, fun n => stops (n + 1)) :=
  run_stopped h

theorem run_read {f : Disk δ → α} (h : stops 0 = none) :
    ((read fun disk => .ok (f disk)) >>= k).run stops disk =
      (k (f disk)).run (fun n => stops (n + 1)) disk :=
  run_taken h rfl

theorem step_taken (h : stops 0 = none) : ((step act cut).run stops disk).2.1 = (act disk).2 := by
  rw [step, Program.run_step, h]

theorem step_stopped {n : Nat} (h : stops 0 = some n) :
    ((step act cut).run stops disk).2.1 = cut n disk := by
  rw [step, Program.run_step, h]

end

/-! ## What a step leaves -/

section

variable {S : Disk δ → Prop} {R : α → Disk δ → Prop} {disk : Disk δ}

theorem leaves_step {act : Disk δ → Except IoError α × Disk δ} {cut : Nat → Disk δ → Disk δ}
    (hact : Program.Outcome S R (act disk).1 (act disk).2) (hcut : ∀ n, S (cut n disk)) :
    (step act cut).Leaves S R disk := by
  apply Program.Ends.step
  intro stop
  cases stop with
  | none => exact hact
  | some n => exact hcut n

theorem leaves_read {f : Disk δ → Except IoError α} (hS : S disk)
    (hR : ∀ value, f disk = .ok value → R value disk) : (read f).Leaves S R disk := by
  apply leaves_step
  · cases hf : f disk with
    | ok value => exact hR value hf
    | error error => exact hS
  · intro _
    exact hS

theorem leaves_createNew {R : Unit → Disk δ → Prop} {mode : Nat} (hS : S disk)
    (hcreated : disk.file = none → S (created mode disk) ∧ R () (created mode disk)) :
    (createNew mode).Leaves S R disk := by
  apply leaves_step
  · cases hfile : disk.file with
    | none => exact (hcreated hfile).2
    | some file => exact hS
  · intro n
    split
    next => exact hS
    next h =>
      apply And.left
      apply hcreated
      cases hfile : disk.file with
      | none => rfl
      | some file => exact absurd (.inr (by rw [hfile]; rfl)) h

theorem leaves_writeAll {R : Unit → Disk δ → Prop} {bytes : List UInt8}
    (hS : ∀ n, S (truncated n (appended bytes disk))) (hR : R () (appended bytes disk)) :
    (writeAll bytes).Leaves S R disk :=
  leaves_step hR hS

theorem leaves_syncAll {R : Unit → Disk δ → Prop} (hS : ∀ n, S (truncated n disk))
    (hR : R () disk) : syncAll.Leaves S R disk :=
  leaves_step hR hS

theorem leaves_transaction {R : Unit → Disk δ → Prop} {f : δ → Except IoError δ} (hS : S disk)
    (hcommitted : ∀ db, f disk.db = .ok db → S { disk with db } ∧ R () { disk with db }) :
    (transaction f).Leaves S R disk := by
  apply leaves_step
  · cases hf : f disk.db with
    | ok db => exact (hcommitted db hf).2
    | error error => exact hS
  · intro n
    cases hf : f disk.db with
    | ok db =>
        show S (if n = 0 then disk else { disk with db })
        split
        next => exact hS
        next => exact (hcommitted db hf).1
    | error error => exact hS

end

end DiskProgram

end Rust
