import Cresix.Library.Directory
import Cresix.Library.RelyGuarantee
import Cresix.Runner.Signing
import Cresix.Rust.Fs

/-!
# The key file of the runner

`load_or_create_auth_key` call by call.  Any number of starters run on one
directory in any order, each of them may be killed between two calls, and each
call may fail.  What is written may be seen byte by byte.

A starter works on a temporary file of its own and gives it the name of the key
by a hard link, which never replaces a file.  `KeyRely` is what it takes the
others not to do, `KeyGuarantee` what it does.
-/

namespace Cresix.Runner

open Concurrent (Pool Program)
open Concurrent.Program (check caught)
open Rust (File Uuid)
open Transition (Event)

/-! ## Calls -/

/-- `io::ErrorKind`. -/
inductive IoErrorKind where
  | notFound
  | alreadyExists
  | other
deriving DecidableEq, Repr

inductive KeyFileError where
  | io (kind : IoErrorKind)
  | unsafeType
  | insecurePermissions
  | unsafeParent
  | weakKey
  | random
deriving DecidableEq, Repr

/-- What a call is told from outside. -/
structure KeyInput where
  /-- It fails. -/
  fails : Option IoErrorKind
  /-- The parent of the key is a real directory. -/
  realParent : Bool
  /-- There are random bytes. -/
  entropy : Bool

/-- The directory of the key. -/
abbrev KeyDirectory := Directory String File

abbrev KeyProgram := Program KeyDirectory KeyInput KeyFileError

/-- A call on the directory. -/
def call {α : Type} (act : KeyInput → KeyDirectory → Except KeyFileError α × KeyDirectory) :
    KeyProgram α :=
  .step fun input d =>
    match input.fails with
    | some kind => (.error (.io kind), d)
    | none => act input d

/-- `fs::symlink_metadata`. -/
def symlinkMetadata (name : String) : KeyProgram File :=
  call fun _ d =>
    match d.lookup name with
    | some file => (.ok file, d)
    | none => (.error (.io .notFound), d)

/-- `fs::read`: the file is opened, and then read. -/
def readFile (name : String) : KeyProgram (List UInt8) := do
  let inode ← call fun _ d =>
    match d.entry name with
    | some inode => (.ok inode, d)
    | none => (.error (.io .notFound), d)
  call fun _ d => (.ok (d.inode inode).content, d)

/-- `OpenOptions::create_new`. -/
def createNew (name : String) (mode : Nat) : KeyProgram Nat :=
  call fun _ d =>
    match d.entry name with
    | some _ => (.error (.io .alreadyExists), d)
    | none => (.ok d.next, d.create name ⟨true, mode, []⟩)

/-- `write_all`. -/
def writeAll (inode : Nat) : List UInt8 → KeyProgram Unit
  | [] => pure ()
  | byte :: rest => do
      call fun _ d =>
        (.ok (), d.modify inode fun file => { file with content := file.content ++ [byte] })
      writeAll inode rest

/-- `fs::hard_link`. -/
def hardLink (source name : String) : KeyProgram Unit :=
  call fun _ d =>
    match d.entry source, d.entry name with
    | none, _ => (.error (.io .notFound), d)
    | some _, some _ => (.error (.io .alreadyExists), d)
    | some _, none => (.ok (), d.link source name)

/-- `fs::remove_file`. -/
def removeFile (name : String) : KeyProgram Unit :=
  call fun _ d =>
    match d.entry name with
    | none => (.error (.io .notFound), d)
    | some _ => (.ok (), d.unlink name)

/-! ## Starting -/

/-- `load_auth_key_file`. -/
def loadAuthKeyFile (path : String) : KeyProgram (List UInt8) := do
  let metadata ← symlinkMetadata path
  check (if !metadata.regular then .error .unsafeType else .ok ())
  check (if metadata.mode % 0o1000 ≠ 0o600 then .error .insecurePermissions else .ok ())
  let key ← readFile path
  check ((validateAuthKey key).mapError fun _ => .weakKey)
  pure key

/-- What a starter draws, and the mode the umask leaves of `0o600`. -/
structure KeyDraw where
  temporary : Uuid
  bytes : List UInt8
  length : bytes.length = 32
  mode : Nat

/-- The name of the temporary file. -/
def KeyDraw.name (draw : KeyDraw) : String :=
  ".c6-runner-key-" ++ Rust.hyphenated draw.temporary ++ ".tmp"

/-- The temporary file, complete, under the name of the key.  The inner outcome
is that of the link. -/
def KeyDraw.publish (draw : KeyDraw) (path : String) :
    KeyProgram (Except KeyFileError Unit) := do
  let inode ← createNew draw.name draw.mode
  call fun input d => if input.entropy then (.ok (), d) else (.error .random, d)
  writeAll inode draw.bytes
  call fun _ d => (.ok (), d)
  caught (hardLink draw.name path)

/-- The outcome of a starter that made a temporary file, which is removed first. -/
def afterPublish (path : String) :
    Except KeyFileError (Except KeyFileError Unit) → KeyProgram (List UInt8)
  | .error error => .fail error
  | .ok (.ok ()) => loadAuthKeyFile path
  | .ok (.error (.io .alreadyExists)) => loadAuthKeyFile path
  | .ok (.error error) => .fail error

/-- `load_or_create_auth_key`, when there is no key. -/
def createAuthKey (path : String) (draw : KeyDraw) : KeyProgram (List UInt8) := do
  call fun input d => if input.realParent then (.ok (), d) else (.error .unsafeParent, d)
  let published ← caught (draw.publish path)
  let _ ← (caught (removeFile draw.name) : KeyProgram (Except KeyFileError Unit))
  afterPublish path published

/-- `load_or_create_auth_key`. -/
def loadOrCreateAuthKey (path : String) (draw : KeyDraw) : KeyProgram (List UInt8) := do
  match ← caught (loadAuthKeyFile path) with
  | .ok key => pure key
  | .error (.io .notFound) => createAuthKey path draw
  | .error error => .fail error

/-! ## What a starter relies on and guarantees -/

/-- A file that `load_auth_key_file` takes. -/
structure SafeKey (file : File) : Prop where
  regular : file.regular = true
  mode : file.mode % 0o1000 = 0o600
  strong : validateAuthKey file.content = .ok ()

/-- The error is about the file of the key. -/
def KeyFileError.Accuses : KeyFileError → Prop
  | .unsafeType => True
  | .insecurePermissions => True
  | .weakKey => True
  | _ => False

/-- The complete file of a starter. -/
def KeyDraw.file (draw : KeyDraw) : File := ⟨true, draw.mode, draw.bytes⟩

/-- The others keep the key, and leave the temporary file alone. -/
def KeyRely (path : String) (draw : KeyDraw) (d d' : KeyDirectory) : Prop :=
  Directory.Kept path d d' ∧ Directory.SoleKept draw.name d d'

/-- A starter keeps the key and the files of the others.  Where there is no key
it publishes its own, complete. -/
structure KeyGuarantee (path : String) (draw : KeyDraw) (d d' : KeyDirectory) : Prop where
  kept : Directory.Kept path d d'
  others : ∀ name, name ≠ path → name ≠ draw.name → Directory.SoleKept name d d'
  whole : ∀ file, d.lookup path = none → d'.lookup path = some file → file = draw.file

/-- `A` of a value, and `B` of an error. -/
def KeyPost {α : Type} (B : KeyFileError → KeyDirectory → Prop) (A : α → KeyDirectory → Prop) :
    Except KeyFileError α → KeyDirectory → Prop
  | .ok value, d => A value d
  | .error error, d => B error d

/-- After an error about the file of the key that file is not safe. -/
def Blames (path : String) (error : KeyFileError) (d : KeyDirectory) : Prop :=
  error.Accuses → ∃ file, d.lookup path = some file ∧ ¬SafeKey file

/-- The error is not about the file of the key. -/
def Innocent (error : KeyFileError) (_ : KeyDirectory) : Prop := ¬error.Accuses

/-- The key is that of the file, which is safe. -/
def KeyLoaded (path : String) (key : List UInt8) (d : KeyDirectory) : Prop :=
  ∃ file, d.lookup path = some file ∧ SafeKey file ∧ file.content = key

variable {path : String} {draw draw' : KeyDraw} {d d' d'' : KeyDirectory} {α β : Type}

theorem KeyRely.refl : KeyRely path draw d d := ⟨.refl, .refl⟩

theorem KeyRely.trans (h : KeyRely path draw d d') (h' : KeyRely path draw d' d'') :
    KeyRely path draw d d'' :=
  ⟨h.1.trans h'.1, h.2.trans h'.2⟩

theorem KeyGuarantee.refl : KeyGuarantee path draw d d where
  kept := .refl
  others _ _ _ := .refl
  whole _ hnone hsome := by
    rw [hnone] at hsome
    cases hsome

/-- A starter does nothing that another one does not rely on. -/
theorem KeyGuarantee.rely (h : KeyGuarantee path draw d d') (hpath : draw'.name ≠ path)
    (hne : draw'.name ≠ draw.name) : KeyRely path draw' d d' :=
  ⟨h.kept, h.others draw'.name hpath hne⟩

/-- A change that leaves the entry of the key alone publishes nothing. -/
theorem KeyGuarantee.of_entry (kept : Directory.Kept path d d')
    (others : ∀ name, name ≠ path → name ≠ draw.name → Directory.SoleKept name d d')
    (hentry : d'.entry path = d.entry path) : KeyGuarantee path draw d d' where
  kept := kept
  others := others
  whole file hnone hsome := by
    rw [Directory.lookup_eq_none_iff.mp hnone] at hentry
    rw [Directory.lookup_eq_none_iff.mpr hentry] at hsome
    cases hsome

theorem Blames.kept {error : KeyFileError} (h : Blames path error d)
    (hkept : Directory.Kept path d d') : Blames path error d' := by
  intro haccuses
  obtain ⟨file, hfile, hunsafe⟩ := h haccuses
  exact ⟨file, hkept.lookup hfile, hunsafe⟩

theorem KeyLoaded.kept {key : List UInt8} (h : KeyLoaded path key d)
    (hkept : Directory.Kept path d d') : KeyLoaded path key d' := by
  obtain ⟨file, hfile, hsafe, hkey⟩ := h
  exact ⟨file, hkept.lookup hfile, hsafe, hkey⟩

theorem KeyLoaded.unique {key key' : List UInt8} (h : KeyLoaded path key d)
    (h' : KeyLoaded path key' d) : key = key' := by
  obtain ⟨file, hfile, -, rfl⟩ := h
  obtain ⟨file', hfile', -, rfl⟩ := h'
  rw [hfile] at hfile'
  cases hfile'
  rfl

/-! ## The calls of a starter -/

section

variable {B : KeyFileError → KeyDirectory → Prop} {A : α → KeyDirectory → Prop}

/-- The rule for one call. -/
theorem meets_call {act : KeyInput → KeyDirectory → Except KeyFileError α × KeyDirectory}
    (hB : ∀ kind t, B (.io kind) t)
    (h : ∀ t input, KeyRely path draw d t → KeyGuarantee path draw t (act input t).2 ∧
      KeyPost B A (act input t).1 (act input t).2) :
    (call act).Meets (KeyRely path draw) (KeyGuarantee path draw) (KeyPost B A) d := by
  apply Program.Meets.step
  intro t input ht
  cases input.fails with
  | some kind => exact ⟨.refl, hB kind t⟩
  | none => exact h t input ht

/-- One program after the other. -/
theorem meets_bind {p : KeyProgram α} {k : α → KeyProgram β} {A' : β → KeyDirectory → Prop}
    (h : p.Meets (KeyRely path draw) (KeyGuarantee path draw) (KeyPost B A) d)
    (hk : ∀ value t, A value t →
      (k value).Meets (KeyRely path draw) (KeyGuarantee path draw) (KeyPost B A') t) :
    (p >>= k).Meets (KeyRely path draw) (KeyGuarantee path draw) (KeyPost B A') d :=
  Program.Meets.bind h hk fun _ _ herror => herror

end

theorem Blames.io (kind : IoErrorKind) (t : KeyDirectory) : Blames path (.io kind) t := nofun

theorem Innocent.io (kind : IoErrorKind) (t : KeyDirectory) : Innocent (.io kind) t := id

/-- A check of the file of the key, which is not safe where it fails. -/
theorem meets_check {file : File} {result : Except KeyFileError α} (hfile : d.lookup path = some file)
    (hfails : ∀ error, result = .error error → ¬SafeKey file) :
    (check result : KeyProgram α).Meets (KeyRely path draw) (KeyGuarantee path draw)
      (KeyPost (Blames path) fun value t => t.lookup path = some file ∧ result = .ok value) d := by
  apply Program.Meets.check
  cases result with
  | ok value => exact ⟨hfile, rfl⟩
  | error error => exact fun _ => ⟨file, hfile, hfails error rfl⟩

theorem meets_symlinkMetadata :
    (symlinkMetadata path).Meets (KeyRely path draw) (KeyGuarantee path draw)
      (KeyPost (Blames path) fun file t => t.lookup path = some file) d := by
  apply meets_call Blames.io
  intro t input ht
  cases hfile : t.lookup path with
  | none => exact ⟨.refl, nofun⟩
  | some file => exact ⟨.refl, hfile⟩

theorem meets_readFile {file : File} (hfile : d.lookup path = some file) :
    (readFile path).Meets (KeyRely path draw) (KeyGuarantee path draw)
      (KeyPost (Blames path) fun key t => t.lookup path = some file ∧ key = file.content) d := by
  refine meets_bind (A := fun inode t => t.entry path = some inode ∧ t.inode inode = file) ?_ ?_
  · apply meets_call Blames.io
    intro t input ht
    obtain ⟨inode, hentry, hinode⟩ := Directory.lookup_eq_some_iff.mp (ht.1.lookup hfile)
    simp only [hentry]
    exact ⟨.refl, hentry, hinode⟩
  · rintro inode t ⟨hentry, hinode⟩
    apply meets_call Blames.io
    intro u input hu
    obtain ⟨hentry', hinode'⟩ := hu.1 inode hentry
    rw [hinode] at hinode'
    exact ⟨.refl, Directory.lookup_eq_some_iff.mpr ⟨inode, hentry', hinode'⟩, by rw [hinode']⟩

theorem meets_loadAuthKeyFile :
    (loadAuthKeyFile path).Meets (KeyRely path draw) (KeyGuarantee path draw)
      (KeyPost (Blames path) (KeyLoaded path)) d := by
  refine meets_bind meets_symlinkMetadata fun file t hfile => ?_
  refine meets_bind (meets_check hfile ?_) ?_
  · intro error herror hsafe
    rw [hsafe.regular] at herror
    cases herror
  rintro _ t ⟨hfile, hregular⟩
  refine meets_bind (meets_check hfile ?_) ?_
  · intro error herror hsafe
    rw [if_neg (not_not.mpr hsafe.mode)] at herror
    cases herror
  rintro _ t ⟨hfile, hmode⟩
  refine meets_bind (meets_readFile hfile) ?_
  rintro key t ⟨hfile, rfl⟩
  refine meets_bind (meets_check hfile ?_) ?_
  · intro error herror hsafe
    rw [hsafe.strong] at herror
    cases herror
  rintro _ t ⟨hfile, hstrong⟩
  refine ⟨file, hfile, ⟨?_, ?_, ?_⟩, rfl⟩
  · by_contra hirregular
    rw [Bool.not_eq_true] at hirregular
    rw [hirregular] at hregular
    cases hregular
  · by_contra hloose
    rw [if_pos hloose] at hmode
    cases hmode
  · cases hvalid : validateAuthKey file.content with
    | ok _ => rfl
    | error _ =>
        rw [hvalid] at hstrong
        cases hstrong

/-! ## A new key -/

/-- The file is complete when it gets the name of the key. -/
theorem meets_hardLink {inode : Nat} (hsole : d.Sole draw.name inode)
    (hinode : d.inode inode = draw.file) :
    (hardLink draw.name path).Meets (KeyRely path draw) (KeyGuarantee path draw)
      (KeyPost Innocent fun _ _ => True) d := by
  apply meets_call Innocent.io
  intro t input ht
  obtain ⟨hsole', hinode'⟩ := ht.2 inode hsole
  simp only [hsole'.1]
  cases hentry : t.entry path with
  | some _ => exact ⟨.refl, nofun⟩
  | none =>
      refine ⟨⟨.of_entry_eq_none hentry, ?_, ?_⟩, trivial⟩
      · intro name hname hname'
        exact .link hname hname'
      · intro file _ hfile
        rw [Directory.lookup, Directory.entry_link_self, hsole'.1] at hfile
        cases hfile
        rw [← hinode, ← hinode']
        rfl

section

variable (hpath : draw.name ≠ path)

include hpath

theorem meets_createNew :
    (createNew draw.name draw.mode).Meets (KeyRely path draw) (KeyGuarantee path draw)
      (KeyPost Innocent fun inode t =>
        t.Sole draw.name inode ∧ t.inode inode = ⟨true, draw.mode, []⟩) d := by
  apply meets_call Innocent.io
  intro t input ht
  cases hentry : t.entry draw.name with
  | some _ => exact ⟨.refl, nofun⟩
  | none =>
      refine ⟨.of_entry (.create hpath.symm) ?_ (Directory.entry_create_of_ne hpath.symm), ?_⟩
      · intro name _ hname
        exact .create hname
      · exact ⟨Directory.sole_create, Directory.inode_create_self⟩

/-- The bytes are written to a file that has no other name. -/
theorem meets_writeAll {inode : Nat} (rest done : List UInt8) (hsole : d.Sole draw.name inode)
    (hinode : d.inode inode = ⟨true, draw.mode, done⟩) :
    (writeAll inode rest).Meets (KeyRely path draw) (KeyGuarantee path draw)
      (KeyPost Innocent fun _ t => t.Sole draw.name inode ∧
        t.inode inode = ⟨true, draw.mode, done ++ rest⟩) d := by
  induction rest generalizing done d with
  | nil =>
      rw [List.append_nil]
      exact ⟨hsole, hinode⟩
  | cons byte rest ih =>
      refine meets_bind (A := fun _ t => t.Sole draw.name inode ∧
        t.inode inode = ⟨true, draw.mode, done ++ [byte]⟩) ?_ ?_
      · apply meets_call Innocent.io
        intro t input ht
        obtain ⟨hsole', hinode'⟩ := ht.2 inode hsole
        have hkept : KeyGuarantee path draw t (t.modify inode fun file =>
            { file with content := file.content ++ [byte] }) := by
          refine .of_entry (.modify fun hentry => ?_) (fun name _ hname => ?_) rfl
          · exact hpath (hsole'.2 path hentry).symm
          · exact .modify hsole' hname
        refine ⟨hkept, hsole', ?_⟩
        · rw [Directory.inode_modify_self, hinode', hinode]
      · rintro _ t ⟨hsole', hinode'⟩
        have hrest := ih (done ++ [byte]) hsole' hinode'
        rwa [List.append_assoc] at hrest

theorem meets_publish :
    (draw.publish path).Meets (KeyRely path draw) (KeyGuarantee path draw)
      (KeyPost Innocent (KeyPost Innocent fun _ _ => True)) d := by
  have unchanged {inode : Nat} {content : List UInt8} {t u : KeyDirectory}
      (h : t.Sole draw.name inode ∧ t.inode inode = ⟨true, draw.mode, content⟩)
      (htu : KeyRely path draw t u) :
      u.Sole draw.name inode ∧ u.inode inode = ⟨true, draw.mode, content⟩ :=
    ⟨(htu.2 inode h.1).1, (htu.2 inode h.1).2.trans h.2⟩
  refine meets_bind (meets_createNew hpath) fun inode t hcreated => ?_
  refine meets_bind (A := fun _ t => t.Sole draw.name inode ∧
    t.inode inode = ⟨true, draw.mode, []⟩) ?_ ?_
  · apply meets_call Innocent.io
    intro u input hu
    split
    next => exact ⟨.refl, unchanged hcreated hu⟩
    next => exact ⟨.refl, id⟩
  rintro _ t ⟨hsole, hinode⟩
  refine meets_bind (meets_writeAll hpath draw.bytes [] hsole hinode) fun _ t hwritten => ?_
  refine meets_bind (A := fun _ t => t.Sole draw.name inode ∧ t.inode inode = draw.file) ?_ ?_
  · apply meets_call Innocent.io
    intro u input hu
    exact ⟨.refl, unchanged hwritten hu⟩
  rintro _ t ⟨hsole, hinode⟩
  exact Program.Meets.caught (meets_hardLink hsole hinode) fun _ _ hlinked => hlinked

theorem meets_removeFile :
    (removeFile draw.name).Meets (KeyRely path draw) (KeyGuarantee path draw)
      (KeyPost Innocent fun _ _ => True) d := by
  apply meets_call Innocent.io
  intro t input ht
  cases hentry : t.entry draw.name with
  | none => exact ⟨.refl, id⟩
  | some _ =>
      refine ⟨.of_entry (.unlink hpath.symm) ?_ (Directory.entry_unlink_of_ne hpath.symm), trivial⟩
      intro name _ hname
      exact .unlink hname

theorem meets_createAuthKey :
    (createAuthKey path draw).Meets (KeyRely path draw) (KeyGuarantee path draw)
      (KeyPost (Blames path) (KeyLoaded path)) d := by
  refine meets_bind (A := fun _ _ => True) ?_ fun _ t _ => ?_
  · apply meets_call Blames.io
    intro t input ht
    split
    next => exact ⟨.refl, trivial⟩
    next => exact ⟨.refl, nofun⟩
  refine meets_bind (Program.Meets.caught (meets_publish hpath) fun _ _ h => h) ?_
  intro published t hpublished
  refine meets_bind (A := fun _ _ => True)
    (Program.Meets.caught (meets_removeFile hpath) fun _ _ _ => trivial) fun _ u _ => ?_
  cases published with
  | error error => exact fun haccuses => absurd haccuses hpublished
  | ok linked =>
      cases linked with
      | ok _ => exact meets_loadAuthKeyFile
      | error error =>
          have hfail : KeyPost (Blames path) (KeyLoaded path) (.error error) u :=
            fun haccuses => absurd haccuses hpublished
          cases error with
          | io kind =>
              cases kind with
              | alreadyExists => exact meets_loadAuthKeyFile
              | notFound => exact hfail
              | other => exact hfail
          | unsafeType => exact hfail
          | insecurePermissions => exact hfail
          | unsafeParent => exact hfail
          | weakKey => exact hfail
          | random => exact hfail

theorem meets_loadOrCreateAuthKey :
    (loadOrCreateAuthKey path draw).Meets (KeyRely path draw) (KeyGuarantee path draw)
      (KeyPost (Blames path) (KeyLoaded path)) d := by
  refine meets_bind (Program.Meets.caught meets_loadAuthKeyFile fun _ _ h => h) ?_
  intro loaded t hloaded
  cases loaded with
  | ok key => exact hloaded
  | error error =>
      cases error with
      | io kind =>
          cases kind with
          | notFound => exact meets_createAuthKey hpath
          | alreadyExists => exact hloaded
          | other => exact hloaded
      | unsafeType => exact hloaded
      | insecurePermissions => exact hloaded
      | unsafeParent => exact hloaded
      | weakKey => exact hloaded
      | random => exact hloaded

end

/-! ## Starters at once -/

abbrev KeyPool := Pool KeyDirectory KeyInput KeyFileError (List UInt8) KeyDraw

abbrev KeyEvent := Event KeyPool (Pool.Action KeyInput KeyDraw)

/-- Starters of one key, with temporary names of their own. -/
def starters (path : String) : Transition.System KeyPool (Pool.Action KeyInput KeyDraw) :=
  (Pool.system (loadOrCreateAuthKey path)).restrict
    (Pool.Admits fun draw draw' => draw.name ≠ draw'.name)

theorem starters_compatible (hpath : ∀ draw : KeyDraw, draw.name ≠ path) :
    Pool.Compatible (loadOrCreateAuthKey path) (KeyRely path) (KeyGuarantee path)
      (fun _ => KeyPost (Blames path) (KeyLoaded path))
      (fun draw draw' => draw.name ≠ draw'.name) where
  refl _ _ := .refl
  trans _ _ _ _ h h' := h.trans h'
  stable _ result _ _ h hrely := by
    cases result with
    | ok key => exact KeyLoaded.kept h hrely.1
    | error error => exact Blames.kept h hrely.1
  symm _ _ h := h.symm
  apart _ draw' _ _ hne hG := hG.rely (hpath draw') hne.symm
  meets draw _ := meets_loadOrCreateAuthKey (hpath draw)

/-- What starters come to, from a directory on. -/
structure KeyAgreement (path : String) (start : KeyDirectory) (tr : List KeyEvent) (p : KeyPool) :
    Prop where
  /-- Any two of them have the same key. -/
  agree : ∀ thread ∈ p.threads, ∀ other ∈ p.threads, ∀ key key',
    thread.program = .done key → other.program = .done key' → key = key'
  /-- It is the key that is in the file. -/
  loaded : ∀ thread ∈ p.threads, ∀ key, thread.program = .done key →
    KeyLoaded path key p.state
  /-- Nobody replaces, changes or removes the file once it is there. -/
  kept : ∀ e ∈ tr, ∀ file, e.pre.state.lookup path = some file →
    e.post.state.lookup path = some file
  /-- A file that was not there is the complete one of a starter. -/
  whole : start.lookup path = none → ∀ file, p.state.lookup path = some file →
    ∃ draw ∈ p.requests, file = draw.file
  /-- Nobody finds fault with a file that a starter made with the right mode. -/
  sound : start.lookup path = none → (∀ draw ∈ p.requests, draw.mode = 0o600) →
    ∀ thread ∈ p.threads, ∀ error, thread.program = .fail error → ¬error.Accuses

variable {p : KeyPool} {tr : List KeyEvent}

/-- The file of a starter is safe. -/
theorem KeyDraw.safe (hmode : draw.mode = 0o600) : SafeKey draw.file := by
  refine ⟨rfl, ?_, ?_⟩
  · rw [KeyDraw.file, hmode]
    rfl
  · rw [KeyDraw.file, validateAuthKey, draw.length]
    rfl

theorem auth_key_agreement (hpath : ∀ draw : KeyDraw, draw.name ≠ path) {start : KeyPool}
    (hstart : start.threads = []) (h : (starters path).Run start tr p) :
    KeyAgreement path start.state tr p := by
  have hcompatible := starters_compatible hpath
  obtain ⟨hmeeting, -⟩ := hcompatible.run hstart h
  have hkept : ∀ e ∈ tr, Directory.Kept path e.pre.state e.post.state := by
    intro e he
    rcases hcompatible.events hstart h e he with hsame | ⟨own, -, hG⟩
    · rw [hsame]
      exact .refl
    · exact hG.kept
  have hwhole : start.state.lookup path = none → ∀ file, p.state.lookup path = some file →
      ∃ draw ∈ p.requests, file = draw.file := by
    intro hnone
    refine h.history (I := fun _ t => ∀ file, t.state.lookup path = some file →
      ∃ draw ∈ t.requests, file = draw.file) ?_ ?_
    · intro file hfile
      rw [hnone] at hfile
      cases hfile
    · intro before t a u hbefore ih hstep file hfile
      obtain ⟨hmeeting, hapart⟩ := hcompatible.run hstart hbefore
      obtain ⟨-, hsame | ⟨own, hown, hG⟩⟩ := hcompatible.step hmeeting hapart hstep.1 hstep.2
      · rw [hsame] at hfile
        obtain ⟨draw, hdraw, heq⟩ := ih file hfile
        exact ⟨draw, Pool.requests_of_step hstep.1 hdraw, heq⟩
      · cases hold : t.state.lookup path with
        | none => exact ⟨own, hown, hG.whole file hold hfile⟩
        | some old =>
            rw [hG.kept.lookup hold] at hfile
            cases hfile
            obtain ⟨draw, hdraw, heq⟩ := ih file hold
            exact ⟨draw, Pool.requests_of_step hstep.1 hdraw, heq⟩
  have hloaded : ∀ thread ∈ p.threads, ∀ key, thread.program = .done key →
      KeyLoaded path key p.state := by
    intro thread hthread key hdone
    have hmeets := hmeeting thread hthread
    rw [hdone] at hmeets
    exact hmeets
  refine ⟨?_, hloaded, fun e he file hfile => (hkept e he).lookup hfile, hwhole, ?_⟩
  · intro thread hthread other hother key key' hdone hdone'
    exact (hloaded thread hthread key hdone).unique (hloaded other hother key' hdone')
  · intro hnone hmode thread hthread error hfail haccuses
    have hmeets := hmeeting thread hthread
    rw [hfail] at hmeets
    obtain ⟨file, hfile, hunsafe⟩ := hmeets haccuses
    obtain ⟨draw, hdraw, rfl⟩ := hwhole hnone file hfile
    exact hunsafe (KeyDraw.safe (hmode draw hdraw))

/-! ### Two starters -/

def firstDraw : KeyDraw := ⟨1, List.replicate 32 7, rfl, 0o600⟩

def secondDraw : KeyDraw := ⟨2, List.replicate 32 9, rfl, 0o600⟩

def emptyDirectory : KeyDirectory := .empty ⟨true, 0, []⟩

/-- Both starters are there. -/
def bothStarted (path : String) : KeyPool :=
  (Pool.start (loadOrCreateAuthKey path) firstDraw ⟨emptyDirectory, []⟩).start
    (loadOrCreateAuthKey path) secondDraw

/-- The starters take turns, and no call fails. -/
def takingTurns : List (Pool.Action KeyInput KeyDraw) :=
  (List.replicate 42 [.run 0 ⟨none, true, true⟩, .run 1 ⟨none, true, true⟩]).flatten

/-- What the starters come to when they take turns. -/
def turnsOutcome : Option (List (Option (Except KeyFileError (List UInt8)))) :=
  (Transition.System.follow (Pool.step (loadOrCreateAuthKey "runner.key"))
    (bothStarted "runner.key") takingTurns).map fun (_, p) => p.threads.map (·.program.outcome)

/-- Two starters find no key, and both end with the key of the first one. -/
theorem auth_key_agreement_race : ∃ tr p,
    (starters "runner.key").Run ⟨emptyDirectory, []⟩ tr p ∧
      p.threads.map (·.program.outcome) =
        [some (.ok firstDraw.bytes), some (.ok firstDraw.bytes)] ∧
      KeyAgreement "runner.key" emptyDirectory tr p := by
  have hpath : ∀ draw : KeyDraw, draw.name ≠ "runner.key" := by
    intro draw heq
    have hhead := congrArg (fun name => name.toList.head?) heq
    simp [KeyDraw.name] at hhead
  have hturns : turnsOutcome =
      some [some (.ok firstDraw.bytes), some (.ok firstDraw.bytes)] := by decide +kernel
  obtain ⟨⟨tr, p⟩, hfollow, hended⟩ := Option.map_eq_some_iff.mp hturns
  have hrest : (starters "runner.key").Run (bothStarted "runner.key") tr p := by
    refine (Transition.System.Run.of_follow hfollow).restrict fun e he request hlabel => ?_
    have hmem : e.label ∈ takingTurns := by
      rw [← Transition.System.labels_of_follow hfollow]
      exact List.mem_map_of_mem he
    rw [hlabel, takingTurns] at hmem
    simp at hmem
  have hfirst : (starters "runner.key").step ⟨emptyDirectory, []⟩ (.start firstDraw)
      (Pool.start (loadOrCreateAuthKey "runner.key") firstDraw ⟨emptyDirectory, []⟩) :=
    ⟨rfl, fun _ _ _ hother => absurd hother List.not_mem_nil⟩
  have hsecond : (starters "runner.key").step
      (Pool.start (loadOrCreateAuthKey "runner.key") firstDraw ⟨emptyDirectory, []⟩)
      (.start secondDraw) (bothStarted "runner.key") := by
    refine ⟨rfl, fun request hrequest other hother => ?_⟩
    cases hrequest
    rw [List.mem_singleton.mp hother]
    decide +kernel
  have hrun := Transition.System.Run.cons hfirst (.cons hsecond hrest)
  exact ⟨_, p, hrun, hended, auth_key_agreement hpath rfl hrun⟩

end Cresix.Runner
