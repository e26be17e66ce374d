import Cresix.Git.Changes
import Cresix.Git.Creation
import Cresix.Git.TreeListing
import Mathlib.Data.Finset.Sort
import Mathlib.Data.String.Basic

/-!
# Commits with their files

`commit_changes`, `read_file` and `list_tree` as programs whose sections are
the Git subprocesses they run, on a repository with what its commits hold: the
trees, the contents of their files, and what is said of a commit.  The index of
a call is a file of its own, and so a value in its program.

`git ls-tree` takes a path as it is, unless it begins with a colon.  Such a
path is a pathspec with magic, and selects whatever it says (`selected`).
`validate_repo_path` accepts it.
-/

namespace Cresix.Git

open Concurrent (Program)
open History (Has)

/-! ## What Git keeps -/

/-- A text without a NUL, as commits keep it. -/
structure PlainText where
  text : String
  nul_notMem : '\x00' ∉ text.toList
deriving DecidableEq

def PlainText.ofString (text : String) : Option PlainText :=
  if h : '\x00' ∉ text.toList then some ⟨text, h⟩ else none

/-- What a commit holds besides its parents. -/
structure CommitBody where
  tree : Index
  authorName : PlainText
  authorEmail : PlainText
  authoredAt : PlainText
  message : PlainText
deriving DecidableEq

/-- The contents of files by their identifiers. -/
abbrev Blobs := Finmap fun _ : String => List UInt8

/-- A repository with its objects. -/
structure ObjectStore where
  repo : Repo
  bodies : Finmap fun _ : String => CommitBody
  blobs : Blobs

/-- How Git names what it keeps. -/
structure Naming extends Objects where
  /-- The tree of a directory. -/
  directory : Index → String → String
  isOid_directory : ∀ tree path, isOid (directory tree path) = true
  /-- The name and the email of an identity as they are kept, unless Git
  refuses it. -/
  ident : CommitIdentity → Option (PlainText × PlainText)

/-- The mode of a commit of another repository in a tree. -/
def gitlink : Nat := 0o160000

namespace ObjectStore

/-- The store with the repository changed. -/
def setRepo (repo : Repo) (store : ObjectStore) : ObjectStore := { store with repo := repo }

/-- A content that is there already is not written again. -/
def keep (store : ObjectStore) (oid : String) (content : List UInt8) : ObjectStore :=
  if (store.blobs.lookup oid).isSome then store
  else { store with blobs := store.blobs.insert oid content }

/-- The store with a commit, when its identifier and its parents allow it.  An
identifier stands for one commit. -/
def write (store : ObjectStore) (oid : String) (parents : List String) (body : CommitBody) :
    Option ObjectStore :=
  if isOid oid = true ∧ ∀ other ∈ store.bodies.lookup oid, other = body then
    (store.repo.write oid parents).map fun repo =>
      { store with repo := repo, bodies := store.bodies.insert oid body }
  else none

end ObjectStore

/-! ## Git subprocesses -/

/-- How a subprocess may fail. -/
inductive Fault where
  | spawn (error : RunError)
  | fatal (stderr : String)
deriving DecidableEq, Repr

def Fault.failure : Fault → Failure
  | spawn error => .spawn error.toGitError
  | fatal stderr => .fatal stderr

/-- What the outside has a say in when a subprocess runs. -/
structure FileInput where
  fault : Option Fault
  /-- The commit that a name other than a reference stands for. -/
  reading : Option String
  /-- The identifier of the commit that is written, and the time. -/
  oid : String
  authoredAt : PlainText
  /-- The paths that a pathspec with magic selects. -/
  listed : List String
  /-- The order in which `git rev-list` lists commits. -/
  order : List String

def FileInput.toGitInput (i : FileInput) : GitInput :=
  ⟨i.fault.map Fault.failure, i.reading, i.oid, none⟩

/-- A call, as far as it has come. -/
abbrev FileM := Program ObjectStore FileInput GitError

/-- A program that looks at the commits and references only. -/
def onRepo {α : Type} (p : GitM α) : FileM α :=
  p.lift ObjectStore.repo ObjectStore.setRepo FileInput.toGitInput

/-- A subprocess that must succeed. -/
def subprocess {α : Type} (act : FileInput → ObjectStore → Except GitError α × ObjectStore) :
    FileM α :=
  .step fun i store =>
    match i.fault with
    | some (.spawn error) => (.error error.toGitError, store)
    | some (.fatal stderr) => (.error (commandError stderr), store)
    | none => act i store

/-- Git refuses what it is asked. -/
def refusal : GitError := commandError "fatal"

/-- A subprocess that changes nothing, with its answer; `none` if it refuses. -/
def output {α : Type} (answer : FileInput → ObjectStore → Option α) : FileM α :=
  subprocess fun i store => ((answer i store).elim (.error refusal) .ok, store)

/-! ## Writing -/

section

variable (naming : Naming)

/-- `git hash-object -w`. -/
def hashObject (content : List UInt8) : FileM String :=
  subprocess fun _ store => (.ok (naming.oid content), store.keep (naming.oid content) content)

/-- `git update-index`, with what it makes of the index. -/
def updateIndex (index : Option Index) : FileM Index := output fun _ _ => index

/-- The subprocesses that put one change into the index. -/
def Repository.putFile (r : Repository) (index : Index) : FileChange → FileM Index
  | .upsert path content => do
      let oid ← hashObject naming content
      updateIndex (addCacheinfo index (cacheinfo oid path).toList)
  | .delete path => updateIndex (indexInfo index (r.removal path).toList)

/-- The loop over the changes. -/
def Repository.putFiles (r : Repository) (index : Index) : List FileChange → FileM Index
  | [] => pure index
  | change :: changes => do
      let index ← r.putFile naming index change
      r.putFiles index changes

/-- `git read-tree`, if there is a parent. -/
def loadTree : Option String → FileM Index
  | some oid => output fun _ store => (store.bodies.lookup oid).map CommitBody.tree
  | none => pure ∅

/-- `git commit-tree`. -/
def writeCommit (parents : List String) (tree : Index) (message : String)
    (identity : CommitIdentity) : FileM String :=
  subprocess fun i store =>
    let written := do
      let (name, email) ← naming.ident identity
      let message ← PlainText.ofString message
      store.write i.oid parents ⟨tree, name, email, i.authoredAt, message⟩
    match written with
    | some store => (.ok i.oid, store)
    | none => (.error refusal, store)

/-- What `commit_changes` does once it knows the branch and the parent. -/
def Repository.commitFilesOnto (r : Repository) (branchRef : String)
    (current parent : Option String) (changes : List FileChange) (message : String)
    (identity : CommitIdentity) : FileM String := do
  -- the temporary index, which is a file and no subprocess
  output fun _ _ => some ()
  let index ← loadTree parent
  let tree ← r.putFiles naming index changes
  -- `git write-tree`
  output fun _ _ => some ()
  let newOid ← writeCommit naming parent.toList tree message identity
  onRepo (r.atomicUpdate branchRef newOid (current.getD r.zeroOid))
  pure newOid

/-- `Repository::commit_changes`, with the files. -/
def Repository.commitFiles (r : Repository) (branch : String) (startRevision : Option String)
    (changes : List FileChange) (message : String) (identity : CommitIdentity) :
    FileM String := do
  Program.check (validateBranch branch)
  Program.check (validateIdentity identity)
  Program.check (validateMessage message)
  Program.check (validateChanges r.limits changes)
  let current ← onRepo (resolveRefOptional ("refs/heads/" ++ branch))
  let parent ← onRepo (r.parentOf current startRevision)
  r.commitFilesOnto naming ("refs/heads/" ++ branch) current parent changes message identity

/-! ## Reading files -/

/-- A file as it is listed. -/
def ObjectStore.fileEntry (store : ObjectStore) (path : String) (file : Entry) : TreeEntry :=
  if file.mode = gitlink then ⟨path, file.oid, .commit, none⟩
  else ⟨path, file.oid, .blob, (store.blobs.lookup file.oid).map List.length⟩

/-- There are files below the path. -/
def IsDirectory (tree : Index) (path : String) : Prop := ∃ file ∈ tree.keys, IsAbove path file

instance (tree : Index) (path : String) : Decidable (IsDirectory tree path) := by
  unfold IsDirectory
  infer_instance

/-- What is at a path, with its mode. -/
def ObjectStore.entryAt (store : ObjectStore) (tree : Index) (path : String) :
    Option (Nat × TreeEntry) :=
  match tree.lookup path with
  | some file => some (file.mode, store.fileEntry path file)
  | none =>
      if IsDirectory tree path then
        some (0o40000, ⟨path, naming.directory tree path, .tree, none⟩)
      else none

/-- An entry that a tree of Git can hold. -/
def Listed.ofEntry (mode : Nat) (entry : TreeEntry) : Option Listed :=
  if h : entry.path ≠ "" ∧ '\x00' ∉ entry.path.toList ∧ isOid entry.oid = true ∧
      ∀ n ∈ entry.size, n ≤ Rust.u64Max then
    some
      { entry with
        mode := mode
        path_ne := h.1
        nul_notMem := h.2.1
        isOid_oid := h.2.2.1
        size_le := h.2.2.2 }
  else none

def ObjectStore.listed (store : ObjectStore) (tree : Index) (path : String) : Option Listed :=
  (store.entryAt naming tree path).bind fun (mode, entry) => Listed.ofEntry mode entry

/-- `git ls-tree -z -l`, for some paths. -/
def lsTree (oid : String) (paths : FileInput → Index → List String) : FileM (List UInt8) :=
  output fun i store => (store.bodies.lookup oid).map fun body =>
    treeListing ((paths i body.tree).filterMap (store.listed naming body.tree))

/-- The paths that a path on the command line selects. -/
def selected (path : String) (i : FileInput) (_ : Index) : List String :=
  if path.toList.head? = some ':' then i.listed else [path]

/-- The path up to the first slash. -/
def topPath (path : String) : String := String.ofList (path.toList.takeWhile (· ≠ '/'))

/-- The keys of a map, in the order of Git. -/
def sortedKeys {β : Type} (entries : Finmap fun _ : String => β) : List String :=
  entries.keys.sort fun a b => a ≤ b

/-- The paths of a listing. -/
def treePaths (recursive : Bool) (tree : Index) : List String :=
  let files := sortedKeys tree
  if recursive then files else (files.map topPath).dedup

/-- `git cat-file blob`. -/
def catFile (oid : String) : FileM (List UInt8) := output fun _ store => store.blobs.lookup oid

/-- The limits of reading in `Limits`. -/
structure ReadLimits where
  maxReadBytes : Nat
  maxLogEntries : Nat
deriving DecidableEq, Repr

def ReadLimits.default : ReadLimits := ⟨2097152, 500⟩

variable (limits : ReadLimits)

/-- The checks of `read_file` on an entry: the blob to read. -/
def checkEntry (entry : TreeEntry) : Except GitError String :=
  if entry.kind ≠ .blob then .error (.invalidPath "path is not a file")
  else
    match entry.size with
    | none => .error (.invalidOutput "blob has no size")
    | some size =>
        if limits.maxReadBytes < size then .error (.limitExceeded "file is too large to read")
        else .ok entry.oid

/-- What `read_file` makes of the listing. -/
def readable (listing : List UInt8) (path : String) : Except GitError String := do
  checkEntry limits (← parseExactTreeEntry listing path)

/-- `read_file`, once the revision is resolved. -/
def readFileAt (oid path : String) : FileM (List UInt8) := do
  let listing ← lsTree naming oid (selected path)
  let blob ← Program.check (readable limits listing path)
  catFile blob

/-- `Repository::read_file`. -/
def Repository.readFile (r : Repository) (revision path : String) : FileM (List UInt8) := do
  Program.check (validateRepoPath path)
  let oid ← onRepo (r.resolveCommit revision)
  readFileAt naming limits oid path

/-- `list_tree`, once the revision is resolved. -/
def listTreeAt (oid : String) (recursive : Bool) : FileM (List TreeEntry) := do
  let listing ← lsTree naming oid fun _ => treePaths recursive
  Program.check (parseTreeEntries listing)

/-- `Repository::list_tree`. -/
def Repository.listTree (r : Repository) (revision : String) (recursive : Bool) :
    FileM (List TreeEntry) := do
  let oid ← onRepo (r.resolveCommit revision)
  listTreeAt naming oid recursive

end

end Cresix.Git
