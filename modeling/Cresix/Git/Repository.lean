import Cresix.Git.Branch
import Cresix.Library.Concurrent
import Cresix.Library.FiniteMap
import Cresix.Library.History

/-!
# Commits and merges of a repository

`commit_changes` and `merge` as programs whose sections are the Git
subprocesses they run.  The state is what Git keeps and these calls can tell:
the commits with their parents, and the references.  A subprocess is given what
the outside has a say in: whether it fails, the object it writes, whether a
merge conflicts, and what Git makes of a name that is no reference.
-/

namespace Cresix.Git

open Concurrent (Program)
open History (Node Has Grown)

/-! ## Arguments -/

/-- `Limits`, as far as changes are concerned. -/
structure Limits where
  maxChanges : Nat
  maxFileBytes : Nat
  maxTotalBytes : Nat
deriving DecidableEq, Repr

/-- `Limits::default`. -/
def Limits.default : Limits := ⟨100, 1048576, 10485760⟩

/-- `CommitIdentity`. -/
structure CommitIdentity where
  name : String
  email : String
deriving DecidableEq, Repr

/-- `FileChange`. -/
inductive FileChange where
  | upsert (path : String) (content : List UInt8)
  | delete (path : String)
deriving DecidableEq, Repr

/-- `MergeResult`. -/
inductive MergeResult where
  | alreadyUpToDate (oid : String)
  | fastForward (oid : String)
  | merged (oid : String)
  | conflicted (paths : List String)
deriving DecidableEq, Repr

/-- `validate_repo_path`. -/
def validateRepoPath (path : String) : Except GitError Unit :=
  if path.isEmpty || 4096 < Rust.len path || Rust.startsWith path "/"
      || Rust.startsWith path "-" || Rust.endsWith path "/" || path.toList.contains '\\'
      || (Rust.bytes path).any (fun byte => byte < 0x20 || byte == 0x7f)
      || (Rust.split '/' path.toList).any (fun part => part.isEmpty || part == ['.']
          || part == ['.', '.']
          || Rust.toAsciiLowercase (Rust.bytes (String.ofList part)) == Rust.bytes ".git") then
    .error (.invalidPath path)
  else .ok ()

/-- `validate_identity`. -/
def validateIdentity (identity : CommitIdentity) : Except GitError Unit :=
  let validName := !(Rust.trim identity.name.toList).isEmpty && Rust.len identity.name ≤ 200
    && !(Rust.bytes identity.name).any (fun byte => byte == 0 || byte == 0x0a || byte == 0x0d)
  let validEmail := !identity.email.isEmpty && Rust.len identity.email ≤ 320
    && Rust.contains identity.email "@"
    && !(Rust.bytes identity.email).any (fun byte => byte ≤ 0x20 || byte == 0x7f || byte == 0x3c
      || byte == 0x3e)
  if validName && validEmail then .ok ()
  else .error (.invalidMetadata "invalid author name or email")

/-- `validate_message`. -/
def validateMessage (message : String) : Except GitError Unit :=
  if (Rust.trim message.toList).isEmpty || 65536 < Rust.len message
      || (Rust.bytes message).contains 0 then
    .error (.invalidMetadata "invalid commit message")
  else .ok ()

/-- The path of a change and the size of its content. -/
def FileChange.pathAndSize : FileChange → String × Nat
  | upsert path content => (path, content.length)
  | delete path => (path, 0)

/-- The loop of `validate_changes`: the paths so far and their size. -/
def validateEach (limits : Limits) :
    List FileChange → List String → Nat → Except GitError Nat
  | [], _, total => .ok total
  | change :: changes, paths, total => do
      let (path, size) := change.pathAndSize
      validateRepoPath path
      if path ∈ paths then throw (.invalidPath "duplicate changed path")
      if limits.maxFileBytes < size then throw (.limitExceeded "file change is too large")
      if Rust.u64Max < total + size then throw (.limitExceeded "change size overflow")
      validateEach limits changes (path :: paths) (total + size)

/-- `validate_changes`. -/
def validateChanges (limits : Limits) (changes : List FileChange) : Except GitError Unit := do
  if changes.isEmpty || limits.maxChanges < changes.length then
    throw (.limitExceeded "invalid number of file changes")
  let total ← validateEach limits changes [] 0
  if limits.maxTotalBytes < total then throw (.limitExceeded "total change size is too large")

/-! ## What Git keeps -/

/-- The identifier is all zeros, and so the name of no object. -/
def isZero (oid : String) : Bool := oid.toList.all fun c => c = '0'

/-- The commits and the references of a repository.  References point to
commits that are there. -/
structure Repo where
  commits : List (Node String)
  grown : Grown commits
  named : ∀ node ∈ commits, isZero node.id = false
  refs : Finmap fun _ : String => String
  exist : ∀ name oid, refs.lookup name = some oid → Has commits oid

namespace Repo

/-- A freshly created repository. -/
def empty : Repo where
  commits := []
  grown := trivial
  named node h := by cases h
  refs := ∅
  exist name oid h := by simp at h

/-- The references a name may stand for, in the order in which Git tries
them. -/
def rules (name : String) : List String :=
  [name, "refs/" ++ name, "refs/tags/" ++ name, "refs/heads/" ++ name, "refs/remotes/" ++ name,
    "refs/remotes/" ++ name ++ "/HEAD"]

/-- What a name stands for.  Where it is no reference, Git may still read it as
an abbreviated or a described commit. -/
def resolve (repo : Repo) (reading : Option String) (name : String) : Option String :=
  (rules name).findSome? repo.refs.lookup <|> reading.filter fun oid => Has repo.commits oid

/-- A commit by its full identifier. -/
def object (repo : Repo) (oid : String) : Option String :=
  (some (String.ofList (oid.toList.map Char.toLower))).filter fun oid => Has repo.commits oid

/-- The repository with a commit, when its identifier and its parents allow
it.  A commit that is there already is not written again. -/
def write (repo : Repo) (oid : String) (parents : List String) : Option Repo :=
  if ⟨oid, parents⟩ ∈ repo.commits then some repo
  else
    if h : isZero oid = false ∧ ¬ Has repo.commits oid ∧ ∀ p ∈ parents, Has repo.commits p then
      some { repo with
        commits := ⟨oid, parents⟩ :: repo.commits
        grown := ⟨h.2.1, h.2.2, repo.grown⟩
        named := List.forall_mem_cons.mpr ⟨h.1, repo.named⟩
        exist := by
          intro name target hname
          exact (repo.exist name target hname).mono (List.subset_cons_self _ _) }
    else none

/-- The repository with a reference moved to a commit. -/
def point (repo : Repo) (name oid : String) (h : Has repo.commits oid) : Repo :=
  { repo with
    refs := repo.refs.insert name oid
    exist := by
      intro name' oid' hlookup
      rw [Finmap.lookup_insert_eq_ite] at hlookup
      split at hlookup
      next =>
        cases hlookup
        exact h
      next => exact repo.exist name' oid' hlookup }

/-- The reference has the expected value, where zeros stand for none. -/
def Expects (repo : Repo) (zero name old : String) : Prop :=
  if old = zero then repo.refs.lookup name = none else repo.refs.lookup name = some old

instance (repo : Repo) (zero name old : String) : Decidable (repo.Expects zero name old) := by
  unfold Expects
  infer_instance

end Repo

/-! ## Git subprocesses -/

/-- How a subprocess may fail. -/
inductive Failure where
  /-- It could not be run. -/
  | spawn (error : GitError)
  /-- It ended with neither success nor an answer, and this text. -/
  | fatal (stderr : String)

/-- What the outside has a say in when a subprocess runs. -/
structure GitInput where
  /-- The subprocess fails. -/
  failure : Option Failure
  /-- The commit that a name other than a reference stands for. -/
  reading : Option String
  /-- The identifier of the object that is written. -/
  oid : String
  /-- The paths of a merge that conflicts. -/
  conflicts : Option (List String)

/-- A call, as far as it has come. -/
abbrev GitM := Program Repo GitInput GitError

/-- `command_error`. -/
def commandError (stderr : String) : GitError :=
  .commandFailed (String.ofList ((Rust.trim stderr.toList).take 500))

/-- A subprocess: what is made of its failure, and what it does. -/
def git {α : Type} (fatal : String → Except GitError α)
    (act : GitInput → Repo → Except GitError α × Repo) : GitM α :=
  .step fun i repo =>
    match i.failure with
    | some (.spawn error) => (.error error, repo)
    | some (.fatal stderr) => (fatal stderr, repo)
    | none => act i repo

/-- A subprocess that leaves commits and references alone and must succeed. -/
def command : GitM Unit :=
  git (fun stderr => .error (commandError stderr)) fun _ repo => (.ok (), repo)

/-- `Repository`. -/
structure Repository where
  limits : Limits
  oidLen : Nat

/-- The all-zero object identifier. -/
def Repository.zeroOid (r : Repository) : String := String.ofList (List.replicate r.oidLen '0')

/-- `resolve_ref_optional`. -/
def resolveRefOptional (reference : String) : GitM (Option String) :=
  git (fun stderr => .error (commandError stderr)) fun i repo =>
    (.ok (repo.resolve i.reading reference), repo)

/-- `git rev-parse` for a commit, and what `resolve_commit` makes of its
failure. -/
def revParseCommit (revision : String) (find : GitInput → Repo → Option String) : GitM String :=
  let answer : Option String → Except GitError String := fun found =>
    found.elim (.error (.revisionNotFound revision)) .ok
  git (fun _ => answer none) fun i repo => (answer (find i repo), repo)

/-- `resolve_commit`. -/
def Repository.resolveCommit (r : Repository) (revision : String) : GitM String :=
  if isOid revision then
    revParseCommit revision fun i repo =>
      if Rust.len revision = r.oidLen then repo.object revision else repo.resolve i.reading revision
  else do
    Program.check (validateBranch revision)
    revParseCommit revision fun i repo => repo.resolve i.reading ("refs/heads/" ++ revision)

/-- `is_ancestor`. -/
def isAncestor (ancestor descendant : String) : GitM Bool :=
  git (fun stderr => .error (commandError stderr)) fun _ repo =>
    if Has repo.commits ancestor ∧ Has repo.commits descendant then
      (.ok (History.isAncestor repo.commits ancestor descendant), repo)
    else (.error (commandError "fatal: Not a valid commit name"), repo)

/-- `git commit-tree`. -/
def commitTree (parents : List String) : GitM String :=
  git (fun stderr => .error (commandError stderr)) fun i repo =>
    match repo.write i.oid parents with
    | some repo' => (.ok i.oid, repo')
    | none => (.error (commandError "fatal: not a valid object name"), repo)

/-- `git update-ref`, and what `atomic_update` and `commit_changes` make of its
failure. -/
def Repository.atomicUpdate (r : Repository) (reference new old : String) : GitM Unit :=
  let failed : String → Except GitError Unit := fun stderr =>
    if Rust.contains stderr "cannot lock ref" then .error .concurrentUpdate
    else .error (commandError stderr)
  git failed fun _ repo =>
    if h : Has repo.commits new then
      if repo.Expects r.zeroOid reference old then (.ok (), repo.point reference new h)
      else (failed "cannot lock ref", repo)
    else (failed "trying to write ref with nonexistent object", repo)

/-- The subprocesses that put one change into the index. -/
def writeChange : FileChange → GitM Unit
  | .upsert _ _ => do
      command
      command
  | .delete _ => command

/-- The loop over the changes. -/
def writeChanges : List FileChange → GitM Unit
  | [] => pure ()
  | change :: changes => do
      writeChange change
      writeChanges changes

/-- The commit that `commit_changes` starts from. -/
def Repository.parentOf (r : Repository) (current startRevision : Option String) :
    GitM (Option String) :=
  match current, startRevision with
  | some oid, _ => pure (some oid)
  | none, some revision => do
      let oid ← r.resolveCommit revision
      pure (some oid)
  | none, none => pure none

/-- `git read-tree`, if there is a parent. -/
def readTree : Option String → GitM Unit
  | some _ => command
  | none => pure ()

/-- What `commit_changes` does once it knows the branch and the parent. -/
def Repository.commitOnto (r : Repository) (branchRef : String) (current parent : Option String)
    (changes : List FileChange) : GitM String := do
  -- the temporary index, which is a file and no subprocess
  command
  readTree parent
  writeChanges changes
  command
  let newOid ← commitTree parent.toList
  r.atomicUpdate branchRef newOid (current.getD r.zeroOid)
  pure newOid

/-- `Repository::commit_changes`. -/
def Repository.commitChanges (r : Repository) (branch : String) (startRevision : Option String)
    (changes : List FileChange) (message : String) (identity : CommitIdentity) :
    GitM String := do
  Program.check (validateBranch branch)
  Program.check (validateIdentity identity)
  Program.check (validateMessage message)
  Program.check (validateChanges r.limits changes)
  let current ← resolveRefOptional ("refs/heads/" ++ branch)
  let parent ← r.parentOf current startRevision
  r.commitOnto ("refs/heads/" ++ branch) current parent changes

/-- `git merge-tree`: the paths in conflict, if any. -/
def mergeTree : GitM (Option (List String)) :=
  git (fun _ => .ok (some [])) fun i repo => (.ok i.conflicts, repo)

/-- What `merge` does with two commits neither of which is an ancestor of the
other. -/
def Repository.mergeCommits (r : Repository) (targetRef target source : String) :
    GitM MergeResult := do
  match ← mergeTree with
  | some paths => pure (.conflicted paths)
  | none =>
      let merged ← commitTree [target, source]
      r.atomicUpdate targetRef merged target
      pure (.merged merged)

/-- What `merge` does with the two commits. -/
def Repository.mergeInto (r : Repository) (targetRef target source : String) :
    GitM MergeResult := do
  if ← isAncestor source target then pure (.alreadyUpToDate target)
  else if ← isAncestor target source then
    r.atomicUpdate targetRef source target
    pure (.fastForward source)
  else r.mergeCommits targetRef target source

/-- `Repository::merge`, with the commit that was merged. -/
def Repository.merge (r : Repository) (targetBranch sourceRevision message : String)
    (identity : CommitIdentity) : GitM (MergeResult × String) := do
  Program.check (validateBranch targetBranch)
  Program.check (validateIdentity identity)
  Program.check (validateMessage message)
  match ← resolveRefOptional ("refs/heads/" ++ targetBranch) with
  | none => .fail (.revisionNotFound targetBranch)
  | some target =>
      let source ← r.resolveCommit sourceRevision
      let result ← r.mergeInto ("refs/heads/" ++ targetBranch) target source
      pure (result, source)

end Cresix.Git
