import Cresix.Git.Updates

/-!
# Branches as revisions

Writers always mean `refs/heads/name`.  Readers take a name of 40 or 64
hexadecimal digits for an object or for any reference that Git finds first, and
every other name for a branch.  `validate_branch` accepts such names too, and
`commit_changes` creates the branch (`commitChanges_points`), so the two views
agree on the others only (`resolvesToTip_iff`).
-/

namespace Cresix.Git

open Concurrent (Program)
open History (Has)

/-- A commit by the digits of a name, as Git writes it. -/
def lowercase (name : String) : String := String.ofList (name.toList.map Char.toLower)

/-- Readers of the name and writers of its branch are both at the tip, where no
subprocess fails. -/
def ResolvesToTip (r : Repository) (repo : Repo) (name tip : String) : Prop :=
  ∀ inputs, (inputs 0).failure = none →
    ((r.resolveCommit name).run inputs repo).1 = .ok tip ∧
      ((resolveRefOptional ("refs/heads/" ++ name)).run inputs repo).1 = .ok (some tip)

/-- Git finds no other reference before the branch. -/
def FindsBranch (repo : Repo) (name tip : String) : Prop :=
  ∀ other, [name, "refs/" ++ name, "refs/tags/" ++ name].findSome? repo.refs.lookup = some other →
    other = tip

section

variable {r : Repository} {repo repo' : Repo} {name tip oid : String} {inputs rest : Nat → GitInput}

/-! ## The branch a writer creates -/

theorem run_git {α : Type} {fatal : String → Except GitError α}
    {act : GitInput → Repo → Except GitError α × Repo} (h : (inputs 0).failure = none) :
    ((git fatal act).run inputs repo).1 = (act (inputs 0) repo).1 := by
  rw [git, Program.run_step, h]

/-- A reference that is moved stands for the new commit. -/
theorem lookup_of_atomicUpdate {reference new old : String}
    (h : (r.atomicUpdate reference new old).run inputs repo = (.ok (), repo', rest)) :
    repo'.refs.lookup reference = some new := by
  simp only [Repository.atomicUpdate, git, Program.run_step] at h
  split at h
  next => cases h
  next =>
    split at h
    next => cases h
    next => cases h
  next =>
    split at h
    next hnew =>
      split at h
      next =>
        cases h
        exact Finmap.lookup_insert _
      next =>
        split at h
        next => cases h
        next => cases h
    next =>
      split at h
      next => cases h
      next => cases h

/-- The branch is at the commit that `commit_changes` gives back. -/
theorem commitChanges_points {startRevision : Option String} {changes : List FileChange}
    {message : String} {identity : CommitIdentity}
    (h : (r.commitChanges name startRevision changes message identity).run inputs repo =
      (.ok oid, repo', rest)) : repo'.refs.lookup ("refs/heads/" ++ name) = some oid := by
  rw [Repository.commitChanges] at h
  obtain ⟨_, -, h⟩ := Program.run_check_bind_eq_ok.mp h
  obtain ⟨_, -, h⟩ := Program.run_check_bind_eq_ok.mp h
  obtain ⟨_, -, h⟩ := Program.run_check_bind_eq_ok.mp h
  obtain ⟨_, -, h⟩ := Program.run_check_bind_eq_ok.mp h
  obtain ⟨current, _, _, -, h⟩ := Program.run_bind_eq_ok.mp h
  obtain ⟨parent, _, _, -, h⟩ := Program.run_bind_eq_ok.mp h
  obtain ⟨_, _, _, -, h⟩ := Program.run_bind_eq_ok.mp h
  obtain ⟨_, _, _, -, h⟩ := Program.run_bind_eq_ok.mp h
  obtain ⟨_, _, _, -, h⟩ := Program.run_bind_eq_ok.mp h
  obtain ⟨_, _, _, -, h⟩ := Program.run_bind_eq_ok.mp h
  obtain ⟨new, _, _, -, h⟩ := Program.run_bind_eq_ok.mp h
  obtain ⟨_, _, _, hupdate, h⟩ := Program.run_bind_eq_ok.mp h
  cases h
  exact lookup_of_atomicUpdate hupdate

/-! ## What a reader finds -/

theorem resolveCommit_run (hvalid : validateBranch name = .ok ())
    (h : (inputs 0).failure = none) :
    ((r.resolveCommit name).run inputs repo).1 =
      (if isOid name = true then
        if Rust.len name = r.oidLen then repo.object name
        else repo.resolve (inputs 0).reading name
      else repo.resolve (inputs 0).reading ("refs/heads/" ++ name)).elim
        (.error (.revisionNotFound name)) .ok := by
  rw [Repository.resolveCommit]
  split
  next => rw [revParseCommit, run_git h]
  next =>
    rw [hvalid]
    exact run_git h

theorem elim_eq_ok {found : Option String} {error : GitError} :
    found.elim (.error error) .ok = Except.ok tip ↔ found = some tip := by
  cases found with
  | none => exact iff_of_false (fun h => nomatch h) (fun h => nomatch h)
  | some other => exact Except.ok.injEq other tip ▸ (Option.some.injEq other tip).symm ▸ Iff.rfl

theorem object_eq_some_iff (h : Has repo.commits tip) :
    repo.object name = some tip ↔ lowercase name = tip := by
  rw [Repo.object, Option.filter_eq_some_iff]
  constructor
  · rintro ⟨heq, -⟩
    exact Option.some.inj heq
  · rintro rfl
    exact ⟨rfl, decide_eq_true h⟩

/-- The branch is the fourth of the references Git tries for its name. -/
theorem resolve_eq_some_iff {reading : Option String}
    (h : repo.refs.lookup ("refs/heads/" ++ name) = some tip) :
    repo.resolve reading name = some tip ↔ FindsBranch repo name tip := by
  have hrules : Repo.rules name = [name, "refs/" ++ name, "refs/tags/" ++ name] ++
      (("refs/heads/" ++ name) :: ["refs/remotes/" ++ name, "refs/remotes/" ++ name ++ "/HEAD"]) :=
    rfl
  have hbranch : (("refs/heads/" ++ name) :: ["refs/remotes/" ++ name,
      "refs/remotes/" ++ name ++ "/HEAD"]).findSome? repo.refs.lookup = some tip := by
    rw [List.findSome?_cons, h]
  rw [Repo.resolve, hrules, List.findSome?_append, hbranch, FindsBranch]
  cases [name, "refs/" ++ name, "refs/tags/" ++ name].findSome? repo.refs.lookup with
  | none =>
      refine iff_of_true rfl ?_
      intro other hother
      cases hother
  | some first =>
      constructor
      · intro heq other hother
        exact (Option.some.inj hother).symm.trans (Option.some.inj heq)
      · intro hfinds
        exact congrArg some (hfinds first rfl)

/-- The name of a branch resolves to its tip unless it is read as an object and
is not the tip, or as a reference and another one is found first. -/
theorem resolvesToTip_iff (hvalid : validateBranch name = .ok ())
    (htip : repo.refs.lookup ("refs/heads/" ++ name) = some tip) :
    ResolvesToTip r repo name tip ↔
      (isOid name = true →
        if Rust.len name = r.oidLen then lowercase name = tip else FindsBranch repo name tip) := by
  have hwriter : ∀ reading, repo.resolve reading ("refs/heads/" ++ name) = some tip :=
    fun reading => Repo.resolve_of_lookup htip
  have hreader : ∀ inputs : Nat → GitInput, (inputs 0).failure = none →
      (((r.resolveCommit name).run inputs repo).1 = .ok tip ↔
        (isOid name = true →
          if Rust.len name = r.oidLen then lowercase name = tip
          else FindsBranch repo name tip)) := by
    intro inputs h
    rw [resolveCommit_run hvalid h, elim_eq_ok]
    by_cases hoid : isOid name = true
    · rw [if_pos hoid, forall_prop_of_true hoid]
      split
      next => exact object_eq_some_iff (repo.exist _ _ htip)
      next => exact resolve_eq_some_iff htip
    · rw [if_neg hoid]
      exact iff_of_true (hwriter _) fun h => absurd h hoid
  constructor
  · intro hresolves
    exact (hreader (fun _ => quiet) rfl).mp (hresolves (fun _ => quiet) rfl).1
  · intro hcondition inputs h
    refine ⟨(hreader inputs h).mpr hcondition, ?_⟩
    rw [resolveRefOptional, run_git h, hwriter]

end

/-! ## A branch like an object -/

/-- A branch with the name of an object. -/
def hexBranch : String := String.ofList (List.replicate 40 'a')

/-- `commit_changes` on a branch without a start revision. -/
def beginOn (branch : String) : GitM String :=
  sha1.commitChanges branch none [.upsert "README.md" []] "first" tester

/-- The repository with one branch. -/
def withBranch (branch : String) : Repo := ((beginOn branch).run (fun _ => quiet) .empty).2.1

theorem resolvesToTip_iff_work :
    ResolvesToTip sha1 (withBranch "work") "work" someOid ↔
      (isOid "work" = true →
        if Rust.len "work" = sha1.oidLen then lowercase "work" = someOid
        else FindsBranch (withBranch "work") "work" someOid) :=
  resolvesToTip_iff (by decide +kernel) (by decide +kernel)

/-- The branch is created and is no revision. -/
theorem hexBranch_unresolved :
    validateBranch hexBranch = .ok () ∧
      ((beginOn hexBranch).run (fun _ => quiet) .empty).1 = .ok someOid ∧
      (withBranch hexBranch).refs.lookup ("refs/heads/" ++ hexBranch) = some someOid ∧
      ((sha1.resolveCommit hexBranch).run (fun _ => quiet) (withBranch hexBranch)).1 =
        .error (.revisionNotFound hexBranch) := by
  decide +kernel

end Cresix.Git
