import Cresix.Git.Deletion
import Cresix.Git.Repository

/-!
# New repositories

`GitStore::create` makes a directory, has Git initialize it, and opens it.
Where Git says that it failed, the directory is removed again.  Where Git
cannot be run, and where what it made cannot be opened, the call returns at
once and the directory stays.  `Created` lists what a call can come to.
-/

namespace Cresix.Git

open FileTree (Path Node Tree RemovedAll)

/-- How `run_git` fails. -/
inductive RunError where
  | unavailable
  | io (text : String)
deriving DecidableEq, Repr

/-- The error `run_git` returns. -/
def RunError.toGitError : RunError → GitError
  | unavailable => .gitUnavailable
  | io text => .io text

/-- What the calls do by which a repository is made. -/
structure CreationCalls where
  /-- `fs::create_dir`. -/
  createDir : Path → Tree → Option Tree
  /-- `git init`, with what it writes on `stderr` where it does not succeed. -/
  init : Path → Tree → Except RunError (Option String) × Tree
  /-- What Git says when the repository is opened. -/
  probe : Path → Tree → Except GitError Unit
  /-- `commit_changes`. -/
  commitChanges : Path → String → Option String → List FileChange → String → CommitIdentity →
    Tree → Except GitError String × Tree
  /-- `remove_dir_all`, and whether it succeeds. -/
  removeDirAll : Path → Tree → Bool × Tree

/-- What is at the path stays, and so does all that is not below it. -/
structure Inside (path : Path) (t t' : Tree) : Prop where
  itself : t'.node path = t.node path
  outside : ∀ p, ¬path <+: p → t'.node p = t.node p

/-- Git writes in the directory of the repository only. -/
structure CreationCalls.Lawful (calls : CreationCalls) : Prop where
  createDir : ∀ path t, calls.createDir path t = none ∨ calls.createDir path t = t.mkdir path
  init : ∀ path t, Inside path t (calls.init path t).2
  probe : ∀ path t slug, calls.probe path t ≠ .error (.alreadyExists slug)
  commitChanges : ∀ path branch start changes message identity t,
    Inside path t (calls.commitChanges path branch start changes message identity t).2
  removeDirAll : ∀ path t,
    RemovedAll path t (calls.removeDirAll path t).1 (calls.removeDirAll path t).2

/-- Each removal succeeds. -/
def CreationCalls.Removes (calls : CreationCalls) : Prop :=
  ∀ path t, (calls.removeDirAll path t).1 = true

/-- What `create` makes of the end of `git init`. -/
def finishCreate (calls : CreationCalls) (slug : String) :
    Except RunError (Option String) → Tree → Except GitError Path × Tree
  | .error error, t => (.error error.toGitError, t)
  | .ok (some stderr), t =>
      (.error (commandError stderr), (calls.removeDirAll (repositoryPath slug) t).2)
  | .ok none, t => (openRepository (calls.probe (repositoryPath slug) t) slug t, t)

/-- `create`. -/
def create (calls : CreationCalls) (slug : String) (t : Tree) : Except GitError Path × Tree :=
  match validateSlug slug with
  | .error error => (.error error, t)
  | .ok () =>
      let destination := repositoryPath slug
      if (t.node destination).isSome then (.error (.alreadyExists slug), t)
      else
        match calls.createDir destination t with
        | none => (.error (.io "create_dir"), t)
        | some t =>
            let (outcome, t) := calls.init destination t
            finishCreate calls slug outcome t

/-! ## What is left -/

/-- An error other than `AlreadyExists` comes with no directory that was not there before. -/
def LeavesNoDirectory (slug : String) (t : Tree) (result : Except GitError Path × Tree) : Prop :=
  ∀ error, result.1 = .error error → (∀ name, error ≠ .alreadyExists name) →
    t.node (repositoryPath slug) = none → result.2.node (repositoryPath slug) = none

/-- The directory is made. -/
structure Started (calls : CreationCalls) (slug : String) (t t' : Tree) : Prop where
  valid : validateSlug slug = .ok ()
  free : t.node (repositoryPath slug) = none
  made : calls.createDir (repositoryPath slug) t = some t'

/-- Git runs to its end, and fails or leaves what can be opened. -/
def Finishes (calls : CreationCalls) (slug : String)
    (ended : Except RunError (Option String) × Tree) : Prop :=
  (∃ stderr, ended.1 = .ok (some stderr)) ∨
  (ended.1 = .ok none ∧ calls.probe (repositoryPath slug) ended.2 = .ok ())

/-- Once the directory is made, `git init` runs to its end, and fails or leaves what can be
opened. -/
def Compensated (calls : CreationCalls) (slug : String) (t : Tree) : Prop :=
  ∀ t', Started calls slug t t' → Finishes calls slug (calls.init (repositoryPath slug) t')

/-- What `create` can come to. -/
inductive Created (calls : CreationCalls) (slug : String) (t : Tree) :
    Except GitError Path → Tree → Prop where
  /-- No directory is made. -/
  | refused {error : GitError} : (∀ t', ¬Started calls slug t t') →
      Created calls slug t (.error error) t
  /-- The directory stays without a repository. -/
  | abandoned {error : GitError} {t' : Tree} : t.node (repositoryPath slug) = none →
      t'.node (repositoryPath slug) = some .dir → (∀ name, error ≠ .alreadyExists name) →
      ¬Compensated calls slug t → Created calls slug t (.error error) t'
  /-- The directory is removed. -/
  | removed {error : GitError} {t' : Tree} : t'.node (repositoryPath slug) = none →
      Compensated calls slug t → Created calls slug t (.error error) t'
  /-- The repository is there. -/
  | opened {t' : Tree} : t.node (repositoryPath slug) = none →
      t'.node (repositoryPath slug) = some .dir → Compensated calls slug t →
      Created calls slug t (.ok (repositoryPath slug)) t'

section

variable {calls : CreationCalls} {slug : String} {t t' : Tree}

/-- A repository that is there is opened if Git agrees. -/
theorem openRepository_of_dir {probe : Except GitError Unit} (hvalid : validateSlug slug = .ok ())
    (hdir : t.node (repositoryPath slug) = some .dir) :
    openRepository probe slug t = probe.map fun _ => repositoryPath slug := by
  unfold openRepository
  rw [hvalid, hdir]
  cases probe with
  | error error => rfl
  | ok => rfl

theorem Started.mkdir (hlaw : calls.Lawful) (h : Started calls slug t t') :
    t'.node (repositoryPath slug) = some .dir ∧
      ∀ p, ¬repositoryPath slug <+: p → t'.node p = t.node p := by
  have hmkdir : t.mkdir (repositoryPath slug) = some t' := by
    rcases hlaw.createDir (repositoryPath slug) t with hnone | hsome
    · cases hnone.symm.trans h.made
    · rw [← hsome, h.made]
  refine ⟨?_, fun p hp => (mkdir_eq_some hmkdir).2 p ?_⟩
  · unfold Tree.mkdir at hmkdir
    split at hmkdir
    next =>
      cases hmkdir
      exact if_pos rfl
    next => cases hmkdir
  · rintro rfl
    exact hp (List.prefix_refl _)

theorem Started.unique {t₁ t₂ : Tree} (h : Started calls slug t t₁)
    (h' : Started calls slug t t₂) : t₁ = t₂ :=
  Option.some.inj (h.made.symm.trans h'.made)

theorem Started.compensated_iff (h : Started calls slug t t') :
    Compensated calls slug t ↔ Finishes calls slug (calls.init (repositoryPath slug) t') := by
  constructor
  · intro hcompensated
    exact hcompensated t' h
  · intro hfinishes t₂ h₂
    rwa [← h.unique h₂]

/-- A call is refused, or it goes on in a new directory. -/
theorem create_cases (calls : CreationCalls) (slug : String) (t : Tree) :
    ((∀ t', ¬Started calls slug t t') ∧ ∃ error, create calls slug t = (.error error, t)) ∨
    ∃ t', Started calls slug t t' ∧
      create calls slug t = finishCreate calls slug (calls.init (repositoryPath slug) t').1
        (calls.init (repositoryPath slug) t').2 := by
  unfold create
  cases hvalid : validateSlug slug with
  | error error =>
      left
      exact ⟨fun t' h => (by cases hvalid.symm.trans h.valid), error, rfl⟩
  | ok =>
      cases hfree : t.node (repositoryPath slug) with
      | some node =>
          left
          refine ⟨fun t' h => (by cases hfree.symm.trans h.free), .alreadyExists slug, ?_⟩
          simp [hfree]
      | none =>
          cases hmade : calls.createDir (repositoryPath slug) t with
          | none =>
              left
              refine ⟨fun t' h => (by cases hmade.symm.trans h.made), .io "create_dir", ?_⟩
              simp [hfree, hmade]
          | some t' =>
              right
              refine ⟨t', ⟨hvalid, hfree, hmade⟩, ?_⟩
              simp [hfree, hmade]

/-- Every call comes to one of the four. -/
theorem create_created (hlaw : calls.Lawful) (hremoves : calls.Removes) (slug : String)
    (t : Tree) : Created calls slug t (create calls slug t).1 (create calls slug t).2 := by
  rcases create_cases calls slug t with ⟨hnever, error, heq⟩ | ⟨t₁, hstarted, heq⟩
  · rw [heq]
    exact .refused hnever
  · have hdir : (calls.init (repositoryPath slug) t₁).2.node (repositoryPath slug) = some .dir :=
      (hlaw.init _ _).itself.trans (hstarted.mkdir hlaw).1
    have hiff := hstarted.compensated_iff
    rw [heq]
    cases hended : calls.init (repositoryPath slug) t₁ with
    | mk outcome t₂ =>
        rw [hended] at hdir hiff
        cases outcome with
        | error error =>
            refine .abandoned hstarted.free hdir ?_ ?_
            · intro name hname
              cases error with
              | unavailable => cases hname
              | io text => cases hname
            · rw [hiff]
              rintro (⟨stderr, hfails⟩ | ⟨hsucceeds, -⟩)
              · cases hfails
              · cases hsucceeds
        | ok said =>
            cases said with
            | some stderr =>
                refine .removed ?_ (hiff.mpr (.inl ⟨stderr, rfl⟩))
                exact (hlaw.removeDirAll _ t₂).gone (hremoves _ t₂)
            | none =>
                simp only [finishCreate]
                rw [openRepository_of_dir hstarted.valid hdir]
                cases hprobe : calls.probe (repositoryPath slug) t₂ with
                | ok => exact .opened hstarted.free hdir (hiff.mpr (.inr ⟨rfl, hprobe⟩))
                | error error =>
                    refine .abandoned hstarted.free hdir ?_ ?_
                    · rintro name rfl
                      exact hlaw.probe _ _ name hprobe
                    · rw [hiff]
                      rintro (⟨stderr, hfails⟩ | ⟨-, hopens⟩)
                      · cases hfails
                      · cases hprobe.symm.trans hopens

/-- Nothing changes outside the directory. -/
theorem create_outside (hlaw : calls.Lawful) (slug : String) (t : Tree) {p : Path}
    (hp : ¬repositoryPath slug <+: p) : (create calls slug t).2.node p = t.node p := by
  rcases create_cases calls slug t with ⟨-, error, heq⟩ | ⟨t₁, hstarted, heq⟩
  · rw [heq]
  · have hinit : (calls.init (repositoryPath slug) t₁).2.node p = t.node p :=
      ((hlaw.init _ _).outside p hp).trans ((hstarted.mkdir hlaw).2 p hp)
    rw [heq, ← hinit]
    cases hended : calls.init (repositoryPath slug) t₁ with
    | mk outcome t₂ =>
        cases outcome with
        | error error => rfl
        | ok said =>
            cases said with
            | none => rfl
            | some stderr => exact (hlaw.removeDirAll _ t₂).outside p hp

/-- A call leaves no directory behind if and only if it returns nowhere between the creation and
the removal. -/
theorem create_leaves_iff (hlaw : calls.Lawful) (hremoves : calls.Removes) (slug : String)
    (t : Tree) : LeavesNoDirectory slug t (create calls slug t) ↔ Compensated calls slug t := by
  have hcreated := create_created hlaw hremoves slug t
  cases hcreate : create calls slug t with
  | mk result t' =>
      rw [hcreate] at hcreated
      cases hcreated with
      | refused hnever =>
          refine iff_of_true (fun _ _ _ hfree => hfree) ?_
          intro t₁ hstarted
          exact absurd hstarted (hnever t₁)
      | abandoned hfree hdir hother hnot =>
          refine iff_of_false ?_ hnot
          intro hleaves
          cases hdir.symm.trans (hleaves _ rfl hother hfree)
      | removed hgone hcompensated =>
          exact iff_of_true (fun _ _ _ _ => hgone) hcompensated
      | opened hfree hdir hcompensated =>
          refine iff_of_true ?_ hcompensated
          intro error herror
          cases herror

end

end Cresix.Git
