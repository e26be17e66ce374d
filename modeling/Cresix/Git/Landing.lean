import Cresix.Git.FileCalls
import Cresix.Library.Abstraction

/-!
# Commits with their files on their branches

`commit_changes` with its files follows `commit_changes` on commits and
references alone, subprocess by subprocess (`commitFiles_follows`).  What was
proved of the one holds of the other: an update with its files is not lost
(`committed_files_stay`).
-/

namespace Cresix.Git

open Concurrent (Program Pool)
open History (Ancestor)
open Transition (System)

/-! ## The two models of a commit -/

section

variable {α : Type} {r : Repository} {naming : Naming}

/-- A subprocess that leaves commits and references alone. -/
theorem subprocess_follows {act : FileInput → ObjectStore → Except GitError α × ObjectStore}
    (hrepo : ∀ i t, (act i t).2.repo = t.repo)
    (hrefuses : ∀ i t error, (act i t).1 = .error error → error = refusal) :
    (subprocess act).Follows ObjectStore.repo (fun _ _ => True) command := by
  apply Program.Follows.step
  intro i t
  cases hfault : i.fault with
  | some fault =>
      refine ⟨i.toGitInput, ?_⟩
      cases fault with
      | spawn error => simp [FileInput.toGitInput, hfault, Fault.failure, Program.Corresponds]
      | fatal stderr => simp [FileInput.toGitInput, hfault, Fault.failure, Program.Corresponds]
  | none =>
      cases hresult : (act i t).1 with
      | ok value =>
          refine ⟨i.toGitInput, ?_⟩
          simp [FileInput.toGitInput, hfault, hrepo, Program.Corresponds]
      | error error =>
          refine ⟨⟨some (.fatal "fatal"), none, "", none⟩, ?_⟩
          simp [hrepo, Program.Corresponds, hrefuses i t error hresult, refusal]

theorem output_follows {answer : FileInput → ObjectStore → Option α} :
    (output answer).Follows ObjectStore.repo (fun _ _ => True) command := by
  apply subprocess_follows
  · exact fun _ _ => rfl
  · intro i t error h
    cases hanswer : answer i t with
    | none =>
        rw [hanswer] at h
        exact (Except.error.inj h).symm
    | some found =>
        rw [hanswer] at h
        cases h

theorem hashObject_follows {content : List UInt8} :
    (hashObject naming content).Follows ObjectStore.repo (fun _ _ => True) command := by
  apply subprocess_follows
  · intro i t
    show (t.keep (naming.oid content) content).repo = t.repo
    rw [ObjectStore.keep]
    split
    next => rfl
    next => rfl
  · intro i t error h
    cases h

theorem putFile_follows {index : Index} {change : FileChange} :
    (r.putFile naming index change).Follows ObjectStore.repo (fun _ _ => True)
      (writeChange change) := by
  cases change with
  | upsert path content => exact hashObject_follows.bind fun _ _ _ => output_follows
  | delete path => exact output_follows

theorem putFiles_follows {index : Index} {changes : List FileChange} :
    (r.putFiles naming index changes).Follows ObjectStore.repo (fun _ _ => True)
      (writeChanges changes) := by
  induction changes generalizing index with
  | nil => exact .pure trivial
  | cons change changes ih => exact putFile_follows.bind fun _ _ _ => ih

theorem loadTree_follows {parent : Option String} :
    (loadTree parent).Follows ObjectStore.repo (fun _ _ => True) (readTree parent) := by
  cases parent with
  | none => exact .pure trivial
  | some oid => exact output_follows

theorem writeCommit_follows {parents : List String} {tree : Index} {message : String}
    {identity : CommitIdentity} :
    (writeCommit naming parents tree message identity).Follows ObjectStore.repo Eq
      (commitTree parents) := by
  apply Program.Follows.step
  intro i t
  cases hfault : i.fault with
  | some fault =>
      refine ⟨i.toGitInput, ?_⟩
      cases fault with
      | spawn error => simp [FileInput.toGitInput, hfault, Fault.failure, Program.Corresponds]
      | fatal stderr => simp [FileInput.toGitInput, hfault, Fault.failure, Program.Corresponds]
  | none =>
      dsimp only
      split
      next store hwritten =>
        obtain ⟨⟨name, email⟩, -, hwritten⟩ := Option.bind_eq_some_iff.mp hwritten
        obtain ⟨plain, -, hwritten⟩ := Option.bind_eq_some_iff.mp hwritten
        have hrepo := repo_of_write hwritten
        refine ⟨i.toGitInput, ?_⟩
        simp [FileInput.toGitInput, hfault, hrepo, Program.Corresponds]
      next =>
        refine ⟨⟨some (.fatal "fatal"), none, "", none⟩, ?_⟩
        simp [Program.Corresponds, refusal]

theorem onRepo_follows (p : GitM α) : (onRepo p).Follows ObjectStore.repo Eq p :=
  Program.Follows.lift (fun _ _ => rfl) p

variable {branch message : String} {startRevision : Option String} {changes : List FileChange}
  {identity : CommitIdentity}

theorem commitFilesOnto_follows {branchRef : String} {current parent : Option String} :
    (r.commitFilesOnto naming branchRef current parent changes message identity).Follows
      ObjectStore.repo Eq (r.commitOnto branchRef current parent changes) := by
  apply output_follows.bind
  intro _ _ _
  apply loadTree_follows.bind
  intro index _ _
  apply putFiles_follows.bind
  intro tree _ _
  apply output_follows.bind
  intro _ _ _
  apply writeCommit_follows.bind
  rintro oid _ rfl
  apply (onRepo_follows _).bind
  intro _ _ _
  exact .pure rfl

/-- Both models of `commit_changes` run the same subprocesses. -/
theorem commitFiles_follows :
    (r.commitFiles naming branch startRevision changes message identity).Follows
      ObjectStore.repo Eq
      (r.commitChanges branch startRevision changes message identity) := by
  apply Program.Follows.check.bind
  intro _ _ _
  apply Program.Follows.check.bind
  intro _ _ _
  apply Program.Follows.check.bind
  intro _ _ _
  apply Program.Follows.check.bind
  intro _ _ _
  apply (onRepo_follows _).bind
  rintro current _ rfl
  apply (onRepo_follows _).bind
  rintro parent _ rfl
  exact commitFilesOnto_follows

end

/-! ## Advancing branches -/

/-- Commits stay, and references move to descendants. -/
def Advances (s t : ObjectStore) : Prop := Advance s.repo t.repo

/-- A commit is in its branch. -/
def Lands : FileCall → FileAnswer → ObjectStore → Prop
  | .commit branch _ _ _ _, .committed oid, t => Landed t.repo ("refs/heads/" ++ branch) oid
  | _, _, _ => True

section

variable {α β : Type} {r : Repository} {naming : Naming} {limits : ReadLimits}
  {s t : ObjectStore}

theorem Lands.advances {call : FileCall} {answer : FileAnswer} (h : Lands call answer s)
    (hst : Advances s t) : Lands call answer t := by
  unfold Lands at h ⊢
  split
  next => exact Landed.advance h hst
  next => trivial

theorem advances_bind {p : FileM α} {k : α → FileM β} {Q' : β → ObjectStore → Prop}
    (h : p.Ensures Advances Advances (fun _ _ => True) s)
    (hk : ∀ value t, (k value).Ensures Advances Advances Q' t) :
    (p >>= k).Ensures Advances Advances Q' s :=
  Program.Ensures.bind (R := Advances) (fun a => Advance.refl a.repo) (fun _ _ _ => Advance.trans)
    h fun value t _ _ => hk value t

theorem output_advances {answer : FileInput → ObjectStore → Option α} :
    (output answer).Ensures Advances Advances (fun _ _ => True) s := by
  apply Program.Ensures.step
  intro t i _
  refine ⟨?_, fun _ _ _ => trivial⟩
  split
  next => exact Advance.refl t.repo
  next => exact Advance.refl t.repo
  next => exact Advance.refl t.repo

theorem check_advances {result : Except GitError α} :
    (Program.check result : FileM α).Ensures Advances Advances (fun _ _ => True) s :=
  Program.Ensures.check fun _ _ => trivial

theorem resolveCommit_advances {revision : String} :
    (onRepo (r.resolveCommit revision)).Ensures Advances Advances (fun _ _ => True) s :=
  (onRepo_follows _).ensures resolveCommit_ensures fun _ _ _ _ _ => trivial

theorem readFileAt_advances {oid path : String} :
    (readFileAt naming limits oid path).Ensures Advances Advances (fun _ _ => True) s := by
  apply advances_bind output_advances
  intro listing t
  apply advances_bind check_advances
  intro blob t
  exact output_advances

theorem listTreeAt_advances {oid : String} {recursive : Bool} :
    (listTreeAt naming oid recursive).Ensures Advances Advances (fun _ _ => True) s := by
  apply advances_bind output_advances
  intro listing t
  exact check_advances

theorem listCommitsAt_advances {oid : String} {limit : Nat} :
    (listCommitsAt oid limit).Ensures Advances Advances (fun _ _ => True) s := by
  have hloop : ∀ (lines : List (List UInt8)) (t : ObjectStore),
      (readCommits lines).Ensures Advances Advances (fun _ _ => True) t := by
    intro lines
    induction lines with
    | nil => exact fun _ => trivial
    | cons line lines ih =>
        intro t
        apply advances_bind check_advances
        intro oid t
        refine advances_bind (advances_bind output_advances fun _ _ => check_advances) ?_
        intro commit t
        apply advances_bind (ih t)
        exact fun _ _ => trivial
  apply advances_bind output_advances
  exact fun listing t => hloop _ t

/-- A call advances the branches, and a commit lands. -/
theorem serveFiles_lands (call : FileCall) (s : ObjectStore) :
    (r.serveFiles naming limits call).Ensures Advances Advances (Lands call) s := by
  cases call with
  | commit branch startRevision changes message identity =>
      have hfollows : (r.serveFiles naming limits
          (.commit branch startRevision changes message identity)).Follows ObjectStore.repo
            (fun answer answer' => ∃ oid, answer = .committed oid ∧ answer' = .committed oid)
            (r.serve (.commitChanges branch startRevision changes message identity)) := by
        apply commitFiles_follows.bind
        rintro oid _ rfl
        exact .pure ⟨oid, rfl, rfl⟩
      apply hfollows.ensures (commitChanges_ensures r branch startRevision changes message
        identity s.repo)
      rintro _ _ t ⟨oid, rfl, rfl⟩ hlanded
      exact hlanded oid List.mem_cons_self
  | read revision path =>
      apply advances_bind check_advances
      intro _ t
      apply advances_bind resolveCommit_advances
      intro oid t
      apply advances_bind readFileAt_advances.caught
      exact fun _ _ => trivial
  | list revision recursive =>
      apply advances_bind resolveCommit_advances
      intro oid t
      apply advances_bind listTreeAt_advances.caught
      exact fun _ _ => trivial
  | log revision limit =>
      apply advances_bind check_advances
      intro _ t
      apply advances_bind resolveCommit_advances
      intro oid t
      apply advances_bind listCommitsAt_advances.caught
      exact fun _ _ => trivial

end

/-! ## Runs -/

/-- What else happens to the repository advances its branches. -/
def OutsideAdvances (calls : FileCalls) (turn : FileTurn) (calls' : FileCalls) : Prop :=
  turn = .outside → Advances calls.state calls'.state

section

variable {r : Repository} {naming : Naming} {limits : ReadLimits} {calls calls' : FileCalls}
  {turn : FileTurn}

/-- The step lemma. -/
theorem lands_step (h : calls.Promises Advances Lands)
    (hstep : (r.fileSystem naming limits).step calls turn calls')
    (houtside : OutsideAdvances calls turn calls') : calls'.Promises Advances Lands := by
  have hstable : ∀ call answer s t, Lands call answer s → Advances s t → Lands call answer t :=
    fun _ _ _ _ hlands hst => hlands.advances hst
  have htrans : ∀ a b c, Advances a b → Advances b c → Advances a c := fun _ _ _ => Advance.trans
  rcases hstep with hturn | ⟨rfl, hthreads, -⟩
  · cases turn with
    | arrive call =>
        obtain rfl := Option.some.inj hturn
        exact h.start (serveFiles_lands call calls.state)
    | run n i => exact (h.run (fun a => Advance.refl a.repo) htrans hstable hturn).2
    | outside => cases hturn
  · have hpromises := h.env htrans hstable (houtside rfl)
    rw [← hthreads] at hpromises
    exact hpromises

end

end Cresix.Git
