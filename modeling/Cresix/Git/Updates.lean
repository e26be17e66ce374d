import Cresix.Git.Repository
import Cresix.Library.Transition

/-!
# No lost update

Any number of commits and merges work on one repository, one subprocess at a
time.  All of them rely on, and guarantee, that a repository only advances
(`Advance`): commits stay, and a reference moves only to a descendant.  The
compare-and-swap of `git update-ref` is what makes a move an advance.

`rev-parse` also answers for names that are no reference.  A merge whose target
branch does not exist may then find its source in what Git reads instead, and
report success without a branch.  `landed_of_found` rules that out.
-/

namespace Cresix.Git

open Concurrent (Program Pool Thread)
open History (Node Has Grown Ancestor)
open Transition (System)

/-! ## Repositories advance -/

/-- Commits stay, and references move to descendants. -/
structure Advance (s t : Repo) : Prop where
  commits : s.commits ⊆ t.commits
  refs : ∀ name oid, s.refs.lookup name = some oid →
    ∃ tip, t.refs.lookup name = some tip ∧ Ancestor t.commits oid tip

namespace Advance

variable {s t u : Repo} {a b : String}

theorem refl (s : Repo) : Advance s s where
  commits := List.Subset.refl _
  refs name oid h := ⟨oid, h, .refl (s.exist name oid h)⟩

theorem trans (h : Advance s t) (h' : Advance t u) : Advance s u where
  commits := List.Subset.trans h.commits h'.commits
  refs name oid hoid := by
    obtain ⟨tip, htip, hold⟩ := h.refs name oid hoid
    obtain ⟨tip', htip', hnew⟩ := h'.refs name tip htip
    exact ⟨tip', htip', (hold.mono h'.commits).trans hnew⟩

theorem has (h : Advance s t) (ha : Has s.commits a) : Has t.commits a := ha.mono h.commits

theorem ancestor (h : Advance s t) (hab : Ancestor s.commits a b) : Ancestor t.commits a b :=
  hab.mono h.commits

end Advance

/-- The commit is in the history of the reference. -/
def Landed (repo : Repo) (name oid : String) : Prop :=
  ∃ tip, repo.refs.lookup name = some tip ∧ Ancestor repo.commits oid tip

theorem Landed.advance {s t : Repo} {name oid : String} (h : Landed s name oid)
    (hst : Advance s t) : Landed t name oid := by
  obtain ⟨tip, htip, hancestor⟩ := h
  obtain ⟨tip', htip', hnew⟩ := hst.refs name tip htip
  exact ⟨tip', htip', (hst.ancestor hancestor).trans hnew⟩

theorem Landed.older {s : Repo} {name oid older : String} (h : Landed s name oid)
    (hancestor : Ancestor s.commits older oid) : Landed s name older := by
  obtain ⟨tip, htip, hoid⟩ := h
  exact ⟨tip, htip, hancestor.trans hoid⟩

/-! ## What the subprocesses do to the repository -/

namespace Repo

variable {repo repo' : Repo} {oid name old zero : String} {parents : List String}

theorem resolve_has {reading : Option String} (h : repo.resolve reading name = some oid) :
    Has repo.commits oid := by
  unfold resolve at h
  cases hrules : (rules name).findSome? repo.refs.lookup with
  | some found =>
      rw [hrules] at h
      cases h
      obtain ⟨rule, _, hrule⟩ := List.exists_of_findSome?_eq_some hrules
      exact repo.exist rule oid hrule
  | none =>
      rw [hrules] at h
      obtain ⟨_, hhas⟩ := Option.filter_eq_some_iff.mp h
      exact of_decide_eq_true hhas

theorem resolve_of_lookup {reading : Option String} (h : repo.refs.lookup name = some oid) :
    repo.resolve reading name = some oid := by
  simp [resolve, rules, h]

theorem object_has {revision : String} (h : repo.object revision = some oid) :
    Has repo.commits oid :=
  of_decide_eq_true (Option.filter_eq_some_iff.mp h).2

/-- A commit is written with its parents. -/
theorem mem_of_write (h : repo.write oid parents = some repo') :
    ⟨oid, parents⟩ ∈ repo'.commits ∧ repo'.refs = repo.refs ∧ repo.commits ⊆ repo'.commits := by
  unfold write at h
  split at h
  next hmem =>
    cases h
    exact ⟨hmem, rfl, List.Subset.refl _⟩
  next =>
    split at h
    next =>
      cases h
      exact ⟨List.mem_cons_self, rfl, List.subset_cons_self _ _⟩
    next => cases h

theorem advance_write (h : repo.write oid parents = some repo') : Advance repo repo' := by
  obtain ⟨_, hrefs, hcommits⟩ := mem_of_write h
  refine ⟨hcommits, ?_⟩
  intro name oid' hlookup
  exact ⟨oid', hrefs ▸ hlookup, .refl ((repo.exist name oid' hlookup).mono hcommits)⟩

/-- The compare-and-swap: a move from the expected value to a descendant of it
is an advance. -/
theorem advance_point (h : Has repo.commits oid) (hexpects : repo.Expects zero name old)
    (hancestor : old ≠ zero → Ancestor repo.commits old oid) :
    Advance repo (repo.point name oid h) := by
  refine ⟨List.Subset.refl _, ?_⟩
  intro name' oid' hlookup
  simp only [point, Finmap.lookup_insert_eq_ite]
  split
  next heq =>
    subst heq
    unfold Expects at hexpects
    split at hexpects
    next => cases hlookup.symm.trans hexpects
    next hne =>
      obtain rfl := Option.some.inj (hlookup.symm.trans hexpects)
      exact ⟨oid, rfl, hancestor hne⟩
  next => exact ⟨oid', hlookup, .refl (repo.exist name' oid' hlookup)⟩

theorem landed_point (h : Has repo.commits oid) : Landed (repo.point name oid h) name oid := by
  refine ⟨oid, ?_, .refl h⟩
  simp [point]

end Repo

/-! ## What the sections ensure -/

section Sections

variable {α : Type} {Q : α → Repo → Prop} {s : Repo} {r : Repository}

/-- The rule for a subprocess. -/
theorem ensures_git {fatal : String → Except GitError α}
    {act : GitInput → Repo → Except GitError α × Repo}
    (hfatal : ∀ stderr value t, Advance s t → fatal stderr = .ok value → Q value t)
    (hact : ∀ i t, Advance s t → Advance t (act i t).2 ∧
      ∀ value, (act i t).1 = .ok value → Q value (act i t).2) :
    (git fatal act).Ensures Advance Advance Q s := by
  apply Program.Ensures.step
  intro t i hst
  split
  next => exact ⟨.refl t, fun _ value h => by cases h⟩
  next stderr _ => exact ⟨.refl t, fun _ value h => hfatal stderr value t hst h⟩
  next => exact ⟨(hact i t hst).1, fun _ => (hact i t hst).2⟩

theorem ensures_bind {β : Type} {p : GitM α} {k : α → GitM β} {Q' : β → Repo → Prop}
    (h : p.Ensures Advance Advance Q s)
    (hk : ∀ value t, Advance s t → Q value t → (k value).Ensures Advance Advance Q' t) :
    (p >>= k).Ensures Advance Advance Q' s :=
  h.bind .refl (fun _ _ _ => .trans) hk

theorem ensures_pure {value : α} (h : Q value s) :
    (pure value : GitM α).Ensures Advance Advance Q s := h

theorem command_ensures : command.Ensures Advance Advance (fun _ _ => True) s := by
  apply ensures_git
  · intro stderr value t _ _
    trivial
  · intro i t _
    exact ⟨.refl t, fun _ _ => trivial⟩

theorem resolveRefOptional_ensures {reference : String} :
    (resolveRefOptional reference).Ensures Advance Advance
      (fun current t => ∀ oid, current = some oid → Has t.commits oid) s := by
  apply ensures_git
  · intro stderr value t _ h
    cases h
  · intro i t _
    refine ⟨.refl t, ?_⟩
    intro value h oid hoid
    subst hoid
    exact Repo.resolve_has (Except.ok.inj h)

theorem revParseCommit_ensures {revision : String} {find : GitInput → Repo → Option String}
    (h : ∀ i t oid, find i t = some oid → Has t.commits oid) :
    (revParseCommit revision find).Ensures Advance Advance (fun oid t => Has t.commits oid) s := by
  apply ensures_git
  · intro stderr value t _ hanswer
    cases hanswer
  · intro i t _
    refine ⟨.refl t, ?_⟩
    intro value hanswer
    cases hfind : find i t with
    | none => simp [hfind] at hanswer
    | some oid =>
        simp only [hfind, Option.elim_some, Except.ok.injEq] at hanswer
        exact hanswer ▸ h i t oid hfind

theorem resolveCommit_ensures {revision : String} :
    (r.resolveCommit revision).Ensures Advance Advance (fun oid t => Has t.commits oid) s := by
  unfold Repository.resolveCommit
  split
  next =>
    apply revParseCommit_ensures
    intro i t oid h
    split at h
    next => exact Repo.object_has h
    next => exact Repo.resolve_has h
  next =>
    apply ensures_bind (Program.Ensures.check (Q := fun _ _ => True) fun _ _ => trivial)
    intro _ t _ _
    apply revParseCommit_ensures
    intro i u oid h
    exact Repo.resolve_has h

theorem isAncestor_ensures {ancestor descendant : String} :
    (isAncestor ancestor descendant).Ensures Advance Advance
      (fun answer t => answer = true → Ancestor t.commits ancestor descendant) s := by
  apply ensures_git
  · intro stderr value t _ h
    cases h
  · intro i t _
    split
    next =>
      refine ⟨.refl t, ?_⟩
      intro value h hvalue
      subst hvalue
      exact (History.isAncestor_iff t.grown).mp (Except.ok.inj h)
    next => exact ⟨.refl t, fun value h => by cases h⟩

/-- A commit that is written descends from its parents. -/
theorem commitTree_ensures {parents : List String} :
    (commitTree parents).Ensures Advance Advance
      (fun oid t => Has t.commits oid ∧ ∀ p ∈ parents, Ancestor t.commits p oid) s := by
  apply ensures_git
  · intro stderr value t _ h
    cases h
  · intro i t _
    cases hwrite : t.write i.oid parents with
    | none => exact ⟨.refl t, fun value h => by cases h⟩
    | some t' =>
        refine ⟨Repo.advance_write hwrite, ?_⟩
        intro value h
        cases h
        have hmem := (Repo.mem_of_write hwrite).1
        refine ⟨⟨_, hmem, rfl⟩, ?_⟩
        intro p hp
        exact .parent hmem hp (.refl (t'.grown.has_parent hmem hp))

/-- A reference that is moved from a commit to its descendant has that one in
its history. -/
theorem atomicUpdate_ensures {reference new old : String} (hnew : Has s.commits new)
    (hold : old ≠ r.zeroOid → Ancestor s.commits old new) :
    (r.atomicUpdate reference new old).Ensures Advance Advance
      (fun _ t => Landed t reference new) s := by
  have hfailed : ∀ stderr value, (if Rust.contains stderr "cannot lock ref" then
      (.error .concurrentUpdate : Except GitError Unit) else .error (commandError stderr)) ≠
      .ok value := by
    intro stderr value h
    split at h
    next => cases h
    next => cases h
  apply ensures_git
  · intro stderr value t _ h
    exact absurd h (hfailed stderr value)
  · intro i t hst
    have hhas : Has t.commits new := hst.has hnew
    rw [dif_pos hhas]
    split
    next hexpects =>
      refine ⟨Repo.advance_point hhas hexpects fun hne => hst.ancestor (hold hne), ?_⟩
      intro value _
      exact Repo.landed_point hhas
    next =>
      refine ⟨.refl t, ?_⟩
      intro value h
      exact absurd h (hfailed "cannot lock ref" value)

end Sections

/-! ## What the calls ensure -/

section Calls

variable {s : Repo} {r : Repository}

theorem writeChange_ensures {change : FileChange} :
    (writeChange change).Ensures Advance Advance (fun _ _ => True) s := by
  cases change with
  | upsert path content => exact ensures_bind command_ensures fun _ _ _ _ => command_ensures
  | delete path => exact command_ensures

theorem writeChanges_ensures {changes : List FileChange} :
    (writeChanges changes).Ensures Advance Advance (fun _ _ => True) s := by
  induction changes generalizing s with
  | nil => exact ensures_pure trivial
  | cons change changes ih => exact ensures_bind writeChange_ensures fun _ _ _ _ => ih

theorem readTree_ensures {parent : Option String} :
    (readTree parent).Ensures Advance Advance (fun _ _ => True) s := by
  cases parent with
  | some oid => exact command_ensures
  | none => exact ensures_pure trivial

/-- The parent is there, and it is the tip that was read, if one was. -/
theorem parentOf_ensures {current startRevision : Option String}
    (hcurrent : ∀ oid, current = some oid → Has s.commits oid) :
    (r.parentOf current startRevision).Ensures Advance Advance
      (fun parent t => (∀ p, parent = some p → Has t.commits p) ∧
        ∀ oid, current = some oid → parent = some oid) s := by
  cases current with
  | some oid => exact ensures_pure ⟨hcurrent, fun _ h => h⟩
  | none =>
      cases startRevision with
      | some revision =>
          apply ensures_bind resolveCommit_ensures
          intro oid t _ hhas
          apply ensures_pure
          constructor
          · intro p hp
            cases hp
            exact hhas
          · intro oid' hoid
            cases hoid
      | none =>
          apply ensures_pure
          constructor
          · intro p hp
            cases hp
          · intro oid hoid
            cases hoid

theorem commitOnto_ensures {branchRef : String} {current parent : Option String}
    {changes : List FileChange} (hparent : ∀ oid, current = some oid → parent = some oid) :
    (r.commitOnto branchRef current parent changes).Ensures Advance Advance
      (fun oid t => Landed t branchRef oid) s := by
  have hcommit : ∀ t, (commitTree parent.toList >>= fun newOid =>
      r.atomicUpdate branchRef newOid (current.getD r.zeroOid) >>= fun _ =>
        pure newOid).Ensures Advance Advance (fun oid t => Landed t branchRef oid) t := by
    intro t
    apply ensures_bind commitTree_ensures
    rintro newOid u _ ⟨hhas, hparents⟩
    apply ensures_bind (atomicUpdate_ensures hhas ?_)
    · intro _ v _ hlanded
      exact ensures_pure hlanded
    · intro hne
      cases current with
      | none => exact absurd rfl hne
      | some oid =>
          rw [hparent oid rfl] at hparents
          exact hparents oid (by simp)
  apply ensures_bind command_ensures
  intro _ t _ _
  apply ensures_bind readTree_ensures
  intro _ u _ _
  apply ensures_bind writeChanges_ensures
  intro _ v _ _
  apply ensures_bind command_ensures
  intro _ w _ _
  exact hcommit w

/-- The commits that must be in the history of the target after a merge. -/
def MergeResult.commits (source : String) : MergeResult → List String
  | alreadyUpToDate oid => [oid, source]
  | fastForward oid => [oid, source]
  | merged oid => [oid, source]
  | conflicted _ => []

theorem mergeTree_ensures : mergeTree.Ensures Advance Advance (fun _ _ => True) s := by
  apply ensures_git
  · intro stderr value t _ _
    trivial
  · intro i t _
    exact ⟨.refl t, fun _ _ => trivial⟩

theorem mergeCommits_ensures {targetRef target source : String} :
    (r.mergeCommits targetRef target source).Ensures Advance Advance
      (fun result t => ∀ c ∈ result.commits source, Landed t targetRef c) s := by
  apply ensures_bind mergeTree_ensures
  intro conflicts t _ _
  cases conflicts with
  | some paths =>
      apply ensures_pure
      intro c hc
      cases hc
  | none =>
      apply ensures_bind commitTree_ensures
      rintro merged u _ ⟨hhas, hparents⟩
      have htarget : Ancestor u.commits target merged := hparents target (by simp)
      have hsource : Ancestor u.commits source merged := hparents source (by simp)
      apply ensures_bind (atomicUpdate_ensures hhas fun _ => htarget)
      intro _ v huv hlanded
      apply ensures_pure
      intro c hc
      simp only [MergeResult.commits, List.mem_cons, List.not_mem_nil, or_false] at hc
      rcases hc with rfl | rfl
      · exact hlanded
      · exact hlanded.older (huv.ancestor hsource)

/-- A merge into a branch that has the target lands the source there. -/
theorem mergeInto_ensures {targetRef target source : String}
    (hlanded : Landed s targetRef target) (hsource : Has s.commits source) :
    (r.mergeInto targetRef target source).Ensures Advance Advance
      (fun result t => ∀ c ∈ result.commits source, Landed t targetRef c) s := by
  apply ensures_bind isAncestor_ensures
  intro upToDate t hst hup
  cases upToDate with
  | true =>
      apply ensures_pure
      intro c hc
      simp only [MergeResult.commits, List.mem_cons, List.not_mem_nil, or_false] at hc
      rcases hc with rfl | rfl
      · exact hlanded.advance hst
      · exact (hlanded.advance hst).older (hup rfl)
  | false =>
      apply ensures_bind isAncestor_ensures
      intro forward u htu hforward
      cases forward with
      | true =>
          apply ensures_bind (atomicUpdate_ensures (htu.has (hst.has hsource))
            fun _ => hforward rfl)
          intro _ v _ hsourceLanded
          apply ensures_pure
          intro c hc
          simp only [MergeResult.commits, List.mem_cons, List.not_mem_nil, or_false,
            or_self] at hc
          exact hc ▸ hsourceLanded
      | false => exact mergeCommits_ensures

end Calls

/-! ## Calls in any order -/

/-- A call. -/
inductive Call where
  | commitChanges (branch : String) (startRevision : Option String) (changes : List FileChange)
      (message : String) (identity : CommitIdentity)
  | merge (targetBranch sourceRevision message : String) (identity : CommitIdentity)

/-- The branch that a call works on. -/
def Call.branch : Call → String
  | commitChanges branch _ _ _ _ => branch
  | merge targetBranch _ _ _ => targetBranch

/-- What a call that succeeds gives back; a merge with its source. -/
inductive Answer where
  | committed (oid : String)
  | merged (result : MergeResult) (source : String)
deriving DecidableEq, Repr

/-- The commits that a call says are in the branch. -/
def Answer.commits : Answer → List String
  | committed oid => [oid]
  | merged result source => result.commits source

/-- The program of a call. -/
def Repository.serve (r : Repository) : Call → GitM Answer
  | .commitChanges branch startRevision changes message identity => do
      let oid ← r.commitChanges branch startRevision changes message identity
      pure (.committed oid)
  | .merge targetBranch sourceRevision message identity => do
      let (result, source) ← r.merge targetBranch sourceRevision message identity
      pure (.merged result source)

/-- Where a merge reads its target and Git answers, the target branch exists. -/
def Found (call : Call) (i : GitInput) (repo : Repo) : Prop :=
  match call with
  | .commitChanges _ _ _ _ _ => True
  | .merge targetBranch _ _ _ =>
      repo.resolve i.reading ("refs/heads/" ++ targetBranch) = none ∨
        (repo.refs.lookup ("refs/heads/" ++ targetBranch)).isSome

/-- The commits of an answer are in the branch of its call. -/
def AllLanded (call : Call) (answer : Answer) (repo : Repo) : Prop :=
  ∀ c ∈ answer.commits, Landed repo ("refs/heads/" ++ call.branch) c

theorem commitChanges_ensures (r : Repository) (branch : String)
    (startRevision : Option String) (changes : List FileChange) (message : String)
    (identity : CommitIdentity) (s : Repo) :
    (r.serve (.commitChanges branch startRevision changes message identity)).Ensures
      Advance Advance (AllLanded (.commitChanges branch startRevision changes message identity))
      s := by
  have hcheck : ∀ {result : Except GitError Unit} {t : Repo},
      (Program.check result : GitM Unit).Ensures Advance Advance (fun _ _ => True) t :=
    Program.Ensures.check fun _ _ => trivial
  have hcommit : (r.commitChanges branch startRevision changes message identity).Ensures
      Advance Advance (fun oid t => Landed t ("refs/heads/" ++ branch) oid) s := by
    apply ensures_bind hcheck
    intro _ t _ _
    apply ensures_bind hcheck
    intro _ t _ _
    apply ensures_bind hcheck
    intro _ t _ _
    apply ensures_bind hcheck
    intro _ t _ _
    apply ensures_bind resolveRefOptional_ensures
    intro current u _ hcurrent
    apply ensures_bind (parentOf_ensures hcurrent)
    intro parent v _ hparent
    exact commitOnto_ensures hparent.2
  apply ensures_bind hcommit
  intro oid t _ hlanded
  apply ensures_pure
  intro c hc
  rw [List.mem_singleton.mp hc]
  exact hlanded

/-- What a merge does with the target it has read. -/
theorem mergeTarget_ensures {r : Repository} {targetBranch sourceRevision message : String}
    {identity : CommitIdentity} {target : String} {s : Repo}
    (hlanded : Landed s ("refs/heads/" ++ targetBranch) target) :
    ((r.resolveCommit sourceRevision >>= fun source =>
      r.mergeInto ("refs/heads/" ++ targetBranch) target source >>= fun result =>
        pure (result, source)) >>= fun answer =>
          pure (Answer.merged answer.1 answer.2) : GitM Answer).Ensures Advance Advance
      (AllLanded (.merge targetBranch sourceRevision message identity)) s := by
  have hmerge : (r.resolveCommit sourceRevision >>= fun source =>
      r.mergeInto ("refs/heads/" ++ targetBranch) target source >>= fun result =>
        pure (result, source) : GitM (MergeResult × String)).Ensures Advance Advance
      (fun answer t => ∀ c ∈ answer.1.commits answer.2,
        Landed t ("refs/heads/" ++ targetBranch) c) s := by
    apply ensures_bind resolveCommit_ensures
    intro source t hst hsource
    apply ensures_bind (mergeInto_ensures (hlanded.advance hst) hsource)
    intro result u _ hresult
    exact ensures_pure hresult
  apply ensures_bind hmerge
  intro answer t _ hanswer
  exact ensures_pure hanswer

theorem merge_begins (r : Repository) (targetBranch sourceRevision message : String)
    (identity : CommitIdentity) :
    (r.serve (.merge targetBranch sourceRevision message identity)).Begins
      (Found (.merge targetBranch sourceRevision message identity)) Advance
      (AllLanded (.merge targetBranch sourceRevision message identity)) := by
  simp only [Repository.serve, Repository.merge, Program.sequence_assoc]
  apply Program.Begins.check_bind
  intro _ _
  apply Program.Begins.check_bind
  intro _ _
  apply Program.Begins.check_bind
  intro _ _
  apply Program.Begins.step_bind
  intro s i hfound
  split
  next => exact ⟨.refl s, fun value h => by cases h⟩
  next => exact ⟨.refl s, fun value h => by cases h⟩
  next =>
    refine ⟨.refl s, ?_⟩
    intro current hcurrent
    obtain rfl := Except.ok.inj hcurrent
    cases hresolve : s.resolve i.reading ("refs/heads/" ++ targetBranch) with
    | none => trivial
    | some target =>
        rcases hfound with hnone | hsome
        · cases hresolve.symm.trans hnone
        · obtain ⟨tip, htip⟩ := Option.isSome_iff_exists.mp hsome
          obtain rfl := Option.some.inj ((Repo.resolve_of_lookup htip).symm.trans hresolve)
          exact mergeTarget_ensures ⟨tip, htip, .refl (s.exist _ _ htip)⟩

theorem serve_begins (r : Repository) (call : Call) :
    (r.serve call).Begins (Found call) Advance (AllLanded call) := by
  cases call with
  | commitChanges branch startRevision changes message identity =>
      apply Program.Begins.of_ensures .refl
      exact commitChanges_ensures r branch startRevision changes message identity
  | merge targetBranch sourceRevision message identity =>
      exact merge_begins r targetBranch sourceRevision message identity

/-! ## Runs -/

/-- The calls on a repository, and what it keeps. -/
abbrev Calls := Pool Repo GitInput GitError Answer Call

/-- A call arrives, or the `n`th call runs its next subprocess. -/
inductive Turn where
  | arrive (call : Call)
  | run (n : Nat) (i : GitInput)

/-- One step of the calls. -/
def Repository.step (r : Repository) (calls : Calls) : Turn → Option Calls
  | .arrive call => some (calls.start r.serve call)
  | .run n i => calls.run n i

/-- The calls in any order, on any repository. -/
def Repository.system (r : Repository) : System Calls Turn :=
  .ofOption (fun calls => calls.threads = []) r.step

/-- Each merge that begins finds its target branch, if Git finds anything. -/
def FindsTarget (r : Repository) (calls : Calls) (turn : Turn) (_ : Calls) : Prop :=
  ∀ n i thread, turn = .run n i → calls.threads[n]? = some thread →
    thread.program = r.serve thread.request → Found thread.request i calls.state

/-- The answer of every call that has succeeded is in its branch. -/
def NoLostUpdate (calls : Calls) : Prop :=
  ∀ thread ∈ calls.threads, ∀ answer, thread.program = .done answer →
    ∀ c ∈ answer.commits, ∃ tip,
      calls.state.refs.lookup ("refs/heads/" ++ thread.request.branch) = some tip ∧
        Ancestor calls.state.commits c tip

/-- The step lemma: a call that arrives or runs on keeps what the others have
been promised. -/
theorem holds_step {r : Repository} {calls calls' : Calls} {turn : Turn}
    (h : Pool.Holds r.serve Advance AllLanded calls) (hstep : r.step calls turn = some calls')
    (hfinds : FindsTarget r calls turn calls') : Pool.Holds r.serve Advance AllLanded calls' := by
  cases turn with
  | arrive call =>
      obtain rfl := Option.some.inj hstep
      exact h.start call
  | run n i =>
      have hstable : ∀ call answer s t, AllLanded call answer s → Advance s t →
          AllLanded call answer t := by
        intro call answer s t hlanded hst c hc
        exact (hlanded c hc).advance hst
      refine (h.run .refl (fun _ _ _ => .trans) hstable (serve_begins r) hstep ?_).2
      intro thread hthread hbegin
      exact hfinds n i thread rfl hthread hbegin

/-- No update is lost in a run whose merges find their target branches: at
every later time the branch has the commits of each call that succeeded. -/
theorem no_lost_update (r : Repository) {calls : Calls}
    (h : (r.system.restrict (FindsTarget r)).Reachable calls) : NoLostUpdate calls := by
  have hholds : Pool.Holds r.serve Advance AllLanded calls := by
    apply h.invariant
    · intro s hs thread hthread
      rw [show s.threads = [] from hs] at hthread
      cases hthread
    · intro s turn t hs hst
      exact holds_step hs hst.1 hst.2
  intro thread hthread answer hdone c hc
  exact hholds.result (serve_begins r) hthread hdone c hc

/-! ## Two runs -/

/-- A repository with the default limits and SHA-1 identifiers. -/
def sha1 : Repository := ⟨.default, 40⟩

/-- A commit identifier. -/
def someOid : String := "a2e2cd87815a29cc45214cb3b2df0d10dc7a70fa"

/-- A subprocess that succeeds. -/
def quiet : GitInput := ⟨none, none, someOid, none⟩

/-- An identity. -/
def tester : CommitIdentity := ⟨"C6 Test", "test@c6.local"⟩

/-- The answer of the first call, once it has one. -/
def firstAnswer (calls : Calls) : Option Answer :=
  calls.threads.head?.bind fun thread => thread.program.outcome.bind Except.toOption

theorem done_of_firstAnswer {calls : Calls} {answer : Answer}
    (h : firstAnswer calls = some answer) :
    ∃ thread ∈ calls.threads, calls.threads.head? = some thread ∧
      thread.program = .done answer := by
  obtain ⟨thread, hthread, hprogram⟩ := Option.bind_eq_some_iff.mp h
  refine ⟨thread, List.mem_of_mem_head? hthread, hthread, ?_⟩
  cases hthread' : thread.program with
  | done value =>
      rw [hthread'] at hprogram
      cases hprogram
      rfl
  | fail error =>
      rw [hthread'] at hprogram
      cases hprogram
  | locked act next =>
      rw [hthread'] at hprogram
      cases hprogram

/-- The first commit of a repository. -/
def firstCommit : Call :=
  .commitChanges "main" none [.upsert "README.md" []] "first" tester

/-- The one branch is called `refs/heads/x`. -/
def nested : Repo where
  commits := [⟨someOid, []⟩]
  grown := ⟨by decide, by simp, trivial⟩
  named := by decide
  refs := Finmap.singleton "refs/heads/refs/heads/x" someOid
  exist name oid h := by
    by_cases hname : name = "refs/heads/refs/heads/x"
    · subst hname
      rw [Finmap.lookup_singleton_eq] at h
      cases h
      exact ⟨_, List.mem_cons_self, rfl⟩
    · rw [Finmap.lookup_eq_none.mpr (by simpa using hname)] at h
      cases h

/-- A merge of that branch into the branch `x`, which does not exist. -/
def mergeNested : Call := .merge "x" "refs/heads/x" "merge" tester

/-- The merge succeeds: it is told that `x` is up to date. -/
theorem merge_without_target :
    ∃ calls, sha1.system.Reachable calls ∧
      firstAnswer calls = some (.merged (.alreadyUpToDate someOid) someOid) ∧
      calls.threads.map (fun thread => thread.request.branch) = ["x"] ∧
      calls.state.refs.lookup "refs/heads/x" = none ∧ ¬ NoLostUpdate calls := by
  have hrun : (System.follow sha1.step ⟨nested, []⟩
      (.arrive mergeNested :: List.replicate 3 (.run 0 quiet))).any (fun last =>
        firstAnswer last.2 = some (.merged (.alreadyUpToDate someOid) someOid) &&
        last.2.threads.map (fun thread => thread.request.branch) = ["x"] &&
        last.2.state.refs.lookup "refs/heads/x" = none) = true := by
    decide +kernel
  obtain ⟨⟨tr, calls⟩, hfollow, hcalls⟩ := (Option.any_eq_true _ _).mp hrun
  simp only [Bool.and_eq_true, decide_eq_true_eq] at hcalls
  obtain ⟨⟨hanswer, hbranch⟩, hnone⟩ := hcalls
  refine ⟨calls, ⟨⟨nested, []⟩, tr, rfl, .of_follow hfollow⟩, hanswer, hbranch, hnone, ?_⟩
  intro hlost
  obtain ⟨thread, hthread, _, hdone⟩ := done_of_firstAnswer hanswer
  obtain ⟨tip, htip, _⟩ := hlost thread hthread _ hdone someOid List.mem_cons_self
  have hname : thread.request.branch = "x" := by
    have hmem := List.mem_map_of_mem (f := fun thread => thread.request.branch) hthread
    rw [hbranch] at hmem
    exact List.mem_singleton.mp hmem
  rw [hname] at htip
  cases hnone.symm.trans htip

/-- The call is a commit. -/
def Call.isCommit : Call → Bool
  | commitChanges _ _ _ _ _ => true
  | merge _ _ _ _ => false

theorem findsTarget_of_commits {r : Repository} {calls calls' : Calls} {turn : Turn}
    (h : (calls.threads.all fun thread => thread.request.isCommit) = true) :
    FindsTarget r calls turn calls' := by
  intro n i thread _ hthread _
  have hcommit := List.all_eq_true.mp h thread (List.mem_of_getElem? hthread)
  cases hrequest : thread.request with
  | commitChanges branch startRevision changes message identity => trivial
  | merge targetBranch sourceRevision message identity =>
      rw [hrequest] at hcommit
      cases hcommit

/-- A first commit is in the branch `main`. -/
theorem no_lost_update_first :
    ∃ calls, firstAnswer calls = some (.committed someOid) ∧ NoLostUpdate calls := by
  have hrun : (System.follow sha1.step ⟨.empty, []⟩
      (.arrive firstCommit :: List.replicate 7 (.run 0 quiet))).any (fun last =>
        firstAnswer last.2 = some (.committed someOid) &&
        last.1.all fun e => e.pre.threads.all fun thread => thread.request.isCommit) = true := by
    decide +kernel
  obtain ⟨⟨tr, calls⟩, hfollow, hcalls⟩ := (Option.any_eq_true _ _).mp hrun
  simp only [Bool.and_eq_true, decide_eq_true_eq] at hcalls
  refine ⟨calls, hcalls.1, no_lost_update sha1 ⟨⟨.empty, []⟩, tr, rfl, ?_⟩⟩
  refine System.Run.restrict (.of_follow hfollow) ?_
  intro e he
  exact findsTarget_of_commits (List.all_eq_true.mp hcalls.2 e he)

end Cresix.Git
