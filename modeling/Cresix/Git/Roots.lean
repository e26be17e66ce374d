import Cresix.Git.Updates

/-!
# One root

The documentation of `commit_changes` wants a start revision for a new branch
unless the repository is empty.  The code does not look whether it is: without
a start revision a new branch begins with a commit of its own.  `single_root`
shows that nothing else makes a second root.

The calls come one after the other here, so a call sees the repository as it
was when the call began until it writes its commit.
-/

namespace Cresix.Git

open Concurrent (Program)
open History (Node Has Grown Ancestor IsRoot)
open Transition (System Event)

/-- There is at most one commit without parents. -/
def OneRoot (repo : Repo) : Prop :=
  ∀ root root', IsRoot repo.commits root → IsRoot repo.commits root' → root = root'

/-- All references descend from one and the same root. -/
def SingleRoot (repo : Repo) : Prop :=
  ∃ root, ∀ name tip, repo.refs.lookup name = some tip →
    IsRoot repo.commits root ∧ Ancestor repo.commits root tip ∧
      ∀ other, IsRoot repo.commits other → Ancestor repo.commits other tip → other = root

theorem OneRoot.singleRoot {repo : Repo} (h : OneRoot repo) : SingleRoot repo := by
  by_cases hroot : ∃ root, IsRoot repo.commits root
  · obtain ⟨root, hroot⟩ := hroot
    refine ⟨root, ?_⟩
    intro name tip htip
    obtain ⟨root', hroot', hancestor⟩ := repo.grown.exists_root (repo.exist name tip htip)
    obtain rfl := h root root' hroot hroot'
    exact ⟨hroot, hancestor, fun other hother _ => h other root hother hroot⟩
  · refine ⟨"", ?_⟩
    intro name tip htip
    obtain ⟨root, hroot', _⟩ := repo.grown.exists_root (repo.exist name tip htip)
    exact absurd ⟨root, hroot'⟩ hroot

/-! ## What the sections come to -/

section Sections

variable {α β : Type} {Q : Except GitError α → Repo → Prop} {s : Repo} {r : Repository}

/-- The rule for a subprocess that runs alone. -/
theorem ends_git {fatal : String → Except GitError α}
    {act : GitInput → Repo → Except GitError α × Repo} (herror : ∀ error, Q (.error error) s)
    (hfatal : ∀ stderr, Q (fatal stderr) s) (hact : ∀ i, Q (act i s).1 (act i s).2) :
    (git fatal act).Ends Q s := by
  apply Program.Ends.step
  intro i
  split
  next error _ => exact herror error
  next stderr _ => exact hfatal stderr
  next => exact hact i

/-- The program leaves the repository alone. -/
def Reads (P : α → Prop) (p : GitM α) (s : Repo) : Prop :=
  p.Ends (fun result t => t = s ∧ ∀ value, result = .ok value → P value) s

theorem Reads.git {P : α → Prop} {fatal : String → Except GitError α}
    {act : GitInput → Repo → Except GitError α × Repo}
    (hfatal : ∀ stderr value, fatal stderr = .ok value → P value)
    (hact : ∀ i, (act i s).2 = s ∧ ∀ value, (act i s).1 = .ok value → P value) :
    Reads P (git fatal act) s := by
  apply ends_git
  · intro error
    exact ⟨rfl, fun _ h => by cases h⟩
  · intro stderr
    exact ⟨rfl, hfatal stderr⟩
  · exact hact

/-- A program after one that leaves the repository alone. -/
theorem Reads.bind {P : α → Prop} {p : GitM α} {k : α → GitM β}
    {Q : Except GitError β → Repo → Prop} (h : Reads P p s) (herror : ∀ error, Q (.error error) s)
    (hk : ∀ value, P value → (k value).Ends Q s) : (p >>= k).Ends Q s := by
  apply Program.Ends.bind h
  · rintro value t ⟨rfl, hvalue⟩
    exact hk value (hvalue value rfl)
  · rintro error t ⟨rfl, _⟩
    exact herror error

theorem Reads.check (result : Except GitError α) :
    Reads (fun _ => True) (Program.check result) s :=
  Program.Ends.check ⟨rfl, fun _ _ => trivial⟩

theorem Reads.pure {P : α → Prop} {value : α} (h : P value) : Reads P (pure value : GitM α) s :=
  ⟨rfl, fun _ heq => Except.ok.inj heq ▸ h⟩

theorem command_reads : Reads (fun _ => True) command s := by
  apply Reads.git
  · exact fun _ _ _ => trivial
  · exact fun _ => ⟨rfl, fun _ _ => trivial⟩

theorem revParseCommit_reads {revision : String} {find : GitInput → Repo → Option String} :
    Reads (fun _ => True) (revParseCommit revision find) s := by
  apply Reads.git
  · exact fun _ _ _ => trivial
  · exact fun _ => ⟨rfl, fun _ _ => trivial⟩

theorem resolveRefOptional_reads {reference : String} {P : Option String → Prop}
    (h : ∀ i : GitInput, P (s.resolve i.reading reference)) :
    Reads P (resolveRefOptional reference) s := by
  apply Reads.git
  · intro stderr value heq
    cases heq
  · intro i
    exact ⟨rfl, fun value heq => Except.ok.inj heq ▸ h i⟩

theorem resolveCommit_reads {revision : String} :
    Reads (fun _ => True) (r.resolveCommit revision) s := by
  unfold Repository.resolveCommit
  split
  next => exact revParseCommit_reads
  next =>
    apply (Reads.check _).bind
    · exact fun error => ⟨rfl, fun _ h => by cases h⟩
    · exact fun _ _ => revParseCommit_reads

theorem isAncestor_reads {ancestor descendant : String} :
    Reads (fun _ => True) (isAncestor ancestor descendant) s := by
  apply Reads.git
  · exact fun _ _ _ => trivial
  · intro i
    split
    next => exact ⟨rfl, fun _ _ => trivial⟩
    next => exact ⟨rfl, fun _ _ => trivial⟩

theorem mergeTree_reads : Reads (fun _ => True) mergeTree s := by
  apply Reads.git
  · exact fun _ _ _ => trivial
  · exact fun _ => ⟨rfl, fun _ _ => trivial⟩

theorem readTree_reads {parent : Option String} : Reads (fun _ => True) (readTree parent) s := by
  cases parent with
  | some oid => exact command_reads
  | none => exact .pure trivial

theorem writeChange_reads {change : FileChange} :
    Reads (fun _ => True) (writeChange change) s := by
  cases change with
  | upsert path content =>
      apply command_reads.bind
      · exact fun error => ⟨rfl, fun _ h => by cases h⟩
      · exact fun _ _ => command_reads
  | delete path => exact command_reads

theorem writeChanges_reads {changes : List FileChange} :
    Reads (fun _ => True) (writeChanges changes) s := by
  induction changes with
  | nil => exact .pure trivial
  | cons change changes ih =>
      apply writeChange_reads.bind
      · exact fun error => ⟨rfl, fun _ h => by cases h⟩
      · exact fun _ _ => ih

/-- Without a parent there is neither a tip nor a start revision. -/
theorem parentOf_reads {current startRevision : Option String} :
    Reads (fun parent => parent = none → current = none ∧ startRevision = none)
      (r.parentOf current startRevision) s := by
  cases current with
  | some oid => exact .pure fun h => by cases h
  | none =>
      cases startRevision with
      | some revision =>
          apply resolveCommit_reads.bind
          · exact fun error => ⟨rfl, fun _ h => by cases h⟩
          · intro oid _
            refine ⟨rfl, ?_⟩
            intro value heq hnone
            cases heq
            cases hnone
      | none => exact .pure fun _ => ⟨rfl, rfl⟩

end Sections

/-! ## Writing a commit -/

section Writing

variable {s t : Repo} {r : Repository}

/-- A commit keeps the root, unless it is a new one beside others. -/
theorem OneRoot.write {oid : String} {parents : List String} (h : OneRoot s)
    (hparents : parents = [] → s.commits = []) (hwrite : s.write oid parents = some t) :
    OneRoot t := by
  unfold Repo.write at hwrite
  split at hwrite
  next =>
    cases hwrite
    exact h
  next =>
    split at hwrite
    next =>
      cases hwrite
      cases parents with
      | nil =>
          have hnew : ∀ root, IsRoot (⟨oid, []⟩ :: s.commits) root → root = oid := by
            intro root hroot
            rw [hparents rfl] at hroot
            simpa [IsRoot] using hroot
          intro root root' hroot hroot'
          rw [hnew root hroot, hnew root' hroot']
      | cons p rest =>
          have hold : ∀ root, IsRoot (⟨oid, p :: rest⟩ :: s.commits) root →
              IsRoot s.commits root := by
            intro root hroot
            rcases List.mem_cons.mp hroot with heq | hroot
            · cases heq
            · exact hroot
          intro root root' hroot hroot'
          exact h root root' (hold root hroot) (hold root' hroot')
    next => cases hwrite

/-- After a commit is written the references are as before. -/
theorem commitTree_ends {parents : List String} (h : OneRoot s)
    (hparents : parents = [] → s.commits = []) :
    (commitTree parents).Ends (fun _ t => OneRoot t ∧ t.refs = s.refs) s := by
  apply ends_git
  · exact fun _ => ⟨h, rfl⟩
  · exact fun _ => ⟨h, rfl⟩
  · intro i
    cases hwrite : s.write i.oid parents with
    | none => exact ⟨h, rfl⟩
    | some t => exact ⟨h.write hparents hwrite, (Repo.mem_of_write hwrite).2.1⟩

/-- An update that succeeds has found the expected value. -/
theorem atomicUpdate_ends {reference new old : String} (h : OneRoot s) :
    (r.atomicUpdate reference new old).Ends (fun result t => OneRoot t ∧
      (result = .ok () → s.Expects r.zeroOid reference old)) s := by
  have hfailed : ∀ stderr, (if Rust.contains stderr "cannot lock ref" then
      (.error .concurrentUpdate : Except GitError Unit) else .error (commandError stderr)) ≠
      .ok () := by
    intro stderr heq
    split at heq
    next => cases heq
    next => cases heq
  apply ends_git
  · exact fun error => ⟨h, fun heq => by cases heq⟩
  · exact fun stderr => ⟨h, fun heq => absurd heq (hfailed stderr)⟩
  · intro i
    split
    next =>
      split
      next hexpects => exact ⟨h, fun _ => hexpects⟩
      next => exact ⟨h, fun heq => absurd heq (hfailed "cannot lock ref")⟩
    next =>
      exact ⟨h, fun heq => absurd heq (hfailed "trying to write ref with nonexistent object")⟩

end Writing

/-! ## Calls one after the other -/

section Calls

variable {s : Repo} {r : Repository}

theorem isZero_zeroOid : isZero r.zeroOid = true := by
  rw [isZero, Repository.zeroOid, String.toList_ofList, List.all_eq_true]
  intro c hc
  exact decide_eq_true (List.eq_of_mem_replicate hc)

/-- A commit onto a parent keeps the root, and succeeds only if the branch is
as it was read. -/
theorem commitOnto_ends {branchRef : String} {current parent : Option String}
    {changes : List FileChange} (h : OneRoot s) (hparent : parent = none → s.commits = [])
    (hcurrent : ∀ oid, current = some oid → Has s.commits oid) :
    (r.commitOnto branchRef current parent changes).Ends (fun result t => OneRoot t ∧
      ∀ oid, result = .ok oid → s.refs.lookup branchRef = current) s := by
  have herror : ∀ error, OneRoot s ∧ ∀ oid : String, (.error error : Except GitError String) =
      .ok oid → s.refs.lookup branchRef = current := by
    intro error
    exact ⟨h, fun _ heq => by cases heq⟩
  apply command_reads.bind herror
  intro _ _
  apply readTree_reads.bind herror
  intro _ _
  apply writeChanges_reads.bind herror
  intro _ _
  apply command_reads.bind herror
  intro _ _
  have hparents : parent.toList = [] → s.commits = [] := by
    intro hnil
    cases parent with
    | none => exact hparent rfl
    | some oid => cases hnil
  apply (commitTree_ends h hparents).bind
  · rintro newOid t ⟨ht, hrefs⟩
    apply (atomicUpdate_ends ht).bind
    · rintro _ u ⟨hu, hexpects⟩
      refine ⟨hu, ?_⟩
      intro _ _
      have hlookup := hexpects rfl
      unfold Repo.Expects at hlookup
      rw [hrefs] at hlookup
      cases current with
      | none => rwa [Option.getD_none, if_pos rfl] at hlookup
      | some oid =>
          obtain ⟨node, hnode, rfl⟩ := hcurrent oid rfl
          have hne : node.id ≠ r.zeroOid := by
            intro hzero
            have hnamed := s.named node hnode
            rw [hzero, isZero_zeroOid] at hnamed
            cases hnamed
          rwa [Option.getD_some, if_neg hne] at hlookup
    · rintro error u ⟨hu, _⟩
      exact ⟨hu, fun _ heq => by cases heq⟩
  · rintro error t ⟨ht, _⟩
    exact ⟨ht, fun _ heq => by cases heq⟩

theorem mergeInto_ends {targetRef target source : String} (h : OneRoot s) :
    (r.mergeInto targetRef target source).Ends (fun _ t => OneRoot t) s := by
  apply isAncestor_reads.bind (fun _ => h)
  intro upToDate _
  cases upToDate with
  | true => exact h
  | false =>
      apply isAncestor_reads.bind (fun _ => h)
      intro forward _
      cases forward with
      | true =>
          apply (atomicUpdate_ends h).bind
          · exact fun _ _ ht => ht.1
          · exact fun _ _ ht => ht.1
      | false =>
          apply mergeTree_reads.bind (fun _ => h)
          intro conflicts _
          cases conflicts with
          | some paths => exact h
          | none =>
              apply (commitTree_ends h fun hnil => by cases hnil).bind
              · intro merged t ht
                apply (atomicUpdate_ends ht.1).bind
                · exact fun _ _ hu => hu.1
                · exact fun _ _ hu => hu.1
              · exact fun _ _ ht => ht.1

theorem merge_ends {targetBranch sourceRevision message : String} {identity : CommitIdentity}
    (h : OneRoot s) :
    (r.merge targetBranch sourceRevision message identity).Ends (fun _ t => OneRoot t) s := by
  apply (Reads.check _).bind (fun _ => h)
  intro _ _
  apply (Reads.check _).bind (fun _ => h)
  intro _ _
  apply (Reads.check _).bind (fun _ => h)
  intro _ _
  apply (resolveRefOptional_reads (P := fun _ => True) fun _ => trivial).bind (fun _ => h)
  intro current _
  cases current with
  | none => exact h
  | some target =>
      apply resolveCommit_reads.bind (fun _ => h)
      intro source _
      apply (mergeInto_ends h).bind
      · exact fun _ _ ht => ht
      · exact fun _ _ ht => ht

/-- A commit without a start revision begins a root only where the branch is
not found. -/
theorem commitChanges_opens {A : GitInput → Prop} {branch : String}
    {startRevision : Option String} {changes : List FileChange} {message : String}
    {identity : CommitIdentity} (h : OneRoot s)
    (hstart : ∀ i, A i → startRevision = none →
      s.resolve i.reading ("refs/heads/" ++ branch) = none → s.commits = []) :
    (r.commitChanges branch startRevision changes message identity).Opens A (fun result t =>
      OneRoot t ∧ (startRevision = none → s.refs.lookup ("refs/heads/" ++ branch) = none →
        ∀ oid, result = .ok oid → s.commits = [])) s := by
  have herror : ∀ error, OneRoot s ∧ (startRevision = none →
      s.refs.lookup ("refs/heads/" ++ branch) = none → ∀ oid : String,
        (.error error : Except GitError String) = .ok oid → s.commits = []) := by
    intro error
    exact ⟨h, fun _ _ _ heq => by cases heq⟩
  apply Program.Opens.check_bind herror
  intro _ _
  apply Program.Opens.check_bind herror
  intro _ _
  apply Program.Opens.check_bind herror
  intro _ _
  apply Program.Opens.check_bind herror
  intro _ _
  apply Program.Opens.step_bind
  · intro i error _
    split
    next => exact herror error
    next => exact herror error
    next => exact herror error
  · intro i hA current hcurrent
    split at hcurrent
    next => cases hcurrent
    next => cases hcurrent
    next =>
      obtain rfl := Except.ok.inj hcurrent
      apply parentOf_reads.bind herror
      intro parent hparent
      have hroot : parent = none → s.commits = [] := by
        intro hnone
        obtain ⟨hcurrent', hrevision⟩ := hparent hnone
        exact hstart i hA hrevision hcurrent'
      apply (commitOnto_ends h hroot fun _ => Repo.resolve_has).mono
      rintro result t ⟨ht, hfound⟩
      refine ⟨ht, ?_⟩
      intro hrevision hlookup oid hresult
      exact hstart i hA hrevision ((hfound oid hresult).symm.trans hlookup)

end Calls

/-! ## Runs -/

/-- A call with what the outside has a say in, one input a subprocess. -/
abbrev Request := Call × (Nat → GitInput)

/-- The outcome of a call that runs alone. -/
def Repository.outcome (r : Repository) (s : Repo) (a : Request) : Except GitError Answer :=
  ((r.serve a.1).run a.2 s).1

/-- The calls one after the other, from a freshly created repository. -/
def Repository.sequence (r : Repository) : System Repo Request :=
  .ofFunction (fun s => s = .empty) fun s a => ((r.serve a.1).run a.2 s).2.1

/-- The call gives a start revision, or finds its branch, or there is no
commit yet. -/
def Starts (s : Repo) (a : Request) (_ : Repo) : Prop :=
  ∀ branch changes message identity,
    a.1 = .commitChanges branch none changes message identity →
    s.resolve (a.2 0).reading ("refs/heads/" ++ branch) = none → s.commits = []

/-- A commit to a branch that does not exist, without a start revision,
succeeds only if there is no commit yet. -/
def OnlyFirst (r : Repository) (s : Repo) (a : Request) : Prop :=
  ∀ branch changes message identity answer,
    a.1 = .commitChanges branch none changes message identity →
    s.refs.lookup ("refs/heads/" ++ branch) = none → r.outcome s a = .ok answer → s.commits = []

/-- The step lemma: a call that meets the condition keeps the root. -/
theorem serve_step (r : Repository) {s : Repo} {a : Request} {t : Repo} (h : OneRoot s)
    (hst : (r.sequence.restrict Starts).step s a t) : OneRoot t ∧ OnlyFirst r s a := by
  obtain ⟨rfl, hstarts⟩ := hst
  obtain ⟨call, inputs⟩ := a
  cases call with
  | commitChanges branch startRevision changes message identity =>
      have hserve : (r.serve (.commitChanges branch startRevision changes message identity)).Opens
          (· = inputs 0) (fun result t => OneRoot t ∧ (startRevision = none →
            s.refs.lookup ("refs/heads/" ++ branch) = none → ∀ answer, result = .ok answer →
              s.commits = [])) s := by
        refine Program.Opens.bind (commitChanges_opens h ?_) ?_ ?_
        · rintro i rfl rfl
          exact hstarts branch changes message identity rfl
        · rintro oid t ⟨ht, hfirst⟩
          exact ⟨ht, fun hnone hlookup _ _ => hfirst hnone hlookup oid rfl⟩
        · rintro error t ⟨ht, _⟩
          exact ⟨ht, fun _ _ _ heq => by cases heq⟩
      obtain ⟨hroot, hfirst⟩ := hserve.run rfl
      refine ⟨hroot, ?_⟩
      intro branch' changes' message' identity' answer hcall hlookup hanswer
      cases hcall
      exact hfirst rfl hlookup answer hanswer
  | merge targetBranch sourceRevision message identity =>
      have hserve : (r.serve (.merge targetBranch sourceRevision message identity)).Ends
          (fun _ t => OneRoot t) s := by
        apply (merge_ends h).bind
        · exact fun _ _ ht => ht
        · exact fun _ _ ht => ht
      refine ⟨hserve.run inputs, ?_⟩
      intro branch' changes' message' identity' answer hcall
      cases hcall

/-- In a run whose calls all start from a branch or a revision, unless there
is no commit yet, all tips descend from one root. -/
theorem single_root (r : Repository) {s t : Repo} {tr : List (Event Repo Request)}
    (hs : r.sequence.start s) (h : (r.sequence.restrict Starts).Run s tr t) :
    SingleRoot t ∧ ∀ e ∈ tr, OnlyFirst r e.pre e.label := by
  have hempty : OneRoot s := by
    obtain rfl : s = .empty := hs
    intro root root' hroot
    cases hroot
  have hone : ∀ {tr u}, (r.sequence.restrict Starts).Run s tr u → OneRoot u := by
    intro tr u hrun
    exact hrun.invariant (fun _ _ _ hv hst => (serve_step r hv hst).1) hempty
  refine ⟨(hone h).singleRoot, ?_⟩
  intro e he
  obtain ⟨before, after, _, hbefore, hst, _⟩ := h.split he
  exact (serve_step r (hone hbefore) hst).2

/-! ## Two branches without a start revision -/

/-- A first commit on a branch, and the commit that is written. -/
def beginBranch (branch oid : String) : Request :=
  (.commitChanges branch none [.upsert "README.md" []] "first" tester,
    fun _ => ⟨none, none, oid, none⟩)

/-- Another commit identifier. -/
def otherOid : String := "b2e2cd87815a29cc45214cb3b2df0d10dc7a70fa"

/-- The repository with the branch `main`. -/
def withMain : Repo := ((sha1.serve (beginBranch "main" someOid).1).run
  (beginBranch "main" someOid).2 .empty).2.1

/-- The repository with the branches `main` and `other`. -/
def withOther : Repo := ((sha1.serve (beginBranch "other" otherOid).1).run
  (beginBranch "other" otherOid).2 withMain).2.1

/-- A second branch without a start revision begins a second root. -/
theorem two_roots :
    (∃ s tr, sha1.sequence.start s ∧ sha1.sequence.Run s tr withOther) ∧
      withMain.commits = [⟨someOid, []⟩] ∧
      withMain.refs.lookup "refs/heads/other" = none ∧
      sha1.outcome withMain (beginBranch "other" otherOid) = .ok (.committed otherOid) ∧
      ¬ SingleRoot withOther := by
  have hcommits : withOther.commits = [⟨otherOid, []⟩, ⟨someOid, []⟩] := by decide +kernel
  have hmain : withOther.refs.lookup "refs/heads/main" = some someOid := by decide +kernel
  have hother : withOther.refs.lookup "refs/heads/other" = some otherOid := by decide +kernel
  refine ⟨?_, by decide +kernel, by decide +kernel, by decide +kernel, ?_⟩
  · exact ⟨.empty, _, rfl, .snoc (.snoc .refl (a := beginBranch "main" someOid) rfl)
      (a := beginBranch "other" otherOid) rfl⟩
  · rintro ⟨root, hroot⟩
    have hroots : ∀ oid ∈ [someOid, otherOid], IsRoot withOther.commits oid := by
      rw [hcommits]
      show ∀ oid ∈ _, (⟨oid, []⟩ : Node String) ∈ _
      decide
    have hhas : ∀ oid ∈ [someOid, otherOid], Has withOther.commits oid := by
      rw [hcommits]
      decide
    have hsome := (hroot _ _ hmain).2.2 someOid (hroots _ (by simp)) (.refl (hhas _ (by simp)))
    have hother' := (hroot _ _ hother).2.2 otherOid (hroots _ (by simp)) (.refl (hhas _ (by simp)))
    exact absurd (hsome.trans hother'.symm) (by decide)

/-- A repository with one branch has a single root. -/
theorem single_root_main : SingleRoot withMain := by
  have hrun : (sha1.sequence.restrict Starts).Run .empty
      [⟨.empty, beginBranch "main" someOid, withMain⟩] withMain := by
    apply System.Run.single
    exact ⟨rfl, fun _ _ _ _ _ _ => rfl⟩
  exact (single_root sha1 rfl hrun).1

end Cresix.Git
