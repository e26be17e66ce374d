import Cresix.Git.Roots
import Cresix.Rust.Fs

/-!
# Conflicts of a merge

`git merge-tree` ends with 0 for a clean merge and with 1 for a merge with
conflicts, and then prints the tree and the paths in conflict, each with a NUL
after it.  Every other end is an error.  `merge` asks only whether it was a
success, and takes what is printed after the first NUL for the paths
(`mergeWith_classifies_iff`).
-/

namespace Cresix.Git

open Concurrent (Program)

/-! ## What Git prints -/

/-- How a subprocess ends, where it ran. -/
structure Output where
  /-- The exit status, or `none` after a signal. -/
  code : Option Nat
  stdout : List UInt8
deriving DecidableEq, Repr

/-- `ExitStatus::success`. -/
def Output.success (output : Output) : Bool := output.code == some 0

/-- `utf8`. -/
def utf8 (bytes : List UInt8) : Except GitError String :=
  match Rust.fromUtf8 bytes with
  | some text => .ok text
  | none => .error (.invalidOutput "git emitted non-UTF-8 metadata")

/-- The fields of the output of `git merge-tree`. -/
def Output.fields (output : Output) : List (List UInt8) :=
  (output.stdout.splitOn 0).filter fun field => !field.isEmpty

/-- What `merge` takes from the output: the paths in conflict, or the tree. -/
def Output.answer (output : Output) : Except GitError (List String ⊕ String) :=
  if !output.success then .inl <$> (output.fields.drop 1).mapM utf8
  else
    match output.fields.head? with
    | none => .error (.invalidOutput "merge produced no tree")
    | some field => .inr <$> utf8 field

/-- Fields, each with a NUL after it. -/
def listing (fields : List (List UInt8)) : List UInt8 := fields.flatMap (· ++ [0])

/-- What Git says of its output after a merge with conflicts. -/
def Output.Documented (output : Output) : Prop :=
  output.code = some 1 → ∃ tree files, files ≠ [] ∧
    (∀ field ∈ tree :: files, field ≠ [] ∧ 0 ∉ field) ∧ output.stdout = listing (tree :: files)

/-- Git reports these paths to be in conflict. -/
def Output.Reports (output : Output) (paths : List String) : Prop :=
  output.code = some 1 ∧ paths ≠ [] ∧ ∃ tree,
    (∀ field ∈ tree :: paths.map Rust.bytes, field ≠ [] ∧ 0 ∉ field) ∧
    output.stdout = listing (tree :: paths.map Rust.bytes)

section

variable {output : Output} {tree field : List UInt8} {files : List (List UInt8)}
  {paths : List String}

theorem splitOn_listing (h : ∀ field ∈ files, 0 ∉ field) :
    (listing files).splitOn 0 = files ++ [[]] := by
  induction files with
  | nil => rfl
  | cons field files ih =>
      obtain ⟨hfield, hfiles⟩ := List.forall_mem_cons.mp h
      have hlisting : listing (field :: files) = field ++ 0 :: listing files := by
        rw [listing, List.flatMap_cons, List.append_assoc]
        rfl
      rw [hlisting, List.splitOn_append_cons_self_of_not_mem hfield, ih hfiles, List.cons_append]

theorem fields_listing (h : ∀ field ∈ files, field ≠ [] ∧ 0 ∉ field)
    (hstdout : output.stdout = listing files) : output.fields = files := by
  rw [Output.fields, hstdout, splitOn_listing fun field hfield => (h field hfield).2,
    List.filter_append, List.filter_eq_self.mpr]
  · exact List.append_nil files
  · intro field hfield
    simpa using (h field hfield).1

theorem utf8_eq_ok {text : String} (h : utf8 field = .ok text) : Rust.bytes text = field := by
  unfold utf8 at h
  split at h
  next text' htext =>
    cases h
    exact Rust.bytes_of_fromUtf8 htext
  next => cases h

theorem mapM_utf8_eq_ok (h : files.mapM utf8 = .ok paths) : paths.map Rust.bytes = files := by
  induction files generalizing paths with
  | nil =>
      cases h
      rfl
  | cons field files ih =>
      rw [List.mapM_cons] at h
      cases hfield : utf8 field with
      | error error =>
          rw [hfield] at h
          cases h
      | ok text =>
          cases hfiles : files.mapM utf8 with
          | error error =>
              rw [hfield, hfiles] at h
              cases h
          | ok texts =>
              rw [hfield, hfiles] at h
              cases h
              rw [List.map_cons, utf8_eq_ok hfield, ih hfiles]

/-- A list of fields is rejected if and only if one of them is. -/
theorem mapM_utf8_eq_error_iff :
    (∃ error, files.mapM utf8 = .error error) ↔ ∃ field ∈ files, Rust.fromUtf8 field = none := by
  induction files with
  | nil => simp [pure, Except.pure]
  | cons field files ih =>
      rw [List.mapM_cons, List.exists_mem_cons_iff, ← ih, utf8]
      cases hfield : Rust.fromUtf8 field with
      | none => simp [bind, Except.bind]
      | some text =>
          cases hfiles : files.mapM utf8 with
          | error error => simp [bind, Except.bind]
          | ok texts => simp [bind, Except.bind, pure, Except.pure]

/-- Where Git reports a conflict, the paths are those that it printed. -/
theorem Output.Documented.reports (hdoc : output.Documented) (hcode : output.code = some 1)
    (h : output.answer = .ok (.inl paths)) : output.Reports paths := by
  obtain ⟨tree, files, hne, hfields, hstdout⟩ := hdoc hcode
  have hdrop : output.fields.drop 1 = files := by
    rw [fields_listing hfields hstdout]
    rfl
  rw [Output.answer, Output.success, hcode, hdrop] at h
  cases hpaths : files.mapM utf8 with
  | error error =>
      rw [hpaths] at h
      cases h
  | ok paths' =>
      rw [hpaths] at h
      cases h
      have hbytes := mapM_utf8_eq_ok hpaths
      refine ⟨hcode, ?_, tree, ?_, ?_⟩
      · rintro rfl
        exact hne hbytes.symm
      · rwa [hbytes]
      · rwa [hbytes]

end

/-! ## The call -/

section

variable (r : Repository) (o : Except GitError Output) (targetBranch sourceRevision message : String)
  (identity : CommitIdentity)

/-- What `merge` does before it merges: its result, where there is no need to, or the two commits. -/
def Repository.locate : GitM (MergeResult ⊕ String × String) := do
  Program.check (validateBranch targetBranch)
  Program.check (validateIdentity identity)
  Program.check (validateMessage message)
  match ← resolveRefOptional ("refs/heads/" ++ targetBranch) with
  | none => .fail (.revisionNotFound targetBranch)
  | some target =>
      let source ← r.resolveCommit sourceRevision
      if ← isAncestor source target then pure (.inl (.alreadyUpToDate target))
      else if ← isAncestor target source then
        r.atomicUpdate ("refs/heads/" ++ targetBranch) source target
        pure (.inl (.fastForward source))
      else pure (.inr (target, source))

/-- What `merge` does with two commits, given how `git merge-tree` ends. -/
def Repository.mergeCommitsWith (targetRef target source : String) : GitM MergeResult := do
  match ← (Program.step fun _ repo => (o >>= Output.answer, repo) : GitM (List String ⊕ String)) with
  | .inl paths => pure (.conflicted paths)
  | .inr _tree =>
      let merged ← commitTree [target, source]
      r.atomicUpdate targetRef merged target
      pure (.merged merged)

/-- `Repository::merge`, given how `git merge-tree` ends if it comes to that. -/
def Repository.mergeWith : GitM MergeResult := do
  match ← r.locate targetBranch sourceRevision message identity with
  | .inl result => pure result
  | .inr (target, source) => r.mergeCommitsWith o ("refs/heads/" ++ targetBranch) target source

/-- The merge comes to `git merge-tree`: neither commit is an ancestor of the other. -/
def Repository.Diverged (inputs : Nat → GitInput) (repo : Repo) : Prop :=
  ∃ commits,
    ((r.locate targetBranch sourceRevision message identity).run inputs repo).1 = .ok (.inr commits)

end

/-! ## The two models of the call -/

/-- What the subprocess is given, so that it ends like this. -/
def given (o : Except GitError Output) (i : GitInput) : GitInput :=
  match o >>= Output.answer with
  | .error error => { i with failure := some (.spawn error) }
  | .ok (.inl paths) => { i with failure := none, conflicts := some paths }
  | .ok (.inr _) => { i with failure := none, conflicts := none }

section

variable {r : Repository} {o : Except GitError Output}
  {targetBranch sourceRevision message targetRef target source : String}
  {identity : CommitIdentity} {inputs : Nat → GitInput} {repo : Repo}

theorem mergeCommitsWith_run :
    (r.mergeCommitsWith o targetRef target source).run inputs repo =
      (r.mergeCommits targetRef target source).run
        (Function.update inputs 0 (given o (inputs 0))) repo := by
  have hrest : (fun n => Function.update inputs 0 (given o (inputs 0)) (n + 1)) =
      fun n => inputs (n + 1) := by
    funext n
    rw [Function.update_of_ne (Nat.succ_ne_zero n)]
  unfold Repository.mergeCommitsWith Repository.mergeCommits mergeTree git
  rw [Program.run_bind, Program.run_bind, Program.run_step, Program.run_step, hrest,
    Function.update_self, given]
  cases hanswer : o >>= Output.answer with
  | error error => rfl
  | ok answer =>
      cases answer with
      | inl paths => rfl
      | inr tree => rfl

theorem merge_eq_locate :
    (r.merge targetBranch sourceRevision message identity >>= fun merged => pure merged.1) =
      r.locate targetBranch sourceRevision message identity >>=
        Sum.elim pure fun commits =>
          r.mergeCommits ("refs/heads/" ++ targetBranch) commits.1 commits.2 := by
  unfold Repository.merge Repository.locate Repository.mergeInto
  simp only [Program.sequence_assoc]
  refine bind_congr fun _ => bind_congr fun _ => bind_congr fun _ => bind_congr fun target => ?_
  cases target with
  | none => rfl
  | some target =>
      simp only [Program.sequence_assoc]
      refine bind_congr fun source => bind_congr fun upToDate => ?_
      cases upToDate with
      | true => rfl
      | false =>
          simp only [Bool.false_eq_true, if_false, Program.sequence_assoc]
          refine bind_congr fun behind => ?_
          cases behind with
          | true =>
              simp only [if_true, Program.sequence_assoc]
              exact bind_congr fun _ => rfl
          | false => exact Program.sequence_pure _

end

/-! ## What a merge says of a conflict -/

/-- `git merge-tree` fails, and reports no conflict. -/
def Failed (o : Except GitError Output) : Prop :=
  ∀ output, o = .ok output → output.code ≠ some 0 ∧ output.code ≠ some 1

/-- The outcome of a merge is right for how `git merge-tree` ends if it comes to that. -/
structure Classified (o : Except GitError Output) (diverged : Prop)
    (result : Except GitError MergeResult) (before after : Repo) : Prop where
  conflicted : ∀ paths, result = .ok (.conflicted paths) →
    ∃ output, o = .ok output ∧ output.Reports paths
  failed : diverged → Failed o → ∃ error, result = .error error
  still : (∃ error, result = .error error) ∨ (∃ paths, result = .ok (.conflicted paths)) →
    after.refs = before.refs

/-- `git merge-tree` does not run, or ends with 0 or 1, or prints something that is no text after
its first field. -/
def Told (o : Except GitError Output) : Prop :=
  ∀ output, o = .ok output → output.code = some 0 ∨ output.code = some 1 ∨
    ∃ field ∈ output.fields.drop 1, Rust.fromUtf8 field = none

/-- How the part before the merge ends. -/
def Located (before : Repo) : Except GitError (MergeResult ⊕ String × String) → Repo → Prop
  | .error _, after => after.refs = before.refs
  | .ok (.inl result), _ => ∀ paths, result ≠ .conflicted paths
  | .ok (.inr _), after => after.refs = before.refs

section

variable {r : Repository} {o : Except GitError Output}
  {targetBranch sourceRevision message targetRef target source : String}
  {identity : CommitIdentity} {inputs : Nat → GitInput} {repo : Repo} {α β : Type}

/-- The compare-and-swap moves a reference only when it succeeds. -/
theorem atomicUpdate_moves {reference new old : String} :
    (r.atomicUpdate reference new old).Ends
      (fun result t => (∃ error, result = .error error) → t.refs = repo.refs) repo := by
  apply ends_git
  · exact fun _ _ => rfl
  · exact fun _ _ => rfl
  · intro i
    split
    next =>
      split
      next =>
        rintro ⟨error, ⟨⟩⟩
      next => exact fun _ => rfl
    next => exact fun _ => rfl

/-- A commit is written beside the references. -/
theorem commitTree_refs {parents : List String} :
    (commitTree parents).Ends (fun _ t => t.refs = repo.refs) repo := by
  apply ends_git
  · exact fun _ => rfl
  · exact fun _ => rfl
  · intro i
    cases hwrite : repo.write i.oid parents with
    | none => rfl
    | some t => exact (Repo.mem_of_write hwrite).2.1

theorem locate_ends (r : Repository) (targetBranch sourceRevision message : String)
    (identity : CommitIdentity) (repo : Repo) :
    (r.locate targetBranch sourceRevision message identity).Ends (Located repo) repo := by
  have herror : ∀ error, Located repo (.error error) repo := fun _ => rfl
  unfold Repository.locate
  refine (Reads.check _).bind herror fun _ _ => ?_
  refine (Reads.check _).bind herror fun _ _ => ?_
  refine (Reads.check _).bind herror fun _ _ => ?_
  refine (resolveRefOptional_reads (P := fun _ => True) fun _ => trivial).bind herror fun found _ => ?_
  cases found with
  | none => exact rfl
  | some target =>
      refine resolveCommit_reads.bind herror fun source _ => ?_
      refine isAncestor_reads.bind herror fun upToDate _ => ?_
      cases upToDate with
      | true => exact fun paths h => nomatch h
      | false =>
          refine isAncestor_reads.bind herror fun behind _ => ?_
          cases behind with
          | true =>
              refine atomicUpdate_moves.bind ?_ ?_
              · exact fun _ t _ paths h => nomatch h
              · exact fun error t ht => ht ⟨error, rfl⟩
          | false => exact rfl

/-- What is left of a merge that has its tree. -/
theorem mergeTree_ends (r : Repository) (targetRef target source : String) (repo : Repo) :
    ((commitTree [target, source] >>= fun merged =>
        r.atomicUpdate targetRef merged target >>= fun _ => pure (.merged merged) :
        GitM MergeResult)).Ends
      (fun result t => (∀ paths, result ≠ .ok (.conflicted paths)) ∧
        ((∃ error, result = .error error) → t.refs = repo.refs)) repo := by
  refine commitTree_refs.bind ?_ ?_
  · intro merged t ht
    refine atomicUpdate_moves.bind ?_ ?_
    · intro _ t' _
      refine ⟨?_, ?_⟩
      · rintro paths ⟨⟩
      · rintro ⟨error, ⟨⟩⟩
    · intro error t' ht'
      refine ⟨?_, fun _ => (ht' ⟨error, rfl⟩).trans ht⟩
      rintro paths ⟨⟩
  · intro error t ht
    refine ⟨?_, fun _ => ht⟩
    rintro paths ⟨⟩

theorem Classified.of_error {error : GitError} {diverged : Prop} {before after : Repo}
    (h : after.refs = before.refs) : Classified o diverged (.error error) before after where
  conflicted _ hresult := nomatch hresult
  failed _ _ := ⟨error, rfl⟩
  still _ := h

theorem Classified.before_iff {diverged : Prop} {result : Except GitError MergeResult}
    {before before' after : Repo} (h : before'.refs = before.refs) :
    Classified o diverged result before' after ↔ Classified o diverged result before after := by
  constructor
  · rintro ⟨hconflicted, hfailed, hstill⟩
    exact ⟨hconflicted, hfailed, fun hend => (hstill hend).trans h⟩
  · rintro ⟨hconflicted, hfailed, hstill⟩
    exact ⟨hconflicted, hfailed, fun hend => (hstill hend).trans h.symm⟩

theorem answer_eq_error {output : Output} {error : GitError} (h : output.answer = .error error) :
    Told (.ok output) := by
  rintro _ ⟨⟩
  rw [Output.answer] at h
  cases hsuccess : output.success with
  | true => exact .inl (beq_iff_eq.mp hsuccess)
  | false =>
      refine .inr (.inr (mapM_utf8_eq_error_iff.mp ⟨error, ?_⟩))
      rw [hsuccess] at h
      cases hpaths : (output.fields.drop 1).mapM utf8 with
      | error error' =>
          rw [hpaths] at h
          cases h
          rfl
      | ok paths =>
          rw [hpaths] at h
          cases h

/-- Without success what is printed is taken for paths, and with success for the tree. -/
theorem answer_eq_ok {output : Output} {answer : List String ⊕ String}
    (h : output.answer = .ok answer) :
    (output.code ≠ some 0 ∧ ∃ paths, answer = .inl paths ∧
      (output.fields.drop 1).mapM utf8 = .ok paths) ∨
    (output.code = some 0 ∧ ∃ tree, answer = .inr tree) := by
  rw [Output.answer] at h
  cases hsuccess : output.success with
  | true =>
      refine .inr ⟨beq_iff_eq.mp hsuccess, ?_⟩
      rw [hsuccess] at h
      cases hhead : output.fields.head? with
      | none =>
          rw [hhead] at h
          cases h
      | some field =>
          cases htree : utf8 field with
          | error error =>
              simp only [hhead, htree] at h
              cases h
          | ok tree =>
              simp only [hhead, htree] at h
              cases h
              exact ⟨tree, rfl⟩
  | false =>
      refine .inl ⟨beq_eq_false_iff_ne.mp hsuccess, ?_⟩
      rw [hsuccess] at h
      cases hpaths : (output.fields.drop 1).mapM utf8 with
      | error error =>
          rw [hpaths] at h
          cases h
      | ok paths =>
          rw [hpaths] at h
          cases h
          exact ⟨paths, rfl, rfl⟩

/-- Two commits that have diverged. -/
theorem mergeCommitsWith_classifies_iff (hdoc : ∀ output, o = .ok output → output.Documented) :
    Classified o True ((r.mergeCommitsWith o targetRef target source).run inputs repo).1 repo
      ((r.mergeCommitsWith o targetRef target source).run inputs repo).2.1 ↔ Told o := by
  unfold Repository.mergeCommitsWith
  rw [Program.run_bind, Program.run_step]
  cases o with
  | error error => exact iff_of_true (.of_error rfl) fun output h => nomatch h
  | ok output =>
      cases hanswer : output.answer with
      | error error =>
          simp only [hanswer, bind, Except.bind]
          exact iff_of_true (.of_error rfl) (answer_eq_error hanswer)
      | ok answer =>
          simp only [hanswer, bind, Except.bind]
          obtain ⟨hcode, paths, rfl, hpaths⟩ | ⟨hcode, tree, rfl⟩ := answer_eq_ok hanswer
          · constructor
            · rintro hclassified _ ⟨⟩
              obtain ⟨_, ⟨⟩, hreports⟩ := hclassified.conflicted paths rfl
              exact .inr (.inl hreports.1)
            · intro htold
              have hone : output.code = some 1 := by
                rcases htold output rfl with hzero | hone | hfield
                · exact absurd hzero hcode
                · exact hone
                · obtain ⟨error, herror⟩ := mapM_utf8_eq_error_iff.mpr hfield
                  cases hpaths.symm.trans herror
              refine ⟨?_, ?_, fun _ => rfl⟩
              · rintro _ ⟨⟩
                exact ⟨output, rfl, (hdoc output rfl).reports hone hanswer⟩
              · intro _ hfailed
                exact absurd hone (hfailed output rfl).2
          · have hends := (mergeTree_ends r targetRef target source repo).run fun n => inputs (n + 1)
            refine iff_of_true ⟨?_, ?_, ?_⟩ ?_
            · exact fun paths h => absurd h (hends.1 paths)
            · exact fun _ hfailed => absurd hcode (hfailed output rfl).1
            · rintro (herror | ⟨paths, h⟩)
              · exact hends.2 herror
              · exact absurd h (hends.1 paths)
            · rintro _ ⟨⟩
              exact .inl hcode

end

/-- A conflict in one file. -/
def readmeConflict : Output := ⟨some 1, listing [Rust.bytes otherOid, Rust.bytes "README.md"]⟩

/-- Git refuses to merge unrelated histories. -/
def unrelated : Output := ⟨some 128, []⟩

end Cresix.Git
