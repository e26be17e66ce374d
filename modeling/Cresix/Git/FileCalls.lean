import Cresix.Git.Log

/-!
# Calls on the files of a repository

Any number of commits, reads, listings and logs work on one repository, one
subprocess at a time, while merges and pushes do what they want to it, as long
as they keep its objects.  What a read gives back is what the commit holds
(`committed_files_read`), and a log tells what was committed
(`committed_log_read`).
-/

namespace Cresix.Git

open Concurrent (Program Pool Thread)
open History (Has)
open Transition (System)

/-! ## What a commit stands for -/

/-- What a change makes of the file it names. -/
def FileChange.content : FileChange → Option (List UInt8)
  | upsert _ content => some content
  | delete _ => none

/-- The contents of files, by their paths, after a change. -/
def FileChange.applyTo (contents : String → Option (List UInt8)) (change : FileChange) :
    String → Option (List UInt8) :=
  Function.update contents change.path change.content

section

variable {r : Repository} {naming : Naming} {t : ObjectStore} {changes : List FileChange}
  {contents : String → Option (List UInt8)} {message oid path : String}
  {identity : CommitIdentity} {parent : Option String} {parentTree : Index} {body : CommitBody}

theorem applyTo_unnamed (h : ∀ change ∈ changes, change.path ≠ path) :
    changes.foldl FileChange.applyTo contents path = contents path := by
  induction changes generalizing contents with
  | nil => rfl
  | cons change changes ih =>
      obtain ⟨hfirst, hrest⟩ := List.forall_mem_cons.mp h
      rw [List.foldl_cons, ih hrest, FileChange.applyTo, Function.update_of_ne hfirst.symm]

theorem applyTo_named (hnodup : (changes.map FileChange.path).Nodup) {change : FileChange}
    (h : change ∈ changes) :
    changes.foldl FileChange.applyTo contents change.path = change.content := by
  induction changes generalizing contents with
  | nil => cases h
  | cons first changes ih =>
      obtain ⟨hnew, hrest⟩ := List.nodup_cons.mp hnodup
      rw [List.foldl_cons]
      rcases List.mem_cons.mp h with rfl | hmem
      · rw [applyTo_unnamed, FileChange.applyTo, Function.update_self]
        intro other hother heq
        exact hnew (heq ▸ List.mem_map_of_mem hother)
      · exact ih hrest hmem

/-- The commit stands for the contents of its parent with the changes made, as
far as identifiers tell contents apart. -/
theorem contents_of_committed (ht : t.Sound naming)
    (h : Committed r naming changes message identity oid parent parentTree body t)
    (hspared : Spared parentTree changes) (path : String) :
    (t.contents body.tree path).map naming.oid =
      (changes.foldl FileChange.applyTo (t.contents parentTree) path).map naming.oid := by
  obtain ⟨hlines, hnodup⟩ := of_validateChanges h.valid
  obtain ⟨htree, hreads⟩ := newTree_eq hlines h.made
  have hexact : Exact naming.toObjects parentTree changes body.tree := by
    rw [htree]
    exact exact_of_spared hnodup hreads hspared
  by_cases hnamed : ∃ change ∈ changes, change.path = path
  · obtain ⟨change, hmem, rfl⟩ := hnamed
    have hfile := hexact.1 change hmem
    rw [applyTo_named hnodup hmem]
    cases change with
    | upsert path content =>
        obtain ⟨kept, hkept⟩ := h.stored path content hmem
        have hcontents : t.contents body.tree path = some kept := by
          rw [ObjectStore.contents, show body.tree.lookup path = _ from hfile]
          exact hkept
        show (t.contents body.tree path).map naming.oid = some (naming.oid content)
        rw [hcontents, Option.map_some, ht.named _ _ hkept]
    | delete path =>
        have hcontents : t.contents body.tree path = none := by
          rw [ObjectStore.contents, show body.tree.lookup path = _ from hfile]
          rfl
        show (t.contents body.tree path).map naming.oid = none
        rw [hcontents, Option.map_none]
  · have hunnamed : ∀ change ∈ changes, change.path ≠ path :=
      fun change hmem heq => hnamed ⟨change, hmem, heq⟩
    rw [applyTo_unnamed hunnamed, ObjectStore.contents, ObjectStore.contents,
      hexact.2 path hunnamed]

end

/-! ## Calls -/

/-- A call on the files of a repository. -/
inductive FileCall where
  | commit (branch : String) (startRevision : Option String) (changes : List FileChange)
      (message : String) (identity : CommitIdentity)
  | read (revision path : String)
  | list (revision : String) (recursive : Bool)
  | log (revision : String) (limit : Nat)
deriving DecidableEq

/-- What a call answers; a read, a listing or a log with the commit it is about. -/
inductive FileAnswer where
  | committed (oid : String)
  | content (oid : String) (outcome : Except GitError (List UInt8))
  | entries (oid : String) (outcome : Except GitError (List TreeEntry))
  | commits (oid : String) (outcome : Except GitError (List Commit))
deriving DecidableEq

/-- What is given back of an answer to a read. -/
def FileAnswer.toContent : FileAnswer → FileM (List UInt8)
  | content _ outcome => Program.check outcome
  | _ => .fail refusal

/-- What is given back of an answer to a listing. -/
def FileAnswer.toEntries : FileAnswer → FileM (List TreeEntry)
  | entries _ outcome => Program.check outcome
  | _ => .fail refusal

/-- What is given back of an answer to a log. -/
def FileAnswer.toCommits : FileAnswer → FileM (List Commit)
  | commits _ outcome => Program.check outcome
  | _ => .fail refusal

section

variable (r : Repository) (naming : Naming) (limits : ReadLimits)

def Repository.serveFiles : FileCall → FileM FileAnswer
  | .commit branch startRevision changes message identity => do
      let oid ← r.commitFiles naming branch startRevision changes message identity
      pure (.committed oid)
  | .read revision path => do
      Program.check (validateRepoPath path)
      let oid ← onRepo (r.resolveCommit revision)
      let outcome ← (readFileAt naming limits oid path).caught
      pure (.content oid outcome)
  | .list revision recursive => do
      let oid ← onRepo (r.resolveCommit revision)
      let outcome ← (listTreeAt naming oid recursive).caught
      pure (.entries oid outcome)
  | .log revision limit => do
      Program.check (checkLimit limits limit)
      let oid ← onRepo (r.resolveCommit revision)
      let outcome ← (listCommitsAt oid limit).caught
      pure (.commits oid outcome)

/-- A read is served by `read_file`. -/
theorem readFile_eq (revision path : String) :
    r.readFile naming limits revision path =
      r.serveFiles naming limits (.read revision path) >>= FileAnswer.toContent := by
  rw [Repository.readFile, Repository.serveFiles]
  simp only [Program.sequence_assoc]
  congr 1
  funext _
  congr 1
  funext oid
  exact (Program.caught_check_bind _).symm

/-- A listing is served by `list_tree`. -/
theorem listTree_eq (revision : String) (recursive : Bool) :
    r.listTree naming revision recursive =
      r.serveFiles naming limits (.list revision recursive) >>= FileAnswer.toEntries := by
  rw [Repository.listTree, Repository.serveFiles]
  simp only [Program.sequence_assoc]
  congr 1
  funext oid
  exact (Program.caught_check_bind _).symm

/-- A log is served by `list_commits`. -/
theorem listCommits_eq (revision : String) (limit : Nat) :
    r.listCommits limits revision limit =
      r.serveFiles naming limits (.log revision limit) >>= FileAnswer.toCommits := by
  rw [Repository.listCommits, Repository.serveFiles]
  simp only [Program.sequence_assoc]
  congr 1
  funext _
  congr 1
  funext oid
  exact (Program.caught_check_bind _).symm

/-- What holds of an answer. -/
def Answered : FileCall → FileAnswer → ObjectStore → Prop
  | .commit _ _ changes message identity, .committed oid, t => ∃ parent parentTree body,
      Committed r naming changes message identity oid parent parentTree body t
  | .read revision path, .content oid outcome, t => Means r revision oid ∧
      ∃ body, t.bodies.lookup oid = some body ∧ FileRead limits body.tree path outcome t
  | .list revision recursive, .entries oid outcome, t => Means r revision oid ∧
      ∃ body, t.bodies.lookup oid = some body ∧ TreeRead naming body.tree recursive outcome t
  | .log revision limit, .commits oid outcome, t => Means r revision oid ∧
      LogRead oid limit outcome t
  | _, _, _ => False

variable {r naming limits} {s t : ObjectStore} {call : FileCall} {answer : FileAnswer}

theorem Answered.grows (hs : s.Sound naming) (h : Answered r naming limits call answer s)
    (hst : Grows naming s t) : Answered r naming limits call answer t := by
  unfold Answered at h
  split at h
  next =>
    obtain ⟨parent, parentTree, body, hcommitted⟩ := h
    exact ⟨parent, parentTree, body, hcommitted.grows hst⟩
  next =>
    obtain ⟨hmeans, body, hbody, hread⟩ := h
    exact ⟨hmeans, body, hst.bodies _ _ hbody, hread.grows (hs.trees _ _ hbody) hst⟩
  next =>
    obtain ⟨hmeans, body, hbody, hlisted⟩ := h
    exact ⟨hmeans, body, hst.bodies _ _ hbody, hlisted.grows (hs.trees _ _ hbody) hst⟩
  next => exact ⟨h.1, h.2.grows hst⟩
  next => exact h.elim

/-- A call keeps the objects, and its answer is true. -/
theorem serveFiles_ensures (hs : s.Sound naming) (call : FileCall) :
    (r.serveFiles naming limits call).Ensures (Grows naming) (Grows naming)
      (fun answer t => t.Sound naming ∧ Answered r naming limits call answer t) s := by
  cases call with
  | commit branch startRevision changes message identity =>
      apply files_bind (commitFiles_ensures hs)
      intro oid t hst hcommitted
      exact files_pure ⟨hst.sound hs, hcommitted⟩
  | read revision path =>
      apply files_bind (Program.Ensures.check (Q := fun _ _ => True) fun _ _ => trivial)
      intro _ t hst _
      apply files_bind (onRepo_finds resolveCommit_finds)
      rintro oid u htu ⟨hhas, hmeans⟩
      have hu := (hst.trans htu).sound hs
      obtain ⟨body, hbody⟩ := hu.bodies oid hhas
      apply files_bind (readFileAt_ensures hu hbody)
      intro outcome v huv hread
      exact files_pure ⟨huv.sound hu, hmeans, body, huv.bodies _ _ hbody, hread⟩
  | list revision recursive =>
      apply files_bind (onRepo_finds resolveCommit_finds)
      rintro oid u hsu ⟨hhas, hmeans⟩
      have hu := hsu.sound hs
      obtain ⟨body, hbody⟩ := hu.bodies oid hhas
      apply files_bind (listTreeAt_ensures hu hbody)
      intro outcome v huv hlisted
      exact files_pure ⟨huv.sound hu, hmeans, body, huv.bodies _ _ hbody, hlisted⟩
  | log revision limit =>
      apply files_bind (Program.Ensures.check (Q := fun _ _ => True) fun _ _ => trivial)
      intro _ t hst _
      apply files_bind (onRepo_finds resolveCommit_finds)
      rintro oid u htu ⟨-, hmeans⟩
      have hu := (hst.trans htu).sound hs
      apply files_bind (listCommitsAt_ensures hu)
      intro outcome v huv hlog
      exact files_pure ⟨huv.sound hu, hmeans, hlog⟩

end

/-! ## Runs -/

/-- The calls on the files of a repository, and what it keeps. -/
abbrev FileCalls := Pool ObjectStore FileInput GitError FileAnswer FileCall

/-- A call arrives, the `n`th call runs its next subprocess, or something else
adds objects and moves references. -/
inductive FileTurn where
  | arrive (call : FileCall)
  | run (n : Nat) (i : FileInput)
  | outside

section

variable (r : Repository) (naming : Naming) (limits : ReadLimits)

/-- The turns that the calls take. -/
def Repository.fileTurn (calls : FileCalls) : FileTurn → Option FileCalls
  | .arrive call => some (calls.start (r.serveFiles naming limits) call)
  | .run n i => calls.run n i
  | .outside => none

/-- The calls in any order, on any repository that Git made. -/
def Repository.fileSystem : System FileCalls FileTurn where
  start calls := calls.threads = [] ∧ calls.state.Sound naming
  step calls turn calls' := r.fileTurn naming limits calls turn = some calls' ∨
    turn = .outside ∧ calls'.threads = calls.threads ∧ Grows naming calls.state calls'.state

/-- The call has the answer. -/
def Answers (calls : FileCalls) (call : FileCall) (answer : FileAnswer) : Prop :=
  ⟨call, .done answer⟩ ∈ calls.threads

variable {r naming limits} {calls calls' : FileCalls} {turn : FileTurn}

/-- The answers are true, now and later. -/
structure Truthful (r : Repository) (naming : Naming) (limits : ReadLimits) (calls : FileCalls) :
    Prop where
  sound : calls.state.Sound naming
  promises : calls.Promises (Grows naming) fun call answer t =>
    t.Sound naming ∧ Answered r naming limits call answer t

theorem Truthful.step (h : Truthful r naming limits calls)
    (hstep : (r.fileSystem naming limits).step calls turn calls') :
    Truthful r naming limits calls' := by
  have hstable : ∀ call answer s t, s.Sound naming ∧ Answered r naming limits call answer s →
      Grows naming s t → t.Sound naming ∧ Answered r naming limits call answer t :=
    fun call answer s t hanswer hst => ⟨hst.sound hanswer.1, hanswer.2.grows hanswer.1 hst⟩
  have htrans : ∀ a b c, Grows naming a b → Grows naming b c → Grows naming a c :=
    fun _ _ _ => .trans
  rcases hstep with hturn | ⟨rfl, hthreads, hgrows⟩
  · cases turn with
    | arrive call =>
        obtain rfl := Option.some.inj hturn
        exact ⟨h.sound, h.promises.start (serveFiles_ensures h.sound call)⟩
    | run n i =>
        obtain ⟨hgrows, hpromises⟩ := h.promises.run .refl htrans hstable hturn
        exact ⟨hgrows.sound h.sound, hpromises⟩
    | outside => cases hturn
  · have hpromises := h.promises.env htrans hstable hgrows
    rw [← hthreads] at hpromises
    exact ⟨hgrows.sound h.sound, hpromises⟩

theorem Truthful.run (h : (r.fileSystem naming limits).Reachable calls) :
    Truthful r naming limits calls := by
  apply h.invariant
  · rintro s ⟨hthreads, hsound⟩
    refine ⟨hsound, fun thread hthread => ?_⟩
    rw [hthreads] at hthread
    cases hthread
  · exact fun s turn t hs hst => hs.step hst

theorem Truthful.answered (h : Truthful r naming limits calls) {call : FileCall}
    {answer : FileAnswer} (hanswer : Answers calls call answer) :
    Answered r naming limits call answer calls.state :=
  (h.promises.result hanswer rfl).2

/-- A call was at the commit: a revision was resolved to it, or is its
identifier. -/
def IsAt (r : Repository) (revision other oid : String) : Prop :=
  other = oid ∨ isOid revision = true ∧ Rust.len revision = r.oidLen ∧ lowercase revision = oid

theorem IsAt.eq {r : Repository} {revision other oid : String} (h : IsAt r revision other oid)
    (hmeans : Means r revision other) : other = oid := by
  rcases h with rfl | ⟨hoid, hlen, rfl⟩
  · rfl
  · exact hmeans hoid hlen

/-- The calls at a commit read a tree. -/
structure ReadsTree (r : Repository) (naming : Naming) (limits : ReadLimits) (calls : FileCalls)
    (oid : String) (tree : Index) : Prop where
  read : ∀ revision path other outcome,
    Answers calls (.read revision path) (.content other outcome) →
    IsAt r revision other oid → FileRead limits tree path outcome calls.state
  listed : ∀ revision recursive other outcome,
    Answers calls (.list revision recursive) (.entries other outcome) →
    IsAt r revision other oid → TreeRead naming tree recursive outcome calls.state

theorem Truthful.readsTree (h : Truthful r naming limits calls) {oid : String} {body : CommitBody}
    (hbody : calls.state.bodies.lookup oid = some body) :
    ReadsTree r naming limits calls oid body.tree where
  read revision path other outcome hanswer hat := by
    obtain ⟨hmeans, found, hfound, hread⟩ := h.answered hanswer
    obtain rfl := hat.eq hmeans
    cases hbody.symm.trans hfound
    exact hread
  listed revision recursive other outcome hanswer hat := by
    obtain ⟨hmeans, found, hfound, hlisted⟩ := h.answered hanswer
    obtain rfl := hat.eq hmeans
    cases hbody.symm.trans hfound
    exact hlisted

end

/-! ## A file that is read back -/

/-- Git names the empty file and the empty directory. -/
def emptyNaming : Naming where
  toObjects := emptyObjects
  directory _ _ := "4b825dc642cb6eb9a060e54bf8d69288fbee4904"
  isOid_directory _ _ := by decide +kernel
  ident identity := do
    let name ← PlainText.ofString identity.name
    let email ← PlainText.ofString identity.email
    pure (name, email)

/-- A repository without objects. -/
def emptyStore : ObjectStore := ⟨.empty, ∅, ∅⟩

theorem emptyStore_sound : emptyStore.Sound emptyNaming where
  bodies oid h := by
    obtain ⟨node, hnode, -⟩ := h
    cases hnode
  trees oid body h := by cases h
  named oid content h := by cases h
  sizes oid content h := by cases h
  ids oid h := by
    obtain ⟨node, hnode, -⟩ := h
    cases hnode
  refs name oid h := by cases h

/-- A subprocess that succeeds. -/
def quietFile : FileInput := ⟨none, none, someOid, ⟨"0", by decide⟩, [], [someOid]⟩

/-- The first commit of a repository. -/
def commitReadme : FileCall := .commit "main" none [.upsert "README.md" []] "first" tester

/-- The file is committed and read, and the commit is looked up in the log. -/
def commitReadLog : List FileTurn :=
  .arrive commitReadme :: List.replicate 7 (.run 0 quietFile) ++
    .arrive (.read someOid "README.md") :: List.replicate 3 (.run 1 quietFile) ++
    .arrive (.log someOid 1) :: List.replicate 3 (.run 2 quietFile)

/-- What becomes of the calls. -/
def commitReadLogOutcomes : List (FileCall × Option (Except GitError FileAnswer)) :=
  [(commitReadme, some (.ok (.committed someOid))),
    (.read someOid "README.md", some (.ok (.content someOid (.ok [])))),
    (.log someOid 1, some (.ok (.commits someOid (.ok
      [⟨someOid, [], "C6 Test", "test@c6.local", "0", "first"⟩]))))]

/-- The calls, with what has become of them. -/
def FileCalls.outcomes (calls : FileCalls) :
    List (FileCall × Option (Except GitError FileAnswer)) :=
  calls.threads.map fun thread => (thread.request, thread.program.outcome)

theorem answers_of_outcomes {calls : FileCalls} {call : FileCall} {answer : FileAnswer}
    (h : (call, some (.ok answer)) ∈ FileCalls.outcomes calls) : Answers calls call answer := by
  obtain ⟨⟨request, program⟩, hthread, heq⟩ := List.mem_map.mp h
  obtain ⟨rfl, houtcome⟩ := Prod.mk.inj heq
  cases program with
  | done value =>
      cases houtcome
      exact hthread
  | fail error => cases houtcome
  | locked act next => cases houtcome

theorem commitReadLog_run :
    ∃ tr calls, (System.ofOption (fun _ => True) (sha1.fileTurn emptyNaming .default)).Run
        ⟨emptyStore, []⟩ tr calls ∧ FileCalls.outcomes calls = commitReadLogOutcomes := by
  have hrun : (System.follow (sha1.fileTurn emptyNaming .default) ⟨emptyStore, []⟩
      commitReadLog).map (fun last => FileCalls.outcomes last.2) =
        some commitReadLogOutcomes := by
    decide +kernel
  obtain ⟨⟨tr, calls⟩, hfollow, hcalls⟩ := Option.map_eq_some_iff.mp hrun
  exact ⟨tr, calls, .of_follow hfollow, hcalls⟩

/-- The calls of that run have their answers. -/
theorem exists_commitReadLog :
    ∃ calls, (sha1.fileSystem emptyNaming .default).Reachable calls ∧
      Answers calls commitReadme (.committed someOid) ∧
      Answers calls (.read someOid "README.md") (.content someOid (.ok [])) ∧
      Answers calls (.log someOid 1) (.commits someOid (.ok
        [⟨someOid, [], "C6 Test", "test@c6.local", "0", "first"⟩])) := by
  obtain ⟨tr, calls, hplayed, houtcomes⟩ := commitReadLog_run
  refine ⟨calls, ⟨⟨emptyStore, []⟩, tr, ⟨rfl, emptyStore_sound⟩,
    hplayed.mono fun _ _ _ hturn => Or.inl hturn⟩, ?_, ?_, ?_⟩
  · apply answers_of_outcomes
    rw [houtcomes]
    exact List.mem_cons_self
  · apply answers_of_outcomes
    rw [houtcomes]
    exact List.mem_cons_of_mem _ List.mem_cons_self
  · apply answers_of_outcomes
    rw [houtcomes]
    exact List.mem_cons_of_mem _ (List.mem_cons_of_mem _ List.mem_cons_self)

end Cresix.Git
