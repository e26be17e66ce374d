import Cresix.Git.Files
import Cresix.Git.RefFormat
import Cresix.Git.Revisions
import Cresix.Library.RelyGuarantee

/-!
# What is committed is read back

While calls work on a repository, one subprocess at a time, merges and pushes do
what they want to it, as long as they keep its objects.  All rely on, and
guarantee, that objects are kept (`Grows`).  A commit is then made from the
changes it was given (`commitFiles_ensures`), and a read or a listing answers
what its tree holds (`readFileAt_ensures`, `listTreeAt_ensures`).
-/

namespace Cresix.Git

open Concurrent (Program)
open History (Has)

/-! ## Sound stores -/

/-- A path that a tree can hold. -/
structure IsPath (path : String) : Prop where
  ne : path ≠ ""
  nul_notMem : '\x00' ∉ path.toList
  relative : path.toList.head? ≠ some '/'

/-- The trees that Git makes: their files are there, and no file is a
directory. -/
structure TreeSound (blobs : Blobs) (tree : Index) : Prop where
  path : ∀ path file, tree.lookup path = some file → IsPath path
  oid : ∀ path file, tree.lookup path = some file → isOid file.oid = true
  kept : ∀ path file, tree.lookup path = some file → file.mode ≠ gitlink →
    ∃ content, blobs.lookup file.oid = some content
  apart : ∀ path other file file', tree.lookup path = some file →
    tree.lookup other = some file' → ¬IsAbove path other

/-- The name of a reference, which has no control characters. -/
def IsRefName (name : String) : Prop := '\x00' ∉ name.toList ∧ '\n' ∉ name.toList

structure ObjectStore.Sound (naming : Naming) (store : ObjectStore) : Prop where
  bodies : ∀ oid, Has store.repo.commits oid → ∃ body, store.bodies.lookup oid = some body
  trees : ∀ oid body, store.bodies.lookup oid = some body → TreeSound store.blobs body.tree
  named : ∀ oid content, store.blobs.lookup oid = some content → naming.oid content = oid
  sizes : ∀ oid content, store.blobs.lookup oid = some content → content.length ≤ Rust.u64Max
  ids : ∀ oid, Has store.repo.commits oid → isOid oid = true
  refs : ∀ name oid, store.repo.refs.lookup name = some oid → IsRefName name

/-- Objects are kept. -/
structure Grows (naming : Naming) (s t : ObjectStore) : Prop where
  commits : s.repo.commits ⊆ t.repo.commits
  bodies : ∀ oid body, s.bodies.lookup oid = some body → t.bodies.lookup oid = some body
  blobs : ∀ oid content, s.blobs.lookup oid = some content → t.blobs.lookup oid = some content
  sound : s.Sound naming → t.Sound naming

section

variable {s t u : ObjectStore} {blobs blobs' : Blobs} {tree index : Index} {path oid : String}
  {content : List UInt8} {file : Entry} {body : CommitBody} {naming : Naming}

theorem Grows.refl (s : ObjectStore) : Grows naming s s where
  commits := List.Subset.refl _
  bodies _ _ h := h
  blobs _ _ h := h
  sound h := h

theorem Grows.trans (h : Grows naming s t) (h' : Grows naming t u) : Grows naming s u where
  commits := List.Subset.trans h.commits h'.commits
  bodies oid body hbody := h'.bodies oid body (h.bodies oid body hbody)
  blobs oid content hblob := h'.blobs oid content (h.blobs oid content hblob)
  sound hs := h'.sound (h.sound hs)

theorem TreeSound.mono (h : TreeSound blobs tree)
    (hkept : ∀ oid content, blobs.lookup oid = some content → blobs'.lookup oid = some content) :
    TreeSound blobs' tree where
  path := h.path
  oid := h.oid
  kept path file hfile hmode := by
    obtain ⟨content, hcontent⟩ := h.kept path file hfile hmode
    exact ⟨content, hkept _ _ hcontent⟩
  apart := h.apart

theorem TreeSound.grows (h : TreeSound s.blobs tree) (hst : Grows naming s t) :
    TreeSound t.blobs tree :=
  h.mono hst.blobs

/-! ## What the subprocesses do to the store -/

theorem keep_lookup (oid : String) (content : List UInt8) :
    ∃ kept, (s.keep oid content).blobs.lookup oid = some kept := by
  rw [ObjectStore.keep]
  split
  next h => exact Option.isSome_iff_exists.mp h
  next => exact ⟨content, Finmap.lookup_insert _⟩

theorem grows_keep (hsize : content.length ≤ Rust.u64Max) :
    Grows naming s (s.keep (naming.oid content) content) := by
  rw [ObjectStore.keep]
  split
  next => exact .refl s
  next hnew =>
    have hblobs : ∀ other kept, s.blobs.lookup other = some kept →
        (s.blobs.insert (naming.oid content) content).lookup other = some kept := by
      intro other kept hkept
      rw [Finmap.lookup_insert_eq_ite, if_neg ?_, hkept]
      rintro rfl
      exact hnew (Option.isSome_iff_exists.mpr ⟨kept, hkept⟩)
    refine ⟨List.Subset.refl _, fun _ _ h => h, hblobs, fun hs => ?_⟩
    have hcases : ∀ {other kept},
        (s.blobs.insert (naming.oid content) content).lookup other = some kept →
        naming.oid content = other ∧ content = kept ∨ s.blobs.lookup other = some kept := by
      intro other kept hkept
      rw [Finmap.lookup_insert_eq_ite] at hkept
      split at hkept
      next heq => exact .inl ⟨heq.symm, Option.some.inj hkept⟩
      next => exact .inr hkept
    refine ⟨hs.bodies, fun other body hbody => (hs.trees other body hbody).mono hblobs, ?_, ?_,
      hs.ids, hs.refs⟩
    · intro other kept hkept
      rcases hcases hkept with ⟨rfl, rfl⟩ | hold
      · rfl
      · exact hs.named other kept hold
    · intro other kept hkept
      rcases hcases hkept with ⟨rfl, rfl⟩ | hold
      · exact hsize
      · exact hs.sizes other kept hold

/-- The references and the parents are those of a commit without its files. -/
theorem repo_of_write {parents : List String} (h : s.write oid parents body = some t) :
    s.repo.write oid parents = some t.repo := by
  rw [ObjectStore.write] at h
  split at h
  next =>
    obtain ⟨repo, hwrite, rfl⟩ := Option.map_eq_some_iff.mp h
    exact hwrite
  next => cases h

theorem has_of_write {repo repo' : Repo} {parents : List String} {other : String}
    (h : repo.write oid parents = some repo') (hother : Has repo'.commits other) :
    other = oid ∨ Has repo.commits other := by
  rw [Repo.write] at h
  split at h
  next =>
    cases h
    exact .inr hother
  next =>
    split at h
    next =>
      cases h
      obtain ⟨node, hnode, rfl⟩ := hother
      rcases List.mem_cons.mp hnode with rfl | hold
      · exact .inl rfl
      · exact .inr ⟨node, hold, rfl⟩
    next => cases h

/-- A commit is written. -/
theorem grows_write {parents : List String} (hbody : TreeSound s.blobs body.tree)
    (h : s.write oid parents body = some t) :
    Grows naming s t ∧ ⟨oid, parents⟩ ∈ t.repo.commits ∧ t.bodies.lookup oid = some body := by
  rw [ObjectStore.write] at h
  split at h
  next hcheck =>
    obtain ⟨hoid, hsame⟩ := hcheck
    obtain ⟨repo, hwrite, rfl⟩ := Option.map_eq_some_iff.mp h
    obtain ⟨hmem, hrefs, hcommits⟩ := Repo.mem_of_write hwrite
    have hbodies : ∀ other kept, s.bodies.lookup other = some kept →
        (s.bodies.insert oid body).lookup other = some kept := by
      intro other kept hkept
      rw [Finmap.lookup_insert_eq_ite]
      split
      next heq =>
        subst heq
        rw [hsame kept hkept]
      next => exact hkept
    refine ⟨⟨hcommits, hbodies, fun _ _ h => h, fun hs => ?_⟩, hmem, Finmap.lookup_insert _⟩
    refine ⟨?_, ?_, hs.named, hs.sizes, ?_, ?_⟩
    · intro other hother
      rcases has_of_write hwrite hother with rfl | hold
      · exact ⟨body, Finmap.lookup_insert _⟩
      · obtain ⟨kept, hkept⟩ := hs.bodies other hold
        exact ⟨kept, hbodies other kept hkept⟩
    · intro other kept hkept
      have hcases : (s.bodies.insert oid body).lookup other = some kept := hkept
      rw [Finmap.lookup_insert_eq_ite] at hcases
      split at hcases
      next =>
        cases hcases
        exact hbody
      next => exact hs.trees other kept hcases
    · intro other hother
      rcases has_of_write hwrite hother with rfl | hold
      · exact hoid
      · exact hs.ids other hold
    · intro name target hname
      exact hs.refs name target (hrefs ▸ hname)
  next => cases h

end

/-! ## The rules for a subprocess -/

/-- The error of a subprocess that did not run, or did not succeed. -/
def IsFault (error : GitError) : Prop :=
  error = .gitUnavailable ∨ (∃ text, error = .io text) ∨ ∃ text, error = .commandFailed text

section

variable {α : Type} {Q : α → ObjectStore → Prop} {s : ObjectStore}

theorem ensures_subprocess {act : FileInput → ObjectStore → Except GitError α × ObjectStore}
    (hact : ∀ i t, Grows naming s t → Grows naming t (act i t).2 ∧
      ∀ value, (act i t).1 = .ok value → Q value (act i t).2) :
    (subprocess act).Ensures (Grows naming) (Grows naming) Q s := by
  apply Program.Ensures.step
  intro t i hst
  split
  next => exact ⟨.refl t, fun _ value h => by cases h⟩
  next => exact ⟨.refl t, fun _ value h => by cases h⟩
  next => exact ⟨(hact i t hst).1, fun _ => (hact i t hst).2⟩

theorem ensures_output {answer : FileInput → ObjectStore → Option α}
    (h : ∀ i t value, Grows naming s t → answer i t = some value → Q value t) :
    (output answer).Ensures (Grows naming) (Grows naming) Q s := by
  apply ensures_subprocess
  intro i t hst
  refine ⟨.refl t, fun value hvalue => h i t value hst ?_⟩
  cases hanswer : answer i t with
  | none =>
      rw [hanswer] at hvalue
      cases hvalue
  | some found =>
      rw [hanswer] at hvalue
      cases hvalue
      rfl

theorem files_bind {β : Type} {p : FileM α} {k : α → FileM β} {Q' : β → ObjectStore → Prop}
    (h : p.Ensures (Grows naming) (Grows naming) Q s)
    (hk : ∀ value t, Grows naming s t → Q value t →
      (k value).Ensures (Grows naming) (Grows naming) Q' t) :
    (p >>= k).Ensures (Grows naming) (Grows naming) Q' s :=
  h.bind .refl (fun _ _ _ => .trans) hk

theorem files_pure {value : α} (h : Q value s) :
    (pure value : FileM α).Ensures (Grows naming) (Grows naming) Q s := h

/-- A reading subprocess, with its outcome as a value. -/
theorem caught_output {answer : FileInput → ObjectStore → Option α}
    {Q : Except GitError α → ObjectStore → Prop}
    (hok : ∀ i t value, Grows naming s t → answer i t = some value → Q (.ok value) t)
    (herror : ∀ t error, Grows naming s t → IsFault error → Q (.error error) t) :
    ((output answer).caught : FileM _).Ensures (Grows naming) (Grows naming) Q s := by
  rw [output, subprocess, Program.caught_step]
  apply Program.Ensures.step
  intro t i hst
  split
  next error _ =>
    refine ⟨.refl t, fun _ value heq => ?_⟩
    cases heq
    refine herror t _ hst ?_
    cases error with
    | unavailable => exact .inl rfl
    | io text => exact .inr (.inl ⟨text, rfl⟩)
  next stderr _ =>
    refine ⟨.refl t, fun _ value heq => ?_⟩
    cases heq
    exact herror t _ hst (.inr (.inr ⟨_, rfl⟩))
  next =>
    refine ⟨.refl t, fun _ value heq => ?_⟩
    cases heq
    cases hanswer : answer i t with
    | none => exact herror t _ hst (.inr (.inr ⟨_, rfl⟩))
    | some found => exact hok i t found hst hanswer

/-! ## Commits and references -/

/-- The others keep the commits. -/
def KeepsCommits (a b : Repo) : Prop := a.commits ⊆ b.commits

/-- A subprocess that reads. -/
theorem git_finds {Q : α → Repo → Prop} {fatal : String → Except GitError α}
    {find : GitInput → Repo → Except GitError α} {a : Repo}
    (hfatal : ∀ stderr value, fatal stderr ≠ .ok value)
    (hfind : ∀ i b value, find i b = .ok value → Q value b) :
    (git fatal fun i repo => (find i repo, repo)).Ensures KeepsCommits (fun b c => c = b) Q a := by
  apply Program.Ensures.step
  intro b i _
  split
  next => exact ⟨rfl, fun _ value h => by cases h⟩
  next stderr _ => exact ⟨rfl, fun _ value h => absurd h (hfatal stderr value)⟩
  next => exact ⟨rfl, fun _ value h => hfind i b value h⟩

theorem finds_bind {β : Type} {p : GitM α} {k : α → GitM β} {Q : α → Repo → Prop}
    {Q' : β → Repo → Prop} {a : Repo}
    (h : p.Ensures KeepsCommits (fun b c => c = b) Q a)
    (hk : ∀ value b, Q value b → (k value).Ensures KeepsCommits (fun b c => c = b) Q' b) :
    (p >>= k).Ensures KeepsCommits (fun b c => c = b) Q' a :=
  Program.Ensures.bind (R := KeepsCommits) (fun _ => List.Subset.refl _)
    (fun _ _ _ => List.Subset.trans) h fun value b _ hQ => hk value b hQ

theorem onRepo_finds {p : GitM α} {Q : α → Repo → Prop}
    (h : p.Ensures KeepsCommits (fun b c => c = b) Q s.repo) :
    (onRepo p).Ensures (Grows naming) (Grows naming) (fun value t => Q value t.repo) s := by
  refine Program.Ensures.lift (fun _ _ => rfl) (fun _ _ hab => hab.commits) ?_ h
  rintro repo store rfl
  exact .refl store

end

/-- What a revision is resolved to, when it is an identifier. -/
def Means (r : Repository) (revision oid : String) : Prop :=
  isOid revision = true → Rust.len revision = r.oidLen → oid = lowercase revision

section

variable {r : Repository} {revision : String} {s : ObjectStore} {repo : Repo}

theorem revParseCommit_finds {find : GitInput → Repo → Option String} {P : String → Prop}
    (h : ∀ i b oid, find i b = some oid → Has b.commits oid ∧ P oid) :
    (revParseCommit revision find).Ensures KeepsCommits (fun b c => c = b)
      (fun oid b => Has b.commits oid ∧ P oid) repo := by
  apply git_finds
  · intro stderr value hanswer
    cases hanswer
  · intro i b oid hanswer
    cases hfind : find i b with
    | none =>
        rw [hfind] at hanswer
        cases hanswer
    | some found =>
        rw [hfind] at hanswer
        obtain rfl := Except.ok.inj hanswer
        exact h i b _ hfind

theorem resolveCommit_finds :
    (r.resolveCommit revision).Ensures KeepsCommits (fun b c => c = b)
      (fun oid b => Has b.commits oid ∧ Means r revision oid) repo := by
  rw [Repository.resolveCommit]
  split
  next hoid =>
    apply revParseCommit_finds
    intro i b oid h
    split at h
    next =>
      refine ⟨Repo.object_has h, fun _ _ => ?_⟩
      exact (Option.some.inj (Option.filter_eq_some_iff.mp h).1).symm
    next hlen => exact ⟨Repo.resolve_has h, fun _ heq => absurd heq hlen⟩
  next hoid =>
    apply finds_bind (Program.Ensures.check (Q := fun _ _ => True) fun _ _ => trivial)
    intro _ b _
    apply revParseCommit_finds
    intro i b oid h
    exact ⟨Repo.resolve_has h, fun hcheck => absurd hcheck hoid⟩

theorem resolveRefOptional_finds {reference : String} :
    (resolveRefOptional reference).Ensures KeepsCommits (fun b c => c = b)
      (fun current b => ∀ oid, current = some oid → Has b.commits oid) repo := by
  apply git_finds
  · intro stderr value h
    cases h
  · intro i b current h oid heq
    cases h
    exact Repo.resolve_has heq

theorem parentOf_finds {current startRevision : Option String}
    (hcurrent : ∀ oid, current = some oid → Has repo.commits oid) :
    (r.parentOf current startRevision).Ensures KeepsCommits (fun b c => c = b)
      (fun parent b => ∀ p, parent = some p → Has b.commits p) repo := by
  cases current with
  | some oid => exact hcurrent
  | none =>
      cases startRevision with
      | some revision =>
          apply finds_bind resolveCommit_finds
          rintro oid b ⟨hhas, -⟩ p hp
          cases hp
          exact hhas
      | none => exact fun p hp => by cases hp

/-- A reference is moved, and no object changes. -/
theorem atomicUpdate_grows {reference new old : String} (href : IsRefName reference) :
    (onRepo (r.atomicUpdate reference new old)).Ensures (Grows naming) (Grows naming)
      (fun _ _ => True) s := by
  have hfailed : ∀ (stderr : String) (b : Repo), b.commits = b.commits ∧
      ∀ name oid, b.refs.lookup name = some oid →
        b.refs.lookup name = some oid ∨ name = reference :=
    fun _ b => ⟨rfl, fun _ _ h => .inl h⟩
  have hpart : (r.atomicUpdate reference new old).Ensures KeepsCommits
      (fun b c => c.commits = b.commits ∧ ∀ name oid, c.refs.lookup name = some oid →
        b.refs.lookup name = some oid ∨ name = reference) (fun _ _ => True) s.repo := by
    apply Program.Ensures.step
    intro b i _
    split
    next => exact ⟨hfailed "" b, fun _ _ _ => trivial⟩
    next => exact ⟨hfailed "" b, fun _ _ _ => trivial⟩
    next =>
      dsimp only
      split
      next hnew =>
        split
        next =>
          refine ⟨⟨rfl, ?_⟩, fun _ _ _ => trivial⟩
          intro name oid hname
          have hcases : (b.refs.insert reference new).lookup name = some oid := hname
          rw [Finmap.lookup_insert_eq_ite] at hcases
          split at hcases
          next heq => exact .inr heq
          next => exact .inl hcases
        next => exact ⟨hfailed "" b, fun _ _ _ => trivial⟩
      next => exact ⟨hfailed "" b, fun _ _ _ => trivial⟩
  refine Program.Ensures.lift (fun _ _ => rfl) (fun _ _ hab => hab.commits) ?_ hpart
  rintro repo store ⟨hcommits, hrefs⟩
  refine ⟨fun _ hnode => hcommits ▸ hnode, fun _ _ h => h, fun _ _ h => h, fun hs => ?_⟩
  refine ⟨fun oid hoid => hs.bodies oid (hcommits ▸ hoid), hs.trees, hs.named, hs.sizes,
    fun oid hoid => hs.ids oid (hcommits ▸ hoid), ?_⟩
  intro name oid hname
  rcases hrefs name oid hname with hold | rfl
  · exact hs.refs name oid hold
  · exact href

end

/-! ## Committing -/

section

variable {r : Repository} {s t : ObjectStore} {naming : Naming} {blobs : Blobs}
  {tree index index' : Index} {path : String} {change : FileChange} {changes : List FileChange}

/-- What is checked of a change. -/
structure FileChange.Checked (change : FileChange) : Prop where
  path : IsPath change.path
  newline_notMem : '\n' ∉ change.path.toList
  size : ∀ path content, change = .upsert path content → content.length ≤ Rust.u64Max

theorem isPath_of_validateRepoPath (h : validateRepoPath path = .ok ()) : IsPath path := by
  have hcontrol := h
  rw [validateRepoPath] at h
  split at h
  next => cases h
  next hcheck =>
    simp only [Bool.or_eq_true, not_or, String.isEmpty_iff] at hcheck
    obtain ⟨⟨⟨⟨⟨⟨⟨hne, -⟩, hslash⟩, -⟩, -⟩, -⟩, hbytes⟩, -⟩ := hcheck
    refine ⟨hne, fun hmem => hbytes ?_, fun hhead => hslash ?_⟩
    · exact List.any_eq_true.mpr ⟨_, Rust.mem_bytes_of_mem hmem (by decide), by decide⟩
    · obtain ⟨rest, hrest⟩ := List.head?_eq_some_iff.mp hhead
      rw [Rust.startsWith, List.isPrefixOf_iff_prefix]
      exact Rust.bytes_prefix ⟨rest, hrest.symm⟩

theorem checked_of_validateEach {limits : Limits} {paths : List String} {total total' : Nat}
    (h : validateEach limits changes paths total = .ok total') :
    ∀ change ∈ changes, change.Checked := by
  induction changes generalizing paths total with
  | nil => exact fun change hmem => absurd hmem List.not_mem_nil
  | cons change changes ih =>
      obtain ⟨size, hsize, hcontent⟩ : ∃ size, change.pathAndSize = (change.path, size) ∧
          ∀ path content, change = .upsert path content → content.length = size := by
        cases change with
        | upsert path content =>
            refine ⟨content.length, rfl, fun _ _ heq => ?_⟩
            cases heq
            rfl
        | delete path => exact ⟨0, rfl, fun _ _ heq => by cases heq⟩
      rw [validateEach, hsize] at h
      obtain ⟨hvalid, h⟩ := Checks.check_bind_eq_ok.mp h
      dsimp only at h
      split at h
      next => cases h
      next =>
        split at h
        next => cases h
        next =>
          split at h
          next => cases h
          next hfits =>
            refine List.forall_mem_cons.mpr ⟨⟨isPath_of_validateRepoPath hvalid,
              newline_notMem_of_validateRepoPath hvalid, fun path content heq => ?_⟩, ih h⟩
            rw [hcontent path content heq]
            omega

theorem checked_of_validateChanges {limits : Limits}
    (h : validateChanges limits changes = .ok ()) : ∀ change ∈ changes, change.Checked := by
  rw [validateChanges] at h
  split at h
  next => cases h
  next =>
    obtain ⟨total, htotal, -⟩ := Checks.bind_eq_ok.mp h
    exact checked_of_validateEach htotal

/-- The index with one file more, which is no directory. -/
theorem TreeSound.insert {file : Entry} (h : TreeSound blobs index) (hpath : IsPath path)
    (hoid : isOid file.oid = true) (hkept : ∃ content, blobs.lookup file.oid = some content)
    (hclashes : ¬Clashes index path) : TreeSound blobs (index.insert path file) := by
  have hcases : ∀ {other kept}, (index.insert path file).lookup other = some kept →
      other = path ∧ kept = file ∨ index.lookup other = some kept := by
    intro other kept hother
    rw [Finmap.lookup_insert_eq_ite] at hother
    split at hother
    next heq => exact .inl ⟨heq, (Option.some.inj hother).symm⟩
    next => exact .inr hother
  have hapart : ∀ {other kept}, index.lookup other = some kept →
      ¬IsAbove other path ∧ ¬IsAbove path other := by
    intro other kept hother
    have hmem : other ∈ index.keys :=
      Finmap.mem_keys.mpr (Finmap.mem_iff.mpr ⟨kept, hother⟩)
    exact ⟨fun habove => hclashes ⟨other, hmem, .inl habove⟩,
      fun habove => hclashes ⟨other, hmem, .inr habove⟩⟩
  have hself : ¬IsAbove path path := by
    intro habove
    have hle := habove.length_le
    rw [List.length_append, List.length_singleton] at hle
    omega
  refine ⟨?_, ?_, ?_, ?_⟩
  · intro other kept hother
    rcases hcases hother with ⟨rfl, -⟩ | hold
    · exact hpath
    · exact h.path other kept hold
  · intro other kept hother
    rcases hcases hother with ⟨-, rfl⟩ | hold
    · exact hoid
    · exact h.oid other kept hold
  · intro other kept hother hmode
    rcases hcases hother with ⟨-, rfl⟩ | hold
    · exact hkept
    · exact h.kept other kept hold hmode
  · intro other other' kept kept' hother hother'
    rcases hcases hother with ⟨rfl, -⟩ | hold
    · rcases hcases hother' with ⟨rfl, -⟩ | hold'
      · exact hself
      · exact (hapart hold').2
    · rcases hcases hother' with ⟨rfl, -⟩ | hold'
      · exact (hapart hold).1
      · exact h.apart other other' kept kept' hold hold'

theorem TreeSound.erase (h : TreeSound blobs index) : TreeSound blobs (index.erase path) := by
  have hold : ∀ {other kept}, (index.erase path).lookup other = some kept →
      index.lookup other = some kept := by
    intro other kept hother
    rw [Finmap.lookup_erase_eq_ite] at hother
    split at hother
    next => cases hother
    next => exact hother
  exact ⟨fun other kept hother => h.path other kept (hold hother),
    fun other kept hother => h.oid other kept (hold hother),
    fun other kept hother => h.kept other kept (hold hother),
    fun other other' kept kept' hother hother' =>
      h.apart other other' kept kept' (hold hother) (hold hother')⟩

/-- The file that is added does not clash. -/
theorem not_clashes_of_addCacheinfo {oid : String} (h : isOid oid = true)
    (hput : addCacheinfo index (cacheinfo oid path).toList = some index') :
    ¬Clashes index path := by
  have hcomma : ',' ∉ oid.toList := by
    intro hmem
    exact absurd (visible_of_isOid h _ hmem).1 (by decide)
  have htext : (cacheinfo oid path).toList =
      "100644".toList ++ ',' :: (oid.toList ++ ',' :: path.toList) := by
    have hfront : "100644,".toList = "100644".toList ++ [','] := by decide
    have hsep : ",".toList = [','] := by decide
    simp only [cacheinfo, String.toList_append, hfront, hsep, List.append_assoc, List.cons_append,
      List.nil_append]
  rw [addCacheinfo, htext, Rust.splitOnce_append (by decide)] at hput
  simp only [Option.bind_eq_bind, Option.bind_some, Rust.splitOnce_append hcomma,
    String.ofList_toList] at hput
  split at hput
  next => cases hput
  next hclashes => exact hclashes

/-- One change keeps the index sound, once the content is stored. -/
theorem TreeSound.putChange (h : TreeSound blobs index) (hchecked : change.Checked)
    (hkept : ∀ path content, change = .upsert path content →
      ∃ kept, blobs.lookup (naming.oid content) = some kept)
    (hput : r.putChange naming.toObjects index change = some index') :
    TreeSound blobs index' := by
  obtain ⟨hindex, -⟩ := putChange_eq hchecked.newline_notMem hput
  cases change with
  | upsert path content =>
      have hoid := naming.isOid_oid content
      rw [hindex]
      exact h.insert hchecked.path hoid (hkept path content rfl)
        (not_clashes_of_addCacheinfo hoid hput)
  | delete path =>
      rw [hindex]
      exact h.erase

/-- The contents of some changes are stored. -/
def Stored (naming : Naming) (changes : List FileChange) (t : ObjectStore) : Prop :=
  ∀ path content, .upsert path content ∈ changes →
    ∃ kept, t.blobs.lookup (naming.oid content) = some kept

theorem Stored.grows (h : Stored naming changes s) (hst : Grows naming s t) :
    Stored naming changes t := by
  intro path content hmem
  obtain ⟨kept, hkept⟩ := h path content hmem
  exact ⟨kept, hst.blobs _ _ hkept⟩

theorem putFile_ensures (hchecked : change.Checked) (hindex : TreeSound s.blobs index) :
    (r.putFile naming index change).Ensures (Grows naming) (Grows naming) (fun index' t =>
      r.putChange naming.toObjects index change = some index' ∧ TreeSound t.blobs index' ∧
        Stored naming [change] t) s := by
  cases change with
  | upsert path content =>
      apply files_bind (Q := fun oid t => oid = naming.oid content ∧
        ∃ kept, t.blobs.lookup (naming.oid content) = some kept)
      · apply ensures_subprocess
        intro i t _
        refine ⟨grows_keep (hchecked.size path content rfl), fun value heq => ?_⟩
        cases heq
        exact ⟨rfl, keep_lookup _ _⟩
      · rintro oid t hst ⟨rfl, hkept⟩
        apply ensures_output
        intro i u index' htu hput
        obtain ⟨kept, hkept⟩ := hkept
        have hblob : ∀ path' content', FileChange.upsert path content = .upsert path' content' →
            ∃ kept, u.blobs.lookup (naming.oid content') = some kept := by
          intro path' content' heq
          cases heq
          exact ⟨kept, htu.blobs _ _ hkept⟩
        have hchange : r.putChange naming.toObjects index (.upsert path content) = some index' :=
          hput
        refine ⟨hchange, (hindex.grows (hst.trans htu)).putChange hchecked hblob hchange, ?_⟩
        intro path' content' hmem
        exact hblob path' content' (List.mem_singleton.mp hmem).symm
  | delete path =>
      apply ensures_output
      intro i t index' hst hput
      have hchange : r.putChange naming.toObjects index (.delete path) = some index' := hput
      refine ⟨hchange, (hindex.grows hst).putChange hchecked (fun _ _ heq => by cases heq) hchange,
        ?_⟩
      intro path' content' hmem
      cases List.mem_singleton.mp hmem

theorem putFiles_ensures (hchecked : ∀ change ∈ changes, change.Checked)
    (hindex : TreeSound s.blobs index) :
    (r.putFiles naming index changes).Ensures (Grows naming) (Grows naming) (fun tree t =>
      r.newTree naming.toObjects index changes = some tree ∧ TreeSound t.blobs tree ∧
        Stored naming changes t) s := by
  induction changes generalizing index s with
  | nil => exact files_pure ⟨rfl, hindex, fun _ _ hmem => absurd hmem List.not_mem_nil⟩
  | cons change changes ih =>
      obtain ⟨hfirst, hrest⟩ := List.forall_mem_cons.mp hchecked
      apply files_bind (putFile_ensures hfirst hindex)
      rintro index' t - ⟨hput, hindex', hstored⟩
      refine ((ih hrest hindex').frame (fun _ _ _ => .trans) (.refl t)).mono ?_
      rintro tree u ⟨htu, htree, hsound, hall⟩
      refine ⟨?_, hsound, ?_⟩
      · rw [Repository.newTree, List.foldlM_cons, hput]
        exact htree
      · intro path content hmem
        rcases List.mem_cons.mp hmem with heq | hmem
        · exact hstored.grows htu path content (List.mem_singleton.mpr heq)
        · exact hall path content hmem

/-- The tree of a parent, which is empty without one. -/
def TreeOf (t : ObjectStore) : Option String → Index → Prop
  | none, tree => tree = ∅
  | some parent, tree => ∃ body, t.bodies.lookup parent = some body ∧ body.tree = tree

/-- The commit is made from the changes. -/
structure Committed (r : Repository) (naming : Naming) (changes : List FileChange)
    (message : String) (identity : CommitIdentity) (oid : String) (parent : Option String)
    (parentTree : Index) (body : CommitBody) (t : ObjectStore) : Prop where
  commit : ⟨oid, parent.toList⟩ ∈ t.repo.commits
  onTree : TreeOf t parent parentTree
  holds : t.bodies.lookup oid = some body
  made : r.newTree naming.toObjects parentTree changes = some body.tree
  stored : Stored naming changes t
  valid : validateChanges r.limits changes = .ok ()
  tells : body.message.text = message
  author : naming.ident identity = some (body.authorName, body.authorEmail)

variable {message oid branch : String} {identity : CommitIdentity} {parent : Option String}
  {parentTree : Index} {body : CommitBody}

theorem TreeOf.grows (h : TreeOf s parent tree) (hst : Grows naming s t) :
    TreeOf t parent tree := by
  cases parent with
  | none => exact h
  | some parent =>
      obtain ⟨body, hbody, htree⟩ := h
      exact ⟨body, hst.bodies _ _ hbody, htree⟩

theorem Committed.grows
    (h : Committed r naming changes message identity oid parent parentTree body s)
    (hst : Grows naming s t) :
    Committed r naming changes message identity oid parent parentTree body t :=
  { h with
    commit := hst.commits h.commit
    onTree := h.onTree.grows hst
    holds := hst.bodies _ _ h.holds
    stored := h.stored.grows hst }

theorem loadTree_ensures (hs : s.Sound naming) :
    (loadTree parent).Ensures (Grows naming) (Grows naming) (fun tree t =>
      TreeOf t parent tree ∧ TreeSound t.blobs tree) s := by
  cases parent with
  | none =>
      have hempty : ∀ path file, (∅ : Index).lookup path ≠ some file := by
        intro path file h
        cases h
      exact files_pure ⟨rfl, fun _ _ h => absurd h (hempty _ _), fun _ _ h => absurd h (hempty _ _),
        fun _ _ h => absurd h (hempty _ _), fun _ _ _ _ h => absurd h (hempty _ _)⟩
  | some parent =>
      apply ensures_output
      intro i t tree hst htree
      obtain ⟨body, hbody, rfl⟩ := Option.map_eq_some_iff.mp htree
      exact ⟨⟨body, hbody, rfl⟩, (hst.sound hs).trees _ _ hbody⟩

theorem ofString_text {text : String} {plain : PlainText}
    (h : PlainText.ofString text = some plain) : plain.text = text := by
  rw [PlainText.ofString] at h
  split at h
  next =>
    cases h
    rfl
  next => cases h

theorem writeCommit_ensures {parents : List String} (htree : TreeSound s.blobs tree) :
    (writeCommit naming parents tree message identity).Ensures (Grows naming) (Grows naming)
      (fun oid t => ⟨oid, parents⟩ ∈ t.repo.commits ∧ ∃ body, t.bodies.lookup oid = some body ∧
        body.tree = tree ∧ body.message.text = message ∧
          naming.ident identity = some (body.authorName, body.authorEmail)) s := by
  apply ensures_subprocess
  intro i t hst
  dsimp only
  split
  next u hwritten =>
    obtain ⟨⟨name, email⟩, hident, hwritten⟩ := Option.bind_eq_some_iff.mp hwritten
    obtain ⟨plain, hplain, hwritten⟩ := Option.bind_eq_some_iff.mp hwritten
    obtain ⟨hgrows, hcommit, hbody⟩ := grows_write (htree.grows hst) hwritten
    refine ⟨hgrows, fun value heq => ?_⟩
    obtain rfl := Except.ok.inj heq
    exact ⟨hcommit, _, hbody, rfl, ofString_text hplain, hident⟩
  next => exact ⟨.refl t, fun value heq => by cases heq⟩

theorem commitFilesOnto_ensures {branchRef : String} {current : Option String}
    (hs : s.Sound naming) (href : IsRefName branchRef)
    (hvalid : validateChanges r.limits changes = .ok ()) :
    (r.commitFilesOnto naming branchRef current parent changes message identity).Ensures
      (Grows naming) (Grows naming) (fun oid t => ∃ parentTree body,
        Committed r naming changes message identity oid parent parentTree body t) s := by
  have hchecked := checked_of_validateChanges hvalid
  have hquiet : ∀ {t : ObjectStore}, (output fun _ _ => some () : FileM Unit).Ensures
      (Grows naming) (Grows naming) (fun _ _ => True) t := ensures_output fun _ _ _ _ _ => trivial
  apply files_bind hquiet
  intro _ t hst _
  apply files_bind (loadTree_ensures (hst.sound hs))
  rintro parentTree u - ⟨hparent, hsound⟩
  apply files_bind (putFiles_ensures hchecked hsound)
  rintro tree v huv ⟨hnew, htree, hstored⟩
  apply files_bind hquiet
  intro _ w hvw _
  apply files_bind (writeCommit_ensures (htree.grows hvw))
  rintro oid x hwx ⟨hcommit, body, hbody, rfl, hmessage, hauthor⟩
  apply files_bind (atomicUpdate_grows href)
  intro _ y hxy _
  have hall := (hvw.trans hwx).trans hxy
  exact files_pure ⟨parentTree, body,
    { commit := hxy.commits hcommit
      onTree := hparent.grows (huv.trans hall)
      holds := hxy.bodies _ _ hbody
      made := hnew
      stored := hstored.grows hall
      valid := hvalid
      tells := hmessage
      author := hauthor }⟩

theorem isRefName_of_validateBranch (h : validateBranch branch = .ok ()) :
    IsRefName ("refs/heads/" ++ branch) := by
  have hchar := (branchFormat_of_validateBranch h).characters
  have hmem : ∀ c, c ∉ "refs/heads/".toList → isRefChar c = false →
      c ∉ ("refs/heads/" ++ branch).toList := by
    intro c hfront hbad hmem
    rw [String.toList_append] at hmem
    rcases List.mem_append.mp hmem with hmem | hmem
    · exact hfront hmem
    · exact Bool.false_ne_true (hbad.symm.trans (hchar c hmem))
  exact ⟨hmem _ (by decide) (by decide), hmem _ (by decide) (by decide)⟩

theorem commitFiles_ensures {startRevision : Option String} (hs : s.Sound naming) :
    (r.commitFiles naming branch startRevision changes message identity).Ensures
      (Grows naming) (Grows naming) (fun oid t => ∃ parent parentTree body,
        Committed r naming changes message identity oid parent parentTree body t) s := by
  apply files_bind (Program.Ensures.check (Q := fun _ _ => validateBranch branch = .ok ())
    fun _ h => h)
  intro _ t hst hbranch
  have hcheck : ∀ {result : Except GitError Unit} {t : ObjectStore},
      (Program.check result : FileM Unit).Ensures (Grows naming) (Grows naming)
        (fun _ _ => True) t :=
    Program.Ensures.check fun _ _ => trivial
  apply files_bind hcheck
  intro _ u htu _
  apply files_bind hcheck
  intro _ v huv _
  apply files_bind (Program.Ensures.check (Q := fun _ _ =>
    validateChanges r.limits changes = .ok ()) fun _ h => h)
  intro _ w hvw hvalid
  apply files_bind (onRepo_finds resolveRefOptional_finds)
  intro current x hwx hcurrent
  apply files_bind (onRepo_finds (parentOf_finds hcurrent))
  intro parent y hxy _
  have hall := ((((hst.trans htu).trans huv).trans hvw).trans hwx).trans hxy
  exact (commitFilesOnto_ensures (hall.sound hs) (isRefName_of_validateBranch hbranch)
    hvalid).mono fun _ _ h => ⟨parent, h⟩

end

/-! ## Reading -/

section

variable {s t : ObjectStore} {naming : Naming} {limits : ReadLimits} {tree : Index}
  {path oid : String} {body : CommitBody} {file : Entry} {recursive : Bool}

/-- The contents of the files of a tree. -/
def ObjectStore.contents (store : ObjectStore) (tree : Index) (path : String) :
    Option (List UInt8) :=
  match tree.lookup path with
  | some file => if file.mode = gitlink then none else store.blobs.lookup file.oid
  | none => none

/-- What a read is to give back. -/
def ObjectStore.fileAt (store : ObjectStore) (limits : ReadLimits) (tree : Index)
    (path : String) : Except GitError (List UInt8) :=
  match store.contents tree path with
  | some content =>
      if limits.maxReadBytes < content.length then
        .error (.limitExceeded "file is too large to read")
      else .ok content
  | none =>
      if path ∈ tree ∨ IsDirectory tree path then .error (.invalidPath "path is not a file")
      else .error (.notFound path)

theorem contents_grows (htree : TreeSound s.blobs tree) (hst : Grows naming s t) :
    t.contents tree path = s.contents tree path := by
  rw [ObjectStore.contents, ObjectStore.contents]
  cases hfile : tree.lookup path with
  | none => rfl
  | some file =>
      dsimp only
      split
      next => rfl
      next hmode =>
        obtain ⟨content, hcontent⟩ := htree.kept path file hfile hmode
        rw [hcontent, hst.blobs _ _ hcontent]

theorem fileAt_grows (htree : TreeSound s.blobs tree) (hst : Grows naming s t) :
    t.fileAt limits tree path = s.fileAt limits tree path := by
  rw [ObjectStore.fileAt, ObjectStore.fileAt, contents_grows htree hst]

theorem entryAt_path {mode : Nat} {entry : TreeEntry}
    (h : t.entryAt naming tree path = some (mode, entry)) : entry.path = path := by
  rw [ObjectStore.entryAt] at h
  split at h
  next =>
    cases h
    rw [ObjectStore.fileEntry]
    split
    next => rfl
    next => rfl
  next =>
    split at h
    next =>
      cases h
      rfl
    next => cases h

/-- A directory is a path as well. -/
theorem isPath_of_isDirectory (htree : TreeSound t.blobs tree) (h : IsDirectory tree path) :
    path ≠ "" ∧ '\x00' ∉ path.toList := by
  obtain ⟨other, hmem, rest, hrest⟩ := h
  obtain ⟨file, hfile⟩ := Finmap.mem_iff.mp (Finmap.mem_keys.mp hmem)
  have hpath := htree.path other file hfile
  refine ⟨?_, fun hnul => hpath.nul_notMem ?_⟩
  · rintro rfl
    refine hpath.relative ?_
    rw [← hrest]
    rfl
  · rw [← hrest]
    exact List.mem_append_left _ (List.mem_append_left _ hnul)

/-- Git can list everything that a sound tree holds. -/
theorem listed_eq (naming : Naming) (ht : t.Sound naming) (htree : TreeSound t.blobs tree)
    (path : String) :
    (t.listed naming tree path).map Listed.toTreeEntry =
      (t.entryAt naming tree path).map Prod.snd := by
  have hentry : ∀ mode entry, (entry.path ≠ "" ∧ '\x00' ∉ entry.path.toList ∧
      isOid entry.oid = true ∧ ∀ n ∈ entry.size, n ≤ Rust.u64Max) →
      (Listed.ofEntry mode entry).map Listed.toTreeEntry = some entry := by
    intro mode entry h
    rw [Listed.ofEntry, dif_pos h]
    rfl
  rw [ObjectStore.listed]
  cases hat : t.entryAt naming tree path with
  | none => rfl
  | some found =>
      obtain ⟨mode, entry⟩ := found
      refine hentry mode entry ?_
      have hpath := entryAt_path hat
      rw [ObjectStore.entryAt] at hat
      split at hat
      next file hfile =>
        cases hat
        have hfound := htree.path path file hfile
        rw [hpath]
        refine ⟨hfound.ne, hfound.nul_notMem, ?_⟩
        rw [ObjectStore.fileEntry]
        split
        next => exact ⟨htree.oid path file hfile, fun n hn => by cases hn⟩
        next hmode =>
          refine ⟨htree.oid path file hfile, fun n hn => ?_⟩
          obtain ⟨content, hcontent, rfl⟩ := Option.map_eq_some_iff.mp hn
          exact ht.sizes _ _ hcontent
      next =>
        split at hat
        next hdirectory =>
          cases hat
          obtain ⟨hne, hnul⟩ := isPath_of_isDirectory htree hdirectory
          exact ⟨hne, hnul, naming.isOid_directory _ _, fun n hn => by cases hn⟩
        next => cases hat

/-- What the checks on an entry find says what is read. -/
def ObjectStore.Reads (store : ObjectStore) (limits : ReadLimits) (tree : Index)
    (path : String) : Except GitError String → Prop
  | .ok blob => ∃ content, store.blobs.lookup blob = some content ∧
      store.fileAt limits tree path = .ok content
  | .error error => store.fileAt limits tree path = .error error

theorem reads_none (h : t.entryAt naming tree path = none) :
    t.Reads limits tree path (.error (.notFound path)) := by
  rw [ObjectStore.entryAt] at h
  split at h
  next => cases h
  next hfile =>
    split at h
    next => cases h
    next hdirectory =>
      have habsent : path ∉ tree := Finmap.lookup_eq_none.mp hfile
      simp [ObjectStore.Reads, ObjectStore.fileAt, ObjectStore.contents, hfile, habsent,
        hdirectory]

theorem reads_entry (htree : TreeSound t.blobs tree) {mode : Nat} {entry : TreeEntry}
    (h : t.entryAt naming tree path = some (mode, entry)) :
    t.Reads limits tree path (checkEntry limits entry) := by
  rw [ObjectStore.entryAt] at h
  split at h
  next file hfile =>
    cases h
    have hmem : path ∈ tree := Finmap.mem_iff.mpr ⟨file, hfile⟩
    rw [ObjectStore.fileEntry, checkEntry]
    by_cases hmode : file.mode = gitlink
    · simp [ObjectStore.Reads, ObjectStore.fileAt, ObjectStore.contents, hfile, hmode, hmem]
    · obtain ⟨content, hcontent⟩ := htree.kept path file hfile hmode
      by_cases hsize : limits.maxReadBytes < content.length
      · simp [ObjectStore.Reads, ObjectStore.fileAt, ObjectStore.contents, hfile, hmode,
          hcontent, hsize]
      · simp [ObjectStore.Reads, ObjectStore.fileAt, ObjectStore.contents, hfile, hmode,
          hcontent, hsize]
  next hfile =>
    split at h
    next hdirectory =>
      cases h
      simp [checkEntry, ObjectStore.Reads, ObjectStore.fileAt, ObjectStore.contents, hfile,
        hdirectory]
    next => cases h

/-- Whatever Git lists, only the blob of the path itself is read. -/
theorem readable_ok (ht : t.Sound naming) (htree : TreeSound t.blobs tree) {paths : List String}
    {blob : String}
    (h : readable limits (treeListing (paths.filterMap (t.listed naming tree))) path = .ok blob) :
    t.Reads limits tree path (.ok blob) := by
  obtain ⟨entry, hentry, hcheck⟩ := Checks.bind_eq_ok.mp h
  obtain ⟨hentries, hpath⟩ := parseExactTreeEntry_eq_ok.mp hentry
  rw [parseTreeEntries_listing, Except.ok.injEq] at hentries
  have hmem : entry ∈ (paths.filterMap (t.listed naming tree)).map Listed.toTreeEntry := by
    rw [hentries]
    exact List.mem_singleton_self _
  obtain ⟨listed, hlisted, rfl⟩ := List.mem_map.mp hmem
  obtain ⟨other, -, hother⟩ := List.mem_filterMap.mp hlisted
  have hat := listed_eq naming ht htree other
  rw [hother] at hat
  obtain ⟨⟨mode, found⟩, hfound, rfl⟩ := Option.map_eq_some_iff.mp hat.symm
  rw [(entryAt_path hfound).symm.trans hpath] at hfound
  rw [← hcheck]
  exact reads_entry htree hfound

/-- A path without magic is read as it is. -/
theorem readable_plain (ht : t.Sound naming) (htree : TreeSound t.blobs tree) :
    t.Reads limits tree path
      (readable limits (treeListing ([path].filterMap (t.listed naming tree))) path) := by
  have hentries : parseTreeEntries (treeListing ([path].filterMap (t.listed naming tree))) =
      .ok ((t.entryAt naming tree path).map Prod.snd).toList := by
    rw [parseTreeEntries_listing, ← listed_eq naming ht htree]
    cases hlisted : t.listed naming tree path with
    | none => simp [hlisted]
    | some listed => simp [hlisted]
  cases hat : t.entryAt naming tree path with
  | none =>
      rw [hat] at hentries
      rw [readable, parseExactTreeEntry, hentries]
      exact reads_none hat
  | some found =>
      rw [hat] at hentries
      have hexact := parseExactTreeEntry_eq_ok.mpr ⟨hentries, entryAt_path hat⟩
      rw [readable, hexact]
      exact reads_entry htree hat

/-- What a read answers: what is at the path, unless the call failed or the path
has magic. -/
structure FileRead (limits : ReadLimits) (tree : Index) (path : String)
    (outcome : Except GitError (List UInt8)) (t : ObjectStore) : Prop where
  ok : ∀ content, outcome = .ok content → t.fileAt limits tree path = .ok content
  error : ∀ error, outcome = .error error → path.toList.head? = some ':' ∨ IsFault error ∨
    t.fileAt limits tree path = .error error

theorem FileRead.of_ok {content : List UInt8} (h : t.fileAt limits tree path = .ok content) :
    FileRead limits tree path (.ok content) t where
  ok found heq := by
    cases heq
    exact h
  error error heq := by cases heq

theorem FileRead.of_error {error : GitError} (h : path.toList.head? = some ':' ∨ IsFault error ∨
    t.fileAt limits tree path = .error error) : FileRead limits tree path (.error error) t where
  ok content heq := by cases heq
  error found heq := by
    cases heq
    exact h

theorem FileRead.grows {outcome : Except GitError (List UInt8)}
    (h : FileRead limits tree path outcome s) (htree : TreeSound s.blobs tree)
    (hst : Grows naming s t) : FileRead limits tree path outcome t where
  ok content heq := (fileAt_grows htree hst).trans (h.ok content heq)
  error error heq := by
    rw [fileAt_grows htree hst]
    exact h.error error heq

theorem readFileAt_ensures (hs : s.Sound naming) (hbody : s.bodies.lookup oid = some body) :
    ((readFileAt naming limits oid path).caught : FileM _).Ensures (Grows naming) (Grows naming)
      (FileRead limits body.tree path) s := by
  rw [readFileAt, Program.caught_bind]
  apply files_bind (Q := fun result t => t.Sound naming ∧ match result with
    | .ok listing => ∃ paths, (path.toList.head? = some ':' ∨ paths = [path]) ∧
        listing = treeListing (paths.filterMap (t.listed naming body.tree))
    | .error error => IsFault error)
  · apply caught_output
    · intro i t listing hst hlisting
      obtain ⟨found, hfound, rfl⟩ := Option.map_eq_some_iff.mp hlisting
      cases (hst.bodies _ _ hbody).symm.trans hfound
      refine ⟨hst.sound hs, selected path i body.tree, ?_, rfl⟩
      rw [selected]
      split
      next hmagic => exact .inl hmagic
      next => exact .inr rfl
    · exact fun t error hst hfault => ⟨hst.sound hs, hfault⟩
  · rintro (error | listing) t hst ⟨ht, hlisting⟩
    · exact files_pure (.of_error (.inr (.inl hlisting)))
    · obtain ⟨paths, hpaths, rfl⟩ := hlisting
      have htree := ht.trees _ _ (hst.bodies _ _ hbody)
      dsimp only
      rw [Program.caught_bind, Program.caught_check]
      cases hreadable : readable limits
          (treeListing (paths.filterMap (t.listed naming body.tree))) path with
      | error error =>
          refine files_pure (.of_error (hpaths.imp id fun hplain => .inr ?_))
          rw [hplain] at hreadable
          have hread : t.Reads limits body.tree path _ := readable_plain ht htree
          rw [hreadable] at hread
          exact hread
      | ok blob =>
          obtain ⟨content, hblob, hread⟩ := readable_ok ht htree hreadable
          apply caught_output
          · intro i u found htu hfound
            cases (htu.blobs _ _ hblob).symm.trans hfound
            exact .of_ok ((fileAt_grows htree htu).trans hread)
          · exact fun u error htu hfault => .of_error (.inr (.inl hfault))

end

/-! ## Listing -/

section

variable {s t : ObjectStore} {naming : Naming} {tree : Index} {path file oid : String}
  {body : CommitBody} {recursive : Bool}

/-- The first part of a path is the path itself, or a directory of it. -/
theorem topPath_eq_iff :
    topPath file = path ↔ '/' ∉ path.toList ∧ (path = file ∨ IsAbove path file) := by
  constructor
  · rintro rfl
    rw [IsAbove, topPath, String.toList_ofList]
    refine ⟨fun hmem => ?_, ?_⟩
    · simpa using List.mem_takeWhile_imp hmem
    · have hsplit := List.takeWhile_append_dropWhile (p := (· ≠ '/')) (l := file.toList)
      cases hrest : file.toList.dropWhile (· ≠ '/') with
      | nil =>
          rw [hrest, List.append_nil] at hsplit
          exact .inl (String.toList_injective (by rw [String.toList_ofList, hsplit]))
      | cons c rest =>
          have hslash : c = '/' := by
            have hne : file.toList.dropWhile (· ≠ '/') ≠ [] := by
              rw [hrest]
              exact List.cons_ne_nil c rest
            have hhead := List.head_dropWhile_not (· ≠ '/') hne
            simp only [hrest, List.head_cons] at hhead
            simpa using hhead
          refine .inr ⟨rest, ?_⟩
          rw [hrest, hslash] at hsplit
          rw [List.append_assoc]
          exact hsplit
  · rintro ⟨hslash, h⟩
    have hfront : ∀ c ∈ path.toList, decide (c ≠ '/') = true := by
      intro c hc
      refine decide_eq_true ?_
      rintro rfl
      exact hslash hc
    have htake : file.toList.takeWhile (· ≠ '/') = path.toList := by
      rcases h with rfl | ⟨rest, hrest⟩
      · exact List.takeWhile_eq_self_iff.mpr hfront
      · rw [← hrest, List.append_assoc, List.takeWhile_append_of_pos hfront]
        simp
    rw [topPath, htake, String.ofList_toList]

theorem mem_sortedKeys {β : Type} {entries : Finmap fun _ : String => β} {key : String} :
    key ∈ sortedKeys entries ↔ key ∈ entries := by
  rw [sortedKeys, Finset.mem_sort, Finmap.mem_keys]

/-- A path of a recursive listing is a file; one of a plain listing is a file
or a directory at the top. -/
theorem mem_treePaths : path ∈ treePaths recursive tree ↔
    if recursive = true then path ∈ tree
    else '/' ∉ path.toList ∧ (path ∈ tree ∨ IsDirectory tree path) := by
  rw [treePaths]
  cases recursive with
  | true => simp [mem_sortedKeys]
  | false =>
      simp only [Bool.false_eq_true, if_false, List.mem_dedup, List.mem_map, mem_sortedKeys,
        topPath_eq_iff]
      constructor
      · rintro ⟨file, hmem, hslash, rfl | habove⟩
        · exact ⟨hslash, .inl hmem⟩
        · exact ⟨hslash, .inr ⟨file, hmem, habove⟩⟩
      · rintro ⟨hslash, hmem | ⟨file, hmem, habove⟩⟩
        · exact ⟨path, hmem, hslash, .inl rfl⟩
        · exact ⟨file, hmem, hslash, .inr habove⟩

theorem nodup_treePaths : (treePaths recursive tree).Nodup := by
  rw [treePaths]
  split
  next => exact Finset.sort_nodup ..
  next => exact List.nodup_dedup _

theorem entryAt_grows (htree : TreeSound s.blobs tree) (hst : Grows naming s t) :
    t.entryAt naming tree path = s.entryAt naming tree path := by
  rw [ObjectStore.entryAt, ObjectStore.entryAt]
  cases hfile : tree.lookup path with
  | none => rfl
  | some file =>
      dsimp only
      rw [ObjectStore.fileEntry, ObjectStore.fileEntry]
      split
      next => rfl
      next hmode =>
        obtain ⟨content, hcontent⟩ := htree.kept path file hfile hmode
        rw [hcontent, hst.blobs _ _ hcontent]

/-- There is an entry at the paths that are listed, and at no other. -/
theorem entryAt_isSome : (t.entryAt naming tree path).isSome = true ↔
    path ∈ tree ∨ IsDirectory tree path := by
  rw [ObjectStore.entryAt, ← Finmap.lookup_isSome]
  cases tree.lookup path with
  | some file => simp
  | none => by_cases hdirectory : IsDirectory tree path <;> simp [hdirectory]

/-- What a listing answers: each file, or each file and directory at the top,
once, as it is in the tree. -/
structure TreeRead (naming : Naming) (tree : Index) (recursive : Bool)
    (outcome : Except GitError (List TreeEntry)) (t : ObjectStore) : Prop where
  once : ∀ entries, outcome = .ok entries → (entries.map TreeEntry.path).Nodup
  paths : ∀ entries, outcome = .ok entries → ∀ path, path ∈ entries.map TreeEntry.path ↔
    if recursive = true then path ∈ tree
    else '/' ∉ path.toList ∧ (path ∈ tree ∨ IsDirectory tree path)
  entries : ∀ entries, outcome = .ok entries → ∀ entry ∈ entries,
    ∃ mode, t.entryAt naming tree entry.path = some (mode, entry)
  error : ∀ error, outcome = .error error → IsFault error

theorem TreeRead.grows {outcome : Except GitError (List TreeEntry)}
    (h : TreeRead naming tree recursive outcome s) (htree : TreeSound s.blobs tree)
    (hst : Grows naming s t) : TreeRead naming tree recursive outcome t where
  once := h.once
  paths := h.paths
  entries entries heq entry hmem := by
    rw [entryAt_grows htree hst]
    exact h.entries entries heq entry hmem
  error := h.error

theorem TreeRead.of_error {error : GitError} (h : IsFault error) :
    TreeRead naming tree recursive (.error error) t where
  once entries heq := by cases heq
  paths entries heq := by cases heq
  entries entries heq := by cases heq
  error found heq := by
    cases heq
    exact h

theorem filterMap_listed (ht : t.Sound naming) (htree : TreeSound t.blobs tree)
    (paths : List String) (hpaths : ∀ path ∈ paths, path ∈ tree ∨ IsDirectory tree path) :
    ((paths.filterMap (t.listed naming tree)).map Listed.toTreeEntry).map TreeEntry.path = paths ∧
      ∀ entry ∈ (paths.filterMap (t.listed naming tree)).map Listed.toTreeEntry,
        ∃ mode, t.entryAt naming tree entry.path = some (mode, entry) := by
  induction paths with
  | nil => exact ⟨rfl, fun _ hmem => absurd hmem List.not_mem_nil⟩
  | cons path paths ih =>
      obtain ⟨hfirst, hrest⟩ := List.forall_mem_cons.mp hpaths
      obtain ⟨hmap, hall⟩ := ih hrest
      have hsome : (t.entryAt naming tree path).isSome = true := entryAt_isSome.mpr hfirst
      obtain ⟨⟨mode, entry⟩, hentry⟩ := Option.isSome_iff_exists.mp hsome
      have hat := listed_eq naming ht htree path
      rw [hentry] at hat
      obtain ⟨listed, hlisted, rfl⟩ := Option.map_eq_some_iff.mp hat
      have hpath := entryAt_path hentry
      rw [List.filterMap_cons_some hlisted]
      refine ⟨?_, ?_⟩
      · rw [List.map_cons, List.map_cons, hmap]
        exact congrArg (· :: paths) hpath
      · rw [List.map_cons]
        refine List.forall_mem_cons.mpr ⟨⟨mode, ?_⟩, hall⟩
        rw [← hpath] at hentry
        exact hentry

theorem listTreeAt_ensures (hs : s.Sound naming) (hbody : s.bodies.lookup oid = some body) :
    ((listTreeAt naming oid recursive).caught : FileM _).Ensures (Grows naming) (Grows naming)
      (TreeRead naming body.tree recursive) s := by
  rw [listTreeAt, Program.caught_bind]
  apply files_bind (Q := fun result t => t.Sound naming ∧ match result with
    | .ok listing => listing =
        treeListing ((treePaths recursive body.tree).filterMap (t.listed naming body.tree))
    | .error error => IsFault error)
  · apply caught_output
    · intro i t listing hst hlisting
      obtain ⟨found, hfound, rfl⟩ := Option.map_eq_some_iff.mp hlisting
      cases (hst.bodies _ _ hbody).symm.trans hfound
      exact ⟨hst.sound hs, rfl⟩
    · exact fun t error hst hfault => ⟨hst.sound hs, hfault⟩
  · rintro (error | listing) t hst ⟨ht, hlisting⟩
    · exact files_pure (.of_error hlisting)
    · obtain rfl := hlisting
      have htree := ht.trees _ _ (hst.bodies _ _ hbody)
      obtain ⟨hmap, hall⟩ := filterMap_listed ht htree (treePaths recursive body.tree) <| by
        intro path hmem
        rw [mem_treePaths] at hmem
        split at hmem
        next => exact .inl hmem
        next => exact hmem.2
      dsimp only
      rw [Program.caught_check, parseTreeEntries_listing]
      exact files_pure
        { once := fun entries heq => by
            cases heq
            rw [hmap]
            exact nodup_treePaths
          paths := fun entries heq path => by
            cases heq
            rw [hmap]
            exact mem_treePaths
          entries := fun entries heq => by
            cases heq
            exact hall
          error := fun error heq => by cases heq }

end

end Cresix.Git
