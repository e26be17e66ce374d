import Cresix.Git.Branch
import Cresix.Library.FileTree

/-!
# Staged deletion

`stage_delete` moves a repository out of the store, into a tombstone of its
own.  `commit` removes the tombstone with all that is in it, and a guard that
is dropped before that is done moves back what it finds there.  `commit` drops
its guard also when the removal fails.  So after a failure half way, what is
left of the repository is moved back to where the store looks for it
(`commit_exposes_nothing_iff`).  `rollback` has no such failure
(`rollback_intact`).
-/

namespace Cresix.Git

open FileTree (Path Node Tree RemovedAll)

/-- What the calls of the operating system do. -/
structure Syscalls where
  /-- `TempDir::tempdir_in`. -/
  mkdir : Path → Tree → Option Tree
  rename : Path → Path → Tree → Option Tree
  /-- `remove_dir`, which may fail. -/
  removeDir : Path → Tree → Tree
  /-- `remove_dir_all`, and whether it succeeds. -/
  removeDirAll : Path → Tree → Bool × Tree

/-- Each call does what it should or fails, and a removal may fail half way. -/
structure Syscalls.Lawful (sys : Syscalls) : Prop where
  mkdir : ∀ path t, sys.mkdir path t = none ∨ sys.mkdir path t = t.mkdir path
  rename : ∀ source target t,
    sys.rename source target t = none ∨ sys.rename source target t = t.rename source target
  removeDir : ∀ path t, ∃ done, RemovedAll path t done (sys.removeDir path t)
  removeDirAll : ∀ path t, RemovedAll path t (sys.removeDirAll path t).1 (sys.removeDirAll path t).2

/-! ## The guard -/

/-- `StagedDeletion`. -/
structure StagedDeletion where
  original : Path
  tombstone : Path
  staged : Path
  completed : Bool
deriving DecidableEq, Repr

/-- `validate_slug`. -/
def validateSlug (slug : String) : Except GitError Unit :=
  let bytes := Rust.bytes slug
  if 1 ≤ Rust.len slug ∧ Rust.len slug ≤ 64 ∧ bytes.head?.any Rust.isAsciiAlphanumeric ∧
      bytes.all (fun byte => Rust.isAsciiAlphanumeric byte || byte == 0x2d || byte == 0x5f) ∧
      ¬Rust.endsWith slug ".git" then
    .ok ()
  else .error (.invalidSlug slug)

/-- Where the store keeps a repository. -/
def repositoryPath (slug : String) : Path := [slug ++ ".git"]

/-- `open`, with what Git says of the directory. -/
def openRepository (probe : Except GitError Unit) (slug : String) (t : Tree) :
    Except GitError Path := do
  validateSlug slug
  match t.node (repositoryPath slug) with
  | none => throw (.notFound slug)
  | some (.file _) => throw (.invalidPath "repository must be a real directory")
  | some .dir =>
      probe
      return repositoryPath slug

/-- `stage_delete`, with the unique part of the name of the tombstone. -/
def stageDelete (sys : Syscalls) (probe : Except GitError Unit) (slug unique : String) (t : Tree) :
    Except GitError StagedDeletion × Tree :=
  match openRepository probe slug t with
  | .error error => (.error error, t)
  | .ok original =>
      let tombstone := [".c6-delete-" ++ unique]
      match sys.mkdir tombstone t with
      | none => (.error (.io "tempdir"), t)
      | some t =>
          let staged := tombstone ++ ["repository.git"]
          match sys.rename original staged t with
          | none => (.error (.io "rename"), sys.removeDir tombstone t)
          | some t => (.ok ⟨original, tombstone, staged, false⟩, t)

namespace StagedDeletion

/-- `Drop`. -/
def drop (sys : Syscalls) (guard : StagedDeletion) (t : Tree) : Tree :=
  if !guard.completed && (t.node guard.staged).isSome && (t.node guard.original).isNone then
    match sys.rename guard.staged guard.original t with
    | some t => sys.removeDir guard.tombstone t
    | none => t
  else t

/-- `commit`, and the drop of its guard. -/
def commit (sys : Syscalls) (guard : StagedDeletion) (t : Tree) : Except GitError Unit × Tree :=
  let (done, t) := sys.removeDirAll guard.tombstone t
  if done then (.ok (), drop sys { guard with completed := true } t)
  else (.error (.io "remove_dir_all"), drop sys guard t)

/-- `restore`. -/
def restore (sys : Syscalls) (guard : StagedDeletion) (t : Tree) : Except GitError Unit × Tree :=
  if (t.node guard.original).isSome then
    (.error (.alreadyExists ("/".intercalate guard.original)), t)
  else
    match sys.rename guard.staged guard.original t with
    | none => (.error (.io "rename"), t)
    | some t =>
        let t := sys.removeDir guard.tombstone t
        if (t.node guard.tombstone).isSome then (.error (.io "remove_dir"), t) else (.ok (), t)

/-- `rollback`, and the drop of its guard. -/
def rollback (sys : Syscalls) (guard : StagedDeletion) (t : Tree) : Except GitError Unit × Tree :=
  match restore sys guard t with
  | (.ok (), t) => (.ok (), drop sys { guard with completed := true } t)
  | (.error error, t) => (.error error, drop sys guard t)

end StagedDeletion

/-! ## The live path -/

/-- At the live path is nothing, or the repository as it was. -/
def Intact (original : Path) (t t' : Tree) : Prop :=
  t'.node original = none ∨ t'.below original = t.below original

/-- The tree that the removal in `commit` leaves. -/
def StagedDeletion.remains (sys : Syscalls) (guard : StagedDeletion) (t : Tree) : Tree :=
  (sys.removeDirAll guard.tombstone t).2

/-- The removal in `commit` succeeds, or it fails with all of the repository gone or nothing of it,
or what remains cannot be moved. -/
def StagedDeletion.Harmless (sys : Syscalls) (guard : StagedDeletion) (t : Tree) : Prop :=
  (sys.removeDirAll guard.tombstone t).1 = true ∨
  (guard.remains sys t).node guard.staged = none ∨
  (guard.remains sys t).below guard.staged = t.below guard.staged ∨
  sys.rename guard.staged guard.original (guard.remains sys t) = none

/-- What `stage_delete` hands over: the repository is in a tombstone next to where it was. -/
structure Staged (guard : StagedDeletion) (t t' : Tree) : Prop where
  names : ∃ name unique, name ≠ unique ∧ guard.original = [name] ∧ guard.tombstone = [unique] ∧
    guard.staged = [unique, "repository.git"]
  completed : guard.completed = false
  original : t'.node guard.original = none
  staged : t'.below guard.staged = t.below guard.original

theorem below_nil {t t' : Tree} {path path' : Path} (h : t'.below path' = t.below path) :
    t'.node path' = t.node path := by
  have hroot := congrFun h []
  simpa [Tree.below] using hroot

theorem mkdir_eq_some {t t' : Tree} {path : Path} (h : t.mkdir path = some t') :
    t.node path = none ∧ ∀ p, p ≠ path → t'.node p = t.node p := by
  unfold Tree.mkdir at h
  split at h
  next hcan =>
    cases h
    exact ⟨hcan.1, fun p hp => if_neg hp⟩
  next => cases h

section

variable {sys : Syscalls} {probe : Except GitError Unit} {slug unique : String} {t t' : Tree}
  {guard : StagedDeletion} {original : Path}

theorem openRepository_eq_ok (h : openRepository probe slug t = .ok original) :
    original = repositoryPath slug ∧ t.node original = some .dir := by
  unfold openRepository at h
  cases hslug : validateSlug slug with
  | error error =>
      rw [hslug] at h
      cases h
  | ok =>
      rw [hslug] at h
      cases hnode : t.node (repositoryPath slug) with
      | none =>
          simp only [hnode] at h
          cases h
      | some node =>
          cases node with
          | file content =>
              simp only [hnode] at h
              cases h
          | dir =>
              cases probe with
              | error error =>
                  simp only [hnode] at h
                  cases h
              | ok =>
                  simp only [hnode] at h
                  cases h
                  exact ⟨rfl, hnode⟩

theorem Syscalls.Lawful.rename_eq_some (hsys : sys.Lawful) {source target : Path}
    (h : sys.rename source target t = some t') : t.rename source target = some t' := by
  rcases hsys.rename source target t with hnone | hsome
  · cases hnone.symm.trans h
  · rw [← hsome, h]

theorem stageDelete_staged (hsys : sys.Lawful)
    (h : stageDelete sys probe slug unique t = (.ok guard, t')) : Staged guard t t' := by
  unfold stageDelete at h
  cases hopen : openRepository probe slug t with
  | error error =>
      simp only [hopen] at h
      cases h
  | ok original =>
      obtain ⟨rfl, hdir⟩ := openRepository_eq_ok hopen
      simp only [hopen] at h
      cases hmkdir : sys.mkdir [".c6-delete-" ++ unique] t with
      | none =>
          simp only [hmkdir] at h
          cases h
      | some t₁ =>
          have htomb : t.mkdir [".c6-delete-" ++ unique] = some t₁ := by
            rcases hsys.mkdir [".c6-delete-" ++ unique] t with hnone | hsome
            · cases hnone.symm.trans hmkdir
            · rw [← hsome, hmkdir]
          obtain ⟨hfree, hsame⟩ := mkdir_eq_some htomb
          simp only [hmkdir] at h
          cases hrename : sys.rename (repositoryPath slug)
              ([".c6-delete-" ++ unique] ++ ["repository.git"]) t₁ with
          | none =>
              simp only [hrename] at h
              cases h
          | some t₂ =>
              simp only [hrename] at h
              cases h
              have hmove := hsys.rename_eq_some hrename
              have hne : slug ++ ".git" ≠ ".c6-delete-" ++ unique := by
                intro heq
                unfold repositoryPath at hdir
                rw [heq, hfree] at hdir
                cases hdir
              refine ⟨⟨_, _, hne, rfl, rfl, rfl⟩, rfl, ?_, ?_⟩
              · refine Tree.rename_source hmove ?_
                intro hprefix
                exact absurd hprefix.length_le (by simp [repositoryPath])
              · rw [(Tree.rename_eq_some hmove).2]
                funext p
                refine hsame _ ?_
                intro heq
                rw [repositoryPath, List.singleton_append, List.cons.injEq] at heq
                exact hne heq.1

/-- Removing the tombstone does not reach the live path. -/
theorem Staged.outside (hstaged : Staged guard t t') (p : Path) :
    ¬guard.tombstone <+: guard.original ++ p := by
  obtain ⟨name, unique, hne, horiginal, htombstone, -⟩ := hstaged.names
  rw [horiginal, htombstone, List.singleton_append, List.cons_prefix_cons]
  exact fun h => hne h.1.symm

theorem Staged.remains_original (hsys : sys.Lawful) (hstaged : Staged guard t t') :
    (guard.remains sys t').node guard.original = none := by
  have houtside := hstaged.outside []
  rw [List.append_nil] at houtside
  exact ((hsys.removeDirAll guard.tombstone t').outside _ houtside).trans hstaged.original

/-- A guard that is dropped moves back what it finds. -/
theorem Staged.drop_below (hsys : sys.Lawful) (hstaged : Staged guard t t') {t₁ t₂ : Tree}
    (hfree : t₁.node guard.original = none) (hthere : t₁.node guard.staged ≠ none)
    (hrename : sys.rename guard.staged guard.original t₁ = some t₂) :
    (guard.drop sys t₁).below guard.original = t₁.below guard.staged := by
  have hdrop : guard.drop sys t₁ = sys.removeDir guard.tombstone t₂ := by
    simp [StagedDeletion.drop, hstaged.completed, hfree, Option.isSome_iff_ne_none.mpr hthere,
      hrename]
  obtain ⟨done, hremoved⟩ := hsys.removeDir guard.tombstone t₂
  rw [hdrop, ← (Tree.rename_eq_some (hsys.rename_eq_some hrename)).2]
  funext p
  exact hremoved.outside _ (hstaged.outside p)

/-- A guard that is dropped where it cannot move anything changes nothing. -/
theorem drop_eq_self {t₁ : Tree} (h : guard.completed = true ∨ t₁.node guard.staged = none ∨
    sys.rename guard.staged guard.original t₁ = none) : guard.drop sys t₁ = t₁ := by
  unfold StagedDeletion.drop
  split
  next hdrops =>
    simp only [Bool.and_eq_true, Bool.not_eq_true', Option.isSome_iff_ne_none] at hdrops
    rcases h with hcompleted | hgone | hfails
    · cases hdrops.1.1.symm.trans hcompleted
    · exact absurd hgone hdrops.1.2
    · rw [hfails]
  next => rfl

/-- A guard that is dropped changes nothing where something is at the live path. -/
theorem drop_eq_self_of_original {t₁ : Tree} (h : t₁.node guard.original ≠ none) :
    guard.drop sys t₁ = t₁ := by
  unfold StagedDeletion.drop
  rw [if_neg]
  simp [h]

/-- After `rollback` the live path is free or has the complete repository. -/
theorem rollback_intact (hsys : sys.Lawful) (hstaged : Staged guard t t') :
    Intact guard.original t (guard.rollback sys t').2 := by
  unfold StagedDeletion.rollback StagedDeletion.restore
  rw [hstaged.original]
  cases hrename : sys.rename guard.staged guard.original t' with
  | none =>
      simp only [Option.isSome_none, Bool.false_eq_true, if_false]
      rw [drop_eq_self (.inr (.inr hrename))]
      exact .inl hstaged.original
  | some t₁ =>
      obtain ⟨hthere, hmoved⟩ := Tree.rename_eq_some (hsys.rename_eq_some hrename)
      obtain ⟨done, hremoved⟩ := hsys.removeDir guard.tombstone t₁
      have hbelow : (sys.removeDir guard.tombstone t₁).below guard.original =
          t'.below guard.staged := by
        rw [← hmoved]
        funext p
        exact hremoved.outside _ (hstaged.outside p)
      have hlive : (sys.removeDir guard.tombstone t₁).node guard.original ≠ none := by
        rwa [below_nil hbelow]
      simp only [Option.isSome_none, Bool.false_eq_true, if_false]
      split
      next hkept =>
        split at hkept
        next => cases hkept
        next =>
          cases hkept
          rw [drop_eq_self (.inl rfl)]
          exact .inr (hbelow.trans hstaged.staged)
      next hfails =>
        split at hfails
        next =>
          cases hfails
          rw [drop_eq_self_of_original hlive]
          exact .inr (hbelow.trans hstaged.staged)
        next => cases hfails

/-- After `commit` the live path is free or has the complete repository, if and only if the removal
was harmless. -/
theorem commit_exposes_nothing_iff (hsys : sys.Lawful)
    (h : stageDelete sys probe slug unique t = (.ok guard, t')) :
    Intact guard.original t (guard.commit sys t').2 ↔ guard.Harmless sys t' := by
  have hstaged := stageDelete_staged hsys h
  have hfree := hstaged.remains_original hsys
  have hremains : guard.remains sys t' = (sys.removeDirAll guard.tombstone t').2 := rfl
  have hintact : ∀ t₁ : Tree, t₁ = guard.remains sys t' → Intact guard.original t t₁ := by
    rintro t₁ rfl
    exact .inl hfree
  cases hdone : (sys.removeDirAll guard.tombstone t').1 with
  | true =>
      refine iff_of_true (hintact _ ?_) (.inl hdone)
      have hcommit : (guard.commit sys t').2 =
          StagedDeletion.drop sys { guard with completed := true } (guard.remains sys t') := by
        simp [StagedDeletion.commit, hdone, hremains]
      rw [hcommit, drop_eq_self (.inl rfl)]
  | false =>
      have hcommit : (guard.commit sys t').2 = guard.drop sys (guard.remains sys t') := by
        simp [StagedDeletion.commit, hdone, hremains]
      rw [hcommit]
      by_cases hgone : (guard.remains sys t').node guard.staged = none
      · exact iff_of_true (hintact _ (drop_eq_self (.inr (.inl hgone)))) (.inr (.inl hgone))
      · cases hrename : sys.rename guard.staged guard.original (guard.remains sys t') with
        | none =>
            exact iff_of_true (hintact _ (drop_eq_self (.inr (.inr hrename))))
              (.inr (.inr (.inr hrename)))
        | some t₂ =>
            have hbelow := hstaged.drop_below hsys hfree hgone hrename
            unfold Intact StagedDeletion.Harmless
            rw [below_nil hbelow, hbelow, ← hstaged.staged, hdone, hrename]
            simp [hgone]

end

/-! ### A removal that fails -/

/-- Calls that do what they should, apart from the removal with all that is in a directory. -/
def Syscalls.upTo (removeDirAll : Path → Tree → Bool × Tree) : Syscalls where
  mkdir path t := t.mkdir path
  rename source target t := t.rename source target
  removeDir path t := t.without path
  removeDirAll := removeDirAll

theorem Syscalls.upTo_lawful {removeDirAll : Path → Tree → Bool × Tree}
    (h : ∀ path t, RemovedAll path t (removeDirAll path t).1 (removeDirAll path t).2) :
    (upTo removeDirAll).Lawful where
  mkdir _ _ := .inr rfl
  rename _ _ _ := .inr rfl
  removeDir path t := ⟨true, .wholly t path⟩
  removeDirAll := h

/-- A store with one repository, of which only the `HEAD` is here. -/
def demoStore : Tree where
  node p :=
    if p = [] ∨ p = ["demo.git"] then some .dir
    else if p = ["demo.git", "HEAD"] then some (.file (Rust.bytes "ref: refs/heads/main"))
    else none
  closed := by
    intro p name hnode
    by_cases hroot : p = [] ∨ p = ["demo.git"]
    · rw [if_pos hroot]
    · refine absurd ?_ hnode
      have hroot' : ¬(p ++ [name] = [] ∨ p ++ [name] = ["demo.git"]) := by
        rintro (h | h)
        · exact List.append_ne_nil_of_right_ne_nil p (List.cons_ne_nil name []) h
        · exact hroot (.inl (List.append_eq_singleton_iff.mp h |>.resolve_right (by simp)).1)
      have hhead : p ++ [name] ≠ ["demo.git", "HEAD"] := by
        intro h
        have hsplit : p ++ [name] = ["demo.git"] ++ ["HEAD"] := h
        exact hroot (.inr (List.append_inj_left' hsplit rfl))
      rw [if_neg hroot', if_neg hhead]

/-- The guard for `demoStore`. -/
def demoGuard : StagedDeletion :=
  ⟨["demo.git"], [".c6-delete-1"], [".c6-delete-1", "repository.git"], false⟩

/-- A removal that stops after the `HEAD`. -/
def removeHead (path : Path) (t : Tree) : Bool × Tree :=
  (false, t.without (path ++ ["repository.git", "HEAD"]))

/-- The tree of `demoStore` once its repository is staged. -/
def demoStaged : Tree := (stageDelete (.upTo removeHead) (.ok ()) "demo" "1" demoStore).2

theorem demo_stageDelete :
    stageDelete (.upTo removeHead) (.ok ()) "demo" "1" demoStore = (.ok demoGuard, demoStaged) :=
  rfl

theorem removeHead_lawful : (Syscalls.upTo removeHead).Lawful :=
  Syscalls.upTo_lawful fun path t => .partly t path ["repository.git", "HEAD"]

theorem commit_exposes_nothing_iff_demo :
    Intact demoGuard.original demoStore (demoGuard.commit (.upTo removeHead) demoStaged).2 ↔
      demoGuard.Harmless (.upTo removeHead) demoStaged :=
  commit_exposes_nothing_iff removeHead_lawful demo_stageDelete

theorem commit_exposes_damage :
    ¬ ∀ (sys : Syscalls) (probe : Except GitError Unit) (slug unique : String) (t t' : Tree)
      (guard : StagedDeletion), sys.Lawful →
      stageDelete sys probe slug unique t = (.ok guard, t') →
      Intact guard.original t (guard.commit sys t').2 := by
  intro hclaim
  rcases hclaim (.upTo removeHead) (.ok ()) "demo" "1" demoStore demoStaged demoGuard
    removeHead_lawful demo_stageDelete with hfree | hcomplete
  · have hthere : (demoGuard.commit (.upTo removeHead) demoStaged).2.node demoGuard.original =
        some .dir := by decide +kernel
    cases hfree.symm.trans hthere
  · have hlost : (demoGuard.commit (.upTo removeHead) demoStaged).2.below demoGuard.original
        ["HEAD"] = none := by decide +kernel
    rw [hcomplete] at hlost
    exact absurd hlost (by decide)

end Cresix.Git
