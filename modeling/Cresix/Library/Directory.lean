import Mathlib.Logic.Function.Basic
import Mathlib.Tactic.Common

/-!
# A directory and its inodes

The names of a directory point to inodes.  An inode may have several names or
none, and whoever has it open reads and writes it whatever becomes of its
names.  A new inode has a number that no name had before.

Two relations between two moments say what the others have left alone: `Kept`
of what a name points to, and `SoleKept` of a file that has no other name.
-/

universe u v

/-- A directory with names `ν` of files `φ`. -/
structure Directory (ν : Type u) (φ : Type v) where
  /-- The inode of a name. -/
  entry : ν → Option Nat
  inode : Nat → φ
  /-- The number of the next new inode. -/
  next : Nat
  allocated : ∀ name i, entry name = some i → i < next

namespace Directory

variable {ν : Type u} {φ : Type v} {d d' d'' : Directory ν φ} {name other source target : ν}
variable {file : φ} {i j : Nat} {f : φ → φ}

/-- No name is taken. -/
def empty (file : φ) : Directory ν φ where
  entry _ := none
  inode _ := file
  next := 0
  allocated name i h := by cases h

/-- The file of a name. -/
def lookup (d : Directory ν φ) (name : ν) : Option φ := (d.entry name).map d.inode

/-- The inode has this name and no other. -/
def Sole (d : Directory ν φ) (name : ν) (i : Nat) : Prop :=
  d.entry name = some i ∧ ∀ other, d.entry other = some i → other = name

/-- The file that is open under a number is changed. -/
def modify (d : Directory ν φ) (i : Nat) (f : φ → φ) : Directory ν φ :=
  { d with inode := Function.update d.inode i (f (d.inode i)) }

section

variable [DecidableEq ν]

/-- The name points to a new inode. -/
def create (d : Directory ν φ) (name : ν) (file : φ) : Directory ν φ where
  entry := Function.update d.entry name (some d.next)
  inode := Function.update d.inode d.next file
  next := d.next + 1
  allocated := by
    intro other i h
    rw [Function.update_apply] at h
    split at h
    next =>
      cases h
      exact Nat.lt_succ_self _
    next => exact Nat.lt_succ_of_lt (d.allocated other i h)

/-- `name` points to the inode of `target` too. -/
def link (d : Directory ν φ) (target name : ν) : Directory ν φ where
  entry := Function.update d.entry name (d.entry target)
  inode := d.inode
  next := d.next
  allocated := by
    intro other i h
    rw [Function.update_apply] at h
    split at h
    next => exact d.allocated target i h
    next => exact d.allocated other i h

def unlink (d : Directory ν φ) (name : ν) : Directory ν φ where
  entry := Function.update d.entry name none
  inode := d.inode
  next := d.next
  allocated := by
    intro other i h
    rw [Function.update_apply] at h
    split at h
    next => cases h
    next => exact d.allocated other i h

/-- `target` points to the inode of `source`, which is a name no more.  Nothing
happens to two names of one inode. -/
def rename (d : Directory ν φ) (source target : ν) : Directory ν φ :=
  if d.entry source = d.entry target then d else (d.link source target).unlink source

end

/-! ## What a name points to -/

theorem lookup_eq_some_iff : d.lookup name = some file ↔
    ∃ i, d.entry name = some i ∧ d.inode i = file := by
  rw [lookup, Option.map_eq_some_iff]

theorem lookup_eq_none_iff : d.lookup name = none ↔ d.entry name = none := by
  rw [lookup, Option.map_eq_none_iff]

theorem lookup_of_entry (h : d.entry name = some i) : d.lookup name = some (d.inode i) := by
  rw [lookup, h]
  rfl

theorem Sole.ne_of_entry (h : d.Sole name i) (hother : d.entry other = some j)
    (hne : other ≠ name) : j ≠ i := by
  rintro rfl
  exact hne (h.2 other hother)

@[simp] theorem entry_modify : (d.modify i f).entry = d.entry := rfl

@[simp] theorem inode_modify_self : (d.modify i f).inode i = f (d.inode i) :=
  Function.update_self ..

theorem inode_modify_of_ne (h : j ≠ i) : (d.modify i f).inode j = d.inode j :=
  Function.update_of_ne h ..

theorem Sole.modify (h : d.Sole name j) : (d.modify i f).Sole name j := h

/-- A change of a file that has another name. -/
theorem lookup_modify_of_ne (h : d.Sole other i) (hne : name ≠ other) :
    (d.modify i f).lookup name = d.lookup name := by
  cases hentry : d.entry name with
  | none => rw [lookup, lookup, entry_modify, hentry, Option.map_none, Option.map_none]
  | some j =>
      rw [lookup, lookup, entry_modify, hentry, Option.map_some, Option.map_some,
        inode_modify_of_ne (h.ne_of_entry hentry hne)]

section

variable [DecidableEq ν]

@[simp] theorem entry_create_self : (d.create name file).entry name = some d.next :=
  Function.update_self ..

theorem entry_create_of_ne (h : other ≠ name) :
    (d.create name file).entry other = d.entry other :=
  Function.update_of_ne h ..

@[simp] theorem inode_create_self : (d.create name file).inode d.next = file :=
  Function.update_self ..

theorem inode_create_of_lt (h : i < d.next) : (d.create name file).inode i = d.inode i :=
  Function.update_of_ne (Nat.ne_of_lt h) ..

@[simp] theorem entry_link_self : (d.link target name).entry name = d.entry target :=
  Function.update_self ..

theorem entry_link_of_ne (h : other ≠ name) : (d.link target name).entry other = d.entry other :=
  Function.update_of_ne h ..

@[simp] theorem inode_link : (d.link target name).inode = d.inode := rfl

@[simp] theorem entry_unlink_self : (d.unlink name).entry name = none :=
  Function.update_self ..

theorem entry_unlink_of_ne (h : other ≠ name) : (d.unlink name).entry other = d.entry other :=
  Function.update_of_ne h ..

@[simp] theorem inode_unlink : (d.unlink name).inode = d.inode := rfl

@[simp] theorem inode_rename : (d.rename source target).inode = d.inode := by
  rw [rename]
  split
  next => rfl
  next => rfl

theorem next_rename : (d.rename source target).next = d.next := by
  rw [rename]
  split
  next => rfl
  next => rfl

theorem entry_rename_of_ne (hsource : other ≠ source) (htarget : other ≠ target) :
    (d.rename source target).entry other = d.entry other := by
  rw [rename]
  split
  next => rfl
  next => rw [entry_unlink_of_ne hsource, entry_link_of_ne htarget]

theorem entry_rename_target (hne : target ≠ source) :
    (d.rename source target).entry target = d.entry source := by
  rw [rename]
  split
  next h => exact h.symm
  next => rw [entry_unlink_of_ne hne, entry_link_self]

theorem entry_unlink_of_some (h : (d.unlink name).entry other = some i) : d.entry other = some i := by
  by_cases hself : other = name
  · subst hself
    rw [entry_unlink_self] at h
    cases h
  · rwa [entry_unlink_of_ne hself] at h

/-- What a name points to after a rename it pointed to before, or the old name did. -/
theorem entry_rename_of_some (h : (d.rename source target).entry other = some i) :
    d.entry other = some i ∨ other = target ∧ d.entry source = some i := by
  rw [rename] at h
  split at h
  next => exact .inl h
  next =>
    have hlinked := entry_unlink_of_some h
    by_cases htarget : other = target
    · subst htarget
      rw [entry_link_self] at hlinked
      exact .inr ⟨rfl, hlinked⟩
    · rw [entry_link_of_ne htarget] at hlinked
      exact .inl hlinked

/-- A new file has one name. -/
theorem sole_create : (d.create name file).Sole name d.next := by
  refine ⟨entry_create_self, fun other hother => ?_⟩
  by_contra hne
  rw [entry_create_of_ne hne] at hother
  exact Nat.lt_irrefl _ (d.allocated other _ hother)

theorem lookup_create_of_ne (h : other ≠ name) :
    (d.create name file).lookup other = d.lookup other := by
  cases hentry : d.entry other with
  | none =>
      rw [lookup_eq_none_iff.mpr hentry, lookup_eq_none_iff, entry_create_of_ne h, hentry]
  | some i =>
      rw [lookup_of_entry hentry, lookup_of_entry ((entry_create_of_ne h).trans hentry),
        inode_create_of_lt (d.allocated other i hentry)]

theorem lookup_unlink_of_ne (h : other ≠ name) : (d.unlink name).lookup other = d.lookup other := by
  rw [lookup, lookup, entry_unlink_of_ne h, inode_unlink]

theorem lookup_rename_of_ne (hsource : other ≠ source) (htarget : other ≠ target) :
    (d.rename source target).lookup other = d.lookup other := by
  rw [lookup, lookup, entry_rename_of_ne hsource htarget, inode_rename]

theorem lookup_rename_target (hne : target ≠ source) :
    (d.rename source target).lookup target = d.lookup source := by
  rw [lookup, lookup, entry_rename_target hne, inode_rename]

end

/-! ## No links -/

/-- No file has two names. -/
def Unlinked (d : Directory ν φ) : Prop := ∀ name i, d.entry name = some i → d.Sole name i

theorem Unlinked.modify (h : d.Unlinked) : (d.modify i f).Unlinked :=
  fun name j hj => (h name j hj).modify

section

variable [DecidableEq ν]

theorem Unlinked.create (h : d.Unlinked) : (d.create name file).Unlinked := by
  intro other i hi
  by_cases hself : other = name
  · subst hself
    rw [entry_create_self] at hi
    cases hi
    exact sole_create
  · rw [entry_create_of_ne hself] at hi
    refine ⟨(entry_create_of_ne hself).trans hi, fun third hthird => ?_⟩
    by_cases hthird' : third = name
    · subst hthird'
      rw [entry_create_self] at hthird
      cases hthird
      exact absurd (d.allocated other _ hi) (Nat.lt_irrefl _)
    · rw [entry_create_of_ne hthird'] at hthird
      exact (h other i hi).2 third hthird

theorem Unlinked.unlink (h : d.Unlinked) : (d.unlink name).Unlinked := by
  intro other i hi
  have hold := (h other i (entry_unlink_of_some hi)).2
  exact ⟨hi, fun third hthird => hold third (entry_unlink_of_some hthird)⟩

theorem Unlinked.rename (h : d.Unlinked) (hne : target ≠ source) :
    (d.rename source target).Unlinked := by
  rw [Directory.rename]
  split
  next => exact h
  next =>
    -- Each name left is one of the old ones, `target` standing for `source`.
    have hold : ∀ other i, ((d.link source target).unlink source).entry other = some i →
        other ≠ source ∧ d.entry (if other = target then source else other) = some i := by
      intro other i hi
      by_cases hsource : other = source
      · subst hsource
        rw [entry_unlink_self] at hi
        cases hi
      · rw [entry_unlink_of_ne hsource] at hi
        refine ⟨hsource, ?_⟩
        split
        next heq =>
          subst heq
          rwa [entry_link_self] at hi
        next htarget => rwa [entry_link_of_ne htarget] at hi
    intro name i hi
    refine ⟨hi, fun other hother => ?_⟩
    obtain ⟨hname, hi⟩ := hold name i hi
    obtain ⟨hsource, hother⟩ := hold other i hother
    have heq := (h _ i hi).2 _ hother
    split at heq
    next htarget =>
      split at heq
      next htarget' => rw [htarget, htarget']
      next => exact absurd heq.symm hname
    next =>
      split at heq
      next => exact absurd heq hsource
      next => exact heq

end

/-! ## What stays -/

/-- What the name points to is kept. -/
def Kept (name : ν) (d d' : Directory ν φ) : Prop :=
  ∀ i, d.entry name = some i → d'.entry name = some i ∧ d'.inode i = d.inode i

/-- A file that has the name and no other is kept so. -/
def SoleKept (name : ν) (d d' : Directory ν φ) : Prop :=
  ∀ i, d.Sole name i → d'.Sole name i ∧ d'.inode i = d.inode i

theorem Kept.refl : Kept name d d := fun _ h => ⟨h, rfl⟩

theorem Kept.trans (h : Kept name d d') (h' : Kept name d' d'') : Kept name d d'' := by
  intro i hi
  obtain ⟨hentry, hinode⟩ := h i hi
  obtain ⟨hentry', hinode'⟩ := h' i hentry
  exact ⟨hentry', hinode'.trans hinode⟩

theorem Kept.lookup (h : Kept name d d') (hfile : d.lookup name = some file) :
    d'.lookup name = some file := by
  obtain ⟨i, hi, rfl⟩ := lookup_eq_some_iff.mp hfile
  obtain ⟨hentry, hinode⟩ := h i hi
  exact lookup_eq_some_iff.mpr ⟨i, hentry, hinode⟩

theorem SoleKept.refl : SoleKept name d d := fun _ h => ⟨h, rfl⟩

theorem SoleKept.trans (h : SoleKept name d d') (h' : SoleKept name d' d'') :
    SoleKept name d d'' := by
  intro i hi
  obtain ⟨hsole, hinode⟩ := h i hi
  obtain ⟨hsole', hinode'⟩ := h' i hsole
  exact ⟨hsole', hinode'.trans hinode⟩

theorem Kept.of_entry_eq_none (h : d.entry name = none) : Kept name d d' := by
  intro i hi
  rw [h] at hi
  cases hi

/-- A change of another inode. -/
theorem Kept.modify (h : d.entry name ≠ some i) : Kept name d (d.modify i f) := by
  intro j hj
  refine ⟨hj, inode_modify_of_ne ?_⟩
  rintro rfl
  exact h hj

theorem SoleKept.modify (h : d.Sole other i) (hne : name ≠ other) :
    SoleKept name d (d.modify i f) := by
  intro j hj
  exact ⟨hj, inode_modify_of_ne (h.ne_of_entry hj.1 hne)⟩

section

variable [DecidableEq ν]

theorem Kept.create (hne : name ≠ other) : Kept name d (d.create other file) := by
  intro i hi
  exact ⟨(entry_create_of_ne hne).trans hi, inode_create_of_lt (d.allocated name i hi)⟩

theorem SoleKept.create (hne : name ≠ other) : SoleKept name d (d.create other file) := by
  intro i hi
  have hlt := d.allocated name i hi.1
  refine ⟨⟨(entry_create_of_ne hne).trans hi.1, fun third hthird => ?_⟩, inode_create_of_lt hlt⟩
  by_cases hself : third = other
  · subst hself
    rw [entry_create_self] at hthird
    cases hthird
    exact absurd hlt (Nat.lt_irrefl _)
  · rw [entry_create_of_ne hself] at hthird
    exact hi.2 third hthird

theorem Kept.link (hne : name ≠ other) : Kept name d (d.link target other) :=
  fun _ hi => ⟨(entry_link_of_ne hne).trans hi, rfl⟩

/-- A new name of another file. -/
theorem SoleKept.link (hne : name ≠ other) (htarget : name ≠ target) :
    SoleKept name d (d.link target other) := by
  intro i hi
  refine ⟨⟨(entry_link_of_ne hne).trans hi.1, fun third hthird => ?_⟩, rfl⟩
  by_cases hself : third = other
  · subst hself
    rw [entry_link_self] at hthird
    exact absurd (hi.2 target hthird).symm htarget
  · rw [entry_link_of_ne hself] at hthird
    exact hi.2 third hthird

theorem Kept.unlink (hne : name ≠ other) : Kept name d (d.unlink other) :=
  fun _ hi => ⟨(entry_unlink_of_ne hne).trans hi, rfl⟩

theorem SoleKept.unlink (hne : name ≠ other) : SoleKept name d (d.unlink other) := by
  intro i hi
  refine ⟨⟨(entry_unlink_of_ne hne).trans hi.1, fun third hthird => ?_⟩, rfl⟩
  by_cases hself : third = other
  · subst hself
    rw [entry_unlink_self] at hthird
    cases hthird
  · rw [entry_unlink_of_ne hself] at hthird
    exact hi.2 third hthird

theorem Kept.rename (hsource : name ≠ source) (htarget : name ≠ target) :
    Kept name d (d.rename source target) :=
  fun _ hi => ⟨(entry_rename_of_ne hsource htarget).trans hi, by rw [inode_rename]⟩

theorem SoleKept.rename (hsource : name ≠ source) (htarget : name ≠ target) :
    SoleKept name d (d.rename source target) := by
  rw [Directory.rename]
  split
  next => exact .refl
  next => exact (SoleKept.link htarget hsource).trans (SoleKept.unlink hsource)

end

end Directory
