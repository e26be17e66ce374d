import Mathlib.Data.List.Infix
import Mathlib.Tactic.Common

/-!
# Trees of files

A tree says of each path what is there: a directory, a file with its content,
or nothing.  Whatever is there is in a directory.

`rename` moves what is at one path and below it to another path.  Removing a
directory with all that is in it may fail after any part of it is gone, and
then what remains is still a tree (`RemovedAll`).
-/

namespace FileTree

/-- The names on the way from the root. -/
abbrev Path := List String

inductive Node where
  | dir
  | file (content : List UInt8)
deriving DecidableEq, Repr

structure Tree where
  node : Path → Option Node
  closed : ∀ path name, node (path ++ [name]) ≠ none → node path = some .dir

/-- What is at a path and below it. -/
def Tree.below (t : Tree) (path : Path) : Path → Option Node := fun p => t.node (path ++ p)

/-- A path below another one, or the path itself. -/
theorem prefix_append_singleton_iff {path p : Path} {name : String} :
    path <+: p ++ [name] ↔ path <+: p ∨ path = p ++ [name] := by
  rw [List.prefix_concat_iff, or_comm]

/-! ## New directories -/

/-- The tree with an empty directory. -/
def Tree.mkdir (t : Tree) (path : Path) : Option Tree :=
  if h : t.node path = none ∧ path ≠ [] ∧ t.node path.dropLast = some .dir then
    some {
      node p := if p = path then some .dir else t.node p
      closed := by
        intro p name hnode
        by_cases hself : p ++ [name] = path
        · have hparent : path.dropLast = p := by rw [← hself, List.dropLast_concat]
          rw [hparent] at h
          rw [if_neg, h.2.2]
          intro hp
          rw [hp, h.1] at h
          cases h.2.2
        · rw [if_neg hself] at hnode
          have hdir := t.closed p name hnode
          rw [if_neg, hdir]
          rintro rfl
          rw [h.1] at hdir
          cases hdir }
  else none

/-! ## Moving a part -/

/-- The tree with the part at `source` moved to `target`, where nothing is. -/
def Tree.rename (t : Tree) (source target : Path) : Option Tree :=
  if h : t.node source ≠ none ∧ t.node target = none ∧ target ≠ [] ∧
      t.node target.dropLast = some .dir ∧ ¬source <+: target then
    some {
      node p :=
        if target <+: p then t.node (source ++ p.drop target.length)
        else if source <+: p then none
        else t.node p
      closed := by
        intro p name hnode
        obtain ⟨-, -, hne, hparent, houtside⟩ := h
        by_cases htarget : target <+: p
        · rw [if_pos htarget]
          rw [if_pos (htarget.trans (List.prefix_append p [name])),
            List.drop_append_of_le_length htarget.length_le, ← List.append_assoc] at hnode
          exact t.closed _ _ hnode
        · by_cases hself : target = p ++ [name]
          · have hp : target.dropLast = p := by rw [hself, List.dropLast_concat]
            rw [if_neg htarget, if_neg, ← hp, hparent]
            intro hsource
            exact houtside (hself ▸ hsource.trans (List.prefix_append p [name]))
          · have hneither : ¬target <+: p ++ [name] := by
              rw [prefix_append_singleton_iff, not_or]
              exact ⟨htarget, hself⟩
            rw [if_neg hneither] at hnode
            by_cases hsource : source <+: p ++ [name]
            · rw [if_pos hsource] at hnode
              exact absurd rfl hnode
            · rw [if_neg hsource] at hnode
              rw [prefix_append_singleton_iff, not_or] at hsource
              rw [if_neg htarget, if_neg hsource.1]
              exact t.closed p name hnode }
  else none

section

variable {t t' : Tree} {source target path : Path}

/-- What is moved is there, and all of it is taken along. -/
theorem Tree.rename_eq_some (h : t.rename source target = some t') :
    t.node source ≠ none ∧ t'.below target = t.below source := by
  unfold rename at h
  split at h
  next hcan =>
    cases h
    refine ⟨hcan.1, ?_⟩
    funext p
    simp only [below]
    rw [if_pos (List.prefix_append target p), List.drop_left]
  next => cases h

/-- Nothing stays at the source. -/
theorem Tree.rename_source (h : t.rename source target = some t')
    (hout : ¬target <+: source) : t'.node source = none := by
  unfold rename at h
  split at h
  next =>
    cases h
    dsimp only
    rw [if_neg hout, if_pos (List.prefix_refl source)]
  next => cases h

end

/-! ## Removing a directory -/

/-- The tree without what is at a path and below it. -/
def Tree.without (t : Tree) (path : Path) : Tree where
  node p := if path <+: p then none else t.node p
  closed := by
    intro p name hnode
    by_cases hinside : path <+: p ++ [name]
    · rw [if_pos hinside] at hnode
      exact absurd rfl hnode
    · rw [if_neg hinside] at hnode
      rw [if_neg (fun h => hinside (h.trans (List.prefix_append p [name])))]
      exact t.closed p name hnode

/-- What may be left when a directory is removed with all that is in it, and whether that is said to
have been done. -/
structure RemovedAll (path : Path) (t : Tree) (done : Bool) (t' : Tree) : Prop where
  outside : ∀ p, ¬path <+: p → t'.node p = t.node p
  inside : ∀ p, t'.node p = t.node p ∨ t'.node p = none
  gone : done = true → t'.node path = none

/-- Any part may be removed before the removal fails. -/
theorem RemovedAll.partly (t : Tree) (path p : Path) :
    RemovedAll path t false (t.without (path ++ p)) where
  outside q hq := if_neg fun h => hq ((List.prefix_append path p).trans h)
  inside q := by
    by_cases h : path ++ p <+: q
    · exact .inr (if_pos h)
    · exact .inl (if_neg h)
  gone h := nomatch h

/-- A removal that succeeds leaves nothing. -/
theorem RemovedAll.wholly (t : Tree) (path : Path) : RemovedAll path t true (t.without path) where
  outside q hq := if_neg hq
  inside q := by
    by_cases h : path <+: q
    · exact .inr (if_pos h)
    · exact .inl (if_neg h)
  gone _ := if_pos (List.prefix_refl path)

end FileTree
