import Mathlib.Data.List.Basic
import Mathlib.Tactic.Common

/-!
# Histories

A history is a growing graph: each node is added with its parents, which are
there already.  It is kept as the list of its nodes, newest first.  So a node
never reaches a newer one, ancestry is decided by one pass over the list
(`isAncestor_iff`), and it never changes between the nodes that are there
(`Ancestor.mono`).
-/

namespace History

universe u

/-- A node with its parents. -/
structure Node (α : Type u) where
  id : α
  parents : List α
deriving DecidableEq, Repr

variable {α : Type u} {nodes older : List (Node α)} {a b c : α} {node : Node α}

/-- The node is there. -/
def Has (nodes : List (Node α)) (a : α) : Prop := ∃ node ∈ nodes, node.id = a

instance [DecidableEq α] : Decidable (Has nodes a) :=
  inferInstanceAs (Decidable (∃ node ∈ nodes, node.id = a))

/-- Every node is new when it is added, and its parents are there. -/
def Grown : List (Node α) → Prop
  | [] => True
  | node :: older => ¬ Has older node.id ∧ (∀ p ∈ node.parents, Has older p) ∧ Grown older

/-- `Ancestor nodes a b`: the node `b` is `a`, or leads to `a` by parents. -/
inductive Ancestor (nodes : List (Node α)) (a : α) : α → Prop where
  | refl : Has nodes a → Ancestor nodes a a
  | parent {node : Node α} {p : α} :
      node ∈ nodes → p ∈ node.parents → Ancestor nodes a p → Ancestor nodes a node.id

/-! ## Ancestry -/

theorem Has.mono {nodes' : List (Node α)} (h : Has nodes a) (hsub : nodes ⊆ nodes') :
    Has nodes' a := by
  obtain ⟨node, hnode, rfl⟩ := h
  exact ⟨node, hsub hnode, rfl⟩

theorem Ancestor.has_right (h : Ancestor nodes a b) : Has nodes b := by
  cases h with
  | refl hb => exact hb
  | parent hnode _ _ => exact ⟨_, hnode, rfl⟩

theorem Ancestor.has_left (h : Ancestor nodes a b) : Has nodes a := by
  induction h with
  | refl h => exact h
  | parent _ _ _ ih => exact ih

theorem Ancestor.trans (h : Ancestor nodes a b) (h' : Ancestor nodes b c) :
    Ancestor nodes a c := by
  induction h' with
  | refl _ => exact h
  | parent hnode hp _ ih => exact .parent hnode hp ih

/-- Ancestry is kept when nodes are added. -/
theorem Ancestor.mono {nodes' : List (Node α)} (h : Ancestor nodes a b) (hsub : nodes ⊆ nodes') :
    Ancestor nodes' a b := by
  induction h with
  | refl hb => exact .refl (hb.mono hsub)
  | parent hnode hp _ ih => exact .parent (hsub hnode) hp ih

/-! ## The newest node -/

theorem Grown.has_parent (h : Grown nodes) (hnode : node ∈ nodes) {p : α}
    (hp : p ∈ node.parents) : Has nodes p := by
  induction nodes with
  | nil => cases hnode
  | cons newest older ih =>
      obtain ⟨_, hparents, holder⟩ := h
      rcases List.mem_cons.mp hnode with rfl | hold
      · exact (hparents p hp).mono (List.subset_cons_self _ _)
      · exact (ih holder hold).mono (List.subset_cons_self _ _)

/-- Each identifier has one node. -/
theorem Grown.unique (h : Grown nodes) {other : Node α} (hnode : node ∈ nodes)
    (hother : other ∈ nodes) (hid : node.id = other.id) : node = other := by
  induction nodes with
  | nil => cases hnode
  | cons newest older ih =>
      obtain ⟨hnew, _, holder⟩ := h
      rcases List.mem_cons.mp hnode with rfl | hold
      · rcases List.mem_cons.mp hother with rfl | hold'
        · rfl
        · exact absurd ⟨other, hold', hid.symm⟩ hnew
      · rcases List.mem_cons.mp hother with rfl | hold'
        · exact absurd ⟨node, hold, hid⟩ hnew
        · exact ih holder hold hold'

/-- A node has no ancestors but those it came with. -/
theorem Ancestor.of_subset {nodes' : List (Node α)} (hab : Ancestor nodes' a b)
    (h : Grown nodes) (h' : Grown nodes') (hsub : nodes ⊆ nodes') (hb : Has nodes b) :
    Ancestor nodes a b := by
  induction hab with
  | refl _ => exact .refl hb
  | @parent node p hnode hp _ ih =>
      obtain ⟨same, hsame, hid⟩ := hb
      obtain rfl := h'.unique (hsub hsame) hnode hid
      exact .parent hsame hp (ih (h.has_parent hsame hp))

/-- The ancestors of an older node are older. -/
theorem Ancestor.of_cons (h : Grown (node :: older)) (hab : Ancestor (node :: older) a b)
    (hb : Has older b) : Ancestor older a b := by
  obtain ⟨hnew, _, holder⟩ := h
  induction hab with
  | refl _ => exact .refl hb
  | @parent node' p hnode hp _ ih =>
      rcases List.mem_cons.mp hnode with rfl | hold
      · exact absurd hb hnew
      · exact .parent hold hp (ih (holder.has_parent hold hp))

/-- The ancestors of the newest node are itself and those of its parents. -/
theorem ancestor_cons_iff (h : Grown (node :: older)) :
    Ancestor (node :: older) a node.id ↔
      a = node.id ∨ ∃ p ∈ node.parents, Ancestor older a p := by
  obtain ⟨hnew, hparents, _⟩ := id h
  constructor
  · intro hab
    generalize hb : node.id = b at hab
    cases hab with
    | refl _ => exact .inl rfl
    | @parent node' p hnode hp hap =>
        rcases List.mem_cons.mp hnode with rfl | hold
        · exact .inr ⟨p, hp, hap.of_cons h (hparents p hp)⟩
        · exact absurd ⟨node', hold, hb.symm⟩ hnew
  · rintro (rfl | ⟨p, hp, hap⟩)
    · exact .refl ⟨node, List.mem_cons_self, rfl⟩
    · exact .parent List.mem_cons_self hp (hap.mono (List.subset_cons_self _ _))

/-! ## Deciding ancestry -/

section Decide

variable [DecidableEq α]

/-- Some node of the front leads to `a`. -/
def reaches (a : α) : List (Node α) → List α → Bool
  | [], _ => false
  | node :: older, front =>
      if node.id ∈ front then node.id = a || reaches a older (node.parents ++ front)
      else reaches a older front

/-- One pass over the nodes. -/
def isAncestor (nodes : List (Node α)) (a b : α) : Bool := reaches a nodes [b]

theorem reaches_iff (h : Grown nodes) (front : List α) :
    reaches a nodes front = true ↔ ∃ b ∈ front, Ancestor nodes a b := by
  induction nodes generalizing front with
  | nil =>
      simp only [reaches, Bool.false_eq_true, false_iff]
      rintro ⟨b, _, hab⟩
      obtain ⟨node, hnode, _⟩ := hab.has_right
      cases hnode
  | cons node older ih =>
      have holder : Grown older := h.2.2
      have hgrow : ∀ b, Ancestor older a b → Ancestor (node :: older) a b := by
        intro b hab
        exact hab.mono (List.subset_cons_self _ _)
      have hback : ∀ b, b ≠ node.id → Ancestor (node :: older) a b → Ancestor older a b := by
        intro b hne hab
        obtain ⟨node', hnode', heq⟩ := hab.has_right
        rcases List.mem_cons.mp hnode' with rfl | hold
        · exact absurd heq.symm hne
        · exact hab.of_cons h ⟨node', hold, heq⟩
      simp only [reaches]
      split
      next hfront =>
        rw [Bool.or_eq_true, decide_eq_true_eq, ih holder]
        constructor
        · rintro (rfl | ⟨b, hb, hab⟩)
          · exact ⟨_, hfront, (ancestor_cons_iff h).mpr (.inl rfl)⟩
          · rcases List.mem_append.mp hb with hparent | hold
            · exact ⟨_, hfront, (ancestor_cons_iff h).mpr (.inr ⟨b, hparent, hab⟩)⟩
            · exact ⟨b, hold, hgrow b hab⟩
        · rintro ⟨b, hb, hab⟩
          by_cases heq : b = node.id
          · subst heq
            rcases (ancestor_cons_iff h).mp hab with rfl | ⟨p, hp, hap⟩
            · exact .inl rfl
            · exact .inr ⟨p, List.mem_append_left _ hp, hap⟩
          · exact .inr ⟨b, List.mem_append_right _ hb, hback b heq hab⟩
      next hfront =>
        rw [ih holder]
        constructor
        · rintro ⟨b, hb, hab⟩
          exact ⟨b, hb, hgrow b hab⟩
        · rintro ⟨b, hb, hab⟩
          refine ⟨b, hb, hback b ?_ hab⟩
          rintro rfl
          exact hfront hb

theorem isAncestor_iff (h : Grown nodes) : isAncestor nodes a b = true ↔ Ancestor nodes a b := by
  rw [isAncestor, reaches_iff h]
  simp

end Decide

/-! ## Roots -/

/-- A node without parents. -/
def IsRoot (nodes : List (Node α)) (a : α) : Prop := ⟨a, []⟩ ∈ nodes

/-- Every node comes from a root. -/
theorem Grown.exists_root (h : Grown nodes) (ha : Has nodes a) :
    ∃ root, IsRoot nodes root ∧ Ancestor nodes root a := by
  induction nodes generalizing a with
  | nil =>
      obtain ⟨node, hnode, _⟩ := ha
      cases hnode
  | cons node older ih =>
      obtain ⟨hnew, hparents, holder⟩ := id h
      have hlift : ∀ b, Has older b →
          ∃ root, IsRoot (node :: older) root ∧ Ancestor (node :: older) root b := by
        intro b hb
        obtain ⟨root, hroot, hab⟩ := ih holder hb
        exact ⟨root, List.mem_cons_of_mem _ hroot, hab.mono (List.subset_cons_self _ _)⟩
      obtain ⟨node', hnode', rfl⟩ := ha
      rcases List.mem_cons.mp hnode' with rfl | hold
      · obtain ⟨id, parents⟩ := node'
        cases parents with
        | nil => exact ⟨id, List.mem_cons_self, .refl ⟨_, List.mem_cons_self, rfl⟩⟩
        | cons p rest =>
            obtain ⟨root, hroot, hab⟩ := hlift p (hparents p List.mem_cons_self)
            exact ⟨root, hroot, .parent List.mem_cons_self List.mem_cons_self hab⟩
      · exact hlift _ ⟨node', hold, rfl⟩

end History
