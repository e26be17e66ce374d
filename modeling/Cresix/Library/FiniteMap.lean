import Mathlib.Data.Finmap
import Mathlib.Data.Finset.Card

/-!
# Finite maps

The keys of an updated `Finmap` and how many there are, and what a map holds
after a list of updates: for each key the last of them counts.
-/

namespace Finmap

universe u v

variable {α : Type u} {β : α → Type v} [DecidableEq α]

@[simp] theorem keys_insert (a : α) (b : β a) (s : Finmap β) :
    (s.insert a b).keys = Insert.insert a s.keys := by
  ext x
  simp [mem_keys]

theorem card_keys_erase_le (a : α) (s : Finmap β) : (s.erase a).keys.card ≤ s.keys.card := by
  rw [keys_erase]
  exact Finset.card_erase_le

theorem keys_insert_of_mem {a : α} {b : β a} {s : Finmap β} (h : a ∈ s) :
    (s.insert a b).keys = s.keys := by
  rw [keys_insert, Finset.insert_eq_of_mem (mem_keys.mpr h)]

theorem card_keys_insert_le (a : α) (b : β a) (s : Finmap β) :
    (s.insert a b).keys.card ≤ s.keys.card + 1 := by
  rw [keys_insert]
  exact Finset.card_insert_le _ _

/-- A lookup through an insertion. -/
theorem lookup_insert_eq_ite {a a' : α} {γ : Type v} (b : γ) (s : Finmap fun _ : α => γ) :
    (s.insert a b).lookup a' = if a' = a then some b else s.lookup a' := by
  split
  next h => subst h; exact lookup_insert s
  next h => exact lookup_insert_of_ne s h

/-- A lookup through an erasure. -/
theorem lookup_erase_eq_ite {a a' : α} {γ : Type v} (s : Finmap fun _ : α => γ) :
    (s.erase a).lookup a' = if a' = a then none else s.lookup a' := by
  split
  next h => subst h; exact lookup_erase _ s
  next h => exact lookup_erase_ne h

theorem erase_singleton (a : α) (b : β a) : (singleton a b).erase a = ∅ := by
  refine ext_lookup fun a' => ?_
  rcases eq_or_ne a' a with rfl | hne
  · rw [lookup_erase, lookup_empty]
  · rw [lookup_erase_ne hne, lookup_empty]
    exact lookup_eq_none.mpr fun hmem => hne ((mem_singleton a' a b).mp hmem)

/-! ## Lists of updates -/

section

variable {γ : Type v} {s : Finmap fun _ : α => γ} {a : α}

/-- An update gives a key a value or takes its value away. -/
def put (s : Finmap fun _ : α => γ) (u : α × Option γ) : Finmap fun _ : α => γ :=
  match u.2 with
  | some b => s.insert u.1 b
  | none => s.erase u.1

theorem lookup_put (u : α × Option γ) :
    (s.put u).lookup a = if a = u.1 then u.2 else s.lookup a := by
  obtain ⟨k, value⟩ := u
  cases value with
  | none => exact lookup_erase_eq_ite s
  | some b => exact lookup_insert_eq_ite b s

/-- No update is about the key. -/
theorem lookup_putAll_of_forall_ne {us : List (α × Option γ)} (h : ∀ u ∈ us, u.1 ≠ a) :
    (us.foldl put s).lookup a = s.lookup a := by
  induction us generalizing s with
  | nil => rfl
  | cons u us ih =>
      obtain ⟨hu, hus⟩ := List.forall_mem_cons.mp h
      rw [List.foldl_cons, ih hus, lookup_put, if_neg (Ne.symm hu)]

/-- The last update about the key. -/
theorem lookup_putAll_of_last {before after : List (α × Option γ)} {u : α × Option γ}
    (hu : u.1 = a) (hafter : ∀ u ∈ after, u.1 ≠ a) :
    ((before ++ u :: after).foldl put s).lookup a = u.2 := by
  rw [List.foldl_append, List.foldl_cons, lookup_putAll_of_forall_ne hafter, lookup_put,
    if_pos hu.symm]

/-- There is a last update about a key, or none. -/
theorem last_cases (us : List (α × Option γ)) (a : α) :
    (∀ u ∈ us, u.1 ≠ a) ∨ ∃ before u after, us = before ++ u :: after ∧ u.1 = a ∧
      ∀ u ∈ after, u.1 ≠ a := by
  induction us with
  | nil => exact .inl fun u hmem => absurd hmem List.not_mem_nil
  | cons u us ih =>
      rcases ih with hnone | ⟨before, v, after, rfl, hv, hafter⟩
      · by_cases hu : u.1 = a
        · exact .inr ⟨[], u, us, rfl, hu, hnone⟩
        · exact .inl (List.forall_mem_cons.mpr ⟨hu, hnone⟩)
      · exact .inr ⟨u :: before, v, after, rfl, hv, hafter⟩

end

end Finmap
