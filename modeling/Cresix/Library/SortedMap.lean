import Mathlib.Data.List.Pairwise
import Mathlib.Order.Lattice
import Mathlib.Tactic.Common

/-!
# Maps in key order

A map kept as the list of its entries, the least key first.  The order of the
keys is a field, so there is one entry for a key.  A search takes the first
entry it finds, which is the one with the least key.
-/

universe u v

/-- A map with its entries in the order of their keys. -/
structure SortedMap (κ : Type u) (ν : Type v) [LinearOrder κ] where
  /-- The keys and their values. -/
  entries : List (κ × ν)
  /-- The keys are in order. -/
  sorted : entries.Pairwise fun e e' => e.1 < e'.1

namespace SortedMap

variable {κ : Type u} {ν : Type v} [LinearOrder κ]

/-! ## Lists of entries -/

/-- Puts an entry where its key belongs, in place of the entry the key had. -/
def insertEntry (k : κ) (x : ν) : List (κ × ν) → List (κ × ν)
  | [] => [(k, x)]
  | e :: l =>
      if k < e.1 then (k, x) :: e :: l
      else if k = e.1 then (k, x) :: l
      else e :: insertEntry k x l

section

variable {k : κ} {x : ν} {e : κ × ν} {l : List (κ × ν)}

theorem key_of_mem_insertEntry (h : e ∈ insertEntry k x l) : e.1 = k ∨ e ∈ l := by
  induction l with
  | nil =>
      obtain rfl := List.mem_singleton.mp h
      exact .inl rfl
  | cons e' l ih =>
      rw [insertEntry] at h
      split at h
      next =>
        rcases List.mem_cons.mp h with rfl | hmem
        · exact .inl rfl
        · exact .inr hmem
      next =>
        split at h
        next =>
          rcases List.mem_cons.mp h with rfl | hmem
          · exact .inl rfl
          · exact .inr (List.mem_cons_of_mem e' hmem)
        next =>
          rcases List.mem_cons.mp h with rfl | hmem
          · exact .inr List.mem_cons_self
          · exact (ih hmem).imp_right (List.mem_cons_of_mem e')

theorem pairwise_insertEntry (h : l.Pairwise fun e e' => e.1 < e'.1) :
    (insertEntry k x l).Pairwise fun e e' => e.1 < e'.1 := by
  induction l with
  | nil => exact List.pairwise_singleton _ _
  | cons e l ih =>
      obtain ⟨hfirst, hrest⟩ := List.pairwise_cons.mp h
      rw [insertEntry]
      split
      next hlt =>
        refine List.pairwise_cons.mpr ⟨?_, h⟩
        intro e' he'
        rcases List.mem_cons.mp he' with rfl | hmem
        · exact hlt
        · exact lt_trans hlt (hfirst e' hmem)
      next hlt =>
        split
        next heq => exact List.pairwise_cons.mpr ⟨fun e' he' => heq ▸ hfirst e' he', hrest⟩
        next hne =>
          refine List.pairwise_cons.mpr ⟨?_, ih hrest⟩
          intro e' he'
          rcases key_of_mem_insertEntry he' with hkey | hmem
          · rw [hkey]
            exact lt_of_le_of_ne (not_lt.mp hlt) (Ne.symm hne)
          · exact hfirst e' hmem

theorem find?_insertEntry (k' : κ) :
    (insertEntry k x l).find? (fun e => e.1 = k') =
      if k' = k then some (k, x) else l.find? fun e => e.1 = k' := by
  induction l with
  | nil =>
      rcases eq_or_ne k' k with rfl | hne
      · simp [insertEntry]
      · simp [insertEntry, hne, Ne.symm hne]
  | cons e l ih =>
      rw [insertEntry]
      split
      next =>
        rcases eq_or_ne k' k with rfl | hne
        · simp
        · simp [hne, Ne.symm hne, List.find?_cons]
      next =>
        split
        next heq =>
          rcases eq_or_ne k' k with rfl | hne
          · simp
          · simp [hne, Ne.symm hne, ← heq]
        next hne' =>
          rw [List.find?_cons, List.find?_cons, ih]
          rcases eq_or_ne k' k with rfl | hne
          · simp [Ne.symm hne']
          · simp [hne]

end

/-! ## The map -/

/-- The map without entries. -/
def empty : SortedMap κ ν := ⟨[], .nil⟩

variable (m : SortedMap κ ν)

/-- The value of a key. -/
def get? (k : κ) : Option ν := (m.entries.find? fun e => e.1 = k).map Prod.snd

/-- Gives a key a value. -/
def insert (k : κ) (x : ν) : SortedMap κ ν :=
  ⟨insertEntry k x m.entries, pairwise_insertEntry m.sorted⟩

/-- The first entry with a property, in the order of the keys. -/
def find? (p : κ → ν → Bool) : Option (κ × ν) := m.entries.find? fun e => p e.1 e.2

variable {m} {k k' : κ} {x : ν} {p : κ → ν → Bool}

@[simp] theorem get?_empty : (empty : SortedMap κ ν).get? k = none := rfl

theorem get?_insert : (m.insert k x).get? k' = if k' = k then some x else m.get? k' := by
  simp only [get?, insert, find?_insertEntry]
  split
  next => rfl
  next => rfl

theorem get?_insert_self : (m.insert k x).get? k = some x := by
  rw [get?_insert, if_pos rfl]

theorem get?_insert_ne (h : k' ≠ k) : (m.insert k x).get? k' = m.get? k' := by
  rw [get?_insert, if_neg h]

/-- There is one entry for a key. -/
theorem get?_eq_some_iff : m.get? k = some x ↔ (k, x) ∈ m.entries := by
  rw [get?, Option.map_eq_some_iff]
  constructor
  · rintro ⟨e, he, rfl⟩
    have hkey : e.1 = k := by simpa using List.find?_some he
    exact hkey ▸ List.mem_of_find?_eq_some he
  · intro hmem
    refine ⟨(k, x), ?_, rfl⟩
    have hsorted := m.sorted
    generalize m.entries = l at hmem hsorted
    induction l with
    | nil => cases hmem
    | cons e l ih =>
        obtain ⟨hfirst, hrest⟩ := List.pairwise_cons.mp hsorted
        rcases List.mem_cons.mp hmem with rfl | hmem
        · simp
        · rw [List.find?_cons_of_neg, ih hmem hrest]
          simpa using ne_of_lt (hfirst _ hmem)

/-- What a search finds has the least key of all that has the property. -/
theorem find?_eq_some_iff :
    m.find? p = some (k, x) ↔
      m.get? k = some x ∧ p k x = true ∧
        ∀ k' x', m.get? k' = some x' → p k' x' = true → k ≤ k' := by
  simp only [get?_eq_some_iff, find?]
  have hsorted := m.sorted
  generalize m.entries = l at hsorted
  induction l with
  | nil => simp
  | cons e l ih =>
      obtain ⟨hfirst, hrest⟩ := List.pairwise_cons.mp hsorted
      rw [List.find?_cons]
      split
      next hp =>
        constructor
        · intro heq
          cases heq
          refine ⟨List.mem_cons_self, hp, ?_⟩
          intro k' x' hmem _
          rcases List.mem_cons.mp hmem with heq | hmem
          · cases heq
            exact le_rfl
          · exact le_of_lt (hfirst _ hmem)
        · rintro ⟨hmem, hpk, hleast⟩
          rcases List.mem_cons.mp hmem with rfl | hmem
          · rfl
          · exact absurd (hleast _ _ List.mem_cons_self hp) (not_le.mpr (hfirst _ hmem))
      next hp =>
        refine (ih hrest).trans ?_
        constructor
        · rintro ⟨hmem, hpk, hleast⟩
          refine ⟨List.mem_cons_of_mem e hmem, hpk, ?_⟩
          intro k' x' hmem' hpk'
          rcases List.mem_cons.mp hmem' with rfl | hmem'
          · rw [hp] at hpk'
            cases hpk'
          · exact hleast k' x' hmem' hpk'
        · rintro ⟨hmem, hpk, hleast⟩
          rcases List.mem_cons.mp hmem with rfl | hmem
          · rw [hp] at hpk
            cases hpk
          · exact ⟨hmem, hpk, fun k' x' hmem' => hleast k' x' (List.mem_cons_of_mem e hmem')⟩

end SortedMap
