import Mathlib.Data.List.Count
import Mathlib.Tactic.Common

/-!
# Tables

A table is the list of its rows, oldest first.  A row is inserted at the end
when it clashes with no row of the table, and an update changes rows in their
places.

`Grows R` says that each old row is still in its place, related by `R` to what
it became, and that rows were added at the end.  It is what any sequence of
insertions and updates does to a table that no row is deleted from.
-/

namespace Table

universe u v

variable {ρ : Type u} {κ : Type v}

/-- Adds a row that clashes with no row of the table. -/
def insert? (clash : ρ → ρ → Bool) (row : ρ) (table : List ρ) : Option (List ρ) :=
  if table.any (clash row) then none else some (table ++ [row])

/-- Changes the rows that satisfy `p`. -/
def update (p : ρ → Bool) (f : ρ → ρ) (table : List ρ) : List ρ :=
  table.map fun row => if p row then f row else row

/-- How many rows an update changes. -/
def changed (p : ρ → Bool) (table : List ρ) : Nat := table.countP p

theorem insert?_eq_some {clash : ρ → ρ → Bool} {row : ρ} {table table' : List ρ}
    (h : insert? clash row table = some table') :
    (∀ old ∈ table, clash row old = false) ∧ table' = table ++ [row] := by
  unfold insert? at h
  split at h
  next => cases h
  next hclash =>
    cases h
    refine ⟨fun old hold => ?_, rfl⟩
    cases hold' : clash row old with
    | false => rfl
    | true => exact absurd (List.any_eq_true.mpr ⟨old, hold, hold'⟩) hclash

theorem insert?_of_no_clash {clash : ρ → ρ → Bool} {row : ρ} {table : List ρ}
    (h : ∀ old ∈ table, clash row old = false) : insert? clash row table = some (table ++ [row]) := by
  unfold insert?
  rw [if_neg]
  intro hclash
  obtain ⟨old, hold, htrue⟩ := List.any_eq_true.mp hclash
  cases htrue.symm.trans (h old hold)

theorem changed_eq_zero {p : ρ → Bool} {table : List ρ} :
    changed p table = 0 ↔ ∀ row ∈ table, p row = false := by
  unfold changed
  rw [List.countP_eq_zero]
  exact forall₂_congr fun row _ => Bool.not_eq_true (p row) ▸ Iff.rfl

theorem mem_update {p : ρ → Bool} {f : ρ → ρ} {table : List ρ} {row : ρ}
    (h : row ∈ update p f table) :
    ∃ old ∈ table, row = if p old then f old else old := by
  obtain ⟨old, hold, hrow⟩ := List.mem_map.mp h
  exact ⟨old, hold, hrow.symm⟩

/-! ## Parts of a table -/

/-- A search for rows of a part looks at the part only. -/
theorem find?_filter_of_imp {p q : ρ → Bool} {table : List ρ}
    (h : ∀ row, q row = true → p row = true) : (table.filter p).find? q = table.find? q := by
  rw [List.find?_filter]
  congr 1
  funext row
  cases hq : q row with
  | false => simp
  | true => simp [h row hq]

/-- A search finds the only row it can find. -/
theorem find?_eq_some_of_unique {p : ρ → Bool} {table : List ρ} {row : ρ} (hrow : row ∈ table)
    (hp : p row = true) (hunique : ∀ other ∈ table, p other = true → other = row) :
    table.find? p = some row := by
  cases hfind : table.find? p with
  | none => exact absurd hp (List.find?_eq_none.mp hfind row hrow)
  | some other =>
      rw [hunique other (List.mem_of_find?_eq_some hfind) (List.find?_some hfind)]

/-- The order of equal rows does not matter. -/
theorem eq_of_perm {table table' : List ρ} (h : table.Perm table')
    (hall : ∀ a ∈ table, ∀ b ∈ table, a = b) : table = table' := by
  cases table with
  | nil => exact h.symm.eq_nil.symm
  | cons row rest =>
      have hrow : ∀ other ∈ row :: rest, other = row := fun other hother =>
        hall other hother row List.mem_cons_self
      have hrow' : ∀ other ∈ table', other = row := fun other hother =>
        hrow other (h.mem_iff.mpr hother)
      rw [List.eq_replicate_of_mem hrow, List.eq_replicate_of_mem hrow', h.length_eq]

/-- Puts other rows in the place of a part of the table. -/
def replace (p : ρ → Bool) (rows table : List ρ) : List ρ :=
  table.filter (fun row => !p row) ++ rows

/-- The part is the rows it was replaced by. -/
theorem filter_replace {p : ρ → Bool} {rows table : List ρ} (h : ∀ row ∈ rows, p row = true) :
    (replace p rows table).filter p = rows := by
  unfold replace
  rw [List.filter_append, List.filter_eq_self.mpr h, List.filter_filter,
    List.filter_eq_nil_iff.mpr, List.nil_append]
  simp

/-- Another part stays as it was. -/
theorem filter_replace_of_disjoint {p q : ρ → Bool} {rows table : List ρ}
    (hpq : ∀ row, q row = true → p row = false) (h : ∀ row ∈ rows, p row = true) :
    (replace p rows table).filter q = table.filter q := by
  have hnew : rows.filter q = [] := by
    rw [List.filter_eq_nil_iff]
    intro row hrow hq
    cases (h row hrow).symm.trans (hpq row hq)
  unfold replace
  rw [List.filter_append, hnew, List.append_nil, List.filter_filter]
  congr 1
  funext row
  cases hq : q row with
  | false => rfl
  | true => simp [hpq row hq]

/-- An update of rows outside of a part. -/
theorem filter_update_of_disjoint {p q : ρ → Bool} {f : ρ → ρ} {table : List ρ}
    (h : ∀ row, p row = true → q row = false ∧ q (f row) = false) :
    (update p f table).filter q = table.filter q := by
  induction table with
  | nil => rfl
  | cons row table ih =>
      have hcons : update p f (row :: table) =
          (if p row then f row else row) :: update p f table := rfl
      rw [hcons, List.filter_cons, List.filter_cons, ih]
      cases hp : p row with
      | false => rfl
      | true => simp [h row hp]

/-! ## Growth -/

/-- Each row is kept up to `R`, and rows are added at the end. -/
inductive Grows (R : ρ → ρ → Prop) : List ρ → List ρ → Prop where
  | nil {added : List ρ} : Grows R [] added
  | cons {row row' : ρ} {old new : List ρ} :
      R row row' → Grows R old new → Grows R (row :: old) (row' :: new)

section

variable {R : ρ → ρ → Prop} {old mid new : List ρ}

theorem Grows.append (hR : ∀ row, R row row) (table added : List ρ) :
    Grows R table (table ++ added) := by
  induction table with
  | nil => exact .nil
  | cons row table ih => exact .cons (hR row) ih

theorem Grows.refl (hR : ∀ row, R row row) (table : List ρ) : Grows R table table := by
  have h := Grows.append hR table []
  rwa [List.append_nil] at h

theorem Grows.trans {R' R'' : ρ → ρ → Prop} (hR : ∀ a b c, R a b → R' b c → R'' a c)
    (h : Grows R old mid) (h' : Grows R' mid new) : Grows R'' old new := by
  induction h generalizing new with
  | nil => exact .nil
  | cons hrow _ ih =>
      cases h' with
      | cons hrow' hrest => exact .cons (hR _ _ _ hrow hrow') (ih hrest)

theorem Grows.update (hR : ∀ row, R row row) {p : ρ → Bool} {f : ρ → ρ}
    (hf : ∀ row, p row = true → R row (f row)) (table : List ρ) :
    Grows R table (Table.update p f table) := by
  induction table with
  | nil => exact .nil
  | cons row table ih =>
      refine .cons ?_ ih
      show R row (if p row = true then f row else row)
      split
      next hp => exact hf row hp
      next => exact hR row

/-- A row is still there, up to `R`. -/
theorem Grows.mem (h : Grows R old new) {row : ρ} (hrow : row ∈ old) :
    ∃ row' ∈ new, R row row' := by
  induction h with
  | nil => cases hrow
  | cons hR _ ih =>
      rcases List.mem_cons.mp hrow with rfl | hrest
      · exact ⟨_, List.mem_cons_self, hR⟩
      · obtain ⟨row', hrow', hR'⟩ := ih hrest
        exact ⟨row', List.mem_cons_of_mem _ hrow', hR'⟩

/-- A search finds what it found before, when rows satisfy the condition as
before. -/
theorem Grows.find? (h : Grows R old new) {p : ρ → Bool}
    (hp : ∀ row row', R row row' → p row' = p row) {row : ρ} (hfind : old.find? p = some row) :
    ∃ row', new.find? p = some row' ∧ R row row' := by
  induction h with
  | nil => cases hfind
  | cons hR _ ih =>
      rw [List.find?_cons] at hfind
      rw [List.find?_cons, hp _ _ hR]
      split at hfind
      next =>
        cases hfind
        exact ⟨_, rfl, hR⟩
      next => exact ih hfind

end

/-! ## Keys -/

/-- Two rows with the same key are the same row. -/
def Keyed (key : ρ → κ) (table : List ρ) : Prop :=
  ∀ a ∈ table, ∀ b ∈ table, key a = key b → a = b

/-- No row of the table has the key of the row. -/
def Fresh (key : ρ → κ) (row : ρ) (table : List ρ) : Prop :=
  ∀ old ∈ table, key row ≠ key old

section

variable {key : ρ → κ} {table table' : List ρ}

theorem Keyed.nil (key : ρ → κ) : Keyed key [] := by
  intro a ha
  cases ha

theorem Keyed.append (h : Keyed key table) {row : ρ} (hnew : Fresh key row table) :
    Keyed key (table ++ [row]) := by
  intro a ha b hb hab
  rcases List.mem_append.mp ha with ha | ha
  · rcases List.mem_append.mp hb with hb | hb
    · exact h a ha b hb hab
    · rw [List.mem_singleton.mp hb] at hab
      exact absurd hab.symm (hnew a ha)
  · rcases List.mem_append.mp hb with hb | hb
    · rw [List.mem_singleton.mp ha] at hab
      exact absurd hab (hnew b hb)
    · rw [List.mem_singleton.mp ha, List.mem_singleton.mp hb]

/-- One row gets a key that no other row has. -/
theorem Keyed.rename (h : Keyed key table) {p : ρ → Bool} {f : ρ → ρ}
    (hone : ∀ a ∈ table, ∀ b ∈ table, p a = true → p b = true → a = b)
    (hnew : ∀ a ∈ table, p a = true → ∀ b ∈ table, p b = false → key (f a) ≠ key b) :
    Keyed key (Table.update p f table) := by
  intro a' ha' b' hb' hab
  obtain ⟨a, ha, rfl⟩ := mem_update ha'
  obtain ⟨b, hb, rfl⟩ := mem_update hb'
  cases hpa : p a with
  | true =>
      cases hpb : p b with
      | true => rw [hone a ha b hb hpa hpb]
      | false =>
          simp only [hpa, hpb] at hab
          exact absurd hab (hnew a ha hpa b hb hpb)
  | false =>
      cases hpb : p b with
      | true =>
          simp only [hpa, hpb] at hab
          exact absurd hab.symm (hnew b hb hpb a ha hpa)
      | false =>
          simp only [hpa, hpb] at hab
          rw [h a ha b hb hab]

theorem Keyed.update (h : Keyed key table) {p : ρ → Bool} {f : ρ → ρ}
    (hf : ∀ row, key (f row) = key row) : Keyed key (Table.update p f table) := by
  intro a ha b hb hab
  obtain ⟨a', ha', rfl⟩ := mem_update ha
  obtain ⟨b', hb', rfl⟩ := mem_update hb
  have hkey : ∀ row, key (if p row then f row else row) = key row := by
    intro row
    split
    next => exact hf row
    next => rfl
  rw [hkey, hkey] at hab
  rw [h a' ha' b' hb' hab]

end

end Table
