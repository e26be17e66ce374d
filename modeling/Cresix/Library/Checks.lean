import Mathlib.Data.List.Forall2
import Mathlib.Tactic.Common

/-!
# Fallible checks

Sequences and loops of computations in `Except ε`: when they succeed, and
which errors they may end with.
-/

namespace Checks

variable {ε α β γ : Type} {x : Except ε α} {error : ε}

theorem bind_eq_ok {f : α → Except ε β} {b : β} :
    (x >>= f) = .ok b ↔ ∃ a, x = .ok a ∧ f a = .ok b := by
  cases x with
  | error e =>
      constructor
      · intro h
        cases h
      · rintro ⟨a, h, _⟩
        cases h
  | ok a =>
      constructor
      · intro h
        exact ⟨a, rfl, h⟩
      · rintro ⟨a', h, hf⟩
        cases h
        exact hf

theorem exists_bind_eq_ok {f : α → Except ε β} :
    (∃ b, (x >>= f) = .ok b) ↔ ∃ a, x = .ok a ∧ ∃ b, f a = .ok b := by
  constructor
  · rintro ⟨b, h⟩
    obtain ⟨a, hx, hf⟩ := bind_eq_ok.mp h
    exact ⟨a, hx, b, hf⟩
  · rintro ⟨a, hx, b, hf⟩
    exact ⟨b, bind_eq_ok.mpr ⟨a, hx, hf⟩⟩

theorem bind_map_congr {f : α → Except ε β} {f' : α → Except ε γ} {g : β → γ}
    (h : ∀ a, f' a = (f a).map g) : x >>= f' = (x >>= f).map g := by
  cases x with
  | error error => rfl
  | ok a => exact h a

theorem bind_eq_error {f : α → Except ε β} (h : (x >>= f) = .error error) :
    x = .error error ∨ ∃ a, x = .ok a ∧ f a = .error error := by
  cases x with
  | error error' =>
      cases h
      exact .inl rfl
  | ok a => exact .inr ⟨a, rfl, h⟩

theorem toOption_eq_some {a : α} : x.toOption = some a ↔ x = .ok a := by
  cases x with
  | error error => simp [Except.toOption]
  | ok value => simp [Except.toOption]

/-- Another error changes no success. -/
theorem mapError_eq_ok {ε' : Type} {f : ε → ε'} {a : α} : x.mapError f = .ok a ↔ x = .ok a := by
  cases x with
  | error error' => exact iff_of_false nofun nofun
  | ok a' =>
      constructor
      · intro h
        cases h
        rfl
      · intro h
        cases h
        rfl

/-- A loop succeeds when each of its rounds does. -/
theorem mapM_eq_ok {f : α → Except ε β} {items : List α} {results : List β} :
    items.mapM f = .ok results ↔
      List.Forall₂ (fun item result => f item = .ok result) items results := by
  induction items generalizing results with
  | nil =>
      rw [List.mapM_nil]
      constructor
      · intro h
        cases h
        exact .nil
      · intro h
        cases h
        rfl
  | cons item items ih =>
      rw [List.mapM_cons, bind_eq_ok]
      constructor
      · rintro ⟨result, hresult, h⟩
        obtain ⟨rest, hrest, h⟩ := bind_eq_ok.mp h
        cases h
        exact .cons hresult (ih.mp hrest)
      · intro h
        cases h with
        | cons hresult hrest => exact ⟨_, hresult, bind_eq_ok.mpr ⟨_, ih.mpr hrest, rfl⟩⟩

/-- A loop that gives something did so in each of its rounds. -/
theorem exists_of_mapM_eq_some {f : α → Option β} {items : List α} {results : List β}
    (h : items.mapM f = some results) : ∀ item ∈ items, ∃ result, f item = some result := by
  induction items generalizing results with
  | nil => exact fun item hmem => absurd hmem List.not_mem_nil
  | cons item items ih =>
      rw [List.mapM_cons] at h
      obtain ⟨result, hresult, hrest⟩ := Option.bind_eq_some_iff.mp h
      obtain ⟨rest, hrest, -⟩ := Option.bind_eq_some_iff.mp hrest
      intro other hmem
      rcases List.mem_cons.mp hmem with rfl | hmem
      · exact ⟨result, hresult⟩
      · exact ih hrest other hmem

/-- Each result is one of a round. -/
theorem exists_of_mapM {f : α → Except ε β} {items : List α} {results : List β}
    (h : items.mapM f = .ok results) : ∀ result ∈ results, ∃ item ∈ items, f item = .ok result := by
  induction mapM_eq_ok.mp h with
  | nil => exact nofun
  | @cons item result items results hresult hrest ih =>
      intro other hother
      rcases List.mem_cons.mp hother with rfl | hmem
      · exact ⟨item, List.mem_cons_self, hresult⟩
      · obtain ⟨item', hitem', hresult'⟩ := ih (mapM_eq_ok.mpr hrest) other hmem
        exact ⟨item', List.mem_cons_of_mem _ hitem', hresult'⟩

/-- A loop has results when each of its rounds has one. -/
theorem exists_mapM_iff {f : α → Except ε β} {items : List α} :
    (∃ results, items.mapM f = .ok results) ↔ ∀ item ∈ items, ∃ result, f item = .ok result := by
  induction items with
  | nil => exact iff_of_true ⟨[], rfl⟩ nofun
  | cons item items ih =>
      rw [List.forall_mem_cons, ← ih]
      constructor
      · rintro ⟨results, h⟩
        cases mapM_eq_ok.mp h with
        | cons hresult hrest => exact ⟨⟨_, hresult⟩, ⟨_, mapM_eq_ok.mpr hrest⟩⟩
      · rintro ⟨⟨result, hresult⟩, results, hresults⟩
        exact ⟨result :: results, mapM_eq_ok.mpr (.cons hresult (mapM_eq_ok.mp hresults))⟩

/-! ## Checks without a value -/

section

variable {check : Except ε Unit} {next : Unit → Except ε β} {items : List α}
  {each : α → Except ε Unit}

theorem check_bind_eq_ok {b : β} :
    (check >>= next) = .ok b ↔ check = .ok () ∧ next () = .ok b := by
  rw [bind_eq_ok]
  constructor
  · rintro ⟨⟨⟩, hcheck, hnext⟩
    exact ⟨hcheck, hnext⟩
  · rintro ⟨hcheck, hnext⟩
    exact ⟨(), hcheck, hnext⟩

theorem exists_check_bind_eq_ok :
    (∃ b, (check >>= next) = .ok b) ↔ check = .ok () ∧ ∃ b, next () = .ok b := by
  rw [exists_bind_eq_ok]
  constructor
  · rintro ⟨⟨⟩, hcheck, hnext⟩
    exact ⟨hcheck, hnext⟩
  · rintro ⟨hcheck, hnext⟩
    exact ⟨(), hcheck, hnext⟩

/-- Two computations without an error do not have it together. -/
theorem check_bind_ne_error (hcheck : check ≠ .error error) (hnext : next () ≠ .error error) :
    (check >>= next) ≠ .error error := by
  intro h
  obtain hleft | ⟨⟨⟩, -, hright⟩ := bind_eq_error h
  · exact hcheck hleft
  · exact hnext hright

theorem forM_eq_ok : items.forM each = .ok () ↔ ∀ item ∈ items, each item = .ok () := by
  induction items with
  | nil => exact iff_of_true rfl nofun
  | cons item items ih =>
      rw [List.forall_mem_cons, ← ih]
      exact check_bind_eq_ok

/-- A loop that keeps the keys it has met and refuses a key it has met before. -/
theorem foldlM_keys_eq_ok {κ : Type} {f : List κ → α → Except ε (List κ)} {key : α → κ}
    {Valid : α → Prop}
    (hf : ∀ met item met', f met item = .ok met' ↔
      Valid item ∧ key item ∉ met ∧ met' = key item :: met)
    {items : List α} {met met' : List κ} :
    items.foldlM f met = .ok met' ↔
      (∀ item ∈ items, Valid item) ∧ (items.map key).Nodup ∧ (∀ item ∈ items, key item ∉ met) ∧
        met' = (items.map key).reverse ++ met := by
  induction items generalizing met with
  | nil =>
      rw [List.foldlM_nil]
      constructor
      · intro h
        cases h
        exact ⟨fun item hmem => absurd hmem List.not_mem_nil, .nil,
          fun item hmem => absurd hmem List.not_mem_nil, rfl⟩
      · rintro ⟨-, -, -, rfl⟩
        rfl
  | cons item items ih =>
      rw [List.foldlM_cons, bind_eq_ok, List.map_cons, List.nodup_cons, List.forall_mem_cons,
        List.forall_mem_cons, List.reverse_cons, List.append_assoc, List.singleton_append]
      constructor
      · rintro ⟨met₁, hitem, hitems⟩
        obtain ⟨hvalid, hnew, rfl⟩ := (hf _ _ _).mp hitem
        obtain ⟨hvalids, hnodup, hfresh, rfl⟩ := ih.mp hitems
        refine ⟨⟨hvalid, hvalids⟩, ⟨?_, hnodup⟩, ⟨hnew, ?_⟩, rfl⟩
        · intro hmem
          obtain ⟨other, hother, heq⟩ := List.mem_map.mp hmem
          exact hfresh other hother (heq ▸ List.mem_cons_self)
        · exact fun other hother hmem => hfresh other hother (List.mem_cons_of_mem _ hmem)
      · rintro ⟨⟨hvalid, hvalids⟩, ⟨hfirst, hnodup⟩, ⟨hnew, hfresh⟩, rfl⟩
        refine ⟨key item :: met, (hf _ _ _).mpr ⟨hvalid, hnew, rfl⟩,
          ih.mpr ⟨hvalids, hnodup, ?_, rfl⟩⟩
        intro other hother hmem
        rcases List.mem_cons.mp hmem with heq | hmem
        · exact hfirst (heq ▸ List.mem_map_of_mem hother)
        · exact hfresh other hother hmem

theorem forM_ne_error (h : ∀ item, each item ≠ .error error) :
    items.forM each ≠ .error error := by
  induction items with
  | nil => exact nofun
  | cons item items ih => exact check_bind_ne_error (h item) ih

end

end Checks
