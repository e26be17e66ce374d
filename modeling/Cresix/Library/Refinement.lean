import Cresix.Library.Transition

/-!
# Refinement mappings

A system refines another one when a function on its states takes each of its
steps to a step of the other or to no step at all.  Which one it is may depend
on the state.  Whole runs follow, with their events in order.
-/

namespace Transition

namespace System

universe u v w x

variable {σ : Type u} {ℓ : Type v} {τ : Type w} {κ : Type x}

/-- Along `abs` the steps of `M` are steps of `N` under the labels `seen`, or
nothing where there is no label. -/
structure Refines (M : System σ ℓ) (N : System τ κ) (I : σ → Prop) (abs : σ → τ)
    (seen : σ → ℓ → Option κ) : Prop where
  keeps : ∀ s a t, I s → M.step s a t → I t
  matched : ∀ s a t b, I s → M.step s a t → seen s a = some b → N.step (abs s) b (abs t)
  silent : ∀ s a t, I s → M.step s a t → seen s a = none → abs t = abs s

/-- The event of the other system. -/
def seenEvent (abs : σ → τ) (seen : σ → ℓ → Option κ) (e : Event σ ℓ) : Option (Event τ κ) :=
  (seen e.pre e.label).map fun b => ⟨abs e.pre, b, abs e.post⟩

/-- The events of the other system. -/
def seenEvents (abs : σ → τ) (seen : σ → ℓ → Option κ) (tr : List (Event σ ℓ)) :
    List (Event τ κ) :=
  tr.filterMap (seenEvent abs seen)

variable {M : System σ ℓ} {N : System τ κ} {I : σ → Prop} {abs : σ → τ}
variable {seen : σ → ℓ → Option κ} {s t : σ} {tr : List (Event σ ℓ)}

theorem Refines.run_keeps (h : Refines M N I abs seen) (hs : I s) (hrun : M.Run s tr t) : I t :=
  hrun.invariant h.keeps hs

/-- A run is taken to a run. -/
theorem Refines.run (h : Refines M N I abs seen) (hs : I s) (hrun : M.Run s tr t) :
    N.Run (abs s) (seenEvents abs seen tr) (abs t) := by
  induction hrun with
  | refl => exact .refl
  | @snoc tr t u a hrun hst ih =>
      have ht := h.run_keeps hs hrun
      rw [seenEvents, List.filterMap_append, ← seenEvents]
      cases hseen : seen t a with
      | none =>
          rw [List.filterMap_cons_none (by rw [seenEvent, hseen]; rfl), List.filterMap_nil,
            List.append_nil, h.silent t a u ht hst hseen]
          exact ih
      | some b =>
          rw [List.filterMap_cons_some (b := ⟨abs t, b, abs u⟩) (by rw [seenEvent, hseen]; rfl),
            List.filterMap_nil]
          exact .snoc ih (h.matched t a u b ht hst hseen)

end System

end Transition
