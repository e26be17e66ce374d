import Mathlib.Data.List.Basic
import Mathlib.Order.Basic
import Mathlib.Tactic.Common

/-!
# Labelled transition systems

A system says where its runs start and which labelled steps it takes.  A run
is kept with the list of its events, oldest first, and an event keeps the
states around the step.  So a statement can speak of what happened earlier in
a run and of the state in which it happened, without ghost variables in the
state itself.

`System.restrict` keeps the steps that meet a condition.  What holds of every
reachable state of the restricted system holds in every run whose steps all
meet the condition.
-/

namespace Transition

universe u v w

/-- A labelled transition system. -/
structure System (σ : Type u) (ℓ : Type v) where
  /-- The states a run may start in. -/
  start : σ → Prop
  /-- The steps. -/
  step : σ → ℓ → σ → Prop

/-- A step that was taken, with the states before and after it. -/
structure Event (σ : Type u) (ℓ : Type v) where
  /-- The state before the step. -/
  pre : σ
  /-- The label of the step. -/
  label : ℓ
  /-- The state after the step. -/
  post : σ

/-! ## One more event -/

/-- What is between the events of a run, and between each of them and the next one. -/
theorem pairwise_snoc {α : Type u} {R : α → α → Prop} {items : List α} {last : α}
    (h : items.Pairwise R) (hlast : ∀ item ∈ items, R item last) :
    (items ++ [last]).Pairwise R := by
  refine List.pairwise_append.mpr ⟨h, List.pairwise_singleton R last, ?_⟩
  intro item hitem other hother
  rw [List.mem_singleton.mp hother]
  exact hlast item hitem

/-- What holds of the events of a run and of the next one. -/
theorem forall_mem_snoc {α : Type u} {P : α → Prop} {items : List α} {last : α}
    (h : ∀ item ∈ items, P item) (hlast : P last) : ∀ item ∈ items ++ [last], P item := by
  intro item hitem
  rcases List.mem_append.mp hitem with hmem | hmem
  · exact h item hmem
  · rwa [List.mem_singleton.mp hmem]

namespace System

variable {σ : Type u} {ℓ : Type v}

/-! ## Systems -/

/-- The system whose labels act as functions. -/
def ofFunction (start : σ → Prop) (f : σ → ℓ → σ) : System σ ℓ where
  start := start
  step s a t := t = f s a

/-- The system whose labels act as partial functions. -/
def ofOption (start : σ → Prop) (f : σ → ℓ → Option σ) : System σ ℓ where
  start := start
  step s a t := f s a = some t

/-- The system without the steps that fail `C`. -/
def restrict (M : System σ ℓ) (C : σ → ℓ → σ → Prop) : System σ ℓ where
  start := M.start
  step s a t := M.step s a t ∧ C s a t

variable {M : System σ ℓ}

/-- A finite run from `s` with its events, oldest first. -/
inductive Run (M : System σ ℓ) (s : σ) : List (Event σ ℓ) → σ → Prop where
  | refl : Run M s [] s
  | snoc {tr : List (Event σ ℓ)} {t u : σ} {a : ℓ} :
      Run M s tr t → M.step t a u → Run M s (tr ++ [⟨t, a, u⟩]) u

/-- A state some run from a start state ends in. -/
def Reachable (M : System σ ℓ) (t : σ) : Prop :=
  ∃ s tr, M.start s ∧ M.Run s tr t

/-! ## Runs -/

theorem Run.single {s t : σ} {a : ℓ} (h : M.step s a t) : M.Run s [⟨s, a, t⟩] t :=
  .snoc .refl h

theorem Run.trans {s t u : σ} {tr tr' : List (Event σ ℓ)}
    (h : M.Run s tr t) (h' : M.Run t tr' u) : M.Run s (tr ++ tr') u := by
  induction h' with
  | refl => simpa using h
  | snoc _ hstep ih =>
      rw [← List.append_assoc]
      exact .snoc ih hstep

theorem Run.cons {s t u : σ} {a : ℓ} {tr : List (Event σ ℓ)}
    (h : M.step s a t) (h' : M.Run t tr u) : M.Run s (⟨s, a, t⟩ :: tr) u :=
  (Run.single h).trans h'

/-- More steps allow more runs. -/
theorem Run.mono {N : System σ ℓ} (hstep : ∀ s a t, M.step s a t → N.step s a t)
    {s t : σ} {tr : List (Event σ ℓ)} (h : M.Run s tr t) : N.Run s tr t := by
  induction h with
  | refl => exact .refl
  | snoc _ hst ih => exact .snoc ih (hstep _ _ _ hst)

/-- What a run preserves step by step it preserves as a whole. -/
theorem Run.invariant {I : σ → Prop} (hstep : ∀ s a t, I s → M.step s a t → I t)
    {s t : σ} {tr : List (Event σ ℓ)} (h : M.Run s tr t) (hs : I s) : I t := by
  induction h with
  | refl => exact hs
  | snoc _ hst ih => exact hstep _ _ _ ih hst

/-- The rule for a property of the state and of what happened so far. -/
theorem Run.history {I : List (Event σ ℓ) → σ → Prop} {s t : σ} {tr : List (Event σ ℓ)}
    (h : M.Run s tr t) (hs : I [] s)
    (hstep : ∀ tr t a u, M.Run s tr t → I tr t → M.step t a u → I (tr ++ [⟨t, a, u⟩]) u) :
    I tr t := by
  induction h with
  | refl => exact hs
  | snoc hrun hst ih => exact hstep _ _ _ _ hrun ih hst

/-- What holds of each step after the run up to it holds at every place of a
run. -/
theorem Run.forall_split {P : List (Event σ ℓ) → Event σ ℓ → Prop} {s t : σ}
    {tr : List (Event σ ℓ)} (h : M.Run s tr t)
    (hstep : ∀ tr t a u, M.Run s tr t → M.step t a u → P tr ⟨t, a, u⟩) :
    ∀ before e after, tr = before ++ e :: after → P before e := by
  induction h with
  | refl =>
      intro before e after heq
      simp at heq
  | @snoc tr t u a hrun hst ih =>
      intro before e after heq
      rcases List.eq_nil_or_concat after with rfl | ⟨after, last, rfl⟩
      · obtain ⟨rfl, hlast⟩ := List.append_inj' heq rfl
        cases hlast
        exact hstep _ _ _ _ hrun hst
      · rw [List.concat_eq_append, ← List.cons_append, ← List.append_assoc] at heq
        exact ih _ _ _ (List.append_inj' heq rfl).1

/-- A run splits at each of its events. -/
theorem Run.split {s t : σ} {tr : List (Event σ ℓ)} (h : M.Run s tr t)
    {e : Event σ ℓ} (he : e ∈ tr) :
    ∃ before after, tr = before ++ e :: after ∧
      M.Run s before e.pre ∧ M.step e.pre e.label e.post ∧ M.Run e.post after t := by
  induction h with
  | refl => cases he
  | @snoc tr t u a hrun hst ih =>
      rcases List.mem_append.mp he with hold | hnew
      · obtain ⟨before, after, htr, hbefore, hmid, hafter⟩ := ih hold
        refine ⟨before, after ++ [⟨t, a, u⟩], ?_, hbefore, hmid, .snoc hafter hst⟩
        simp [htr]
      · obtain rfl := List.mem_singleton.mp hnew
        exact ⟨tr, [], rfl, hrun, hst, .refl⟩

/-- A run splits at a place of it. -/
theorem Run.split_at {s t : σ} {before after : List (Event σ ℓ)} {e : Event σ ℓ}
    (h : M.Run s (before ++ e :: after) t) :
    M.Run s before e.pre ∧ M.step e.pre e.label e.post ∧ M.Run e.post after t := by
  generalize htr : before ++ e :: after = tr at h
  induction h generalizing after with
  | refl => simp at htr
  | @snoc tr t u a hrun hst ih =>
      rcases List.eq_nil_or_concat after with rfl | ⟨front, last, rfl⟩
      · obtain ⟨rfl, hlast⟩ := List.append_inj' htr rfl
        cases hlast
        exact ⟨hrun, hst, .refl⟩
      · rw [List.concat_eq_append, ← List.cons_append, ← List.append_assoc] at htr
        obtain ⟨hfront, hlast⟩ := List.append_inj' htr rfl
        cases hlast
        obtain ⟨hbefore, hstep, hafter⟩ := ih hfront
        rw [List.concat_eq_append]
        exact ⟨hbefore, hstep, .snoc hafter hst⟩

theorem Run.step_of_mem {s t : σ} {tr : List (Event σ ℓ)} (h : M.Run s tr t)
    {e : Event σ ℓ} (he : e ∈ tr) : M.step e.pre e.label e.post := by
  obtain ⟨_, _, _, _, hst, _⟩ := h.split he
  exact hst

/-- What no step lowers no run lowers. -/
theorem Run.le {β : Type w} [Preorder β] {f : σ → β}
    (hstep : ∀ s a t, M.step s a t → f s ≤ f t) {s t : σ} {tr : List (Event σ ℓ)}
    (h : M.Run s tr t) : f s ≤ f t := by
  induction h with
  | refl => exact le_refl _
  | snoc _ hst ih => exact le_trans ih (hstep _ _ _ hst)

/-- What no step lowers is as large before a later step as after an earlier
one. -/
theorem Run.pairwise_le {β : Type w} [Preorder β] {f : σ → β}
    (hstep : ∀ s a t, M.step s a t → f s ≤ f t) {s t : σ} {tr : List (Event σ ℓ)}
    (h : M.Run s tr t) : tr.Pairwise fun e e' => f e.post ≤ f e'.pre := by
  induction h with
  | refl => exact List.Pairwise.nil
  | snoc hrun hst ih =>
      refine pairwise_snoc ih ?_
      intro e he
      obtain ⟨_, _, _, _, _, hafter⟩ := hrun.split he
      exact hafter.le hstep

/-! ## Runs of partial functions -/

/-- Takes the steps `labels` one after the other and keeps their events. -/
def follow (f : σ → ℓ → Option σ) : σ → List ℓ → Option (List (Event σ ℓ) × σ)
  | s, [] => some ([], s)
  | s, a :: labels =>
      match f s a with
      | none => none
      | some t => (follow f t labels).map fun (tr, u) => (⟨s, a, t⟩ :: tr, u)

theorem Run.of_follow {start : σ → Prop} {f : σ → ℓ → Option σ} {s t : σ} {labels : List ℓ}
    {tr : List (Event σ ℓ)} (h : follow f s labels = some (tr, t)) :
    (ofOption start f).Run s tr t := by
  induction labels generalizing s tr with
  | nil =>
      cases h
      exact .refl
  | cons a labels ih =>
      simp only [follow] at h
      split at h
      next => cases h
      next s' hst =>
        obtain ⟨⟨tr', u⟩, hrest, heq⟩ := Option.map_eq_some_iff.mp h
        cases heq
        exact Run.cons hst (ih hrest)

theorem labels_of_follow {f : σ → ℓ → Option σ} {s t : σ} {labels : List ℓ}
    {tr : List (Event σ ℓ)} (h : follow f s labels = some (tr, t)) : tr.map (·.label) = labels := by
  induction labels generalizing s tr with
  | nil =>
      cases h
      rfl
  | cons a labels ih =>
      simp only [follow] at h
      split at h
      next => cases h
      next s' hst =>
        obtain ⟨⟨tr', u⟩, hrest, heq⟩ := Option.map_eq_some_iff.mp h
        cases heq
        exact congrArg (a :: ·) (ih hrest)

/-- The events of the steps `labels`, when they can all be taken. -/
def events (f : σ → ℓ → Option σ) (s : σ) (labels : List ℓ) : List (Event σ ℓ) :=
  ((follow f s labels).map Prod.fst).getD []

theorem Run.events {start : σ → Prop} {f : σ → ℓ → Option σ} {s : σ} {labels : List ℓ}
    (hsome : (follow f s labels).isSome) :
    ∃ t, (ofOption start f).Run s (System.events f s labels) t := by
  obtain ⟨⟨tr, t⟩, hfollow⟩ := Option.isSome_iff_exists.mp hsome
  have htr : System.events f s labels = tr := by
    show ((follow f s labels).map Prod.fst).getD [] = tr
    rw [hfollow]
    rfl
  exact ⟨t, htr ▸ .of_follow hfollow⟩

/-! ## Reachable states -/

theorem Reachable.of_start {s : σ} (h : M.start s) : M.Reachable s :=
  ⟨s, [], h, .refl⟩

theorem Reachable.step {s t : σ} {a : ℓ} (h : M.Reachable s) (hst : M.step s a t) :
    M.Reachable t := by
  obtain ⟨s₀, tr, h₀, hrun⟩ := h
  exact ⟨s₀, _, h₀, .snoc hrun hst⟩

theorem Reachable.run {s t : σ} {tr : List (Event σ ℓ)} (h : M.Reachable s)
    (hrun : M.Run s tr t) : M.Reachable t :=
  Run.invariant (I := M.Reachable) (fun _ _ _ hs hst => hs.step hst) hrun h

/-- The induction rule for safety: true at the start and kept by every step. -/
theorem Reachable.invariant {I : σ → Prop} (hstart : ∀ s, M.start s → I s)
    (hstep : ∀ s a t, I s → M.step s a t → I t) {s : σ} (h : M.Reachable s) : I s := by
  obtain ⟨s₀, tr, h₀, hrun⟩ := h
  exact Run.invariant hstep hrun (hstart s₀ h₀)

/-- The same rule, with the reachability of the state before each step. -/
theorem Reachable.induction {I : σ → Prop} (hstart : ∀ s, M.start s → I s)
    (hstep : ∀ s a t, M.Reachable s → I s → M.step s a t → I t) {s : σ}
    (h : M.Reachable s) : I s := by
  have both : M.Reachable s ∧ I s := by
    refine Reachable.invariant (I := fun s => M.Reachable s ∧ I s) ?_ ?_ h
    · intro s hs
      exact ⟨.of_start hs, hstart s hs⟩
    · intro s a t hs hst
      exact ⟨hs.1.step hst, hstep s a t hs.1 hs.2 hst⟩
  exact both.2

/-! ## Restricted runs -/

theorem Run.of_restrict {C : σ → ℓ → σ → Prop} {s t : σ} {tr : List (Event σ ℓ)}
    (h : (M.restrict C).Run s tr t) : M.Run s tr t := by
  induction h with
  | refl => exact .refl
  | snoc _ hst ih => exact .snoc ih hst.1

theorem Run.restrict {C : σ → ℓ → σ → Prop} {s t : σ} {tr : List (Event σ ℓ)}
    (h : M.Run s tr t) (hC : ∀ e ∈ tr, C e.pre e.label e.post) : (M.restrict C).Run s tr t := by
  induction h with
  | refl => exact .refl
  | snoc _ hst ih =>
      refine .snoc (ih fun e he => hC e (List.mem_append_left _ he)) ⟨hst, ?_⟩
      exact hC _ (List.mem_append_right _ List.mem_cons_self)

theorem Reachable.of_restrict {C : σ → ℓ → σ → Prop} {s : σ}
    (h : (M.restrict C).Reachable s) : M.Reachable s := by
  obtain ⟨s₀, tr, h₀, hrun⟩ := h
  exact ⟨s₀, tr, h₀, hrun.of_restrict⟩

end System

end Transition
