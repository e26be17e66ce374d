import Cresix.Library.Concurrent

/-!
# Programs on a state and on a part of it

`p.Follows get V q` compares a program with one on a part of the state.  Each
section of the one is a section of the other, which may be given any input; so
the second program says less of what a section depends on.  The failures are
the same, and `V` relates what is given back.

What the program on the part ensures, the other one ensures as well
(`Follows.ensures`).
-/

namespace Concurrent

namespace Program

universe u v w x

variable {σ τ : Type u} {ι κ : Type v} {ε : Type w} {α β α' β' : Type x}

/-- Along `get` each section of the program is one of the other. -/
def Follows (get : τ → σ) (V : α → β → Prop) : Program τ κ ε α → Program σ ι ε β → Prop
  | done value, q => ∃ value', q = done value' ∧ V value value'
  | fail error, q => q = fail error
  | locked act next, q => ∃ act' next', q = locked act' next' ∧ ∀ i t, ∃ j,
      act' j (get t) = get (act i t) ∧ (next i t).Follows get V (next' j (get t))

/-- The outcomes correspond. -/
def Corresponds (V : α → β → Prop) : Except ε α → Except ε β → Prop
  | .ok value, .ok value' => V value value'
  | .error error, .error error' => error = error'
  | _, _ => False

variable {get : τ → σ} {V : α → β → Prop} {p : Program τ κ ε α} {q : Program σ ι ε β}

theorem Follows.pure {value : α} {value' : β} (h : V value value') :
    (pure value : Program τ κ ε α).Follows get V (pure value' : Program σ ι ε β) :=
  ⟨value', rfl, h⟩

theorem Follows.of_corresponds {result : Except ε α} {result' : Except ε β}
    (h : Corresponds V result result') :
    (Program.check result : Program τ κ ε α).Follows get V
      (Program.check result' : Program σ ι ε β) := by
  cases result with
  | ok value =>
      cases result' with
      | ok value' => exact ⟨value', rfl, h⟩
      | error error' => exact h.elim
  | error error =>
      cases result' with
      | ok value' => exact h.elim
      | error error' => exact congrArg Program.fail (Eq.symm h)

/-- The same check in both programs. -/
theorem Follows.check {result : Except ε α} :
    (Program.check result : Program τ κ ε α).Follows get Eq
      (Program.check result : Program σ ι ε α) := by
  apply Follows.of_corresponds
  cases result with
  | ok value => exact rfl
  | error error => exact rfl

/-- The rule for one section. -/
theorem Follows.step {f : κ → τ → Except ε α × τ} {f' : ι → σ → Except ε β × σ}
    (h : ∀ i t, ∃ j, (f' j (get t)).2 = get (f i t).2 ∧
      Corresponds V (f i t).1 (f' j (get t)).1) :
    (Program.step f).Follows get V (Program.step f') := by
  refine ⟨_, _, rfl, fun i t => ?_⟩
  obtain ⟨j, hstate, hresult⟩ := h i t
  exact ⟨j, hstate, .of_corresponds hresult⟩

/-- One program after the other. -/
theorem Follows.bind {k : α → Program τ κ ε α'} {k' : β → Program σ ι ε β'}
    {V' : α' → β' → Prop} (h : p.Follows get V q)
    (hk : ∀ value value', V value value' → (k value).Follows get V' (k' value')) :
    (p >>= k).Follows get V' (q >>= k') := by
  induction p generalizing q with
  | done value =>
      obtain ⟨value', rfl, hvalue⟩ := h
      exact hk value value' hvalue
  | fail error =>
      cases h
      exact rfl
  | locked act next ih =>
      obtain ⟨act', next', rfl, hsections⟩ := h
      refine ⟨_, _, rfl, fun i t => ?_⟩
      obtain ⟨j, hstate, hnext⟩ := hsections i t
      exact ⟨j, hstate, ih i t hnext⟩

/-- A program that was made for the part. -/
theorem Follows.lift {set : σ → τ → τ} {input : κ → ι} (hget : ∀ a b, get (set a b) = a)
    (q : Program σ ι ε α) : (q.lift get set input).Follows get Eq q := by
  induction q with
  | done value => exact ⟨value, rfl, rfl⟩
  | fail error => exact rfl
  | locked act next ih =>
      exact ⟨act, next, rfl, fun i t => ⟨input i, (hget _ t).symm, ih (input i) (get t)⟩⟩

/-- What holds of the program on the part holds of the other. -/
theorem Follows.ensures {R G : σ → σ → Prop} {Q : β → σ → Prop} {Q' : α → τ → Prop} {s : τ}
    (h : p.Follows get V q) (hq : q.Ensures R G Q (get s))
    (hQ : ∀ value value' t, V value value' → Q value' (get t) → Q' value t) :
    p.Ensures (fun a b => R (get a) (get b)) (fun a b => G (get a) (get b)) Q' s := by
  induction p generalizing q s with
  | done value =>
      obtain ⟨value', rfl, hvalue⟩ := h
      exact hQ value value' s hvalue hq
  | fail error => trivial
  | locked act next ih =>
      obtain ⟨act', next', rfl, hsections⟩ := h
      intro t i hst
      obtain ⟨j, hstate, hnext⟩ := hsections i t
      obtain ⟨hG, hrest⟩ := hq (get t) j hst
      rw [hstate] at hG hrest
      exact ⟨hG, fun hR => ih i t hnext (hrest hR)⟩

end Program

end Concurrent
