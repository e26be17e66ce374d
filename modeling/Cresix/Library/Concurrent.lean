import Cresix.Library.Transition

/-!
# Programs that work on shared state under a lock

A `Program` takes the lock, does one atomic section, lets the lock go, and
goes on with what the section told it.  Each section is given an input: what
the outside world tells it at that moment.  A `Pool` runs any number of
programs on one state, in every order of their sections.

`Program.Ensures R G Q` is a rely-guarantee assertion.  While the others, and
the passing of the program's own sections, change the state only along `R`,
each section changes it along `G`, and `Q` holds of what the program gives
back and of the state then.  It is proved once for each program, along its
syntax (`Ensures.bind`), and it holds of the threads of a pool in every run
(`Pool.Sound`).

`Program.Alike` compares two runs of one program: the outcomes are the same
although the states or the inputs differ.

`Program.lift` is a program on a part of a larger state.
-/

namespace Concurrent

universe u v w x y

/-- A program over states `σ`: it may be done, have failed, or take the lock. -/
inductive Program (σ : Type u) (ι : Type v) (ε : Type w) (α : Type x) where
  | done (value : α)
  | fail (error : ε)
  | locked (act : ι → σ → σ) (next : ι → σ → Program σ ι ε α)

namespace Program

variable {σ : Type u} {ι : Type v} {ε : Type w} {α : Type x} {β : Type x}

/-- One program after the other; a failure ends both. -/
def bind : Program σ ι ε α → (α → Program σ ι ε β) → Program σ ι ε β
  | done value, k => k value
  | fail error, _ => fail error
  | locked act next, k => locked act fun i s => (next i s).bind k

instance : Monad (Program σ ι ε) where
  pure := done
  bind := bind

/-- A check that touches no state. -/
def check : Except ε α → Program σ ι ε α
  | .ok value => done value
  | .error error => fail error

/-- One section. -/
def step (f : ι → σ → Except ε α × σ) : Program σ ι ε α :=
  locked (fun i s => (f i s).2) fun i s => check (f i s).1

/-- The same program with its failures renamed. -/
def mapError {ε' : Type w} (g : ε → ε') : Program σ ι ε α → Program σ ι ε' α
  | done value => done value
  | fail error => fail (g error)
  | locked act next => locked act fun i s => (next i s).mapError g

/-- The program on a part of a state, with a part of the inputs. -/
def lift {τ : Type u} {κ : Type v} (get : τ → σ) (set : σ → τ → τ) (input : κ → ι) :
    Program σ ι ε α → Program τ κ ε α
  | done value => done value
  | fail error => fail error
  | locked act next => locked (fun i t => set (act (input i) (get t)) t) fun i t =>
      (next (input i) (get t)).lift get set input

/-- Runs the program when nothing comes between its sections, each of which
takes the next input: the outcome, the state, and the inputs that are left. -/
def run : Program σ ι ε α → (Nat → ι) → σ → Except ε α × σ × (Nat → ι)
  | done value, inputs, s => (.ok value, s, inputs)
  | fail error, inputs, s => (.error error, s, inputs)
  | locked act next, inputs, s =>
      (next (inputs 0) s).run (fun n => inputs (n + 1)) (act (inputs 0) s)

/-- What a program that is over has come to. -/
def outcome : Program σ ι ε α → Option (Except ε α)
  | done value => some (.ok value)
  | fail error => some (.error error)
  | locked _ _ => none

/-- The program has still a section to do. -/
def Running : Program σ ι ε α → Prop
  | locked _ _ => True
  | _ => False

/-- What is left of a program after some of its sections. -/
inductive Reaches (p : Program σ ι ε α) : Program σ ι ε α → Prop where
  | refl : Reaches p p
  | next {act : ι → σ → σ} {next : ι → σ → Program σ ι ε α} (i : ι) (s : σ) :
      Reaches p (locked act next) → Reaches p (next i s)

@[simp] theorem outcome_check (result : Except ε α) :
    (check result : Program σ ι ε α).outcome = some result := by
  cases result with
  | ok value => rfl
  | error error => rfl

theorem check_ne_locked {result : Except ε α} {act : ι → σ → σ}
    {next : ι → σ → Program σ ι ε α} : check result ≠ locked act next := by
  intro h
  cases result with
  | ok value => cases h
  | error error => cases h

/-- A program without sections is over. -/
theorem Reaches.of_check {result : Except ε α} {q : Program σ ι ε α}
    (h : (check result).Reaches q) : q = check result := by
  induction h with
  | refl => rfl
  | next i s _ ih => exact absurd ih.symm check_ne_locked

/-- A program of one section is before it or is over. -/
theorem Reaches.of_step {f : ι → σ → Except ε α × σ} {q : Program σ ι ε α}
    (h : (step f).Reaches q) : q = step f ∨ ∃ result, q = check result := by
  induction h with
  | refl => exact .inl rfl
  | next i s _ ih =>
      rcases ih with heq | ⟨result, heq⟩
      · cases heq
        exact .inr ⟨_, rfl⟩
      · exact absurd heq.symm check_ne_locked

theorem mapError_step {ε' : Type w} (g : ε → ε') (f : ι → σ → Except ε α × σ) :
    (step f).mapError g = step fun i s => ((f i s).1.mapError g, (f i s).2) := by
  show locked _ _ = locked _ _
  congr 1
  funext i s
  cases hresult : (f i s).1 with
  | ok value =>
      simp only [hresult]
      rfl
  | error error =>
      simp only [hresult]
      rfl

theorem sequence_pure (p : Program σ ι ε α) : p >>= pure = p := by
  induction p with
  | done value => rfl
  | fail error => rfl
  | locked act next ih =>
      show locked _ _ = locked _ _
      congr 1
      funext i s
      exact ih i s

theorem sequence_assoc {γ : Type x} (p : Program σ ι ε α) (k : α → Program σ ι ε β)
    (l : β → Program σ ι ε γ) : p >>= k >>= l = p >>= fun value => k value >>= l := by
  induction p with
  | done value => rfl
  | fail error => rfl
  | locked act next ih =>
      show locked _ _ = locked _ _
      congr 1
      funext i s
      exact ih i s

/-! ## Alone -/

section

variable {inputs : Nat → ι} {s : σ}

@[simp] theorem run_check (result : Except ε α) :
    (check result : Program σ ι ε α).run inputs s = (result, s, inputs) := by
  cases result with
  | ok value => rfl
  | error error => rfl

@[simp] theorem run_step (f : ι → σ → Except ε α × σ) :
    (step f).run inputs s =
      ((f (inputs 0) s).1, (f (inputs 0) s).2, fun n => inputs (n + 1)) := by
  show (check (f (inputs 0) s).1 : Program σ ι ε α).run _ _ = _
  rw [run_check]

theorem run_bind (p : Program σ ι ε α) (k : α → Program σ ι ε β) :
    (p >>= k).run inputs s =
      match p.run inputs s with
      | (.ok value, t, rest) => (k value).run rest t
      | (.error error, t, rest) => (.error error, t, rest) := by
  induction p generalizing inputs s with
  | done value => rfl
  | fail error => rfl
  | locked act next ih => exact ih _ _

theorem run_mapError {ε' : Type w} (g : ε → ε') (p : Program σ ι ε α) :
    (p.mapError g).run inputs s = ((p.run inputs s).1.mapError g, (p.run inputs s).2) := by
  induction p generalizing inputs s with
  | done value => rfl
  | fail error => rfl
  | locked act next ih => exact ih _ _

/-- What holds of all inputs holds of those that are left. -/
theorem run_inputs {I : ι → Prop} (p : Program σ ι ε α) (h : ∀ n, I (inputs n)) (n : Nat) :
    I ((p.run inputs s).2.2 n) := by
  induction p generalizing inputs s with
  | done value => exact h n
  | fail error => exact h n
  | locked act next ih => exact ih _ _ fun m => h (m + 1)

theorem run_mapError_eq_ok {ε' : Type w} {g : ε → ε'} {p : Program σ ι ε α} {value : α} {t : σ}
    {rest : Nat → ι} :
    (p.mapError g).run inputs s = (.ok value, t, rest) ↔ p.run inputs s = (.ok value, t, rest) := by
  rw [run_mapError]
  obtain ⟨outcome, u, middle⟩ := p.run inputs s
  constructor
  · intro h
    cases outcome with
    | ok a =>
        cases h
        rfl
    | error error => cases h
  · intro h
    cases h
    rfl

theorem run_of_toOption {p : Program σ ι ε α} {value : α}
    (h : (p.run inputs s).1.toOption = some value) :
    ∃ t rest, p.run inputs s = (.ok value, t, rest) := by
  cases hrun : p.run inputs s with
  | mk outcome last =>
      rw [hrun] at h
      cases outcome with
      | ok value' =>
          cases h
          exact ⟨last.1, last.2, rfl⟩
      | error error => cases h

theorem run_bind_eq_ok {p : Program σ ι ε α} {k : α → Program σ ι ε β} {value : β} {t : σ}
    {rest : Nat → ι} :
    (p >>= k).run inputs s = (.ok value, t, rest) ↔
      ∃ a u middle, p.run inputs s = (.ok a, u, middle) ∧
        (k a).run middle u = (.ok value, t, rest) := by
  rw [run_bind]
  obtain ⟨outcome, u, middle⟩ := p.run inputs s
  cases outcome with
  | ok a =>
      constructor
      · intro h
        exact ⟨a, u, middle, rfl, h⟩
      · rintro ⟨a', u', middle', heq, h⟩
        cases heq
        exact h
  | error error =>
      constructor
      · intro h
        cases h
      · rintro ⟨a', u', middle', heq, _⟩
        cases heq

theorem run_check_bind_eq_ok {result : Except ε α} {k : α → Program σ ι ε β} {value : β} {t : σ}
    {rest : Nat → ι} :
    (check result >>= k).run inputs s = (.ok value, t, rest) ↔
      ∃ a, result = .ok a ∧ (k a).run inputs s = (.ok value, t, rest) := by
  rw [run_bind, run_check]
  cases result with
  | ok a => simp
  | error error => simp

end

/-- What the program comes to when nothing comes between its sections. -/
def Ends (Q : Except ε α → σ → Prop) : Program σ ι ε α → σ → Prop
  | done value, s => Q (.ok value) s
  | fail error, s => Q (.error error) s
  | locked act next, s => ∀ i, (next i s).Ends Q (act i s)

section

variable {Q : Except ε α → σ → Prop} {s : σ}

theorem Ends.run {p : Program σ ι ε α} (h : p.Ends Q s) (inputs : Nat → ι) :
    Q (p.run inputs s).1 (p.run inputs s).2.1 := by
  induction p generalizing inputs s with
  | done value => exact h
  | fail error => exact h
  | locked act next ih => exact ih _ _ (h _) _

/-- One program after the other. -/
theorem Ends.bind {p : Program σ ι ε α} {k : α → Program σ ι ε β} {Q' : Except ε β → σ → Prop}
    (h : p.Ends Q s) (hok : ∀ value t, Q (.ok value) t → (k value).Ends Q' t)
    (herror : ∀ error t, Q (.error error) t → Q' (.error error) t) : (p >>= k).Ends Q' s := by
  induction p generalizing s with
  | done value => exact hok value s h
  | fail error => exact herror error s h
  | locked act next ih => exact fun i => ih i s (h i)

theorem Ends.check {result : Except ε α} (h : Q result s) :
    (Program.check result : Program σ ι ε α).Ends Q s := by
  cases result with
  | ok value => exact h
  | error error => exact h

/-- The rule for one section. -/
theorem Ends.step {f : ι → σ → Except ε α × σ} (h : ∀ i, Q (f i s).1 (f i s).2) :
    (Program.step f).Ends Q s :=
  fun i => .check (h i)

theorem Ends.mono {Q' : Except ε α → σ → Prop} {p : Program σ ι ε α} (h : p.Ends Q s)
    (hQ : ∀ result t, Q result t → Q' result t) : p.Ends Q' s := by
  induction p generalizing s with
  | done value => exact hQ _ _ h
  | fail error => exact hQ _ _ h
  | locked act next ih => exact fun i => ih i s (h i)

end

/-- `R` of a value, and `S` after a failure. -/
def Outcome (S : σ → Prop) (R : α → σ → Prop) : Except ε α → σ → Prop
  | .ok value, s => R value s
  | .error _, s => S s

/-- The program leaves `R` when it succeeds and `S` when it fails. -/
def Leaves (S : σ → Prop) (R : α → σ → Prop) (p : Program σ ι ε α) (s : σ) : Prop :=
  p.Ends (Outcome S R) s

section

variable {S : σ → Prop} {R : α → σ → Prop} {s : σ}

theorem Leaves.bind {p : Program σ ι ε α} {k : α → Program σ ι ε β} {R' : β → σ → Prop}
    (h : p.Leaves S R s) (hk : ∀ value t, R value t → (k value).Leaves S R' t) :
    (p >>= k).Leaves S R' s :=
  Ends.bind h hk fun _ _ hS => hS

/-- The rule to go on from where a program ends. -/
theorem Leaves.seq {p : Program σ ι ε α} {k : α → Program σ ι ε β} {R' : β → σ → Prop}
    (h : p.Leaves S (fun value t => (k value).Leaves S R' t) s) : (p >>= k).Leaves S R' s :=
  h.bind fun _ _ hk => hk

theorem Leaves.pure {value : α} (h : R value s) :
    (Pure.pure value : Program σ ι ε α).Leaves S R s := h

theorem Leaves.mono {S' : σ → Prop} {R' : α → σ → Prop} {p : Program σ ι ε α}
    (h : p.Leaves S R s) (hS : ∀ t, S t → S' t) (hR : ∀ value t, R value t → R' value t) :
    p.Leaves S' R' s := by
  apply Ends.mono h
  intro result t hresult
  cases result with
  | ok value => exact hR value t hresult
  | error error => exact hS t hresult

/-- What holds after a run, however it ends. -/
theorem Leaves.run {p : Program σ ι ε α} (h : p.Leaves S R s) (inputs : Nat → ι)
    (hR : ∀ value t, R value t → S t) : S (p.run inputs s).2.1 := by
  have hends : Outcome S R (p.run inputs s).1 (p.run inputs s).2.1 := Ends.run h inputs
  cases hresult : (p.run inputs s).1 with
  | ok value =>
      rw [hresult] at hends
      exact hR value _ hends
  | error error =>
      rw [hresult] at hends
      exact hends

theorem Leaves.run_ok {p : Program σ ι ε α} (h : p.Leaves S R s) {inputs : Nat → ι} {value : α}
    (hok : (p.run inputs s).1 = .ok value) : R value (p.run inputs s).2.1 := by
  have hends : Outcome S R (p.run inputs s).1 (p.run inputs s).2.1 := Ends.run h inputs
  rw [hok] at hends
  exact hends

end

/-- What the program comes to when `A` holds of its first input. -/
def Opens (A : ι → Prop) (Q : Except ε α → σ → Prop) : Program σ ι ε α → σ → Prop
  | done value, s => Q (.ok value) s
  | fail error, s => Q (.error error) s
  | locked act next, s => ∀ i, A i → (next i s).Ends Q (act i s)

section

variable {A : ι → Prop} {Q : Except ε α → σ → Prop} {s : σ}

theorem Opens.run {p : Program σ ι ε α} (h : p.Opens A Q s) {inputs : Nat → ι}
    (hA : A (inputs 0)) : Q (p.run inputs s).1 (p.run inputs s).2.1 := by
  cases p with
  | done value => exact h
  | fail error => exact h
  | locked act next => exact (h (inputs 0) hA).run _

theorem Ends.opens {p : Program σ ι ε α} (h : p.Ends Q s) : p.Opens A Q s := by
  cases p with
  | done value => exact h
  | fail error => exact h
  | locked act next => exact fun i _ => h i

/-- One program after the other. -/
theorem Opens.bind {p : Program σ ι ε α} {k : α → Program σ ι ε β} {Q' : Except ε β → σ → Prop}
    (h : p.Opens A Q s) (hok : ∀ value t, Q (.ok value) t → (k value).Ends Q' t)
    (herror : ∀ error t, Q (.error error) t → Q' (.error error) t) : (p >>= k).Opens A Q' s := by
  cases p with
  | done value => exact (hok value s h).opens
  | fail error => exact herror error s h
  | locked act next => exact fun i hA => (h i hA).bind hok herror

theorem Opens.check_bind {result : Except ε β} {k : β → Program σ ι ε α}
    (herror : ∀ error, Q (.error error) s)
    (h : ∀ value, result = .ok value → (k value).Opens A Q s) :
    (Program.check result >>= k).Opens A Q s := by
  cases result with
  | ok value => exact h value rfl
  | error error => exact herror error

theorem Opens.step_bind {f : ι → σ → Except ε β × σ} {k : β → Program σ ι ε α}
    (herror : ∀ i error, (f i s).1 = .error error → Q (.error error) (f i s).2)
    (h : ∀ i, A i → ∀ value, (f i s).1 = .ok value → (k value).Ends Q (f i s).2) :
    (Program.step f >>= k).Opens A Q s := by
  intro i hA
  show (Program.bind (Program.check (f i s).1) k).Ends Q (f i s).2
  cases hresult : (f i s).1 with
  | ok value => exact h i hA value hresult
  | error error => exact herror i error hresult

end

/-! ## Two runs -/

/-- Two runs have the same outcome, and end in related states with related
inputs left. -/
structure Alike (R : σ → σ → Prop) (I : ι → ι → Prop)
    (r r' : Except ε α × σ × (Nat → ι)) : Prop where
  outcome : r'.1 = r.1
  states : R r.2.1 r'.2.1
  inputs : ∀ n, I (r.2.2 n) (r'.2.2 n)

section

variable {R : σ → σ → Prop} {I : ι → ι → Prop} {inputs inputs' : Nat → ι} {s s' : σ}

theorem Alike.check (hs : R s s') (hinputs : ∀ n, I (inputs n) (inputs' n))
    (result : Except ε α) :
    Alike R I ((check result : Program σ ι ε α).run inputs s) ((check result).run inputs' s') := by
  rw [run_check, run_check]
  exact ⟨rfl, hs, hinputs⟩

/-- The rule for one section. -/
theorem Alike.step {f : ι → σ → Except ε α × σ} (hinputs : ∀ n, I (inputs n) (inputs' n))
    (houtcome : (f (inputs' 0) s').1 = (f (inputs 0) s).1)
    (hstates : R (f (inputs 0) s).2 (f (inputs' 0) s').2) :
    Alike R I ((step f).run inputs s) ((step f).run inputs' s') := by
  rw [run_step, run_step]
  exact ⟨houtcome, hstates, fun n => hinputs (n + 1)⟩

/-- One program after the other.  The second one need only do alike for what
the first one gives. -/
theorem Alike.bind {p : Program σ ι ε α} {k : α → Program σ ι ε β}
    (h : Alike R I (p.run inputs s) (p.run inputs' s'))
    (hk : ∀ value t rest t' rest', p.run inputs s = (.ok value, t, rest) →
      p.run inputs' s' = (.ok value, t', rest') → R t t' → (∀ n, I (rest n) (rest' n)) →
      Alike R I ((k value).run rest t) ((k value).run rest' t')) :
    Alike R I ((p >>= k).run inputs s) ((p >>= k).run inputs' s') := by
  obtain ⟨houtcome, hstates, hrest⟩ := h
  rw [run_bind, run_bind]
  generalize hrun : p.run inputs s = r at *
  generalize hrun' : p.run inputs' s' = r' at *
  obtain ⟨outcome, t, rest⟩ := r
  obtain ⟨outcome', t', rest'⟩ := r'
  cases houtcome
  cases outcome with
  | ok value => exact hk value t rest t' rest' rfl rfl hstates hrest
  | error error => exact ⟨rfl, hstates, hrest⟩

/-- A check before a program is the same check in both runs. -/
theorem Alike.check_bind {result : Except ε α} {k : α → Program σ ι ε β} (hs : R s s')
    (hinputs : ∀ n, I (inputs n) (inputs' n))
    (hk : ∀ value, result = .ok value →
      Alike R I ((k value).run inputs s) ((k value).run inputs' s')) :
    Alike R I ((Program.check result >>= k).run inputs s)
      ((Program.check result >>= k).run inputs' s') := by
  cases result with
  | ok value => exact hk value rfl
  | error error => exact ⟨rfl, hs, hinputs⟩

theorem Alike.mapError {ε' : Type w} {g : ε → ε'} {p : Program σ ι ε α}
    (h : Alike R I (p.run inputs s) (p.run inputs' s')) :
    Alike R I ((p.mapError g).run inputs s) ((p.mapError g).run inputs' s') := by
  rw [run_mapError, run_mapError]
  exact ⟨congrArg (·.mapError g) h.outcome, h.states, h.inputs⟩

end

/-! ## Rely and guarantee -/

/-- What the program guarantees while the state is changed along `R`. -/
def Ensures (R G : σ → σ → Prop) (Q : α → σ → Prop) : Program σ ι ε α → σ → Prop
  | done value, s => Q value s
  | fail _, _ => True
  | locked act next, s => ∀ t i, R s t →
      G t (act i t) ∧ (R t (act i t) → Ensures R G Q (next i t) (act i t))

section

variable {R G : σ → σ → Prop} {Q : α → σ → Prop} {s t : σ}

/-- One program after the other.  The second one starts where the first one
and the others have led. -/
theorem Ensures.bind (hrefl : ∀ a, R a a) (htrans : ∀ a b c, R a b → R b c → R a c)
    {p : Program σ ι ε α} {k : α → Program σ ι ε β} {Q' : β → σ → Prop} (h : p.Ensures R G Q s)
    (hk : ∀ value t, R s t → Q value t → (k value).Ensures R G Q' t) :
    (p >>= k).Ensures R G Q' s := by
  induction p generalizing s with
  | done value => exact hk value s (hrefl s) h
  | fail error => trivial
  | locked act next ih =>
      intro t i hst
      obtain ⟨hG, hnext⟩ := h t i hst
      refine ⟨hG, fun hR => ih i t (hnext hR) fun value u hu => ?_⟩
      exact hk value u (htrans _ _ _ (htrans _ _ _ hst hR) hu)

/-- An assertion about the result may be weakened. -/
theorem Ensures.mono {p : Program σ ι ε α} {Q' : α → σ → Prop} (h : p.Ensures R G Q s)
    (hQ : ∀ value t, Q value t → Q' value t) : p.Ensures R G Q' s := by
  induction p generalizing s with
  | done value => exact hQ value s h
  | fail error => trivial
  | locked act next ih =>
      intro t i hst
      obtain ⟨hG, hnext⟩ := h t i hst
      exact ⟨hG, fun hR => ih i t (hnext hR)⟩

/-- What leads from an earlier state to the result is a change along `R`. -/
theorem Ensures.frame (htrans : ∀ a b c, R a b → R b c → R a c) {p : Program σ ι ε α} {r : σ}
    (h : p.Ensures R G Q s) (hrs : R r s) :
    p.Ensures R G (fun value t => R r t ∧ Q value t) s := by
  induction p generalizing s with
  | done value => exact ⟨hrs, h⟩
  | fail error => trivial
  | locked act next ih =>
      intro t i hst
      obtain ⟨hG, hnext⟩ := h t i hst
      refine ⟨hG, fun hR => ih i t (hnext hR) ?_⟩
      exact htrans _ _ _ (htrans _ _ _ hrs hst) hR

/-- And so may the guarantee. -/
theorem Ensures.mono_guarantee {p : Program σ ι ε α} {G' : σ → σ → Prop} (h : p.Ensures R G Q s)
    (hG : ∀ a b, G a b → G' a b) : p.Ensures R G' Q s := by
  induction p generalizing s with
  | done value => exact h
  | fail error => trivial
  | locked act next ih =>
      intro t i hst
      obtain ⟨hact, hnext⟩ := h t i hst
      exact ⟨hG _ _ hact, fun hR => ih i t (hnext hR)⟩

theorem Ensures.check {result : Except ε α} (h : ∀ value, result = .ok value → Q value s) :
    (Program.check result : Program σ ι ε α).Ensures R G Q s := by
  cases result with
  | ok value => exact h value rfl
  | error error => trivial

/-- The rule for one section. -/
theorem Ensures.step {f : ι → σ → Except ε α × σ}
    (h : ∀ t i, R s t → G t (f i t).2 ∧
      (R t (f i t).2 → ∀ value, (f i t).1 = .ok value → Q value (f i t).2)) :
    (Program.step f).Ensures R G Q s := by
  intro t i hst
  obtain ⟨hG, hQ⟩ := h t i hst
  exact ⟨hG, fun hR => .check (hQ hR)⟩

theorem Ensures.mapError {ε' : Type w} {g : ε → ε'} {p : Program σ ι ε α}
    (h : p.Ensures R G Q s) : (p.mapError g).Ensures R G Q s := by
  induction p generalizing s with
  | done value => exact h
  | fail error => trivial
  | locked act next ih =>
      intro t i hst
      obtain ⟨hG, hnext⟩ := h t i hst
      exact ⟨hG, fun hR => ih i t (hnext hR)⟩

/-- A program on a part of a state. -/
theorem Ensures.lift {τ : Type u} {κ : Type v} {get : τ → σ} {set : σ → τ → τ} {input : κ → ι}
    {R' G' : τ → τ → Prop} (hget : ∀ a b, get (set a b) = a)
    (hR : ∀ a b, R' a b → R (get a) (get b)) (hG : ∀ a b, G (get b) a → G' b (set a b))
    {p : Program σ ι ε α} {t : τ} (h : p.Ensures R G Q (get t)) :
    (p.lift get set input).Ensures R' G' (fun value t => Q value (get t)) t := by
  induction p generalizing t with
  | done value => exact h
  | fail error => trivial
  | locked act next ih =>
      intro u i htu
      obtain ⟨hact, hnext⟩ := h (get u) (input i) (hR t u htu)
      refine ⟨hG _ _ hact, fun hstep => ih _ _ ?_⟩
      have hpart := hR _ _ hstep
      rw [hget] at hpart ⊢
      exact hnext hpart

/-- A running program keeps its assertion when the state is changed along
`R`. -/
theorem Ensures.env (htrans : ∀ a b c, R a b → R b c → R a c) {p : Program σ ι ε α}
    (h : p.Ensures R G (fun _ _ => True) s) (hst : R s t) :
    p.Ensures R G (fun _ _ => True) t := by
  cases p with
  | done value => trivial
  | fail error => trivial
  | locked act next => exact fun u i htu => h u i (htrans s t u hst htu)

/-- An assertion that `R` keeps is kept to the end. -/
theorem Ensures.stable (htrans : ∀ a b c, R a b → R b c → R a c)
    (hQ : ∀ value a b, Q value a → R a b → Q value b) {p : Program σ ι ε α}
    (h : p.Ensures R G Q s) (hst : R s t) : p.Ensures R G Q t := by
  cases p with
  | done value => exact hQ value s t h hst
  | fail error => trivial
  | locked act next => exact fun u i htu => h u i (htrans s t u hst htu)

/-- The program keeps its assertion when `A` holds of the input and the state
of its first section. -/
def Begins (A : ι → σ → Prop) (R : σ → σ → Prop) (Q : α → σ → Prop) :
    Program σ ι ε α → Prop
  | done value => ∀ s, Q value s
  | fail _ => True
  | locked act next => ∀ s i, A i s → R s (act i s) ∧ (next i s).Ensures R R Q (act i s)

theorem Begins.of_ensures {A : ι → σ → Prop} (hrefl : ∀ a, R a a) {p : Program σ ι ε α}
    (h : ∀ s, p.Ensures R R Q s) : p.Begins A R Q := by
  cases p with
  | done value => exact h
  | fail error => trivial
  | locked act next =>
      intro s i _
      obtain ⟨hG, hnext⟩ := h s s i (hrefl s)
      exact ⟨hG, hnext hG⟩

/-- A check comes before the first section. -/
theorem Begins.check_bind {A : ι → σ → Prop} {result : Except ε β} {k : β → Program σ ι ε α}
    (h : ∀ value, result = .ok value → (k value).Begins A R Q) :
    (Program.check result >>= k).Begins A R Q := by
  cases result with
  | ok value => exact h value rfl
  | error error => trivial

theorem Begins.step_bind {A : ι → σ → Prop} {f : ι → σ → Except ε β × σ}
    {k : β → Program σ ι ε α}
    (h : ∀ s i, A i s → R s (f i s).2 ∧
      ∀ value, (f i s).1 = .ok value → (k value).Ensures R R Q (f i s).2) :
    (Program.step f >>= k).Begins A R Q := by
  intro s i hA
  obtain ⟨hR, hk⟩ := h s i hA
  refine ⟨hR, ?_⟩
  show (Program.bind (Program.check (f i s).1) k).Ensures R R Q (f i s).2
  cases hresult : (f i s).1 with
  | ok value => exact hk value hresult
  | error error => trivial

end

end Program

/-! ## Pools -/

/-- A request that is being served. -/
structure Thread (σ : Type u) (ι : Type v) (ε : Type w) (α : Type x) (κ : Type y) where
  /-- The request. -/
  request : κ
  /-- What is left to do. -/
  program : Program σ ι ε α

/-- The shared state and the threads that were ever started on it. -/
structure Pool (σ : Type u) (ι : Type v) (ε : Type w) (α : Type x) (κ : Type y) where
  state : σ
  threads : List (Thread σ ι ε α κ)

namespace Pool

variable {σ : Type u} {ι : Type v} {ε : Type w} {α : Type x} {κ : Type y}

/-- A request arrives. -/
def start (program : κ → Program σ ι ε α) (request : κ) (p : Pool σ ι ε α κ) :
    Pool σ ι ε α κ :=
  { p with threads := p.threads ++ [⟨request, program request⟩] }

/-- A thread does its next section; `none` when it has none. -/
def run (n : Nat) (i : ι) (p : Pool σ ι ε α κ) : Option (Pool σ ι ε α κ) :=
  match p.threads[n]? with
  | some ⟨request, .locked act next⟩ =>
      some ⟨act i p.state, p.threads.set n ⟨request, next i p.state⟩⟩
  | _ => none

variable {p q : Pool σ ι ε α κ} {n : Nat} {i : ι}

theorem run_eq_some (h : p.run n i = some q) :
    ∃ request act next, p.threads[n]? = some ⟨request, .locked act next⟩ ∧
      q = ⟨act i p.state, p.threads.set n ⟨request, next i p.state⟩⟩ := by
  unfold run at h
  split at h
  next request act next hthread =>
    cases h
    exact ⟨request, act, next, hthread, rfl⟩
  next => cases h

/-- Every thread is at some point of the program of its request. -/
def Serves (program : κ → Program σ ι ε α) (p : Pool σ ι ε α κ) : Prop :=
  ∀ thread ∈ p.threads, (program thread.request).Reaches thread.program

theorem Serves.start {program : κ → Program σ ι ε α} (h : p.Serves program) (request : κ) :
    (p.start program request).Serves program := by
  intro thread hthread
  rcases List.mem_append.mp hthread with hold | hnew
  · exact h thread hold
  · rw [List.mem_singleton.mp hnew]
    exact .refl

theorem Serves.run {program : κ → Program σ ι ε α} (h : p.Serves program)
    (hrun : p.run n i = some q) : q.Serves program := by
  obtain ⟨request, act, next, hthread, rfl⟩ := run_eq_some hrun
  intro thread hmem
  rcases List.mem_or_eq_of_mem_set hmem with hold | rfl
  · exact h thread hold
  · exact .next i p.state (h _ (List.mem_of_getElem? hthread))

/-- Every thread keeps its assertion, which may depend on its request. -/
def Sound (R G : κ → σ → σ → Prop) (p : Pool σ ι ε α κ) : Prop :=
  ∀ thread ∈ p.threads,
    thread.program.Ensures (R thread.request) (G thread.request) (fun _ _ => True) p.state

variable {R G : κ → σ → σ → Prop}

theorem Sound.start (h : Sound R G p) {program : κ → Program σ ι ε α} {request : κ}
    (hprogram : (program request).Ensures (R request) (G request) (fun _ _ => True) p.state) :
    Sound R G (p.start program request) := by
  intro thread hthread
  rcases List.mem_append.mp hthread with hold | hnew
  · exact h thread hold
  · rw [List.mem_singleton.mp hnew]
    exact hprogram

/-- The state is changed along what the running threads rely on. -/
theorem Sound.env (htrans : ∀ k a b c, R k a b → R k b c → R k a c) (h : Sound R G p) {t : σ}
    (hR : ∀ thread ∈ p.threads, thread.program.Running → R thread.request p.state t) :
    Sound R G { p with state := t } := by
  intro thread hthread
  have hthread' : thread ∈ p.threads := hthread
  cases hprogram : thread.program with
  | done value => trivial
  | fail error => trivial
  | locked act next =>
      have hkeeps := h thread hthread'
      have hrely := hR thread hthread'
      rw [hprogram] at hkeeps hrely
      exact hkeeps.env (htrans thread.request) (hrely trivial)

/-- The step lemma: a section keeps the guarantee of its thread, and every
assertion when it changes the state along what the running threads rely on. -/
theorem Sound.run (hrefl : ∀ k a, R k a a) (htrans : ∀ k a b c, R k a b → R k b c → R k a c)
    (h : Sound R G p) (hrun : p.run n i = some q) :
    (∃ thread, p.threads[n]? = some thread ∧ G thread.request p.state q.state) ∧
      ((∀ thread ∈ q.threads, thread.program.Running → R thread.request p.state q.state) →
        Sound R G q) := by
  obtain ⟨request, act, next, hthread, rfl⟩ := run_eq_some hrun
  have hkeeps := h _ (List.mem_of_getElem? hthread)
  obtain ⟨hG, hnext⟩ := hkeeps p.state i (hrefl request p.state)
  refine ⟨⟨_, hthread, hG⟩, fun hR => ?_⟩
  intro thread hmem
  rcases List.mem_or_eq_of_mem_set hmem with hold | rfl
  · cases hprogram : thread.program with
    | done value => trivial
    | fail error => trivial
    | locked act' next' =>
        have hkeeps' := h thread hold
        have hrely := hR thread hmem
        rw [hprogram] at hkeeps' hrely
        exact hkeeps'.env (htrans thread.request) (hrely trivial)
  · cases hprogram : next i p.state with
    | done value => trivial
    | fail error => trivial
    | locked act' next' =>
        have hrely := hR _ hmem
        rw [hprogram] at hnext
        simp only [hprogram] at hrely
        exact hnext (hrely trivial)

/-! ### Results that stay true -/

variable {program : κ → Program σ ι ε α} {A : κ → ι → σ → Prop} {S : σ → σ → Prop}
  {Q : κ → α → σ → Prop}

/-- Every thread is at the start of its program, or keeps an assertion about
what it gives back. -/
def Holds (program : κ → Program σ ι ε α) (S : σ → σ → Prop) (Q : κ → α → σ → Prop)
    (p : Pool σ ι ε α κ) : Prop :=
  ∀ thread ∈ p.threads, thread.program = program thread.request ∨
    thread.program.Ensures S S (Q thread.request) p.state

theorem Holds.start (h : Holds program S Q p) (request : κ) :
    Holds program S Q (p.start program request) := by
  intro thread hthread
  rcases List.mem_append.mp hthread with hold | hnew
  · exact h thread hold
  · rw [List.mem_singleton.mp hnew]
    exact .inl rfl

/-- The step lemma: when `A` holds of each first section, the state changes
along `S` and all assertions are kept. -/
theorem Holds.run (hrefl : ∀ a, S a a) (htrans : ∀ a b c, S a b → S b c → S a c)
    (hstable : ∀ k value a b, Q k value a → S a b → Q k value b)
    (hbegins : ∀ k, (program k).Begins (A k) S (Q k)) (h : Holds program S Q p)
    (hrun : p.run n i = some q)
    (hfirst : ∀ thread, p.threads[n]? = some thread →
      thread.program = program thread.request → A thread.request i p.state) :
    S p.state q.state ∧ Holds program S Q q := by
  obtain ⟨request, act, next, hthread, rfl⟩ := run_eq_some hrun
  have hown : S p.state (act i p.state) ∧
      (next i p.state).Ensures S S (Q request) (act i p.state) := by
    rcases h _ (List.mem_of_getElem? hthread) with hbegin | hkeeps
    · have hprogram : (program request).Begins (A request) S (Q request) := hbegins request
      rw [← show Program.locked act next = program request from hbegin] at hprogram
      exact hprogram _ _ (hfirst _ hthread hbegin)
    · obtain ⟨hS, hnext⟩ := hkeeps p.state i (hrefl p.state)
      exact ⟨hS, hnext hS⟩
  refine ⟨hown.1, ?_⟩
  intro thread hmem
  rcases List.mem_or_eq_of_mem_set hmem with hold | rfl
  · rcases h thread hold with hbegin | hkeeps
    · exact .inl hbegin
    · exact .inr (hkeeps.stable htrans (hstable thread.request) hown.1)
  · exact .inr hown.2

/-- What holds of a result when it is given back holds ever after. -/
theorem Holds.result (hbegins : ∀ k, (program k).Begins (A k) S (Q k))
    (h : Holds program S Q p) {thread : Thread σ ι ε α κ} (hthread : thread ∈ p.threads)
    {value : α} (hdone : thread.program = .done value) : Q thread.request value p.state := by
  rcases h thread hthread with hbegin | hkeeps
  · have hprogram := hbegins thread.request
    rw [← hbegin, hdone] at hprogram
    exact hprogram p.state
  · rw [hdone] at hkeeps
    exact hkeeps

/-- Every thread keeps an assertion about what it gives back. -/
def Promises (S : σ → σ → Prop) (Q : κ → α → σ → Prop) (p : Pool σ ι ε α κ) : Prop :=
  ∀ thread ∈ p.threads, thread.program.Ensures S S (Q thread.request) p.state

theorem Promises.start (h : Promises S Q p) {request : κ}
    (hprogram : (program request).Ensures S S (Q request) p.state) :
    Promises S Q (p.start program request) := by
  intro thread hthread
  rcases List.mem_append.mp hthread with hold | hnew
  · exact h thread hold
  · rw [List.mem_singleton.mp hnew]
    exact hprogram

/-- Others change the state along `S`. -/
theorem Promises.env (htrans : ∀ a b c, S a b → S b c → S a c)
    (hstable : ∀ k value a b, Q k value a → S a b → Q k value b) (h : Promises S Q p) {t : σ}
    (hst : S p.state t) : Promises S Q { p with state := t } :=
  fun thread hthread => (h thread hthread).stable htrans (hstable thread.request) hst

/-- The step lemma: a section changes the state along `S`. -/
theorem Promises.run (hrefl : ∀ a, S a a) (htrans : ∀ a b c, S a b → S b c → S a c)
    (hstable : ∀ k value a b, Q k value a → S a b → Q k value b) (h : Promises S Q p)
    (hrun : p.run n i = some q) : S p.state q.state ∧ Promises S Q q := by
  obtain ⟨request, act, next, hthread, rfl⟩ := run_eq_some hrun
  obtain ⟨hS, hnext⟩ := h _ (List.mem_of_getElem? hthread) p.state i (hrefl p.state)
  refine ⟨hS, ?_⟩
  intro thread hmem
  rcases List.mem_or_eq_of_mem_set hmem with hold | rfl
  · exact (h thread hold).stable htrans (hstable thread.request) hS
  · exact hnext hS

theorem Promises.result (h : Promises S Q p) {thread : Thread σ ι ε α κ}
    (hthread : thread ∈ p.threads) {value : α} (hdone : thread.program = .done value) :
    Q thread.request value p.state := by
  have hpromise := h thread hthread
  rw [hdone] at hpromise
  exact hpromise

end Pool

end Concurrent
