import Cresix.Library.Concurrent

/-!
# Programs that own a part of the state

`Program.Meets R G Q` is a rely-guarantee assertion for programs that change
what they rely on nobody else to change: `R` is asked of the others only, and
the own sections are told exactly.  `Q` speaks of failures as well.

`Pool.system` runs any number of programs on one state.  A program that is
never run again has been killed.  When what one thread guarantees is what the
others rely on, every thread keeps its assertion in every run
(`Pool.Meeting.of_run`).
-/

namespace Concurrent

open Transition (System Event)

universe u v w x y

namespace Program

variable {σ : Type u} {ι : Type v} {ε ε' : Type w} {α β : Type x}

/-- What the program comes to, as a value of a program that goes on. -/
def caught : Program σ ι ε α → Program σ ι ε' (Except ε α)
  | done value => done (.ok value)
  | fail error => done (.error error)
  | locked act next => locked act fun i s => (next i s).caught

/-! ### Outcomes as values -/

section

variable {δ γ χ : Type w} {s : σ}

theorem caught_check (result : Except δ γ) :
    ((check result : Program σ ι δ γ).caught : Program σ ι ε' (Except δ γ)) = done result := by
  cases result with
  | ok value => rfl
  | error error => rfl

theorem caught_step (f : ι → σ → Except δ γ × σ) :
    ((step f).caught : Program σ ι ε' (Except δ γ)) =
      step fun i s => (.ok (f i s).1, (f i s).2) := by
  show locked _ _ = locked _ _
  congr 1
  funext i s
  exact caught_check (f i s).1

/-- The outcome as a value, and given back. -/
theorem caught_check_bind (p : Program σ ι δ γ) : p.caught >>= check = p := by
  induction p with
  | done value => rfl
  | fail error => rfl
  | locked act next ih =>
      show locked _ _ = locked _ _
      congr 1
      funext i s
      exact ih i s

/-- One program after the other; the second one is left out after a failure. -/
theorem caught_bind (p : Program σ ι δ γ) (k : γ → Program σ ι δ χ) :
    ((p >>= k).caught : Program σ ι ε' (Except δ χ)) = p.caught >>= fun result =>
      match result with
      | .ok value => (k value).caught
      | .error error => pure (.error error) := by
  induction p with
  | done value => rfl
  | fail error => rfl
  | locked act next ih =>
      show locked _ _ = locked _ _
      congr 1
      funext i s
      exact ih i s

theorem Ensures.caught {R G : σ → σ → Prop} {p : Program σ ι δ γ}
    (h : p.Ensures R G (fun _ _ => True) s) :
    (p.caught : Program σ ι ε' (Except δ γ)).Ensures R G (fun _ _ => True) s := by
  induction p generalizing s with
  | done value => trivial
  | fail error => trivial
  | locked act next ih =>
      intro t i hst
      obtain ⟨hG, hnext⟩ := h t i hst
      exact ⟨hG, fun hR => ih i t (hnext hR)⟩

end

/-- While the others change the state along `R`, each section changes it along
`G`, and `Q` holds of the outcome. -/
def Meets (R G : σ → σ → Prop) (Q : Except ε α → σ → Prop) : Program σ ι ε α → σ → Prop
  | done value, s => Q (.ok value) s
  | fail error, s => Q (.error error) s
  | locked act next, s => ∀ t i, R s t → G t (act i t) ∧ (next i t).Meets R G Q (act i t)

variable {R G : σ → σ → Prop} {Q : Except ε α → σ → Prop} {s t : σ} {p : Program σ ι ε α}

/-- One program after the other. -/
theorem Meets.bind {k : α → Program σ ι ε β} {Q' : Except ε β → σ → Prop} (h : p.Meets R G Q s)
    (hok : ∀ value t, Q (.ok value) t → (k value).Meets R G Q' t)
    (herror : ∀ error t, Q (.error error) t → Q' (.error error) t) :
    (p >>= k).Meets R G Q' s := by
  induction p generalizing s with
  | done value => exact hok value s h
  | fail error => exact herror error s h
  | locked act next ih =>
      intro t i hst
      obtain ⟨hG, hnext⟩ := h t i hst
      exact ⟨hG, ih i t hnext⟩

theorem Meets.caught {Q' : Except ε' (Except ε α) → σ → Prop} (h : p.Meets R G Q s)
    (hQ : ∀ result t, Q result t → Q' (.ok result) t) :
    (p.caught : Program σ ι ε' (Except ε α)).Meets R G Q' s := by
  induction p generalizing s with
  | done value => exact hQ (.ok value) s h
  | fail error => exact hQ (.error error) s h
  | locked act next ih =>
      intro t i hst
      obtain ⟨hG, hnext⟩ := h t i hst
      exact ⟨hG, ih i t hnext⟩

theorem Meets.check {result : Except ε α} (h : Q result s) :
    (Program.check result : Program σ ι ε α).Meets R G Q s := by
  cases result with
  | ok value => exact h
  | error error => exact h

/-- The rule for one section. -/
theorem Meets.step {f : ι → σ → Except ε α × σ}
    (h : ∀ t i, R s t → G t (f i t).2 ∧ Q (f i t).1 (f i t).2) :
    (Program.step f).Meets R G Q s := by
  intro t i hst
  obtain ⟨hG, hQ⟩ := h t i hst
  exact ⟨hG, .check hQ⟩

theorem Meets.mono {Q' : Except ε α → σ → Prop} (h : p.Meets R G Q s)
    (hQ : ∀ result t, Q result t → Q' result t) : p.Meets R G Q' s := by
  induction p generalizing s with
  | done value => exact hQ (.ok value) s h
  | fail error => exact hQ (.error error) s h
  | locked act next ih =>
      intro t i hst
      obtain ⟨hG, hnext⟩ := h t i hst
      exact ⟨hG, ih i t hnext⟩

/-- An assertion that `R` keeps is kept while the others go on. -/
theorem Meets.env (htrans : ∀ a b c, R a b → R b c → R a c)
    (hstable : ∀ result a b, Q result a → R a b → Q result b) (h : p.Meets R G Q s)
    (hst : R s t) : p.Meets R G Q t := by
  cases p with
  | done value => exact hstable (.ok value) s t h hst
  | fail error => exact hstable (.error error) s t h hst
  | locked act next => exact fun u i htu => h u i (htrans s t u hst htu)

end Program

namespace Pool

variable {σ : Type u} {ι : Type v} {ε : Type w} {α : Type x} {κ : Type y}

inductive Action (ι : Type v) (κ : Type y) where
  | start (request : κ)
  | run (thread : Nat) (input : ι)

def step (program : κ → Program σ ι ε α) (p : Pool σ ι ε α κ) :
    Action ι κ → Option (Pool σ ι ε α κ)
  | .start request => some (p.start program request)
  | .run thread input => p.run thread input

/-- Any programs, in any order of their sections, from a state on. -/
def system (program : κ → Program σ ι ε α) : System (Pool σ ι ε α κ) (Action ι κ) :=
  .ofOption (fun p => p.threads = []) (step program)

/-- Every thread keeps its assertion. -/
def Meeting (R G : κ → σ → σ → Prop) (Q : κ → Except ε α → σ → Prop) (p : Pool σ ι ε α κ) :
    Prop :=
  ∀ thread ∈ p.threads,
    thread.program.Meets (R thread.request) (G thread.request) (Q thread.request) p.state

variable {R G : κ → σ → σ → Prop} {Q : κ → Except ε α → σ → Prop} {p q : Pool σ ι ε α κ}
variable {program : κ → Program σ ι ε α} {n : Nat} {i : ι}

theorem Meeting.start (h : Meeting R G Q p) {request : κ}
    (hprogram : (program request).Meets (R request) (G request) (Q request) p.state) :
    Meeting R G Q (p.start program request) := by
  intro thread hthread
  rcases List.mem_append.mp hthread with hold | hnew
  · exact h thread hold
  · rw [List.mem_singleton.mp hnew]
    exact hprogram

/-- The step lemma: a section keeps its guarantee, and every assertion when the
others rely on no more. -/
theorem Meeting.run (hrefl : ∀ k a, R k a a) (htrans : ∀ k a b c, R k a b → R k b c → R k a c)
    (hstable : ∀ k result a b, Q k result a → R k a b → Q k result b) (h : Meeting R G Q p)
    (hrun : p.run n i = some q) :
    ∃ own, p.threads[n]? = some own ∧ G own.request p.state q.state ∧
      ((∀ m other, p.threads[m]? = some other → m ≠ n → R other.request p.state q.state) →
        Meeting R G Q q) := by
  obtain ⟨request, act, next, hthread, rfl⟩ := run_eq_some hrun
  obtain ⟨hG, hnext⟩ := h _ (List.mem_of_getElem? hthread) p.state i (hrefl request p.state)
  refine ⟨_, hthread, hG, fun hR => ?_⟩
  intro thread hmem
  obtain ⟨m, hm⟩ := List.getElem?_of_mem hmem
  rcases eq_or_ne m n with rfl | hne
  · rw [List.getElem?_set_self (List.getElem?_eq_some_iff.mp hthread).1] at hm
    cases hm
    exact hnext
  · rw [List.getElem?_set_ne hne.symm] at hm
    have hkeeps := h thread (List.mem_of_getElem? hm)
    exact hkeeps.env (htrans thread.request) (hstable thread.request) (hR m thread hm hne)

/-- What the threads of a pool were asked. -/
def requests (p : Pool σ ι ε α κ) : List κ := p.threads.map (·.request)

theorem mem_requests {thread : Thread σ ι ε α κ} (h : thread ∈ p.threads) :
    thread.request ∈ p.requests :=
  List.mem_map_of_mem h

/-- They do not change while the threads run. -/
theorem requests_of_run (hrun : p.run n i = some q) : q.requests = p.requests := by
  obtain ⟨request, act, next, hthread, rfl⟩ := run_eq_some hrun
  apply List.ext_getElem?
  intro m
  rw [requests, requests, List.getElem?_map, List.getElem?_map]
  rcases eq_or_ne m n with rfl | hne
  · rw [List.getElem?_set_self (List.getElem?_eq_some_iff.mp hthread).1, hthread]
    rfl
  · rw [List.getElem?_set_ne hne.symm]

theorem requests_of_step {a : Action ι κ} (hstep : step program p a = some q) :
    p.requests ⊆ q.requests := by
  cases a with
  | start request =>
      cases hstep
      rw [requests, requests, start, List.map_append]
      exact List.subset_append_left _ _
  | run n i =>
      rw [requests_of_run hstep]
      exact List.Subset.refl _

/-! ### Whole runs -/

/-- A request is only started next to those it is apart from. -/
def Admits (Apart : κ → κ → Prop) (p : Pool σ ι ε α κ) (a : Action ι κ) (_ : Pool σ ι ε α κ) :
    Prop :=
  ∀ request, a = .start request → ∀ other ∈ p.requests, Apart other request

/-- What one thread guarantees is what the others rely on. -/
structure Compatible (program : κ → Program σ ι ε α) (R G : κ → σ → σ → Prop)
    (Q : κ → Except ε α → σ → Prop) (Apart : κ → κ → Prop) : Prop where
  refl : ∀ k a, R k a a
  trans : ∀ k a b c, R k a b → R k b c → R k a c
  stable : ∀ k result a b, Q k result a → R k a b → Q k result b
  symm : ∀ k k', Apart k k' → Apart k' k
  apart : ∀ k k' a b, Apart k k' → G k a b → R k' a b
  meets : ∀ k s, (program k).Meets (R k) (G k) (Q k) s

variable {Apart : κ → κ → Prop} {tr : List (Event (Pool σ ι ε α κ) (Action ι κ))}

/-- What a step does: it starts a request, or it is a section of a thread. -/
theorem Compatible.step (hcompatible : Compatible program R G Q Apart) {a : Action ι κ}
    (hmeeting : Meeting R G Q p) (hapart : p.requests.Pairwise Apart)
    (hstep : step program p a = some q) (hadmits : Admits Apart p a q) :
    (Meeting R G Q q ∧ q.requests.Pairwise Apart) ∧
      (q.state = p.state ∨ ∃ own ∈ q.requests, G own p.state q.state) := by
  cases a with
  | start request =>
      cases hstep
      refine ⟨⟨hmeeting.start (hcompatible.meets request p.state), ?_⟩, .inl rfl⟩
      rw [requests, start, List.map_append]
      exact Transition.pairwise_snoc hapart (hadmits request rfl)
  | run n i =>
      obtain ⟨own, hown, hG, hothers⟩ :=
        hmeeting.run hcompatible.refl hcompatible.trans hcompatible.stable hstep
      have hrequests := requests_of_run hstep
      refine ⟨⟨hothers ?_, by rwa [hrequests]⟩, .inr ?_⟩
      · intro m other hother hne
        refine hcompatible.apart own.request other.request _ _ ?_ hG
        have hn : p.requests[n]? = some own.request := by
          rw [requests, List.getElem?_map, hown]
          rfl
        have hm : p.requests[m]? = some other.request := by
          rw [requests, List.getElem?_map, hother]
          rfl
        obtain ⟨hnlt, hn⟩ := List.getElem?_eq_some_iff.mp hn
        obtain ⟨hmlt, hm⟩ := List.getElem?_eq_some_iff.mp hm
        rw [← hn, ← hm]
        rcases Nat.lt_or_gt_of_ne hne with hlt | hgt
        · exact hcompatible.symm _ _ (List.pairwise_iff_getElem.mp hapart m n hmlt hnlt hlt)
        · exact List.pairwise_iff_getElem.mp hapart n m hnlt hmlt hgt
      · refine ⟨own.request, ?_, hG⟩
        rw [hrequests]
        exact mem_requests (List.mem_of_getElem? hown)

/-- The rule for runs. -/
theorem Compatible.run (hcompatible : Compatible program R G Q Apart) {start : Pool σ ι ε α κ}
    (hstart : start.threads = [])
    (h : ((system program).restrict (Admits Apart)).Run start tr p) :
    Meeting R G Q p ∧ p.requests.Pairwise Apart := by
  refine Transition.System.Run.invariant
    (I := fun p => Meeting R G Q p ∧ p.requests.Pairwise Apart) ?_ h ?_
  · intro s a t hs hst
    exact (hcompatible.step hs.1 hs.2 hst.1 hst.2).1
  · constructor
    · intro thread hthread
      rw [hstart] at hthread
      cases hthread
    · rw [requests, hstart]
      exact .nil

/-- Every step of a run is along the guarantee of a thread. -/
theorem Compatible.events (hcompatible : Compatible program R G Q Apart)
    {start : Pool σ ι ε α κ} (hstart : start.threads = [])
    (h : ((system program).restrict (Admits Apart)).Run start tr p) :
    ∀ e ∈ tr, e.post.state = e.pre.state ∨
      ∃ own ∈ e.post.requests, G own e.pre.state e.post.state := by
  intro e he
  obtain ⟨before, after, -, hbefore, hstep, -⟩ := h.split he
  obtain ⟨hmeeting, hapart⟩ := hcompatible.run hstart hbefore
  exact (hcompatible.step hmeeting hapart hstep.1 hstep.2).2

end Pool

end Concurrent
