import Cresix.CloudCore.Catalog
import Cresix.Library.Transition

/-!
# Revisions of the connector

A call of `next_revision` reads the clock and then moves `LAST_REVISION` to the
larger of its reading and the successor of what is there.  `fetch_update` gives
back what it found and not what it stored.  So a call returns what the call
before it stored, and the first call of a process returns zero.

The calls of a process interleave between the reading and the update.  The
clock never goes back, also not when the process starts again, and no two calls
read the same millisecond.
-/

namespace Cresix.Connector

open CloudCore (PutCatalogRequest)
open Transition (System Event)

/-! ## The atomic -/

/-- `AtomicU64::fetch_update`: the result, and what is stored afterwards. -/
def fetchUpdate (f : Nat → Option Nat) (value : Nat) : Except Nat Nat × Nat :=
  match f value with
  | some next => (.ok value, next)
  | none => (.error value, value)

/-- `next_revision` after its reading: the revision, and what is stored. -/
def nextRevision (clock last : Nat) : Nat × Nat :=
  let (result, stored) :=
    fetchUpdate (fun last => some (max (max clock (Rust.saturatingAdd last 1)) 1)) last
  match result with
  | .ok revision => (revision, stored)
  | .error last => (Rust.saturatingAdd last 1, stored)

/-- The revision is the one that was stored before. -/
@[simp] theorem nextRevision_fst (clock last : Nat) : (nextRevision clock last).1 = last := rfl

@[simp] theorem nextRevision_snd (clock last : Nat) :
    (nextRevision clock last).2 = max (max clock (Rust.saturatingAdd last 1)) 1 := rfl

/-! ## Runs -/

/-- A connector and the clock of its host. -/
structure Revisions where
  /-- The clock, in milliseconds. -/
  now : Nat
  /-- The first millisecond that no call has read. -/
  unread : Nat
  /-- `LAST_REVISION`. -/
  last : Nat
  /-- The readings of the calls that have still to update. -/
  pending : List Nat
deriving DecidableEq, Repr

inductive Action where
  | tick (time : Nat)
  /-- The process ends and another one starts. -/
  | start
  /-- A call reads the clock. -/
  | read
  /-- The call with this reading updates and returns. -/
  | update (clock : Nat)
deriving DecidableEq, Repr

namespace Revisions

def step (s : Revisions) : Action → Option Revisions
  | .tick time => some { s with now := s.now + time }
  | .start => some { s with last := 0, pending := [] }
  | .read =>
      if s.unread ≤ s.now then
        some { s with unread := s.now + 1, pending := s.pending ++ [min s.now Rust.u64Max] }
      else none
  | .update clock =>
      if clock ∈ s.pending then
        some { s with last := (nextRevision clock s.last).2, pending := s.pending.erase clock }
      else none

/-- A process before its first call, at any time. -/
def initial (now : Nat) : Revisions := ⟨now, 0, 0, []⟩

/-- The connector from its first start on. -/
def system : System Revisions Action := .ofOption (fun s => ∃ now, s = initial now) step

end Revisions

/-- The steps, by what they do. -/
inductive Step (s : Revisions) : Action → Revisions → Prop where
  | tick (time : Nat) : Step s (.tick time) { s with now := s.now + time }
  | start : Step s .start { s with last := 0, pending := [] }
  | read : s.unread ≤ s.now →
      Step s .read { s with unread := s.now + 1, pending := s.pending ++ [min s.now Rust.u64Max] }
  | update {clock : Nat} : clock ∈ s.pending →
      Step s (.update clock)
        { s with last := (nextRevision clock s.last).2, pending := s.pending.erase clock }

theorem Step.of_step {s t : Revisions} {a : Action} (h : s.step a = some t) : Step s a t := by
  cases a with
  | tick time =>
      cases h
      exact .tick time
  | start =>
      cases h
      exact .start
  | read =>
      change (if _ then _ else _) = _ at h
      split at h
      next hfree =>
        cases h
        exact .read hfree
      next => cases h
  | update clock =>
      change (if _ then _ else _) = _ at h
      split at h
      next hmem =>
        cases h
        exact .update hmem
      next => cases h

/-- The event is the return of a call that read `clock`. -/
def Returns (e : Event Revisions Action) (clock revision : Nat) : Prop :=
  e.label = .update clock ∧ revision = (nextRevision clock e.pre.last).1

/-- Every revision a run returns is fresh. -/
structure FreshRevisions (tr : List (Event Revisions Action)) : Prop where
  positive : ∀ e ∈ tr, ∀ clock revision, Returns e clock revision → 1 ≤ revision
  reading : ∀ e ∈ tr, ∀ clock revision, Returns e clock revision → clock ≤ revision
  increasing : tr.Pairwise fun earlier later => ∀ clock revision clock' revision',
    Returns earlier clock revision → Returns later clock' revision' → revision < revision'

/-- The cloud refuses no revision of the run as zero, and none as stale after it
accepted any of the earlier ones. -/
def Publishable (tr : List (Event Revisions Action)) : Prop :=
  ∀ before e after, tr = before ++ e :: after → ∀ clock revision, Returns e clock revision →
    (∀ request : PutCatalogRequest, request.revision = revision →
      request.validate ≠ .error .zeroCatalogRevision) ∧
    ∀ e' ∈ before, ∀ clock' current, Returns e' clock' current → ¬revision ≤ current

section

variable {s t : Revisions} {tr : List (Event Revisions Action)}

theorem FreshRevisions.publishable (h : FreshRevisions tr) : Publishable tr := by
  rintro before e after rfl clock revision he
  constructor
  · rintro request rfl hzero
    rw [PutCatalogRequest.validate_eq_zeroCatalogRevision] at hzero
    have hpositive := h.positive e (by simp) clock _ he
    omega
  · intro e' he' clock' current hreturns
    have hlt := (List.pairwise_append.mp h.increasing).2.2 e' he' e List.mem_cons_self
      clock' current clock revision hreturns he
    exact Nat.not_le.mpr hlt

/-! ## One call behind -/

theorem Returns.revision {e : Event Revisions Action} {clock revision : Nat}
    (h : Returns e clock revision) : revision = e.pre.last := h.2

/-- Nothing is stored before the first call of a process returns. -/
theorem last_eq_zero (hrun : Revisions.system.Run s tr t) (hs : s.last = 0)
    (hnone : ∀ e ∈ tr, ∀ clock revision, ¬Returns e clock revision) : t.last = 0 := by
  induction hrun with
  | refl => exact hs
  | @snoc tr t u a _ hstep ih =>
      have hlast := ih fun e he => hnone e (List.mem_append_left _ he)
      have hquiet := hnone ⟨t, a, u⟩ (List.mem_append_right _ List.mem_cons_self)
      cases Step.of_step hstep with
      | tick time => exact hlast
      | start => rfl
      | read _ => exact hlast
      | update hmem => exact absurd ⟨rfl, rfl⟩ (hquiet _ _)

/-- The cloud refuses the first catalog of every process. -/
theorem first_refused {stopped : Revisions} {e : Event Revisions Action} {clock revision : Nat}
    {request : PutCatalogRequest} (hstart : Revisions.system.step stopped .start s)
    (hrun : Revisions.system.Run s tr e.pre)
    (hnone : ∀ e ∈ tr, ∀ clock revision, ¬Returns e clock revision)
    (hreturns : Returns e clock revision) (hrequest : request.revision = revision) :
    request.validate = .error .zeroCatalogRevision := by
  have hlast : s.last = 0 := by
    cases hstart
    rfl
  rw [PutCatalogRequest.validate_eq_zeroCatalogRevision, hrequest, hreturns.revision]
  exact last_eq_zero hrun hlast hnone

/-- The first revision a run returns is zero. -/
theorem not_fresh_of_returns (hstart : Revisions.system.start s)
    (hrun : Revisions.system.Run s tr t) (hfresh : FreshRevisions tr) :
    ∀ e ∈ tr, ∀ clock revision, ¬Returns e clock revision := by
  induction hrun with
  | refl => exact nofun
  | @snoc tr t u a hrun hstep ih =>
      have hold := ih ⟨fun e he => hfresh.positive e (List.mem_append_left _ he),
        fun e he => hfresh.reading e (List.mem_append_left _ he),
        (List.pairwise_append.mp hfresh.increasing).1⟩
      intro e he clock revision hreturns
      have hpositive := hfresh.positive e he clock revision hreturns
      rcases List.mem_append.mp he with hmem | hlast
      · exact hold e hmem clock revision hreturns
      · obtain rfl := List.mem_singleton.mp hlast
        have hs : s.last = 0 := by
          obtain ⟨now, rfl⟩ := hstart
          rfl
        have hzero := last_eq_zero hrun hs hold
        have hrevision : revision = t.last := hreturns.revision
        omega

/-- In no run that returns a revision is every revision fresh. -/
theorem freshRevisions_iff (hstart : Revisions.system.start s)
    (hrun : Revisions.system.Run s tr t) :
    (FreshRevisions tr ∧ Publishable tr) ↔ ∀ e ∈ tr, ∀ clock revision, ¬Returns e clock revision := by
  constructor
  · rintro ⟨hfresh, -⟩
    exact not_fresh_of_returns hstart hrun hfresh
  · intro hnone
    have hfresh : FreshRevisions tr :=
      { positive := fun e he clock revision h => absurd h (hnone e he clock revision)
        reading := fun e he clock revision h => absurd h (hnone e he clock revision)
        increasing := List.pairwise_iff_forall_sublist.mpr fun hsub clock revision _ _ h _ =>
          absurd h (hnone _ (hsub.subset List.mem_cons_self) clock revision) }
    exact ⟨hfresh, hfresh.publishable⟩

/-! ## Calls one after the other -/

/-- A call begins when no other is under way. -/
def Serial (s : Revisions) (a : Action) (_ : Revisions) : Prop := a = .read → s.pending = []

/-- What is stored lags behind the clock. -/
structure Behind (s : Revisions) : Prop where
  now : 0 < s.now
  last : s.last = 0 ∨ s.last < s.unread
  pending : s.pending = [] ∨ ∃ clock, s.pending = [clock] ∧ s.last < clock ∧ clock < s.unread

theorem Step.now_le {a : Action} (h : Step s a t) : s.now ≤ t.now := by
  cases h with
  | tick time => exact Nat.le_add_right _ _
  | start | read _ | update _ => exact Nat.le_refl _

theorem Behind.step {a : Action} (hs : Behind s) (h : Step s a t) (hserial : Serial s a t)
    (hsmall : s.now < Rust.u64Max) : Behind t := by
  cases h with
  | tick time => exact ⟨Nat.lt_of_lt_of_le hs.now (Nat.le_add_right _ _), hs.last, hs.pending⟩
  | start => exact ⟨hs.now, .inl rfl, .inl rfl⟩
  | read hfree =>
      have hnow := hs.now
      have hlast := hs.last
      refine ⟨hnow, ?_, .inr ⟨s.now, ?_, ?_, Nat.lt_succ_self _⟩⟩
      · dsimp only
        omega
      · dsimp only
        rw [hserial rfl, Nat.min_eq_left hsmall.le]
        rfl
      · dsimp only
        omega
  | @update clock hmem =>
      obtain hnil | ⟨clock', hpending, hlt, hunread⟩ := hs.pending
      · rw [hnil] at hmem
        cases hmem
      · rw [hpending] at hmem
        obtain rfl := List.mem_singleton.mp hmem
        refine ⟨hs.now, .inr ?_, .inl ?_⟩
        · simp only [nextRevision_snd, Rust.saturatingAdd]
          omega
        · dsimp only
          rw [hpending]
          simp

theorem behind_of_run {now : Nat} (hnow : 0 < now)
    (hrun : (Revisions.system.restrict Serial).Run (Revisions.initial now) tr t)
    (hsmall : t.now < Rust.u64Max) :
    Behind t ∧ ∀ e ∈ tr, ∀ clock revision, Returns e clock revision → revision < clock := by
  induction hrun with
  | refl => exact ⟨⟨hnow, .inl rfl, .inl rfl⟩, nofun⟩
  | @snoc tr t u a _ hstep ih =>
      obtain ⟨hstep, hserial⟩ := hstep
      have hstep := Step.of_step hstep
      have hsmall' : t.now < Rust.u64Max := Nat.lt_of_le_of_lt hstep.now_le hsmall
      obtain ⟨hbehind, hold⟩ := ih hsmall'
      refine ⟨hbehind.step hstep hserial hsmall', ?_⟩
      refine Transition.forall_mem_snoc ?_ ?_
      · intro e hmem clock revision hreturns
        exact hold e hmem clock revision hreturns
      · intro clock revision hreturns
        obtain ⟨rfl, rfl⟩ := hreturns
        cases hstep with
        | update hmem =>
            obtain hnil | ⟨clock', hpending, hlt, -⟩ := hbehind.pending
            · rw [hnil] at hmem
              cases hmem
            · rw [hpending] at hmem
              obtain rfl := List.mem_singleton.mp hmem
              exact hlt

/-- A call that runs alone returns less than its reading of the clock. -/
theorem revision_lt_reading {now : Nat} (hnow : 0 < now)
    (hrun : (Revisions.system.restrict Serial).Run (Revisions.initial now) tr t)
    (hsmall : t.now < Rust.u64Max) {e : Event Revisions Action} (he : e ∈ tr)
    {clock revision : Nat} (hreturns : Returns e clock revision) : revision < clock :=
  (behind_of_run hnow hrun hsmall).2 e he clock revision hreturns

end

/-! ## One call -/

/-- The events of the steps of a connector that starts at this time. -/
def eventsOf (actions : List Action) : List (Event Revisions Action) :=
  System.events Revisions.step (Revisions.initial 1000) actions

/-- A process publishes once, and so does the next one. -/
def publishTwice : List Action := [.read, .update 1000, .start, .tick 1, .read, .update 1001]

theorem freshRevisions_publishTwice :
    ¬(FreshRevisions (eventsOf publishTwice) ∧ Publishable (eventsOf publishTwice)) := by
  obtain ⟨t, hrun⟩ : ∃ t, Revisions.system.Run (Revisions.initial 1000) (eventsOf publishTwice) t :=
    System.Run.events (by decide)
  rw [freshRevisions_iff ⟨1000, rfl⟩ hrun]
  intro hnone
  exact hnone ⟨⟨1000, 1001, 0, [1000]⟩, .update 1000, ⟨1000, 1001, 1000, []⟩⟩
    (List.mem_of_getElem? (i := 1) rfl) 1000 0 ⟨rfl, rfl⟩

/-- The first call of a process returns zero. -/
theorem not_freshRevisions :
    ¬∀ (s t : Revisions) (tr : List (Event Revisions Action)), Revisions.system.start s →
      Revisions.system.Run s tr t → FreshRevisions tr ∧ Publishable tr := by
  intro hall
  obtain ⟨t, hrun⟩ : ∃ t, Revisions.system.Run (Revisions.initial 1000)
    (eventsOf [.read, .update 1000]) t := System.Run.events (by decide)
  have hpositive := (hall _ _ _ ⟨1000, rfl⟩ hrun).1.positive
    ⟨⟨1000, 1001, 0, [1000]⟩, .update 1000, ⟨1000, 1001, 1000, []⟩⟩
    (List.mem_of_getElem? (i := 1) rfl) 1000 0 ⟨rfl, rfl⟩
  exact absurd hpositive (by decide)

end Cresix.Connector
