import Mathlib.Data.List.Infix
import Mathlib.Tactic.Common

/-!
# The first occurrence of a pattern

`position` looks for the first place in a list where a pattern begins.  That
`pat` occurs nowhere before the end of `front ++ pat` is said as
`¬pat <:+: front ++ pat.dropLast`: an occurrence that ends with the last
element is the one after `front`.
-/

namespace Search

universe u

variable {α : Type u} {pat front back l : List α} {a : α} {n : Nat}

section

variable [DecidableEq α]

/-- Where the pattern begins first. -/
def position (pat : List α) : List α → Option Nat
  | [] => none
  | a :: l => if pat <+: a :: l then some 0 else (position pat l).map (· + 1)

theorem position_eq_none_iff (hpat : pat ≠ []) : position pat l = none ↔ ¬pat <:+: l := by
  induction l with
  | nil => simp [position, hpat]
  | cons a l ih =>
      rw [position, List.infix_cons_iff, not_or, ← ih]
      split
      next h => simp [h]
      next h => simp [h]

/-- What is found is an occurrence, and there is none before it. -/
theorem position_eq_some (hpat : pat ≠ []) (h : position pat l = some n) :
    ∃ front back, l = front ++ pat ++ back ∧ front.length = n ∧
      ¬pat <:+: front ++ pat.dropLast := by
  induction l generalizing n with
  | nil => cases h
  | cons a l ih =>
      rw [position] at h
      split at h
      next hprefix =>
        cases h
        obtain ⟨back, hback⟩ := hprefix
        refine ⟨[], back, hback.symm, rfl, ?_⟩
        intro hinside
        have hlength := hinside.length_le
        have hpos := List.length_pos_iff.mpr hpat
        rw [List.nil_append, List.length_dropLast] at hlength
        omega
      next hprefix =>
        obtain ⟨m, hm, rfl⟩ := Option.map_eq_some_iff.mp h
        obtain ⟨front, back, rfl, rfl, hfirst⟩ := ih hm
        refine ⟨a :: front, back, rfl, rfl, ?_⟩
        rw [List.cons_append, List.infix_cons_iff, not_or]
        refine ⟨?_, hfirst⟩
        intro hearlier
        refine hprefix (hearlier.trans ?_)
        rw [← List.cons_append, ← List.cons_append, ← List.cons_append, List.append_assoc,
          List.prefix_append_right_inj]
        exact (List.dropLast_prefix pat).trans (List.prefix_append pat back)

/-- An occurrence with none before it is what is found. -/
theorem position_append (hpat : pat ≠ []) (h : ¬pat <:+: front ++ pat.dropLast) :
    position pat (front ++ pat ++ back) = some front.length := by
  induction front with
  | nil =>
      cases pat with
      | nil => exact absurd rfl hpat
      | cons a pat => exact if_pos (List.prefix_append _ back)
  | cons a front ih =>
      rw [List.cons_append, List.infix_cons_iff, not_or] at h
      rw [List.cons_append, List.cons_append, position, if_neg, ih h.2]
      · rfl
      · intro hearlier
        refine h.1 (List.prefix_of_prefix_length_le hearlier ?_ ?_)
        · rw [← List.cons_append, ← List.cons_append, ← List.cons_append, List.append_assoc,
            List.prefix_append_right_inj]
          exact (List.dropLast_prefix pat).trans (List.prefix_append pat back)
        · rw [List.length_cons, List.length_append, List.length_dropLast]
          omega

end

/-! ## Occurrences -/

/-- An element is found where it stands first. -/
theorem idxOf?_append_cons [BEq α] [LawfulBEq α] (h : a ∉ front) (back : List α) :
    (front ++ a :: back).idxOf? a = some front.length := by
  rw [List.idxOf?_eq_some_iff]
  refine ⟨by simp, by simp, fun j hj heq => h ?_⟩
  rw [List.getElem_append_left hj] at heq
  exact heq ▸ List.getElem_mem hj

/-- A front of a list ends before an element of it, or goes past it. -/
theorem append_cons_cases {chunk more : List α} (h : chunk ++ more = front ++ a :: back) :
    (∃ later, front = chunk ++ later ∧ more = later ++ a :: back) ∨
      ∃ taken, chunk = front ++ a :: taken ∧ back = taken ++ more := by
  rcases List.append_eq_append_iff.mp h with ⟨later, hfront, hmore⟩ | ⟨last, hchunk, hback⟩
  · exact .inl ⟨later, hfront, hmore⟩
  · cases last with
    | nil =>
        rw [List.append_nil] at hchunk
        exact .inl ⟨[], by rw [hchunk, List.append_nil], hback.symm⟩
    | cons x taken =>
        rw [List.cons_append] at hback
        obtain ⟨rfl, htail⟩ := List.cons_eq_cons.mp hback
        exact .inr ⟨taken, hchunk, htail⟩

/-- An occurrence does not begin with another element than the pattern does. -/
theorem infix_cons_iff_of_ne {b : α} (h : a ≠ b) :
    b :: pat <:+: a :: l ↔ b :: pat <:+: l := by
  rw [List.infix_cons_iff, List.cons_prefix_cons]
  exact or_iff_right fun hhead => h hhead.1.symm

theorem infix_append_iff_of_not_mem (h : a ∉ front) :
    a :: pat <:+: front ++ l ↔ a :: pat <:+: l := by
  induction front with
  | nil => rfl
  | cons b front ih =>
      rw [List.mem_cons, not_or] at h
      rw [List.cons_append, infix_cons_iff_of_ne (Ne.symm h.1), ih h.2]

/-- An occurrence of an element twice in a row gives an empty piece that is not the last one. -/
theorem mem_dropLast_splitOn [DecidableEq α] (h : [a, a] <:+: l) :
    [] ∈ (l.splitOn a).dropLast := by
  obtain ⟨front, back, rfl⟩ := h
  have htail : ([] ++ a :: back).splitOn a = [] :: back.splitOn a :=
    List.splitOn_append_cons_self_of_not_mem List.not_mem_nil back
  have hsplit : (front ++ [a, a] ++ back).splitOn a =
      front.splitOn a ++ [] :: back.splitOn a := by
    rw [← htail, ← List.splitOn_append_cons_self, List.append_assoc]
    rfl
  rw [hsplit, List.dropLast_append_of_ne_nil (List.cons_ne_nil _ _),
    List.dropLast_cons_of_ne_nil (List.splitOn_ne_nil a back)]
  exact List.mem_append_right _ List.mem_cons_self

/-- What is not the separator is in one of the pieces. -/
theorem exists_mem_splitOn [DecidableEq α] {b : α} (h : b ∈ l) (hne : b ≠ a) :
    ∃ piece ∈ l.splitOn a, b ∈ piece := by
  induction l with
  | nil => cases h
  | cons first l ih =>
      rw [List.splitOn_cons_eq_if_modifyHead]
      obtain ⟨piece, pieces, hsplit⟩ := List.exists_cons_of_ne_nil (List.splitOn_ne_nil a l)
      rw [hsplit] at ih ⊢
      split
      next heq =>
        rcases List.mem_cons.mp h with rfl | hmem
        · exact absurd (beq_iff_eq.mp heq) hne
        · obtain ⟨other, hother, hb⟩ := ih hmem
          exact ⟨other, List.mem_cons_of_mem _ hother, hb⟩
      next =>
        rw [List.modifyHead_cons]
        rcases List.mem_cons.mp h with rfl | hmem
        · exact ⟨b :: piece, List.mem_cons_self, List.mem_cons_self⟩
        · obtain ⟨other, hother, hb⟩ := ih hmem
          rcases List.mem_cons.mp hother with rfl | hother
          · exact ⟨first :: other, List.mem_cons_self, List.mem_cons_of_mem _ hb⟩
          · exact ⟨other, List.mem_cons_of_mem _ hother, hb⟩

/-- The first piece is the whole list, or the separator follows it. -/
theorem first_splitOn_cases [DecidableEq α] {first : List α} {rest : List (List α)}
    (h : l.splitOn a = first :: rest) : first = l ∨ first ++ [a] <+: l := by
  induction l generalizing first rest with
  | nil => exact .inl (List.cons_eq_cons.mp h).1.symm
  | cons x l ih =>
      obtain ⟨piece, pieces, hsplit⟩ := List.exists_cons_of_ne_nil (List.splitOn_ne_nil a l)
      rw [List.splitOn_cons_eq_if_modifyHead, hsplit] at h
      split at h
      next heq =>
        obtain ⟨rfl, -⟩ := List.cons_eq_cons.mp h
        obtain rfl := beq_iff_eq.mp heq
        exact .inr ⟨l, rfl⟩
      next =>
        obtain ⟨rfl, -⟩ := List.cons_eq_cons.mp h
        rcases ih hsplit with rfl | hprefix
        · exact .inl rfl
        · exact .inr (List.cons_prefix_cons.mpr ⟨rfl, hprefix⟩)

/-- A piece is the end of the list, or the separator follows it. -/
theorem mem_splitOn_cases [DecidableEq α] {piece : List α} (h : piece ∈ l.splitOn a) :
    piece <:+ l ∨ piece ++ [a] <:+: l := by
  induction l with
  | nil =>
      rw [List.splitOn_nil] at h
      exact .inl (List.mem_singleton.mp h ▸ List.suffix_rfl)
  | cons x l ih =>
      have hlater : piece ∈ l.splitOn a → piece <:+ x :: l ∨ piece ++ [a] <:+: x :: l :=
        fun hmem => (ih hmem).imp (fun hsuffix => List.suffix_cons_iff.mpr (.inr hsuffix))
          fun hinfix => List.infix_cons_iff.mpr (.inr hinfix)
      obtain ⟨first, rest, hsplit⟩ := List.exists_cons_of_ne_nil (List.splitOn_ne_nil a (x :: l))
      rw [hsplit] at h
      rcases List.mem_cons.mp h with rfl | hmem
      · rcases first_splitOn_cases hsplit with rfl | hprefix
        · exact .inl List.suffix_rfl
        · exact .inr hprefix.isInfix
      · -- A later piece is a piece of the rest as well.
        refine hlater ?_
        obtain ⟨head, tail, htail⟩ := List.exists_cons_of_ne_nil (List.splitOn_ne_nil a l)
        rw [List.splitOn_cons_eq_if_modifyHead, htail] at hsplit
        split at hsplit
        next =>
          obtain ⟨-, rfl⟩ := List.cons_eq_cons.mp hsplit
          exact htail ▸ hmem
        next =>
          obtain ⟨-, rfl⟩ := List.cons_eq_cons.mp hsplit
          exact htail ▸ List.mem_cons_of_mem head hmem

/-- The end of a list is the end of a piece if it has no separator. -/
theorem exists_suffix_splitOn [DecidableEq α] {ending : List α} (h : a ∉ ending)
    (front : List α) : ∃ piece ∈ (front ++ ending).splitOn a, ending <:+ piece := by
  induction front with
  | nil =>
      rw [List.nil_append, List.splitOn_eq_singleton h]
      exact ⟨ending, List.mem_singleton_self _, List.suffix_rfl⟩
  | cons x front ih =>
      obtain ⟨piece, hmem, hsuffix⟩ := ih
      obtain ⟨first, rest, hsplit⟩ :=
        List.exists_cons_of_ne_nil (List.splitOn_ne_nil a (front ++ ending))
      rw [List.cons_append, List.splitOn_cons_eq_if_modifyHead]
      split
      next => exact ⟨piece, List.mem_cons_of_mem _ hmem, hsuffix⟩
      next =>
        rw [hsplit] at hmem ⊢
        rcases List.mem_cons.mp hmem with rfl | hmem
        · exact ⟨x :: piece, List.mem_cons_self, List.suffix_cons_iff.mpr (.inr hsuffix)⟩
        · exact ⟨piece, List.mem_cons_of_mem _ hmem, hsuffix⟩

section

variable [DecidableEq α] (h : [] ∉ l.splitOn a)

/-! Pieces that are not empty. -/

include h

theorem not_prefix_of_splitOn : ¬[a] <+: l := by
  rintro ⟨back, rfl⟩
  rw [← List.nil_append ([a] ++ back), List.singleton_append, List.splitOn_append_cons_self] at h
  exact h (List.mem_append_left _ (List.mem_singleton_self _))

theorem not_suffix_of_splitOn : ¬[a] <:+ l := by
  rintro ⟨front, rfl⟩
  rw [List.splitOn_append_cons_self] at h
  exact h (List.mem_append_right _ (List.mem_singleton_self _))

theorem not_infix_of_splitOn : ¬[a, a] <:+: l := fun hinfix =>
  h (List.mem_of_mem_dropLast (mem_dropLast_splitOn hinfix))

end

end Search
