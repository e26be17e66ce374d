import Cresix.Git.Branch
import Cresix.Library.Search

/-!
# The names Git accepts

`RefFormat` is what `git check-ref-format` asks of the name of a reference.
`validate_branch` asks the same of a branch, with one exception: Git refuses
`.lock` at the end of every component of the name, `validate_branch` at the end
of the last one only (`refFormat_iff`).
-/

namespace Cresix.Git

/-- A character that Git allows in the name of a reference. -/
def isRefChar (c : Char) : Bool :=
  !(c.val < 0x20 || c.val == 0x7f || [' ', '~', '^', ':', '?', '*', '[', '\\'].contains c)

/-- The rules of `git check-ref-format`. -/
structure RefFormat (name : List Char) : Prop where
  dots : ∀ component ∈ name.splitOn '/', ¬".".toList <+: component
  locks : ∀ component ∈ name.splitOn '/', ¬".lock".toList <:+ component
  levels : '/' ∈ name
  ranges : ¬"..".toList <:+: name
  characters : ∀ c ∈ name, isRefChar c = true
  first : ¬"/".toList <+: name
  last : ¬"/".toList <:+ name
  slashes : ¬"//".toList <:+: name
  ending : ¬".".toList <:+ name
  reflogs : ¬"@\x7b".toList <:+: name
  /-- The name is not a lone `@`. -/
  head : name ≠ "@".toList

/-- The reference of a branch. -/
def branchRef (branch : String) : List Char := ("refs/heads/" ++ branch).toList

section

variable {branch : String}

/-! ## What the check leaves out -/

theorem toList_branchRef (branch : String) :
    branchRef branch = "refs".toList ++ '/' :: ("heads".toList ++ '/' :: branch.toList) := by
  have hfront : "refs/heads/".toList = "refs".toList ++ '/' :: ("heads".toList ++ ['/']) := by
    decide
  rw [branchRef, String.toList_append, hfront]
  simp only [List.append_assoc, List.cons_append, List.nil_append]

theorem splitOn_branchRef (branch : String) :
    (branchRef branch).splitOn '/' =
      "refs".toList :: "heads".toList :: branch.toList.splitOn '/' := by
  rw [toList_branchRef, List.splitOn_append_cons_self_of_not_mem (by decide),
    List.splitOn_append_cons_self_of_not_mem (by decide)]

/-- A pattern that does not begin with a character of `refs/heads/` occurs in
the reference only if it occurs in the branch. -/
theorem infix_branchRef_iff {c : Char} {pat : List Char} (h : c ∉ "refs/heads/".toList) :
    c :: pat <:+: branchRef branch ↔ c :: pat <:+: branch.toList := by
  rw [branchRef, String.toList_append, Search.infix_append_iff_of_not_mem h]

/-- The end of the reference is the end of the branch. -/
theorem suffix_branchRef {pat : List Char} (hne : branch ≠ "") (hpat : pat.length = 1)
    (h : pat <:+ branchRef branch) : pat <:+ branch.toList := by
  have hpos : 1 ≤ branch.toList.length := List.length_pos_iff.mpr (by simpa using hne)
  rw [branchRef, String.toList_append] at h
  exact List.suffix_of_suffix_length_le h (List.suffix_append _ _) (hpat ▸ hpos)

/-- What the check makes sure of. -/
structure BranchFormat (branch : String) : Prop where
  nonempty : branch ≠ ""
  first : ¬"/".toList <+: branch.toList
  last : ¬"/".toList <:+ branch.toList
  ending : ¬".".toList <:+ branch.toList
  ranges : ¬"..".toList <:+: branch.toList
  reflogs : ¬"@\x7b".toList <:+: branch.toList
  slashes : ¬"//".toList <:+: branch.toList
  lock : ¬".lock".toList <:+ branch.toList
  dots : ∀ component ∈ branch.toList.splitOn '/', ¬".".toList <+: component
  characters : ∀ c ∈ branch.toList, isRefChar c = true

theorem branchFormat_of_validateBranch (h : validateBranch branch = .ok ()) :
    BranchFormat branch := by
  rw [validateBranch] at h
  split at h
  next => cases h
  next hc =>
    simp only [Bool.or_eq_true, not_or] at hc
    obtain ⟨⟨⟨⟨⟨⟨⟨⟨⟨⟨⟨⟨hempty, -⟩, -⟩, hfirst⟩, hlast⟩, hending⟩, hranges⟩, hreflogs⟩, hslashes⟩,
      hlock⟩, hdots⟩, hcontrol⟩, hspecial⟩ := hc
    refine ⟨fun heq => hempty (String.isEmpty_iff.mpr heq),
      fun h => hfirst (List.isPrefixOf_iff_prefix.mpr (Rust.bytes_prefix h)),
      fun h => hlast (List.isSuffixOf_iff_suffix.mpr (Rust.bytes_suffix h)),
      fun h => hending (List.isSuffixOf_iff_suffix.mpr (Rust.bytes_suffix h)),
      fun h => hranges (decide_eq_true (Rust.bytes_infix h)),
      fun h => hreflogs (decide_eq_true (Rust.bytes_infix h)),
      fun h => hslashes (decide_eq_true (Rust.bytes_infix h)),
      fun h => hlock (List.isSuffixOf_iff_suffix.mpr (Rust.bytes_suffix h)), ?_, ?_⟩
    · intro component hmem hprefix
      obtain ⟨rest, rfl⟩ := hprefix
      have hhead : (".".toList ++ rest).head? = some '.' := by
        rw [show ".".toList = ['.'] by decide]
        rfl
      refine hdots (List.any_eq_true.mpr ⟨_, ?_, decide_eq_true hhead⟩)
      exact Rust.split_eq_splitOn '/' branch.toList ▸ hmem
    · intro c hmem
      rw [isRefChar, Bool.not_eq_true']
      by_contra hbad
      rw [Bool.not_eq_false, Bool.or_eq_true, Bool.or_eq_true, decide_eq_true_eq,
        beq_iff_eq] at hbad
      rcases hbad with hlow | hc
      · -- A control character is one byte, which is refused.
        have hascii : c.val ≤ 0x7f := by
          rcases hlow with hlow | hdel
          · exact UInt32.le_trans (UInt32.le_of_lt hlow) (by decide)
          · exact hdel ▸ UInt32.le_refl _
        refine hcontrol (List.any_eq_true.mpr ⟨_, Rust.mem_bytes_of_mem hmem hascii, ?_⟩)
        rw [Bool.or_eq_true, decide_eq_true_eq, beq_iff_eq]
        rcases hlow with hlow | hdel
        · left
          have hnat : c.val.toNat < 32 := hlow
          rw [UInt8.lt_iff_toNat_lt, UInt32.toNat_toUInt8]
          exact lt_of_le_of_lt (Nat.mod_le _ _) hnat
        · right
          rw [hdel]
          rfl
      · exact hspecial (List.any_eq_true.mpr ⟨c, hmem, hc⟩)

/-- Of a branch that passes only the end of an inner component is not known. -/
theorem refFormat_of_branchFormat (h : BranchFormat branch)
    (hlocks : ¬".lock/".toList <:+: branch.toList) : RefFormat (branchRef branch) where
  dots := by
    intro component hmem
    rw [splitOn_branchRef, List.mem_cons, List.mem_cons] at hmem
    rcases hmem with rfl | rfl | hmem
    · decide
    · decide
    · exact h.dots component hmem
  locks := by
    intro component hmem hlock
    rw [splitOn_branchRef, List.mem_cons, List.mem_cons] at hmem
    rcases hmem with rfl | rfl | hmem
    · exact absurd hlock (by decide)
    · exact absurd hlock (by decide)
    · rcases Search.mem_splitOn_cases hmem with hsuffix | hinfix
      · exact h.lock (hlock.trans hsuffix)
      · obtain ⟨front, rfl⟩ := hlock
        refine hlocks (List.IsInfix.trans ⟨front, [], ?_⟩ hinfix)
        rw [List.append_nil, List.append_assoc]
        rfl
  levels := by
    rw [toList_branchRef]
    exact List.mem_append_right _ List.mem_cons_self
  ranges := fun hinfix => h.ranges ((infix_branchRef_iff (by decide)).mp hinfix)
  characters := by
    intro c hmem
    rw [branchRef, String.toList_append] at hmem
    have hfront : "refs/heads/".toList.all isRefChar = true := by decide
    exact (List.mem_append.mp hmem).elim (List.all_eq_true.mp hfront c) (h.characters c)
  first := by
    rw [branchRef, String.toList_append]
    intro hprefix
    exact absurd (List.cons_prefix_cons.mp hprefix).1 (by decide)
  last := fun hsuffix => h.last (suffix_branchRef h.nonempty rfl hsuffix)
  slashes := by
    rw [toList_branchRef]
    rw [show "//".toList = '/' :: ['/'] by decide]
    intro hinfix
    -- The slashes of the prefix have letters behind them.
    have hheads := (Search.infix_append_iff_of_not_mem (by decide)).mp hinfix
    rcases List.infix_cons_iff.mp hheads with hprefix | hheads
    · exact absurd (List.cons_prefix_cons.mp (List.cons_prefix_cons.mp hprefix).2).1 (by decide)
    · have hbranch := (Search.infix_append_iff_of_not_mem (by decide)).mp hheads
      rcases List.infix_cons_iff.mp hbranch with hprefix | hbranch
      · exact h.first (List.cons_prefix_cons.mp hprefix).2
      · exact h.slashes hbranch
  ending := fun hsuffix => h.ending (suffix_branchRef h.nonempty rfl hsuffix)
  reflogs := fun hinfix => h.reflogs ((infix_branchRef_iff (by decide)).mp hinfix)
  head := by
    rw [toList_branchRef]
    intro heq
    exact absurd (List.cons_eq_cons.mp heq).1 (by decide)

/-- A branch that passes is a name Git accepts if `.lock` stands before no slash in it. -/
theorem refFormat_iff (h : validateBranch branch = .ok ()) :
    RefFormat (branchRef branch) ↔ ¬".lock/".toList <:+: branch.toList := by
  constructor
  · rintro hformat ⟨front, back, heq⟩
    have hname : branch.toList = (front ++ ".lock".toList) ++ '/' :: back := by
      rw [← heq, show ".lock/".toList = ".lock".toList ++ ['/'] by decide]
      simp only [List.append_assoc, List.cons_append, List.nil_append]
    have hslash : '/' ∉ ".lock".toList := by decide
    obtain ⟨component, hmem, hlock⟩ := Search.exists_suffix_splitOn hslash front
    refine hformat.locks component ?_ hlock
    rw [splitOn_branchRef, hname, List.splitOn_append_cons_self]
    exact List.mem_cons_of_mem _ (List.mem_cons_of_mem _ (List.mem_append_left _ hmem))
  · exact refFormat_of_branchFormat (branchFormat_of_validateBranch h)

end

theorem refFormat_iff_main :
    RefFormat (branchRef "main") ↔ ¬".lock/".toList <:+: "main".toList :=
  refFormat_iff (by decide +kernel)

/-- A branch that passes and is no name for Git. -/
theorem inner_lock_accepted :
    validateBranch "a.lock/b" = .ok () ∧ ¬RefFormat (branchRef "a.lock/b") := by
  refine ⟨by decide +kernel, fun hformat => hformat.locks "a.lock".toList ?_ ?_⟩
  · decide +kernel
  · decide +kernel

end Cresix.Git
