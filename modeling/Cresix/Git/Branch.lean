import Cresix.Rust.Text

/-!
# Branch names

The errors of the Git store, the check a branch name passes before it is handed
to Git, and the form of the object identifiers that Git prints.
-/

namespace Cresix.Git

inductive GitError where
  | invalidSlug (value : String)
  | invalidRef (value : String)
  | invalidPath (value : String)
  | invalidMetadata (value : String)
  | alreadyExists (value : String)
  | notFound (value : String)
  | revisionNotFound (value : String)
  | limitExceeded (value : String)
  | concurrentUpdate
  | gitUnavailable
  | commandFailed (value : String)
  | invalidOutput (value : String)
  | io (value : String)
deriving DecidableEq, Repr

/-- The text of an error. -/
def GitError.message : GitError → String
  | invalidSlug value => s!"invalid repository slug: {value}"
  | invalidRef value => s!"invalid branch or revision: {value}"
  | invalidPath value => s!"invalid repository path: {value}"
  | invalidMetadata value => s!"invalid commit metadata: {value}"
  | alreadyExists value => s!"repository already exists: {value}"
  | notFound value => s!"repository not found: {value}"
  | revisionNotFound value => s!"revision not found: {value}"
  | limitExceeded value => s!"operation exceeds configured limit: {value}"
  | concurrentUpdate => "repository changed concurrently"
  | gitUnavailable => "git executable was not found"
  | commandFailed value => s!"git command failed: {value}"
  | invalidOutput value => s!"unexpected git output: {value}"
  | io value => value

/-- `validate_branch`. -/
def validateBranch (branch : String) : Except GitError Unit :=
  if branch.isEmpty || 255 < Rust.len branch || Rust.startsWith branch "-"
      || Rust.startsWith branch "/" || Rust.endsWith branch "/" || Rust.endsWith branch "."
      || Rust.contains branch ".." || Rust.contains branch "@\x7b" || Rust.contains branch "//"
      || Rust.endsWith branch ".lock"
      || (Rust.split '/' branch.toList).any (fun component => component.head? = some '.')
      || (Rust.bytes branch).any (fun byte => byte < 0x20 || byte == 0x7f)
      || branch.toList.any [' ', '~', '^', ':', '?', '*', '[', '\\'].contains then
    .error (.invalidRef branch)
  else .ok ()

/-- `is_oid`. -/
def isOid (value : String) : Bool :=
  (Rust.len value == 40 || Rust.len value == 64) && (Rust.bytes value).all Rust.isAsciiHexdigit

/-- An object identifier has digits and letters from `A` to `f`. -/
theorem visible_of_isOid {oid : String} (h : isOid oid = true) :
    ∀ c ∈ oid.toList, 48 ≤ c.toNat ∧ c.toNat ≤ 102 := by
  obtain ⟨-, hhex⟩ := (Bool.and_eq_true _ _).mp h
  have hbyte : ∀ b ∈ Rust.bytes oid, 48 ≤ b.toNat ∧ b.toNat ≤ 102 := by
    intro b hmem
    have hb := List.all_eq_true.mp hhex b hmem
    simp only [Rust.isAsciiHexdigit, Rust.isAsciiDigit, Bool.or_eq_true, Bool.and_eq_true,
      decide_eq_true_eq, UInt8.le_iff_toNat_le, UInt8.reduceToNat] at hb
    omega
  have hascii : ∀ b ∈ Rust.bytes oid, b ≤ 0x7f := by
    intro b hmem
    exact UInt8.le_iff_toNat_le.mpr (le_trans (hbyte b hmem).2 (by decide))
  intro c hmem
  rw [Rust.toList_of_ascii hascii] at hmem
  obtain ⟨b, hb, rfl⟩ := List.mem_map.mp hmem
  have htoNat : (Char.ofUInt8 b).toNat = b.toNat := UInt8.toNat_toUInt32 b
  exact htoNat ▸ hbyte b hb

end Cresix.Git
