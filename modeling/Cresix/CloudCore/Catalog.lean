import Cresix.Library.Checks
import Cresix.Rust.Text

/-!
# Catalogs

A catalog is what a connector publishes of a local workspace: a revision and
the projects.  The checks of `c6-cloud-core` run on both sides, in the
connector before it sends and in the cloud before it stores.  A slug that fails
its check cannot be built.
-/

namespace Cresix.CloudCore

open Rust (Uuid)

/-! ## Slugs -/

/-- Why an identifier is refused. -/
inductive IdentifierError where
  | length (kind : String) (min max : Nat)
  | boundary (kind : String)
  | characters (kind : String)
  | reserved (kind : String)
deriving DecidableEq, Repr

/-- The text of the error. -/
def IdentifierError.message : IdentifierError → String
  | .length kind min max => s!"{kind} must be between {min} and {max} characters"
  | .boundary kind => s!"{kind} must start and end with a lowercase ASCII letter or digit"
  | .characters kind =>
      s!"{kind} may contain only lowercase ASCII letters, digits, and single hyphens"
  | .reserved kind => s!"{kind} is reserved"

/-- A byte of a slug other than the hyphen. -/
def isAlnum (byte : UInt8) : Bool := Rust.isAsciiLowercase byte || Rust.isAsciiDigit byte

/-- `validate_slug`. -/
def validateSlug (value kind : String) (min max : Nat) (reserved : List String) :
    Except IdentifierError Unit :=
  let bytes := Rust.bytes value
  if Rust.len value < min ∨ max < Rust.len value then .error (.length kind min max)
  else if !bytes.head?.any isAlnum || !bytes.getLast?.any isAlnum then .error (.boundary kind)
  else if (bytes.any fun byte => !isAlnum byte && byte != 0x2d) || Rust.contains value "--" then
    .error (.characters kind)
  else if reserved.contains value then .error (.reserved kind)
  else .ok ()

/-- `ProjectSlug::new` accepts the value. -/
def ProjectSlug.validate (value : String) : Except IdentifierError Unit :=
  validateSlug value "project slug" 1 100 []

structure ProjectSlug where
  value : String
  valid : ProjectSlug.validate value = .ok ()
deriving DecidableEq

/-- `ProjectSlug::new`. -/
def ProjectSlug.new (value : String) : Except IdentifierError ProjectSlug :=
  match h : ProjectSlug.validate value with
  | .ok () => .ok ⟨value, h⟩
  | .error error => .error error

theorem ProjectSlug.new_eq_ok {value : String} {slug : ProjectSlug} :
    ProjectSlug.new value = .ok slug ↔ slug.value = value := by
  constructor
  · intro h
    unfold new at h
    split at h
    next => cases h; rfl
    next => cases h
  · rintro rfl
    unfold new
    split
    next => rfl
    next error h => cases slug.valid.symm.trans h

/-- What stands in a slug. -/
theorem ProjectSlug.isAlnum_or_hyphen (slug : ProjectSlug) :
    ∀ byte ∈ Rust.bytes slug.value, isAlnum byte = true ∨ byte = 0x2d := by
  have hvalid := slug.valid
  unfold validate validateSlug at hvalid
  dsimp only at hvalid
  split_ifs at hvalid with hlen hends hcharacters
  rw [Bool.or_eq_true, not_or] at hcharacters
  intro byte hmem
  by_contra hother
  rw [not_or, Bool.not_eq_true] at hother
  refine hcharacters.1 (List.any_eq_true.mpr ⟨byte, hmem, ?_⟩)
  rw [Bool.and_eq_true, Bool.not_eq_true', bne_iff_ne]
  exact hother

/-- Lowercase letters and digits are a slug. -/
theorem ProjectSlug.validate_of_alnum {value : String} (hmin : 1 ≤ Rust.len value)
    (hmax : Rust.len value ≤ 100) (hall : ∀ byte ∈ Rust.bytes value, isAlnum byte = true) :
    validate value = .ok () := by
  have hlen : ¬(Rust.len value < 1 ∨ 100 < Rust.len value) := by omega
  have hne : Rust.bytes value ≠ [] := by
    intro hnil
    rw [← Rust.length_bytes, hnil] at hmin
    exact absurd hmin (by decide)
  have hhead : (Rust.bytes value).head?.any isAlnum = true := by
    rw [List.head?_eq_some_head hne]
    exact hall _ (List.head_mem hne)
  have hlast : (Rust.bytes value).getLast?.any isAlnum = true := by
    rw [List.getLast?_eq_some_getLast hne]
    exact hall _ (List.getLast_mem hne)
  have hcharacters : ((Rust.bytes value).any fun byte => !isAlnum byte && byte != 0x2d) = false := by
    rw [List.any_eq_false]
    intro byte hmem
    rw [hall byte hmem, Bool.not_true, Bool.false_and]
    exact Bool.false_ne_true
  have hhyphens : Rust.contains value "--" = false := by
    rw [Rust.contains, decide_eq_false_iff_not]
    intro hpair
    have hhyphen := hall 0x2d (hpair.subset (by decide))
    revert hhyphen
    decide
  unfold validate validateSlug
  simp only [hlen, hhead, hlast, hcharacters, hhyphens, if_false, Bool.not_true, Bool.or_self,
    List.contains_nil, Bool.false_eq_true]

/-! ## Contracts -/

def maxProjectNameLen : Nat := 120

def maxProjectDescriptionLen : Nat := 2000

def maxBranchLen : Nat := 255

def maxHeadShaLen : Nat := 128

def maxCatalogProjects : Nat := 1000

/-- Why a catalog is refused. -/
inductive ContractValidationError where
  | length (field : String) (min max : Nat)
  | controlCharacters (field : String)
  | catalogTooLarge
  | zeroCatalogRevision
deriving DecidableEq, Repr

/-- The text of the error. -/
def ContractValidationError.message : ContractValidationError → String
  | .length field min max => s!"{field} must be between {min} and {max} bytes"
  | .controlCharacters field => s!"{field} must not contain control characters"
  | .catalogTooLarge => "catalog contains too many projects"
  | .zeroCatalogRevision => "catalog revision must be non-zero"

/-- `bounded_text`. -/
def boundedText (value field : String) (min max : Nat) : Except ContractValidationError Unit :=
  if Rust.len value < min ∨ max < Rust.len value then .error (.length field min max)
  else if value.toList.any Rust.isControl then .error (.controlCharacters field)
  else .ok ()

/-- The text has the length and no control characters. -/
def BoundedText (value : String) (min max : Nat) : Prop :=
  min ≤ Rust.len value ∧ Rust.len value ≤ max ∧ ∀ c ∈ value.toList, Rust.isControl c = false

theorem boundedText_eq_ok {value field : String} {min max : Nat} :
    boundedText value field min max = .ok () ↔ BoundedText value min max := by
  unfold boundedText BoundedText
  split
  next h => exact iff_of_false nofun fun ⟨hmin, hmax, _⟩ => by omega
  next h =>
    split
    next hcontrol =>
      refine iff_of_false nofun fun ⟨_, _, hnone⟩ => ?_
      obtain ⟨c, hc, htrue⟩ := List.any_eq_true.mp hcontrol
      exact absurd (htrue.symm.trans (hnone c hc)) nofun
    next hcontrol =>
      refine iff_of_true rfl ⟨by omega, by omega, fun c hc => ?_⟩
      cases hc' : Rust.isControl c with
      | false => rfl
      | true => exact absurd (List.any_eq_true.mpr ⟨c, hc, hc'⟩) hcontrol

/-- A project of a catalog. -/
structure CatalogProjectInput where
  localProjectId : Uuid
  slug : ProjectSlug
  name : String
  description : String
  defaultBranch : String
  headSha : String
  updatedAt : Int
deriving DecidableEq

/-- `CatalogProjectInput::validate`. -/
def CatalogProjectInput.validate (project : CatalogProjectInput) :
    Except ContractValidationError Unit := do
  boundedText project.name "projects[].name" 1 maxProjectNameLen
  boundedText project.description "projects[].description" 0 maxProjectDescriptionLen
  boundedText project.defaultBranch "projects[].defaultBranch" 1 maxBranchLen
  boundedText project.headSha "projects[].headSha" 1 maxHeadShaLen

/-- A catalog as it is published. -/
structure PutCatalogRequest where
  bindingId : Uuid
  revision : Nat
  projects : List CatalogProjectInput
deriving DecidableEq

/-- `PutCatalogRequest::validate`. -/
def PutCatalogRequest.validate (request : PutCatalogRequest) :
    Except ContractValidationError Unit :=
  if request.revision = 0 then .error .zeroCatalogRevision
  else if maxCatalogProjects < request.projects.length then .error .catalogTooLarge
  else request.projects.forM CatalogProjectInput.validate

/-! ## What the checks accept -/

theorem CatalogProjectInput.validate_eq_ok {project : CatalogProjectInput} :
    project.validate = .ok () ↔
      BoundedText project.name 1 maxProjectNameLen ∧
      BoundedText project.description 0 maxProjectDescriptionLen ∧
      BoundedText project.defaultBranch 1 maxBranchLen ∧
      BoundedText project.headSha 1 maxHeadShaLen := by
  unfold validate
  simp only [Checks.check_bind_eq_ok, boundedText_eq_ok]

theorem PutCatalogRequest.validate_eq_ok {request : PutCatalogRequest} :
    request.validate = .ok () ↔
      request.revision ≠ 0 ∧ request.projects.length ≤ maxCatalogProjects ∧
      ∀ project ∈ request.projects, project.validate = .ok () := by
  unfold validate
  split
  next h => exact iff_of_false nofun fun hall => hall.1 h
  next hzero =>
    split
    next h => exact iff_of_false nofun fun hall => by omega
    next h =>
      rw [Checks.forM_eq_ok]
      exact ⟨fun hall => ⟨hzero, by omega, hall⟩, fun hall => hall.2.2⟩

/-! ## The revision zero -/

theorem boundedText_ne_zeroCatalogRevision {value field : String} {min max : Nat} :
    boundedText value field min max ≠ .error .zeroCatalogRevision := by
  intro h
  unfold boundedText at h
  split at h
  next => cases h
  next =>
    split at h
    next => cases h
    next => cases h

theorem CatalogProjectInput.validate_ne_zeroCatalogRevision (project : CatalogProjectInput) :
    project.validate ≠ .error .zeroCatalogRevision := by
  unfold validate
  refine Checks.check_bind_ne_error boundedText_ne_zeroCatalogRevision ?_
  refine Checks.check_bind_ne_error boundedText_ne_zeroCatalogRevision ?_
  refine Checks.check_bind_ne_error boundedText_ne_zeroCatalogRevision ?_
  exact boundedText_ne_zeroCatalogRevision

/-- Only the revision zero is refused as zero. -/
theorem PutCatalogRequest.validate_eq_zeroCatalogRevision {request : PutCatalogRequest} :
    request.validate = .error .zeroCatalogRevision ↔ request.revision = 0 := by
  unfold validate
  split
  next h => exact iff_of_true rfl h
  next hzero =>
    refine iff_of_false ?_ hzero
    split
    next => exact nofun
    next => exact Checks.forM_ne_error CatalogProjectInput.validate_ne_zeroCatalogRevision

end Cresix.CloudCore
