import Cresix.CloudCore.Catalog
import Cresix.Server.Projects

/-!
# The catalog of a workspace

The connector lists the projects of the local server, keeps those of the bound
workspace and checks them against the rules of the cloud.  The rules of the
server are written separately.  They agree on the lengths of the name and of
the branch and on the ends of the slug, and they differ on repeated hyphens, on
control characters and on the length of the description (`Portable`).  One
project that differs makes the whole catalog fail.
-/

namespace Cresix.Connector

open CloudCore
open Rust (Uuid)

/-- `c6_core::CliProjectSummary`, as far as the connector reads it. -/
structure CliProjectSummary where
  id : Uuid
  workspaceId : Uuid
  slug : String
  name : String
  description : String
  defaultBranch : String
  headSha : String
  updatedAt : Int
deriving DecidableEq, Repr

/-- What the connector is bound to. -/
structure ConnectorConfig where
  bindingId : Uuid
  localWorkspaceId : Uuid
deriving DecidableEq, Repr

inductive CatalogError where
  | localAuthenticationRejected
  | cloudAuthenticationRejected
  | invalidLocalCatalog
  | protocol
  | transport
  | rejected
deriving DecidableEq, Repr

/-- A check whose error becomes `InvalidLocalCatalog`. -/
def orInvalid {ε α : Type} (result : Except ε α) : Except CatalogError α :=
  result.mapError fun _ => .invalidLocalCatalog

/-- `project_input`. -/
def projectInput (project : CliProjectSummary) : Except CatalogError CatalogProjectInput := do
  let slug ← orInvalid (ProjectSlug.new project.slug)
  let input : CatalogProjectInput :=
    { localProjectId := project.id
      slug
      name := project.name
      description := project.description
      defaultBranch := project.defaultBranch
      headSha := project.headSha
      updatedAt := project.updatedAt }
  orInvalid input.validate
  return input

/-- The projects of the bound workspace. -/
def bound (config : ConnectorConfig) (projects : List CliProjectSummary) :
    List CliProjectSummary :=
  projects.filter (·.workspaceId = config.localWorkspaceId)

/-- `snapshot_request`, with the revision it draws. -/
def snapshotRequest (config : ConnectorConfig) (revision : Nat)
    (projects : List CliProjectSummary) : Except CatalogError PutCatalogRequest := do
  let projects ← (bound config projects).mapM projectInput
  let request : PutCatalogRequest := ⟨config.bindingId, revision, projects⟩
  orInvalid request.validate
  return request

/-- The summary lists the row. -/
structure CliProjectSummary.Lists (project : CliProjectSummary) (row : Server.ProjectRow) :
    Prop where
  id : Rust.hyphenated project.id = row.id
  workspaceId : Rust.hyphenated project.workspaceId = row.workspaceId
  slug : project.slug = row.slug
  name : project.name = row.name
  description : project.description = row.description
  defaultBranch : project.defaultBranch = row.defaultBranch
  headSha : project.headSha = row.headSha
  updatedAt : project.updatedAt = row.updatedAt

/-- The catalog has the project as it is. -/
structure Publishes (project : CliProjectSummary) (input : CatalogProjectInput) : Prop where
  id : input.localProjectId = project.id
  slug : input.slug.value = project.slug
  name : input.name = project.name
  description : input.description = project.description
  defaultBranch : input.defaultBranch = project.defaultBranch
  headSha : input.headSha = project.headSha
  updatedAt : input.updatedAt = project.updatedAt

/-- No character is a control character. -/
def Printable (value : String) : Prop := ∀ c ∈ value.toList, Rust.isControl c = false

instance (value : String) : Decidable (Printable value) := List.decidableBAll _ value.toList

/-- The project meets the rules of the cloud that the server does not have. -/
structure Portable (project : CliProjectSummary) : Prop where
  slug : Rust.contains project.slug "--" = false
  name : Printable project.name
  description : Printable project.description
  descriptionLen : Rust.len project.description ≤ maxProjectDescriptionLen
  defaultBranch : Printable project.defaultBranch

/-! ## One project -/

section

variable {project : CliProjectSummary} {input : CatalogProjectInput}

theorem orInvalid_eq_ok {ε α : Type} {result : Except ε α} {value : α} :
    orInvalid result = .ok value ↔ result = .ok value :=
  Checks.mapError_eq_ok

/-- What `project_input` accepts, and what it makes of it. -/
theorem projectInput_eq_ok :
    projectInput project = .ok input ↔ Publishes project input ∧
      BoundedText project.name 1 maxProjectNameLen ∧
      BoundedText project.description 0 maxProjectDescriptionLen ∧
      BoundedText project.defaultBranch 1 maxBranchLen ∧
      BoundedText project.headSha 1 maxHeadShaLen := by
  unfold projectInput
  rw [Checks.bind_eq_ok]
  constructor
  · rintro ⟨slug, hslug, h⟩
    obtain ⟨hvalid, h⟩ := Checks.check_bind_eq_ok.mp h
    cases h
    have hvalue := ProjectSlug.new_eq_ok.mp (orInvalid_eq_ok.mp hslug)
    have hchecks := CatalogProjectInput.validate_eq_ok.mp (orInvalid_eq_ok.mp hvalid)
    exact ⟨⟨rfl, hvalue, rfl, rfl, rfl, rfl, rfl⟩, hchecks⟩
  · rintro ⟨⟨hid, hslug, hname, hdescription, hbranch, hsha, hupdated⟩, hchecks⟩
    refine ⟨input.slug, orInvalid_eq_ok.mpr (ProjectSlug.new_eq_ok.mpr hslug), ?_⟩
    refine Checks.check_bind_eq_ok.mpr ⟨orInvalid_eq_ok.mpr ?_, ?_⟩
    · exact CatalogProjectInput.validate_eq_ok.mpr hchecks
    · obtain ⟨id, slug, name, description, branch, sha, updated⟩ := input
      cases hid
      cases hname
      cases hdescription
      cases hbranch
      cases hsha
      cases hupdated
      rfl

/-- The projects that `project_input` accepts. -/
theorem exists_projectInput_iff :
    (∃ input, projectInput project = .ok input) ↔
      ProjectSlug.validate project.slug = .ok () ∧
      BoundedText project.name 1 maxProjectNameLen ∧
      BoundedText project.description 0 maxProjectDescriptionLen ∧
      BoundedText project.defaultBranch 1 maxBranchLen ∧
      BoundedText project.headSha 1 maxHeadShaLen := by
  constructor
  · rintro ⟨input, h⟩
    obtain ⟨hpublishes, hchecks⟩ := projectInput_eq_ok.mp h
    have hvalid := input.slug.valid
    rw [hpublishes.slug] at hvalid
    exact ⟨hvalid, hchecks⟩
  · rintro ⟨hslug, hchecks⟩
    let input : CatalogProjectInput :=
      ⟨project.id, ⟨project.slug, hslug⟩, project.name, project.description,
        project.defaultBranch, project.headSha, project.updatedAt⟩
    exact ⟨input, projectInput_eq_ok.mpr ⟨⟨rfl, rfl, rfl, rfl, rfl, rfl, rfl⟩, hchecks⟩⟩

end

/-! ## The rules of the server -/

/-- A byte the server allows in a slug, other than the hyphen. -/
theorem isAlnum_of_ne_hyphen {byte : UInt8}
    (h : (Rust.isAsciiLowercase byte || Rust.isAsciiDigit byte || byte == 0x2d) = true)
    (hne : byte ≠ 0x2d) : isAlnum byte = true := by
  unfold isAlnum
  rw [Bool.or_eq_true] at h
  rcases h with halnum | hhyphen
  · exact halnum
  · exact absurd (beq_iff_eq.mp hhyphen) hne

/-- A slug of the server is one of the cloud unless two hyphens stand together. -/
theorem validate_slug_iff {slug : String} (h : Server.validateSlug slug = .ok ()) :
    ProjectSlug.validate slug = .ok () ↔ Rust.contains slug "--" = false := by
  have hrules := Server.require_eq_ok.mp h
  simp only [Bool.and_eq_true, decide_eq_true_eq, Bool.not_eq_true', List.all_eq_true] at hrules
  obtain ⟨⟨⟨⟨hmin, hmax⟩, hall⟩, hstart⟩, hend⟩ := hrules
  have hlength : 2 ≤ (Rust.bytes slug).length := (Rust.length_bytes slug).symm ▸ hmin
  have hhead : (Rust.bytes slug).head?.any isAlnum = true := by
    cases hbytes : Rust.bytes slug with
    | nil => simp [hbytes] at hlength
    | cons byte rest =>
        refine isAlnum_of_ne_hyphen (hall byte (hbytes ▸ List.mem_cons_self)) ?_
        rintro rfl
        unfold Rust.startsWith at hstart
        rw [hbytes] at hstart
        cases hstart
  have hlast : (Rust.bytes slug).getLast?.any isAlnum = true := by
    rcases List.eq_nil_or_concat (Rust.bytes slug) with hnil | ⟨front, byte, hbytes⟩
    · simp [hnil] at hlength
    · rw [List.concat_eq_append] at hbytes
      rw [hbytes, List.getLast?_concat]
      refine isAlnum_of_ne_hyphen (hall byte (hbytes ▸ by simp)) ?_
      rintro rfl
      have hsuffix : (Rust.bytes "-").isSuffixOf (Rust.bytes slug) = true := by
        rw [List.isSuffixOf_iff_suffix, hbytes]
        exact ⟨front, rfl⟩
      cases hend.symm.trans hsuffix
  have hbytes : ((Rust.bytes slug).any fun byte => !isAlnum byte && byte != 0x2d) = false := by
    rw [List.any_eq_false]
    intro byte hmem hbad
    rw [Bool.and_eq_true, Bool.not_eq_true', bne_iff_ne] at hbad
    cases hbad.1.symm.trans (isAlnum_of_ne_hyphen (hall byte hmem) hbad.2)
  have hrange : ¬(Rust.len slug < 1 ∨ 100 < Rust.len slug) := by omega
  unfold ProjectSlug.validate validateSlug
  simp only [hrange, hhead, hlast, hbytes, if_false, Bool.not_true, Bool.or_self,
    Bool.false_or, List.contains_nil]
  cases hcontains : Rust.contains slug "--" with
  | true => exact iff_of_false nofun nofun
  | false => exact iff_of_true rfl rfl

theorem boundedText_iff_printable {value : String} {min max : Nat} (hmin : min ≤ Rust.len value)
    (hmax : Rust.len value ≤ max) : BoundedText value min max ↔ Printable value := by
  constructor
  · intro h
    exact h.2.2
  · intro h
    exact ⟨hmin, hmax, h⟩

theorem len_pos {value : String} (h : value ≠ "") : 1 ≤ Rust.len value := by
  by_contra hzero
  exact h (String.utf8ByteSize_eq_zero_iff.mp (by unfold Rust.len at hzero; omega))

theorem name_iff_printable {field name : String}
    (h : Server.nonempty field name maxProjectNameLen = .ok ()) :
    BoundedText name 1 maxProjectNameLen ↔ Printable name := by
  have hrules := Server.require_eq_ok.mp h
  rw [Bool.not_eq_true', Bool.or_eq_false_iff, decide_eq_false_iff_not] at hrules
  refine boundedText_iff_printable (len_pos ?_) (by omega)
  rintro rfl
  cases hrules.1

theorem branch_iff_printable {branch : String}
    (h : Server.orGit (Git.validateBranch branch) = .ok ()) :
    BoundedText branch 1 maxBranchLen ↔ Printable branch := by
  have hrules : ¬branch.isEmpty = true ∧ ¬255 < Rust.len branch := by
    unfold Git.validateBranch at h
    split at h
    next => cases h
    next hno =>
      simp only [Bool.or_eq_true, decide_eq_true_eq, not_or] at hno
      exact ⟨hno.1.1.1.1.1.1.1.1.1.1.1.1, hno.1.1.1.1.1.1.1.1.1.1.1.2⟩
  refine boundedText_iff_printable (len_pos ?_) (by unfold maxBranchLen; omega)
  rintro rfl
  exact hrules.1 rfl

set_option maxRecDepth 2000 in
theorem hexdigit_printable {byte : UInt8} (h : Rust.isAsciiHexdigit byte = true) :
    byte ≤ 0x7f ∧ Rust.isControl (Char.ofUInt8 byte) = false := by
  have hall : ∀ n : Fin 256, Rust.isAsciiHexdigit (UInt8.ofNat n) = true →
      UInt8.ofNat n ≤ 0x7f ∧ Rust.isControl (Char.ofUInt8 (UInt8.ofNat n)) = false := by decide
  have hbyte := hall ⟨byte.toNat, byte.toNat_lt⟩
  rw [UInt8.ofNat_toNat] at hbyte
  exact hbyte h

/-- An object identifier is a head the cloud accepts. -/
theorem boundedText_of_isOid {sha : String} (h : Git.isOid sha = true) :
    BoundedText sha 1 maxHeadShaLen := by
  unfold Git.isOid at h
  simp only [Bool.and_eq_true, Bool.or_eq_true, beq_iff_eq] at h
  obtain ⟨hlen, hhex⟩ := h
  have hprintable := fun byte hmem => hexdigit_printable (List.all_eq_true.mp hhex byte hmem)
  have hrange : 1 ≤ Rust.len sha ∧ Rust.len sha ≤ maxHeadShaLen := by
    unfold maxHeadShaLen
    omega
  refine ⟨hrange.1, hrange.2, ?_⟩
  intro c hc
  rw [Rust.toList_of_ascii fun byte hmem => (hprintable byte hmem).1] at hc
  obtain ⟨byte, hmem, rfl⟩ := List.mem_map.mp hc
  exact (hprintable byte hmem).2

/-- A project of the server is accepted by `project_input` when it is portable. -/
theorem exists_projectInput_iff_portable {project : CliProjectSummary} {row : Server.ProjectRow}
    (hlists : project.Lists row) (hvalid : Server.validateProject row.request = .ok ())
    (hsha : Git.isOid project.headSha = true) :
    (∃ input, projectInput project = .ok input) ↔ Portable project := by
  obtain ⟨hslug, hvalid⟩ := Checks.check_bind_eq_ok.mp hvalid
  obtain ⟨hname, hvalid⟩ := Checks.check_bind_eq_ok.mp hvalid
  obtain ⟨-, hbranch⟩ := Checks.check_bind_eq_ok.mp hvalid
  replace hslug : Server.validateSlug project.slug = .ok () := hlists.slug ▸ hslug
  replace hname : Server.nonempty "name" project.name maxProjectNameLen = .ok () :=
    hlists.name ▸ hname
  replace hbranch : Server.orGit (Git.validateBranch project.defaultBranch) = .ok () :=
    hlists.defaultBranch ▸ hbranch
  rw [exists_projectInput_iff, validate_slug_iff hslug, name_iff_printable hname,
    branch_iff_printable hbranch]
  constructor
  · rintro ⟨hhyphens, hname, hdescription, hbranch, -⟩
    exact ⟨hhyphens, hname, hdescription.2.2, hdescription.2.1, hbranch⟩
  · intro h
    exact ⟨h.slug, h.name, ⟨Nat.zero_le _, h.descriptionLen, h.description⟩, h.defaultBranch,
      boundedText_of_isOid hsha⟩

/-! ## The catalog -/

section

variable {config : ConnectorConfig} {revision : Nat} {projects : List CliProjectSummary}
  {request : PutCatalogRequest}

theorem snapshotRequest_eq_ok :
    snapshotRequest config revision projects = .ok request ↔
      request.bindingId = config.bindingId ∧ request.revision = revision ∧
      (bound config projects).mapM projectInput = .ok request.projects ∧
      request.validate = .ok () := by
  unfold snapshotRequest
  rw [Checks.bind_eq_ok]
  constructor
  · rintro ⟨inputs, hinputs, h⟩
    obtain ⟨hvalid, h⟩ := Checks.check_bind_eq_ok.mp h
    cases h
    exact ⟨rfl, rfl, hinputs, orInvalid_eq_ok.mp hvalid⟩
  · obtain ⟨bindingId, revision', inputs⟩ := request
    rintro ⟨rfl, rfl, hinputs, hvalid⟩
    exact ⟨inputs, hinputs, Checks.check_bind_eq_ok.mpr ⟨orInvalid_eq_ok.mpr hvalid, rfl⟩⟩

/-- Projects that `project_input` accepts pass the check of the request. -/
theorem validate_of_mapM {inputs : List CatalogProjectInput}
    (h : (bound config projects).mapM projectInput = .ok inputs) (hrevision : 0 < revision)
    (hcount : (bound config projects).length ≤ maxCatalogProjects) :
    (⟨config.bindingId, revision, inputs⟩ : PutCatalogRequest).validate = .ok () := by
  have hall := Checks.mapM_eq_ok.mp h
  rw [PutCatalogRequest.validate_eq_ok]
  refine ⟨hrevision.ne', ?_, ?_⟩
  · rw [← hall.length_eq]
    exact hcount
  · intro input hinput
    obtain ⟨project, -, hproject⟩ := Checks.exists_of_mapM h input hinput
    obtain ⟨hpublishes, hchecks⟩ := projectInput_eq_ok.mp hproject
    rw [CatalogProjectInput.validate_eq_ok, hpublishes.name, hpublishes.description,
      hpublishes.defaultBranch, hpublishes.headSha]
    exact hchecks

/-- The catalog of a workspace of a reachable server is complete when every project of the
workspace is portable, and otherwise it fails. -/
theorem snapshotRequest_complete_iff {serverConfig : Server.Config} {server : Server.Process}
    (hserver : (Server.system serverConfig).Reachable server)
    (hlisted : ∀ project ∈ bound config projects, ∃ row ∈ server.db.projects, project.Lists row)
    (hgit : ∀ project ∈ bound config projects, Git.isOid project.headSha = true)
    (hcount : (bound config projects).length ≤ maxCatalogProjects) (hrevision : 0 < revision) :
    (∃ request, snapshotRequest config revision projects = .ok request ∧
      request.bindingId = config.bindingId ∧ request.revision = revision ∧
      List.Forall₂ Publishes (bound config projects) request.projects) ↔
      ∀ project ∈ bound config projects, Portable project := by
  have hone : ∀ project ∈ bound config projects,
      ((∃ input, projectInput project = .ok input) ↔ Portable project) := by
    intro project hmem
    obtain ⟨row, hrow, hlists⟩ := hlisted project hmem
    exact exists_projectInput_iff_portable hlists
      (Server.projectsValid_of_reachable hserver row hrow) (hgit project hmem)
  constructor
  · rintro ⟨request, hrequest, -⟩ project hmem
    obtain ⟨-, -, hinputs, -⟩ := snapshotRequest_eq_ok.mp hrequest
    exact (hone project hmem).mp (Checks.exists_mapM_iff.mp ⟨_, hinputs⟩ project hmem)
  · intro hportable
    obtain ⟨inputs, hinputs⟩ := Checks.exists_mapM_iff.mpr fun project hmem =>
      (hone project hmem).mpr (hportable project hmem)
    refine ⟨⟨config.bindingId, revision, inputs⟩, ?_, rfl, rfl, ?_⟩
    · exact snapshotRequest_eq_ok.mpr
        ⟨rfl, rfl, hinputs, validate_of_mapM hinputs hrevision hcount⟩
    · exact (Checks.mapM_eq_ok.mp hinputs).imp fun _ _ h => (projectInput_eq_ok.mp h).1

end

/-! ## One project of a workspace -/

/-- The identifier `n`, as the server stores it. -/
def sampleId (n : Uuid) : String := Rust.hyphenated n

def sampleSha : String := "ce013625030ba8dba906f756967f9e9ca394464a"

/-- A server with workspace `3`, where project `4` is created. -/
def createSteps (slug : String) : List Server.Action :=
  Server.sampleClaim ++
    [.request ⟨Server.sampleHeaders, .createWorkspace ⟨"paper-street", "Paper Street"⟩⟩,
      .serve 1 (Server.sampleInput []), .serve 1 (Server.sampleInput []),
      .serve 1 (Server.sampleInput [sampleId 3]),
      .request ⟨Server.sampleHeaders,
        .createProject ⟨sampleId 3, slug, "Weeknote", "Tiny team notes", "main"⟩⟩,
      .serve 2 (Server.sampleInput []), .serve 2 (Server.sampleInput []),
      .serve 2 (Server.sampleInput []),
      .serve 2 { Server.sampleInput [sampleId 4] with commitChanges := .ok sampleSha },
      .serve 2 (Server.sampleInput [])]

/-- The row of the project. -/
def sampleRow (slug : String) : Server.ProjectRow :=
  ⟨sampleId 4, sampleId 3, slug, "Weeknote", "Tiny team notes", "main", sampleSha, none, 0, 0⟩

/-- The project as it is listed. -/
def sampleSummary (slug : String) : CliProjectSummary :=
  ⟨4, 3, slug, "Weeknote", "Tiny team notes", "main", sampleSha, 0⟩

theorem sampleSummary_lists (slug : String) : (sampleSummary slug).Lists (sampleRow slug) :=
  ⟨rfl, rfl, rfl, rfl, rfl, rfl, rfl, rfl⟩

/-- A server that has created the project. -/
theorem exists_server {slug : String}
    (h : (Server.stateAfter Server.sampleConfig (createSteps slug)).map (·.db.projects) =
      some [sampleRow slug]) :
    ∃ server, (Server.system Server.sampleConfig).Reachable server ∧
      ∀ project ∈ bound ⟨2, 3⟩ [sampleSummary slug], ∃ row ∈ server.db.projects,
        project.Lists row := by
  obtain ⟨server, hserver, hprojects⟩ := Option.map_eq_some_iff.mp h
  refine ⟨server, Server.reachable_of_stateAfter hserver, ?_⟩
  intro project hmem
  rw [List.mem_singleton.mp (List.mem_filter.mp hmem).1, hprojects]
  exact ⟨sampleRow slug, List.mem_singleton_self _, sampleSummary_lists slug⟩

theorem isOid_bound (slug : String) :
    ∀ project ∈ bound ⟨2, 3⟩ [sampleSummary slug], Git.isOid project.headSha = true := by
  intro project hmem
  rw [List.mem_singleton.mp (List.mem_filter.mp hmem).1]
  show Git.isOid sampleSha = true
  decide

/-- A workspace with one project is published. -/
theorem snapshotRequest_complete_weeknote :
    ∃ request, snapshotRequest ⟨2, 3⟩ 1 [sampleSummary "weeknote"] = .ok request ∧
      request.bindingId = 2 ∧ request.revision = 1 ∧
      List.Forall₂ Publishes (bound ⟨2, 3⟩ [sampleSummary "weeknote"]) request.projects := by
  have hcreated : (Server.stateAfter Server.sampleConfig (createSteps "weeknote")).map
      (·.db.projects) = some [sampleRow "weeknote"] := by decide
  obtain ⟨server, hserver, hlisted⟩ := exists_server hcreated
  refine (snapshotRequest_complete_iff hserver hlisted (isOid_bound _) (by decide)
    (by decide)).mpr ?_
  intro project hmem
  rw [List.mem_singleton.mp (List.mem_filter.mp hmem).1]
  exact ⟨by decide, by decide, by decide, by decide, by decide⟩

/-- The server accepts a slug with two hyphens together, and the catalog fails. -/
theorem snapshotRequest_fails :
    ¬∀ (serverConfig : Server.Config) (server : Server.Process) (config : ConnectorConfig)
      (revision : Nat) (projects : List CliProjectSummary),
      (Server.system serverConfig).Reachable server →
      (∀ project ∈ bound config projects, ∃ row ∈ server.db.projects, project.Lists row) →
      (∀ project ∈ bound config projects, Git.isOid project.headSha = true) →
      (bound config projects).length ≤ maxCatalogProjects → 0 < revision →
      ∃ request, snapshotRequest config revision projects = .ok request ∧
        request.bindingId = config.bindingId ∧ request.revision = revision ∧
        List.Forall₂ Publishes (bound config projects) request.projects := by
  intro hall
  have hcreated : (Server.stateAfter Server.sampleConfig (createSteps "week--note")).map
      (·.db.projects) = some [sampleRow "week--note"] := by decide
  obtain ⟨server, hserver, hlisted⟩ := exists_server hcreated
  obtain ⟨request, hrequest, -⟩ := hall Server.sampleConfig server ⟨2, 3⟩ 1
    [sampleSummary "week--note"] hserver hlisted (isOid_bound _) (by decide) (by decide)
  have hfails : snapshotRequest ⟨2, 3⟩ 1 [sampleSummary "week--note"] =
      .error .invalidLocalCatalog := by decide
  cases hfails.symm.trans hrequest

end Cresix.Connector
