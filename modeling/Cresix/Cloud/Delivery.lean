import Mathlib.Algebra.Order.BigOperators.Group.List
import Cresix.Cloud.Publication
import Cresix.Connector.Catalog
import Cresix.Relay.ControlJson

/-!
# The delivery of a catalog

The connector sends a catalog in the body of one request.  The cloud reads at
most a mebibyte of it, and `put_catalog` runs the checks of the connector once
more, looks for a slug that comes twice and replaces the catalog.

The checks bound the number of projects and the bytes of each text.  Together
they allow more than a mebibyte, and the escapes of JSON add to it.
`catalogSize` counts the bytes of the body from the fields, and
`catalog_delivered_iff` says that nothing else stands between a catalog of the
connector and the cloud.  How times are written and how a body is read are
parameters.
-/

namespace Cresix.Cloud

open CloudCore
open Connector (snapshotRequest)
open Relay (textSize)
open Rust (Uuid)
open Transition (forall_mem_snoc)

/-! ## The request -/

/-- A project as `serde` writes it. -/
def projectJson (toRfc3339 : Int → String) (project : CatalogProjectInput) : Json.Value :=
  .obj [("localProjectId", .str (Rust.hyphenated project.localProjectId)),
    ("slug", .str project.slug.value),
    ("name", .str project.name),
    ("description", .str project.description),
    ("defaultBranch", .str project.defaultBranch),
    ("headSha", .str project.headSha),
    ("updatedAt", .str (toRfc3339 project.updatedAt))]

/-- A catalog as `serde` writes it. -/
def catalogJson (toRfc3339 : Int → String) (request : PutCatalogRequest) : Json.Value :=
  .obj [("bindingId", .str (Rust.hyphenated request.bindingId)),
    ("revision", .num request.revision),
    ("projects", .arr (request.projects.map (projectJson toRfc3339)))]

/-- The body that `publish_snapshot` sends. -/
def catalogBody (toRfc3339 : Int → String) (request : PutCatalogRequest) : List UInt8 :=
  Rust.toVec (catalogJson toRfc3339 request)

/-- `MAX_BODY`. -/
def maxBody : Nat := 1024 * 1024

/-- Why a request is refused: by `DefaultBodyLimit`, by `Json` or by the handler. -/
inductive PutRejection where
  | payloadTooLarge
  | malformed
  | handler (error : ApiError)
deriving DecidableEq, Repr

/-- `put_catalog` from the body on, with the accounts under its first lock and the database under
its second one.  No statement fails. -/
def putCatalog (hash : List UInt8 → String) (fromSlice : List UInt8 → Option PutCatalogRequest)
    (accounts : Database) (db : CatalogDatabase) (id : String) (authorization : Option String)
    (body : List UInt8) : Except PutRejection (CatalogAccepted × CatalogDatabase) :=
  if maxBody < body.length then .error .payloadTooLarge
  else
    match fromSlice body with
    | none => .error .malformed
    | some input => Except.mapError .handler do
        let installationId ← authorizeCatalog hash accounts id authorization input
        let db ← putCatalogTx (fun _ => false) installationId input db
        return (⟨input.bindingId, input.revision, input.projects.length⟩, db)

/-- What a catalog needs besides the checks of the connector: distinct projects, a revision for
SQLite, a reader that reads it back, and an active binding of the caller with an older revision. -/
structure Deliverable (hash : List UInt8 → String) (toRfc3339 : Int → String)
    (fromSlice : List UInt8 → Option PutCatalogRequest) (accounts : Database)
    (db : CatalogDatabase) (id : String) (authorization : Option String)
    (request : PutCatalogRequest) : Prop where
  slugs : (request.projects.map (·.slug.value)).Nodup
  ids : (request.projects.map (·.localProjectId)).Nodup
  revision : request.revision < 2 ^ 63
  read : fromSlice (catalogBody toRfc3339 request) = some request
  binding : ∃ installationId current,
    (authorization.bind (Rust.stripPrefix · "Bearer ")).bind (accounts.connector hash) =
      some installationId ∧
    Rust.hyphenated installationId = id ∧
    db.activeRevision request.bindingId installationId = some current ∧
    current < request.revision

/-! ## How long the body is -/

/-- The bytes of the texts of a project, and 139 around them. -/
def projectSize (toRfc3339 : Int → String) (project : CatalogProjectInput) : Nat :=
  139 + Rust.len project.slug.value + textSize project.name + textSize project.description +
    textSize project.defaultBranch + textSize project.headSha +
    Json.stringSize (toRfc3339 project.updatedAt)

/-- The bytes of the revision, of the projects and of the commas between them, and 78 around
them. -/
def catalogSize (toRfc3339 : Int → String) (request : PutCatalogRequest) : Nat :=
  78 + Rust.len request.revision.repr + (request.projects.map (projectSize toRfc3339)).sum +
    (request.projects.length - 1)

section

variable {toRfc3339 : Int → String}

/-- A text without control characters. -/
theorem stringSize_of_bounded {value : String} {min max : Nat} (h : BoundedText value min max) :
    Json.stringSize value = textSize value + 2 := by
  refine Relay.stringSize_eq_textSize ?_
  intro c hc hlow
  have hcontrol : Rust.isControl c = true := by
    have hle : c.val ≤ 0x1f := UInt32.le_iff_toNat_le.mpr (Nat.le_of_lt_succ hlow)
    simp [Rust.isControl, hle]
  cases hcontrol.symm.trans (h.2.2 c hc)

/-- A slug is written as it is. -/
theorem stringSize_slug (slug : ProjectSlug) :
    Json.stringSize slug.value = Rust.len slug.value + 2 := by
  have hhyphen : Relay.isHeaderNameByte 0x2d = true := by decide
  refine Relay.stringSize_name (List.all_eq_true.mpr ?_)
  intro byte hmem
  rcases slug.isAlnum_or_hyphen byte hmem with halnum | rfl
  · unfold isAlnum at halnum
    rw [Relay.isHeaderNameByte, halnum, Bool.true_or]
  · exact hhyphen

/-- The bytes of the names JSON writes for the fields of a catalog. -/
theorem stringSize_catalogNames :
    Json.stringSize "localProjectId" = 16 ∧ Json.stringSize "slug" = 6 ∧
    Json.stringSize "name" = 6 ∧ Json.stringSize "description" = 13 ∧
    Json.stringSize "defaultBranch" = 15 ∧ Json.stringSize "headSha" = 9 ∧
    Json.stringSize "updatedAt" = 11 ∧ Json.stringSize "bindingId" = 11 ∧
    Json.stringSize "revision" = 10 ∧ Json.stringSize "projects" = 10 := by
  decide

theorem size_projectJson {project : CatalogProjectInput} (h : project.validate = .ok ()) :
    (projectJson toRfc3339 project).size = projectSize toRfc3339 project := by
  obtain ⟨hname, hdescription, hbranch, hsha⟩ := CatalogProjectInput.validate_eq_ok.mp h
  simp only [projectJson, Json.Value.size, Json.fieldsSize, stringSize_catalogNames,
    Rust.stringSize_hyphenated, stringSize_slug, stringSize_of_bounded hname,
    stringSize_of_bounded hdescription, stringSize_of_bounded hbranch, stringSize_of_bounded hsha,
    projectSize]
  omega

/-- The body of a checked catalog has the bytes that are counted. -/
theorem length_catalogBody {request : PutCatalogRequest} (h : request.validate = .ok ()) :
    (catalogBody toRfc3339 request).length = catalogSize toRfc3339 request := by
  obtain ⟨-, -, hprojects⟩ := PutCatalogRequest.validate_eq_ok.mp h
  have hsizes : (request.projects.map (projectJson toRfc3339)).map Json.Value.size =
      request.projects.map (projectSize toRfc3339) := by
    rw [List.map_map]
    exact List.map_congr_left fun project hmem => size_projectJson (hprojects project hmem)
  have hdigits : request.revision.repr.utf8ByteSize = Rust.len request.revision.repr := rfl
  rw [catalogBody, Rust.length_toVec]
  simp only [catalogJson, Json.Value.size, Json.fieldsSize, stringSize_catalogNames,
    Rust.stringSize_hyphenated, Json.itemsSize_eq, hsizes, List.length_map, hdigits, catalogSize]
  omega

end

/-! ## What the cloud accepts -/

theorem checkSlugs_of_nodup {seen : List String} {projects : List CatalogProjectInput}
    (hnodup : (projects.map (·.slug.value)).Nodup)
    (hseen : ∀ project ∈ projects, project.slug.value ∉ seen) :
    checkSlugs seen projects = .ok () := by
  induction projects generalizing seen with
  | nil => rfl
  | cons project projects ih =>
      obtain ⟨hfirst, hseen⟩ := List.forall_mem_cons.mp hseen
      rw [List.map_cons, List.nodup_cons] at hnodup
      rw [checkSlugs, if_neg hfirst]
      refine ih hnodup.2 ?_
      intro other hmem hagain
      rcases List.mem_cons.mp hagain with hsame | hold
      · exact hnodup.1 (hsame ▸ List.mem_map_of_mem hmem)
      · exact hseen other hmem hold

/-- Distinct projects are inserted next to those of other bindings. -/
theorem insertProjects_of_nodup {bindingId : Uuid} {revision index : Nat}
    {projects : List CatalogProjectInput} {table : List CatalogProject}
    (hslugs : (projects.map (·.slug.value)).Nodup) (hids : (projects.map (·.localProjectId)).Nodup)
    (htable : ∀ project ∈ projects, ∀ row ∈ table,
      CatalogProject.clash (.ofInput bindingId revision project) row = false) :
    ∃ table', insertProjects (fun _ => false) bindingId revision index projects table =
      .ok table' := by
  induction projects generalizing index table with
  | nil => exact ⟨table, rfl⟩
  | cons project projects ih =>
      obtain ⟨hfirst, htable⟩ := List.forall_mem_cons.mp htable
      rw [List.map_cons, List.nodup_cons] at hslugs hids
      have hrest : ∀ other ∈ projects,
          ∀ row ∈ table ++ [CatalogProject.ofInput bindingId revision project],
            CatalogProject.clash (.ofInput bindingId revision other) row = false := by
        intro other hmem
        refine forall_mem_snoc (htable other hmem) ?_
        have hslug : other.slug.value ≠ project.slug.value := by
          intro hsame
          exact hslugs.1 (hsame ▸ List.mem_map_of_mem hmem)
        have hid : other.localProjectId ≠ project.localProjectId := by
          intro hsame
          exact hids.1 (hsame ▸ List.mem_map_of_mem hmem)
        simp [CatalogProject.clash, CatalogProject.ofInput, hslug, hid]
      obtain ⟨table', htable'⟩ := @ih (index + 1) _ hslugs.2 hids.2 hrest
      refine ⟨table', Checks.check_bind_eq_ok.mpr ⟨rfl, ?_⟩⟩
      rw [Table.insert?_of_no_clash hfirst]
      exact htable'

section

variable {hash : List UInt8 → String} {toRfc3339 : Int → String}
  {fromSlice : List UInt8 → Option PutCatalogRequest} {accounts : Database} {db : CatalogDatabase}
  {id : String} {authorization : Option String} {request : PutCatalogRequest}

theorem putCatalogTx_of_nodup {installationId : Uuid} {current : Nat}
    (hslugs : (request.projects.map (·.slug.value)).Nodup)
    (hids : (request.projects.map (·.localProjectId)).Nodup) (hrevision : request.revision < 2 ^ 63)
    (hactive : db.activeRevision request.bindingId installationId = some current)
    (hnewer : current < request.revision) :
    ∃ db', putCatalogTx (fun _ => false) installationId request db = .ok db' := by
  have hothers : ∀ project ∈ request.projects,
      ∀ row ∈ db.catalogProjects.filter (·.bindingId ≠ request.bindingId),
        CatalogProject.clash (.ofInput request.bindingId request.revision project) row = false := by
    intro project _ row hrow
    have hne : row.bindingId ≠ request.bindingId := of_decide_eq_true (List.mem_filter.mp hrow).2
    simp [CatalogProject.clash, CatalogProject.ofInput, hne.symm]
  obtain ⟨rows, hrows⟩ : ∃ rows, insertProjects (fun _ => false) request.bindingId
      request.revision 0 request.projects
      (db.catalogProjects.filter (·.bindingId ≠ request.bindingId)) = .ok rows :=
    insertProjects_of_nodup hslugs hids hothers
  refine Checks.exists_check_bind_eq_ok.mpr ⟨rfl, ?_⟩
  refine Checks.exists_bind_eq_ok.mpr ⟨current, okOr_eq_ok.mpr hactive, ?_⟩
  refine Checks.exists_check_bind_eq_ok.mpr ⟨require_eq_ok.mpr (decide_eq_true hrevision), ?_⟩
  refine Checks.exists_check_bind_eq_ok.mpr ⟨require_eq_ok.mpr (decide_eq_true hnewer), ?_⟩
  refine Checks.exists_check_bind_eq_ok.mpr ⟨rfl, ?_⟩
  refine Checks.exists_bind_eq_ok.mpr ⟨rows, hrows, ?_⟩
  exact Checks.exists_check_bind_eq_ok.mpr ⟨rfl, _, rfl⟩

theorem authorizeCatalog_of_nodup {installationId : Uuid}
    (hcaller : (authorization.bind (Rust.stripPrefix · "Bearer ")).bind (accounts.connector hash) =
      some installationId)
    (hid : Rust.hyphenated installationId = id) (hvalid : request.validate = .ok ())
    (hslugs : (request.projects.map (·.slug.value)).Nodup) :
    authorizeCatalog hash accounts id authorization request = .ok installationId := by
  refine Checks.bind_eq_ok.mpr ⟨installationId, okOr_eq_ok.mpr hcaller, ?_⟩
  refine Checks.check_bind_eq_ok.mpr ⟨require_eq_ok.mpr (decide_eq_true hid), ?_⟩
  refine Checks.check_bind_eq_ok.mpr ⟨Checks.mapError_eq_ok.mpr hvalid, ?_⟩
  exact Checks.check_bind_eq_ok.mpr ⟨checkSlugs_of_nodup hslugs nofun, rfl⟩

/-- A body that is too long is refused whatever it is. -/
theorem putCatalog_large {body : List UInt8} (h : maxBody < body.length) :
    putCatalog hash fromSlice accounts db id authorization body = .error .payloadTooLarge := by
  unfold putCatalog
  rw [if_pos h]

/-- A body within the limit is accepted. -/
theorem putCatalog_of_deliverable (hvalid : request.validate = .ok ())
    (h : Deliverable hash toRfc3339 fromSlice accounts db id authorization request)
    (hsize : (catalogBody toRfc3339 request).length ≤ maxBody) :
    ∃ db', putCatalog hash fromSlice accounts db id authorization (catalogBody toRfc3339 request) =
      .ok (⟨request.bindingId, request.revision, request.projects.length⟩, db') := by
  obtain ⟨installationId, current, hcaller, hid, hactive, hnewer⟩ := h.binding
  obtain ⟨db', hdb'⟩ := putCatalogTx_of_nodup h.slugs h.ids h.revision hactive hnewer
  refine ⟨db', ?_⟩
  unfold putCatalog
  rw [if_neg (Nat.not_lt.mpr hsize), h.read]
  refine Checks.mapError_eq_ok.mpr (Checks.bind_eq_ok.mpr ⟨installationId, ?_, ?_⟩)
  · exact authorizeCatalog_of_nodup hcaller hid hvalid h.slugs
  · exact Checks.bind_eq_ok.mpr ⟨db', hdb', rfl⟩

/-- A catalog that the connector builds reaches the cloud if and only if it fits. -/
theorem catalog_delivered_iff {config : Connector.ConnectorConfig} {revision : Nat}
    {projects : List Connector.CliProjectSummary}
    (hsnapshot : snapshotRequest config revision projects = .ok request)
    (h : Deliverable hash toRfc3339 fromSlice accounts db id authorization request) :
    (catalogBody toRfc3339 request).length ≤ maxBody ∧
      (∃ db', putCatalog hash fromSlice accounts db id authorization
        (catalogBody toRfc3339 request) =
          .ok (⟨request.bindingId, request.revision, request.projects.length⟩, db')) ↔
      catalogSize toRfc3339 request ≤ maxBody := by
  obtain ⟨-, -, -, hvalid⟩ := Connector.snapshotRequest_eq_ok.mp hsnapshot
  have hlength : (catalogBody toRfc3339 request).length = catalogSize toRfc3339 request :=
    length_catalogBody hvalid
  rw [← hlength]
  constructor
  · intro haccepted
    exact haccepted.1
  · intro hsize
    exact ⟨hsize, putCatalog_of_deliverable hvalid h hsize⟩

end

/-! ## A small catalog and a large one -/

/-- The time `0` as `chrono` writes it. -/
def epochRfc3339 (_ : Int) : String := "1970-01-01T00:00:00Z"

/-- Reads the body of one catalog. -/
def readBody (request : PutCatalogRequest) (body : List UInt8) : Option PutCatalogRequest :=
  if body = catalogBody epochRfc3339 request then some request else none

/-- The credential of installation `1`. -/
def boundAuthorization : Option String :=
  some "Bearer c6x_v1_AAAAAAAAAAAAAAAA_BBBBBBBBBBBBBBBBBBBBBBBBBBBBBBBB"

/-- A first catalog for the binding of `boundCatalogs`. -/
theorem deliverable_bound {request : PutCatalogRequest}
    (hslugs : (request.projects.map (·.slug.value)).Nodup)
    (hids : (request.projects.map (·.localProjectId)).Nodup) (hbinding : request.bindingId = 2)
    (hrevision : request.revision = 1) :
    Deliverable (fun _ => "hash") epochRfc3339 (readBody request) boundCatalogs.db.accounts
      boundCatalogs.db "00000000-0000-0000-0000-000000000001" boundAuthorization request where
  slugs := hslugs
  ids := hids
  revision := by rw [hrevision]; decide
  read := if_pos rfl
  binding := by
    rw [hbinding, hrevision]
    exact ⟨1, 0, by decide, by decide, by decide, by decide⟩

/-- A project without a description reaches the cloud. -/
theorem catalog_delivered_weeknote :
    (catalogBody epochRfc3339 (weeknoteCatalog 1 false)).length ≤ maxBody ∧
      ∃ db', putCatalog (fun _ => "hash") (readBody (weeknoteCatalog 1 false))
        boundCatalogs.db.accounts boundCatalogs.db "00000000-0000-0000-0000-000000000001"
        boundAuthorization (catalogBody epochRfc3339 (weeknoteCatalog 1 false)) =
          .ok (⟨2, 1, 1⟩, db') := by
  have hsnapshot : snapshotRequest ⟨2, 3⟩ 1
      [⟨4, 3, "weeknote", "Weeknote", "", "main", "abc123", 0⟩] =
        .ok (weeknoteCatalog 1 false) := by decide
  exact (catalog_delivered_iff hsnapshot
    (deliverable_bound (by decide) (by decide) rfl rfl)).mpr (by decide)

/-- Project `n` with a description of 2000 letters. -/
def describedProject (n : Nat) : Connector.CliProjectSummary where
  id := BitVec.ofNat 128 n
  workspaceId := 3
  slug := String.ofList (Rust.hexDigits 3 n)
  name := "Weeknote"
  description := Relay.letters 2000
  defaultBranch := "main"
  headSha := "abc123"
  updatedAt := 0

/-- Half of the projects that the checks allow. -/
def describedProjects : List Connector.CliProjectSummary := (List.range 500).map describedProject

theorem bytes_describedSlug (n : Nat) : Rust.bytes (describedProject n).slug =
    (Rust.hexDigits 3 n).map fun c => c.val.toUInt8 := by
  have hascii : ∀ d < 16, (Nat.digitChar d).val ≤ 0x7f := by decide
  refine Rust.bytes_ofList_of_ascii ?_
  intro c hc
  obtain ⟨d, hd, rfl⟩ := Rust.mem_hexDigits hc
  exact hascii d hd

theorem len_describedSlug (n : Nat) : Rust.len (describedProject n).slug = 3 := by
  rw [← Rust.length_bytes, bytes_describedSlug, List.length_map, Rust.length_hexDigits]

theorem validate_describedSlug (n : Nat) :
    ProjectSlug.validate (describedProject n).slug = .ok () := by
  have halnum : ∀ d < 16, isAlnum (Nat.digitChar d).val.toUInt8 = true := by decide
  have hlen := len_describedSlug n
  refine ProjectSlug.validate_of_alnum (by omega) (by omega) ?_
  rw [bytes_describedSlug]
  intro byte hmem
  obtain ⟨c, hc, rfl⟩ := List.mem_map.mp hmem
  obtain ⟨d, hd, rfl⟩ := Rust.mem_hexDigits hc
  exact halnum d hd

/-- The other texts of the project are short. -/
theorem boundedText_described : BoundedText "Weeknote" 1 maxProjectNameLen ∧
    BoundedText "main" 1 maxBranchLen ∧ BoundedText "abc123" 1 maxHeadShaLen := by
  have hname : boundedText "Weeknote" "name" 1 maxProjectNameLen = .ok () := by decide
  have hbranch : boundedText "main" "defaultBranch" 1 maxBranchLen = .ok () := by decide
  have hsha : boundedText "abc123" "headSha" 1 maxHeadShaLen = .ok () := by decide
  exact ⟨boundedText_eq_ok.mp hname, boundedText_eq_ok.mp hbranch, boundedText_eq_ok.mp hsha⟩

theorem boundedText_letters {n max : Nat} (h : n ≤ max) : BoundedText (Relay.letters n) 0 max := by
  refine ⟨Nat.zero_le _, ?_, ?_⟩
  · rwa [Relay.len_letters]
  · intro c hc
    rw [Relay.letters, String.toList_ofList] at hc
    rw [List.eq_of_mem_replicate hc]
    decide

theorem bound_describedProjects : Connector.bound ⟨2, 3⟩ describedProjects = describedProjects := by
  refine List.filter_eq_self.mpr ?_
  intro project hmem
  obtain ⟨n, -, rfl⟩ := List.mem_map.mp hmem
  exact decide_eq_true rfl

/-- The connector accepts the described projects. -/
theorem exists_describedCatalog : ∃ request,
    snapshotRequest ⟨2, 3⟩ 1 describedProjects = .ok request ∧ request.bindingId = 2 ∧
      request.revision = 1 ∧
      List.Forall₂ Connector.Publishes describedProjects request.projects := by
  have hall : ∀ project ∈ describedProjects,
      ∃ input, Connector.projectInput project = .ok input := by
    intro project hmem
    obtain ⟨n, -, rfl⟩ := List.mem_map.mp hmem
    obtain ⟨hname, hbranch, hsha⟩ := boundedText_described
    exact Connector.exists_projectInput_iff.mpr ⟨validate_describedSlug n, hname,
      boundedText_letters (Nat.le_refl _), hbranch, hsha⟩
  rw [← bound_describedProjects] at hall
  obtain ⟨inputs, hinputs⟩ := Checks.exists_mapM_iff.mpr hall
  have hcount : (Connector.bound ⟨2, 3⟩ describedProjects).length ≤ maxCatalogProjects := by
    rw [bound_describedProjects, describedProjects, List.length_map, List.length_range]
    decide
  refine ⟨⟨2, 1, inputs⟩, ?_, rfl, rfl, ?_⟩
  · exact Connector.snapshotRequest_eq_ok.mpr ⟨rfl, rfl, hinputs,
      Connector.validate_of_mapM hinputs (by decide) hcount⟩
  · rw [bound_describedProjects] at hinputs
    exact (Checks.mapM_eq_ok.mp hinputs).imp fun _ _ h => (Connector.projectInput_eq_ok.mp h).1

/-- The texts and the identifiers of a catalog are those of its projects. -/
theorem map_eq_of_publishes {projects : List Connector.CliProjectSummary}
    {inputs : List CatalogProjectInput} (h : List.Forall₂ Connector.Publishes projects inputs) :
    inputs.map (·.slug.value) = projects.map (·.slug) ∧
      inputs.map (·.localProjectId) = projects.map (·.id) ∧
      inputs.map (·.description) = projects.map (·.description) := by
  induction h with
  | nil => exact ⟨rfl, rfl, rfl⟩
  | cons hfirst _ ih =>
      obtain ⟨hslugs, hids, hdescriptions⟩ := ih
      simp only [List.map_cons, hfirst.slug, hfirst.id, hfirst.description, hslugs, hids,
        hdescriptions, and_self]

theorem nodup_describedProjects :
    (describedProjects.map (·.slug)).Nodup ∧ (describedProjects.map (·.id)).Nodup := by
  unfold describedProjects
  rw [List.map_map, List.map_map]
  constructor
  · refine List.Nodup.map_on ?_ List.nodup_range
    intro m hm n hn h
    rw [List.mem_range] at hm hn
    exact Rust.hexDigits_injective (by omega) (by omega) (String.ofList_injective h)
  · refine List.Nodup.map_on ?_ List.nodup_range
    intro m hm n hn h
    rw [List.mem_range] at hm hn
    have hvalue := congrArg BitVec.toNat h
    simp only [Function.comp_apply, describedProject, BitVec.toNat_ofNat] at hvalue
    omega

/-- The descriptions alone take more than the limit. -/
theorem maxBody_lt_catalogSize {request : PutCatalogRequest}
    (h : List.Forall₂ Connector.Publishes describedProjects request.projects) :
    maxBody < catalogSize epochRfc3339 request := by
  have hproject : ∀ size ∈ request.projects.map (projectSize epochRfc3339), 2139 ≤ size := by
    intro size hsize
    obtain ⟨input, hinput, rfl⟩ := List.mem_map.mp hsize
    have hmem : input.description ∈ describedProjects.map (·.description) :=
      (map_eq_of_publishes h).2.2 ▸ List.mem_map_of_mem hinput
    unfold describedProjects at hmem
    rw [List.map_map] at hmem
    obtain ⟨n, -, hdescription⟩ := List.mem_map.mp hmem
    have hlen : Rust.len input.description = 2000 := by
      rw [← hdescription]
      exact Relay.len_letters 2000
    simp only [projectSize, textSize, hlen]
    omega
  have hcount : request.projects.length = 500 := by
    rw [← h.length_eq, describedProjects, List.length_map, List.length_range]
  have hsum := List.card_nsmul_le_sum _ 2139 hproject
  rw [List.length_map, hcount, nsmul_eq_mul] at hsum
  unfold catalogSize maxBody
  omega

/-- The connector builds a catalog that the cloud refuses for its length. -/
theorem described_catalog_refused :
    ¬∀ (hash : List UInt8 → String) (toRfc3339 : Int → String)
      (fromSlice : List UInt8 → Option PutCatalogRequest) (accounts : Database)
      (db : CatalogDatabase) (id : String) (authorization : Option String)
      (config : Connector.ConnectorConfig) (revision : Nat)
      (projects : List Connector.CliProjectSummary) (request : PutCatalogRequest),
      snapshotRequest config revision projects = .ok request →
      Deliverable hash toRfc3339 fromSlice accounts db id authorization request →
      (catalogBody toRfc3339 request).length ≤ maxBody ∧
        ∃ db', putCatalog hash fromSlice accounts db id authorization
          (catalogBody toRfc3339 request) =
            .ok (⟨request.bindingId, request.revision, request.projects.length⟩, db') := by
  intro hall
  obtain ⟨request, hsnapshot, hbinding, hrevision, hpublishes⟩ := exists_describedCatalog
  obtain ⟨hslugs, hids, -⟩ := map_eq_of_publishes hpublishes
  have hdistinct := nodup_describedProjects
  rw [← hslugs, ← hids] at hdistinct
  have hdeliverable := deliverable_bound hdistinct.1 hdistinct.2 hbinding hrevision
  obtain ⟨hfits, -⟩ := hall _ _ _ _ _ _ _ _ _ _ request hsnapshot hdeliverable
  obtain ⟨-, -, -, hvalid⟩ := Connector.snapshotRequest_eq_ok.mp hsnapshot
  rw [length_catalogBody hvalid] at hfits
  exact Nat.not_le.mpr (maxBody_lt_catalogSize hpublishes) hfits

end Cresix.Cloud
