import Cresix.Cloud.Catalog

/-!
# Monotone and atomic publication

`Replaces` says what the transaction of `put_catalog` does when it commits, and
`Move` lists the steps with it.  Everything that holds of the catalogs over a
run is read off these two.
-/

namespace Cresix.Cloud

open CloudCore (CatalogProjectInput PutCatalogRequest)
open Rust (Uuid)
open Transition (System Event pairwise_snoc forall_mem_snoc)

/-! ## The transaction -/

theorem require_eq_ok {condition : Bool} {error : ApiError} :
    require condition error = .ok () ↔ condition = true := by
  unfold require
  split
  next h => exact iff_of_true rfl h
  next h => exact iff_of_false nofun h

theorem okOr_eq_ok {α : Type} {value : Option α} {error : ApiError} {a : α} :
    okOr value error = .ok a ↔ value = some a := by
  cases value with
  | none => exact iff_of_false nofun nofun
  | some value =>
      constructor
      · intro h
        cases h
        rfl
      · intro h
        cases h
        rfl

theorem insertProjects_eq_ok {faults : Statement → Bool} {bindingId : Uuid} {revision : Nat}
    {projects : List CatalogProjectInput} {index : Nat} {table table' : List CatalogProject}
    (h : insertProjects faults bindingId revision index projects table = .ok table') :
    table' = table ++ projects.map (.ofInput bindingId revision) := by
  induction projects generalizing index table with
  | nil =>
      cases h
      exact (List.append_nil _).symm
  | cons project projects ih =>
      obtain ⟨-, h⟩ := Checks.check_bind_eq_ok.mp h
      split at h
      next inserted hinsert =>
        rw [ih h, (Table.insert?_eq_some hinsert).2, List.append_assoc]
        rfl
      next => cases h

/-- What a committed transaction does. -/
structure Replaces (installationId : Uuid) (input : PutCatalogRequest) (db db' : CatalogDatabase) :
    Prop where
  binding : ∃ binding ∈ db.workspaceBindings, binding.id = input.bindingId ∧
    binding.installationId = installationId ∧ ¬db.accounts.Revoked installationId ∧
    binding.catalogRevision < input.revision
  accounts : db'.accounts = db.accounts
  workspaceBindings : db'.workspaceBindings = Table.update (·.id = input.bindingId)
    (fun row => { row with catalogRevision := input.revision }) db.workspaceBindings
  catalogProjects : db'.catalogProjects = Table.replace (·.bindingId = input.bindingId)
    (input.projects.map (.ofInput input.bindingId input.revision)) db.catalogProjects

theorem CatalogDatabase.activeRevision_eq_some {db : CatalogDatabase} {bindingId id : Uuid}
    {current : Nat} (h : db.activeRevision bindingId id = some current) :
    ∃ binding ∈ db.workspaceBindings, binding.id = bindingId ∧ binding.installationId = id ∧
      ¬db.accounts.Revoked id ∧ binding.catalogRevision = current := by
  obtain ⟨binding, hfind, hcurrent⟩ := Option.map_eq_some_iff.mp h
  have hmatches := List.find?_some hfind
  simp only [Bool.and_eq_true, decide_eq_true_eq, List.any_eq_true,
    Option.isNone_iff_eq_none] at hmatches
  obtain ⟨⟨hid, rfl⟩, installation, hmem, hinstallation, hactive⟩ := hmatches
  refine ⟨binding, List.mem_of_find?_eq_some hfind, hid, rfl, ?_, hcurrent⟩
  intro hrevoked
  exact hrevoked installation hmem hinstallation hactive

theorem putCatalogTx_eq_ok {faults : Statement → Bool} {installationId : Uuid}
    {input : PutCatalogRequest} {db db' : CatalogDatabase}
    (h : putCatalogTx faults installationId input db = .ok db') :
    Replaces installationId input db db' := by
  obtain ⟨-, h⟩ := Checks.check_bind_eq_ok.mp h
  obtain ⟨current, hcurrent, h⟩ := Checks.bind_eq_ok.mp h
  obtain ⟨-, h⟩ := Checks.check_bind_eq_ok.mp h
  obtain ⟨hlt, h⟩ := Checks.check_bind_eq_ok.mp h
  obtain ⟨-, h⟩ := Checks.check_bind_eq_ok.mp h
  obtain ⟨rows, hrows, h⟩ := Checks.bind_eq_ok.mp h
  obtain ⟨-, h⟩ := Checks.check_bind_eq_ok.mp h
  cases h
  obtain ⟨binding, hmem, hid, hinstallation, hrevoked, rfl⟩ :=
    CatalogDatabase.activeRevision_eq_some (okOr_eq_ok.mp hcurrent)
  have hless := of_decide_eq_true (require_eq_ok.mp hlt)
  refine ⟨⟨binding, hmem, hid, hinstallation, hrevoked, hless⟩, rfl, rfl, ?_⟩
  simpa [Table.replace] using insertProjects_eq_ok hrows

section

variable {installationId : Uuid} {input : PutCatalogRequest} {db db' : CatalogDatabase}

theorem Replaces.rows (input : PutCatalogRequest) :
    ∀ row ∈ input.projects.map (CatalogProject.ofInput input.bindingId input.revision),
      decide (row.bindingId = input.bindingId) = true := by
  intro row hrow
  obtain ⟨project, -, rfl⟩ := List.mem_map.mp hrow
  exact decide_eq_true rfl

/-- The projects of the binding are those of the request. -/
theorem Replaces.projects_eq (h : Replaces installationId input db db') :
    db'.projects input.bindingId =
      input.projects.map (.ofInput input.bindingId input.revision) := by
  unfold CatalogDatabase.projects
  rw [h.catalogProjects]
  exact Table.filter_replace (Replaces.rows input)

/-- The projects of other bindings stay. -/
theorem Replaces.projects_of_ne (h : Replaces installationId input db db') {bindingId : Uuid}
    (hne : input.bindingId ≠ bindingId) : db'.projects bindingId = db.projects bindingId := by
  unfold CatalogDatabase.projects
  rw [h.catalogProjects]
  refine Table.filter_replace_of_disjoint ?_ (Replaces.rows input)
  intro row hrow
  rw [decide_eq_false_iff_not, of_decide_eq_true hrow]
  exact hne.symm

/-- The revisions of other bindings stay. -/
theorem Replaces.revisions_of_ne (h : Replaces installationId input db db') {bindingId : Uuid}
    (hne : input.bindingId ≠ bindingId) : db'.revisions bindingId = db.revisions bindingId := by
  unfold CatalogDatabase.revisions
  rw [h.workspaceBindings, Table.filter_update_of_disjoint]
  intro row hrow
  have hother : decide (row.id = bindingId) = false := by
    rw [decide_eq_false_iff_not, of_decide_eq_true hrow]
    exact hne
  exact ⟨hother, hother⟩

end

/-! ## Steps -/

/-- The steps, by what they do. -/
inductive Catalogs.Move (s : Catalogs) : CatalogAction → Catalogs → Prop where
  | revoke {id account : Uuid} {now : Nat} {auditEvents : List AuditEvent} :
      Move s (.revoke id account now)
        { s with db := { s.db with accounts := s.db.accounts.revoke id now, auditEvents } }
  | putCatalog {id : String} {authorization : Option String} {input : PutCatalogRequest} :
      Move s (.putCatalog id authorization input)
        { s with requests := s.requests ++ [⟨id, authorization, input, .authorizing⟩] }
  | authorized {request : Nat} {fails : Bool} {installationId : Uuid} :
      Move s (.authorize request fails) (s.goto request (.committing installationId))
  | refused {a : CatalogAction} {request : Nat} {error : ApiError} :
      ((∃ fails, a = .authorize request fails) ∨ ∃ faults, a = .commit request faults) →
      Move s a (s.goto request (.answered (.error error)))
  | accepted {request : Nat} {faults : Statement → Bool} {put : PutCatalog}
      {installationId : Uuid} {db : CatalogDatabase} {reply : CatalogAccepted} :
      s.requests[request]? = some put → Replaces installationId put.input s.db db →
      Move s (.commit request faults) (goto { s with db } request (.answered (.ok reply)))

theorem Catalogs.step_move {hash : List UInt8 → String} {s t : Catalogs} {a : CatalogAction}
    (h : s.step hash a = some t) : s.Move a t := by
  cases a with
  | revoke id account now =>
      simp only [step] at h
      split at h
      next =>
        cases h
        exact .revoke
      next => cases h
  | putCatalog id authorization input =>
      cases h
      exact .putCatalog
  | authorize request fails =>
      simp only [step] at h
      split at h
      next =>
        split at h
        next =>
          cases h
          exact .refused (.inl ⟨fails, rfl⟩)
        next =>
          split at h
          next =>
            cases h
            exact .authorized
          next =>
            cases h
            exact .refused (.inl ⟨fails, rfl⟩)
      next => cases h
  | commit request faults =>
      simp only [step] at h
      split at h
      next hput =>
        split at h
        next hcommit =>
          cases h
          exact .accepted hput (putCatalogTx_eq_ok hcommit)
        next =>
          cases h
          exact .refused (.inr ⟨faults, rfl⟩)
      next => cases h

section

variable {hash : List UInt8 → String} {s t : Catalogs} {a : CatalogAction}
  {input : PutCatalogRequest}

theorem Catalogs.getElem?_goto {request : Nat} {task : PutTask} {put : PutCatalog}
    (h : (s.goto request task).requests[request]? = some put) :
    ∃ old, s.requests[request]? = some old ∧ put = { old with task } := by
  unfold goto at h
  rw [List.getElem?_modify_eq] at h
  obtain ⟨old, hold, rfl⟩ := Option.map_eq_some_iff.mp h
  exact ⟨old, hold, rfl⟩

/-- What an acceptance does. -/
theorem Accepts.replaces (hmove : s.Move a t) (h : Accepts ⟨s, a, t⟩ input) :
    ∃ installationId, Replaces installationId input s.db t.db := by
  obtain ⟨request, faults, put, reply, hlabel, hput, rfl, htask⟩ := h
  cases hlabel
  cases hmove with
  | refused hwhich =>
      obtain ⟨fails, hauthorize⟩ | ⟨faults, hcommit⟩ := hwhich
      · cases hauthorize
      · cases hcommit
        obtain ⟨old, -, rfl⟩ := Catalogs.getElem?_goto hput
        cases htask
  | accepted hold hreplaces =>
      obtain ⟨old, hold', rfl⟩ := Catalogs.getElem?_goto hput
      cases hold.symm.trans hold'
      exact ⟨_, hreplaces⟩

/-- A step that accepts nothing keeps the catalogs. -/
theorem Catalogs.Move.keeps (hmove : s.Move a t) :
    (t.db.workspaceBindings = s.db.workspaceBindings ∧
      t.db.catalogProjects = s.db.catalogProjects) ∨
    ∃ input installationId, Accepts ⟨s, a, t⟩ input ∧ Replaces installationId input s.db t.db := by
  cases hmove with
  | revoke | putCatalog | authorized | refused _ => exact .inl ⟨rfl, rfl⟩
  | @accepted request faults put installationId db reply hput hreplaces =>
      refine .inr ⟨put.input, installationId,
        ⟨request, faults, { put with task := .answered (.ok reply) }, reply, rfl, ?_, rfl, rfl⟩,
        hreplaces⟩
      dsimp only [goto]
      rw [List.getElem?_modify_eq, hput]
      rfl

theorem Rejects.unchanged (hmove : s.Move a t) (h : Rejects ⟨s, a, t⟩) : t.db = s.db := by
  obtain ⟨request, put, error, hlabel, hput, htask⟩ := h
  cases hmove with
  | revoke =>
      obtain ⟨_, hlabel⟩ | ⟨_, hlabel⟩ := hlabel
      · cases hlabel
      · cases hlabel
  | putCatalog | authorized | refused _ => rfl
  | accepted _ _ =>
      obtain ⟨_, hlabel⟩ | ⟨_, hlabel⟩ := hlabel
      · cases hlabel
      · cases hlabel
        obtain ⟨old, -, rfl⟩ := Catalogs.getElem?_goto hput
        cases htask

/-- A binding whose catalog is not accepted keeps it. -/
theorem Catalogs.Move.others (hmove : s.Move a t) {bindingId : Uuid}
    (hnone : ∀ input, Accepts ⟨s, a, t⟩ input → input.bindingId ≠ bindingId) :
    t.db.projects bindingId = s.db.projects bindingId ∧
      t.db.revisions bindingId = s.db.revisions bindingId := by
  obtain ⟨hbindings, hprojects⟩ | ⟨input, installationId, haccepts, hreplaces⟩ := hmove.keeps
  · unfold CatalogDatabase.projects CatalogDatabase.revisions
    rw [hbindings, hprojects]
    exact ⟨rfl, rfl⟩
  · have hne := hnone input haccepts
    exact ⟨hreplaces.projects_of_ne hne, hreplaces.revisions_of_ne hne⟩

/-! ## The invariant -/

/-- The binding is stored with at least this revision. -/
def CatalogDatabase.Reached (db : CatalogDatabase) (bindingId : Uuid) (revision : Nat) : Prop :=
  ∃ binding ∈ db.workspaceBindings, binding.id = bindingId ∧ revision ≤ binding.catalogRevision

theorem Catalogs.Move.keyed (hmove : s.Move a t)
    (h : Table.Keyed WorkspaceBinding.id s.db.workspaceBindings) :
    Table.Keyed WorkspaceBinding.id t.db.workspaceBindings := by
  obtain ⟨hbindings, -⟩ | ⟨input, installationId, -, hreplaces⟩ := hmove.keeps
  · rwa [hbindings]
  · rw [hreplaces.workspaceBindings]
    exact h.update fun _ => rfl

/-- The only binding of the request is the one the transaction read. -/
theorem Replaces.current {installationId : Uuid} {db db' : CatalogDatabase}
    (h : Replaces installationId input db db')
    (hkeyed : Table.Keyed WorkspaceBinding.id db.workspaceBindings) {binding : WorkspaceBinding}
    (hmem : binding ∈ db.workspaceBindings) (hid : binding.id = input.bindingId) :
    binding.installationId = installationId ∧ ¬db.accounts.Revoked installationId ∧
      binding.catalogRevision < input.revision := by
  obtain ⟨current, hcurrent, hcurrentId, hinstallation, hrevoked, hless⟩ := h.binding
  obtain rfl := hkeyed binding hmem current hcurrent (hid.trans hcurrentId.symm)
  exact ⟨hinstallation, hrevoked, hless⟩

/-- A stored revision never goes back. -/
theorem Catalogs.Move.reached (hmove : s.Move a t)
    (hkeyed : Table.Keyed WorkspaceBinding.id s.db.workspaceBindings) {bindingId : Uuid}
    {revision : Nat} (h : s.db.Reached bindingId revision) : t.db.Reached bindingId revision := by
  obtain ⟨binding, hmem, rfl, hle⟩ := h
  obtain ⟨hbindings, -⟩ | ⟨input, installationId, -, hreplaces⟩ := hmove.keeps
  · unfold CatalogDatabase.Reached
    rw [hbindings]
    exact ⟨binding, hmem, rfl, hle⟩
  · unfold CatalogDatabase.Reached
    rw [hreplaces.workspaceBindings]
    refine ⟨_, List.mem_map_of_mem hmem, ?_, ?_⟩
    · split
      next => rfl
      next => rfl
    · split
      next hid =>
        have hless := (hreplaces.current hkeyed hmem (of_decide_eq_true hid)).2.2
        exact hle.trans hless.le
      next => exact hle

theorem Replaces.reached {installationId : Uuid} {db db' : CatalogDatabase}
    (h : Replaces installationId input db db') : db'.Reached input.bindingId input.revision := by
  obtain ⟨binding, hmem, hid, -⟩ := h.binding
  unfold CatalogDatabase.Reached
  rw [h.workspaceBindings]
  refine ⟨_, List.mem_map_of_mem hmem, ?_, ?_⟩
  · rw [if_pos (decide_eq_true hid)]
    exact hid
  · rw [if_pos (decide_eq_true hid)]

/-- A revoked installation stays revoked. -/
theorem Catalogs.Move.revoked (hmove : s.Move a t) {id : Uuid} (h : s.db.accounts.Revoked id) :
    t.db.accounts.Revoked id := by
  cases hmove with
  | revoke => exact Database.Revoked.revoke h
  | putCatalog | authorized | refused _ => exact h
  | accepted _ hreplaces =>
      dsimp only [goto]
      rwa [hreplaces.accounts]

/-- What is kept of a run. -/
structure PublicationHistory (tr : List (Event Catalogs CatalogAction)) (t : Catalogs) : Prop where
  keyed : Table.Keyed WorkspaceBinding.id t.db.workspaceBindings
  reached : ∀ e ∈ tr, ∀ input, Accepts e input → t.db.Reached input.bindingId input.revision
  revoked : ∀ e ∈ tr, ∀ id account now, e.label = .revoke id account now →
    t.db.accounts.Revoked id
  published : Published tr

theorem Published.nil : Published [] where
  increasing := .nil
  replaced := nofun
  unchanged := nofun
  others := nofun
  active := nofun
  revoked := .nil

theorem PublicationHistory.step {tr : List (Event Catalogs CatalogAction)}
    (h : PublicationHistory tr s) (hmove : s.Move a t) :
    PublicationHistory (tr ++ [⟨s, a, t⟩]) t where
  keyed := hmove.keyed h.keyed
  reached := by
    refine forall_mem_snoc ?_ ?_
    · intro e he input haccepts
      exact hmove.reached h.keyed (h.reached e he input haccepts)
    · intro input haccepts
      obtain ⟨installationId, hreplaces⟩ := haccepts.replaces hmove
      exact hreplaces.reached
  revoked := by
    refine forall_mem_snoc ?_ ?_
    · intro e he id account now hlabel
      exact hmove.revoked (h.revoked e he id account now hlabel)
    · rintro id account now rfl
      cases hmove with
      | revoke => exact Database.revoked_revoke _ _ _
      | refused hwhich =>
          obtain ⟨_, hlabel⟩ | ⟨_, hlabel⟩ := hwhich
          · cases hlabel
          · cases hlabel
  published :=
    { increasing := by
        refine pairwise_snoc h.published.increasing ?_
        intro e he old new hold hnew hsame
        obtain ⟨binding, hmem, hid, hle⟩ := h.reached e he old hold
        obtain ⟨installationId, hreplaces⟩ := hnew.replaces hmove
        exact hle.trans_lt (hreplaces.current h.keyed hmem (hid.trans hsame)).2.2
      replaced := by
        refine forall_mem_snoc h.published.replaced ?_
        intro input haccepts
        obtain ⟨installationId, hreplaces⟩ := haccepts.replaces hmove
        exact hreplaces.projects_eq
      unchanged := forall_mem_snoc h.published.unchanged fun hrejects => hrejects.unchanged hmove
      others := forall_mem_snoc h.published.others fun _ hnone => hmove.others hnone
      active := by
        refine forall_mem_snoc h.published.active ?_
        intro input haccepts binding hmem hid
        obtain ⟨installationId, hreplaces⟩ := haccepts.replaces hmove
        obtain ⟨rfl, hactive, -⟩ := hreplaces.current h.keyed hmem hid
        exact hactive
      revoked := by
        refine pairwise_snoc h.published.revoked ?_
        rintro e he id account now hlabel input haccepts binding hmem hid rfl
        obtain ⟨installationId, hreplaces⟩ := haccepts.replaces hmove
        obtain ⟨rfl, hactive, -⟩ := hreplaces.current h.keyed hmem hid
        exact hactive (h.revoked e he _ account now hlabel) }

/-- In every run of publications and revocations: the accepted revisions of a binding increase, an
acceptance stores exactly the projects of its request, a rejection changes nothing, nothing changes
another binding, and nothing is accepted for a revoked installation. -/
theorem catalog_publication {tr : List (Event Catalogs CatalogAction)}
    (hstart : (Catalogs.system hash).start s) (hrun : (Catalogs.system hash).Run s tr t) :
    Published tr := by
  have hhistory : PublicationHistory tr t := by
    refine System.Run.history (I := PublicationHistory) hrun ?_ ?_
    · exact ⟨hstart.2, nofun, nofun, .nil⟩
    · intro tr t a u _ h hstep
      exact h.step (Catalogs.step_move hstep)
  exact hhistory.published

end

/-! ## A run -/

theorem validate_weeknote : CloudCore.ProjectSlug.validate "weeknote" = .ok () := by decide

theorem validate_diary : CloudCore.ProjectSlug.validate "diary" = .ok () := by decide

/-- A catalog of a project, or of two projects with one identifier. -/
def weeknoteCatalog (revision : Nat) (twice : Bool) : PutCatalogRequest where
  bindingId := 2
  revision := revision
  projects := ⟨4, ⟨"weeknote", validate_weeknote⟩, "Weeknote", "", "main", "abc123", 0⟩ ::
    if twice then [⟨4, ⟨"diary", validate_diary⟩, "Diary", "", "main", "abc123", 0⟩] else []

/-- Installation `1` of account `7`, with a binding. -/
def boundCatalogs : Catalogs where
  db := ⟨⟨[⟨1, 7, 9, "home", none, none⟩], [⟨1, List.replicate 16 0x41, "hash", none⟩]⟩,
    [⟨2, 1, 0⟩], [], []⟩
  requests := []

/-- The request of the connector of installation `1`. -/
def putWeeknote (revision : Nat) (twice : Bool) : CatalogAction :=
  .putCatalog "00000000-0000-0000-0000-000000000001"
    (some "Bearer c6x_v1_AAAAAAAAAAAAAAAA_BBBBBBBBBBBBBBBBBBBBBBBBBBBBBBBB")
    (weeknoteCatalog revision twice)

/-- A catalog is accepted, the next one has a project twice, and the installation is revoked between
the two parts of a third one. -/
def publishSteps : List CatalogAction :=
  [putWeeknote 1 false, .authorize 0 false, .commit 0 fun _ => false,
    putWeeknote 2 true, .authorize 1 false, .commit 1 fun _ => false,
    putWeeknote 3 false, .authorize 2 false, .revoke 1 7 0, .commit 2 fun _ => false]

/-- The events of the steps. -/
def catalogEvents (actions : List CatalogAction) : List (Event Catalogs CatalogAction) :=
  System.events (Catalogs.step fun _ => "hash") boundCatalogs actions

theorem catalog_publication_weeknote : Published (catalogEvents publishSteps) := by
  obtain ⟨t, hrun⟩ : ∃ t, (Catalogs.system fun _ => "hash").Run boundCatalogs
    (catalogEvents publishSteps) t := System.Run.events (by decide)
  refine catalog_publication ⟨rfl, ?_⟩ hrun
  intro a ha b hb _
  rw [List.mem_singleton.mp ha, List.mem_singleton.mp hb]

/-- The stored revisions and projects after each step. -/
example : (catalogEvents publishSteps).map (fun e =>
    (e.post.db.revisions 2, (e.post.db.projects 2).map (·.slug))) =
    [([0], []), ([0], []), ([1], ["weeknote"]), ([1], ["weeknote"]), ([1], ["weeknote"]),
      ([1], ["weeknote"]), ([1], ["weeknote"]), ([1], ["weeknote"]), ([1], ["weeknote"]),
      ([1], ["weeknote"])] := by decide

end Cresix.Cloud
