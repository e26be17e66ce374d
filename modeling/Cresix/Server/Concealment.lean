import Cresix.Server.Confinement

/-!
# Git does not tell which projects there are

A principal who may not read a workspace gets the same answer under its slug
whatever projects it has: the path is not found, before the repository or the
rest of the request is looked at.  The two runs of a request differ in the
projects of the workspace, and in what is said about repositories.
-/

namespace Cresix.Server

open Concurrent (Program)

/-- The slug of the workspace a Git request is addressed under. -/
def Endpoint.gitWorkspace : Endpoint → Option String
  | .gitInfoRefs workspace _ _ | .gitUploadPack workspace _ => some workspace
  | _ => none

/-- The principal is no member of the workspace, or is restricted to a workspace
or a project outside it. -/
def TokenPrincipal.Outsider (p : TokenPrincipal) (db : Database) (workspaceId : String) : Prop :=
  db.role p.userId workspaceId = none ∨ p.workspaceId.any (· ≠ workspaceId) = true ∨
    ∃ row ∈ db.projects, p.projectId = some row.id ∧ row.workspaceId ≠ workspaceId

/-- The same moment: only what is said about repositories, and what is drawn,
may differ. -/
def SameMoment (i i' : Input) : Prop := i'.waits = i.waits ∧ i'.fault = i.fault

section

variable {config : Config} {request : Request} {p : TokenPrincipal} {db : Database}
  {workspace : WorkspaceRow} {s t : Store} {inputs inputs' rest : Nat → Input}

/-- An outsider has no project under the slug of the workspace. -/
theorem TokenPrincipal.Outsider.role_eq_none (h : p.Outsider db workspace.id)
    (hwf : db.WellFormed) (hworkspace : workspace ∈ db.workspaces) {projectSlug : String}
    {row : ProjectRow} (hrow : db.Located workspace.slug projectSlug row)
    (hcovers : p.covers row = true) : db.role p.userId row.workspaceId = none := by
  obtain ⟨hmem, _, other, hother, hid, hslug⟩ := hrow
  have hsame : row.workspaceId = workspace.id := by
    rw [← hid, hwf.slugs other hother workspace hworkspace hslug]
  have hinside := TokenPrincipal.covers_iff.mp hcovers
  rw [hsame] at hinside ⊢
  rcases h with hrole | hrestricted | ⟨project, hproject, hid, houtside⟩
  · exact hrole
  · rw [hrestricted] at hinside
    cases hinside
  · by_cases hsameProject : project.id = row.id
    · rw [hwf.projects project hproject row hmem hsameProject] at houtside
      exact absurd hsame houtside
    · rw [hid, Option.any_some, decide_eq_true hsameProject, Bool.or_true] at hinside
      cases hinside

/-- An outsider stays one when the projects of the workspace change. -/
theorem TokenPrincipal.Outsider.withProjects (h : p.Outsider db workspace.id)
    {projects : List ProjectRow}
    (hothers : (projects.filter fun row => row.workspaceId ≠ workspace.id) =
      db.projects.filter fun row => row.workspaceId ≠ workspace.id) :
    p.Outsider { db with projects } workspace.id := by
  rcases h with hrole | hrestricted | ⟨row, hrow, hid, houtside⟩
  · exact .inl hrole
  · exact .inr (.inl hrestricted)
  · have hmem : row ∈ db.projects.filter fun row => row.workspaceId ≠ workspace.id :=
      List.mem_filter.mpr ⟨hrow, decide_eq_true houtside⟩
    rw [← hothers] at hmem
    exact .inr (.inr ⟨row, (List.mem_filter.mp hmem).1, hid, houtside⟩)

theorem TokenPrincipal.Outsider.gitProjectAllowed (h : p.Outsider db workspace.id)
    (hwf : db.WellFormed) (hworkspace : workspace ∈ db.workspaces) (project : String) :
    gitProjectAllowed p workspace.slug project "reader" db = .error .projectNotFound :=
  gitProjectAllowed_of_outside fun _ hrow hcovers => h.role_eq_none hwf hworkspace hrow hcovers

/-- An outsider opens no repository of the workspace. -/
theorem TokenPrincipal.Outsider.gitRepository (h : p.Outsider s.db workspace.id)
    (hwf : s.db.WellFormed) (hworkspace : workspace ∈ s.db.workspaces)
    {repositoryName id : String}
    (hrun : (gitRepository p workspace.slug repositoryName).run inputs s = (.ok id, t, rest)) :
    False := by
  obtain ⟨project, _, hrun⟩ := Program.run_check_bind_eq_ok.mp hrun
  obtain ⟨_, _, hrun⟩ := Program.run_check_bind_eq_ok.mp hrun
  obtain ⟨_, _, hrun⟩ := Program.run_check_bind_eq_ok.mp hrun
  obtain ⟨db, hwork, _⟩ := run_underLock hrun
  rw [h.gitProjectAllowed hwf hworkspace project] at hwork
  cases hwork

/-- The two answers to an outsider. -/
theorem answer_alike_of_outsider (hout : p.Outsider s.db workspace.id) (hwf : s.db.WellFormed)
    (hworkspace : workspace ∈ s.db.workspaces) {projects : List ProjectRow}
    (hwf' : Database.WellFormed { s.db with projects })
    (hout' : p.Outsider { s.db with projects } workspace.id)
    (hinputs : ∀ n, SameMoment (inputs n) (inputs' n))
    (hunder : request.endpoint.gitWorkspace = some workspace.slug) :
    Program.Alike (Differs s.db.workspaces projects s.db.memberships) SameMoment
      ((answer config p request).run inputs s)
      ((answer config p request).run inputs'
        (s.withProjects s.db.workspaces projects s.db.memberships)) := by
  have hgit : ∀ repositoryName, Program.Alike
      (Differs s.db.workspaces projects s.db.memberships) SameMoment
      ((gitRepository p workspace.slug repositoryName).run inputs s)
      ((gitRepository p workspace.slug repositoryName).run inputs'
        (s.withProjects s.db.workspaces projects s.db.memberships)) := by
    intro repositoryName
    refine gitRepository_alike hinputs (hinputs 0).1 (hinputs 0).2 ?_ ?_
    · intro project
      rw [hout.gitProjectAllowed hwf hworkspace]
      exact hout'.gitProjectAllowed hwf' hworkspace project
    · intro project id hallowed
      rw [hout.gitProjectAllowed hwf hworkspace] at hallowed
      cases hallowed
  obtain ⟨headers, endpoint⟩ := request
  cases endpoint with
  | gitInfoRefs slug repositoryName query =>
      cases hunder
      refine .mapError (.bind (hgit repositoryName) ?_)
      intro _ _ _ _ _ hrun _ _ _
      exact (hout.gitRepository hwf hworkspace hrun).elim
  | gitUploadPack slug repositoryName =>
      cases hunder
      refine .mapError (.bind (hgit repositoryName) ?_)
      intro _ _ _ _ _ hrun _ _ _
      exact (hout.gitRepository hwf hworkspace hrun).elim
  | _ => cases hunder

/-- Two stores that differ in the projects of a workspace, and whatever is said
about repositories, give an outsider the same answer under the workspace. -/
theorem git_conceals_projects (hwf : s.db.WellFormed) (hworkspace : workspace ∈ s.db.workspaces)
    {projects : List ProjectRow} (hwf' : Database.WellFormed { s.db with projects })
    (hothers : (projects.filter fun row => row.workspaceId ≠ workspace.id) =
      s.db.projects.filter fun row => row.workspaceId ≠ workspace.id)
    (hinputs : ∀ n, SameMoment (inputs n) (inputs' n))
    (hunder : request.endpoint.gitWorkspace = some workspace.slug)
    (hp : (tokenPrincipal config request).run inputs s = (.ok p, t, rest))
    (hout : p.Outsider s.db workspace.id) :
    ((program config request).run inputs' ⟨{ s.db with projects }, s.clock⟩).1 =
      ((program config request).run inputs s).1 := by
  have htoken : request.endpoint.takesToken = true := by
    obtain ⟨headers, endpoint⟩ := request
    cases endpoint with
    | gitInfoRefs | gitUploadPack => rfl
    | _ => cases hunder
  have hauth : Program.Alike (Differs s.db.workspaces projects s.db.memberships) SameMoment
      ((tokenPrincipal config request).run inputs s)
      ((tokenPrincipal config request).run inputs' ⟨{ s.db with projects }, s.clock⟩) :=
    tokenPrincipal_alike hinputs (fun n => (hinputs n).1) fun n => (hinputs n).2
  rw [hp] at hauth
  generalize hrun' : (tokenPrincipal config request).run inputs' ⟨{ s.db with projects }, s.clock⟩ =
    result at hauth
  obtain ⟨outcome, t', rest'⟩ := result
  obtain ⟨houtcome, hstates, hrest⟩ := hauth
  cases houtcome
  obtain ⟨_, used, now, hdb⟩ := tokenPrincipal_run htoken hp
  rw [program_run htoken hp, program_run htoken hrun']
  cases hstates
  have htables : t.withProjects s.db.workspaces projects s.db.memberships =
      t.withProjects t.db.workspaces projects t.db.memberships := by rw [hdb]
  show ((answer config p request).run rest'
    (t.withProjects s.db.workspaces projects s.db.memberships)).1 = _
  rw [htables]
  have hcredentials := hwf.credentials.update (p := used)
    (f := fun row => { row with lastUsedAt := some now }) fun _ => rfl
  refine (answer_alike_of_outsider ?_ ?_ ?_ ?_ ?_ hrest hunder).outcome
  · rw [hdb]
    exact hout
  · rw [hdb]
    exact { hwf with credentials := hcredentials }
  · rw [hdb]
    exact hworkspace
  · rw [hdb]
    exact { hwf' with credentials := hcredentials }
  · rw [hdb]
    exact hout.withProjects hothers

end

/-! ## A token for another workspace -/

/-- A second workspace is opened beside the one of the token. -/
def sampleOutsider : List Action :=
  sampleTokens .git .gitRead ++
    [.request ⟨sampleHeaders, .createWorkspace ⟨"beta", "Beta"⟩⟩, .serve 3 (sampleInput []),
      .serve 3 (sampleInput []), .serve 3 (sampleInput ["workspace-2"])]

/-- A clone of a project in the second workspace. -/
def sampleClone : Request where
  headers := ⟨["Basic " ++ "YzY6YzZnX3YxX0FBQUFBQUFBQUFBQUFBQUFfQUFBQUFBQUFBQUFBQUFBQUFBQUFB" ++
    "QUFBQUFBQUFBQUFBQUFBQUFBQUFBQQ=="], none, none, none, []⟩
  endpoint := .gitInfoRefs "beta" "tool.git" (some "service=git-upload-pack")

/-- It is answered alike whether the project is there or not. -/
theorem git_conceals_projects_beta :
    ∃ x, (system tokenConfig).Reachable x ∧ x.db.projects = [] ∧
      ((program tokenConfig sampleClone).run (fun _ => sampleInput [])
        ⟨{ x.db with projects :=
            [⟨"project-2", "workspace-2", "tool", "Tool", "", "main", "", none, 0, 0⟩] },
          x.clock⟩).1 =
        ((program tokenConfig sampleClone).run (fun _ => sampleInput []) x.pool.state).1 := by
  have hdata : (stateAfter tokenConfig sampleOutsider).map (fun x =>
      (((tokenPrincipal tokenConfig sampleClone).run (fun _ => sampleInput [])
        x.pool.state).1.toOption, x.db.workspaces, x.db.projects)) =
      some (some ⟨"user-1", "Ada", some "workspace-1", none⟩,
        [⟨"workspace-1", "alpha", "Alpha", 0⟩, ⟨"workspace-2", "beta", "Beta", 0⟩], []) := by
    decide +kernel
  obtain ⟨x, hx, hfacts⟩ := Option.map_eq_some_iff.mp hdata
  obtain ⟨hprincipal, hrest⟩ := Prod.mk.inj hfacts
  obtain ⟨hworkspaces, hprojects⟩ := Prod.mk.inj hrest
  obtain ⟨t, rest, hp⟩ := Program.run_of_toOption hprincipal
  have hreachable := reachable_of_stateAfter hx
  have hwf := wellFormed_of_reachable hreachable
  refine ⟨x, hreachable, hprojects, ?_⟩
  have hbeta : (⟨"workspace-2", "beta", "Beta", 0⟩ : WorkspaceRow) ∈ x.db.workspaces := by
    rw [hworkspaces]
    exact List.mem_cons_of_mem _ List.mem_cons_self
  refine git_conceals_projects hwf hbeta ?_ ?_ (fun _ => ⟨rfl, rfl⟩) rfl hp (.inr (.inl rfl))
  · refine { hwf with projects := ?_, paths := ?_ }
    · intro a ha b hb _
      rw [List.mem_singleton.mp ha, List.mem_singleton.mp hb]
    · intro a ha b hb _
      rw [List.mem_singleton.mp ha, List.mem_singleton.mp hb]
  · show _ = x.db.projects.filter _
    rw [hprojects]
    rfl

end Cresix.Server
