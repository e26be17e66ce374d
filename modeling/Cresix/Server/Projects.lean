import Cresix.Server.Steps

/-!
# The projects of the server

Only `create_project` and `update_project` write the columns of a project that
a user gives, and both check them first.  So every project of a reachable
server passes `validate_project`.
-/

namespace Cresix.Server

open Concurrent (Pool Program)
open Transition (System Event)

/-! ## Checked rows -/

/-- The columns of a row as they were asked for. -/
def ProjectRow.request (row : ProjectRow) : ProjectRequest where
  workspaceId := row.workspaceId
  slug := row.slug
  name := row.name
  description := row.description
  defaultBranch := row.defaultBranch

/-- Every project passes `validate_project`. -/
def Database.ProjectsValid (db : Database) : Prop :=
  ∀ row ∈ db.projects, validateProject row.request = .ok ()

/-- The projects stay valid. -/
def KeepsProjects (s t : Store) : Prop := s.db.ProjectsValid → t.db.ProjectsValid

section

variable {config : Config} {headers : Headers} {request : Request} {s t : Store} {id : String}
  {db db' : Database}

theorem KeepsProjects.of_projects (h : t.db.projects = s.db.projects) : KeepsProjects s t := by
  intro hvalid row hrow
  rw [h] at hrow
  exact hvalid row hrow

theorem createProjectTx_projects {input : ProjectRequest} {headSha callerRole : String}
    {created : Instant} {i : Input} {now : Readings} {reply : Reply}
    (h : createProjectTx input id headSha callerRole created i now db = .ok (reply, db'))
    (hinput : validateProject input = .ok ()) (hvalid : db.ProjectsValid) :
    db'.ProjectsValid := by
  obtain ⟨inserted, hinsert, h⟩ := bind_eq_ok.mp h
  cases h
  obtain ⟨-, -, rfl⟩ := Database.insertProject_eq_ok (orConflict_eq_ok.mp hinsert)
  intro row hrow
  rcases List.mem_append.mp hrow with hold | hnew
  · exact hvalid row hold
  · rw [List.mem_singleton.mp hnew]
    exact hinput

theorem updateProjectTx_projects {input : ProjectRequest} {i : Input} {now : Readings} {u : Unit}
    (h : updateProjectTx id input i now db = .ok (u, db'))
    (hinput : validateProject input = .ok ()) (hvalid : db.ProjectsValid) :
    db'.ProjectsValid := by
  obtain ⟨_, -, h⟩ := bind_eq_ok.mp h
  cases h
  intro row hrow
  obtain ⟨old, hold, rfl⟩ := Table.mem_update hrow
  split
  next => exact hinput
  next => exact hvalid old hold

/-! ## Sections -/

/-- The request writes no project. -/
def Endpoint.sparesProjects : Endpoint → Bool
  | .createProject _ | .updateProject _ _ => false
  | _ => true

/-- A request that writes no project. -/
def sparingRequest : Request := ⟨⟨[], none, none, none, []⟩, .logout⟩

theorem Effect.projects_eq {now : Instant} {endpoint : Endpoint} {user : String}
    (h : Effect config now db endpoint user db') (hspares : endpoint.sparesProjects = true) :
    db'.projects = db.projects := by
  cases h with
  | createProject _ _ => cases hspares
  | updateProject _ _ => cases hspares
  | _ => rfl

theorem Guarantee.keepsProjects {R : Store → Store → Prop} (h : Guarantee config R request s t)
    (hspares : request.endpoint.sparesProjects = true) : KeepsProjects s t := by
  refine .of_projects ?_
  rcases h.2 with hsame | ⟨user, heffect, -⟩
  · rw [hsame]
  · exact heffect.projects_eq hspares

variable {ε α : Type} {Q : α → Store → Prop}

/-- A handler that keeps the guarantee of another request writes no project. -/
theorem keepsProjects_of_ensures {p : Program Store Input ε α}
    (h : p.Ensures Evolves (Guarantee config Evolves sparingRequest) Q s) :
    p.Ensures Evolves KeepsProjects Q s :=
  h.mono_guarantee fun _ _ hkeeps => hkeeps.keepsProjects rfl

/-- A transaction that keeps the projects valid. -/
theorem transaction_keepsProjects
    {work : Input → Readings → Database → Outcome (α × Database)}
    (h : ∀ i now db value db', work i now db = .ok (value, db') → db.ProjectsValid →
      db'.ProjectsValid) :
    (transaction work).Ensures Evolves KeepsProjects (fun _ _ => True) s := by
  refine .step fun t i _ => ⟨?_, fun _ _ _ => trivial⟩
  rcases attempt_cases .internal work i t with ⟨value, db, hwork, heq⟩ | ⟨error, heq⟩
  · rw [heq]
    exact h _ _ _ _ _ hwork
  · rw [heq]
    exact .of_projects rfl

theorem keepsProjects_bind (config : Config) {β : Type} {p : Program Store Input ε α}
    {k : α → Program Store Input ε β} {Q' : β → Store → Prop}
    (h : p.Ensures Evolves (Guarantee config Evolves sparingRequest) Q s)
    (hk : ∀ value t, (k value).Ensures Evolves KeepsProjects Q' t) :
    (p >>= k).Ensures Evolves KeepsProjects Q' s :=
  Program.Ensures.bind Evolves.refl (fun _ _ _ h h' => h.trans h') (keepsProjects_of_ensures h)
    fun value t _ _ => hk value t

theorem keepsProjects_check {β : Type} {result : Except ε α} {k : α → Program Store Input ε β}
    {Q' : β → Store → Prop}
    (h : ∀ value, result = .ok value → (k value).Ensures Evolves KeepsProjects Q' s) :
    (Program.check result >>= k).Ensures Evolves KeepsProjects Q' s := by
  cases result with
  | ok value => exact h value rfl
  | error error => trivial

theorem createProject_keepsProjects {input : ProjectRequest} :
    (createProject config headers input).Ensures Evolves KeepsProjects (fun _ _ => True) s := by
  refine keepsProjects_bind config (authenticate_ensures .of_evolves true) fun p t => ?_
  refine keepsProjects_bind config (requireRole_ensures .of_evolves) fun _ u => ?_
  refine keepsProjects_check fun _ hinput => ?_
  refine keepsProjects_bind config query_ensures' fun callerRole v => ?_
  refine keepsProjects_bind config consult_ensures fun made w => ?_
  refine Program.Ensures.mapError (transaction_keepsProjects ?_)
  intro i now db reply db' hwork hvalid
  exact createProjectTx_projects hwork hinput hvalid

theorem updateProject_keepsProjects {input : ProjectRequest} :
    (updateProject config headers id input).Ensures Evolves KeepsProjects
      (fun _ _ => True) s := by
  refine keepsProjects_bind config (authenticate_ensures .of_evolves true) fun p t => ?_
  refine keepsProjects_bind config (projectWorkspace_ensures .of_evolves) fun workspaceId u => ?_
  refine keepsProjects_bind config (requireRole_ensures .of_evolves) fun _ v => ?_
  refine keepsProjects_check fun _ hinput => keepsProjects_check fun _ _ => ?_
  refine keepsProjects_bind config consult_ensures fun branches w => keepsProjects_check fun _ _ => ?_
  have hupdate : (transaction (updateProjectTx id input)).Ensures Evolves KeepsProjects
      (fun _ _ => True) w := by
    refine transaction_keepsProjects ?_
    intro i now db u db' hwork hvalid
    exact updateProjectTx_projects hwork hinput hvalid
  refine Program.Ensures.bind Evolves.refl (fun _ _ _ h h' => h.trans h') hupdate ?_
  intro _ x _ _
  have hread : (getProject config headers id).Ensures Evolves
      (Guarantee config Evolves sparingRequest) (fun _ _ => True) x :=
    getProject_ensures .of_evolves
  exact keepsProjects_of_ensures hread

/-- Every handler keeps the projects valid. -/
theorem program_keepsProjects (request : Request) :
    (program config request).Ensures Evolves KeepsProjects (fun _ _ => True) s := by
  cases hspares : request.endpoint.sparesProjects with
  | true =>
      have hkeeps : (program config request).Ensures Evolves (Guarantee config Evolves request)
          (fun _ _ => True) s := program_ensures .of_evolves request
      exact hkeeps.mono_guarantee fun _ _ hkept => hkept.keepsProjects hspares
  | false =>
      obtain ⟨headers, endpoint⟩ := request
      cases endpoint with
      | createProject input => exact createProject_keepsProjects.mapError
      | updateProject id input => exact updateProject_keepsProjects.mapError
      | _ => cases hspares

end

/-! ## Every run -/

section

variable {config : Config} {x y : Process} {a : Action}

/-- The threads of the server keep the projects valid. -/
def Process.KeepsProjects (x : Process) : Prop :=
  Pool.Sound (fun _ => Evolves) (fun _ => Server.KeepsProjects) x.pool

theorem Process.KeepsProjects.step (h : x.KeepsProjects) (hx : (system config).Reachable x)
    (hvalid : x.db.ProjectsValid) (hstep : (system config).step x a y) :
    y.KeepsProjects ∧ y.db.ProjectsValid := by
  have htrans : ∀ request a b c, (fun _ : Request => Evolves) request a b →
      (fun _ : Request => Evolves) request b c → (fun _ : Request => Evolves) request a c :=
    fun _ _ _ _ h h' => h.trans h'
  have hevolves := (moves_of_reachable hx hstep).evolves
  cases takes_of_step hstep with
  | @ensureServer token serverId db _ hdb =>
      obtain ⟨settings, heq, -⟩ := ensureServer_eq_ok hdb
      have hprojects : db.projects = x.db.projects := by rw [heq]
      refine ⟨Pool.Sound.env htrans h fun _ _ _ => hevolves, ?_⟩
      intro row hrow
      exact hvalid row (hprojects ▸ hrow)
  | backfillServerOwner _ =>
      obtain ⟨settings, heq⟩ := backfillServerOwner_eq x.db
      have hprojects : (backfillServerOwner x.db).projects = x.db.projects := by rw [heq]
      refine ⟨Pool.Sound.env htrans h fun _ _ _ => hevolves, ?_⟩
      intro row hrow
      exact hvalid row (hprojects ▸ hrow)
  | @request request _ => exact ⟨Pool.Sound.start h (program_keepsProjects request), hvalid⟩
  | serve _ hrun =>
      obtain ⟨⟨thread, -, hkeeps⟩, hsound⟩ := Pool.Sound.run (fun _ => .refl) htrans h hrun
      exact ⟨hsound fun _ _ _ => hevolves, hkeeps hvalid⟩
  | tick => exact ⟨Pool.Sound.env htrans h fun _ _ _ => hevolves, hvalid⟩
  | stop => exact ⟨fun thread hthread => absurd hthread List.not_mem_nil, hvalid⟩

/-- The projects of a reachable server pass `validate_project`. -/
theorem projectsValid_of_reachable (h : (system config).Reachable x) : x.db.ProjectsValid := by
  have hboth : x.KeepsProjects ∧ x.db.ProjectsValid := by
    refine System.Reachable.induction (I := fun x => x.KeepsProjects ∧ x.db.ProjectsValid)
      ?_ ?_ h
    · rintro x ⟨clock, rfl⟩
      exact ⟨fun thread hthread => absurd hthread List.not_mem_nil,
        fun row hrow => absurd hrow List.not_mem_nil⟩
    · intro x a y hx hkeeps hstep
      exact hkeeps.1.step hx hkeeps.2 hstep
  exact hboth.2

end

end Cresix.Server
