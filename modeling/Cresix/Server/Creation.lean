import Cresix.Git.Creation
import Cresix.Server.Authorization

/-!
# New projects

`create_project` has a repository made, has a first commit made in it, and
inserts the row of the project.  A failure of the commit or of the transaction
removes the repository again.  A failure of `GitStore::create` does not, since
it is left to that call.

The handler is the one of the endpoints, with the Git store as part of the
state (`createProject_run`).
-/

namespace Cresix.Server

open Concurrent (Program)
open Concurrent.Program (check)
open FileTree (Path Tree)
open Git (CreationCalls GitError FileChange CommitIdentity repositoryPath create Compensated Started
  Created)

/-! ## The handler -/

/-- What `create_project` does before it draws the identifier: the role of the caller. -/
def admitProject (config : Config) (headers : Headers) (input : ProjectRequest) :
    Handler String := do
  let p ← authenticate config headers true
  requireRole p input.workspaceId "maintainer"
  check (validateProject input)
  membershipRole p.userId input.workspaceId

/-- The files of the first commit. -/
def initialChanges (input : ProjectRequest) : List FileChange :=
  [.upsert "README.md" (Rust.bytes s!"# {input.name}\n\n{input.description}\n"),
    .upsert "c6.toml" (Rust.bytes "version = 1\n\n[build]\nstrategy = \"auto\"\n")]

/-- The first commit. -/
def initialCommit (calls : CreationCalls) (input : ProjectRequest) (repository : Path) (t : Tree) :
    Except GitError String × Tree :=
  calls.commitChanges repository input.defaultBranch none (initialChanges input)
    "Initialize C6 project" ⟨"C6", "c6@localhost"⟩ t

/-- `cleanup_new_repository`.  The identifier is a UUID. -/
def cleanupNewRepository (calls : CreationCalls) (id : String) (t : Tree) : Outcome Unit × Tree :=
  match t.node (repositoryPath id) with
  | some .dir =>
      let (done, t) := calls.removeDirAll (repositoryPath id) t
      (if done then .ok () else .error .internal, t)
  | _ => (.error .internal, t)

/-- Removes the repository, and returns the error. -/
def abandonProject (calls : CreationCalls) (id : String) (error : ApiError) (t : Tree) :
    Outcome Reply × Tree :=
  match cleanupNewRepository calls id t with
  | (.ok (), t) => (.error error, t)
  | (.error failure, t) => (.error failure, t)

/-- What `create_project` does once the repository is made. -/
def recordProject (calls : CreationCalls) (input : ProjectRequest) (callerRole id : String)
    (created : Instant) (repository : Path) (i : Input) (s : Store) (t : Tree) :
    Outcome Reply × Store × Tree :=
  match initialCommit calls input repository t with
  | (.error error, t) =>
      let (result, t) := abandonProject calls id (mapGit error) t
      (result, s, t)
  | (.ok headSha, t) =>
      match attempt .internal (createProjectTx input id headSha callerRole created) i s with
      | (.ok reply, s) => (.ok reply, s, t)
      | (.error error, s) =>
          let (result, t) := abandonProject calls id error t
          (result, s, t)

/-- What `create_project` does once the caller is admitted. -/
def makeProject (calls : CreationCalls) (input : ProjectRequest) (callerRole : String)
    (inputs : Nat → Input) (s : Store) (t : Tree) : Outcome Reply × Store × Tree :=
  let now := (inputs 0).readings s.clock
  let id := (inputs 0).random 0
  match create calls id t with
  | (.error error, t) => (.error (mapGit error), ⟨s.db, now.third⟩, t)
  | (.ok repository, t) =>
      recordProject calls input callerRole id now.first repository (inputs 1) ⟨s.db, now.third⟩ t

/-- `create_project`, with the Git store. -/
def createProjectIn (calls : CreationCalls) (config : Config) (headers : Headers)
    (input : ProjectRequest) (inputs : Nat → Input) (s : Store) (t : Tree) :
    Outcome Reply × Store × Tree :=
  match (admitProject config headers input).run inputs s with
  | (.error error, s, _) => (.error error, s, t)
  | (.ok callerRole, s, inputs) => makeProject calls input callerRole inputs s t

/-! ## What is left -/

/-- No identifier has a row or a directory that it had not before. -/
structure LeavesNoProject (s s' : Store) (t t' : Tree) : Prop where
  row : ∀ id, (∀ row ∈ s.db.projects, row.id ≠ id) → ∀ row ∈ s'.db.projects, row.id ≠ id
  directory : ∀ id, t.node (repositoryPath id) = none → t'.node (repositoryPath id) = none

/-- An error comes with neither a row nor a directory. -/
def CreatesOrLeavesNothing (s : Store) (t : Tree) (result : Outcome Reply × Store × Tree) : Prop :=
  ∀ error, result.1 = .error error → LeavesNoProject s result.2.1 t result.2.2

/-- What the handler of the endpoints makes of the repository: the identifier, the first commit,
the time, and whether the repository can be removed. -/
def repositoryAnswer (i : Input) (now : Readings) : Outcome (String × String × Instant × Bool) := do
  orGit i.create
  match i.commitChanges with
  | .ok headSha => .ok (i.random 0, headSha, now.first, i.cleanup)
  | .error error => .error (if i.cleanup then mapGit error else .internal)

/-- What the handler of the endpoints does once the caller is admitted. -/
def finishProject (input : ProjectRequest) (callerRole : String) : Handler Reply := do
  let (id, headSha, created, cleaned) ← consult repositoryAnswer
  (transaction (createProjectTx input id headSha callerRole created)).mapError
    fun error => if cleaned then error else .internal

section

variable {calls : CreationCalls} {config : Config} {headers : Headers} {input : ProjectRequest}
  {callerRole id : String} {inputs : Nat → Input} {i : Input} {s : Store} {t t' : Tree}
  {db : Database}

/-! ### Admission -/

/-- A query changes no table. -/
theorem query_tables {α : Type} (ask : Readings → Database → Outcome α) (hdb : s.db = db) :
    (query ask).Ends (fun _ u => u.db = db) s := by
  refine Program.Ends.step fun i => ?_
  rcases attempt_cases .internal (fun _ now db => do
      let value ← ask now db
      return (value, db)) i s with ⟨value, db', hwork, heq⟩ | ⟨error, heq⟩
  · obtain ⟨value', -, hwork⟩ := bind_eq_ok.mp hwork
    cases hwork
    rw [heq]
    exact hdb
  · rw [heq]
    exact hdb

/-- One program after the other, neither of which changes a table. -/
theorem tables_bind {α β : Type} {p : Handler α} {k : α → Handler β}
    (h : p.Ends (fun _ u => u.db = db) s)
    (hk : ∀ value u, u.db = db → (k value).Ends (fun _ v => v.db = db) u) :
    (p >>= k).Ends (fun _ v => v.db = db) s :=
  h.bind hk fun _ _ hdb => hdb

theorem authenticate_tables (csrf : Bool) (hdb : s.db = db) :
    (authenticate config headers csrf).Ends (fun _ u => u.db = db) s := by
  refine tables_bind (.check hdb) fun _ u hu => ?_
  refine tables_bind (.check hu) fun _ u hu => ?_
  refine tables_bind (query_tables _ hu) fun _ u hu => ?_
  exact tables_bind (.check hu) fun _ _ hv => hv

/-- To be admitted changes no table. -/
theorem admitProject_tables (config : Config) (headers : Headers) (input : ProjectRequest)
    (inputs : Nat → Input) (s : Store) :
    ((admitProject config headers input).run inputs s).2.1.db = s.db := by
  refine Program.Ends.run (Q := fun _ (u : Store) => u.db = s.db) ?_ inputs
  refine tables_bind (authenticate_tables true rfl) fun p u hu => ?_
  refine tables_bind (query_tables _ hu) fun _ u hu => ?_
  refine tables_bind (.check hu) fun _ u hu => ?_
  exact query_tables _ hu

/-! ### The repository -/

/-- Where nothing is left of one repository and the others are as they were, there is no new one. -/
theorem directory_of_gone (hgone : t'.node (repositoryPath id) = none)
    (houtside : ∀ p, ¬repositoryPath id <+: p → t'.node p = t.node p) (id' : String)
    (hfree : t.node (repositoryPath id') = none) : t'.node (repositoryPath id') = none := by
  by_cases hprefix : repositoryPath id <+: repositoryPath id'
  · rw [← hprefix.eq_of_length rfl]
    exact hgone
  · rw [houtside _ hprefix, hfree]

/-- A repository that is there is removed. -/
theorem abandonProject_of_dir (hremoves : calls.Removes) (error : ApiError)
    (hdir : t.node (repositoryPath id) = some .dir) :
    abandonProject calls id error t =
      (.error error, (calls.removeDirAll (repositoryPath id) t).2) := by
  unfold abandonProject cleanupNewRepository
  rw [hdir]
  simp [hremoves (repositoryPath id) t]

theorem initialCommit_inside (hlaw : calls.Lawful) (input : ProjectRequest) (repository : Path)
    (t : Tree) : Git.Inside repository t (initialCommit calls input repository t).2 :=
  hlaw.commitChanges _ _ _ _ _ _ _

/-- Removing the repository leaves what there was before it was made. -/
theorem removeDirAll_gone (hlaw : calls.Lawful) (hremoves : calls.Removes)
    (houtside : ∀ p, ¬repositoryPath id <+: p → t'.node p = t.node p) (id' : String)
    (hfree : t.node (repositoryPath id') = none) :
    (calls.removeDirAll (repositoryPath id) t').2.node (repositoryPath id') = none := by
  have hremoved := hlaw.removeDirAll (repositoryPath id) t'
  refine directory_of_gone (hremoved.gone (hremoves _ _)) (fun p hp => ?_) id' hfree
  rw [hremoved.outside p hp, houtside p hp]

/-- A failure after the repository is made removes it, and inserts no row. -/
theorem recordProject_error (hlaw : calls.Lawful) (hremoves : calls.Removes) {created : Instant}
    (hdir : t'.node (repositoryPath id) = some .dir)
    (houtside : ∀ p, ¬repositoryPath id <+: p → t'.node p = t.node p) {error : ApiError}
    (h : (recordProject calls input callerRole id created (repositoryPath id) i s t').1 =
      .error error) :
    (recordProject calls input callerRole id created (repositoryPath id) i s t').2.1.db = s.db ∧
      ∀ id', t.node (repositoryPath id') = none →
        (recordProject calls input callerRole id created (repositoryPath id) i s t').2.2.node
          (repositoryPath id') = none := by
  have hinside := initialCommit_inside hlaw input (repositoryPath id) t'
  unfold recordProject at h ⊢
  cases hcommit : initialCommit calls input (repositoryPath id) t' with
  | mk result t₁ =>
      rw [hcommit] at hinside
      have hdir₁ : t₁.node (repositoryPath id) = some .dir := hinside.itself.trans hdir
      have houtside₁ : ∀ p, ¬repositoryPath id <+: p → t₁.node p = t.node p :=
        fun p hp => (hinside.outside p hp).trans (houtside p hp)
      have hgone := removeDirAll_gone hlaw hremoves houtside₁
      rw [hcommit] at h
      cases result with
      | error failure =>
          simp only [abandonProject_of_dir hremoves _ hdir₁]
          exact ⟨trivial, hgone⟩
      | ok headSha =>
          rcases attempt_cases .internal (createProjectTx input id headSha callerRole created) i s
            with ⟨reply, db', -, heq⟩ | ⟨failure, heq⟩
          · simp only [heq] at h
            cases h
          · simp only [heq, abandonProject_of_dir hremoves _ hdir₁]
            exact ⟨trivial, hgone⟩

theorem makeProject_of_error {error : GitError}
    (h : create calls ((inputs 0).random 0) t = (.error error, t')) :
    makeProject calls input callerRole inputs s t =
      (.error (mapGit error), ⟨s.db, ((inputs 0).readings s.clock).third⟩, t') := by
  unfold makeProject
  simp only [h]

theorem makeProject_of_ok {repository : Path}
    (h : create calls ((inputs 0).random 0) t = (.ok repository, t')) :
    makeProject calls input callerRole inputs s t =
      recordProject calls input callerRole ((inputs 0).random 0)
        ((inputs 0).readings s.clock).first repository (inputs 1)
        ⟨s.db, ((inputs 0).readings s.clock).third⟩ t' := by
  unfold makeProject
  simp only [h]

/-- Once the caller is admitted, a failure leaves neither a row nor a directory if and only if the
creation of the repository is compensated. -/
theorem makeProject_iff (hlaw : calls.Lawful) (hremoves : calls.Removes) (input : ProjectRequest)
    (callerRole : String) (inputs : Nat → Input) (s : Store) (t : Tree) :
    CreatesOrLeavesNothing s t (makeProject calls input callerRole inputs s t) ↔
      Compensated calls ((inputs 0).random 0) t := by
  have hcreated := Git.create_created hlaw hremoves ((inputs 0).random 0) t
  have houtside : ∀ p, ¬repositoryPath ((inputs 0).random 0) <+: p →
      (create calls ((inputs 0).random 0) t).2.node p = t.node p :=
    fun p hp => Git.create_outside hlaw _ t hp
  generalize hcreate : create calls ((inputs 0).random 0) t = created at hcreated houtside
  obtain ⟨result, t'⟩ := created
  cases hcreated with
  | refused hnever =>
      rw [makeProject_of_error hcreate]
      refine iff_of_true (fun _ _ => ⟨fun _ hrow => hrow, fun _ hfree => hfree⟩) ?_
      intro t₁ hstarted
      exact absurd hstarted (hnever t₁)
  | abandoned hfree hdir hother hnot =>
      rw [makeProject_of_error hcreate]
      refine iff_of_false ?_ hnot
      intro hleaves
      cases hdir.symm.trans ((hleaves _ rfl).directory _ hfree)
  | removed hgone hcompensated =>
      rw [makeProject_of_error hcreate]
      refine iff_of_true (fun _ _ => ⟨fun _ hrow => hrow, ?_⟩) hcompensated
      exact directory_of_gone hgone houtside
  | opened hfree hdir hcompensated =>
      rw [makeProject_of_ok hcreate]
      refine iff_of_true (fun error herror => ?_) hcompensated
      obtain ⟨htables, hgone⟩ := recordProject_error hlaw hremoves hdir houtside herror
      refine ⟨fun id hrow => ?_, hgone⟩
      rw [htables]
      exact hrow

/-! ### The handler of the endpoints -/

/-- What the handler of the endpoints is told is what the calls do. -/
structure Told (calls : CreationCalls) (input : ProjectRequest) (t : Tree) (i : Input) : Prop where
  create : i.create = (create calls (i.random 0) t).1.map fun _ => ()
  commitChanges : i.commitChanges =
    (initialCommit calls input (repositoryPath (i.random 0)) (Git.create calls (i.random 0) t).2).1
  cleanup : i.cleanup = true

theorem createProject_eq (config : Config) (headers : Headers) (input : ProjectRequest) :
    createProject config headers input =
      admitProject config headers input >>= finishProject input := by
  unfold createProject admitProject finishProject
  simp only [Program.sequence_assoc]
  rfl

theorem finishProject_of_error {error : ApiError}
    (h : repositoryAnswer (inputs 0) ((inputs 0).readings s.clock) = .error error) :
    ((finishProject input callerRole).run inputs s).1 = .error error ∧
      ((finishProject input callerRole).run inputs s).2.1 =
        ⟨s.db, ((inputs 0).readings s.clock).third⟩ := by
  unfold finishProject consult
  rw [Program.run_bind, Program.run_step]
  dsimp only
  rw [h]
  exact ⟨rfl, rfl⟩

theorem finishProject_of_ok {headSha : String} {created : Instant}
    (h : repositoryAnswer (inputs 0) ((inputs 0).readings s.clock) =
      .ok (id, headSha, created, true)) :
    ((finishProject input callerRole).run inputs s).1 =
        (attempt .internal (createProjectTx input id headSha callerRole created) (inputs 1)
          ⟨s.db, ((inputs 0).readings s.clock).third⟩).1 ∧
      ((finishProject input callerRole).run inputs s).2.1 =
        (attempt .internal (createProjectTx input id headSha callerRole created) (inputs 1)
          ⟨s.db, ((inputs 0).readings s.clock).third⟩).2 := by
  unfold finishProject consult transaction underLock
  rw [Program.run_bind, Program.run_step]
  dsimp only
  rw [h]
  dsimp only
  rw [Program.run_mapError, Program.run_step]
  refine ⟨?_, rfl⟩
  dsimp only
  cases (attempt .internal (createProjectTx input id headSha callerRole created) (inputs 1)
    ⟨s.db, ((inputs 0).readings s.clock).third⟩).1 with
  | error error => rfl
  | ok reply => rfl

theorem finishProject_run (hlaw : calls.Lawful) (hremoves : calls.Removes)
    (htold : ∀ n, Told calls input t (inputs n)) :
    ((finishProject input callerRole).run inputs s).1 =
        (makeProject calls input callerRole inputs s t).1 ∧
      ((finishProject input callerRole).run inputs s).2.1 =
        (makeProject calls input callerRole inputs s t).2.1 := by
  have hcreated := Git.create_created hlaw hremoves ((inputs 0).random 0) t
  obtain ⟨hcreate, hcommit, hcleanup⟩ := htold 0
  generalize hmade : create calls ((inputs 0).random 0) t = made at hcreated hcreate hcommit
  obtain ⟨result, t'⟩ := made
  cases result with
  | error error =>
      rw [makeProject_of_error hmade]
      apply finishProject_of_error
      unfold repositoryAnswer
      rw [hcreate]
      rfl
  | ok repository =>
      obtain ⟨hdir, rfl⟩ : t'.node repository = some .dir ∧
          repository = repositoryPath ((inputs 0).random 0) := by
        cases hcreated with
        | opened _ hdir _ => exact ⟨hdir, rfl⟩
      have hinside := initialCommit_inside hlaw input (repositoryPath ((inputs 0).random 0)) t'
      rw [makeProject_of_ok hmade]
      unfold recordProject
      generalize hcommits : initialCommit calls input (repositoryPath ((inputs 0).random 0)) t' =
        committed at hinside
      obtain ⟨result, t₁⟩ := committed
      have hdir₁ : t₁.node (repositoryPath ((inputs 0).random 0)) = some .dir :=
        hinside.itself.trans hdir
      dsimp only at hcommit
      rw [hcommits] at hcommit
      cases result with
      | error failure =>
          simp only [abandonProject_of_dir hremoves _ hdir₁]
          apply finishProject_of_error
          unfold repositoryAnswer
          rw [hcreate, hcommit, hcleanup]
          rfl
      | ok headSha =>
          have hanswer : repositoryAnswer (inputs 0) ((inputs 0).readings s.clock) =
              .ok ((inputs 0).random 0, headSha, ((inputs 0).readings s.clock).first, true) := by
            unfold repositoryAnswer
            rw [hcreate, hcommit, hcleanup]
            rfl
          rw [(finishProject_of_ok hanswer).1, (finishProject_of_ok hanswer).2]
          cases hattempt : attempt .internal (createProjectTx input ((inputs 0).random 0) headSha
              callerRole ((inputs 0).readings s.clock).first) (inputs 1)
              ⟨s.db, ((inputs 0).readings s.clock).third⟩ with
          | mk answer u =>
              cases answer with
              | ok reply =>
                  simp only [hattempt]
                  exact ⟨trivial, trivial⟩
              | error failure =>
                  simp only [hattempt, abandonProject_of_dir hremoves _ hdir₁]
                  exact ⟨trivial, trivial⟩

/-- The handler of the endpoints answers and leaves the tables as `create_project` does with the
Git store, if it is told what the calls do. -/
theorem createProject_run (hlaw : calls.Lawful) (hremoves : calls.Removes)
    (htold : ∀ n, Told calls input t (inputs n)) :
    ((createProject config headers input).run inputs s).1 =
        (createProjectIn calls config headers input inputs s t).1 ∧
      ((createProject config headers input).run inputs s).2.1 =
        (createProjectIn calls config headers input inputs s t).2.1 := by
  have hrest : ∀ n, Told calls input t
      (((admitProject config headers input).run inputs s).2.2 n) :=
    Program.run_inputs _ htold
  rw [createProject_eq, Program.run_bind]
  unfold createProjectIn
  generalize (admitProject config headers input).run inputs s = admitted at hrest
  obtain ⟨result, u, rest⟩ := admitted
  cases result with
  | error error => exact ⟨rfl, rfl⟩
  | ok callerRole => exact finishProject_run hlaw hremoves hrest

/-! ### The whole handler -/

/-- A request that is refused leaves nothing, and one that is admitted does as its creation. -/
theorem createProjectIn_iff (hlaw : calls.Lawful) (hremoves : calls.Removes) (config : Config)
    (headers : Headers) (input : ProjectRequest) (inputs : Nat → Input) (s : Store) (t : Tree) :
    CreatesOrLeavesNothing s t (createProjectIn calls config headers input inputs s t) ↔
      ∀ callerRole u rest,
        (admitProject config headers input).run inputs s = (.ok callerRole, u, rest) →
          Compensated calls ((rest 0).random 0) t := by
  have htables := admitProject_tables config headers input inputs s
  unfold createProjectIn
  generalize (admitProject config headers input).run inputs s = admitted at htables
  obtain ⟨result, u, rest⟩ := admitted
  cases result with
  | error error =>
      refine iff_of_true (fun _ _ => ⟨fun id hrow => ?_, fun _ hfree => hfree⟩) ?_
      · rw [htables]
        exact hrow
      · intro callerRole v rest' h
        cases h
  | ok callerRole =>
      have hmake := makeProject_iff hlaw hremoves input callerRole rest u t
      have hstore : CreatesOrLeavesNothing s t (makeProject calls input callerRole rest u t) ↔
          CreatesOrLeavesNothing u t (makeProject calls input callerRole rest u t) := by
        refine forall₂_congr fun error _ => ⟨fun h => ⟨?_, h.directory⟩, fun h => ⟨?_, h.directory⟩⟩
        · rw [htables]
          exact h.row
        · rw [← htables]
          exact h.row
      rw [hstore, hmake]
      constructor
      · intro hcompensated callerRole' v rest' h
        cases h
        exact hcompensated
      · intro h
        exact h callerRole u rest rfl

/-- The creation of a repository and the creation of a project leave nothing behind when they fail,
if and only if the creation of the directory is compensated where it is done. -/
theorem creation_atomic_iff (hlaw : calls.Lawful) (hremoves : calls.Removes) (slug : String)
    (config : Config) (headers : Headers) (input : ProjectRequest) (inputs : Nat → Input)
    (s : Store) (t : Tree) :
    (Git.LeavesNoDirectory slug t (create calls slug t) ↔ Compensated calls slug t) ∧
      (CreatesOrLeavesNothing s t (createProjectIn calls config headers input inputs s t) ↔
        ∀ callerRole u rest,
          (admitProject config headers input).run inputs s = (.ok callerRole, u, rest) →
            Compensated calls ((rest 0).random 0) t) :=
  ⟨Git.create_leaves_iff hlaw hremoves slug t,
    createProjectIn_iff hlaw hremoves config headers input inputs s t⟩

end

/-! ## Where Git is not installed -/

/-- A store without repositories. -/
def emptyGitRoot : Tree where
  node path := if path = [] then some .dir else none
  closed path name h := by
    rw [if_neg (List.append_ne_nil_of_right_ne_nil path (List.cons_ne_nil name []))] at h
    exact absurd rfl h

/-- The calls where there is no `git` to run. -/
def withoutGit : CreationCalls where
  createDir path t := t.mkdir path
  init _ t := (.error .unavailable, t)
  probe _ _ := .error .gitUnavailable
  commitChanges _ _ _ _ _ _ t := (.error .gitUnavailable, t)
  removeDirAll path t := (true, t.without path)

theorem withoutGit_lawful : withoutGit.Lawful where
  createDir _ _ := .inr rfl
  init _ _ := ⟨rfl, fun _ _ => rfl⟩
  probe _ _ _ h := by cases h
  commitChanges _ _ _ _ _ _ _ := ⟨rfl, fun _ _ => rfl⟩
  removeDirAll path t := .wholly t path

theorem withoutGit_removes : withoutGit.Removes := fun _ _ => rfl

def sampleProject : ProjectRequest := ⟨"workspace-1", "site", "Site", "", "main"⟩

def sampleProjectInput : Input := sampleInput ["5f0c1b52-6d0e-4a9b-8a53-0d2f3c4b5a69"]

/-- The server once it has a workspace. -/
def sampleStore : Store :=
  ((stateAfter sampleConfig sampleWorkspace).map (·.pool.state)).getD ⟨.empty, 0⟩

theorem creation_atomic_iff_withoutGit :
    (Git.LeavesNoDirectory "site" emptyGitRoot (create withoutGit "site" emptyGitRoot) ↔
        Compensated withoutGit "site" emptyGitRoot) ∧
      (CreatesOrLeavesNothing sampleStore emptyGitRoot (createProjectIn withoutGit sampleConfig
          sampleHeaders sampleProject (fun _ => sampleProjectInput) sampleStore emptyGitRoot) ↔
        ∀ callerRole u rest,
          (admitProject sampleConfig sampleHeaders sampleProject).run
              (fun _ => sampleProjectInput) sampleStore = (.ok callerRole, u, rest) →
            Compensated withoutGit ((rest 0).random 0) emptyGitRoot) :=
  creation_atomic_iff withoutGit_lawful withoutGit_removes "site" sampleConfig sampleHeaders
    sampleProject (fun _ => sampleProjectInput) sampleStore emptyGitRoot

theorem creation_leaves_directories :
    (withoutGit.Lawful ∧ withoutGit.Removes) ∧
      ¬Git.LeavesNoDirectory "site" emptyGitRoot (create withoutGit "site" emptyGitRoot) ∧
      ¬CreatesOrLeavesNothing sampleStore emptyGitRoot (createProjectIn withoutGit sampleConfig
        sampleHeaders sampleProject (fun _ => sampleProjectInput) sampleStore emptyGitRoot) := by
  refine ⟨⟨withoutGit_lawful, withoutGit_removes⟩, ?_, ?_⟩
  · intro hleaves
    have hleft : (create withoutGit "site" emptyGitRoot).2.node (repositoryPath "site") =
        some .dir := by
      decide +kernel
    have hgone := hleaves .gitUnavailable (by decide +kernel) (fun name h => (by cases h))
      (by decide +kernel)
    cases hleft.symm.trans hgone
  · intro hleaves
    have hleft : (createProjectIn withoutGit sampleConfig sampleHeaders sampleProject
        (fun _ => sampleProjectInput) sampleStore emptyGitRoot).2.2.node
          (repositoryPath "5f0c1b52-6d0e-4a9b-8a53-0d2f3c4b5a69") = some .dir := by
      decide +kernel
    have hgone := (hleaves .internal (by decide +kernel)).directory
      "5f0c1b52-6d0e-4a9b-8a53-0d2f3c4b5a69" (by decide +kernel)
    cases hleft.symm.trans hgone

end Cresix.Server
