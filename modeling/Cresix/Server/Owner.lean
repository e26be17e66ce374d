import Cresix.Server.Steps

/-!
# The administrator of the server

The setting `server_owner_id`, the table of users and the invitations are tied
together by `Administered`, which every effect keeps: the first user of an
empty server becomes its administrator, only the administrator revokes users,
and only others than themselves.  So the back-fill at a start finds nothing to
do.
-/

namespace Cresix.Server

open Transition (System Event)

/-- There are users once there is an administrator, who is one of them and was
not revoked. -/
structure Database.Administered (db : Database) : Prop where
  owner_iff : db.serverOwner.isSome ↔ db.users ≠ []
  /-- The administrator has a row. -/
  present : ∀ userId, db.serverOwner = some userId → ∃ user ∈ db.users, user.id = userId
  live : ∀ userId, db.serverOwner = some userId →
    ∀ user ∈ db.users, user.id = userId → user.revokedAt = none
  /-- Only the administrator invites. -/
  invited : db.invites ≠ [] → db.serverOwner.isSome

theorem Database.Administered.empty : Administered .empty where
  owner_iff := ⟨fun h => Bool.noConfusion h, fun h => absurd rfl h⟩
  present := fun userId h => by
    have hnone : (none : Option String) = some userId := h
    cases hnone
  live := fun _ _ user huser => absurd huser List.not_mem_nil
  invited := fun h => absurd rfl h

section

variable {config : Config} {now : Instant} {db db' : Database} {endpoint : Endpoint} {user : String}

theorem serverOwner_of_claim (db : Database) (users : List UserRow) (devices : List DeviceRow)
    (sessions : List SessionRow) (userId : String) :
    Database.serverOwner { db with
      settings := (db.settings.insert "server_owner_id" userId).erase "bootstrap_hash"
      users, devices, sessions } = some userId := by
  show Finmap.lookup _ (Finmap.erase _ (Finmap.insert _ _ _)) = _
  rw [Finmap.lookup_erase_ne (by decide), Finmap.lookup_insert]

/-- The step lemma. -/
theorem Effect.administered (h : Effect config now db endpoint user db')
    (ha : db.Administered) : db'.Administered := by
  cases h with
  | claim owner husers _ hlive _ _ _ =>
      have howner := serverOwner_of_claim db (db.users ++ [owner])
      refine ⟨?_, ?_, ?_, ?_⟩
      · rw [howner]
        exact ⟨fun _ => by simp, fun _ => rfl⟩
      · intro userId hsome
        rw [howner] at hsome
        cases hsome
        exact ⟨owner, by simp, rfl⟩
      · intro userId _ row hrow _
        rw [husers, List.nil_append] at hrow
        rw [List.mem_singleton.mp hrow]
        exact hlive
      · intro _
        rw [howner]
        rfl
  | redeem invite _ newUser hinvite _ _ _ hfresh _ _ _ _ =>
      have hsome := ha.invited (List.ne_nil_of_mem hinvite)
      refine ⟨⟨fun _ => by simp, fun _ => hsome⟩, ?_, ?_, fun _ => hsome⟩
      · intro userId howner
        obtain ⟨row, hrow, hid⟩ := ha.present userId howner
        exact ⟨row, List.mem_append_left _ hrow, hid⟩
      · intro userId howner row hrow hid
        rcases List.mem_append.mp hrow with hold | hnew
        · exact ha.live userId howner row hold hid
        · obtain ⟨old, hold, hold'⟩ := ha.present userId howner
          rw [List.mem_singleton.mp hnew] at hid
          exact absurd (hid.trans hold'.symm) (hfresh old hold)
  | createInvite howner _ _ _ _ =>
      exact ⟨ha.owner_iff, ha.present, ha.live, fun _ => Option.isSome_iff_exists.mpr ⟨_, howner⟩⟩
  | @revokePeer id _ _ _ _ howner hother =>
      refine ⟨?_, ?_, ?_, ha.invited⟩
      · refine ha.owner_iff.trans (not_congr ?_)
        exact List.map_eq_nil_iff.symm
      · intro userId howner'
        obtain ⟨row, hrow, hid⟩ := ha.present userId howner'
        refine ⟨_, List.mem_map.mpr ⟨row, hrow, rfl⟩, ?_⟩
        split
        next => exact hid
        next => exact hid
      · intro userId howner' row hrow hid
        obtain ⟨old, hold, rfl⟩ := Table.mem_update hrow
        have howner'' : db.serverOwner = some userId := howner'
        rw [howner] at howner''
        cases howner''
        split at hid
        next hrevoked =>
          have hid' : old.id = id := of_decide_eq_true (Bool.and_eq_true_iff.mp hrevoked).1
          exact absurd (hid.symm.trans hid') hother
        next hkept =>
          rw [if_neg hkept]
          exact ha.live _ howner old hold hid
  | _ => exact ⟨ha.owner_iff, ha.present, ha.live, ha.invited⟩

/-- The back-fill finds nothing to do. -/
theorem Database.Administered.backfillServerOwner (ha : db.Administered) :
    Server.backfillServerOwner db = db := by
  cases howner : db.serverOwner with
  | some userId => exact backfillServerOwner_of_some howner
  | none =>
      have husers : db.users = [] := by
        by_contra hne
        have hsome := ha.owner_iff.mpr hne
        rw [howner] at hsome
        cases hsome
      unfold Server.backfillServerOwner
      rw [husers]
      rfl

end

section

variable {config : Config} {x y : Process} {a : Action} {tr : List (Event Process Action)}

theorem Moves.administered {R : Request → Store → Store → Prop} (h : Moves config R x a y)
    (ha : x.db.Administered) : y.db.Administered := by
  cases h with
  | same _ hdb => exact hdb ▸ ha
  | ensureServer _ hdb =>
      obtain ⟨settings, heq, howner⟩ := ensureServer_eq_ok hdb
      rw [heq] at howner ⊢
      exact ⟨howner ▸ ha.owner_iff, howner ▸ ha.present, howner ▸ ha.live, howner ▸ ha.invited⟩
  | backfillServerOwner _ hdb =>
      rw [hdb, ha.backfillServerOwner]
      exact ha
  | serve _ _ hchange =>
      obtain ⟨user, heffect, _⟩ := hchange
      exact heffect.administered ha

theorem administered_of_reachable (h : (system config).Reachable x) : x.db.Administered := by
  refine System.Reachable.induction (I := fun x => x.db.Administered) ?_ ?_ h
  · rintro x ⟨clock, rfl⟩
    exact .empty
  · intro x a y hx ha hstep
    exact (moves_of_reachable hx hstep).administered ha

/-! ## The claim -/

/-- A claim of the server is answered with a session. -/
def Claims (e : Event Process Action) : Prop :=
  (∃ headers input, served e = some ⟨headers, .claim input⟩) ∧
    ∃ reply, answered e = some (.ok reply)

/-- The server is claimed when it has no user, and has one then. -/
theorem users_of_claims (hx : (system config).Reachable x) (hstep : (system config).step x a y)
    (hclaims : Claims ⟨x, a, y⟩) : x.db.users = [] ∧ y.db.users ≠ [] := by
  obtain ⟨⟨headers, input, hserved⟩, reply, hanswered⟩ := hclaims
  cases a with
  | serve n i =>
      rcases serve_transaction hx hstep hserved rfl with ⟨reply', hwork, _⟩ | ⟨_, error, herror⟩
      · obtain ⟨user, heffect⟩ : ∃ user, Effect config x.clock x.db (.claim input) user y.db :=
          claimTx_effect hwork
        generalize hdb : y.db = db at heffect
        cases heffect with
        | claim user husers _ _ _ _ _ => exact ⟨husers, by simp⟩
        | useCredential htoken => cases htoken
        | record hrecords => cases hrecords
      · rw [herror] at hanswered
        cases hanswered
  | _ => cases hserved

/-- In every run from an empty database there is an administrator exactly when
there are users; the administrator stays the same and is never revoked; and the
server is claimed once at most. -/
theorem administrator_invariant {clock : Instant}
    (hrun : (system config).Run (.initial clock) tr x) :
    (x.db.serverOwner.isSome ↔ x.db.users ≠ []) ∧
    (∀ userId, x.db.serverOwner = some userId →
      (∃ user ∈ x.db.users, user.id = userId) ∧
      ∀ user ∈ x.db.users, user.id = userId → user.revokedAt = none) ∧
    (∀ e ∈ tr, ∀ userId, e.pre.db.serverOwner = some userId →
      x.db.serverOwner = some userId) ∧
    ∀ before e after, tr = before ++ e :: after → Claims e → ∀ e' ∈ after, ¬ Claims e' := by
  have hstart : (system config).Reachable (.initial clock) := .of_start ⟨clock, rfl⟩
  have ha := administered_of_reachable (hstart.run hrun)
  refine ⟨ha.owner_iff, fun userId howner => ⟨ha.present userId howner, ha.live userId howner⟩,
    ?_, ?_⟩
  · intro e he userId howner
    obtain ⟨before, after, _, hbefore, hstep, hafter⟩ := hrun.split he
    have hpre := hstart.run hbefore
    exact (evolves_of_run hpre (.cons hstep hafter)).owner userId howner
  · rintro before e after rfl hclaims e' he' hclaims'
    obtain ⟨hbefore, hstep, hafter⟩ := hrun.split_at
    have hpre := hstart.run hbefore
    obtain ⟨middle, _, _, hmiddle, hstep', _⟩ := hafter.split he'
    have hpre' := (hpre.step hstep).run hmiddle
    obtain ⟨_, husers⟩ := users_of_claims hpre hstep hclaims
    obtain ⟨hnone, _⟩ := users_of_claims hpre' hstep' hclaims'
    obtain ⟨user, hmem⟩ := List.exists_mem_of_ne_nil _ husers
    obtain ⟨user', hmem', _⟩ := (evolves_of_run (hpre.step hstep) hmiddle).users.mem hmem
    have hnone' : e'.pre.pool.state.db.users = [] := hnone
    rw [hnone'] at hmem'
    cases hmem'

end

/-- A claim makes the first user the administrator. -/
theorem administrator_invariant_claim :
    ∃ tr x, (system sampleConfig).Run (.initial 0) tr x ∧ x.db.serverOwner = some "user-1" ∧
      x.db.users ≠ [] ∧ ∀ user ∈ x.db.users, user.id = "user-1" → user.revokedAt = none := by
  have hdata : (stateAfter sampleConfig sampleClaim).map (·.db.serverOwner) =
      some (some "user-1") := by
    decide
  obtain ⟨x, hx, howner⟩ := Option.map_eq_some_iff.mp hdata
  have hrun := run_of_stateAfter hx
  obtain ⟨hiff, hlive, _⟩ := administrator_invariant hrun
  exact ⟨_, x, hrun, howner, hiff.mp (by rw [howner]; rfl), (hlive _ howner).2⟩

end Cresix.Server
