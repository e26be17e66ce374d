import Cresix.Server.Owner

/-!
# Where memberships come from

A membership row is written when its workspace is created, for the creator, or
when an invitation is redeemed, for the new user.  `Invited` and `Joined` say
which events of a run these are; a run carries them along for all rows of the
two tables (`provenance_of_run`).  An invitation that was redeemed is never
changed again, and a redemption needs one that was not.
-/

namespace Cresix.Server

open Transition (System Event)

section

variable (config : Config)

/-! ## Events -/

/-- The server answers a redemption of the invitation with a session. -/
def Redeems (e : Event Process Action) (invite : InviteRow) : Prop :=
  ∃ headers input reply, served e = some ⟨headers, .redeemInvite input⟩ ∧
    answered e = some (.ok reply) ∧ invite ∈ e.pre.db.invites ∧
    invite.tokenHash = config.hash input.token

/-- The event creates the invitation, for the administrator, who is an owner of
the workspace it names. -/
def Invited (e : Event Process Action) (invite : InviteRow) : Prop :=
  ∃ headers input created, served e = some ⟨headers, .createInvite input⟩ ∧
    Table.Fresh InviteRow.id created e.pre.db.invites ∧
    e.post.db.invites = e.pre.db.invites ++ [created] ∧ InviteRow.Kept created invite ∧
    e.pre.db.serverOwner = some invite.createdBy ∧
    ∀ workspaceId, invite.workspaceId = some workspaceId →
      e.pre.db.role invite.createdBy workspaceId = some "owner"

/-- The event creates the workspace of the row, for its user, who is the
administrator and becomes its owner. -/
def Founded (e : Event Process Action) (row : MembershipRow) : Prop :=
  ∃ headers input, served e = some ⟨headers, .createWorkspace input⟩ ∧
    Caller config Evolves headers row.userId e.pre.pool.state ∧
    e.pre.db.serverOwner = some row.userId ∧ row.role = "owner" ∧
    (∀ workspace ∈ e.pre.db.workspaces, workspace.id ≠ row.workspaceId) ∧
    e.post.db.memberships = e.pre.db.memberships ++ [row]

/-- The event redeems an invitation that names the workspace and the role of the
row, for the user of the row, who is new. -/
def Joined (e : Event Process Action) (invite : InviteRow) (row : MembershipRow) : Prop :=
  Redeems config e invite ∧ invite.workspaceId = some row.workspaceId ∧ invite.role = row.role ∧
    (∀ user ∈ e.pre.db.users, user.id ≠ row.userId) ∧
    e.post.db.memberships = e.pre.db.memberships ++ [row]

end

section

variable {config : Config} {x y : Process} {a : Action} {tr : List (Event Process Action)}

/-- Only `owner` has the rank of an owner. -/
theorem eq_owner_of_rank {role : String} (h : 5 ≤ roleRank role) : role = "owner" := by
  unfold roleRank at h
  split at h <;> first | rfl | omega

theorem role_of_hasRole_owner {db : Database} {userId workspaceId : String}
    (h : db.hasRole userId workspaceId "owner" = true) :
    db.role userId workspaceId = some "owner" := by
  obtain ⟨role, hrole, hrank⟩ := (Option.any_eq_true _ _).mp h
  rw [hrole, eq_owner_of_rank (of_decide_eq_true hrank)]

/-! ## Redemptions -/

/-- The transaction of a redemption changes the database as `Effect.redeem`
says, or the redemption is answered with an error and changes nothing. -/
theorem redemption_cases {headers : Headers} {input : RedeemRequest}
    (hx : (system config).Reachable x) (hstep : (system config).step x a y)
    (hserved : served ⟨x, a, y⟩ = some ⟨headers, .redeemInvite input⟩) :
    (∃ n i reply user, a = .serve n i ∧ answered ⟨x, a, y⟩ = some (.ok reply) ∧
      Effect config (i.readings x.clock).first x.db (.redeemInvite input) user y.db) ∨
    (y.db = x.db ∧ ∃ error, answered ⟨x, a, y⟩ = some (.error error)) := by
  cases a with
  | serve n i =>
      rcases serve_transaction hx hstep hserved rfl with ⟨reply, hwork, hanswered⟩ | herror
      · obtain ⟨user, heffect⟩ := redeemInviteTx_effect (le_refl _) hwork
        exact .inl ⟨n, i, reply, user, rfl, hanswered, heffect⟩
      · exact .inr herror
  | _ => cases hserved

/-- The redeemed invitation was good when the clock was read, and is marked. -/
theorem redeems_marks (hx : (system config).Reachable x) (hstep : (system config).step x a y)
    {invite : InviteRow} (hredeems : Redeems config ⟨x, a, y⟩ invite) :
    invite.redeemedAt = none ∧
      (∃ n i, a = .serve n i ∧ (i.readings x.clock).first < invite.expiresAt) ∧
      ∃ marked ∈ y.db.invites, marked.id = invite.id ∧ marked.redeemedAt.isSome := by
  obtain ⟨headers, input, reply, hserved, hanswered, hinvite, hhash⟩ := hredeems
  have hinvite' : invite ∈ x.db.invites := hinvite
  rcases redemption_cases hx hstep hserved with
    ⟨n, i, _, user, rfl, _, heffect⟩ | ⟨_, error, herror⟩
  · generalize hdb : y.db = db at heffect
    cases heffect with
    | redeem found at' newUser hfound hfoundHash hnone hexpiry _ _ _ _ _ =>
        have hsame : found = invite := (wellFormed_of_reachable hx).invitations found hfound
          invite hinvite' (hfoundHash.trans hhash.symm)
        subst hsame
        refine ⟨hnone, ⟨n, i, rfl, hexpiry⟩, _, List.mem_map.mpr ⟨found, hfound, rfl⟩, ?_, ?_⟩
        · split
          next => rfl
          next => rfl
        · rw [if_pos (by simp [hnone])]
          rfl
    | useCredential htoken => cases htoken
    | record hrecords => cases hrecords
  · rw [herror] at hanswered
    cases hanswered

/-- An invitation that was redeemed is not redeemed again. -/
theorem not_redeems_of_marked (hx : (system config).Reachable x)
    (hrun : (system config).Run x tr y) {marked : InviteRow} (hmarked : marked ∈ x.db.invites)
    (hsome : marked.redeemedAt.isSome) {z : Process} {a : Action}
    (hstep : (system config).step y a z) {invite : InviteRow}
    (hredeems : Redeems config ⟨y, a, z⟩ invite) : invite.id ≠ marked.id := by
  intro hid
  obtain ⟨hnone, _⟩ := redeems_marks (hx.run hrun) hstep hredeems
  obtain ⟨_, _, _, _, _, hinvite, _⟩ := hredeems
  obtain ⟨later, hlater, hkept⟩ := (evolves_of_run hx hrun).invites.mem hmarked
  have hsame : invite = later := (wellFormed_of_reachable (hx.run hrun)).invites invite hinvite
    later hlater (hid.trans hkept.id.symm)
  rw [hsame, hkept.redeemed hsome] at hnone
  rw [hnone] at hsome
  cases hsome

/-! ## Provenance -/

theorem Invited.kept {e : Event Process Action} {a b : InviteRow} (h : Invited e a)
    (hkept : InviteRow.Kept a b) : Invited e b := by
  obtain ⟨headers, input, created, hserved, hfresh, hpost, hcreated, howner, hrole⟩ := h
  refine ⟨headers, input, created, hserved, hfresh, hpost, hcreated.trans hkept, ?_, ?_⟩
  · rw [hkept.createdBy]
    exact howner
  · rw [hkept.createdBy, hkept.workspaceId]
    exact hrole

/-- The step lemma for the invitations. -/
theorem invited_of_step (hx : (system config).Reachable x) (hstep : (system config).step x a y)
    {invite : InviteRow} (hinvite : invite ∈ y.db.invites) :
    (∃ old ∈ x.db.invites, InviteRow.Kept old invite) ∨ Invited ⟨x, a, y⟩ invite := by
  have hmoves := moves_of_reachable hx hstep
  have hold : y.db.invites = x.db.invites → ∃ old ∈ x.db.invites, InviteRow.Kept old invite := by
    intro hsame
    exact ⟨invite, hsame ▸ hinvite, rfl, rfl, rfl, rfl, rfl, rfl, fun _ => rfl⟩
  cases hmoves with
  | same _ hdb => exact .inl (hold (by rw [hdb]))
  | ensureServer _ hdb =>
      obtain ⟨settings, heq, _⟩ := ensureServer_eq_ok hdb
      exact .inl (hold (by rw [heq]))
  | backfillServerOwner _ hdb =>
      obtain ⟨settings, heq⟩ := backfillServerOwner_eq x.db
      exact .inl (hold (by rw [hdb, heq]))
  | @serve n i request _ hserved hclock hchange =>
      obtain ⟨user, heffect, _⟩ := hchange
      obtain ⟨headers, endpoint⟩ := request
      have heffect' : Effect config x.clock x.db endpoint user y.db := heffect
      have hevolves := heffect'.evolves hclock
      generalize hdb : y.db = db at heffect'
      cases heffect' with
      | redeem _ _ _ _ _ _ _ _ _ _ _ _ =>
          rw [hdb] at hinvite
          obtain ⟨old, hmem, rfl⟩ := Table.mem_update hinvite
          refine .inl ⟨old, hmem, ?_⟩
          split
          next hmark =>
            refine ⟨rfl, rfl, rfl, rfl, rfl, rfl, fun hredeemed => ?_⟩
            rw [Option.isNone_iff_eq_none.mp (Bool.and_eq_true_iff.mp hmark).2] at hredeemed
            cases hredeemed
          next => exact ⟨rfl, rfl, rfl, rfl, rfl, rfl, fun _ => rfl⟩
      | @createInvite input created howner hrole hnone hfresh htoken =>
          rw [hdb] at hinvite
          rcases List.mem_append.mp hinvite with hmem | hnew
          · exact .inl ⟨invite, hmem, rfl, rfl, rfl, rfl, rfl, rfl, fun _ => rfl⟩
          · rw [List.mem_singleton.mp hnew]
            refine .inr ⟨headers, input, created, hserved, hfresh, ?_,
              ⟨rfl, rfl, rfl, rfl, rfl, rfl, fun _ => rfl⟩, howner,
              fun workspaceId hworkspace => role_of_hasRole_owner (hrole workspaceId hworkspace)⟩
            show y.db.invites = _
            rw [hdb]
      | _ => exact .inl (hold (by rw [hdb]))

/-- The step lemma for the memberships. -/
theorem member_of_step (hx : (system config).Reachable x) (hstep : (system config).step x a y)
    {row : MembershipRow} (hrow : row ∈ y.db.memberships) :
    row ∈ x.db.memberships ∨ Founded config ⟨x, a, y⟩ row ∨
      ∃ invite, Joined config ⟨x, a, y⟩ invite row := by
  have hmoves := moves_of_reachable hx hstep
  cases hmoves with
  | same _ hdb => exact .inl (hdb ▸ hrow)
  | ensureServer _ hdb =>
      obtain ⟨settings, heq, _⟩ := ensureServer_eq_ok hdb
      exact .inl (by rwa [heq] at hrow)
  | backfillServerOwner _ hdb =>
      obtain ⟨settings, heq⟩ := backfillServerOwner_eq x.db
      exact .inl (by rwa [hdb, heq] at hrow)
  | @serve n i request _ hserved hclock hchange =>
      obtain ⟨user, heffect, hcaller⟩ := hchange
      obtain ⟨headers, endpoint⟩ := request
      have heffect' : Effect config x.clock x.db endpoint user y.db := heffect
      generalize hdb : y.db = db at heffect'
      cases heffect' with
      | @redeem input invite at' newUser device session hinvite hhash hnone _ hfresh _ _ _ _ =>
          rw [hdb] at hrow
          rcases List.mem_append.mp hrow with hold | hnew
          · exact .inl hold
          · rcases redemption_cases hx hstep hserved with
              ⟨_, _, reply, _, _, hanswered, _⟩ | ⟨hsame, _⟩
            · refine .inr (.inr ⟨invite, ⟨headers, input, reply, hserved, hanswered, hinvite,
                hhash⟩, ?_⟩)
              have hmemberships : y.db.memberships =
                  x.db.memberships ++ invite.membershipsFor newUser.id := by rw [hdb]
              cases hworkspace : invite.workspaceId with
              | some workspaceId =>
                  rw [InviteRow.membershipsFor_of_some hworkspace] at hnew hmemberships
                  cases List.mem_singleton.mp hnew
                  exact ⟨rfl, rfl, fun old hold hid => hfresh old hold hid.symm,
                    hmemberships⟩
              | none =>
                  rw [InviteRow.membershipsFor_of_none hworkspace] at hnew
                  cases hnew
            · rw [hsame] at hdb
              have husers := congrArg (fun db : Database => db.users.length) hdb
              simp at husers
      | @createWorkspace input _ workspace howner hfresh _ hmember =>
          rw [hdb] at hrow
          rcases List.mem_append.mp hrow with hold | hnew
          · exact .inl hold
          · rw [List.mem_singleton.mp hnew]
            refine .inr (.inl ⟨headers, input, hserved, (hcaller rfl).1, howner, rfl,
              fun old hold hid => hfresh old hold hid.symm, ?_⟩)
            show y.db.memberships = _
            rw [hdb]
      | _ => exact .inl (by rwa [hdb] at hrow)

/-- Every invitation and every membership of a run has its event. -/
theorem provenance_of_run (hx : (system config).Reachable x) (hinvites : x.db.invites = [])
    (hmemberships : x.db.memberships = []) (hrun : (system config).Run x tr y) :
    (∀ invite ∈ y.db.invites, ∃ e ∈ tr, Invited e invite) ∧
    ∀ row ∈ y.db.memberships, ∃ before e after, tr = before ++ e :: after ∧
      (Founded config e row ∨ ∃ invite, Joined config e invite row ∧
        ∃ e' ∈ before, Invited e' invite) := by
  induction hrun with
  | refl =>
      rw [hinvites, hmemberships]
      exact ⟨fun invite h => absurd h List.not_mem_nil, fun row h => absurd h List.not_mem_nil⟩
  | @snoc tr y z a hbefore hstep ih =>
      obtain ⟨ihInvites, ihMembers⟩ := ih
      have hy := hx.run hbefore
      refine ⟨fun invite hinvite => ?_, fun row hrow => ?_⟩
      · rcases invited_of_step hy hstep hinvite with ⟨old, hold, hkept⟩ | hinvited
        · obtain ⟨e, he, hinvited⟩ := ihInvites old hold
          exact ⟨e, List.mem_append_left _ he, hinvited.kept hkept⟩
        · exact ⟨_, List.mem_append_right _ List.mem_cons_self, hinvited⟩
      · rcases member_of_step hy hstep hrow with hold | hfounded | ⟨invite, hjoined⟩
        · obtain ⟨before, e, after, rfl, horigin⟩ := ihMembers row hold
          exact ⟨before, e, after ++ [⟨y, a, z⟩], by simp, horigin⟩
        · exact ⟨tr, _, [], rfl, .inl hfounded⟩
        · obtain ⟨_, _, _, _, _, hinvite, _⟩ := hjoined.1
          exact ⟨tr, _, [], rfl, .inr ⟨invite, hjoined, ihInvites invite hinvite⟩⟩

/-- In every run from an empty database an invitation is redeemed once at most,
by a clock that has not reached its expiry; every membership was written when
its workspace was created, for the creator, or by the redemption of an
invitation to that workspace with that role, which the administrator had made
as an owner of the workspace; and a redemption that fails changes nothing. -/
theorem membership_provenance {clock : Instant}
    (hrun : (system config).Run (.initial clock) tr x) :
    (∀ before e after, tr = before ++ e :: after → ∀ invite, Redeems config e invite →
      invite.redeemedAt = none ∧
      (∃ n i, e.label = .serve n i ∧ (i.readings e.pre.clock).first < invite.expiresAt) ∧
      ∀ e' ∈ after, ∀ invite', Redeems config e' invite' → invite'.id ≠ invite.id) ∧
    (∀ row ∈ x.db.memberships, ∃ before e after, tr = before ++ e :: after ∧
      (Founded config e row ∨ ∃ invite, Joined config e invite row ∧
        ∃ e' ∈ before, Invited e' invite)) ∧
    ∀ e ∈ tr, ∀ headers input error, served e = some ⟨headers, .redeemInvite input⟩ →
      answered e = some (.error error) → e.post.db = e.pre.db := by
  have hstart : (system config).Reachable (.initial clock) := .of_start ⟨clock, rfl⟩
  refine ⟨?_, (provenance_of_run hstart rfl rfl hrun).2, ?_⟩
  · rintro before e after rfl invite hredeems
    obtain ⟨hbefore, hstep, hafter⟩ := hrun.split_at
    have hpre := hstart.run hbefore
    obtain ⟨hnone, hexpiry, marked, hmarked, hid, hsome⟩ := redeems_marks hpre hstep hredeems
    refine ⟨hnone, hexpiry, fun e' he' invite' hredeems' => ?_⟩
    obtain ⟨_, _, _, hmiddle, hstep', _⟩ := hafter.split he'
    rw [← hid]
    exact not_redeems_of_marked (hpre.step hstep) hmiddle hmarked hsome hstep' hredeems'
  · intro e he headers input error hserved hanswered
    obtain ⟨before, after, _, hbefore, hstep, _⟩ := hrun.split he
    rcases redemption_cases (hstart.run hbefore) hstep hserved with
      ⟨_, _, _, _, _, hok, _⟩ | ⟨hsame, _⟩
    · have hok' : answered e = some (.ok _) := hok
      rw [hok'] at hanswered
      cases hanswered
    · exact hsame

end

/-- The administrator opens a workspace and invites to it; a new user joins. -/
def sampleJoin : List Action :=
  sampleClaim ++
    [.request ⟨sampleHeaders, .createWorkspace ⟨"alpha", "Alpha"⟩⟩, .serve 1 (sampleInput []),
      .serve 1 (sampleInput []), .serve 1 (sampleInput ["workspace-1"]),
      .request ⟨sampleHeaders, .createInvite ⟨"reader", none, some "workspace-1"⟩⟩,
      .serve 2 (sampleInput []), .serve 2 (sampleInput []),
      .serve 2 (sampleInput ["invite-1", "token-2"]),
      .request ⟨⟨[], none, none, none, []⟩,
        .redeemInvite ⟨"token-2", "Bob", "phone", "another public key of forty bytes or so"⟩⟩,
      .serve 3 (sampleInput ["user-2", "device-2", "session-2", "token-3", "csrf-3"])]

theorem membership_provenance_join :
    ∃ tr x, (system sampleConfig).Run (.initial 0) tr x ∧
      x.db.memberships =
        [⟨"workspace-1", "user-1", "owner"⟩, ⟨"workspace-1", "user-2", "reader"⟩] ∧
      ∀ row ∈ x.db.memberships, ∃ before e after, tr = before ++ e :: after ∧
        (Founded sampleConfig e row ∨ ∃ invite, Joined sampleConfig e invite row ∧
          ∃ e' ∈ before, Invited e' invite) := by
  have hdata : (stateAfter sampleConfig sampleJoin).map (·.db.memberships) =
      some [⟨"workspace-1", "user-1", "owner"⟩, ⟨"workspace-1", "user-2", "reader"⟩] := by
    decide
  obtain ⟨x, hx, hmemberships⟩ := Option.map_eq_some_iff.mp hdata
  have hrun := run_of_stateAfter hx
  exact ⟨_, x, hrun, hmemberships, (membership_provenance hrun).2.1⟩

end Cresix.Server
