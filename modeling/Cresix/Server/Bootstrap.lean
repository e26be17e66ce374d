import Cresix.Rust.Base64
import Cresix.Rust.Fs
import Cresix.Server.Effect
import Cresix.Server.System

/-!
# The bootstrap token of the server

`ensure_server` with the token it generates: the file is written first, and the
database is told the hash of what is in the file.  A start may fail, or be
stopped, in each of its steps, and what it leaves (no file, an empty, a
truncated or a complete one) is what the next start finds.

`Ready` says that the token in the file is the one the database waits for.
`Prepared` is the invariant: it is ready whenever the server has an identifier
and is unclaimed.
-/

namespace Cresix.Server

open Concurrent (Program)
open Concurrent.Program (check)
open Rust (Disk DiskProgram File IoError Stop)
open Transition (System Event)

/-! ## Starting -/

/-- What a start draws: 32 random bytes and an identifier. -/
structure Draw where
  bytes : List UInt8
  length : bytes.length = 32
  serverId : String

/-- `random_token`. -/
def Draw.token (draw : Draw) : String := Rust.Base64.encode draw.bytes

/-- `validate_bootstrap_token`. -/
def validateBootstrapToken (token : String) : Except IoError Unit :=
  if 32 ≤ Rust.len token && Rust.len token ≤ 256
      && (Rust.bytes token).all (fun byte => Rust.isAsciiAlphanumeric byte || byte == 0x2d
        || byte == 0x5f) then
    .ok ()
  else .error (.bail "bootstrap token file contains an invalid token")

/-- `trim_end_matches(['\r', '\n'])`. -/
def trimNewlines (s : String) : String :=
  String.ofList (s.toList.reverse.dropWhile fun c => c = '\r' || c = '\n').reverse

/-- The token in a file, newlines trimmed. -/
def tokenIn (file : File) : Option String := (Rust.fromUtf8 file.content).map trimNewlines

/-- `write_bootstrap_token`. -/
def writeBootstrapToken (token : String) : DiskProgram Database Unit := do
  DiskProgram.createNew 0o600
  DiskProgram.writeAll (Rust.bytes token)
  DiskProgram.writeAll (Rust.bytes "\n")
  DiskProgram.syncAll

/-- The token of a file that is there. -/
def loadBootstrapToken (file : File) : Except IoError String :=
  if !file.regular then .error (.bail "bootstrap token path must be a regular file")
  else if file.mode ≠ 0o600 then .error (.bail "bootstrap token file must have mode 0600")
  else
    match tokenIn file with
    | none => .error (.bail "read existing bootstrap token file")
    | some token => (validateBootstrapToken token).map fun _ => token

/-- `load_or_create_bootstrap_token`. -/
def loadOrCreateBootstrapToken (draw : Draw) : DiskProgram Database String := do
  match ← DiskProgram.read fun disk => .ok disk.file with
  | some file => DiskProgram.read fun _ => loadBootstrapToken file
  | none => do
      writeBootstrapToken draw.token
      pure draw.token

/-- The transaction of `ensure_server`. -/
def ensureServerTx (config : Config) (token serverId : String) (db : Database) :
    Except IoError Database :=
  (ensureServer config token serverId db).mapError fun _ => .bail "settings"

/-- `ensure_server`, without a supplied token. -/
def ensureGenerated (config : Config) (draw : Draw) : DiskProgram Database Unit := do
  if ← DiskProgram.read fun disk => .ok (decide ("server_id" ∈ disk.db.settings)) then pure ()
  else do
    let token ← loadOrCreateBootstrapToken draw
    DiskProgram.transaction (ensureServerTx config token draw.serverId)

/-- `open_state`: the steps before `ensure_server`, and those after it. -/
def openState (config : Config) (draw : Draw) : DiskProgram Database Unit := do
  DiskProgram.read fun _ => .ok ()
  ensureGenerated config draw
  DiskProgram.transaction fun db => .ok (backfillServerOwner db)
  DiskProgram.read fun _ => .ok ()

/-! ## Starts and claims -/

inductive BootstrapAction where
  /-- A start, stopped where `stops` says. -/
  | start (draw : Draw) (stops : Nat → Stop)
  /-- A claim, and whether the file is removed after it. -/
  | claim (input : BootstrapRequest) (inputs : Nat → Input) (clock : Instant) (removed : Bool)

/-- What an action leaves on the disk. -/
def bootstrapStep (config : Config) (disk : Disk Database) : BootstrapAction → Disk Database
  | .start draw stops => ((openState config draw).run stops disk).2.1
  | .claim input inputs clock removed =>
      let (result, store, _) := (claim config input).run inputs ⟨disk.db, clock⟩
      ⟨if result.isOk && removed then none else disk.file, store.db⟩

/-- Starts and claims from an empty database on.  There may be a file. -/
def bootstrapping (config : Config) : System (Disk Database) BootstrapAction :=
  .ofFunction (fun disk => disk.db = .empty) (bootstrapStep config)

/-- A start that succeeds. -/
def Started (config : Config) (e : Event (Disk Database) BootstrapAction) : Prop :=
  ∃ draw stops, e.label = .start draw stops ∧
    ((openState config draw).run stops e.pre).1 = .ok ()

/-- A claim with the token succeeds, whoever makes it. -/
def Claimable (config : Config) (db : Database) (token : String) : Prop :=
  ∀ input inputs clock, input.token = token →
    validateIdentity input.displayName input.deviceLabel input.publicKey = .ok () →
    (inputs 0).fault = false →
    ∃ reply, ((claim config input).run inputs ⟨db, clock⟩).1 = .ok reply

/-- The file has the token whose hash the database has. -/
def Ready (config : Config) (disk : Disk Database) : Prop :=
  ∃ file token, disk.file = some file ∧ tokenIn file = some token ∧
    disk.db.setting "bootstrap_hash" = some (config.hash token)

/-- The invariant.  Nobody has a device or a session before the claim. -/
structure Prepared (config : Config) (disk : Disk Database) : Prop where
  ready : disk.db.users = [] → "server_id" ∈ disk.db.settings → Ready config disk
  blank : disk.db.users = [] →
    disk.db.devices = [] ∧ disk.db.sessions = [] ∧ "server_owner_id" ∉ disk.db.settings

/-! ## The token in the file -/

theorem character_not_newline :
    ∀ n < 64, Rust.Base64.character n ≠ '\r' ∧ Rust.Base64.character n ≠ '\n' := by
  decide

theorem trimNewlines_append {s : String} (h : ∀ c ∈ s.toList, c ≠ '\r' ∧ c ≠ '\n') :
    trimNewlines (s ++ "\n") = s := by
  have hend : s.toList.reverse.dropWhile (fun c => c = '\r' || c = '\n') = s.toList.reverse := by
    cases hs : s.toList.reverse with
    | nil => rfl
    | cons c cs =>
        have hc := h c (List.mem_reverse.mp (hs ▸ List.mem_cons_self))
        rw [List.dropWhile_cons_of_neg (by simp [hc.1, hc.2])]
  simp [trimNewlines, String.toList_append, hend]

/-- What `write_bootstrap_token` writes reads as the token. -/
theorem tokenIn_written (draw : Draw) :
    tokenIn ⟨true, 0o600, Rust.bytes draw.token ++ Rust.bytes "\n"⟩ = some draw.token := by
  have htoken : ∀ c ∈ draw.token.toList, c ≠ '\r' ∧ c ≠ '\n' := by
    intro c hc
    rw [Draw.token, Rust.Base64.encode, String.toList_ofList] at hc
    obtain ⟨n, hn, rfl⟩ := List.mem_map.mp hc
    exact character_not_newline n (Rust.Base64.sextets_lt draw.bytes n hn)
  simp only [tokenIn, ← Rust.bytes_append, Rust.fromUtf8_bytes, Option.map_some,
    trimNewlines_append htoken]

theorem loadBootstrapToken_eq_ok {file : File} {token : String}
    (h : loadBootstrapToken file = .ok token) : tokenIn file = some token := by
  unfold loadBootstrapToken at h
  split at h
  next => cases h
  next =>
    split at h
    next => cases h
    next =>
      split at h
      next => cases h
      next loaded hloaded =>
        unfold validateBootstrapToken at h
        split at h
        next =>
          cases h
          exact hloaded
        next => cases h

/-! ## What a start leaves -/

section Starts

variable {config : Config} {draw : Draw} {disk : Disk Database}

/-- Nothing but the file may differ. -/
def SameDb (disk after : Disk Database) : Prop := after.db = disk.db

theorem writeBootstrapToken_leaves :
    (writeBootstrapToken draw.token).Leaves (SameDb disk) (fun _ after => SameDb disk after ∧
      after.file = some ⟨true, 0o600, Rust.bytes draw.token ++ Rust.bytes "\n"⟩) disk := by
  have hsame : SameDb disk disk := rfl
  apply Program.Leaves.seq
  apply DiskProgram.leaves_createNew hsame
  intro _
  refine ⟨hsame, ?_⟩
  apply Program.Leaves.seq
  apply DiskProgram.leaves_writeAll fun _ => hsame
  apply Program.Leaves.seq
  apply DiskProgram.leaves_writeAll fun _ => hsame
  apply DiskProgram.leaves_syncAll fun _ => hsame
  exact ⟨hsame, rfl⟩

/-- A token that is loaded or created is the one in the file. -/
theorem loadOrCreateBootstrapToken_leaves :
    (loadOrCreateBootstrapToken draw).Leaves (SameDb disk) (fun token after => SameDb disk after ∧
      ∃ file, after.file = some file ∧ tokenIn file = some token) disk := by
  have hsame : SameDb disk disk := rfl
  apply Program.Leaves.seq
  apply DiskProgram.leaves_read hsame
  intro found hfound
  cases Except.ok.inj hfound with
  | refl =>
    cases hfile : disk.file with
    | some file =>
        apply DiskProgram.leaves_read hsame
        intro token htoken
        exact ⟨hsame, file, hfile, loadBootstrapToken_eq_ok htoken⟩
    | none =>
        apply writeBootstrapToken_leaves.bind
        rintro _ after ⟨hdb, hwritten⟩
        exact ⟨hdb, _, hwritten, tokenIn_written draw⟩

/-- What a start keeps, whether it succeeds or not. -/
structure Kept (config : Config) (disk after : Disk Database) : Prop where
  prepared : Prepared config after
  users : after.db.users = disk.db.users
  settings : "server_id" ∈ disk.db.settings → "server_id" ∈ after.db.settings

/-- Before there is an identifier, the file does not matter. -/
theorem Prepared.sameDb {after : Disk Database} (h : Prepared config disk)
    (hid : "server_id" ∉ disk.db.settings) (hdb : SameDb disk after) : Kept config disk after where
  prepared := by
    constructor
    · intro _ hid'
      rw [hdb] at hid'
      exact absurd hid' hid
    · rw [hdb]
      exact h.blank
  users := by rw [hdb]
  settings := by
    intro hid'
    exact absurd hid' hid

theorem ensureServerTx_eq_ok {token serverId : String} {db db' : Database}
    (hid : "server_id" ∉ db.settings) (h : ensureServerTx config token serverId db = .ok db') :
    db'.users = db.users ∧ db'.devices = db.devices ∧ db'.sessions = db.sessions ∧
      db'.settings =
        (db.settings.insert "server_id" serverId).insert "bootstrap_hash" (config.hash token) := by
  cases hensure : ensureServer config token serverId db with
  | error error =>
      rw [ensureServerTx, hensure] at h
      cases h
  | ok after =>
      rw [ensureServerTx, hensure] at h
      cases h
      unfold ensureServer at hensure
      rw [if_neg hid] at hensure
      obtain ⟨db₁, hinsert, hensure⟩ := bind_eq_ok.mp hensure
      obtain ⟨_, rfl⟩ := Database.insertSetting_eq_ok hinsert
      obtain ⟨_, rfl⟩ := Database.insertSetting_eq_ok hensure
      exact ⟨rfl, rfl, rfl, rfl⟩

/-- The transaction stores the hash of the token in the file. -/
theorem Prepared.ensureServerTx {after : Disk Database} {token serverId : String} {file : File}
    {db : Database} (h : Prepared config disk) (hid : "server_id" ∉ disk.db.settings)
    (hdb : SameDb disk after) (hfile : after.file = some file) (htoken : tokenIn file = some token)
    (htx : ensureServerTx config token serverId after.db = .ok db) :
    Kept config disk { after with db } ∧ "server_id" ∈ db.settings := by
  rw [hdb] at htx
  obtain ⟨husers, hdevices, hsessions, hsettings⟩ := ensureServerTx_eq_ok hid htx
  have hserver : "server_id" ∈ db.settings := by
    rw [hsettings]
    simp
  refine ⟨⟨⟨?_, ?_⟩, husers, fun _ => hserver⟩, hserver⟩
  · intro _ _
    refine ⟨file, token, hfile, htoken, ?_⟩
    show db.settings.lookup "bootstrap_hash" = some (config.hash token)
    rw [hsettings, Finmap.lookup_insert]
  · intro hempty
    obtain ⟨hnodevice, hnosession, hnoowner⟩ := h.blank (husers ▸ hempty)
    refine ⟨hdevices.trans hnodevice, hsessions.trans hnosession, ?_⟩
    show "server_owner_id" ∉ db.settings
    rw [hsettings]
    simpa using hnoowner

theorem ensureGenerated_leaves (h : Prepared config disk) :
    (ensureGenerated config draw).Leaves (Kept config disk)
      (fun _ after => Kept config disk after ∧ "server_id" ∈ after.db.settings) disk := by
  have hrefl : Kept config disk disk := ⟨h, rfl, id⟩
  apply Program.Leaves.seq
  apply DiskProgram.leaves_read hrefl
  intro found hfound
  by_cases hid : "server_id" ∈ disk.db.settings
  · rw [decide_eq_true hid] at hfound
    cases hfound
    exact ⟨hrefl, hid⟩
  · rw [decide_eq_false hid] at hfound
    cases hfound
    apply Program.Leaves.bind
      (loadOrCreateBootstrapToken_leaves.mono (fun _ => h.sameDb hid) fun _ _ => id)
    rintro token after ⟨hdb, file, hfile, htoken⟩
    apply DiskProgram.leaves_transaction (h.sameDb hid hdb)
    intro db htx
    have hkept := h.ensureServerTx hid hdb hfile htoken htx
    exact ⟨hkept.1, hkept⟩

/-- Only a claimed server gets an owner afterwards. -/
theorem Prepared.backfillServerOwner (h : Prepared config disk) :
    Kept config disk { disk with db := backfillServerOwner disk.db } := by
  unfold Server.backfillServerOwner
  split
  next owner howner =>
    have hclaimed : disk.db.users ≠ [] := List.ne_nil_of_mem (List.mem_of_find?_eq_some howner)
    have husers : (disk.db.insertSettingOrIgnore "server_owner_id" owner.id).users =
        disk.db.users := by
      unfold Database.insertSettingOrIgnore
      split
      next => rfl
      next => rfl
    refine ⟨⟨?_, ?_⟩, husers, ?_⟩
    · intro hempty
      exact absurd (husers ▸ hempty) hclaimed
    · intro hempty
      exact absurd (husers ▸ hempty) hclaimed
    · intro hid
      show "server_id" ∈ (disk.db.insertSettingOrIgnore _ _).settings
      unfold Database.insertSettingOrIgnore
      split
      next => exact hid
      next => simpa using hid
  next => exact ⟨h, rfl, id⟩

theorem Kept.trans {next after : Disk Database} (h : Kept config disk next)
    (h' : Kept config next after) : Kept config disk after where
  prepared := h'.prepared
  users := h'.users.trans h.users
  settings := h'.settings ∘ h.settings

/-- What a start leaves, wherever it is stopped. -/
theorem openState_leaves (h : Prepared config disk) :
    (openState config draw).Leaves (Kept config disk)
      (fun _ after => Kept config disk after ∧ "server_id" ∈ after.db.settings) disk := by
  have hrefl : Kept config disk disk := ⟨h, rfl, id⟩
  apply Program.Leaves.seq
  apply DiskProgram.leaves_read hrefl
  intro _ _
  apply (ensureGenerated_leaves h).bind
  rintro _ after ⟨hkept, hid⟩
  have hbackfill := hkept.prepared.backfillServerOwner
  apply Program.Leaves.seq
  apply DiskProgram.leaves_transaction hkept
  intro db hdb
  cases Except.ok.inj hdb with
  | refl =>
    refine ⟨hkept.trans hbackfill, ?_⟩
    apply DiskProgram.leaves_read (hkept.trans hbackfill)
    intro _ _
    exact ⟨hkept.trans hbackfill, hbackfill.settings hid⟩

end Starts

/-! ## What a claim does -/

section Claims

variable {config : Config} {input : BootstrapRequest} {s : Store}

/-- With the token whose hash is stored, the transaction of a claim succeeds. -/
theorem claimTx_ok {i : Input} {now : Readings} {db : Database} (husers : db.users = [])
    (hdevices : db.devices = []) (hsessions : db.sessions = [])
    (howner : "server_owner_id" ∉ db.settings)
    (hhash : db.setting "bootstrap_hash" = some (config.hash input.token)) :
    ∃ reply db', claimTx config input i now db = .ok (reply, db') := by
  let user : UserRow := ⟨i.random 0, input.displayName, none⟩
  let device : DeviceRow :=
    ⟨i.random 1, i.random 0, input.deviceLabel, input.publicKey, now.first, none⟩
  let claimed := { db with users := [user] }
  let owned := { claimed with settings := db.settings.insert "server_owner_id" user.id }
  let known := { owned with devices := [device] }
  have huser : db.insertUser user = .ok claimed := by
    simp [Database.insertUser, Database.insertRow, Table.insert?, husers, claimed]
  have hset : claimed.insertSetting "server_owner_id" user.id = .ok owned := if_neg howner
  have hdevice : owned.insertDevice device = .ok known := by
    simp [Database.insertDevice, Database.insertRow, Table.insert?, hdevices, Database.hasUser,
      known, owned, claimed, user, device]
  have hsession : ∃ issued db', issueSession config (fun n => i.random (n + 2)) now.second user.id
      device.id (known.deleteSetting "bootstrap_hash") = .ok (issued, db') := by
    simp [issueSession, Database.insertSession, Database.insertRow, Table.insert?, hsessions,
      Database.hasUser, Database.hasDevice, Database.deleteSetting, orInternal, known, owned,
      claimed, user, device]
  obtain ⟨issued, db', hissue⟩ := hsession
  refine ⟨.issued issued.1 issued.2.1 issued.2.2 user.id input.displayName, db', ?_⟩
  apply bind_eq_ok.mpr ⟨(), require_eq_ok.mpr (List.isEmpty_iff.mpr husers), ?_⟩
  apply bind_eq_ok.mpr ⟨_, orElse_eq_ok.mpr hhash, ?_⟩
  apply bind_eq_ok.mpr ⟨(), require_eq_ok.mpr (secureEq_iff.mpr rfl), ?_⟩
  apply bind_eq_ok.mpr ⟨_, orInternal_eq_ok.mpr huser, ?_⟩
  apply bind_eq_ok.mpr ⟨_, orInternal_eq_ok.mpr hset, ?_⟩
  apply bind_eq_ok.mpr ⟨_, orConflict_eq_ok.mpr hdevice, ?_⟩
  apply bind_eq_ok.mpr ⟨_, hissue, ?_⟩
  rfl

theorem claimTx_users {i : Input} {now : Readings} {db db' : Database} {reply : Reply}
    (h : claimTx config input i now db = .ok (reply, db')) : db'.users ≠ [] := by
  obtain ⟨_, heffect⟩ : ∃ user, Effect config 0 db (.claim input) user db' := claimTx_effect h
  cases heffect with
  | claim user => simp
  | useCredential htoken => cases htoken
  | record hrecords => cases hrecords

/-- A claim claims the server, or it fails and changes nothing. -/
theorem claim_leaves :
    (claim config input).Leaves (fun s' => s'.db = s.db) (fun _ s' => s'.db.users ≠ []) s := by
  have hcheck : (check (validateIdentity input.displayName input.deviceLabel input.publicKey) :
      Handler Unit).Leaves (fun s' => s'.db = s.db) (fun _ s' => s' = s) s := by
    apply Program.Ends.check
    cases validateIdentity input.displayName input.deviceLabel input.publicKey with
    | ok => rfl
    | error error => rfl
  apply hcheck.bind
  intro _ s' hsame
  rw [hsame]
  apply Program.Ends.step
  intro i
  obtain ⟨reply, db', hwork, hattempt⟩ | ⟨error, hattempt⟩ :=
    attempt_cases (.internal) (claimTx config input) i s
  · rw [hattempt]
    exact claimTx_users hwork
  · rw [hattempt]
    rfl

end Claims

/-! ## Runs -/

section Runs

variable {config : Config} {s t : Disk Database} {a : BootstrapAction}

theorem Prepared.of_start (hs : (bootstrapping config).start s) : Prepared config s := by
  have hempty : s.db = .empty := hs
  constructor
  · intro _ hid
    rw [hempty] at hid
    exact absurd hid (Finmap.notMem_empty)
  · intro _
    rw [hempty]
    exact ⟨rfl, rfl, Finmap.notMem_empty⟩

/-- After a claim of an unclaimed server nothing is asked of the file any more. -/
theorem Prepared.of_claimed (h : t.db.users ≠ []) : Prepared config t where
  ready hempty := absurd hempty h
  blank hempty := absurd hempty h

/-- What a step keeps while the server is unclaimed. -/
theorem Prepared.step (h : Prepared config s) (hstep : (bootstrapping config).step s a t) :
    Prepared config t ∧ (t.db.users = [] →
      s.db.users = [] ∧ ("server_id" ∈ s.db.settings → "server_id" ∈ t.db.settings)) := by
  have ht : t = bootstrapStep config s a := hstep
  cases a with
  | start draw stops =>
      have hkept : Kept config s t := by
        rw [ht]
        exact (openState_leaves h).run stops fun _ _ hafter => hafter.1
      refine ⟨hkept.prepared, ?_⟩
      intro hempty
      exact ⟨hkept.users ▸ hempty, hkept.settings⟩
  | claim input inputs clock removed =>
      have hleaves : (claim config input).Leaves (fun s' => s'.db = (Store.mk s.db clock).db)
          (fun _ s' => s'.db.users ≠ []) ⟨s.db, clock⟩ := claim_leaves
      have hends := Program.Ends.run hleaves inputs
      cases hresult : ((claim config input).run inputs ⟨s.db, clock⟩).1 with
      | ok reply =>
          have hclaimed : t.db.users ≠ [] := by
            rw [hresult] at hends
            rw [ht]
            exact hends
          refine ⟨.of_claimed hclaimed, ?_⟩
          intro hempty
          exact absurd hempty hclaimed
      | error error =>
          have hsame : t = s := by
            rw [hresult] at hends
            have hdb : _ = s.db := hends
            rw [ht]
            show Disk.mk _ _ = s
            rw [hresult, hdb]
            rfl
          rw [hsame]
          exact ⟨h, fun hempty => ⟨hempty, id⟩⟩

/-- What the token in the file is good for. -/
theorem Prepared.claimable (h : Prepared config s) (husers : s.db.users = []) {token : String}
    (hhash : s.db.setting "bootstrap_hash" = some (config.hash token)) :
    Claimable config s.db token := by
  rintro input inputs clock rfl hvalid hfault
  obtain ⟨hdevices, hsessions, howner⟩ := h.blank husers
  obtain ⟨reply, db', hclaim⟩ : ∃ reply db', claimTx config input (inputs 0)
      ((inputs 0).readings clock) s.db = .ok (reply, db') :=
    claimTx_ok husers hdevices hsessions howner hhash
  refine ⟨reply, ?_⟩
  have hattempt : attempt ApiError.internal (claimTx config input) (inputs 0) ⟨s.db, clock⟩ =
      (.ok reply, ⟨db', ((inputs 0).readings clock).third⟩) := by
    simp [attempt, hfault, hclaim]
  unfold claim
  rw [hvalid]
  show ((transaction (claimTx config input)).run inputs ⟨s.db, clock⟩).1 = .ok reply
  simp [transaction, underLock, hattempt]

/-- After a start that succeeded the server has an identifier. -/
theorem prepared_of_run {tr : List (Event (Disk Database) BootstrapAction)}
    (hs : (bootstrapping config).start s) (h : (bootstrapping config).Run s tr t) :
    Prepared config t ∧
      ∀ e ∈ tr, Started config e → t.db.users = [] → "server_id" ∈ t.db.settings := by
  induction h with
  | refl => exact ⟨.of_start hs, fun e he => absurd he List.not_mem_nil⟩
  | @snoc tr t u a hrun hstep ih =>
      obtain ⟨hprepared, hidentified⟩ := ih
      obtain ⟨hnext, hkeeps⟩ := hprepared.step hstep
      refine ⟨hnext, ?_⟩
      refine Transition.forall_mem_snoc ?_ ?_
      · intro e hold hstarted hunclaimed
        obtain ⟨hbefore, hid⟩ := hkeeps hunclaimed
        exact hid (hidentified e hold hstarted hbefore)
      · intro hstarted hunclaimed
        obtain ⟨draw, stops, rfl, hok⟩ := hstarted
        have hu : u = ((openState config draw).run stops t).2.1 := hstep
        rw [hu]
        exact ((openState_leaves hprepared).run_ok hok).2

/-- From an empty database on, in every run of starts, each stopped anywhere,
and of claims: once a start has succeeded, and as long as the server is
unclaimed, the file has a token whose hash is stored, and a claim with it
succeeds. -/
theorem claimable_of_started {tr : List (Event (Disk Database) BootstrapAction)}
    (hs : (bootstrapping config).start s) (h : (bootstrapping config).Run s tr t)
    (hstarted : ∃ e ∈ tr, Started config e) (hunclaimed : t.db.users = []) :
    ∃ file token, t.file = some file ∧ tokenIn file = some token ∧
      t.db.setting "bootstrap_hash" = some (config.hash token) ∧
      Claimable config t.db token := by
  obtain ⟨hprepared, hidentified⟩ := prepared_of_run hs h
  obtain ⟨e, he, hopened⟩ := hstarted
  obtain ⟨file, token, hfile, htoken, hhash⟩ :=
    hprepared.ready hunclaimed (hidentified e he hopened hunclaimed)
  exact ⟨file, token, hfile, htoken, hhash, hprepared.claimable hunclaimed hhash⟩

end Runs

/-! ## A start after one that was stopped -/

/-- A server whose `hash` gives the digest of the token that is left. -/
def restartConfig : Config where
  hash
    | "AAAAAAAAAAAAAAAAAAAAAAAAAAAAAAAAAAAAAAAA" =>
        "f0a2fb80ac0699075fb6c7b0ee2bcc204a1d909ee3149571216ec9cc1d4b9f8e"
    | other => other
  publicBaseUrl := "https://c6.example"
  gitHttp := false

def sampleDraw : Draw := ⟨List.replicate 32 (UInt8.ofNat 0), rfl, "server-1"⟩

/-- The first start ends in the write of the token, after 40 of 43 bytes. -/
def stopInWrite (n : Nat) : Stop := if n = 4 then some 40 else none

def interrupted : Disk Database :=
  bootstrapStep restartConfig ⟨none, .empty⟩ (.start sampleDraw stopInWrite)

def restarted : Disk Database :=
  bootstrapStep restartConfig interrupted (.start sampleDraw fun _ => none)

theorem claimable_restarted :
    ∃ file token, restarted.file = some file ∧ tokenIn file = some token ∧
      restarted.db.setting "bootstrap_hash" = some (restartConfig.hash token) ∧
      Claimable restartConfig restarted.db token := by
  have hrun : (bootstrapping restartConfig).Run ⟨none, .empty⟩
      [⟨⟨none, .empty⟩, .start sampleDraw stopInWrite, interrupted⟩,
        ⟨interrupted, .start sampleDraw fun _ => none, restarted⟩] restarted :=
    .cons rfl (.single rfl)
  have hok : ((openState restartConfig sampleDraw).run (fun _ => none) interrupted).1 = .ok () := by
    decide +kernel
  have hunclaimed : restarted.db.users = [] := by
    decide +kernel
  have hstart : (bootstrapping restartConfig).start ⟨none, .empty⟩ := rfl
  apply claimable_of_started hstart hrun _ hunclaimed
  exact ⟨_, List.mem_cons_of_mem _ List.mem_cons_self, sampleDraw, fun _ => none, rfl, hok⟩

end Cresix.Server
