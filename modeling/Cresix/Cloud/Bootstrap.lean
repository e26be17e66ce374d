import Cresix.Cloud.Catalog
import Cresix.Rust.Fs
import Mathlib.Data.Finmap

/-!
# The bootstrap token of the cloud

`ensure_bootstrap` stores the hash of a token first and writes the file with the
token after it.  An opening that ends in between leaves a hash whose token
nobody has, and later openings leave it so.

`Ready` says that the token in the file is the one the database waits for.
`Prepared` is the invariant of the runs in which no opening ends in between
(`Completes`): it is ready whenever a hash is stored.
-/

namespace Cresix.Cloud

open CloudCore (SecretToken TokenClass BoundedText boundedText)
open Concurrent (Program)
open Rust (Disk DiskProgram File IoError Stop Uuid)
open Transition (System Event)

/-! ## Tables -/

/-- `RESERVED_NAMES`. -/
def reservedNames : List String :=
  ["api", "assets", "bootstrap", "connector", "directory", "installations", "login", "logout",
    "relay", "session", "settings", "status", "workspaces"]

structure AccountHandle where
  value : String
  valid : CloudCore.validateSlug value "account handle" 3 39 reservedNames = .ok ()
deriving DecidableEq

structure AccountRow where
  id : Uuid
  handle : String
  displayName : String
  createdAt : Int
  disabledAt : Option Int
deriving DecidableEq, Repr

structure SessionRow where
  id : Uuid
  accountId : Uuid
  tokenHash : String
  csrfHash : String
  createdAt : Int
  expiresAt : Int
  revokedAt : Option Int
deriving DecidableEq, Repr

/-- The tables that are there before anything is registered. -/
structure AccountDatabase where
  settings : Finmap fun _ : String => String
  accounts : List AccountRow
  sessions : List SessionRow
deriving DecidableEq

namespace AccountDatabase

/-- The tables after `migrate`. -/
def empty : AccountDatabase := ⟨∅, [], []⟩

/-- `SELECT value FROM settings`. -/
def setting (db : AccountDatabase) (key : String) : Option String := db.settings.lookup key

/-- The cloud has been claimed. -/
def Claimed (db : AccountDatabase) : Prop := db.setting "bootstrap_claimed" = some "1"

instance (db : AccountDatabase) : Decidable db.Claimed := inferInstanceAs (Decidable (_ = _))

end AccountDatabase

/-! ## Opening -/

/-- What an opening draws. -/
structure BootstrapDraw where
  publicId : List UInt8
  secret : List UInt8
  publicLength : publicId.length = 8
  secretLength : secret.length = 32

/-- `issue_token(TokenClass::Bootstrap)`. -/
def BootstrapDraw.token (draw : BootstrapDraw) : SecretToken where
  value := CloudCore.issueToken .bootstrap draw.publicId draw.secret
  valid :=
    let ⟨parsed, hparsed, _⟩ :=
      CloudCore.parse_issueToken .bootstrap draw.publicLength draw.secretLength
    ⟨parsed, hparsed⟩

/-- `write_private`. -/
def writePrivate (value : String) : DiskProgram AccountDatabase Unit := do
  DiskProgram.createNew 0o600
  DiskProgram.writeAll (Rust.bytes value)

/-- `INSERT INTO settings` of the hash. -/
def insertHash (hash : String) (db : AccountDatabase) : Except IoError AccountDatabase :=
  if "bootstrap_hash" ∈ db.settings then .error (.bail "settings")
  else .ok { db with settings := db.settings.insert "bootstrap_hash" hash }

/-- A new token, unless there is one: its hash and then its file. -/
def issueBootstrap (hash : String → String) (draw : BootstrapDraw) :
    Option String → DiskProgram AccountDatabase Unit
  | none => do
      DiskProgram.transaction (insertHash (hash draw.token.value))
      writePrivate (draw.token.value ++ "\n")
  -- Of a file that is missing there is only a warning.
  | some _ => DiskProgram.read fun _ => .ok ()

/-- `ensure_bootstrap`. -/
def ensureBootstrap (hash : String → String) (draw : BootstrapDraw) :
    DiskProgram AccountDatabase Unit := do
  let claimed ← DiskProgram.read fun disk => .ok (disk.db.setting "bootstrap_claimed")
  if claimed = some "1" then pure ()
  else do
    let existing ← DiskProgram.read fun disk => .ok (disk.db.setting "bootstrap_hash")
    issueBootstrap hash draw existing

/-- `Cloud::open`: what comes before `ensure_bootstrap`, and that. -/
def openCloud (hash : String → String) (draw : BootstrapDraw) :
    DiskProgram AccountDatabase Unit := do
  DiskProgram.read fun _ => .ok ()
  ensureBootstrap hash draw

/-- Where an opening is stopped, if it is. -/
structure OpenStops where
  prepare : Stop
  readClaimed : Stop
  readHash : Stop
  insert : Stop
  create : Stop
  write : Stop

/-- The steps in their order. -/
def OpenStops.at (stops : OpenStops) : Nat → Stop
  | 0 => stops.prepare
  | 1 => stops.readClaimed
  | 2 => stops.readHash
  | 3 => stops.insert
  | 4 => stops.create
  | _ => stops.write

/-! ## Claiming -/

structure BootstrapClaimRequest where
  bootstrapToken : SecretToken
  handle : AccountHandle
  displayName : String

/-- `BootstrapClaimRequest::validate`, with the text of its error. -/
def BootstrapClaimRequest.validate (input : BootstrapClaimRequest) : Except String Unit :=
  if input.bootstrapToken.parsed.tokenClass ≠ .bootstrap then
    .error "credential belongs to the wrong authentication surface"
  else (boundedText input.displayName "displayName" 1 100).mapError (·.message)

/-- `require_origin`. -/
def requireOrigin (publicOrigin : String) (origin : Option String) : Except ApiError Unit := do
  let origin ← okOr origin (.forbidden "Origin header required")
  require (origin = publicOrigin) (.forbidden "Origin does not match this cloud")

/-- A claim as it arrives: from where, with which `Origin`, and its body. -/
structure Claimant where
  loopback : Bool
  origin : Option String
  input : BootstrapClaimRequest

/-- What a claim draws, and whether the lock, a statement or the commit fails. -/
structure ClaimDraw where
  accountId : Uuid
  sessionId : Uuid
  sessionToken : String
  csrf : String
  now : Int
  fault : Bool

/-- `BootstrapClaimResponse`. -/
structure BootstrapClaimResponse where
  accountId : Uuid
  handle : AccountHandle
  displayName : String
  createdAt : Int
  csrfToken : String

/-- `Duration::hours`, in nanoseconds. -/
def hours (n : Int) : Int := n * 3600 * 1000000000

def sessionHours : Int := 24 * 30

/-- The primary key and the unique column of the accounts. -/
def AccountRow.clash (a b : AccountRow) : Bool := a.id = b.id || a.handle = b.handle

/-- The primary key and the unique column of the sessions. -/
def SessionRow.clash (a b : SessionRow) : Bool := a.id = b.id || a.tokenHash = b.tokenHash

/-- The transaction of `claim_bootstrap`. -/
def claimBootstrapTx (hash : String → String) (input : BootstrapClaimRequest) (draw : ClaimDraw)
    (db : AccountDatabase) : Except ApiError (BootstrapClaimResponse × AccountDatabase) := do
  require (!db.Claimed) (.conflict "cloud bootstrap has already been claimed")
  let expected ← okOr (db.setting "bootstrap_hash") .internal
  require (input.bootstrapToken.parsed.tokenClass = .bootstrap
      && expected = hash input.bootstrapToken.value)
    (.forbidden "invalid bootstrap credential")
  let accounts ← okOr
    (Table.insert? AccountRow.clash
      ⟨draw.accountId, input.handle.value, input.displayName, draw.now, none⟩ db.accounts)
    (.conflict "identifier is already in use")
  let settings := (db.settings.insert "bootstrap_claimed" "1").erase "bootstrap_hash"
  let sessions ← okOr
    (Table.insert? SessionRow.clash
      ⟨draw.sessionId, draw.accountId, hash draw.sessionToken, hash draw.csrf, draw.now,
        draw.now + hours sessionHours, none⟩ db.sessions)
    .internal
  return (⟨draw.accountId, input.handle, input.displayName, draw.now, draw.csrf⟩,
    ⟨settings, accounts, sessions⟩)

/-- `claim_bootstrap`. -/
def claimBootstrap (hash : String → String) (publicOrigin : String) (claimant : Claimant)
    (draw : ClaimDraw) (db : AccountDatabase) :
    Except ApiError (BootstrapClaimResponse × AccountDatabase) := do
  require claimant.loopback (.forbidden "bootstrap claim is available from loopback only")
  requireOrigin publicOrigin claimant.origin
  claimant.input.validate.mapError fun message => .bad message
  require (!draw.fault) .internal
  claimBootstrapTx hash claimant.input draw db

/-! ## Openings and claims -/

/-- What does not change: `hash` and `C6_CLOUD_PUBLIC_ORIGIN`. -/
structure CloudConfig where
  hash : String → String
  publicOrigin : String

inductive CloudAction where
  /-- An opening, stopped where `stops` says. -/
  | opening (draw : BootstrapDraw) (stops : OpenStops)
  /-- A claim, and whether the file is removed after it. -/
  | claim (claimant : Claimant) (draw : ClaimDraw) (removed : Bool)

/-- What an action leaves on the disk. -/
def bootstrapStep (config : CloudConfig) (disk : Disk AccountDatabase) :
    CloudAction → Disk AccountDatabase
  | .opening draw stops => ((openCloud config.hash draw).run stops.at disk).2.1
  | .claim claimant draw removed =>
      match claimBootstrap config.hash config.publicOrigin claimant draw disk.db with
      | .ok (_, db) => ⟨if removed then none else disk.file, db⟩
      | .error _ => disk

/-- Openings and claims in a new data directory. -/
def bootstrapping (config : CloudConfig) : System (Disk AccountDatabase) CloudAction :=
  .ofFunction (fun disk => disk = ⟨none, .empty⟩) (bootstrapStep config)

/-- An opening that returns `Ok`. -/
def Opened (config : CloudConfig) (e : Event (Disk AccountDatabase) CloudAction) : Prop :=
  ∃ draw stops, e.label = .opening draw stops ∧
    ((openCloud config.hash draw).run stops.at e.pre).1 = .ok ()

/-- A claim with the token succeeds, whoever makes it from the loopback. -/
def Claimable (config : CloudConfig) (db : AccountDatabase) (token : SecretToken) : Prop :=
  ∀ claimant draw, claimant.loopback = true → claimant.origin = some config.publicOrigin →
    claimant.input.bootstrapToken = token → BoundedText claimant.input.displayName 1 100 →
    draw.fault = false →
    ∃ response db', claimBootstrap config.hash config.publicOrigin claimant draw db =
      .ok (response, db')

/-- The text in a file, without the white space around it. -/
def trimmed (file : File) : Option String :=
  (Rust.fromUtf8 file.content).map fun text => String.ofList (Rust.trim text.toList)

/-- The file has a bootstrap token, and the database has its hash. -/
def Holds (config : CloudConfig) (disk : Disk AccountDatabase) (token : SecretToken) : Prop :=
  ∃ file, disk.file = some file ∧ trimmed file = some token.value ∧
    disk.db.setting "bootstrap_hash" = some (config.hash token.value)

/-! ## When an opening completes -/

/-- It is stopped before the insertion takes effect, or not before the token is
in the file. -/
def Completes (draw : BootstrapDraw) (stops : OpenStops) : Prop :=
  (stops.prepare.isSome ∨ stops.readClaimed.isSome ∨ stops.readHash.isSome ∨
    stops.insert = some 0) ∨
  (stops.insert = none ∧ stops.create = none ∧
    ∀ n, stops.write = some n → Rust.len draw.token.value ≤ n)

/-- The openings that have to issue a token complete. -/
def Completing (disk : Disk AccountDatabase) (a : CloudAction) (_ : Disk AccountDatabase) : Prop :=
  ∀ draw stops, a = .opening draw stops → ¬ disk.db.Claimed →
    disk.db.setting "bootstrap_hash" = none → Completes draw stops

section Openings

variable {config : CloudConfig} {hash : String → String} {draw : BootstrapDraw} {stops : OpenStops}
variable {disk : Disk AccountDatabase}

/-- With a hash or a claim, an opening changes nothing. -/
theorem openCloud_keeps (h : ¬ disk.db.Claimed → disk.db.setting "bootstrap_hash" ≠ none) :
    ((openCloud hash draw).run stops.at disk).2.1 = disk := by
  have hleaves : (openCloud hash draw).Leaves (Eq disk) (fun _ => Eq disk) disk := by
    have hrefl : disk = disk := rfl
    apply Program.Leaves.seq
    apply DiskProgram.leaves_read hrefl
    intro _ _
    apply Program.Leaves.seq
    apply DiskProgram.leaves_read hrefl
    intro claimed hclaimed
    cases Except.ok.inj hclaimed with
    | refl =>
      split
      next => exact Program.Leaves.pure hrefl
      next hunclaimed =>
        apply Program.Leaves.seq
        apply DiskProgram.leaves_read hrefl
        intro existing hexisting
        cases Except.ok.inj hexisting with
        | refl =>
          obtain ⟨stored, hstored⟩ := Option.ne_none_iff_exists'.mp (h hunclaimed)
          rw [hstored]
          apply DiskProgram.leaves_read hrefl
          intro _ _
          exact hrefl
  exact (hleaves.run _ fun _ _ => id).symm

/-- An opening that is stopped in what it reads. -/
theorem openCloud_stopped
    (h : stops.prepare.isSome ∨ stops.readClaimed.isSome ∨ stops.readHash.isSome)
    (hunclaimed : ¬ disk.db.Claimed) :
    ((openCloud hash draw).run stops.at disk).1 = .error .stopped ∧
      ((openCloud hash draw).run stops.at disk).2.1 = disk := by
  unfold openCloud ensureBootstrap
  cases hprepare : stops.prepare with
  | some n =>
      rw [DiskProgram.run_read_stopped (n := n) hprepare]
      exact ⟨rfl, rfl⟩
  | none =>
      rw [DiskProgram.run_read hprepare]
      cases hclaimed : stops.readClaimed with
      | some n =>
          rw [DiskProgram.run_read_stopped (n := n) hclaimed]
          exact ⟨rfl, rfl⟩
      | none =>
          have hne : disk.db.setting "bootstrap_claimed" ≠ some "1" := hunclaimed
          rw [DiskProgram.run_read hclaimed, if_neg hne]
          cases hhash : stops.readHash with
          | some n =>
              rw [DiskProgram.run_read_stopped (n := n) hhash]
              exact ⟨rfl, rfl⟩
          | none => simp [hprepare, hclaimed, hhash] at h

/-- An opening that gets as far as to issue a token. -/
theorem openCloud_issues (hprepare : stops.prepare = none) (hclaimed : stops.readClaimed = none)
    (hhash : stops.readHash = none) (hunclaimed : ¬ disk.db.Claimed)
    (hnone : disk.db.setting "bootstrap_hash" = none) :
    (openCloud hash draw).run stops.at disk =
      (issueBootstrap hash draw none).run (fun n => stops.at (n + 3)) disk := by
  have hne : disk.db.setting "bootstrap_claimed" ≠ some "1" := hunclaimed
  unfold openCloud ensureBootstrap
  rw [DiskProgram.run_read hprepare, DiskProgram.run_read hclaimed, if_neg hne,
    DiskProgram.run_read hhash, hnone]

/-- The file after so much of the write. -/
def tokenFile (draw : BootstrapDraw) (write : Stop) : File :=
  ⟨true, 0o600, write.elim (Rust.bytes (draw.token.value ++ "\n"))
    (Rust.bytes (draw.token.value ++ "\n")).take⟩

/-- The disk after the hash and so much of the file have been written. -/
def issued (hash : String → String) (draw : BootstrapDraw) (write : Stop)
    (disk : Disk AccountDatabase) : Disk AccountDatabase where
  file := some (tokenFile draw write)
  db := { disk.db with
    settings := disk.db.settings.insert "bootstrap_hash" (hash draw.token.value) }

theorem insertHash_eq_ok {stored : String} {db : AccountDatabase}
    (hnone : db.setting "bootstrap_hash" = none) :
    insertHash stored db =
      .ok { db with settings := db.settings.insert "bootstrap_hash" stored } :=
  if_neg (Finmap.lookup_eq_none.mp hnone)

theorem issueBootstrap_stopped (hinsert : stops.insert = some 0)
    (hnone : disk.db.setting "bootstrap_hash" = none) :
    ((issueBootstrap hash draw none).run (fun n => stops.at (n + 3)) disk).1 = .error .stopped ∧
      ((issueBootstrap hash draw none).run (fun n => stops.at (n + 3)) disk).2.1 = disk := by
  unfold issueBootstrap DiskProgram.transaction
  rw [DiskProgram.run_stopped (n := 0) hinsert, insertHash_eq_ok hnone]
  exact ⟨rfl, rfl⟩

theorem issueBootstrap_issued (hinsert : stops.insert = none) (hcreate : stops.create = none)
    (hnone : disk.db.setting "bootstrap_hash" = none) (hfile : disk.file = none) :
    ((issueBootstrap hash draw none).run (fun n => stops.at (n + 3)) disk).2.1 =
      issued hash draw stops.write disk := by
  unfold issueBootstrap DiskProgram.transaction writePrivate DiskProgram.createNew
    DiskProgram.writeAll
  rw [DiskProgram.run_taken hinsert (by rw [insertHash_eq_ok hnone]),
    DiskProgram.run_taken hcreate (by rw [hfile])]
  cases hwrite : stops.write with
  | none =>
      rw [DiskProgram.step_taken hwrite]
      simp [issued, tokenFile, DiskProgram.appended, DiskProgram.created]
  | some n =>
      rw [DiskProgram.step_stopped (n := n) hwrite]
      simp [issued, tokenFile, DiskProgram.appended, DiskProgram.created, DiskProgram.truncated]

/-- Once the token is in the file, it is the text of the file. -/
theorem trimmed_tokenFile {write : Stop}
    (h : ∀ n, write = some n → Rust.len draw.token.value ≤ n) :
    trimmed (tokenFile draw write) = some draw.token.value := by
  have hnewline : ∀ c ∈ "\n".toList, Rust.isWhitespace c = true :=
    List.all_eq_true.mp (by decide)
  have hcontent : ∃ blanks : String, (tokenFile draw write).content =
      Rust.bytes (draw.token.value ++ blanks) ∧
      ∀ c ∈ blanks.toList, Rust.isWhitespace c = true := by
    cases write with
    | none => exact ⟨"\n", rfl, hnewline⟩
    | some n =>
        have hlen := h n rfl
        rw [← Rust.length_bytes] at hlen
        have htake : (tokenFile draw (some n)).content = Rust.bytes draw.token.value ++
            (Rust.bytes "\n").take (n - (Rust.bytes draw.token.value).length) := by
          show (Rust.bytes (draw.token.value ++ "\n")).take n = _
          rw [Rust.bytes_append, List.take_append, List.take_of_length_le hlen]
        cases hmore : n - (Rust.bytes draw.token.value).length with
        | zero =>
            rw [hmore] at htake
            refine ⟨"", ?_, nofun⟩
            rw [htake, Rust.bytes_append]
            rfl
        | succ more =>
            rw [hmore, List.take_of_length_le (Nat.le_add_left 1 more)] at htake
            refine ⟨"\n", ?_, hnewline⟩
            rw [htake, Rust.bytes_append]
  obtain ⟨blanks, hblanks, hwhite⟩ := hcontent
  have htoken : ∀ c ∈ draw.token.value.toList, Rust.isWhitespace c = false := by
    intro c hc
    exact (CloudCore.isTokenChar_issueToken c hc).2.2
  rw [trimmed, hblanks, Rust.fromUtf8_bytes, Option.map_some, String.toList_append,
    Rust.trim_append htoken hwhite, String.ofList_toList]

end Openings

/-! ## The invariant -/

/-- Nobody has an account before the claim, and the file is written after the
hash. -/
structure Prepared (config : CloudConfig) (disk : Disk AccountDatabase) : Prop where
  holds : ¬ disk.db.Claimed → disk.db.setting "bootstrap_hash" ≠ none →
    ∃ token : SecretToken, token.parsed.tokenClass = .bootstrap ∧ Holds config disk token
  fresh : ¬ disk.db.Claimed → disk.db.setting "bootstrap_hash" = none → disk.file = none
  blank : ¬ disk.db.Claimed → disk.db.accounts = [] ∧ disk.db.sessions = []

section Runs

variable {config : CloudConfig} {s t : Disk AccountDatabase} {a : CloudAction}

theorem BootstrapDraw.parsed_token (draw : BootstrapDraw) :
    draw.token.parsed.tokenClass = .bootstrap := by
  obtain ⟨parsed, hparsed, hclass⟩ :=
    CloudCore.parse_issueToken .bootstrap draw.publicLength draw.secretLength
  rw [SecretToken.parsed_eq hparsed, hclass]

theorem Prepared.initial : Prepared config ⟨none, .empty⟩ where
  holds _ h := absurd rfl h
  fresh _ _ := rfl
  blank _ := ⟨rfl, rfl⟩

theorem Prepared.of_issued {draw : BootstrapDraw} {write : Stop} (h : Prepared config s)
    (hunclaimed : ¬ s.db.Claimed)
    (hwrite : ∀ n, write = some n → Rust.len draw.token.value ≤ n) :
    Prepared config (issued config.hash draw write s) where
  holds _ _ := by
    refine ⟨draw.token, draw.parsed_token, tokenFile draw write, rfl, trimmed_tokenFile hwrite, ?_⟩
    exact Finmap.lookup_insert _
  fresh _ hnone := by
    have hsome : (issued config.hash draw write s).db.setting "bootstrap_hash" =
        some (config.hash draw.token.value) := Finmap.lookup_insert _
    cases hnone.symm.trans hsome
  blank _ := h.blank hunclaimed

/-- After a claim nothing is asked of the file any more. -/
theorem Prepared.of_claimed (h : t.db.Claimed) : Prepared config t where
  holds hunclaimed := absurd h hunclaimed
  fresh hunclaimed := absurd h hunclaimed
  blank hunclaimed := absurd h hunclaimed

theorem claimBootstrap_claimed {claimant : Claimant} {draw : ClaimDraw}
    {response : BootstrapClaimResponse} {db db' : AccountDatabase}
    (h : claimBootstrap config.hash config.publicOrigin claimant draw db = .ok (response, db')) :
    db'.Claimed := by
  obtain ⟨_, _, h⟩ := Checks.bind_eq_ok.mp h
  obtain ⟨_, _, h⟩ := Checks.bind_eq_ok.mp h
  obtain ⟨_, _, h⟩ := Checks.bind_eq_ok.mp h
  obtain ⟨_, _, h⟩ := Checks.bind_eq_ok.mp h
  obtain ⟨_, _, h⟩ := Checks.bind_eq_ok.mp h
  obtain ⟨_, _, h⟩ := Checks.bind_eq_ok.mp h
  obtain ⟨_, _, h⟩ := Checks.bind_eq_ok.mp h
  obtain ⟨_, _, h⟩ := Checks.bind_eq_ok.mp h
  obtain ⟨_, _, h⟩ := Checks.bind_eq_ok.mp h
  cases h
  show ((db.settings.insert "bootstrap_claimed" "1").erase "bootstrap_hash").lookup
    "bootstrap_claimed" = some "1"
  rw [Finmap.lookup_erase_ne (by decide), Finmap.lookup_insert]

/-- What the token in the file is good for. -/
theorem Prepared.claimable {token : SecretToken} (h : Prepared config s)
    (hunclaimed : ¬ s.db.Claimed) (hclass : token.parsed.tokenClass = .bootstrap)
    (hhash : s.db.setting "bootstrap_hash" = some (config.hash token.value)) :
    Claimable config s.db token := by
  rintro claimant draw hloopback horigin rfl hname hfault
  obtain ⟨haccounts, hsessions⟩ := h.blank hunclaimed
  have hvalid : claimant.input.validate = .ok () := by
    rw [BootstrapClaimRequest.validate, if_neg (not_not_intro hclass),
      CloudCore.boundedText_eq_ok.mpr hname]
    rfl
  simp [claimBootstrap, requireOrigin, claimBootstrapTx, require, okOr, hloopback, horigin, hvalid,
    hfault, hunclaimed, hhash, hclass, haccounts, hsessions, Table.insert?, bind, Except.bind,
    pure, Except.pure, Except.mapError]

/-- What a step keeps while the cloud is unclaimed. -/
structure Kept (config : CloudConfig) (s t : Disk AccountDatabase) : Prop where
  prepared : Prepared config t
  unclaimed : ¬ t.db.Claimed → ¬ s.db.Claimed
  hash : ¬ t.db.Claimed → s.db.setting "bootstrap_hash" ≠ none →
    t.db.setting "bootstrap_hash" ≠ none

theorem Kept.refl (h : Prepared config s) : Kept config s s := ⟨h, id, fun _ => id⟩

/-- An opening that completes, when it has to issue a token. -/
theorem Prepared.opening {draw : BootstrapDraw} {stops : OpenStops} (h : Prepared config s)
    (hcompletes : ¬ s.db.Claimed → s.db.setting "bootstrap_hash" = none → Completes draw stops) :
    Kept config s ((openCloud config.hash draw).run stops.at s).2.1 ∧
      (((openCloud config.hash draw).run stops.at s).1 = .ok () →
        ¬ ((openCloud config.hash draw).run stops.at s).2.1.db.Claimed →
        ((openCloud config.hash draw).run stops.at s).2.1.db.setting "bootstrap_hash" ≠ none) := by
  by_cases hissue : ¬ s.db.Claimed → s.db.setting "bootstrap_hash" ≠ none
  · rw [openCloud_keeps hissue]
    exact ⟨.refl h, fun _ => hissue⟩
  · obtain ⟨hunclaimed, hnone⟩ := Classical.not_imp.mp hissue
    rw [Classical.not_not] at hnone
    have hstopped : ∀ {result : Except IoError Unit} {t : Disk AccountDatabase},
        result = .error .stopped ∧ t = s →
        Kept config s t ∧ (result = .ok () → ¬ t.db.Claimed →
          t.db.setting "bootstrap_hash" ≠ none) := by
      rintro result t ⟨rfl, rfl⟩
      refine ⟨.refl h, ?_⟩
      intro hok
      cases hok
    by_cases hreads : stops.prepare.isSome ∨ stops.readClaimed.isSome ∨ stops.readHash.isSome
    · exact hstopped (openCloud_stopped hreads hunclaimed)
    · simp only [not_or, Option.not_isSome_iff_eq_none] at hreads
      obtain ⟨hprepare, hclaimed, hhash⟩ := hreads
      rw [openCloud_issues hprepare hclaimed hhash hunclaimed hnone]
      rcases hcompletes hunclaimed hnone with hbefore | ⟨hinsert, hcreate, hwrite⟩
      · simp only [hprepare, hclaimed, hhash, Option.isSome_none, Bool.false_eq_true,
          false_or] at hbefore
        exact hstopped (issueBootstrap_stopped hbefore hnone)
      · rw [issueBootstrap_issued hinsert hcreate hnone (h.fresh hunclaimed hnone)]
        have hstored : (issued config.hash draw stops.write s).db.setting "bootstrap_hash" =
            some (config.hash draw.token.value) := Finmap.lookup_insert _
        have hsome : (issued config.hash draw stops.write s).db.setting "bootstrap_hash" ≠ none := by
          rw [hstored]
          exact Option.some_ne_none _
        exact ⟨⟨h.of_issued hunclaimed hwrite, fun _ => hunclaimed, fun _ _ => hsome⟩,
          fun _ _ => hsome⟩

theorem Prepared.step (h : Prepared config s) (hstep : (bootstrapping config).step s a t)
    (hcompletes : Completing s a t) : Kept config s t := by
  have ht : t = bootstrapStep config s a := hstep
  cases a with
  | opening draw stops =>
      rw [ht]
      exact (h.opening (hcompletes draw stops rfl)).1
  | claim claimant draw removed =>
      simp only [bootstrapStep] at ht
      split at ht
      next response db hclaim =>
        have hclaimed : t.db.Claimed := by
          rw [ht]
          exact claimBootstrap_claimed hclaim
        exact ⟨.of_claimed hclaimed, absurd hclaimed, absurd hclaimed⟩
      next =>
        rw [ht]
        exact .refl h

/-- After an opening that returned `Ok` a hash is stored. -/
theorem prepared_of_run {tr : List (Event (Disk AccountDatabase) CloudAction)}
    (hs : (bootstrapping config).start s)
    (h : ((bootstrapping config).restrict Completing).Run s tr t) :
    Prepared config t ∧ ∀ e ∈ tr, Opened config e → ¬ t.db.Claimed →
      t.db.setting "bootstrap_hash" ≠ none := by
  induction h with
  | refl =>
      have hinitial : s = ⟨none, .empty⟩ := hs
      rw [hinitial]
      exact ⟨.initial, fun e he => absurd he List.not_mem_nil⟩
  | @snoc tr t u a hrun hstep ih =>
      obtain ⟨hprepared, hstored⟩ := ih
      have hkept := hprepared.step hstep.1 hstep.2
      refine ⟨hkept.prepared, ?_⟩
      refine Transition.forall_mem_snoc ?_ ?_
      · intro e hold hopened hunclaimed
        exact hkept.hash hunclaimed (hstored e hold hopened (hkept.unclaimed hunclaimed))
      · intro hopened hunclaimed
        obtain ⟨draw, stops, rfl, hok⟩ := hopened
        have hu : u = ((openCloud config.hash draw).run stops.at t).2.1 := hstep.1
        rw [hu] at hunclaimed ⊢
        exact (hprepared.opening (hstep.2 draw stops rfl)).2 hok hunclaimed

/-- In every run of openings, each stopped anywhere, and of claims, in which the
openings that have to issue a token complete: once an opening has returned
`Ok`, and as long as the cloud is unclaimed, the file has a token whose hash is
stored, and a claim with it succeeds. -/
theorem claimable_of_opened {tr : List (Event (Disk AccountDatabase) CloudAction)}
    (hs : (bootstrapping config).start s)
    (h : ((bootstrapping config).restrict Completing).Run s tr t)
    (hopened : ∃ e ∈ tr, Opened config e) (hunclaimed : ¬ t.db.Claimed) :
    ∃ token, Holds config t token ∧ Claimable config t.db token := by
  obtain ⟨hprepared, hstored⟩ := prepared_of_run hs h
  obtain ⟨e, he, hok⟩ := hopened
  obtain ⟨token, hclass, hholds⟩ := hprepared.holds hunclaimed (hstored e he hok hunclaimed)
  obtain ⟨file, -, -, hhash⟩ := id hholds
  exact ⟨token, hholds, hprepared.claimable hunclaimed hclass hhash⟩

end Runs

/-! ## An opening that ends after the insertion -/

def zeroDraw : BootstrapDraw := ⟨List.replicate 8 0, List.replicate 32 0, rfl, rfl⟩

/-- A cloud whose `hash` gives the digest of the token that is drawn. -/
def zeroConfig : CloudConfig where
  hash
    | "c6b_v1_0000000000000000_AAAAAAAAAAAAAAAAAAAAAAAAAAAAAAAAAAAAAAAAAAA" =>
        "e7e10e9ada1149c3804a2807c0faaacb17633beb0fd038634056d0ec4e850e49"
    | other => other
  publicOrigin := "http://127.0.0.1:8787"

def throughout : OpenStops := ⟨none, none, none, none, none, none⟩

/-- The process ends when the insertion has been committed. -/
def afterInsertion : OpenStops := { throughout with insert := some 1 }

def opening (stops : OpenStops) (disk : Disk AccountDatabase) : Disk AccountDatabase :=
  bootstrapStep zeroConfig disk (.opening zeroDraw stops)

/-- The next opening returns `Ok`, and there is no file. -/
theorem opened_without_file :
    ¬ ∀ (config : CloudConfig) (s t : Disk AccountDatabase)
        (tr : List (Event (Disk AccountDatabase) CloudAction)),
      (bootstrapping config).start s → (bootstrapping config).Run s tr t →
      (∃ e ∈ tr, Opened config e) → ¬ t.db.Claimed →
      ∃ token, Holds config t token ∧ Claimable config t.db token := by
  intro hall
  let first := opening afterInsertion ⟨none, .empty⟩
  have hrun : (bootstrapping zeroConfig).Run ⟨none, .empty⟩
      [⟨⟨none, .empty⟩, .opening zeroDraw afterInsertion, first⟩,
        ⟨first, .opening zeroDraw throughout, opening throughout first⟩]
      (opening throughout first) :=
    .cons rfl (.single rfl)
  have hok : ((openCloud zeroConfig.hash zeroDraw).run throughout.at
      (opening afterInsertion ⟨none, .empty⟩)).1 = .ok () := by
    decide +kernel
  have hunclaimed : ¬ (opening throughout (opening afterInsertion ⟨none, .empty⟩)).db.Claimed := by
    decide +kernel
  have hnone : (opening throughout (opening afterInsertion ⟨none, .empty⟩)).file = none := by
    decide +kernel
  have hopened : ∃ e ∈ [⟨⟨none, .empty⟩, .opening zeroDraw afterInsertion, first⟩,
      ⟨first, .opening zeroDraw throughout, opening throughout first⟩], Opened zeroConfig e :=
    ⟨_, List.mem_cons_of_mem _ List.mem_cons_self, zeroDraw, throughout, rfl, hok⟩
  obtain ⟨token, ⟨file, hfile, _⟩, _⟩ := hall zeroConfig _ _ _ rfl hrun hopened hunclaimed
  cases hnone.symm.trans hfile

/-- An opening that completes. -/
theorem claimable_opened :
    ∃ token, Holds zeroConfig (opening throughout ⟨none, .empty⟩) token ∧
      Claimable zeroConfig (opening throughout ⟨none, .empty⟩).db token := by
  have hcompletes : Completing ⟨none, .empty⟩ (.opening zeroDraw throughout)
      (opening throughout ⟨none, .empty⟩) := by
    intro draw stops heq _ _
    cases heq
    right
    exact ⟨rfl, rfl, fun n h => by cases h⟩
  have hrun : ((bootstrapping zeroConfig).restrict Completing).Run ⟨none, .empty⟩
      [⟨⟨none, .empty⟩, .opening zeroDraw throughout, opening throughout ⟨none, .empty⟩⟩]
      (opening throughout ⟨none, .empty⟩) :=
    .single ⟨rfl, hcompletes⟩
  have hok : ((openCloud zeroConfig.hash zeroDraw).run throughout.at ⟨none, .empty⟩).1 =
      .ok () := by
    decide +kernel
  have hunclaimed : ¬ (opening throughout ⟨none, .empty⟩).db.Claimed := by
    decide +kernel
  have hstart : (bootstrapping zeroConfig).start ⟨none, .empty⟩ := rfl
  apply claimable_of_opened hstart hrun _ hunclaimed
  exact ⟨_, List.mem_cons_self, zeroDraw, throughout, rfl, hok⟩

end Cresix.Cloud
