import Cresix.Cloud.Bootstrap
import Cresix.Rust.Chrono
import Cresix.Server.Handlers
import Mathlib.Data.List.Find

/-!
# Expiry in the databases

The columns `expires_at` hold texts, and SQLite compares them byte by byte.
The queries here are those of the server and of the cloud with that comparison.
The queries of the model compare instants.  In the years from 0 to 9999 both
select the same rows (`expiry_is_chronological`).
-/

namespace Cresix

open Rust (DateTime)

/-- The instant, as it is written into a column. -/
def column (n : Int) : List UInt8 := (DateTime.ofNanos n).toRfc3339

/-- `expires_at>?`. -/
def expiresAfter (expiresAt now : Int) : Bool := column now < column expiresAt

/-- The instant is in a year from 0 to 9999. -/
def Dated (n : Int) : Prop := (DateTime.ofNanos n).InYears

theorem expiresAfter_eq {expiresAt now : Int} (h : Dated expiresAt) (hnow : Dated now) :
    expiresAfter expiresAt now = decide (now < expiresAt) := by
  rw [expiresAfter, decide_eq_decide]
  exact (DateTime.toRfc3339_lt_iff hnow h).trans (DateTime.ofNanos_before_iff now expiresAt)

/-! ## The server -/

namespace Server.Database

/-- The condition of the query of `authenticate`. -/
def selectsSession (db : Database) (now : Instant) (row : SessionRow) : Bool :=
  row.revokedAt.isNone && db.userLive row.userId
    && (db.deviceOf row.deviceId).all (·.revokedAt.isNone) && expiresAfter row.expiresAt now

/-- The query of `authenticate`. -/
def selectPrincipal (db : Database) (tokenHash : String) (now : Instant) : Option Principal := do
  let row ← db.sessions.find? fun row => row.tokenHash = tokenHash && db.selectsSession now row
  let user ← db.users.find? fun user => user.id = row.userId && user.revokedAt.isNone
  return ⟨user.id, user.displayName, row.id, row.csrfHash, row.deviceId⟩

/-- The condition of the renewal in `session`. -/
def selectsRenewal (db : Database) (id tokenHash csrfHash : String) (now : Instant)
    (row : SessionRow) : Bool :=
  row.id = id && row.tokenHash = tokenHash && row.csrfHash = csrfHash && row.revokedAt.isNone
    && expiresAfter row.expiresAt now && db.userLive row.userId && row.deviceId.all db.deviceLive

/-- The condition of the query of `authenticate_opaque_token`. -/
def selectsCredential (db : Database) (now : Instant) (row : CredentialRow) : Bool :=
  row.revokedAt.isNone && expiresAfter row.expiresAt now && db.userLive row.userId
    && row.deviceId.all db.deviceLive

/-- The query of `authenticate_opaque_token`. -/
def selectOwner (db : Database) (publicId : String) (expected : CredentialType) (now : Instant) :
    Option (CredentialRow × UserRow) := do
  let row ← db.credentials.find? fun row =>
    row.publicId = publicId && row.credentialType = expected && db.selectsCredential now row
  let user ← db.users.find? fun user => user.id = row.userId && user.revokedAt.isNone
  return (row, user)

variable {db : Database} {now : Instant}

theorem selectsSession_eq (hnow : Dated now) {row : SessionRow} (h : Dated row.expiresAt) :
    db.selectsSession now row = db.sessionLive now row := by
  rw [selectsSession, sessionLive, expiresAfter_eq h hnow]

theorem selectsRenewal_eq (hnow : Dated now) {row : SessionRow} (h : Dated row.expiresAt)
    (id tokenHash csrfHash : String) :
    db.selectsRenewal id tokenHash csrfHash now row =
      db.renewable id tokenHash csrfHash now row := by
  rw [selectsRenewal, renewable, expiresAfter_eq h hnow]

theorem selectsCredential_eq (hnow : Dated now) {row : CredentialRow} (h : Dated row.expiresAt) :
    db.selectsCredential now row = db.credentialLive now row := by
  rw [selectsCredential, credentialLive, expiresAfter_eq h hnow]

theorem selectPrincipal_eq (hnow : Dated now) (h : ∀ row ∈ db.sessions, Dated row.expiresAt)
    (tokenHash : String) :
    db.selectPrincipal tokenHash now = db.sessionPrincipal tokenHash now := by
  have hrow : db.sessions.find? (fun row => row.tokenHash = tokenHash && db.selectsSession now row)
      = db.sessions.find? fun row => row.tokenHash = tokenHash && db.sessionLive now row := by
    apply List.find?_congr
    intro row hmem
    rw [selectsSession_eq hnow (h row hmem)]
  rw [selectPrincipal, sessionPrincipal, hrow]

theorem selectOwner_eq (hnow : Dated now) (h : ∀ row ∈ db.credentials, Dated row.expiresAt)
    (publicId : String) (expected : CredentialType) :
    db.selectOwner publicId expected now = db.tokenOwner publicId expected now := by
  have hrow : db.credentials.find? (fun row => row.publicId = publicId
        && row.credentialType = expected && db.selectsCredential now row)
      = db.credentials.find? fun row => row.publicId = publicId
        && row.credentialType = expected && db.credentialLive now row := by
    apply List.find?_congr
    intro row hmem
    rw [selectsCredential_eq hnow (h row hmem)]
  rw [selectOwner, tokenOwner, hrow]

end Server.Database

/-! ## The cloud -/

namespace Cloud.AccountDatabase

/-- The account of a session is there and not disabled. -/
def accountLive (db : AccountDatabase) (row : SessionRow) : Bool :=
  db.accounts.any fun account => account.id = row.accountId && account.disabledAt.isNone

/-- The session is good at the instant: `user` lets it through. -/
def sessionLive (db : AccountDatabase) (now : Int) (row : SessionRow) : Bool :=
  row.revokedAt.isNone && now < row.expiresAt && db.accountLive row

/-- The query of `user`. -/
def selectUser (db : AccountDatabase) (tokenHash : String) (now : Int) :
    Option (Rust.Uuid × String) :=
  (db.sessions.find? fun row => row.tokenHash = tokenHash && row.revokedAt.isNone
    && expiresAfter row.expiresAt now && db.accountLive row).map
      fun row => (row.accountId, row.csrfHash)

/-- The session of the query of `user`, with instants compared. -/
def liveUser (db : AccountDatabase) (tokenHash : String) (now : Int) :
    Option (Rust.Uuid × String) :=
  (db.sessions.find? fun row => row.tokenHash = tokenHash && db.sessionLive now row).map
    fun row => (row.accountId, row.csrfHash)

theorem selectUser_eq {db : AccountDatabase} {now : Int} (hnow : Dated now)
    (h : ∀ row ∈ db.sessions, Dated row.expiresAt) (tokenHash : String) :
    db.selectUser tokenHash now = db.liveUser tokenHash now := by
  have hrow : db.sessions.find? (fun row => row.tokenHash = tokenHash && row.revokedAt.isNone
        && expiresAfter row.expiresAt now && db.accountLive row)
      = db.sessions.find? fun row => row.tokenHash = tokenHash && db.sessionLive now row := by
    apply List.find?_congr
    intro row hmem
    rw [sessionLive, expiresAfter_eq (h row hmem) hnow, Bool.and_assoc, Bool.and_assoc,
      Bool.and_assoc]
  rw [selectUser, liveUser, hrow]

end Cloud.AccountDatabase

/-! ## All comparisons -/

/-- Texts are in the order of their instants, so that every query selects the
sessions and credentials that have not expired. -/
theorem expiry_is_chronological :
    (∀ t u : DateTime, t.InYears → u.InYears → (t.toRfc3339 < u.toRfc3339 ↔ t.Before u)) ∧
    (∀ (db : Server.Database) (now : Server.Instant), Dated now →
      (∀ row ∈ db.sessions, Dated row.expiresAt) →
      (∀ row ∈ db.credentials, Dated row.expiresAt) →
      (∀ tokenHash, db.selectPrincipal tokenHash now = db.sessionPrincipal tokenHash now) ∧
      (∀ row ∈ db.sessions, ∀ id tokenHash csrfHash,
        db.selectsRenewal id tokenHash csrfHash now row =
          db.renewable id tokenHash csrfHash now row) ∧
      ∀ publicId expected, db.selectOwner publicId expected now =
        db.tokenOwner publicId expected now) ∧
    ∀ (db : Cloud.AccountDatabase) (now : Int), Dated now →
      (∀ row ∈ db.sessions, Dated row.expiresAt) →
      ∀ tokenHash, db.selectUser tokenHash now = db.liveUser tokenHash now := by
  refine ⟨?_, ?_, ?_⟩
  · intro t u ht hu
    exact DateTime.toRfc3339_lt_iff ht hu
  · intro db now hnow hsessions hcredentials
    refine ⟨Server.Database.selectPrincipal_eq hnow hsessions, ?_,
      Server.Database.selectOwner_eq hnow hcredentials⟩
    intro row hmem
    exact Server.Database.selectsRenewal_eq hnow (hsessions row hmem)
  · intro db now hnow hsessions
    exact Cloud.AccountDatabase.selectUser_eq hnow hsessions

/-- At a whole second the text is shorter than a microsecond later. -/
theorem expiry_is_chronological_second :
    (DateTime.ofNanos 0).toRfc3339 < (DateTime.ofNanos 1000).toRfc3339 ∧
      (DateTime.ofNanos 1000).toRfc3339.length = (DateTime.ofNanos 0).toRfc3339.length + 7 := by
  refine ⟨?_, by decide +kernel⟩
  exact (expiry_is_chronological.1 _ _ (by decide +kernel) (by decide +kernel)).mpr
    ((DateTime.ofNanos_before_iff 0 1000).mpr (by decide))

end Cresix
