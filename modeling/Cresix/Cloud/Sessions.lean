import Cresix.Cloud.Expiry
import Cresix.Cloud.Publication
import Cresix.CloudCore.TokenGrammar
import Cresix.Rust.Lines

/-!
# The session of the cloud

A request of a user is looked at twice: `user` reads the session and gives up the
lock, and the handler takes it again.  In between other requests may do
anything, a logout included.

There is one account and one session, those of the claim.  `SessionAuthority`
says whom `user` lets through, over all interleavings: who shows the token of the
claim, before it expires and before a logout has taken effect, and nobody else.
A browser that sends back what the claim has set in it shows that token.
-/

namespace Cresix.Cloud

open CloudCore (SecretToken ParsedToken TokenClass)
open Rust (Disk Uuid)
open Server (headerText)
open Transition (System Event)

/-! ## Cookies -/

/-- The headers `user` looks at. -/
structure UserHeaders where
  /-- The values of `Cookie`. -/
  cookies : List String
  /-- The value of `Origin`. -/
  origin : Option String
  /-- The value of `x-c6-csrf`. -/
  csrf : Option String

/-- The pairs of a value of `Cookie`. -/
def cookiePairs (value : List Char) : List (List Char × List Char) :=
  (Rust.split ';' value).filterMap fun pair => Rust.splitOnce '=' (Rust.trim pair)

/-- `cookie`. -/
def cookie (headers : UserHeaders) (name : String) : Option String :=
  ((headers.cookies.filterMap headerText).flatMap fun value => cookiePairs value.toList).findSome?
    fun (key, value) => if String.ofList key = name then some (String.ofList value) else none

namespace CloudConfig

variable (config : CloudConfig)

/-- `secure_cookies`. -/
def secureCookies : Bool := Rust.startsWith config.publicOrigin "https://"

/-- `session_cookie_name`. -/
def sessionCookieName : String :=
  if config.secureCookies then "__Host-c6_cloud_session" else "c6_cloud_session"

/-- `csrf_cookie_name`. -/
def csrfCookieName : String :=
  if config.secureCookies then "__Host-c6_cloud_csrf" else "c6_cloud_csrf"

/-- What a secure cloud puts behind its cookies. -/
def suffix : String := if config.secureCookies then "; Secure" else ""

/-- What is behind the value of the session cookie. -/
def sessionAttributes : String :=
  "; Path=/; HttpOnly; SameSite=Lax; Max-Age=" ++ (24 * 30 * 3600).repr ++ config.suffix

/-- What is behind the value of the CSRF cookie. -/
def csrfAttributes : String :=
  "; Path=/; SameSite=Lax; Max-Age=" ++ (24 * 30 * 3600).repr ++ config.suffix

/-- `session_response`: the values of `Set-Cookie`. -/
def sessionResponse (session csrf : String) : Except ApiError (List String) := do
  let sessionCookie ← okOr
    (headerText (config.sessionCookieName ++ "=" ++ session ++ config.sessionAttributes)) .internal
  let csrfCookie ← okOr
    (headerText (config.csrfCookieName ++ "=" ++ csrf ++ config.csrfAttributes)) .internal
  return [sessionCookie, csrfCookie]

/-- `append_clear_cookies`: the values of `Set-Cookie`. -/
def clearCookies : List String :=
  [(config.sessionCookieName, "; HttpOnly"), (config.csrfCookieName, "")].filterMap
    fun (name, httpOnly) =>
      headerText (name ++ "=; Path=/; SameSite=Lax; Max-Age=0" ++ httpOnly ++ config.suffix)

end CloudConfig

/-! ## Users -/

structure UserPrincipal where
  accountId : Uuid
  csrfHash : String
deriving DecidableEq, Repr

/-- What `user` asks of a mutation. -/
def verifyMutation (config : CloudConfig) (headers : UserHeaders) (csrfHash : String) :
    Except ApiError Unit := do
  requireOrigin config.publicOrigin (headers.origin.bind headerText)
  let cookieValue ← okOr (cookie headers config.csrfCookieName) (.forbidden "CSRF cookie required")
  let headerValue ← okOr (headers.csrf.bind headerText) (.forbidden "CSRF header required")
  require (config.hash cookieValue = csrfHash && cookieValue = headerValue)
    (.forbidden "CSRF verification failed")

/-- `user`, and whether the lock or the statement fails. -/
def user (config : CloudConfig) (headers : UserHeaders) (mutation : Bool) (now : Int)
    (fault : Bool) (db : AccountDatabase) : Except ApiError UserPrincipal := do
  let token ← okOr (cookie headers config.sessionCookieName) .unauthenticated
  require (!fault) .internal
  let (accountId, csrfHash) ← okOr (db.selectUser (config.hash token) now) .unauthenticated
  (if mutation then verifyMutation config headers csrfHash else .ok ())
  return ⟨accountId, csrfHash⟩

/-- `CloudSessionResponse`. -/
structure CloudSession where
  accountId : Uuid
  handle : AccountHandle
  displayName : String
  createdAt : Int
  csrfToken : SecretToken
  expiresAt : Int
deriving DecidableEq

/-- `AccountHandle::from_str`. -/
def parseHandle (value : String) : Except ApiError AccountHandle :=
  match h : CloudCore.validateSlug value "account handle" 3 39 reservedNames with
  | .ok () => .ok ⟨value, h⟩
  | .error _ => .error .internal

/-- `SecretToken::parse`. -/
def parseSecretToken (value : String) : Except ApiError SecretToken :=
  match h : ParsedToken.parse (Rust.bytes value) with
  | some (.ok parsed) => .ok ⟨value, parsed, h⟩
  | some (.error _) => .error .internal
  -- In a text no slice fails.
  | none => .error .internal

/-- The query of `session`. -/
def AccountDatabase.sessionAccount (db : AccountDatabase) (accountId : Uuid) (tokenHash : String) :
    Option (AccountRow × SessionRow) := do
  let account ← db.accounts.find? fun account => account.id = accountId
  let row ← db.sessions.find? fun row => row.accountId = account.id && row.tokenHash = tokenHash
  return (account, row)

/-- `session`, for a user that was let through. -/
def session (config : CloudConfig) (headers : UserHeaders) (principal : UserPrincipal)
    (fault : Bool) (db : AccountDatabase) : Except ApiError CloudSession := do
  require (!fault) .internal
  let token ← okOr (cookie headers config.sessionCookieName) .unauthenticated
  let (account, row) ←
    okOr (db.sessionAccount principal.accountId (config.hash token)) .internal
  let csrf ← okOr (cookie headers config.csrfCookieName) .unauthenticated
  let handle ← parseHandle account.handle
  let csrfToken ← parseSecretToken csrf
  return ⟨principal.accountId, handle, account.displayName, account.createdAt, csrfToken,
    row.expiresAt⟩

/-- `logout`, for a user that was let through: the values of `Set-Cookie`. -/
def logout (config : CloudConfig) (headers : UserHeaders) (principal : UserPrincipal) (now : Int)
    (fault : Bool) (db : AccountDatabase) : Except ApiError (List String × AccountDatabase) := do
  require (!fault) .internal
  let token ← okOr (cookie headers config.sessionCookieName) .unauthenticated
  return (config.clearCookies, { db with
    sessions := Table.update
      (fun row => row.accountId = principal.accountId && row.tokenHash = config.hash token)
      (fun row => { row with revokedAt := some now }) db.sessions })

/-! ## Requests -/

inductive UserEndpoint where
  | session
  | logout
  /-- An endpoint that turns to other tables, and whether it changes them. -/
  | other (mutation : Bool)
deriving DecidableEq, Repr

/-- What the handler gives to `user`. -/
def UserEndpoint.mutation : UserEndpoint → Bool
  | .session => false
  | .logout => true
  | .other mutation => mutation

inductive UserReply where
  | session (view : CloudSession)
  | loggedOut (setCookies : List String)
  /-- The handler goes on for this account. -/
  | admitted (accountId : Uuid)

inductive UserTask where
  | arrived
  /-- `user` has let it through. -/
  | checked (principal : UserPrincipal)
  | answered (reply : Except ApiError UserReply)

structure UserRequest where
  headers : UserHeaders
  endpoint : UserEndpoint
  task : UserTask

structure Sessions where
  disk : Disk AccountDatabase
  requests : Nat → Option UserRequest

inductive SessionsAction where
  | bootstrap (action : CloudAction)
  | arrive (number : Nat) (headers : UserHeaders) (endpoint : UserEndpoint)
  /-- `user`. -/
  | check (number : Nat) (now : Int) (fault : Bool)
  /-- What the handler does behind it. -/
  | act (number : Nat) (now : Int) (fault : Bool)

namespace Sessions

def goto (s : Sessions) (number : Nat) (request : UserRequest) (task : UserTask) : Sessions :=
  { s with requests := Function.update s.requests number (some { request with task }) }

/-- The handler of a user that was let through. -/
def handle (config : CloudConfig) (s : Sessions) (number : Nat) (request : UserRequest)
    (principal : UserPrincipal) (now : Int) (fault : Bool) : Sessions :=
  match request.endpoint with
  | .session =>
      s.goto number request
        (.answered ((session config request.headers principal fault s.disk.db).map .session))
  | .logout =>
      match logout config request.headers principal now fault s.disk.db with
      | .error error => s.goto number request (.answered (.error error))
      | .ok (setCookies, db) =>
          { s.goto number request (.answered (.ok (.loggedOut setCookies))) with
            disk := { s.disk with db } }
  | .other _ => s.goto number request (.answered (.ok (.admitted principal.accountId)))

def step (config : CloudConfig) (s : Sessions) : SessionsAction → Option Sessions
  | .bootstrap action => some { s with disk := bootstrapStep config s.disk action }
  | .arrive number headers endpoint =>
      match s.requests number with
      | some _ => none
      | none => some (s.goto number ⟨headers, endpoint, .arrived⟩ .arrived)
  | .check number now fault =>
      match s.requests number with
      | some ⟨headers, endpoint, .arrived⟩ =>
          some (s.goto number ⟨headers, endpoint, .arrived⟩
            (match user config headers endpoint.mutation now fault s.disk.db with
              | .ok principal => .checked principal
              | .error error => .answered (.error error)))
      | _ => none
  | .act number now fault =>
      match s.requests number with
      | some ⟨headers, endpoint, .checked principal⟩ =>
          some (s.handle config number ⟨headers, endpoint, .checked principal⟩ principal now fault)
      | _ => none

/-- From a new data directory, with any requests. -/
def system (config : CloudConfig) : System Sessions SessionsAction :=
  .ofOption (fun s => s.disk = ⟨none, .empty⟩ ∧ ∀ number, s.requests number = none) (step config)

end Sessions

/-! ## Who is let through -/

abbrev SessionsEvent := Event Sessions SessionsAction

/-- The step is a claim that succeeds. -/
def Claims (config : CloudConfig) (e : SessionsEvent) (claimant : Claimant) (draw : ClaimDraw) :
    Prop :=
  ∃ removed response db, e.label = .bootstrap (.claim claimant draw removed) ∧
    claimBootstrap config.hash config.publicOrigin claimant draw e.pre.disk.db = .ok (response, db)

/-- The step is a logout that succeeds. -/
def LogsOut (e : SessionsEvent) : Prop :=
  ∃ number headers principal now setCookies,
    e.pre.requests number = some ⟨headers, .logout, .checked principal⟩ ∧
    e.label = .act number now false ∧
    e.post.requests number = some ⟨headers, .logout, .answered (.ok (.loggedOut setCookies))⟩

/-- The headers have the token of the claim, and for a mutation also its CSRF
token, twice, and the origin of the cloud. -/
structure Shows (config : CloudConfig) (draw : ClaimDraw) (headers : UserHeaders)
    (mutation : Bool) : Prop where
  token : ∃ token, cookie headers config.sessionCookieName = some token ∧
    config.hash token = config.hash draw.sessionToken
  mutation : mutation = true →
    headers.origin.bind headerText = some config.publicOrigin ∧
    ∃ csrf, cookie headers config.csrfCookieName = some csrf ∧
      headers.csrf.bind headerText = some csrf ∧ config.hash csrf = config.hash draw.csrf

/-- A claim was made before, its session has not expired and nobody has logged
out, and the request shows its tokens. -/
def Authorized (config : CloudConfig) (before : List SessionsEvent) (now : Int)
    (request : UserRequest) (principal : UserPrincipal) : Prop :=
  ∃ e ∈ before, ∃ claimant draw, Claims config e claimant draw ∧
    principal = ⟨draw.accountId, config.hash draw.csrf⟩ ∧
    now < draw.now + hours sessionHours ∧ (∀ e' ∈ before, ¬LogsOut e') ∧
    Shows config draw request.headers request.endpoint.mutation

/-- The `name=value` of a value of `Set-Cookie`. -/
def cookiePair (setCookie : String) : List Char := setCookie.toList.takeWhile (· ≠ ';')

/-- What a browser sends that has the cookies of the response, with its CSRF token. -/
def browserHeaders (config : CloudConfig) (setCookies : List String) (csrf : String) :
    UserHeaders where
  cookies := [String.ofList (List.intercalate "; ".toList (setCookies.map cookiePair))]
  origin := some config.publicOrigin
  csrf := some csrf

/-- The tokens of a claim are issued. -/
def ClaimDraw.Issued (draw : ClaimDraw) : Prop :=
  (∃ publicId secret : List UInt8, publicId.length = 8 ∧ secret.length = 32 ∧
    draw.sessionToken = CloudCore.issueToken .cloudSession publicId secret) ∧
  ∃ publicId secret : List UInt8, publicId.length = 8 ∧ secret.length = 32 ∧
    draw.csrf = CloudCore.issueToken .csrf publicId secret

/-- What `session` replies when the cloud was claimed so. -/
def claimView (config : CloudConfig) (claimant : Claimant) (draw : ClaimDraw)
    (headers : UserHeaders) : Except ApiError CloudSession := do
  let csrf ← okOr (cookie headers config.csrfCookieName) .unauthenticated
  let csrfToken ← parseSecretToken csrf
  return ⟨draw.accountId, claimant.input.handle, claimant.input.displayName, draw.now, csrfToken,
    draw.now + hours sessionHours⟩

/-- What is true of the user requests of a run. -/
structure SessionAuthority (config : CloudConfig) (tr : List SessionsEvent) : Prop where
  /-- The cloud is claimed once. -/
  once : tr.Pairwise fun e e' => ∀ claimant draw claimant' draw',
    Claims config e claimant draw → ¬Claims config e' claimant' draw'
  /-- Whom `user` lets through. -/
  admits : ∀ before e after, tr = before ++ e :: after →
    ∀ (number : Nat) (now : Int) (request : UserRequest),
      e.label = .check number now false → e.pre.requests number = some request →
      ∀ principal, e.post.requests number = some { request with task := .checked principal } ↔
        Authorized config before now request principal
  /-- What `session` replies: the account of the claim, with the CSRF token that
  was sent. -/
  views : ∀ before e after, tr = before ++ e :: after →
    ∀ (number : Nat) (now : Int) (headers : UserHeaders) (principal : UserPrincipal),
      e.label = .act number now false →
      e.pre.requests number = some ⟨headers, .session, .checked principal⟩ →
      ∃ claim ∈ before, ∃ claimant draw, Claims config claim claimant draw ∧
        e.post.requests number = some ⟨headers, .session,
          .answered ((claimView config claimant draw headers).map .session)⟩
  /-- A browser with the cookies of the claim shows its tokens. -/
  browser : ∀ e ∈ tr, ∀ claimant draw, Claims config e claimant draw → draw.Issued →
    headerText config.publicOrigin = some config.publicOrigin →
    ∃ setCookies, config.sessionResponse draw.sessionToken draw.csrf = .ok setCookies ∧
      ∀ mutation, Shows config draw (browserHeaders config setCookies draw.csrf) mutation

/-! ## Tables -/

section

variable {config : CloudConfig} {hash : String → String} {db db' : AccountDatabase}

/-- What an opening leaves alone. -/
structure AccountDatabase.Same (db db' : AccountDatabase) : Prop where
  accounts : db'.accounts = db.accounts
  sessions : db'.sessions = db.sessions
  claimed : db'.Claimed ↔ db.Claimed

theorem AccountDatabase.Same.refl (db : AccountDatabase) : db.Same db := ⟨rfl, rfl, Iff.rfl⟩

theorem same_of_insertHash {stored : String} (h : insertHash stored db = .ok db') : db.Same db' := by
  simp only [insertHash] at h
  split at h
  next => cases h
  next =>
    cases h
    refine ⟨rfl, rfl, ?_⟩
    show (db.settings.insert "bootstrap_hash" stored).lookup "bootstrap_claimed" = some "1" ↔ _
    rw [Finmap.lookup_insert_of_ne _ (by decide)]
    rfl

theorem openCloud_same (draw : BootstrapDraw) (stops : OpenStops) (disk : Disk AccountDatabase) :
    disk.db.Same ((openCloud hash draw).run stops.at disk).2.1.db := by
  have hrefl := AccountDatabase.Same.refl disk.db
  have hleaves : (openCloud hash draw).Leaves (fun t => disk.db.Same t.db)
      (fun _ t => disk.db.Same t.db) disk := by
    apply Concurrent.Program.Leaves.seq
    apply Rust.DiskProgram.leaves_read hrefl
    intro _ _
    apply Concurrent.Program.Leaves.seq
    apply Rust.DiskProgram.leaves_read hrefl
    intro claimed _
    split
    next => exact Concurrent.Program.Leaves.pure hrefl
    next =>
      apply Concurrent.Program.Leaves.seq
      apply Rust.DiskProgram.leaves_read hrefl
      intro existing _
      cases existing with
      | some stored =>
          apply Rust.DiskProgram.leaves_read hrefl
          exact fun _ _ => hrefl
      | none =>
          apply Concurrent.Program.Leaves.seq
          apply Rust.DiskProgram.leaves_transaction hrefl
          intro db hdb
          have hsame := same_of_insertHash hdb
          refine ⟨hsame, ?_⟩
          apply Concurrent.Program.Leaves.seq
          apply Rust.DiskProgram.leaves_createNew hsame
          intro _
          refine ⟨hsame, ?_⟩
          apply Rust.DiskProgram.leaves_writeAll
          · exact fun _ => hsame
          · exact hsame
  exact hleaves.run _ fun _ _ => id

/-- The account of a claim. -/
def accountRow (claimant : Claimant) (draw : ClaimDraw) : AccountRow :=
  ⟨draw.accountId, claimant.input.handle.value, claimant.input.displayName, draw.now, none⟩

/-- The session of a claim, revoked or not. -/
def sessionRow (hash : String → String) (draw : ClaimDraw) (revokedAt : Option Int) : SessionRow :=
  ⟨draw.sessionId, draw.accountId, hash draw.sessionToken, hash draw.csrf, draw.now,
    draw.now + hours sessionHours, revokedAt⟩

theorem claimBootstrap_unclaimed {claimant : Claimant} {draw : ClaimDraw}
    {response : BootstrapClaimResponse}
    (h : claimBootstrap config.hash config.publicOrigin claimant draw db = .ok (response, db')) :
    ¬db.Claimed := by
  obtain ⟨_, _, h⟩ := Checks.bind_eq_ok.mp h
  obtain ⟨_, _, h⟩ := Checks.bind_eq_ok.mp h
  obtain ⟨_, _, h⟩ := Checks.bind_eq_ok.mp h
  obtain ⟨_, _, h⟩ := Checks.bind_eq_ok.mp h
  obtain ⟨_, hunclaimed, _⟩ := Checks.bind_eq_ok.mp h
  simpa using require_eq_ok.mp hunclaimed

/-- The first claim makes the account and its session. -/
theorem claimBootstrap_rows {claimant : Claimant} {draw : ClaimDraw}
    {response : BootstrapClaimResponse} (haccounts : db.accounts = []) (hsessions : db.sessions = [])
    (h : claimBootstrap config.hash config.publicOrigin claimant draw db = .ok (response, db')) :
    db'.accounts = [accountRow claimant draw] ∧
      db'.sessions = [sessionRow config.hash draw none] := by
  obtain ⟨_, _, h⟩ := Checks.bind_eq_ok.mp h
  obtain ⟨_, _, h⟩ := Checks.bind_eq_ok.mp h
  obtain ⟨_, _, h⟩ := Checks.bind_eq_ok.mp h
  obtain ⟨_, _, h⟩ := Checks.bind_eq_ok.mp h
  obtain ⟨_, _, h⟩ := Checks.bind_eq_ok.mp h
  obtain ⟨_, _, h⟩ := Checks.bind_eq_ok.mp h
  obtain ⟨_, _, h⟩ := Checks.bind_eq_ok.mp h
  obtain ⟨accounts, haccount, h⟩ := Checks.bind_eq_ok.mp h
  obtain ⟨sessions, hsession, h⟩ := Checks.bind_eq_ok.mp h
  rw [haccounts] at haccount
  rw [hsessions] at hsession
  cases haccount
  cases hsession
  cases h
  exact ⟨rfl, rfl⟩

/-! ## Users -/

variable {headers : UserHeaders} {mutation : Bool} {now : Int} {principal : UserPrincipal}

/-- Without a session nobody is let through. -/
theorem user_of_empty (h : db.sessions = []) {fault : Bool} :
    user config headers mutation now fault db ≠ .ok principal := by
  intro hok
  obtain ⟨_, _, hok⟩ := Checks.bind_eq_ok.mp hok
  obtain ⟨_, _, hok⟩ := Checks.bind_eq_ok.mp hok
  obtain ⟨_, hselect, _⟩ := Checks.bind_eq_ok.mp hok
  rw [AccountDatabase.selectUser, h] at hselect
  cases hselect

theorem requireOrigin_eq_ok {publicOrigin : String} {origin : Option String} :
    requireOrigin publicOrigin origin = .ok () ↔ origin = some publicOrigin := by
  cases origin with
  | none => exact ⟨nofun, nofun⟩
  | some origin =>
      show require (origin = publicOrigin) _ = .ok () ↔ _
      rw [require_eq_ok, decide_eq_true_iff, Option.some_inj]

theorem verifyMutation_eq_ok {csrfHash : String} :
    verifyMutation config headers csrfHash = .ok () ↔
      headers.origin.bind headerText = some config.publicOrigin ∧
      ∃ csrf, cookie headers config.csrfCookieName = some csrf ∧
        headers.csrf.bind headerText = some csrf ∧ config.hash csrf = csrfHash := by
  simp only [verifyMutation, Checks.bind_eq_ok, okOr_eq_ok, require_eq_ok, Bool.and_eq_true,
    decide_eq_true_iff]
  constructor
  · rintro ⟨_, horigin, csrf, hcookie, supplied, hsupplied, hhash, rfl⟩
    exact ⟨requireOrigin_eq_ok.mp horigin, csrf, hcookie, hsupplied, hhash⟩
  · rintro ⟨horigin, csrf, hcookie, hsupplied, hhash⟩
    exact ⟨(), requireOrigin_eq_ok.mpr horigin, csrf, hcookie, csrf, hsupplied, hhash, rfl⟩

/-- The session of a claim is the one that is selected. -/
theorem selectUser_eq_some_iff {claimant : Claimant} {draw : ClaimDraw} {revokedAt : Option Int}
    (haccounts : db.accounts = [accountRow claimant draw])
    (hsessions : db.sessions = [sessionRow hash draw revokedAt]) (hnow : Dated now)
    (hexpires : Dated (draw.now + hours sessionHours)) {tokenHash : String} {found : Uuid × String} :
    db.selectUser tokenHash now = some found ↔
      found = (draw.accountId, hash draw.csrf) ∧ now < draw.now + hours sessionHours ∧
        revokedAt = none ∧ tokenHash = hash draw.sessionToken := by
  have hdated : ∀ row ∈ db.sessions, Dated row.expiresAt := by
    rw [hsessions]
    exact List.forall_mem_singleton.mpr hexpires
  have hlive : db.accountLive (sessionRow hash draw revokedAt) = true := by
    rw [AccountDatabase.accountLive, haccounts]
    simp [accountRow, sessionRow]
  rw [AccountDatabase.selectUser_eq hnow hdated, AccountDatabase.liveUser, hsessions,
    Option.map_eq_some_iff]
  simp only [List.find?_singleton, AccountDatabase.sessionLive, hlive, Bool.and_true]
  constructor
  · rintro ⟨row, hrow, rfl⟩
    split at hrow
    next hmatch =>
      cases hrow
      simp only [sessionRow, Bool.and_eq_true, Option.isNone_iff_eq_none] at hmatch
      obtain ⟨hhash, hrevoked, hbefore⟩ := hmatch
      exact ⟨rfl, of_decide_eq_true hbefore, hrevoked, (of_decide_eq_true hhash).symm⟩
    next => cases hrow
  · rintro ⟨rfl, hbefore, rfl, rfl⟩
    refine ⟨sessionRow hash draw none, if_pos ?_, rfl⟩
    simp [sessionRow, hbefore]

/-- Whom `user` lets through when there is the session of the claim. -/
theorem user_eq_ok_iff {claimant : Claimant} {draw : ClaimDraw} {revokedAt : Option Int}
    (haccounts : db.accounts = [accountRow claimant draw])
    (hsessions : db.sessions = [sessionRow config.hash draw revokedAt]) (hnow : Dated now)
    (hexpires : Dated (draw.now + hours sessionHours)) :
    user config headers mutation now false db = .ok principal ↔
      principal = ⟨draw.accountId, config.hash draw.csrf⟩ ∧ now < draw.now + hours sessionHours ∧
        revokedAt = none ∧ Shows config draw headers mutation := by
  simp only [user, Checks.bind_eq_ok, okOr_eq_ok,
    selectUser_eq_some_iff haccounts hsessions hnow hexpires]
  constructor
  · rintro ⟨token, htoken, _, _, _, ⟨rfl, hbefore, hrevoked, hhash⟩, _, hmutation, hok⟩
    refine ⟨(Except.ok.inj hok).symm, hbefore, hrevoked, ⟨token, htoken, hhash⟩, ?_⟩
    rintro rfl
    exact verifyMutation_eq_ok.mp hmutation
  · rintro ⟨rfl, hbefore, hrevoked, ⟨token, htoken, hhash⟩, hmutation⟩
    refine ⟨token, htoken, (), rfl, _, ⟨rfl, hbefore, hrevoked, hhash⟩, ?_⟩
    cases mutation with
    | false => exact ⟨(), rfl, rfl⟩
    | true => exact ⟨(), verifyMutation_eq_ok.mpr (hmutation rfl), rfl⟩

theorem user_of_fault : user config headers mutation now true db ≠ .ok principal := by
  intro hok
  obtain ⟨_, _, hok⟩ := Checks.bind_eq_ok.mp hok
  obtain ⟨_, hfault, _⟩ := Checks.bind_eq_ok.mp hok
  cases hfault

end

/-! ## What a step does -/

section

variable {config : CloudConfig} {s t : Sessions} {a : SessionsAction} {tr : List SessionsEvent}
variable {claimant : Claimant} {draw : ClaimDraw}

/-- The request has been let through. -/
def Sessions.Checked (s : Sessions) (number : Nat) (headers : UserHeaders) (endpoint : UserEndpoint)
    (principal : UserPrincipal) : Prop :=
  s.requests number = some ⟨headers, endpoint, .checked principal⟩

theorem Sessions.checked_goto {number other : Nat} {request : UserRequest} {task : UserTask}
    {headers : UserHeaders} {endpoint : UserEndpoint} {principal : UserPrincipal}
    (h : (s.goto number request task).Checked other headers endpoint principal) :
    s.Checked other headers endpoint principal ∨
      other = number ∧ request.headers = headers ∧ request.endpoint = endpoint ∧
        task = .checked principal := by
  replace h : Function.update s.requests number (some { request with task }) other =
      some ⟨headers, endpoint, .checked principal⟩ := h
  by_cases hother : other = number
  · rw [hother, Function.update_self] at h
    cases h
    exact .inr ⟨hother, rfl, rfl, rfl⟩
  · rw [Function.update_of_ne hother] at h
    exact .inl h

/-- How the tables and the requests stand after a run. -/
inductive Stands (config : CloudConfig) (tr : List SessionsEvent) (s : Sessions) : Prop where
  | unclaimed : ¬s.disk.db.Claimed → s.disk.db.accounts = [] → s.disk.db.sessions = [] →
      (∀ e ∈ tr, ∀ claimant draw, ¬Claims config e claimant draw) → (∀ e ∈ tr, ¬LogsOut e) →
      (∀ number headers endpoint principal, ¬s.Checked number headers endpoint principal) →
      Stands config tr s
  | claimed {e : SessionsEvent} {claimant : Claimant} {draw : ClaimDraw} {revokedAt : Option Int} :
      e ∈ tr → Claims config e claimant draw → s.disk.db.Claimed →
      s.disk.db.accounts = [accountRow claimant draw] →
      s.disk.db.sessions = [sessionRow config.hash draw revokedAt] →
      (∀ e' ∈ tr, ∀ claimant' draw', Claims config e' claimant' draw' →
        claimant' = claimant ∧ draw' = draw) →
      (revokedAt = none ↔ ∀ e' ∈ tr, ¬LogsOut e') →
      (∀ number headers endpoint principal, s.Checked number headers endpoint principal →
        principal = ⟨draw.accountId, config.hash draw.csrf⟩ ∧
        ∃ token, cookie headers config.sessionCookieName = some token ∧
          config.hash token = config.hash draw.sessionToken) →
      Stands config tr s

theorem not_claims_of_label (h : ∀ claimant draw removed,
    a ≠ .bootstrap (.claim claimant draw removed)) : ¬Claims config ⟨s, a, t⟩ claimant draw := by
  rintro ⟨removed, response, db, hlabel, -⟩
  exact h claimant draw removed hlabel

theorem not_logsOut_of_label (h : ∀ number now fault, a ≠ .act number now fault) :
    ¬LogsOut ⟨s, a, t⟩ := by
  rintro ⟨number, headers, principal, now, setCookies, -, hlabel, -⟩
  exact h number now false hlabel

theorem forall_not_snoc {P : SessionsEvent → Prop} (hlast : ¬P ⟨s, a, t⟩) :
    (∀ e ∈ tr ++ [⟨s, a, t⟩], ¬P e) ↔ ∀ e ∈ tr, ¬P e :=
  ⟨fun h e he => h e (List.mem_append_left _ he),
    fun h => Transition.forall_mem_snoc h hlast⟩

/-- A step that leaves the tables as they are and lets nobody through. -/
theorem Stands.quiet (h : Stands config tr s) (hsame : s.disk.db.Same t.disk.db)
    (hchecked : ∀ number headers endpoint principal, t.Checked number headers endpoint principal →
      s.Checked number headers endpoint principal)
    (hclaims : ∀ claimant draw, ¬Claims config ⟨s, a, t⟩ claimant draw)
    (hlogs : ¬LogsOut ⟨s, a, t⟩) : Stands config (tr ++ [⟨s, a, t⟩]) t := by
  cases h with
  | unclaimed hunclaimed haccounts hsessions hnone hin hrequests =>
      refine .unclaimed (fun hclaimed => hunclaimed (hsame.claimed.mp hclaimed))
        (hsame.accounts.trans haccounts) (hsame.sessions.trans hsessions)
        (Transition.forall_mem_snoc hnone hclaims) ((forall_not_snoc hlogs).mpr hin) ?_
      intro number headers endpoint principal hnew
      exact hrequests number headers endpoint principal
        (hchecked number headers endpoint principal hnew)
  | claimed he hclaims' hclaimed haccounts hsessions honly hrevoked hrequests =>
      refine .claimed (List.mem_append_left _ he) hclaims' (hsame.claimed.mpr hclaimed)
        (hsame.accounts.trans haccounts) (hsame.sessions.trans hsessions) ?_
        (hrevoked.trans (forall_not_snoc hlogs).symm) ?_
      · exact Transition.forall_mem_snoc honly fun claimant' draw' hnew =>
          absurd hnew (hclaims claimant' draw')
      · intro number headers endpoint principal hnew
        exact hrequests number headers endpoint principal
          (hchecked number headers endpoint principal hnew)

/-- The step of a claim. -/
theorem Stands.claim (h : Stands config tr s) {removed : Bool} {response : BootstrapClaimResponse}
    {db : AccountDatabase}
    (hclaim : claimBootstrap config.hash config.publicOrigin claimant draw s.disk.db =
      .ok (response, db)) (hdb : t.disk.db = db) (hrequests : t.requests = s.requests) :
    Stands config (tr ++ [⟨s, .bootstrap (.claim claimant draw removed), t⟩]) t := by
  have hnow : Claims config ⟨s, .bootstrap (.claim claimant draw removed), t⟩ claimant draw :=
    ⟨removed, response, db, rfl, hclaim⟩
  have hlogs : ¬LogsOut ⟨s, .bootstrap (.claim claimant draw removed), t⟩ :=
    not_logsOut_of_label nofun
  cases h with
  | claimed _ _ hclaimed => exact absurd hclaimed (claimBootstrap_unclaimed hclaim)
  | unclaimed _ haccounts hsessions hnone hin hchecked =>
      obtain ⟨haccounts', hsessions'⟩ := claimBootstrap_rows haccounts hsessions hclaim
      refine .claimed (List.mem_append_right _ (List.mem_singleton_self _)) hnow
        (hdb ▸ claimBootstrap_claimed hclaim) (hdb ▸ haccounts') (hdb ▸ hsessions') ?_
        ⟨fun _ => (forall_not_snoc hlogs).mpr hin, fun _ => rfl⟩ ?_
      · refine Transition.forall_mem_snoc (fun e he c d hc => absurd hc (hnone e he c d)) ?_
        rintro claimant' draw' ⟨_, _, _, hlabel, -⟩
        cases hlabel
        exact ⟨rfl, rfl⟩
      · intro number headers endpoint principal hnew
        rw [Sessions.Checked, hrequests] at hnew
        exact absurd hnew (hchecked number headers endpoint principal)

theorem Stands.bootstrap (h : Stands config tr s) (action : CloudAction) :
    Stands config
      (tr ++ [⟨s, .bootstrap action, { s with disk := bootstrapStep config s.disk action }⟩])
      { s with disk := bootstrapStep config s.disk action } := by
  cases action with
  | opening draw stops =>
      exact h.quiet (openCloud_same draw stops s.disk) (fun _ _ _ _ => id)
        (fun _ _ => not_claims_of_label fun _ _ _ heq => by cases heq)
        (not_logsOut_of_label fun _ _ _ heq => by cases heq)
  | claim claimant draw removed =>
      cases hclaim : claimBootstrap config.hash config.publicOrigin claimant draw s.disk.db with
      | ok result =>
          obtain ⟨response, db⟩ := result
          refine h.claim hclaim ?_ rfl
          simp only [bootstrapStep, hclaim]
      | error error =>
          refine h.quiet ?_ (fun _ _ _ _ => id) ?_
            (not_logsOut_of_label fun _ _ _ heq => by cases heq)
          · simp only [bootstrapStep, hclaim]
            exact .refl _
          · rintro claimant' draw' ⟨_, response, db, hlabel, hok⟩
            cases hlabel
            rw [hclaim] at hok
            cases hok

/-- `user` lets a request through. -/
theorem Stands.check (h : Stands config tr s) {number : Nat} {now : Int} {fault : Bool}
    {headers : UserHeaders} {endpoint : UserEndpoint} {principal : UserPrincipal}
    (hnow : Dated now) (hdated : ∀ e ∈ tr, ∀ claimant draw, Claims config e claimant draw →
      Dated (draw.now + hours sessionHours))
    (hok : user config headers endpoint.mutation now fault s.disk.db = .ok principal) :
    Stands config
      (tr ++ [⟨s, .check number now fault,
        s.goto number ⟨headers, endpoint, .arrived⟩ (.checked principal)⟩])
      (s.goto number ⟨headers, endpoint, .arrived⟩ (.checked principal)) := by
  have hfault : fault = false := by
    cases fault with
    | false => rfl
    | true => exact absurd hok user_of_fault
  subst hfault
  have hlogs : ∀ t, ¬LogsOut ⟨s, .check number now false, t⟩ := fun _ =>
    not_logsOut_of_label nofun
  cases h with
  | unclaimed _ _ hsessions => exact absurd hok (user_of_empty hsessions)
  | claimed he hclaims hclaimed haccounts hsessions honly hrevoked hchecked =>
      obtain ⟨rfl, -, -, hshows⟩ :=
        (user_eq_ok_iff haccounts hsessions hnow (hdated _ he _ _ hclaims)).mp hok
      refine .claimed (List.mem_append_left _ he) hclaims hclaimed haccounts hsessions ?_
        (hrevoked.trans (forall_not_snoc (hlogs _)).symm) ?_
      · exact Transition.forall_mem_snoc honly fun claimant' draw' hnew =>
          absurd hnew (not_claims_of_label nofun)
      · intro other headers' endpoint' principal' hnew
        rcases Sessions.checked_goto hnew with hold | ⟨rfl, rfl, rfl, hsame⟩
        · exact hchecked other headers' endpoint' principal' hold
        · cases hsame
          exact ⟨rfl, hshows.token⟩

/-- A logout that succeeds. -/
theorem Stands.logout (h : Stands config tr s) {number : Nat} {now : Int}
    {headers : UserHeaders} {principal : UserPrincipal} {setCookies : List String}
    {db : AccountDatabase} (hchecked : s.Checked number headers .logout principal)
    (hlogout : Cloud.logout config headers principal now false s.disk.db = .ok (setCookies, db))
    (ht : t = { s.goto number ⟨headers, .logout, .checked principal⟩
        (.answered (.ok (.loggedOut setCookies))) with disk := { s.disk with db } }) :
    Stands config (tr ++ [⟨s, .act number now false, t⟩]) t := by
  have hpost : t.requests number =
      some ⟨headers, .logout, .answered (.ok (.loggedOut setCookies))⟩ := by
    rw [ht]
    exact Function.update_self ..
  have hlogs : LogsOut ⟨s, .act number now false, t⟩ :=
    ⟨number, headers, principal, now, setCookies, hchecked, rfl, hpost⟩
  cases h with
  | unclaimed _ _ _ _ _ hnone => exact absurd hchecked (hnone number headers .logout principal)
  | @claimed e claimant draw revokedAt he hclaims hclaimed haccounts hsessions honly _ hrequests =>
      obtain ⟨rfl, token, htoken, hhash⟩ := hrequests number headers .logout principal hchecked
      obtain ⟨_, _, hlogout⟩ := Checks.bind_eq_ok.mp hlogout
      obtain ⟨token', htoken', hlogout⟩ := Checks.bind_eq_ok.mp hlogout
      cases (okOr_eq_ok.mp htoken').symm.trans htoken
      cases hlogout
      subst ht
      have hsessions' : Table.update
          (fun row => row.accountId = draw.accountId && row.tokenHash = config.hash token)
          (fun row => { row with revokedAt := some now }) s.disk.db.sessions =
          [sessionRow config.hash draw (some now)] := by
        rw [hsessions, hhash]
        simp [Table.update, sessionRow]
      refine .claimed (List.mem_append_left _ he) hclaims hclaimed haccounts hsessions' ?_
        ⟨nofun, fun hnot => absurd hlogs
          (hnot _ (List.mem_append_right _ (List.mem_singleton_self _)))⟩ ?_
      · exact Transition.forall_mem_snoc honly fun claimant' draw' hnew =>
          absurd hnew (not_claims_of_label nofun)
      · intro other headers' endpoint' principal' hnew
        rcases Sessions.checked_goto hnew with hold | ⟨-, -, -, hsame⟩
        · exact hrequests other headers' endpoint' principal' hold
        · cases hsame

/-- A handler that answers, and does not log out. -/
theorem Stands.answer (h : Stands config tr s) {number : Nat} {now : Int} {fault : Bool}
    {headers : UserHeaders} {endpoint : UserEndpoint} {principal : UserPrincipal}
    {reply : Except ApiError UserReply} (hchecked : s.Checked number headers endpoint principal)
    (hreply : endpoint = .logout → ∃ error, reply = .error error) :
    Stands config
      (tr ++ [⟨s, .act number now fault,
        s.goto number ⟨headers, endpoint, .checked principal⟩ (.answered reply)⟩])
      (s.goto number ⟨headers, endpoint, .checked principal⟩ (.answered reply)) := by
  refine h.quiet (.refl _) ?_ (fun _ _ => not_claims_of_label nofun) ?_
  · intro other headers' endpoint' principal' hnew
    exact (Sessions.checked_goto hnew).resolve_right fun hsame => nomatch hsame.2.2.2
  · rintro ⟨number', headers', principal', now', setCookies, hpre, hlabel, hpost⟩
    cases hlabel
    cases hchecked.symm.trans hpre
    obtain ⟨error, rfl⟩ := hreply rfl
    cases (Function.update_self number _ s.requests).symm.trans hpost

/-- The times of a step are in years from 0 to 9999. -/
def Timely (_ : Sessions) : SessionsAction → Sessions → Prop
  | .bootstrap (.claim _ draw _), _ => Dated (draw.now + hours sessionHours)
  | .check _ now _, _ => Dated now
  | _, _ => True

theorem Stands.step (h : Stands config tr s) (hdated : ∀ e ∈ tr, ∀ claimant draw,
      Claims config e claimant draw → Dated (draw.now + hours sessionHours))
    (hstep : s.step config a = some t) (htimely : Timely s a t) :
    Stands config (tr ++ [⟨s, a, t⟩]) t := by
  cases a with
  | bootstrap action =>
      cases hstep
      exact h.bootstrap action
  | arrive number headers endpoint =>
      simp only [Sessions.step] at hstep
      split at hstep
      next => cases hstep
      next =>
        cases hstep
        refine h.quiet (.refl _) ?_ (fun _ _ => not_claims_of_label nofun)
          (not_logsOut_of_label nofun)
        intro other headers' endpoint' principal' hnew
        exact (Sessions.checked_goto hnew).resolve_right fun hsame => nomatch hsame.2.2.2
  | check number now fault =>
      simp only [Sessions.step] at hstep
      split at hstep
      next headers endpoint hrequest =>
        cases huser : user config headers endpoint.mutation now fault s.disk.db with
        | ok principal =>
            rw [huser] at hstep
            cases hstep
            exact h.check htimely hdated huser
        | error error =>
            rw [huser] at hstep
            cases hstep
            refine h.quiet (.refl _) ?_ (fun _ _ => not_claims_of_label nofun)
              (not_logsOut_of_label nofun)
            intro other headers' endpoint' principal' hnew
            exact (Sessions.checked_goto hnew).resolve_right fun hsame => nomatch hsame.2.2.2
      next => cases hstep
  | act number now fault =>
      simp only [Sessions.step] at hstep
      split at hstep
      next headers endpoint principal hrequest =>
        cases endpoint with
        | session =>
            cases hstep
            exact h.answer hrequest nofun
        | other mutation =>
            cases hstep
            exact h.answer hrequest nofun
        | logout =>
            simp only [Sessions.handle] at hstep
            split at hstep
            next error _ =>
              cases hstep
              exact h.answer hrequest fun _ => ⟨error, rfl⟩
            next setCookies db hlogout =>
              cases fault with
              | true => cases hlogout
              | false => exact h.logout hrequest hlogout (Option.some.inj hstep).symm
      next => cases hstep

/-- What holds after a run. -/
structure SessionsHistory (config : CloudConfig) (tr : List SessionsEvent) (s : Sessions) : Prop where
  stands : Stands config tr s
  dated : ∀ e ∈ tr, ∀ claimant draw, Claims config e claimant draw →
    Dated (draw.now + hours sessionHours)
  once : tr.Pairwise fun e e' => ∀ claimant draw claimant' draw',
    Claims config e claimant draw → ¬Claims config e' claimant' draw'

theorem sessionsHistory_of_run (hstart : (Sessions.system config).start s)
    (hrun : ((Sessions.system config).restrict Timely).Run s tr t) :
    SessionsHistory config tr t := by
  refine hrun.history (I := SessionsHistory config) ?_ ?_
  · obtain ⟨hdisk, hnone⟩ := hstart
    have hunclaimed : ¬AccountDatabase.empty.Claimed := by
      intro hclaimed
      cases (Finmap.lookup_empty "bootstrap_claimed").symm.trans hclaimed
    refine ⟨.unclaimed ?_ ?_ ?_ (fun _ he => absurd he List.not_mem_nil)
      (fun _ he => absurd he List.not_mem_nil) ?_, fun _ he => absurd he List.not_mem_nil, .nil⟩
    · rw [hdisk]
      exact hunclaimed
    · rw [hdisk]
      rfl
    · rw [hdisk]
      rfl
    · intro number headers endpoint principal hchecked
      cases (hnone number).symm.trans hchecked
  · intro tr s a t _ hhist hstep
    refine ⟨hhist.stands.step hhist.dated hstep.1 hstep.2,
      Transition.forall_mem_snoc hhist.dated ?_, Transition.pairwise_snoc hhist.once ?_⟩
    · rintro claimant draw ⟨removed, response, db, rfl, -⟩
      exact hstep.2
    · rintro e he claimant draw claimant' draw' hclaims ⟨removed, response, db, rfl, hclaim⟩
      cases hhist.stands with
      | unclaimed _ _ _ hnone => exact hnone e he claimant draw hclaims
      | claimed _ _ hclaimed => exact claimBootstrap_unclaimed hclaim hclaimed

/-- Whom `user` lets through after a run. -/
theorem SessionsHistory.user_iff (h : SessionsHistory config tr s) {request : UserRequest}
    {now : Int} {principal : UserPrincipal} (hnow : Dated now) :
    user config request.headers request.endpoint.mutation now false s.disk.db = .ok principal ↔
      Authorized config tr now request principal := by
  cases h.stands with
  | unclaimed _ _ hsessions hnone =>
      constructor
      · exact fun hok => absurd hok (user_of_empty hsessions)
      · rintro ⟨e, he, claimant, draw, hclaims, -⟩
        exact absurd hclaims (hnone e he claimant draw)
  | claimed he hclaims _ haccounts hsessions honly hrevoked _ =>
      rw [user_eq_ok_iff haccounts hsessions hnow (h.dated _ he _ _ hclaims)]
      constructor
      · rintro ⟨rfl, hbefore, hnot, hshows⟩
        exact ⟨_, he, _, _, hclaims, rfl, hbefore, hrevoked.mp hnot, hshows⟩
      · rintro ⟨e', he', claimant', draw', hclaims', rfl, hbefore, hnot, hshows⟩
        obtain ⟨rfl, rfl⟩ := honly e' he' claimant' draw' hclaims'
        exact ⟨rfl, hbefore, hrevoked.mpr hnot, hshows⟩

theorem parseHandle_value (handle : AccountHandle) : parseHandle handle.value = .ok handle := by
  unfold parseHandle
  split
  next => rfl
  next h => cases h.symm.trans handle.valid

/-- What `session` replies after a run. -/
theorem session_eq {db : AccountDatabase} {revokedAt : Option Int} {headers : UserHeaders}
    {token : String} (haccounts : db.accounts = [accountRow claimant draw])
    (hsessions : db.sessions = [sessionRow config.hash draw revokedAt])
    (htoken : cookie headers config.sessionCookieName = some token)
    (hhash : config.hash token = config.hash draw.sessionToken) {csrfHash : String} :
    session config headers ⟨draw.accountId, csrfHash⟩ false db =
      claimView config claimant draw headers := by
  have hfound : db.sessionAccount draw.accountId (config.hash token) =
      some (accountRow claimant draw, sessionRow config.hash draw revokedAt) := by
    rw [AccountDatabase.sessionAccount, haccounts, hsessions, hhash]
    simp [accountRow, sessionRow]
  have hhandle : parseHandle (accountRow claimant draw).handle = .ok claimant.input.handle :=
    parseHandle_value _
  unfold session
  rw [htoken]
  show (okOr (db.sessionAccount draw.accountId (config.hash token)) _ >>= _) = _
  rw [hfound]
  show (okOr (cookie headers config.csrfCookieName) _ >>= fun csrf =>
    parseHandle (accountRow claimant draw).handle >>= _) = _
  simp only [hhandle]
  rfl

end

/-! ## Browsers -/

section

open CloudCore (IsTokenChar)

/-- The character ends nothing in a cookie. -/
structure Plain (c : Char) : Prop where
  semicolon : c ≠ ';'
  equals : c ≠ '='
  blank : Rust.isWhitespace c = false
  visible : ((0x20 ≤ c.val && c.val < 0x7f) || c.val == 0x09) = true

theorem plain_of_isTokenChar {c : Char} (h : IsTokenChar c) : Plain c := by
  have hall : ∀ n < 128, IsTokenChar (Char.ofNat n) →
      ((0x20 ≤ (Char.ofNat n).val && (Char.ofNat n).val < 0x7f) || (Char.ofNat n).val == 0x09) =
        true := by decide +kernel
  refine ⟨?_, ?_, h.2.2, ?_⟩
  · rintro rfl
    exact absurd h (by decide)
  · rintro rfl
    exact absurd h (by decide)
  · have hlt : c.toNat < 128 := Nat.lt_succ_of_le (UInt32.le_iff_toNat_le.mp h.1)
    have hc : Char.ofNat c.toNat = c := Char.ofNat_toNat c
    have hvisible := hall c.toNat hlt
    rw [hc] at hvisible
    exact hvisible h

theorem headerText_append {a b : String} (ha : headerText a = some a) (hb : headerText b = some b) :
    headerText (a ++ b) = some (a ++ b) := by
  simp only [headerText, Option.ite_none_right_eq_some, and_true] at ha hb ⊢
  rw [String.toList_append, List.all_append, ha, hb]
  rfl

theorem headerText_plain {text : String} (h : ∀ c ∈ text.toList, Plain c) :
    headerText text = some text :=
  if_pos (List.all_eq_true.mpr fun c hc => (h c hc).visible)

theorem cookiePair_eq {front attributes : String} (hfront : ∀ c ∈ front.toList, c ≠ ';')
    (hattributes : attributes.toList.head? = some ';') :
    cookiePair (front ++ attributes) = front.toList := by
  obtain ⟨rest, hrest⟩ := List.head?_eq_some_iff.mp hattributes
  rw [cookiePair, String.toList_append, hrest,
    List.takeWhile_append_of_pos fun c hc => decide_eq_true (hfront c hc)]
  simp

theorem cookiePairs_two {name name' value value' : String} (hname : ∀ c ∈ name.toList, Plain c)
    (hvalue : ∀ c ∈ value.toList, Plain c) (hname' : ∀ c ∈ name'.toList, Plain c)
    (hvalue' : ∀ c ∈ value'.toList, Plain c) :
    cookiePairs ((name ++ "=" ++ value).toList ++ "; ".toList ++ (name' ++ "=" ++ value').toList) =
      [(name.toList, value.toList), (name'.toList, value'.toList)] := by
  have hpair : ∀ {name value : String}, (∀ c ∈ name.toList, Plain c) →
      (∀ c ∈ value.toList, Plain c) →
      ';' ∉ (name ++ "=" ++ value).toList ∧
        (∀ c ∈ (name ++ "=" ++ value).toList, Rust.isWhitespace c = false) ∧
        Rust.splitOnce '=' (name ++ "=" ++ value).toList = some (name.toList, value.toList) := by
    intro name value hname hvalue
    have htext : (name ++ "=" ++ value).toList = name.toList ++ '=' :: value.toList := by
      simp [String.toList_append]
    have hmem : ∀ c ∈ name.toList ++ '=' :: value.toList, c ≠ ';' ∧ Rust.isWhitespace c = false := by
      intro c hc
      rcases List.mem_append.mp hc with hc | hc
      · exact ⟨(hname c hc).semicolon, (hname c hc).blank⟩
      · rcases List.mem_cons.mp hc with rfl | hc
        · decide
        · exact ⟨(hvalue c hc).semicolon, (hvalue c hc).blank⟩
    rw [htext]
    refine ⟨fun hc => (hmem _ hc).1 rfl, fun c hc => (hmem c hc).2, ?_⟩
    exact Rust.splitOnce_append (fun hc => (hname _ hc).equals rfl) _
  obtain ⟨hsemicolon, hblank, honce⟩ := hpair hname hvalue
  obtain ⟨hsemicolon', hblank', honce'⟩ := hpair hname' hvalue'
  have htrim : Rust.trim (name ++ "=" ++ value).toList = (name ++ "=" ++ value).toList := by
    have happend := Rust.trim_append hblank (List.forall_mem_nil _)
    rwa [List.append_nil] at happend
  have htrim' : Rust.trim (' ' :: (name' ++ "=" ++ value').toList) =
      (name' ++ "=" ++ value').toList := by
    have happend := Rust.trim_append hblank' (List.forall_mem_nil _)
    rw [List.append_nil] at happend
    exact happend
  have hjoined : (name ++ "=" ++ value).toList ++ "; ".toList ++ (name' ++ "=" ++ value').toList =
      (name ++ "=" ++ value).toList ++ ';' :: ' ' :: (name' ++ "=" ++ value').toList := by
    rw [List.append_assoc]
    rfl
  have hlast : ';' ∉ ' ' :: (name' ++ "=" ++ value').toList := by
    rw [List.mem_cons, not_or]
    exact ⟨by decide, hsemicolon'⟩
  rw [cookiePairs, hjoined, Rust.split_append hsemicolon, Rust.split_of_not_mem hlast]
  simp only [List.filterMap_cons, List.filterMap_nil, htrim, htrim', honce, honce']

variable {config : CloudConfig}

theorem sessionCookieName_plain : ∀ c ∈ config.sessionCookieName.toList, Plain c := by
  have hsecure : "__Host-c6_cloud_session".toList.all (fun c => decide (IsTokenChar c)) = true := by
    decide
  have hinsecure : "c6_cloud_session".toList.all (fun c => decide (IsTokenChar c)) = true := by
    decide
  intro c hc
  rw [CloudConfig.sessionCookieName] at hc
  split at hc
  next => exact plain_of_isTokenChar (of_decide_eq_true (List.all_eq_true.mp hsecure c hc))
  next => exact plain_of_isTokenChar (of_decide_eq_true (List.all_eq_true.mp hinsecure c hc))

theorem csrfCookieName_plain : ∀ c ∈ config.csrfCookieName.toList, Plain c := by
  have hsecure : "__Host-c6_cloud_csrf".toList.all (fun c => decide (IsTokenChar c)) = true := by
    decide
  have hinsecure : "c6_cloud_csrf".toList.all (fun c => decide (IsTokenChar c)) = true := by
    decide
  intro c hc
  rw [CloudConfig.csrfCookieName] at hc
  split at hc
  next => exact plain_of_isTokenChar (of_decide_eq_true (List.all_eq_true.mp hsecure c hc))
  next => exact plain_of_isTokenChar (of_decide_eq_true (List.all_eq_true.mp hinsecure c hc))

theorem cookieNames_ne : config.sessionCookieName ≠ config.csrfCookieName := by
  rw [CloudConfig.sessionCookieName, CloudConfig.csrfCookieName]
  split
  next => decide
  next => decide

theorem headerText_attributes : headerText config.sessionAttributes = some config.sessionAttributes ∧
    headerText config.csrfAttributes = some config.csrfAttributes := by
  have hsuffix : headerText config.suffix = some config.suffix := by
    rw [CloudConfig.suffix]
    split
    next => decide
    next => decide
  have hage : headerText (24 * 30 * 3600).repr = some (24 * 30 * 3600).repr := by decide +kernel
  exact ⟨headerText_append (headerText_append (by decide) hage) hsuffix,
    headerText_append (headerText_append (by decide) hage) hsuffix⟩

theorem attributes_head : config.sessionAttributes.toList.head? = some ';' ∧
    config.csrfAttributes.toList.head? = some ';' := by
  have happend : ∀ {text rest : String}, text.toList.head? = some ';' →
      (text ++ rest).toList.head? = some ';' := by
    intro text rest h
    rw [String.toList_append, List.head?_append, h, Option.some_or]
  exact ⟨happend (happend (by decide)), happend (happend (by decide))⟩

/-- The cookies of a response, sent back. -/
theorem cookie_browserHeaders {session csrf : String} (hsession : ∀ c ∈ session.toList, Plain c)
    (hcsrf : ∀ c ∈ csrf.toList, Plain c) :
    ∃ setCookies, config.sessionResponse session csrf = .ok setCookies ∧
      cookie (browserHeaders config setCookies csrf) config.sessionCookieName = some session ∧
      cookie (browserHeaders config setCookies csrf) config.csrfCookieName = some csrf := by
  have hequals : headerText "=" = some "=" := by decide
  have hpair : ∀ {name value : String}, (∀ c ∈ name.toList, Plain c) →
      (∀ c ∈ value.toList, Plain c) →
      headerText (name ++ "=" ++ value) = some (name ++ "=" ++ value) ∧
        ∀ c ∈ (name ++ "=" ++ value).toList, c ≠ ';' := by
    intro name value hname hvalue
    refine ⟨headerText_append (headerText_append (headerText_plain hname) hequals)
      (headerText_plain hvalue), ?_⟩
    intro c hc
    rw [String.toList_append, String.toList_append, List.mem_append, List.mem_append] at hc
    rcases hc with (hc | hc) | hc
    · exact (hname c hc).semicolon
    · rw [List.mem_singleton.mp hc]
      decide
    · exact (hvalue c hc).semicolon
  obtain ⟨htext, hnone⟩ := hpair (@sessionCookieName_plain config) hsession
  obtain ⟨htext', hnone'⟩ := hpair (@csrfCookieName_plain config) hcsrf
  have hresponse : config.sessionResponse session csrf = .ok
      [config.sessionCookieName ++ "=" ++ session ++ config.sessionAttributes,
        config.csrfCookieName ++ "=" ++ csrf ++ config.csrfAttributes] := by
    rw [CloudConfig.sessionResponse, headerText_append htext headerText_attributes.1,
      headerText_append htext' headerText_attributes.2]
    rfl
  refine ⟨_, hresponse, ?_⟩
  have hpairs : ∀ name, cookie (browserHeaders config
        [config.sessionCookieName ++ "=" ++ session ++ config.sessionAttributes,
          config.csrfCookieName ++ "=" ++ csrf ++ config.csrfAttributes] csrf) name =
      [(config.sessionCookieName.toList, session.toList),
        (config.csrfCookieName.toList, csrf.toList)].findSome? fun (key, value) =>
          if String.ofList key = name then some (String.ofList value) else none := by
    intro name
    have hjoined : ∀ front back : String,
        String.ofList (List.intercalate "; ".toList [front.toList, back.toList]) =
          front ++ "; " ++ back := by
      intro front back
      rw [← String.toList_inj, String.toList_ofList, String.toList_append, String.toList_append]
      simp [List.intercalate]
    have hsent := headerText_append
      (headerText_append htext (by decide : headerText "; " = some "; ")) htext'
    rw [cookie, browserHeaders, List.map_cons, List.map_cons, List.map_nil,
      cookiePair_eq hnone attributes_head.1, cookiePair_eq hnone' attributes_head.2, hjoined]
    simp only [List.filterMap_cons, List.filterMap_nil, hsent, List.flatMap_cons,
      List.flatMap_nil, List.append_nil]
    rw [String.toList_append, String.toList_append,
      cookiePairs_two sessionCookieName_plain hsession csrfCookieName_plain hcsrf]
  rw [hpairs, hpairs]
  simp [cookieNames_ne]

end

/-! ## Runs -/

section

variable {config : CloudConfig} {s t : Sessions} {tr : List SessionsEvent}

theorem ClaimDraw.Issued.shows {draw : ClaimDraw} (h : draw.Issued)
    (horigin : headerText config.publicOrigin = some config.publicOrigin) :
    ∃ setCookies, config.sessionResponse draw.sessionToken draw.csrf = .ok setCookies ∧
      ∀ mutation, Shows config draw (browserHeaders config setCookies draw.csrf) mutation := by
  obtain ⟨⟨_, _, -, -, hsession⟩, ⟨_, _, -, -, hcsrf⟩⟩ := h
  have hplain : ∀ c ∈ draw.sessionToken.toList, Plain c := by
    rw [hsession]
    exact fun c hc => plain_of_isTokenChar (CloudCore.isTokenChar_issueToken c hc)
  have hplain' : ∀ c ∈ draw.csrf.toList, Plain c := by
    rw [hcsrf]
    exact fun c hc => plain_of_isTokenChar (CloudCore.isTokenChar_issueToken c hc)
  obtain ⟨setCookies, hresponse, htoken, hcookie⟩ := cookie_browserHeaders hplain hplain'
  exact ⟨setCookies, hresponse, fun mutation => ⟨⟨_, htoken, rfl⟩,
    fun _ => ⟨horigin, _, hcookie, headerText_plain hplain', rfl⟩⟩⟩

/-- In every run of openings, claims and requests of users, in which the times are
in years from 0 to 9999, whoever interleaves with whom. -/
theorem session_authority (hstart : (Sessions.system config).start s)
    (hrun : ((Sessions.system config).restrict Timely).Run s tr t) :
    SessionAuthority config tr where
  once := (sessionsHistory_of_run hstart hrun).once
  admits := by
    refine hrun.forall_split ?_
    intro tr s a t hbefore hstep number now request hlabel hrequest principal
    have hhist := sessionsHistory_of_run hstart hbefore
    obtain ⟨hstep, htimely⟩ := hstep
    subst hlabel
    rw [← hhist.user_iff htimely]
    replace hstep : s.step config (.check number now false) = some t := hstep
    simp only [Sessions.step] at hstep
    split at hstep
    next headers endpoint harrived =>
      cases hrequest.symm.trans harrived
      cases hstep
      show Function.update s.requests number _ number = _ ↔ _
      rw [Function.update_self]
      cases huser : user config headers endpoint.mutation now false s.disk.db with
      | ok principal' => simp
      | error error => simp
    next => cases hstep
  views := by
    refine hrun.forall_split ?_
    intro tr s a t hbefore hstep number now headers principal hlabel hchecked
    have hhist := sessionsHistory_of_run hstart hbefore
    obtain ⟨hstep, -⟩ := hstep
    subst hlabel
    replace hstep : s.step config (.act number now false) = some t := hstep
    have ht : s.goto number ⟨headers, .session, .checked principal⟩
        (.answered ((session config headers principal false s.disk.db).map .session)) = t := by
      rw [Sessions.step, hchecked] at hstep
      exact Option.some.inj hstep
    cases hhist.stands with
    | unclaimed _ _ _ _ _ hnone => exact absurd hchecked (hnone number headers .session principal)
    | claimed he hclaims _ haccounts hsessions _ _ hrequests =>
        obtain ⟨rfl, token, htoken, hhash⟩ := hrequests number headers .session principal hchecked
        refine ⟨_, he, _, _, hclaims, ?_⟩
        rw [← ht, session_eq haccounts hsessions htoken hhash]
        show Function.update s.requests number _ number = _
        rw [Function.update_self]
  browser e _ claimant draw _ hissued horigin := hissued.shows horigin

end

/-! ### A logout -/

def zeroClaimant : Claimant where
  loopback := true
  origin := some zeroConfig.publicOrigin
  input := ⟨zeroDraw.token, ⟨"paper", by decide⟩, "Paper Street"⟩

/-- A claim at the beginning of 1970. -/
def zeroClaim : ClaimDraw where
  accountId := 1
  sessionId := 2
  sessionToken := CloudCore.issueToken .cloudSession (List.replicate 8 0) (List.replicate 32 0)
  csrf := CloudCore.issueToken .csrf (List.replicate 8 0) (List.replicate 32 0)
  now := 0
  fault := false

def noSessions : Sessions := ⟨⟨none, .empty⟩, fun _ => none⟩

/-- The headers of the browser that has claimed. -/
def zeroHeaders : UserHeaders :=
  browserHeaders zeroConfig
    ((zeroConfig.sessionResponse zeroClaim.sessionToken zeroClaim.csrf).toOption.getD [])
    zeroClaim.csrf

/-- A request is let through, and then another one logs out before it is handled;
a third one comes too late. -/
def logoutActions : List SessionsAction :=
  [.bootstrap (.opening zeroDraw throughout), .bootstrap (.claim zeroClaimant zeroClaim true),
    .arrive 0 zeroHeaders .session, .check 0 1 false, .arrive 1 zeroHeaders .logout,
    .check 1 2 false, .act 1 3 false, .act 0 4 false, .arrive 2 zeroHeaders .session,
    .check 2 5 false]

/-- What a request has come to: it is refused with this status, or not refused. -/
def UserRequest.refused (request : UserRequest) : Option Nat :=
  match request.task with
  | .answered (.error error) => some error.status
  | _ => none

theorem session_authority_logout : ∃ tr t,
    ((Sessions.system zeroConfig).restrict Timely).Run noSessions tr t ∧
      SessionAuthority zeroConfig tr ∧
      [0, 1, 2].map (fun number => (t.requests number).bind UserRequest.refused) =
        [none, none, some 401] := by
  have hend : (Transition.System.follow (Sessions.step zeroConfig) noSessions logoutActions).map
      (fun result => [0, 1, 2].map fun number =>
        (result.2.requests number).bind UserRequest.refused) = some [none, none, some 401] := by
    decide +kernel
  obtain ⟨⟨tr, t⟩, hfollow, hrefused⟩ := Option.map_eq_some_iff.mp hend
  have hclaim : Dated (0 + hours sessionHours) := by
    show (Rust.DateTime.ofNanos (0 + hours sessionHours)).InYears
    decide +kernel
  have hchecks : ∀ now ∈ [1, 2, 5], Dated now := by
    show ∀ now ∈ [1, 2, 5], (Rust.DateTime.ofNanos now).InYears
    decide +kernel
  have hdated : ∀ a ∈ logoutActions, ∀ s t, Timely s a t := by
    intro a ha s t
    simp only [logoutActions, List.mem_cons, List.not_mem_nil, or_false] at ha
    rcases ha with rfl | rfl | rfl | rfl | rfl | rfl | rfl | rfl | rfl | rfl
    · trivial
    · exact hclaim
    · trivial
    · exact hchecks 1 (by decide)
    · trivial
    · exact hchecks 2 (by decide)
    · trivial
    · trivial
    · trivial
    · exact hchecks 5 (by decide)
  have hrun : ((Sessions.system zeroConfig).restrict Timely).Run noSessions tr t := by
    refine (Transition.System.Run.of_follow hfollow).restrict fun e he => hdated e.label ?_ _ _
    rw [← Transition.System.labels_of_follow hfollow]
    exact List.mem_map_of_mem he
  exact ⟨tr, t, hrun, session_authority ⟨rfl, fun _ => rfl⟩ hrun, hrefused⟩

end Cresix.Cloud
