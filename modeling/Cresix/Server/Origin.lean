import Cresix.Server.Revocation

/-!
# The origin of unsafe requests

The browser API lies behind a layer that asks unsafe requests for the origin of
the server, unless they say that they bear a token.  A handler that wants a
cookie session refuses those.  The two public handlers that change something
take no credential at all, and so refuse nobody.
-/

namespace Cresix.Server

open Concurrent (Program)

/-- `http::Method`. -/
inductive Method where
  | get
  | head
  | options
  | post
  | put
  | delete
  | patch
  | trace
  | connect
  | extension (name : String)
deriving DecidableEq, Repr

/-- The methods the layer asks for no origin. -/
def Method.safe : Method → Bool
  | .get | .head | .options => true
  | _ => false

/-- A request to the browser API. -/
structure BrowserRequest where
  method : Method
  headers : Headers
  /-- The value of `Sec-Fetch-Site`. -/
  secFetchSite : Option String
  endpoint : Endpoint
deriving DecidableEq, Repr

/-- The request says that it bears a token. -/
def bearer (headers : Headers) : Bool :=
  (headers.authorization.head?.bind headerText).any fun value => Rust.startsWith value "Bearer "

/-- `same_origin`. -/
def sameOrigin (config : Config) (request : BrowserRequest) : Outcome Unit :=
  if bearer request.headers then validateOptionalOrigin config request.headers
  else if request.method.safe then .ok ()
  else do
    let origin ← orElse (request.headers.origin.bind headerText)
      (.forbidden "Origin header required for unsafe requests")
    require (Rust.trimEndMatches '/' origin = config.publicBaseUrl)
      (.forbidden "cross-origin request rejected")
    require ((request.secFetchSite.bind headerText).all
        fun site => ["same-origin", "same-site", "none"].contains site)
      (.forbidden "cross-site request rejected")

/-- A request to the browser API, through the layer. -/
def browserApi (config : Config) (request : BrowserRequest) :
    Program Store Input HttpError Reply := do
  Program.check ((sameOrigin config request).mapError .api)
  program config ⟨request.headers, request.endpoint⟩

/-- The `Origin` header is the configured URL, up to slashes at its end. -/
def OriginMatches (config : Config) (headers : Headers) : Prop :=
  ∃ origin, headers.origin = some origin ∧ headerText origin = some origin ∧
    Rust.trimEndMatches '/' origin = config.publicBaseUrl

/-- The handlers that change something and ask for no session. -/
def Endpoint.unauthenticated : Endpoint → Bool
  | .claim _ | .redeemInvite _ => true
  | _ => false

/-- A handler finds the cookie session it acts on. -/
def ActsOnSession (config : Config) (headers : Headers) (inputs : Nat → Input) (s : Store) : Prop :=
  ∃ csrf p t rest, (authenticate config headers csrf).run inputs s = (.ok p, t, rest)

/-- The request comes to the body of a public handler, or to that of a handler
which acts on a cookie session. -/
def ReachesBody (config : Config) (request : BrowserRequest) (inputs : Nat → Input) (s : Store) :
    Prop :=
  sameOrigin config request = .ok () ∧
    (request.endpoint.unauthenticated = true ∨ ActsOnSession config request.headers inputs s)

section

variable {config : Config} {request : BrowserRequest} {headers : Headers} {s t : Store}
  {inputs rest : Nat → Input}

theorem headerText_eq_some {value text : String} (h : headerText value = some text) :
    text = value := by
  unfold headerText at h
  split at h
  next =>
    cases h
    rfl
  next => cases h

theorem OriginMatches.of_text {origin : String} (h : headers.origin.bind headerText = some origin)
    (hsame : Rust.trimEndMatches '/' origin = config.publicBaseUrl) :
    OriginMatches config headers := by
  obtain ⟨value, hvalue, htext⟩ := Option.bind_eq_some_iff.mp h
  obtain rfl := headerText_eq_some htext
  exact ⟨_, hvalue, htext, hsame⟩

/-- What is checked of a request that bears a token. -/
theorem validateOptionalOrigin_eq_ok :
    validateOptionalOrigin config headers = .ok () ↔
      headers.origin = none ∨ OriginMatches config headers := by
  unfold validateOptionalOrigin
  cases horigin : headers.origin with
  | none => simp
  | some origin =>
      constructor
      · intro h
        obtain ⟨text, htext, h⟩ := bind_eq_ok.mp h
        refine .inr (.of_text ?_ (of_decide_eq_true (require_eq_ok.mp h)))
        rw [horigin]
        exact orElse_eq_ok.mp htext
      · rintro (hnone | ⟨value, hvalue, htext, hsame⟩)
        · cases hnone
        · cases horigin.symm.trans hvalue
          exact bind_eq_ok.mpr ⟨origin, orElse_eq_ok.mpr htext,
            require_eq_ok.mpr (decide_eq_true hsame)⟩

/-- An unsafe request that bears no token has the origin. -/
theorem originMatches_of_sameOrigin (hmutating : request.method.safe = false)
    (hbearer : bearer request.headers = false) (h : sameOrigin config request = .ok ()) :
    OriginMatches config request.headers := by
  unfold sameOrigin at h
  rw [hbearer, hmutating] at h
  obtain ⟨origin, horigin, h⟩ := bind_eq_ok.mp h
  obtain ⟨_, hsame, _⟩ := bind_eq_ok.mp h
  exact .of_text (orElse_eq_ok.mp horigin) (of_decide_eq_true (require_eq_ok.mp hsame))

theorem sameOrigin_of_bearer (hbearer : bearer request.headers = true) :
    sameOrigin config request = validateOptionalOrigin config request.headers := by
  unfold sameOrigin
  rw [hbearer]
  rfl

/-- A handler that acts on a cookie session refuses a token. -/
theorem ActsOnSession.not_bearer (h : ActsOnSession config headers inputs s) :
    bearer headers = false := by
  obtain ⟨csrf, p, t, rest, hrun⟩ := h
  obtain ⟨_, hempty, _⟩ := Program.run_check_bind_eq_ok.mp hrun
  have hnil := List.isEmpty_iff.mp (require_eq_ok.mp hempty)
  unfold bearer
  rw [hnil]
  rfl

/-- A change for the user of a session is made by a handler that acts on it. -/
theorem acts_of_mutates {endpoint : Endpoint} (hmutates : endpoint.mutates = true) {reply : Reply}
    (h : (program config ⟨headers, endpoint⟩).run inputs s = (.ok reply, t, rest)) :
    ActsOnSession config headers inputs s := by
  cases endpoint with
  | logout | createInvite | revokePeer | revokeDevice | revokeSession | createCredential
  | revokeCredential | createWorkspace | updateWorkspace | createProject | updateProject =>
      obtain ⟨p, u, middle, hrun, _⟩ :=
        Program.run_bind_eq_ok.mp (Program.run_mapError_eq_ok.mp h)
      exact ⟨_, p, u, middle, hrun⟩
  | createPr | createDeployment | createRun | createSchedule | createSecretMetadata =>
      obtain ⟨_, _, _, hauth, _⟩ := Program.run_bind_eq_ok.mp (Program.run_mapError_eq_ok.mp h)
      obtain ⟨p, u, middle, hrun, _⟩ := Program.run_bind_eq_ok.mp hauth
      exact ⟨_, p, u, middle, hrun⟩
  | _ => cases hmutates

/-- What is answered well was done by a body. -/
theorem reachesBody_of_ok {reply : Reply}
    (hchanges : (request.endpoint.unauthenticated || request.endpoint.mutates) = true)
    (h : (browserApi config request).run inputs s = (.ok reply, t, rest)) :
    ReachesBody config request inputs s := by
  obtain ⟨_, hlayer, h⟩ := Program.run_check_bind_eq_ok.mp h
  have hlayer' : sameOrigin config request = .ok () := by
    cases hcase : sameOrigin config request with
    | ok _ => rfl
    | error error =>
        rw [hcase] at hlayer
        cases hlayer
  refine ⟨hlayer', ?_⟩
  rcases Bool.or_eq_true_iff.mp hchanges with hpublic | hmutates
  · exact .inl hpublic
  · exact .inr (acts_of_mutates hmutates h)

/-- An unsafe request that reaches a body had the origin of the server, unless it
claims to bear a token, brings no `Origin`, and comes to a public handler. -/
theorem cross_origin_protection (hmutating : request.method.safe = false) :
    (ReachesBody config request inputs s → OriginMatches config request.headers) ↔
      ¬ (request.endpoint.unauthenticated = true ∧ bearer request.headers = true ∧
        request.headers.origin = none) := by
  constructor
  · rintro hprotected ⟨hpublic, hbearer, hnone⟩
    have hlayer : sameOrigin config request = .ok () := by
      rw [sameOrigin_of_bearer hbearer]
      exact validateOptionalOrigin_eq_ok.mpr (.inl hnone)
    obtain ⟨origin, horigin, _⟩ := hprotected ⟨hlayer, .inl hpublic⟩
    rw [hnone] at horigin
    cases horigin
  · rintro hcondition ⟨hlayer, hbody⟩
    cases hbearer : bearer request.headers with
    | false => exact originMatches_of_sameOrigin hmutating hbearer hlayer
    | true =>
        rcases hbody with hpublic | hsession
        · rw [sameOrigin_of_bearer hbearer] at hlayer
          rcases validateOptionalOrigin_eq_ok.mp hlayer with hnone | hmatches
          · exact absurd ⟨hpublic, hbearer, hnone⟩ hcondition
          · exact hmatches
        · rw [hsession.not_bearer] at hbearer
          cases hbearer

end

/-! ## A claim from elsewhere -/

/-- A claim that says it bears a token, and brings no `Origin`. -/
def bearingClaim : BrowserRequest where
  method := .post
  headers := ⟨["Bearer x"], none, none, none, []⟩
  secFetchSite := some "cross-site"
  endpoint := .claim ⟨"claim-me", "Ada", "laptop", "a public key of thirty-two bytes"⟩

/-- The server is claimed by it. -/
theorem claim_without_origin :
    ¬ ∀ config request inputs s, request.method.safe = false →
      ReachesBody config request inputs s → OriginMatches config request.headers := by
  intro hall
  have hdata : ((stateAfter sampleConfig
      [.ensureServer "claim-me" "server-1", .backfillServerOwner]).map fun x =>
        ((browserApi sampleConfig bearingClaim).run
          (fun _ => sampleInput ["user-1", "device-1", "session-1", "token-1", "csrf-1"])
            x.pool.state).1.toOption.isSome) = some true := by
    decide
  obtain ⟨x, _, hsome⟩ := Option.map_eq_some_iff.mp hdata
  obtain ⟨reply, hreply⟩ := Option.isSome_iff_exists.mp hsome
  obtain ⟨t, rest, hrun⟩ := Program.run_of_toOption hreply
  obtain ⟨origin, horigin, _⟩ := hall _ _ _ _ rfl (reachesBody_of_ok rfl hrun)
  cases horigin

/-- A claim from a page of the server. -/
def plainClaim : BrowserRequest :=
  { bearingClaim with
    headers := ⟨[], none, none, some "https://c6.example/", []⟩
    secFetchSite := some "same-origin" }

theorem cross_origin_protection_claim :
    ReachesBody sampleConfig plainClaim (fun _ => sampleInput []) ⟨.empty, 0⟩ ∧
      OriginMatches sampleConfig plainClaim.headers := by
  have hlayer : sameOrigin sampleConfig plainClaim = .ok () := by decide
  have hreaches : ReachesBody sampleConfig plainClaim (fun _ => sampleInput []) ⟨.empty, 0⟩ :=
    ⟨hlayer, .inl rfl⟩
  refine ⟨hreaches, (cross_origin_protection rfl).mpr ?_ hreaches⟩
  rintro ⟨_, hbearer, _⟩
  cases hbearer

end Cresix.Server
