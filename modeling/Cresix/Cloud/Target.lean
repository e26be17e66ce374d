import Cresix.Cloud.Proxy
import Cresix.Library.Checks
import Cresix.Rust.Fs
import Cresix.Rust.Percent

/-!
# The target of a relayed request

`relay_proxy` puts the target together from the path that the extractor has
decoded and from the query as it was sent.  Nothing encodes the path again.  So
the target is what the client asked for only where there is nothing to decode
(`relayed_target_iff`).
-/

namespace Cresix.Cloud

open Relay (HeaderField HttpMethod ProxyRequest RequestStartFrame)
open Rust.Http

/-- A request URI that the route `/relay/{route}/{*path}` matches, as it was sent. -/
structure RelayUri where
  route : String
  /-- The path behind the route and its slash. -/
  rest : String
  query : Option String
  route_ne : route ≠ ""
  route_segment : '/' ∉ route.toList
  rest_ne : rest ≠ ""

namespace RelayUri

/-- The path of the URI. -/
def path (uri : RelayUri) : String := "/relay/" ++ uri.route ++ "/" ++ uri.rest

/-- The path behind the route, and the query. -/
def pathAndQuery (uri : RelayUri) : String :=
  match uri.query with
  | some query => "/" ++ uri.rest ++ "?" ++ query
  | none => "/" ++ uri.rest

/-- A capture as `Path` gives it; `none` when it is no text. -/
def decode (capture : String) : Option String :=
  Rust.fromUtf8 (Rust.percentDecode (Rust.bytes capture))

/-- `AxumPath((route, path))`. -/
def extract (uri : RelayUri) : Option (String × String) := do
  let route ← decode uri.route
  let path ← decode uri.rest
  return (route, path)

/-- The frame that opens the exchange of a request, unless the request is refused before. -/
def requestStart (uri : RelayUri) (method : String) (headers : HeaderMap) (requestId : Rust.Uuid)
    (deadlineUnixMs : UInt64) : Option RequestStartFrame := do
  let (_, path) ← uri.extract
  let request ← (HttpRequest.prepare ⟨method, path, uri.query, headers⟩).toOption
  let frame ← (request.startFrame requestId deadlineUnixMs).toOption
  if frame.validate = .ok () then some frame else none

end RelayUri

/-- The check of a target in `RequestStartFrame::validate`. -/
def isTarget (target : String) : Bool :=
  !(target.isEmpty || Relay.maxTargetBytes < Rust.len target
    || !Rust.startsWith target "/" || Rust.startsWith target "//"
    || Rust.contains target "#" || Rust.contains target "://"
    || Rust.contains target "\\" || (Rust.bytes target).any Rust.isAsciiControl)

theorem validate_requestStart_iff {frame : RequestStartFrame} : frame.validate = .ok () ↔
    isTarget frame.target = true ∧ frame.deadlineUnixMs ≠ 0 ∧
      Relay.validateHeaders frame.headers = .ok () := by
  unfold RequestStartFrame.validate isTarget
  split
  next htarget => simp [htarget]
  next htarget =>
    rw [Bool.not_eq_true] at htarget
    simp only [htarget, Bool.not_false, true_and]
    split
    next hdeadline => simp [hdeadline]
    next hdeadline => simp [hdeadline]

namespace RelayUri

/-- The target that is made of a decoded path. -/
def targetOf (uri : RelayUri) (path : String) : String :=
  HttpRequest.target ⟨"GET", path, uri.query, []⟩

/-- No frame has what the path decodes to as a target. -/
def Refused (uri : RelayUri) : Prop :=
  ∀ route path, uri.extract = some (route, path) → isTarget (uri.targetOf path) = false

variable {uri : RelayUri} {method : String} {headers : HeaderMap} {requestId : Rust.Uuid}
  {deadlineUnixMs : UInt64} {frame : RequestStartFrame}

/-- What is sent has the target made of the decoded path. -/
theorem requestStart_eq_some
    (h : uri.requestStart method headers requestId deadlineUnixMs = some frame) :
    ∃ route path, uri.extract = some (route, path) ∧ frame.target = uri.targetOf path ∧
      isTarget frame.target = true := by
  unfold requestStart at h
  obtain ⟨⟨route, path⟩, hextract, h⟩ := Option.bind_eq_some_iff.mp h
  obtain ⟨request, hrequest, h⟩ := Option.bind_eq_some_iff.mp h
  obtain ⟨frame', hframe, h⟩ := Option.bind_eq_some_iff.mp h
  split at h
  next hvalid =>
    cases h
    refine ⟨route, path, hextract, ?_, (validate_requestStart_iff.mp hvalid).1⟩
    obtain ⟨-, htarget, -⟩ := HttpRequest.prepare_method (Checks.toOption_eq_some.mp hrequest)
    unfold ProxyRequest.startFrame at hframe
    cases hmethod : HttpMethod.new request.method with
    | error error =>
        rw [hmethod] at hframe
        cases hframe
    | ok method =>
        rw [hmethod] at hframe
        rw [← Option.some.inj hframe]
        exact htarget
  next => cases h

/-- A `GET` without headers is sent where the target is taken. -/
theorem requestStart_get {route path : String} (requestId : Rust.Uuid) (hextract : uri.extract = some (route, path))
    (htarget : isTarget (uri.targetOf path) = true) :
    ∃ frame, uri.requestStart "GET" [] requestId 1 = some frame ∧
      frame.target = uri.targetOf path := by
  refine ⟨⟨requestId, ⟨"GET", Relay.get_mem_httpMethods⟩, uri.targetOf path, [], 1⟩, ?_, rfl⟩
  have hmethod : HttpMethod.new "GET" = .ok ⟨"GET", Relay.get_mem_httpMethods⟩ :=
    HttpMethod.new_value ⟨"GET", Relay.get_mem_httpMethods⟩
  have hprepare : HttpRequest.prepare ⟨"GET", path, uri.query, []⟩ =
      .ok ⟨"GET", uri.targetOf path, [], []⟩ := by
    unfold HttpRequest.prepare
    rw [hmethod]
    rfl
  have hstart : ProxyRequest.startFrame ⟨"GET", uri.targetOf path, [], []⟩ requestId 1 =
      .ok ⟨requestId, ⟨"GET", Relay.get_mem_httpMethods⟩, uri.targetOf path, [], 1⟩ := by
    unfold ProxyRequest.startFrame
    rw [hmethod]
    rfl
  unfold requestStart
  simp only [hextract, hprepare, hstart, Except.toOption, Option.bind_eq_bind, Option.bind_some]
  rw [if_pos]
  have hone : (1 : UInt64) ≠ 0 := by decide
  exact validate_requestStart_iff.mpr ⟨htarget, hone, rfl⟩

theorem append_right_injective {s t u : String} : s ++ t = s ++ u ↔ t = u := by
  constructor
  · intro h
    refine Rust.bytes_injective ?_
    have hbytes := congrArg Rust.bytes h
    rw [Rust.bytes_append, Rust.bytes_append] at hbytes
    exact List.append_cancel_left hbytes
  · rintro rfl
    rfl

theorem targetOf_eq_iff {path : String} : uri.targetOf path = uri.pathAndQuery ↔ path = uri.rest := by
  unfold targetOf HttpRequest.target pathAndQuery
  cases uri.query with
  | none => exact append_right_injective
  | some query =>
      constructor
      · intro h
        refine Rust.bytes_injective ?_
        have hbytes := congrArg Rust.bytes h
        simp only [Rust.bytes_append, List.append_assoc] at hbytes
        exact List.append_cancel_right (List.append_cancel_left hbytes)
      · rintro rfl
        rfl

theorem extract_path {route path : String} (h : uri.extract = some (route, path)) :
    path = uri.rest ↔ ¬Rust.HasTriplet (Rust.bytes uri.rest) := by
  obtain ⟨_, -, h⟩ := Option.bind_eq_some_iff.mp h
  obtain ⟨path', hpath, h⟩ := Option.bind_eq_some_iff.mp h
  cases h
  have hbytes : Rust.bytes path = Rust.percentDecode (Rust.bytes uri.rest) :=
    Rust.bytes_of_fromUtf8 hpath
  constructor
  · rintro rfl htriplet
    have hshorter := Rust.length_percentDecode_lt htriplet
    rw [← hbytes] at hshorter
    exact absurd hshorter (Nat.lt_irrefl _)
  · intro hnone
    rw [Rust.percentDecode_of_not_hasTriplet hnone] at hbytes
    exact Rust.bytes_injective hbytes

end RelayUri

/-- Whatever is relayed of a URI has the path and the query that were sent, if and only if there is
nothing to decode in the path or all that it decodes to is refused. -/
theorem relayed_target_iff (uri : RelayUri) :
    (∀ method headers requestId deadlineUnixMs frame,
      uri.requestStart method headers requestId deadlineUnixMs = some frame →
      frame.target = uri.pathAndQuery) ↔
    ¬Rust.HasTriplet (Rust.bytes uri.rest) ∨ uri.Refused := by
  constructor
  · intro hexact
    by_cases hrefused : uri.Refused
    · exact .inr hrefused
    · left
      unfold RelayUri.Refused at hrefused
      push Not at hrefused
      obtain ⟨route, path, hextract, htarget⟩ := hrefused
      rw [ne_eq, Bool.not_eq_false] at htarget
      obtain ⟨frame, hframe, hsame⟩ :=
        RelayUri.requestStart_get 0 hextract htarget
      rw [← RelayUri.extract_path hextract, ← RelayUri.targetOf_eq_iff, ← hsame]
      exact hexact _ _ _ _ frame hframe
  · rintro hsafe method headers requestId deadlineUnixMs frame hframe
    obtain ⟨route, path, hextract, htarget, htaken⟩ := RelayUri.requestStart_eq_some hframe
    rcases hsafe with hnone | hrefused
    · rw [htarget, RelayUri.targetOf_eq_iff, RelayUri.extract_path hextract]
      exact hnone
    · rw [htarget, hrefused route path hextract] at htaken
      cases htaken

/-! ### A space -/

/-- The client asks for `/a%20b`. -/
def spaceUri : RelayUri where
  route := "safe-route"
  rest := "a%20b"
  query := some "detail=1"
  route_ne := by decide
  route_segment := by decide
  rest_ne := by decide

/-- The connector is asked for `/a b`. -/
theorem space_decoded :
    ¬ ∀ (uri : RelayUri) (method : String) (headers : HeaderMap) (requestId : Rust.Uuid)
      (deadlineUnixMs : UInt64) (frame : RequestStartFrame),
      uri.requestStart method headers requestId deadlineUnixMs = some frame →
      frame.target = uri.pathAndQuery := by
  intro hclaim
  have hextract : spaceUri.extract = some ("safe-route", "a b") := by decide +kernel
  obtain ⟨frame, hframe, htarget⟩ := RelayUri.requestStart_get 0 hextract
    (by decide +kernel)
  have hsame := hclaim spaceUri _ _ _ _ frame hframe
  rw [htarget] at hsame
  exact absurd hsame (by decide)

end Cresix.Cloud
