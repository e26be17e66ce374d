import Cresix.Relay.Exchange
import Cresix.Rust.Http

/-!
# Requests to the relay route

What `relay_proxy` makes of a request before its body has arrived, and what
the client is answered.  A request that is refused here never reaches a relay
session.  The checks are not those of the relay frames: a method or a value
that no frame takes is refused with `400`, a header that no frame takes is
left out, and the target is not looked at.
-/

namespace Cresix.Cloud

open Relay (HeaderField HttpMethod ProxyRequest ProxyResult)
open Rust.Http

/-- `ApiError`, without the request identifier it draws. -/
structure ApiError where
  status : Nat
  code : String
  message : String
deriving DecidableEq, Repr

/-- `ApiError::bad`. -/
def ApiError.bad (message : String) : ApiError := ⟨400, "bad_request", message⟩

/-- What a client is answered. -/
inductive ProxyReply where
  | error (error : ApiError)
  | response (status : Nat) (headers : HeaderMap) (body : List UInt8)
deriving DecidableEq

/-- A request, without its body. -/
structure HttpRequest where
  method : String
  /-- The path behind the route, as the router decodes it. -/
  path : String
  query : Option String
  headers : HeaderMap
deriving DecidableEq

namespace HttpRequest

/-- The target the connector is given. -/
def target (request : HttpRequest) : String :=
  match request.query with
  | some query => "/" ++ request.path ++ "?" ++ query
  | none => "/" ++ request.path

/-- The loop over the headers. -/
def relayHeaders : HeaderMap → Except ApiError (List HeaderField)
  | [] => .ok []
  | (name, value) :: rest =>
      -- The relay shares an origin with the account UI.
      if name.value = "cookie" then relayHeaders rest
      else
        match value.toStr with
        | none => .error (.bad "relay headers must be visible ASCII")
        | some value =>
            let field : HeaderField := ⟨name.value, value⟩
            (relayHeaders rest).map fun fields =>
              if field.validate = .ok () then field :: fields else fields

/-- `relay_proxy` between the registry and the body. -/
def prepare (request : HttpRequest) : Except ApiError ProxyRequest :=
  match HttpMethod.new request.method with
  | .error _ => .error (.bad "unsupported relay method")
  | .ok _ =>
      (relayHeaders request.headers).map fun headers =>
        ⟨request.method, request.target, headers, []⟩

end HttpRequest

/-! ## Answers -/

/-- No session is registered for the route. -/
def notConnected : ProxyReply := .error ⟨502, "relay_unavailable", "installation is not connected"⟩

/-- The session ended before it took the request. -/
def disconnected : ProxyReply := .error ⟨502, "relay_unavailable", "installation disconnected"⟩

def payloadTooLarge : ProxyReply :=
  .error ⟨413, "payload_too_large", "relay request body is too large"⟩

/-- The answers with the code `relay_timeout`. -/
def relayTimeout (message : String) : ProxyReply := .error ⟨504, "relay_timeout", message⟩

def bodyTimeout : ProxyReply :=
  relayTimeout "relay request body did not arrive before the deadline"

def queueTimeout : ProxyReply :=
  relayTimeout "relay queue did not admit the request before the deadline"

def replyTimeout : ProxyReply := relayTimeout "installation did not respond before the deadline"

def upstreamFailed (message : String) : ProxyReply := .error ⟨502, "upstream_failed", message⟩

/-- The answer has the code `relay_timeout`. -/
def ProxyReply.IsTimeout (reply : ProxyReply) : Prop := ∃ message, reply = relayTimeout message

/-- The answer is an error. -/
def ProxyReply.IsError (reply : ProxyReply) : Prop := ∃ error, reply = .error error

/-- The headers of a result that the client is given. -/
def clientHeaders : List HeaderField → HeaderMap
  | [] => []
  | field :: fields =>
      if Rust.toAsciiLowercase (Rust.bytes field.name) = Rust.bytes "set-cookie" then
        clientHeaders fields
      else
        match HeaderName.fromStr field.name, HeaderValue.fromStr field.value with
        | some name, some value => (name, value) :: clientHeaders fields
        | _, _ => clientHeaders fields

/-- `proxy_response`. -/
def proxyResponse (result : ProxyResult) : ProxyReply :=
  .response (if isStatus result.status.toNat then result.status.toNat else 502)
    (clientHeaders result.headers) result.body

/-- What the client is answered when the session replied. -/
def replyOf : Except String ProxyResult → ProxyReply
  | .ok result => proxyResponse result
  | .error message => upstreamFailed message

theorem replyOf_error_isError (message : String) : (replyOf (.error message)).IsError := ⟨_, rfl⟩

theorem proxyResponse_not_isError (result : ProxyResult) : ¬ (proxyResponse result).IsError := by
  rintro ⟨error, h⟩
  cases h

theorem ProxyReply.IsTimeout.isError {reply : ProxyReply} (h : reply.IsTimeout) : reply.IsError := by
  obtain ⟨message, rfl⟩ := h
  exact ⟨_, rfl⟩

theorem ProxyReply.IsTimeout.code {error : ApiError} (h : (ProxyReply.error error).IsTimeout) :
    error.code = "relay_timeout" := by
  obtain ⟨message, h⟩ := h
  cases h
  rfl

/-- The answers of a session are no timeouts. -/
theorem replyOf_not_isTimeout (result : Except String ProxyResult) :
    ¬ (replyOf result).IsTimeout := by
  intro h
  cases result with
  | ok result => exact absurd h.isError (proxyResponse_not_isError result)
  | error message =>
      have hcode : "upstream_failed" = "relay_timeout" := h.code
      exact absurd hcode (by decide)

/-! ## The prepared request -/

theorem HttpRequest.relayHeaders_error {headers : HeaderMap} {error : ApiError}
    (h : relayHeaders headers = .error error) : error.code = "bad_request" := by
  induction headers with
  | nil => cases h
  | cons header rest ih =>
      obtain ⟨name, value⟩ := header
      simp only [relayHeaders] at h
      split at h
      next => exact ih h
      next =>
        split at h
        next =>
          cases h
          rfl
        next =>
          cases hrest : relayHeaders rest with
          | error e =>
              rw [hrest] at h
              cases h
              exact ih hrest
          | ok fields =>
              rw [hrest] at h
              cases h

/-- A request that is refused before its body arrives is a bad request. -/
theorem HttpRequest.prepare_error {request : HttpRequest} {error : ApiError}
    (h : request.prepare = .error error) : error.code = "bad_request" := by
  unfold prepare at h
  split at h
  next =>
    cases h
    rfl
  next =>
    cases hheaders : relayHeaders request.headers with
    | error e =>
        rw [hheaders] at h
        cases h
        exact relayHeaders_error hheaders
    | ok fields =>
        rw [hheaders] at h
        cases h

/-- Every header of a prepared request passes the check of the frames. -/
theorem HttpRequest.relayHeaders_valid {headers : HeaderMap} {fields : List HeaderField}
    (h : relayHeaders headers = .ok fields) : ∀ field ∈ fields, field.validate = .ok () := by
  induction headers generalizing fields with
  | nil =>
      cases h
      intro field hfield
      cases hfield
  | cons header rest ih =>
      obtain ⟨name, value⟩ := header
      simp only [relayHeaders] at h
      split at h
      next => exact ih h
      next =>
        split at h
        next => cases h
        next text _ =>
          cases hrest : relayHeaders rest with
          | error e =>
              rw [hrest] at h
              cases h
          | ok others =>
              rw [hrest] at h
              cases h
              split
              next hvalid =>
                intro field hfield
                rcases List.mem_cons.mp hfield with rfl | hother
                · exact hvalid
                · exact ih hrest field hother
              next => exact ih hrest

/-- A prepared request has a method that the frames take. -/
theorem HttpRequest.prepare_method {request : HttpRequest} {prepared : ProxyRequest}
    (h : request.prepare = .ok prepared) :
    prepared.method = request.method ∧ prepared.target = request.target ∧
      ∃ method, HttpMethod.new prepared.method = .ok method := by
  unfold prepare at h
  split at h
  next => cases h
  next method hmethod =>
    cases hheaders : relayHeaders request.headers with
    | error e =>
        rw [hheaders] at h
        cases h
    | ok fields =>
        rw [hheaders] at h
        cases h
        exact ⟨rfl, rfl, method, hmethod⟩

end Cresix.Cloud
