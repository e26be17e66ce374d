import Cresix.Relay.Answers
import Cresix.Rust.Http

/-!
# The local server behind the connector

`FixedUpstream::execute` gives a relayed request to the HTTP client and turns
what the client delivers into a `ProxyResponse`.  The client and the parser of
URLs are parameters.

The session then checks the response again as a frame.  `LocalResponse.Fits`
says which responses pass, and `local_response_delivered_iff` that exactly
these, and those the proxy itself gives up on, leave the session running.
-/

namespace Cresix.Relay

open Rust (Uuid)
open Rust.Http
open Transition (System Event)

/-! ## The proxy -/

/-- What the proxy reads of a parsed `Url`. -/
structure Url where
  scheme : String
  hostStr : Option String
  portOrKnownDefault : Option UInt16
  username : String
  password : Option String
deriving DecidableEq

/-- `reqwest::Error`. -/
structure ReqwestError where
  isTimeout : Bool
deriving DecidableEq

/-- A response as the HTTP client delivers it. -/
structure LocalResponse where
  status : UInt16
  /-- It is a `StatusCode`. -/
  statusValid : 100 ≤ status ∧ status ≤ 999
  contentLength : Option UInt64
  headers : HeaderMap
  /-- What `bytes()` gives. -/
  bytes : Except ReqwestError (List UInt8)

/-- The HTTP client, with the parser of its URLs. -/
structure HttpClient where
  /-- `Url::parse`. -/
  parse : String → Option Url
  /-- A method, a target, headers and a body are sent. -/
  send : String → Url → HeaderMap → List UInt8 → Except ReqwestError LocalResponse

structure FixedUpstream where
  /-- The configured origin, as a text. -/
  origin : String
  /-- The configured origin. -/
  originUrl : Url
  client : HttpClient

/-- `classify_reqwest`. -/
def classifyReqwest (error : ReqwestError) : ProxyError :=
  if error.isTimeout then .timeout else .unavailable

/-- `validate_method`. -/
def validateMethod (value : String) : Except ProxyError String :=
  if ["GET", "HEAD", "POST", "PUT", "PATCH", "DELETE", "OPTIONS"].contains value then .ok value
  else .error .invalidRequest

/-- The names in `blocked_header`. -/
def blockedHeaders : List String :=
  ["connection", "keep-alive", "proxy-authenticate", "proxy-authorization", "te", "trailer",
   "transfer-encoding", "upgrade", "host", "content-length", "forwarded", "x-forwarded-for",
   "x-forwarded-host", "x-forwarded-proto", "x-real-ip", "x-c6-route", "x-c6-installation",
   "x-cresix-route", "x-cresix-installation"]

/-- `blocked_header`. -/
def blockedHeader (name : HeaderName) : Bool :=
  blockedHeaders.contains name.value || Rust.startsWith name.value "x-c6-relay-"

/-- `filter_request_headers`. -/
def filterRequestHeaders : List HeaderField → Except ProxyError HeaderMap
  | [] => .ok []
  | field :: fields =>
      match HeaderName.fromStr field.name with
      | none => .error .invalidRequest
      | some name =>
          if blockedHeader name then filterRequestHeaders fields
          else
            match HeaderValue.fromStr field.value with
            | none => .error .invalidRequest
            | some value => (filterRequestHeaders fields).map ((name, value) :: ·)

/-- `response_headers`. -/
def responseHeaders (headers : HeaderMap) : List HeaderField :=
  (headers.filter fun header => !blockedHeader header.1).filterMap fun header =>
    header.2.toStr.map fun value => ⟨header.1.value, value⟩

namespace FixedUpstream

/-- `target_url`. -/
def targetUrl (upstream : FixedUpstream) (target : String) : Except ProxyError Url :=
  if !Rust.startsWith target "/" || Rust.startsWith target "//" || Rust.contains target "#"
      || (Rust.bytes target).any Rust.isAsciiControl then
    .error .invalidRequest
  else
    match upstream.client.parse (Rust.trimEndMatches '/' upstream.origin ++ target) with
    | none => .error .invalidRequest
    | some parsed =>
        if parsed.scheme ≠ upstream.originUrl.scheme
            ∨ parsed.hostStr ≠ upstream.originUrl.hostStr
            ∨ parsed.portOrKnownDefault ≠ upstream.originUrl.portOrKnownDefault
            ∨ parsed.username ≠ "" ∨ parsed.password ≠ none then
          .error .invalidRequest
        else .ok parsed

/-- `execute` up to the response of the client. -/
def send (upstream : FixedUpstream) (request : ProxyRequest) : Except ProxyError LocalResponse := do
  let method ← validateMethod request.method
  let url ← upstream.targetUrl request.target
  let headers ← filterRequestHeaders request.headers
  (upstream.client.send method url headers request.body).mapError classifyReqwest

end FixedUpstream

/-- `execute` from the response of the client on. -/
def LocalResponse.read (response : LocalResponse) : Except ProxyError ProxyResponse :=
  if response.contentLength.any fun length => maxResponseBodyBytes < length.toNat then
    .error .responseTooLarge
  else
    match response.bytes with
    | .error error => .error (classifyReqwest error)
    | .ok bytes =>
        if maxResponseBodyBytes < bytes.length then .error .responseTooLarge
        else .ok ⟨response.status, responseHeaders response.headers, bytes⟩

/-- `FixedUpstream::execute`. -/
def FixedUpstream.execute (upstream : FixedUpstream) (request : ProxyRequest) :
    Except ProxyError ProxyResponse := do
  let response ← upstream.send request
  response.read

/-! ## What the proxy forwards -/

/-- A header that is forwarded: it is not blocked and its value is a text. -/
def forwardable (header : HeaderName × HeaderValue) : Bool :=
  !blockedHeader header.1 && header.2.isVisible

/-- A response the session can put into a frame. -/
structure LocalResponse.Fits (response : LocalResponse) : Prop where
  status : response.status ≤ 599
  count : (response.headers.filter forwardable).length ≤ 128
  size : ((response.headers.filter forwardable).map fun header =>
    Rust.len header.1.value + header.2.bytes.length).sum ≤ 64 * 1024

/-- A response the proxy answers with an error: it cannot be read or its body
is too large. -/
def LocalResponse.Unreadable (response : LocalResponse) : Prop :=
  (∃ length, response.contentLength = some length ∧ maxResponseBodyBytes < length.toNat) ∨
    ∀ bytes, response.bytes = .ok bytes → maxResponseBodyBytes < bytes.length

theorem responseHeaders_cons (header : HeaderName × HeaderValue) (headers : HeaderMap) :
    responseHeaders (header :: headers) =
      if forwardable header then
        ⟨header.1.value, Rust.ofAscii header.2.bytes⟩ :: responseHeaders headers
      else responseHeaders headers := by
  unfold responseHeaders forwardable
  cases hblocked : blockedHeader header.1 with
  | true => simp [hblocked]
  | false =>
      cases hvisible : header.2.isVisible with
      | true => simp [hblocked, HeaderValue.toStr, hvisible]
      | false => simp [hblocked, HeaderValue.toStr, hvisible]

/-- A name that is forbidden in a frame is blocked. -/
theorem not_forbidden_of_not_blocked {name : HeaderName} (h : blockedHeader name = false) :
    isForbiddenHeader name.value = false := by
  have hsub : ∀ value ∈ forbiddenHeaders, value ∈ blockedHeaders := by decide
  have hblocked : name.value ∉ blockedHeaders := by
    intro hmem
    simp [blockedHeader, hmem] at h
  have hforbidden : name.value ∉ forbiddenHeaders := fun hmem => hblocked (hsub _ hmem)
  simpa [isForbiddenHeader] using hforbidden

/-- A byte of a token in lower case may stand in the header name of a frame. -/
theorem isHeaderNameByte_of_token {b : UInt8} (htoken : isTokenByte b = true)
    (hlower : Rust.isAsciiUppercase b = false) : isHeaderNameByte b = true := by
  have hbytes : Rust.bytes "!#$%&'*+-.^_`|~" =
      [0x21, 0x23, 0x24, 0x25, 0x26, 0x27, 0x2a, 0x2b, 0x2d, 0x2e, 0x5e, 0x5f, 0x60, 0x7c, 0x7e] := by
    decide
  unfold isHeaderNameByte
  rw [hbytes]
  simpa [isTokenByte, Rust.isAsciiAlphanumeric, hlower] using htoken

/-- A header with a visible value passes the check of the frame, unless its name
is forbidden there. -/
theorem validate_visible_iff {header : HeaderName × HeaderValue}
    (hvisible : header.2.isVisible = true) :
    (⟨header.1.value, Rust.ofAscii header.2.bytes⟩ : HeaderField).validate = .ok () ↔
      isForbiddenHeader header.1.value = false := by
  obtain ⟨name, value⟩ := header
  have hstr : value.toStr = some (Rust.ofAscii value.bytes) := if_pos hvisible
  obtain ⟨htext, -⟩ := HeaderValue.bytes_toStr hstr
  obtain ⟨htoken, hlower⟩ := name.valid
  simp only [isHeaderName, Bool.and_eq_true, Bool.not_eq_true', List.all_eq_true] at htoken
  have hname : (Rust.bytes name.value).all isHeaderNameByte = true :=
    List.all_eq_true.mpr fun b hb => isHeaderNameByte_of_token (htoken.2 b hb) (hlower b hb)
  have hvalue : (Rust.bytes (Rust.ofAscii value.bytes)).any (fun byte =>
      (Rust.isAsciiControl byte && byte != 0x09) || byte == 0x7f) = false := by
    rw [htext, List.any_eq_false]
    intro b hb
    have hb := List.all_eq_true.mp hvisible b hb
    simp only [Bool.or_eq_true, Bool.and_eq_true, decide_eq_true_eq, beq_iff_eq] at hb
    rcases hb with ⟨hge, hlt⟩ | rfl
    · have hne : b ≠ 0x7f := by
        rintro rfl
        exact absurd hlt (by decide)
      have hcontrol : ¬ b ≤ 0x1f := by
        intro hle
        exact absurd (UInt8.le_trans hge hle) (by decide)
      simp [Rust.isAsciiControl, hne, hcontrol]
    · decide
  simp [HeaderField.validate, htoken.1.1, hname, hvalue]

theorem len_ofAscii_visible {value : HeaderValue} (hvisible : value.isVisible = true) :
    Rust.len (Rust.ofAscii value.bytes) = value.bytes.length := by
  have hstr : value.toStr = some (Rust.ofAscii value.bytes) := if_pos hvisible
  rw [← Rust.length_bytes, (HeaderValue.bytes_toStr hstr).1]

/-- Every forwarded header passes the check of the frame. -/
theorem validate_of_forwardable {header : HeaderName × HeaderValue}
    (h : forwardable header = true) :
    (⟨header.1.value, Rust.ofAscii header.2.bytes⟩ : HeaderField).validate = .ok () ∧
      Rust.len (Rust.ofAscii header.2.bytes) = header.2.bytes.length := by
  simp only [forwardable, Bool.and_eq_true, Bool.not_eq_true'] at h
  obtain ⟨hblocked, hvisible⟩ := h
  exact ⟨(validate_visible_iff hvisible).mpr (not_forbidden_of_not_blocked hblocked),
    len_ofAscii_visible hvisible⟩

theorem length_responseHeaders (headers : HeaderMap) :
    (responseHeaders headers).length = (headers.filter forwardable).length := by
  induction headers with
  | nil => rfl
  | cons header headers ih =>
      rw [responseHeaders_cons]
      cases hforward : forwardable header with
      | true => simp [hforward, ih]
      | false => simp [hforward, ih]

theorem validate_of_mem_responseHeaders {headers : HeaderMap} {field : HeaderField}
    (h : field ∈ responseHeaders headers) : field.validate = .ok () := by
  induction headers with
  | nil => cases h
  | cons header headers ih =>
      rw [responseHeaders_cons] at h
      split at h
      next hforward =>
        rcases List.mem_cons.mp h with rfl | hrest
        · exact (validate_of_forwardable hforward).1
        · exact ih hrest
      next => exact ih h

theorem headersSize_responseHeaders (headers : HeaderMap) :
    headersSize (responseHeaders headers) = ((headers.filter forwardable).map fun header =>
      Rust.len header.1.value + header.2.bytes.length).sum := by
  induction headers with
  | nil => rfl
  | cons header headers ih =>
      rw [responseHeaders_cons]
      cases hforward : forwardable header with
      | true =>
          have hlen := (validate_of_forwardable hforward).2
          simp [hforward, headersSize, hlen, ih]
      | false => simp [hforward, ih]

/-- The frame of a response passes if and only if the response fits. -/
theorem validate_responseStart_iff (id : Uuid) (response : LocalResponse) :
    (⟨id, response.status, responseHeaders response.headers⟩ : ResponseStartFrame).validate =
      .ok () ↔ response.Fits := by
  have hheaders : validateHeaders (responseHeaders response.headers) = .ok () ↔
      (response.headers.filter forwardable).length ≤ 128 ∧
        ((response.headers.filter forwardable).map fun header =>
          Rust.len header.1.value + header.2.bytes.length).sum ≤ 64 * 1024 := by
    rw [validateHeaders_ok_iff, length_responseHeaders, headersSize_responseHeaders]
    have hall : ∀ field ∈ responseHeaders response.headers, field.validate = .ok () :=
      fun _ => validate_of_mem_responseHeaders
    simp only [maxHeaderCount, maxHeaderBytes, and_iff_right hall]
  simp only [ResponseStartFrame.validate, response.statusValid.1, true_and]
  by_cases hstatus : response.status ≤ 599
  · rw [if_neg (not_not.mpr hstatus), hheaders]
    exact ⟨fun h => ⟨hstatus, h.1, h.2⟩, fun h => ⟨h.count, h.size⟩⟩
  · rw [if_pos hstatus]
    exact ⟨nofun, fun h => absurd h.status hstatus⟩

/-- The proxy gives an error exactly for a response that is unreadable. -/
theorem read_cases (response : LocalResponse) :
    (response.Unreadable ∧ ∃ error, response.read = .error error) ∨
      (¬ response.Unreadable ∧ ∃ bytes, bytes.length ≤ maxResponseBodyBytes ∧
        response.read = .ok ⟨response.status, responseHeaders response.headers, bytes⟩) := by
  unfold LocalResponse.read LocalResponse.Unreadable
  split
  next hlength =>
    cases hcontent : response.contentLength with
    | none => simp [hcontent] at hlength
    | some length =>
        have hlarge : maxResponseBodyBytes < length.toNat := by simpa [hcontent] using hlength
        exact .inl ⟨.inl ⟨length, rfl, hlarge⟩, _, rfl⟩
  next hlength =>
    have hsmall : ¬ ∃ length, response.contentLength = some length ∧
        maxResponseBodyBytes < length.toNat := by
      rintro ⟨length, hcontent, hlarge⟩
      simp [hcontent, hlarge] at hlength
    cases hbytes : response.bytes with
    | error error => exact .inl ⟨.inr nofun, _, rfl⟩
    | ok bytes =>
        by_cases hlarge : maxResponseBodyBytes < bytes.length
        · refine .inl ⟨.inr fun bytes' heq => ?_, _, if_pos hlarge⟩
          cases heq
          exact hlarge
        · refine .inr ⟨?_, bytes, Nat.not_lt.mp hlarge, if_neg hlarge⟩
          rintro (hcontent | hall)
          · exact hsmall hcontent
          · exact hlarge (hall bytes rfl)

theorem FixedUpstream.execute_of_send {upstream : FixedUpstream} {request : ProxyRequest}
    {response : LocalResponse} (h : upstream.send request = .ok response) :
    upstream.execute request = response.read := by
  unfold execute
  rw [h]
  rfl

/-! ## The answer on the wire -/

/-- The error `run_reconnecting` returns once a session has ended; it connects
again where there is none. -/
def runReconnecting : Except RuntimeError Unit → Option RuntimeError
  | .ok () => none
  | .error error => some error

namespace ConnectorEnd

variable {codec : ControlCodec} {config : LoadedConfig} {s : ConnectorEnd}

/-- Sends the frames of the outbox until it is empty or the loop returns. -/
def sendAll (codec : ControlCodec) (s : ConnectorEnd) : List Frame → ConnectorEnd × List Message
  | [] => (s, [])
  | frame :: rest =>
      let (t, sent) := s.send codec frame rest
      if t.result.isSome then (t, sent)
      else
        let (u, more) := t.sendAll codec rest
        (u, sent ++ more)

/-- The loop takes an answer of the upstream and sends what it makes of it. -/
def deliver (codec : ControlCodec) (s : ConnectorEnd) (id : Uuid)
    (answer : Except ProxyError ProxyResponse) : ConnectorEnd × List Message :=
  (s.takeOutgoing id answer).sendAll codec (s.takeOutgoing id answer).outbox

theorem sendAll_of_observeAll {frames : List Frame} {state : RelaySessionState}
    (hresult : s.result = none) (hnext : s.outbox = frames)
    (hall : s.state.observeAll frames = some state) :
    s.sendAll codec frames = ({ s with state, outbox := [] }, frames.map (·.message codec)) := by
  induction frames generalizing s with
  | nil =>
      cases hall
      cases s
      cases hnext
      rfl
  | cons frame rest ih =>
      simp only [RelaySessionState.observeAll] at hall
      split at hall
      next mid hobs =>
        have hrest := ih (s := { s with state := mid, outbox := rest }) hresult rfl hall
        simp only [sendAll, send_ok rest hobs]
        rw [if_neg (by simp [hresult]), hrest]
        rfl
      next => cases hall

theorem sendAll_of_rejected {frame : Frame} {rest : List Frame} {e : RelayValidationError}
    {state : RelaySessionState} (hobs : s.state.observe frame = (.error e, state)) :
    s.sendAll codec (frame :: rest) =
      ({ s with state, result := some (.error .protocol) }, []) := by
  simp only [sendAll, send, hobs]
  rfl

/-- The frames go out in steps of the loop. -/
theorem run_sendAll (codec : ControlCodec) (config : LoadedConfig) {frames : List Frame}
    (hresult : s.result = none) (hnext : s.outbox = frames) :
    ∃ tr, (system codec config).Run s tr (s.sendAll codec frames).1 := by
  induction frames generalizing s with
  | nil => exact ⟨[], .refl⟩
  | cons frame rest ih =>
      have hstep : (system codec config).step s .send (s.send codec frame rest).1 := by
        show (s.step codec config .send).map Prod.fst = _
        simp [step, hresult, hnext]
      simp only [sendAll]
      split
      next => exact ⟨_, .single hstep⟩
      next hrunning =>
        have hnone : (s.send codec frame rest).1.result = none := by simpa using hrunning
        have houtbox : (s.send codec frame rest).1.outbox = rest := by
          unfold send at hnone ⊢
          split at hnone
          next => cases hnone
          next =>
            split at hnone
            next => cases hnone
            next => rfl
        obtain ⟨tr, hrun⟩ := ih hnone houtbox
        exact ⟨_, .cons hstep hrun⟩

theorem run_deliver (codec : ControlCodec) (config : LoadedConfig) {id : Uuid} {answer : Except ProxyError ProxyResponse}
    {outgoing : List (Uuid × Except ProxyError ProxyResponse)} (hfree : s.Free)
    (hnext : s.outgoing = (id, answer) :: outgoing) :
    ∃ tr, (system codec config).Run s tr ({ s with outgoing }.deliver codec id answer).1 := by
  have hstep : (system codec config).step s .take ({ s with outgoing }.takeOutgoing id answer) := by
    show (s.step codec config .take).map Prod.fst = _
    simp [step, hfree, hnext]
  have hresult : ({ s with outgoing }.takeOutgoing id answer).result = none :=
    (takeOutgoing_result _ _ _).trans hfree.1
  obtain ⟨tr, hrun⟩ := run_sendAll codec config hresult rfl
  exact ⟨_, .cons hstep hrun⟩

theorem system_receive {t : ConnectorEnd} {now : UInt64} {message : Message}
    {sent : List Message} (hfree : s.Free)
    (h : s.receive codec config now message = (t, sent)) :
    (system codec config).step s (.receive now message) t := by
  show (s.step codec config (.receive now message)).map Prod.fst = _
  simp [step, hfree, h]

theorem system_answer {id : Uuid} {request : ProxyRequest} {rest : List (Uuid × ProxyRequest)}
    (hnext : s.upstream = (id, request) :: rest) (answer : Except ProxyError ProxyResponse) :
    (system codec config).step s (.answer id answer)
      { s with upstream := rest, outgoing := s.outgoing ++ [(id, answer)] } := by
  show (s.step codec config (.answer id answer)).map Prod.fst = _
  simp [step, hnext]

/-- The answer to the request left the loop running: the response was relayed,
or a failure was sent, or the request had been cancelled.  Every other request
is where it was. -/
structure Delivered (codec : ControlCodec) (s : ConnectorEnd) (id : Uuid)
    (answer : Except ProxyError ProxyResponse) (t : ConnectorEnd) (sent : List Message) : Prop where
  running : t.result = none
  answered : (id ∈ s.cancelled ∧ sent = []) ∨
    (∃ response, answer = .ok response ∧
      sent = (responseFrames id response).map (·.message codec)) ∨
    ∃ code message, sent = [Frame.message codec (.control (.requestFailed ⟨id, code, message⟩))]
  pending : t.pending = s.pending
  upstream : t.upstream = s.upstream
  active : ∀ other ≠ id, other ∈ t.active ↔ other ∈ s.active
  cancelled : ∀ other ≠ id, other ∈ t.cancelled ↔ other ∈ s.cancelled
  others : ∀ other ≠ id, t.state.status other = s.state.status other

/-- The frames of an answer. -/
def answerFrames (id : Uuid) : Except ProxyError ProxyResponse → List Frame
  | .ok response => responseFrames id response
  | .error error =>
      [.control (.requestFailed ⟨id, failureCode error, "local C6 request failed"⟩)]

/-- The answer to a request that is not cancelled is sent. -/
theorem takeOutgoing_open {id : Uuid} (answer : Except ProxyError ProxyResponse)
    (hcancelled : id ∉ s.cancelled) :
    s.takeOutgoing id answer =
      { s with active := s.active.erase id, outbox := answerFrames id answer } := by
  simp only [takeOutgoing, if_neg hcancelled]
  cases answer <;> rfl

/-- The request is where it awaits its response. -/
theorem awaiting_of_reachable {id : Uuid} {answer : Except ProxyError ProxyResponse}
    {outgoing : List (Uuid × Except ProxyError ProxyResponse)} (hs : Bookkeeping config s)
    (hfree : s.Free) (hnext : s.outgoing = (id, answer) :: outgoing)
    (hcancelled : id ∉ s.cancelled) :
    s.state.handshake = .ready ∧ s.state.flows.lookup id = some .awaitingResponse := by
  have hactive : id ∈ s.active := by
    rw [hs.tasks.active]
    simp [ConnectorEnd.tasks, hnext]
  have hflow : s.state.flows.lookup id = some .awaitingResponse :=
    ((hs.free hfree).awaiting id).mpr (.inl ⟨hactive, hcancelled⟩)
  refine ⟨?_, hflow⟩
  by_contra hshake
  rw [hs.session.idle hshake] at hflow
  cases hflow

/-- An answer whose frames are accepted up to the end of its request is
delivered. -/
theorem delivered_of_observeAll {id : Uuid} {answer : Except ProxyError ProxyResponse}
    (hfree : s.Free) (hcancelled : id ∉ s.cancelled)
    (hall : s.state.observeAll (answerFrames id answer) = some (s.state.removeFlow id)) :
    Delivered codec s id answer (s.deliver codec id answer).1 (s.deliver codec id answer).2 := by
  have hdeliver : s.deliver codec id answer =
      ({ s with state := s.state.removeFlow id, active := s.active.erase id, outbox := [] },
        (answerFrames id answer).map (·.message codec)) := by
    have hresult : (s.takeOutgoing id answer).result = none :=
      (takeOutgoing_result _ _ _).trans hfree.1
    rw [deliver, takeOutgoing_open answer hcancelled] at *
    exact sendAll_of_observeAll hresult rfl hall
  rw [hdeliver]
  refine ⟨hfree.1, .inr ?_, rfl, rfl, ?_, fun other hne => Iff.rfl, ?_⟩
  · cases answer with
    | ok response => exact .inl ⟨response, rfl, rfl⟩
    | error error => exact .inr ⟨_, _, rfl⟩
  · intro other hne
    simp [hne]
  · intro other hne
    exact RelaySessionState.status_removeFlow_of_ne hne

theorem delivered_of_cancelled {id : Uuid} {answer : Except ProxyError ProxyResponse}
    (hfree : s.Free) (hcancelled : id ∈ s.cancelled) :
    Delivered codec s id answer (s.deliver codec id answer).1 (s.deliver codec id answer).2 := by
  have hdeliver : s.deliver codec id answer =
      ({ s with active := s.active.erase id, cancelled := s.cancelled.erase id }, []) := by
    simp only [deliver, takeOutgoing, if_pos hcancelled, hfree.2, sendAll]
  rw [hdeliver]
  refine ⟨hfree.1, .inl ⟨hcancelled, rfl⟩, rfl, rfl, ?_, ?_, fun other hne => rfl⟩
  · intro other hne
    simp [hne]
  · intro other hne
    simp [hne]

/-- A response of the local server that does not fit ends the loop. -/
theorem deliver_of_not_fits {id : Uuid} {response : LocalResponse} (bytes : List UInt8)
    (hcancelled : id ∉ s.cancelled) (hfits : ¬ response.Fits) :
    (s.deliver codec id (.ok ⟨response.status, responseHeaders response.headers, bytes⟩)).1.result =
      some (.error .protocol) := by
  have hrejected : ∃ e state, s.state.observe (.control (.responseStart
      ⟨id, response.status, responseHeaders response.headers⟩)) = (.error e, state) := by
    rcases hobs : s.state.observe (.control (.responseStart
      ⟨id, response.status, responseHeaders response.headers⟩)) with ⟨verdict, state⟩
    cases verdict with
    | error e => exact ⟨e, state, rfl⟩
    | ok _ =>
        have hvalid := (RelaySessionState.Accepted.of_observe hobs).valid
        exact absurd ((validate_responseStart_iff id response).mp hvalid) hfits
  obtain ⟨e, state, hobs⟩ := hrejected
  rw [deliver, takeOutgoing_open _ hcancelled]
  exact congrArg (·.1.result) (sendAll_of_rejected (s := { s with
    active := s.active.erase id
    outbox := responseFrames id ⟨response.status, responseHeaders response.headers, bytes⟩ }) hobs)

end ConnectorEnd

open ConnectorEnd in
/-- An answer of the local server leaves the connector and its other requests
running if and only if its request was cancelled, the proxy gives up on it, or
it fits into a frame. -/
theorem local_response_delivered_iff {codec : ControlCodec} {config : LoadedConfig}
    {s : ConnectorEnd} {id : Uuid} {upstream : FixedUpstream} {request : ProxyRequest}
    {response : LocalResponse} {outgoing : List (Uuid × Except ProxyError ProxyResponse)}
    (hreach : (ConnectorEnd.system codec config).Reachable s) (hfree : s.Free)
    (hsend : upstream.send request = .ok response)
    (hnext : s.outgoing = (id, upstream.execute request) :: outgoing) :
    Delivered codec s id (upstream.execute request)
        ({ s with outgoing }.deliver codec id (upstream.execute request)).1
        ({ s with outgoing }.deliver codec id (upstream.execute request)).2 ↔
      id ∈ s.cancelled ∨ response.Unreadable ∨ response.Fits := by
  obtain ⟨s₀, tr, hstart, hrun⟩ := hreach
  have hs : Bookkeeping config s := bookkeeping_of_run hrun (bookkeeping_start hstart)
  have hpop : ∀ t sent, Delivered codec { s with outgoing } id (upstream.execute request) t sent ↔
      Delivered codec s id (upstream.execute request) t sent := by
    intro t sent
    exact ⟨fun h => ⟨h.1, h.2, h.3, h.4, h.5, h.6, h.7⟩, fun h => ⟨h.1, h.2, h.3, h.4, h.5, h.6, h.7⟩⟩
  have hfree' : ConnectorEnd.Free { s with outgoing } := hfree
  rw [← hpop]
  by_cases hcancelled : id ∈ s.cancelled
  · exact iff_of_true (delivered_of_cancelled hfree' hcancelled) (.inl hcancelled)
  · rw [or_iff_right hcancelled, FixedUpstream.execute_of_send hsend]
    obtain ⟨hready, hflow⟩ := awaiting_of_reachable hs hfree hnext hcancelled
    rcases read_cases response with ⟨hunreadable, error, hread⟩ | ⟨hreadable, bytes, hlen, hread⟩
    · refine iff_of_true ?_ (.inl hunreadable)
      rw [hread]
      refine delivered_of_observeAll hfree' hcancelled ?_
      have hvalid : (Frame.control (.requestFailed
          ⟨id, failureCode error, "local C6 request failed"⟩)).Valid := by
        show RequestFailedFrame.validMessage ⟨0, .timeout, "local C6 request failed"⟩ = true
        decide
      exact RelaySessionState.observeAll_cons []
        (RelaySessionState.observe_finish hready hflow hvalid rfl rfl)
    · rw [or_iff_right hreadable, hread]
      constructor
      · intro hdelivered
        by_contra hfits
        have hstopped := hdelivered.running.symm.trans
          (deliver_of_not_fits (s := { s with outgoing }) bytes hcancelled hfits)
        cases hstopped
      · intro hfits
        refine delivered_of_observeAll hfree' hcancelled ?_
        exact RelaySessionState.observeAll_response hready hflow
          ((validate_responseStart_iff id response).mpr hfits) hlen

/-! ### A local server -/

/-- A local server that answers every request with the response. -/
def localServer (response : LocalResponse) : FixedUpstream where
  origin := "http://127.0.0.1:8787/"
  originUrl := ⟨"http", some "127.0.0.1", some 8787, "", none⟩
  client.parse text :=
    if text = "http://127.0.0.1:8787/echo" then
      some ⟨"http", some "127.0.0.1", some 8787, "", none⟩
    else none
  client.send _ _ _ _ := .ok response

/-- An empty response. -/
def emptyResponse (status : UInt16) (statusValid : 100 ≤ status ∧ status ≤ 999) : LocalResponse where
  status := status
  statusValid := statusValid
  contentLength := some 0
  headers := []
  bytes := .ok []

/-- A request without a body. -/
def echoRequest : ProxyRequest where
  method := "POST"
  target := "/echo"
  headers := [⟨"accept", "text/plain"⟩]
  body := []

theorem send_localServer (response : LocalResponse) :
    (localServer response).send echoRequest = .ok response := by
  have htarget : (localServer response).targetUrl echoRequest.target =
      .ok ⟨"http", some "127.0.0.1", some 8787, "", none⟩ := by
    have htext : Rust.trimEndMatches '/' "http://127.0.0.1:8787/" ++ "/echo" =
        "http://127.0.0.1:8787/echo" := by decide
    have hcheck : (!Rust.startsWith "/echo" "/" || Rust.startsWith "/echo" "//"
        || Rust.contains "/echo" "#" || (Rust.bytes "/echo").any Rust.isAsciiControl) = false := by
      decide
    simp [FixedUpstream.targetUrl, localServer, echoRequest, htext, hcheck]
  have hheaders : (filterRequestHeaders echoRequest.headers).isOk = true := by decide +kernel
  cases hfilter : filterRequestHeaders echoRequest.headers with
  | error e => simp [hfilter, Except.isOk, Except.toBool] at hheaders
  | ok headers =>
      unfold FixedUpstream.send
      rw [htarget, hfilter]
      rfl

/-- The connector once the local server has answered the request. -/
def answered (response : LocalResponse) : ConnectorEnd :=
  { ConnectorEnd.executing Tunnel.postStart (RelaySessionState.ready.carrying 0 .awaitingResponse)
      echoRequest with
    upstream := []
    outgoing := [(0, (localServer response).execute echoRequest)] }

theorem reachable_answered (response : LocalResponse) :
    (ConnectorEnd.system Tunnel.postCodec ⟨1, by decide⟩).Reachable (answered response) := by
  have hidle : RelaySessionState.ready.Idle 0 := ⟨rfl, rfl, by decide, by decide⟩
  have hstart : (ConnectorEnd.idle .ready).receive Tunnel.postCodec ⟨1, by decide⟩ 0
      (Frame.message Tunnel.postCodec (.control (.requestStart Tunnel.postStart))) =
        (.collecting Tunnel.postStart (RelaySessionState.ready.carrying 0 (.requestBody 0 0))
          [.control (.requestStart Tunnel.postStart)], []) :=
    ConnectorEnd.receive_start (by decide +kernel) (by decide +kernel)
      (RelaySessionState.observe_start hidle (by decide))
  have hend : (ConnectorEnd.collecting Tunnel.postStart
      (RelaySessionState.ready.carrying 0 (.requestBody 0 0))
      (.control (.requestStart Tunnel.postStart) :: bodyFrames .requestChunk 0 [])).receive
        Tunnel.postCodec ⟨1, by decide⟩ 0
        (Frame.message Tunnel.postCodec (.control (.requestEnd ⟨0⟩))) =
      (.executing Tunnel.postStart (RelaySessionState.ready.carrying 0 .awaitingResponse)
        echoRequest, []) :=
    ConnectorEnd.receive_end (by decide +kernel) (by decide +kernel) (by decide) (by decide)
  have hempty : bodyFrames .requestChunk 0 [] = [] := by
    rw [bodyFrames, List.chunks]
    rfl
  rw [hempty] at hend
  have hidling : (ConnectorEnd.system Tunnel.postCodec ⟨1, by decide⟩).Reachable
      (ConnectorEnd.idle .ready) := .of_start connected_ready
  have hcollecting := hidling.step (ConnectorEnd.system_receive ⟨rfl, rfl⟩ hstart)
  have hexecuting := hcollecting.step (ConnectorEnd.system_receive ⟨rfl, rfl⟩ hend)
  exact hexecuting.step (ConnectorEnd.system_answer rfl _)

/-- A response with the status 600 ends the connector. -/
theorem local_response_stops_connector : ∃ (s : ConnectorEnd) (response : LocalResponse)
    (upstream : FixedUpstream) (request : ProxyRequest),
    (ConnectorEnd.system Tunnel.postCodec ⟨1, by decide⟩).Reachable s ∧ s.Free ∧
    upstream.send request = .ok response ∧ s.outgoing = [(0, upstream.execute request)] ∧
    0 ∉ s.cancelled ∧ response.status = 600 ∧
    ((s.deliver Tunnel.postCodec 0 (upstream.execute request)).1.result.bind runReconnecting) =
      some .protocol := by
  refine ⟨answered (emptyResponse 600 (by decide)), emptyResponse 600 (by decide),
    localServer (emptyResponse 600 (by decide)), echoRequest, reachable_answered _, ⟨rfl, rfl⟩,
    send_localServer _, rfl, Finset.notMem_empty 0, rfl, ?_⟩
  have hfits : ¬ (emptyResponse 600 (by decide)).Fits := fun h => absurd h.status (by decide)
  have hresult : ((answered (emptyResponse 600 (by decide))).deliver Tunnel.postCodec 0
      (.ok ⟨600, responseHeaders [], []⟩)).1.result = some (.error .protocol) :=
    ConnectorEnd.deliver_of_not_fits [] (Finset.notMem_empty 0) hfits
  rw [FixedUpstream.execute_of_send (send_localServer _)]
  exact congrArg (·.bind runReconnecting) hresult

theorem local_response_delivered_iff_ok :
    (emptyResponse 200 (by decide)).Fits ∧
    ConnectorEnd.Delivered Tunnel.postCodec (answered (emptyResponse 200 (by decide))) 0
      ((localServer (emptyResponse 200 (by decide))).execute echoRequest)
      ({ answered (emptyResponse 200 (by decide)) with outgoing := [] }.deliver Tunnel.postCodec 0
        ((localServer (emptyResponse 200 (by decide))).execute echoRequest)).1
      ({ answered (emptyResponse 200 (by decide)) with outgoing := [] }.deliver Tunnel.postCodec 0
        ((localServer (emptyResponse 200 (by decide))).execute echoRequest)).2 := by
  have hfits : (emptyResponse 200 (by decide)).Fits := ⟨by decide, by decide, by decide⟩
  refine ⟨hfits, (local_response_delivered_iff (reachable_answered _) ⟨rfl, rfl⟩
    (send_localServer _) rfl).mpr (.inr (.inr hfits))⟩

end Cresix.Relay
