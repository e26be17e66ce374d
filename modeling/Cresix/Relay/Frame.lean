import Cresix.CloudCore.Token

/-!
# Relay frames

The control and body frames of the relay protocol and the checks a frame
passes on its own, before any session state is looked at.  An HTTP method
carries the proof that it is one of the methods the relay forwards.
-/

namespace Cresix.Relay

open CloudCore (SecretToken)
open Rust (Uuid)

/-! ## Limits -/

/-- The only protocol version. -/
def relayProtocolVersion : UInt16 := 1

/-- The largest payload of one body frame. -/
def maxBodyChunkBytes : Nat := 64 * 1024

/-- The largest request body. -/
def maxRequestBodyBytes : Nat := 16 * 1024 * 1024

/-- The largest response body. -/
def maxResponseBodyBytes : Nat := 64 * 1024 * 1024

/-- How many requests one session has in flight. -/
def maxConcurrentRequests : Nat := 32

/-- How many headers a frame has. -/
def maxHeaderCount : Nat := 128

/-- The bytes of all header names and values of a frame. -/
def maxHeaderBytes : Nat := 64 * 1024

/-- The bytes of a request target. -/
def maxTargetBytes : Nat := 8 * 1024

/-- How many request identifiers one session sees. -/
def maxRequestIdsPerSession : Nat := 4096

/-- Why a frame is refused. -/
inductive RelayValidationError where
  | unsupportedProtocol
  | invalidMethod
  | invalidTarget
  | invalidDeadline
  | invalidStatus
  | invalidHeader
  | forbiddenHeader
  | headersTooLarge
  | chunkTooLarge
  | bodyTooLarge
  | malformedBodyFrame
  | illegalTransition
  | duplicateRequest
  | unknownRequest
  | concurrencyLimit
  | requestIdBudgetExhausted
  | invalidSequence
deriving DecidableEq, Repr

/-! ## Headers and methods -/

/-- The methods the relay forwards. -/
def httpMethods : List String := ["GET", "HEAD", "POST", "PUT", "PATCH", "DELETE", "OPTIONS"]

theorem get_mem_httpMethods : "GET" ∈ httpMethods := List.mem_cons_self

/-- A forwarded HTTP method. -/
structure HttpMethod where
  /-- The method name. -/
  value : String
  /-- It is one of `httpMethods`. -/
  valid : value ∈ httpMethods
deriving DecidableEq

/-- `HttpMethod::new`. -/
def HttpMethod.new (value : String) : Except RelayValidationError HttpMethod :=
  if h : value ∈ httpMethods then .ok ⟨value, h⟩ else .error .invalidMethod

@[simp] theorem HttpMethod.new_value (m : HttpMethod) : HttpMethod.new m.value = .ok m := by
  simp [HttpMethod.new, m.valid]

/-- A header of a request or response. -/
structure HeaderField where
  name : String
  value : String
deriving DecidableEq, Repr

/-- Hop-by-hop and routing headers, which never travel in a frame. -/
def forbiddenHeaders : List String :=
  ["connection", "keep-alive", "proxy-authenticate", "proxy-authorization", "te", "trailer",
   "transfer-encoding", "upgrade", "content-length", "host", "forwarded", "x-forwarded-for",
   "x-forwarded-host", "x-forwarded-proto", "x-real-ip", "x-c6-route", "x-c6-installation",
   "x-cresix-route", "x-cresix-installation"]

/-- `is_forbidden_header`. -/
def isForbiddenHeader (name : String) : Bool := forbiddenHeaders.contains name

/-- The bytes of a header name. -/
def isHeaderNameByte (byte : UInt8) : Bool :=
  Rust.isAsciiLowercase byte || Rust.isAsciiDigit byte
    || (Rust.bytes "!#$%&'*+-.^_`|~").contains byte

/-- `HeaderField::validate`. -/
def HeaderField.validate (field : HeaderField) : Except RelayValidationError Unit :=
  if field.name.isEmpty || !(Rust.bytes field.name).all isHeaderNameByte then
    .error .invalidHeader
  else if (Rust.bytes field.value).any
      fun byte => (Rust.isAsciiControl byte && byte != 0x09) || byte == 0x7f then
    .error .invalidHeader
  else if isForbiddenHeader field.name then .error .forbiddenHeader
  else .ok ()

/-- The loop of `validate_headers`: `size` counts the bytes of the headers
already seen. -/
def validateHeadersFrom (size : Nat) : List HeaderField → Except RelayValidationError Unit
  | [] => .ok ()
  | header :: rest =>
      match header.validate with
      | .error e => .error e
      | .ok () =>
        let size := Rust.saturatingAdd (Rust.saturatingAdd size (Rust.len header.name))
          (Rust.len header.value)
        if size > maxHeaderBytes then .error .headersTooLarge
        else validateHeadersFrom size rest

/-- `validate_headers`. -/
def validateHeaders (headers : List HeaderField) : Except RelayValidationError Unit :=
  if headers.length > maxHeaderCount then .error .headersTooLarge
  else validateHeadersFrom 0 headers

/-- The bytes of the names and values. -/
def headersSize : List HeaderField → Nat
  | [] => 0
  | header :: rest => Rust.len header.name + Rust.len header.value + headersSize rest

theorem validateHeadersFrom_ok_iff {size : Nat} {headers : List HeaderField}
    (hsize : size ≤ maxHeaderBytes) :
    validateHeadersFrom size headers = .ok () ↔
      (∀ header ∈ headers, header.validate = .ok ()) ∧ size + headersSize headers ≤ maxHeaderBytes := by
  induction headers generalizing size with
  | nil => simp [validateHeadersFrom, headersSize, hsize]
  | cons header rest ih =>
      have hmax : maxHeaderBytes < Rust.u64Max := by decide
      simp only [validateHeadersFrom, headersSize, List.forall_mem_cons]
      cases hvalid : header.validate with
      | error e => simp
      | ok _ =>
          by_cases hfit : size + Rust.len header.name + Rust.len header.value ≤ maxHeaderBytes
          · have hsum : Rust.saturatingAdd (Rust.saturatingAdd size (Rust.len header.name))
                (Rust.len header.value) = size + Rust.len header.name + Rust.len header.value := by
              unfold Rust.saturatingAdd
              omega
            simp only [hsum, if_neg (Nat.not_lt.mpr hfit), ih hfit, true_and]
            rw [Nat.add_assoc, Nat.add_assoc, Nat.add_assoc]
          · have hsum : maxHeaderBytes < Rust.saturatingAdd
                (Rust.saturatingAdd size (Rust.len header.name)) (Rust.len header.value) := by
              unfold Rust.saturatingAdd
              omega
            simp only [if_pos hsum, reduceCtorEq, true_and, false_iff, not_and]
            intro _
            omega

/-- The headers of a frame pass when each does and together they are within
the limits. -/
theorem validateHeaders_ok_iff {headers : List HeaderField} :
    validateHeaders headers = .ok () ↔
      headers.length ≤ maxHeaderCount ∧ (∀ header ∈ headers, header.validate = .ok ()) ∧
        headersSize headers ≤ maxHeaderBytes := by
  unfold validateHeaders
  split
  next hcount => simp [Nat.not_le.mpr hcount]
  next hcount =>
    rw [validateHeadersFrom_ok_iff (Nat.zero_le _), Nat.zero_add]
    simp [Nat.not_lt.mp hcount]

/-! ## Control frames -/

structure ClientHelloFrame where
  protocolVersion : UInt16
  connectorToken : SecretToken
deriving DecidableEq

structure ServerReadyFrame where
  installationId : Uuid
  generation : UInt64
  maxConcurrentRequests : UInt16
  maxChunkBytes : UInt32
deriving DecidableEq

structure RequestStartFrame where
  requestId : Uuid
  method : HttpMethod
  /-- The origin-relative path and optional query. -/
  target : String
  headers : List HeaderField
  deadlineUnixMs : UInt64
deriving DecidableEq

/-- `RequestStartFrame::validate`. -/
def RequestStartFrame.validate (frame : RequestStartFrame) : Except RelayValidationError Unit :=
  if frame.target.isEmpty || maxTargetBytes < Rust.len frame.target
      || !Rust.startsWith frame.target "/" || Rust.startsWith frame.target "//"
      || Rust.contains frame.target "#" || Rust.contains frame.target "://"
      || Rust.contains frame.target "\\" || (Rust.bytes frame.target).any Rust.isAsciiControl then
    .error .invalidTarget
  else if frame.deadlineUnixMs = 0 then .error .invalidDeadline
  else validateHeaders frame.headers

structure RequestIdFrame where
  requestId : Uuid
deriving DecidableEq, Repr

structure ResponseStartFrame where
  requestId : Uuid
  status : UInt16
  headers : List HeaderField
deriving DecidableEq, Repr

/-- `ResponseStartFrame::validate`. -/
def ResponseStartFrame.validate (frame : ResponseStartFrame) :
    Except RelayValidationError Unit :=
  if ¬(100 ≤ frame.status ∧ frame.status ≤ 599) then .error .invalidStatus
  else validateHeaders frame.headers

inductive RelayFailureCode where
  | badGateway
  | timeout
  | cancelled
  | protocol
deriving DecidableEq, Repr

structure RequestFailedFrame where
  requestId : Uuid
  code : RelayFailureCode
  message : String
deriving DecidableEq, Repr

/-- The message check of `observe_control`. -/
def RequestFailedFrame.validMessage (frame : RequestFailedFrame) : Bool :=
  !(200 < Rust.len frame.message || frame.message.toList.any Rust.isControl)

structure KeepaliveFrame where
  nonce : UInt64
deriving DecidableEq, Repr

/-- The strict JSON control frames. -/
inductive RelayControlFrame where
  | clientHello (frame : ClientHelloFrame)
  | serverReady (frame : ServerReadyFrame)
  | requestStart (frame : RequestStartFrame)
  | requestEnd (frame : RequestIdFrame)
  | responseStart (frame : ResponseStartFrame)
  | responseEnd (frame : RequestIdFrame)
  | cancel (frame : RequestIdFrame)
  | requestFailed (frame : RequestFailedFrame)
  | ping (frame : KeepaliveFrame)
  | pong (frame : KeepaliveFrame)
deriving DecidableEq

/-! ## Body frames -/

inductive RelayBodyKind where
  | requestChunk
  | responseChunk
deriving DecidableEq, Repr

/-- A chunk of a body. -/
structure RelayBodyFrame where
  kind : RelayBodyKind
  requestId : Uuid
  sequence : UInt32
  payload : List UInt8
deriving DecidableEq, Repr

/-- The largest body of the kind. -/
def RelayBodyKind.limit : RelayBodyKind → Nat
  | .requestChunk => maxRequestBodyBytes
  | .responseChunk => maxResponseBodyBytes

/-- What travels over a relay connection. -/
inductive Frame where
  | control (frame : RelayControlFrame)
  | body (frame : RelayBodyFrame)
deriving DecidableEq

/-- The request a frame carries the identifier of. -/
def RelayControlFrame.requestId? : RelayControlFrame → Option Uuid
  | .clientHello _ | .serverReady _ | .ping _ | .pong _ => none
  | .requestStart frame => some frame.requestId
  | .requestEnd frame | .responseEnd frame | .cancel frame => some frame.requestId
  | .responseStart frame => some frame.requestId
  | .requestFailed frame => some frame.requestId

/-- The request a frame carries the identifier of. -/
def Frame.requestId? : Frame → Option Uuid
  | .control frame => frame.requestId?
  | .body frame => some frame.requestId

/-- The checks a frame passes on its own. -/
def Frame.Valid : Frame → Prop
  | .control (.requestStart frame) => frame.validate = .ok ()
  | .control (.responseStart frame) => frame.validate = .ok ()
  | .control (.requestFailed frame) => frame.validMessage = true
  | .control _ => True
  | .body frame => frame.payload.length ≤ maxBodyChunkBytes

end Cresix.Relay
