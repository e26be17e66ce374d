import Cresix.Library.Transition
import Cresix.Relay.Codec
import Cresix.Relay.Session

/-!
# Executing an exchange

The two drivers of a relay connection.  The relay's `execute_exchange` puts
one proxied request on the wire and collects the response.  The connector's
session loop collects requests, has the fixed upstream execute them and puts
the responses on the wire.  Each driver checks every frame with its own
`RelaySessionState`.

A driver that awaits a send is between two steps.  So the frames that a piece
of code sends one after the other are a list to be worked off: the relay's
`sending`, and the connector's `outbox`, while which it takes nothing else on.
The WebSocket delivers the messages of each direction in order.
-/

namespace Cresix.Relay

open Rust (Uuid)
open Transition (System)

structure ProxyRequest where
  method : String
  target : String
  headers : List HeaderField
  body : List UInt8
deriving DecidableEq

structure ProxyResponse where
  status : UInt16
  headers : List HeaderField
  body : List UInt8
deriving DecidableEq

structure ProxyResult where
  status : UInt16
  headers : List HeaderField
  body : List UInt8
deriving DecidableEq

inductive ProxyError where
  | invalidRequest
  | unavailable
  | timeout
  | responseTooLarge
deriving DecidableEq, Repr

/-- `failure_code`. -/
def failureCode : ProxyError → RelayFailureCode
  | .invalidRequest => .protocol
  | .unavailable | .responseTooLarge => .badGateway
  | .timeout => .timeout

/-! ## Streams of frames -/

/-- The frames of the chunks, numbered from `n`. -/
def chunkFrames (kind : RelayBodyKind) (id : Uuid) : Nat → List (List UInt8) → List Frame
  | _, [] => []
  | n, chunk :: chunks =>
      -- `sequence as u32`
      .body ⟨kind, id, UInt32.ofNat n, chunk⟩ :: chunkFrames kind id (n + 1) chunks

/-- The frames of a body. -/
def bodyFrames (kind : RelayBodyKind) (id : Uuid) (body : List UInt8) : List Frame :=
  chunkFrames kind id 0 (body.chunks maxBodyChunkBytes)

/-- What `execute_exchange` sends. -/
def requestFrames (start : RequestStartFrame) (body : List UInt8) : List Frame :=
  .control (.requestStart start) :: bodyFrames .requestChunk start.requestId body ++
    [.control (.requestEnd ⟨start.requestId⟩)]

/-- What `send_response` sends. -/
def responseFrames (id : Uuid) (response : ProxyResponse) : List Frame :=
  .control (.responseStart ⟨id, response.status, response.headers⟩) ::
    bodyFrames .responseChunk id response.body ++ [.control (.responseEnd ⟨id⟩)]

/-! ## The relay -/

/-- How far `execute_exchange` got. -/
inductive ExchangeTask where
  /-- The frames it has still to send. -/
  | sending (frames : List Frame)
  /-- What it collected of the response. -/
  | receiving (status : Option UInt16) (headers : List HeaderField) (body : List UInt8)
  | returned (result : Except String ProxyResult)

/-- The relay executing an exchange. -/
structure RelayEnd where
  state : RelaySessionState
  requestId : Uuid
  task : ExchangeTask

/-- The loop that receives follows the last send. -/
def ExchangeTask.afterSending : List Frame → ExchangeTask
  | [] => .receiving none [] []
  | frame :: frames => .sending (frame :: frames)

/-- The frame that opens the exchange. -/
def ProxyRequest.startFrame (request : ProxyRequest) (requestId : Uuid)
    (deadlineUnixMs : UInt64) : Except RelayValidationError RequestStartFrame :=
  (HttpMethod.new request.method).map fun method =>
    ⟨requestId, method, request.target, request.headers, deadlineUnixMs⟩

/-- `execute_exchange` under a new identifier and a deadline. -/
def executeExchange (state : RelaySessionState) (requestId : Uuid) (deadlineUnixMs : UInt64)
    (request : ProxyRequest) : RelayEnd where
  state := state
  requestId := requestId
  task :=
    match request.startFrame requestId deadlineUnixMs with
    | .error _ => .returned (.error "invalid relay method")
    | .ok start => .sending (requestFrames start request.body)

namespace RelayEnd

/-- `return Err(error)`. -/
def fail (s : RelayEnd) (error : String) : RelayEnd × List Message :=
  ({ s with task := .returned (.error error) }, [])

/-- The error of a frame the relay's own state rejects. -/
def sendError : Frame → String
  | .control _ => "relay state rejected control frame"
  | .body _ => "relay protocol rejected request body"

/-- Sends the next frame, with `send_control` or in the loop over the chunks. -/
def send (codec : ControlCodec) (s : RelayEnd) (frame : Frame) (rest : List Frame) :
    RelayEnd × List Message :=
  match s.state.observe frame with
  | (.error _, state) => { s with state }.fail (sendError frame)
  | (.ok (), state) =>
      match encodeFrame codec frame with
      | .error _ => { s with state }.fail "relay request encoding failed"
      | .ok message => ({ s with state, task := .afterSending rest }, [message])

/-- The control frames of the loop that receives. -/
def receiveControl (codec : ControlCodec) (s : RelayEnd) (status : Option UInt16)
    (headers : List HeaderField) (body : List UInt8) :
    RelayControlFrame → RelayEnd × List Message
  | .responseStart frame =>
      if frame.requestId = s.requestId then
        ({ s with task := .receiving (some frame.status) frame.headers body }, [])
      else s.fail "connector sent a frame for the wrong request"
  | .responseEnd frame =>
      if frame.requestId = s.requestId then
        match status with
        | none => s.fail "connector ended response before status"
        | some status => ({ s with task := .returned (.ok ⟨status, headers, body⟩) }, [])
      else s.fail "connector sent a frame for the wrong request"
  | .requestFailed frame =>
      if frame.requestId = s.requestId then
        match frame.code with
        | .timeout => s.fail "local request timed out"
        | _ => s.fail "local C6 request failed"
      else s.fail "connector sent a frame for the wrong request"
  | .ping ping =>
      match s.state.observeControl (.pong ping) with
      | (.error _, state) => { s with state }.fail "relay state rejected control frame"
      | (.ok (), state) => ({ s with state }, [.text (codec.toString (.pong ping))])
  | .pong _ => (s, [])
  | _ => s.fail "connector sent a frame for the wrong request"

/-- One round of the loop that receives. -/
def receive (codec : ControlCodec) (s : RelayEnd) (status : Option UInt16)
    (headers : List HeaderField) (body : List UInt8) : Message → RelayEnd × List Message
  | .text text =>
      match codec.fromStr text with
      | none => s.fail "connector sent malformed control frame"
      | some frame =>
          match s.state.observeControl frame with
          | (.error _, state) => { s with state }.fail "connector violated relay protocol"
          | (.ok (), state) => { s with state }.receiveControl codec status headers body frame
  | .binary bytes =>
      match RelayBodyFrame.decode bytes with
      | .error _ => s.fail "connector sent malformed response body"
      | .ok frame =>
          if frame.kind ≠ .responseChunk ∨ frame.requestId ≠ s.requestId then
            s.fail "connector sent a body for the wrong request"
          else
            match s.state.observeBody frame with
            | (.error _, state) => { s with state }.fail "connector violated relay body limits"
            | (.ok (), state) =>
                if maxResponseBodyBytes < (body ++ frame.payload).length then
                  { s with state }.fail "local response exceeded relay limit"
                else
                  ({ s with state, task := .receiving status headers (body ++ frame.payload) }, [])
  | .ping bytes => (s, [.pong bytes])
  | .pong _ | .close => s.fail "connector closed during request"

end RelayEnd

/-! ## The connector -/

/-- Why `run_session` ends on a connection that delivers. -/
inductive RuntimeError where
  | protocol
deriving DecidableEq, Repr

structure PendingRequest where
  method : String
  target : String
  headers : List HeaderField
  body : List UInt8
  deadlineUnixMs : UInt64
  rejected : Bool
deriving DecidableEq

/-- What the session loop uses of the configuration. -/
structure LoadedConfig where
  maxInFlight : Nat
  /-- The configuration is validated when it is loaded. -/
  valid : 1 ≤ maxInFlight ∧ maxInFlight ≤ 32

/-- The connector in its session loop. -/
structure ConnectorEnd where
  state : RelaySessionState
  pending : Finmap fun _ : Uuid => PendingRequest
  active : Finset Uuid
  cancelled : Finset Uuid
  /-- The requests the upstream is executing. -/
  upstream : List (Uuid × ProxyRequest)
  /-- The channel on which the answers of the upstream wait. -/
  outgoing : List (Uuid × Except ProxyError ProxyResponse)
  /-- The frames the handler of the last message has still to send. -/
  outbox : List Frame
  /-- What `run_session` returned. -/
  result : Option (Except RuntimeError Unit)

namespace ConnectorEnd

/-- `return Err(RuntimeError::Protocol)`. -/
def fail (s : ConnectorEnd) : ConnectorEnd × List Message :=
  ({ s with result := some (.error .protocol) }, [])

/-- `send_failure`. -/
def sendFailure (s : ConnectorEnd) (requestId : Uuid) (code : RelayFailureCode)
    (message : String) : ConnectorEnd :=
  { s with outbox := [.control (.requestFailed ⟨requestId, code, message⟩)] }

/-- The control frames of the session loop; `now` is `unix_millis()`. -/
def receiveControl (config : LoadedConfig) (now : UInt64) (s : ConnectorEnd) :
    RelayControlFrame → ConnectorEnd × List Message
  | .requestStart frame =>
      if frame.requestId ∈ s.pending then s.fail
      else
        let rejected := decide (config.maxInFlight ≤
          Rust.saturatingAdd s.pending.keys.card s.active.card)
        let request : PendingRequest :=
          ⟨frame.method.value, frame.target, frame.headers, [], frame.deadlineUnixMs, rejected⟩
        ({ s with pending := s.pending.insert frame.requestId request }, [])
  | .requestEnd frame =>
      if frame.requestId ∈ s.cancelled then
        ({ s with cancelled := s.cancelled.erase frame.requestId }, [])
      else
        match s.pending.lookup frame.requestId with
        | none => s.fail
        | some request =>
            let s := { s with pending := s.pending.erase frame.requestId }
            if request.rejected then
              (s.sendFailure frame.requestId .badGateway "connector concurrency limit reached", [])
            else if request.deadlineUnixMs ≤ now then
              (s.sendFailure frame.requestId .timeout "request deadline expired", [])
            else
              let upstream : ProxyRequest :=
                ⟨request.method, request.target, request.headers, request.body⟩
              ({ s with
                active := insert frame.requestId s.active
                upstream := s.upstream ++ [(frame.requestId, upstream)] }, [])
  | .cancel frame =>
      if frame.requestId ∈ s.pending then
        ({ s with pending := s.pending.erase frame.requestId }, [])
      else if frame.requestId ∈ s.active then
        ({ s with cancelled := insert frame.requestId s.cancelled }, [])
      else (s, [])
  | .ping frame => ({ s with outbox := [.control (.pong ⟨frame.nonce⟩)] }, [])
  | .pong _ => (s, [])
  | _ => s.fail

/-- The session loop on a message. -/
def receive (codec : ControlCodec) (config : LoadedConfig) (now : UInt64) (s : ConnectorEnd) :
    Message → ConnectorEnd × List Message
  | .text text =>
      match decodeControl codec text with
      | .error _ => s.fail
      | .ok frame =>
          match s.state.observeControl frame with
          | (.error _, state) => { s with state }.fail
          | (.ok (), state) => { s with state }.receiveControl config now frame
  | .binary bytes =>
      match RelayBodyFrame.decode bytes with
      | .error _ => s.fail
      | .ok frame =>
          match s.state.observeBody frame with
          | (.error _, state) => { s with state }.fail
          | (.ok (), state) =>
              if frame.kind ≠ .requestChunk then { s with state }.fail
              else
                match s.pending.lookup frame.requestId with
                | none => { s with state }.fail
                | some request =>
                    let request := { request with body := request.body ++ frame.payload }
                    ({ s with state, pending := s.pending.insert frame.requestId request }, [])
  | .ping bytes => (s, [.pong bytes])
  | .pong _ => (s, [])
  | .close => ({ s with result := some (.ok ()) }, [])

/-- The session loop on an answer of the upstream. -/
def takeOutgoing (s : ConnectorEnd) (id : Uuid) (response : Except ProxyError ProxyResponse) :
    ConnectorEnd :=
  let s := { s with active := s.active.erase id }
  if id ∈ s.cancelled then { s with cancelled := s.cancelled.erase id }
  else
    match response with
    | .ok response => { s with outbox := responseFrames id response }
    | .error error => s.sendFailure id (failureCode error) "local C6 request failed"

/-- Sends the next frame of the outbox: `send_observed_control`, and the loop
over the chunks in `send_response`. -/
def send (codec : ControlCodec) (s : ConnectorEnd) (frame : Frame) (rest : List Frame) :
    ConnectorEnd × List Message :=
  match s.state.observe frame with
  | (.error _, state) => { s with state }.fail
  | (.ok (), state) =>
      match encodeFrame codec frame with
      | .error _ => { s with state }.fail
      | .ok message => ({ s with state, outbox := rest }, [message])

/-- The loop waits for the next message or answer. -/
def Free (s : ConnectorEnd) : Prop := s.result = none ∧ s.outbox = []

instance (s : ConnectorEnd) : Decidable s.Free :=
  decidable_of_iff (s.result.isNone ∧ s.outbox.isEmpty) (by simp [Free])

end ConnectorEnd

/-! ## Both ends -/

/-- The drivers of a connection and the messages on their way. -/
structure Tunnel where
  relay : RelayEnd
  connector : ConnectorEnd
  toConnector : List Message
  toRelay : List Message

inductive TunnelAction where
  /-- The relay sends its next frame. -/
  | relaySend
  /-- The relay receives the next message. -/
  | relayReceive
  /-- The connector receives the next message, at a reading of its clock. -/
  | connectorReceive (now : UInt64)
  /-- The upstream answers a request. -/
  | answer (id : Uuid) (response : Except ProxyError ProxyResponse)
  /-- The connector takes the next answer. -/
  | connectorTake
  /-- The connector sends its next frame. -/
  | connectorSend

namespace Tunnel

/-- One step; `none` when it cannot be taken. -/
def step (codec : ControlCodec) (config : LoadedConfig) (t : Tunnel) :
    TunnelAction → Option Tunnel
  | .relaySend =>
      match t.relay.task with
      | .sending (frame :: rest) =>
          let (relay, sent) := t.relay.send codec frame rest
          some { t with relay, toConnector := t.toConnector ++ sent }
      | _ => none
  | .relayReceive =>
      match t.relay.task, t.toRelay with
      | .receiving status headers body, message :: toRelay =>
          let (relay, sent) := t.relay.receive codec status headers body message
          some { t with relay, toRelay, toConnector := t.toConnector ++ sent }
      | _, _ => none
  | .connectorReceive now =>
      if t.connector.Free then
        match t.toConnector with
        | [] => none
        | message :: toConnector =>
            let (connector, sent) := t.connector.receive codec config now message
            some { t with connector, toConnector, toRelay := t.toRelay ++ sent }
      else none
  | .answer id response =>
      match t.connector.upstream.find? (·.1 = id) with
      | none => none
      | some entry =>
          some { t with connector := { t.connector with
            upstream := t.connector.upstream.erase entry
            outgoing := t.connector.outgoing ++ [(id, response)] } }
  | .connectorTake =>
      if t.connector.Free then
        match t.connector.outgoing with
        | [] => none
        | (id, response) :: outgoing =>
            some { t with connector := { t.connector with outgoing }.takeOutgoing id response }
      else none
  | .connectorSend =>
      if t.connector.result.isSome then none
      else
        match t.connector.outbox with
        | [] => none
        | frame :: rest =>
            let (connector, sent) := t.connector.send codec frame rest
            some { t with connector, toRelay := t.toRelay ++ sent }

/-- The connection under any order of steps. -/
def system (codec : ControlCodec) (config : LoadedConfig) (start : Tunnel → Prop) :
    System Tunnel TunnelAction :=
  .ofOption start (step codec config)

end Tunnel

end Cresix.Relay
