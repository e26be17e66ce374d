import Cresix.Cloud.Database
import Cresix.Relay.ControlJson
import Cresix.Library.FiniteMap
import Cresix.Library.Transition

/-!
# The relay of the cloud

Revocations, requests to the relay route and relay sessions, interleaved step
by step.  A step is what a task does between two waits: under the lock of the
registry, on the queue of a session, on the socket, or when a timer fires.

A session keeps its socket, its validator and the one slot of its queue.  The
sender of a registration is the number of its session: cloning a registration
lets a request reach the queue as long as the receiver is there, registered or
not.  What the connector sends is any message.  `timeout_at` looks at the
deadline when the future it guards is not ready, so a timer only fires late
and never cuts a step short.
-/

namespace Cresix.Cloud

open Relay
open Rust (Uuid)
open Transition (System Event)

/-- A millisecond of the clock, which counts nanoseconds. -/
def millisecond : Nat := 1000000

def second : Nat := 1000 * millisecond

/-- `RelayRegistration`; the number of the session stands for the identifier it drew and for the
sender of its queue. -/
structure RelayRegistration where
  sessionId : Nat
deriving DecidableEq, Repr

/-- `ProxyExchange`. -/
structure ProxyExchange where
  request : ProxyRequest
  deadline : Nat
  /-- The request whose handler holds the receiver of the reply. -/
  reply : Nat
deriving DecidableEq

/-! ## Requests -/

/-- The channel of the reply. -/
inductive Reply where
  | pending
  | sent (result : Except String ProxyResult)
  /-- The sender was dropped. -/
  | closed

/-- Where `relay_proxy` waits. -/
inductive ProxyTask where
  /-- For the lock of the registry. -/
  | lookup
  /-- For the body of the request. -/
  | reading (registration : RelayRegistration) (request : ProxyRequest)
  /-- For room in the queue. -/
  | sending (registration : RelayRegistration) (request : ProxyRequest)
  /-- For the reply. -/
  | waiting (registration : RelayRegistration)
  | answered (reply : ProxyReply)
  /-- The client went away. -/
  | dropped

/-- The clone of a registration the handler holds. -/
def ProxyTask.registration? : ProxyTask → Option RelayRegistration
  | .reading registration _ | .sending registration _ | .waiting registration => some registration
  | _ => none

/-- A request to the relay route. -/
structure Proxy where
  route : String
  request : HttpRequest
  deadline : Nat
  task : ProxyTask
  reply : Reply

inductive ProxyAction where
  | lookup
  | body (bytes : List UInt8)
  /-- The body is too large, or breaks off. -/
  | bodyFailed
  | bodyTimeout
  | send
  | sendFailed
  | sendTimeout
  | receive
  | receiveTimeout
  | drop

/-! ## Sessions -/

/-- Where `relay_session` waits. -/
inductive SessionTask where
  /-- For the hello of the connector that upgraded with this token. -/
  | hello (authorization : String)
  /-- For the lock of the registry. -/
  | registering
  /-- For an exchange or a message. -/
  | idle
  /-- For the socket, inside `execute_exchange`. -/
  | executing (exchange : ProxyExchange) (requestId : Uuid) (task : ExchangeTask)
  /-- For the lock of the registry, after the loop. -/
  | closing
  /-- For the database, after the entry was removed or not. -/
  | unregistered (removed : Bool)
  | ended

/-- A relay session. -/
structure Session where
  installationId : Uuid
  route : Option String
  protocol : RelaySessionState
  /-- The one slot of the queue. -/
  queue : Option ProxyExchange
  task : SessionTask

inductive SessionAction where
  | hello (message : Message)
  /-- The hello or the registration fails. -/
  | abort
  | register
  /-- An exchange is taken from the queue and draws its identifier. -/
  | take (requestId : Uuid)
  | send
  | receive (message : Message)
  /-- The socket fails. -/
  | lost
  | finish
  | timeout
  | message (message : Message)
  /-- Every sender is gone. -/
  | noSenders
  | unregister
  | disconnected

/-- The deadline `execute_exchange` computes. -/
def deadlineUnixMs (now : Nat) : UInt64 :=
  UInt64.ofNat (max 1 ((now + 30 * second) / millisecond))

namespace Session

/-- The exchange begins. -/
def take (session : Session) (now : Nat) (exchange : ProxyExchange) (requestId : Uuid) : Session :=
  let relay := executeExchange session.protocol requestId (deadlineUnixMs now) exchange.request
  { session with queue := none, task := .executing exchange relay.requestId relay.task }

/-- The exchange after a step of it. -/
def execute (session : Session) (exchange : ProxyExchange) (relay : RelayEnd) : Session :=
  { session with
    protocol := relay.state
    task := .executing exchange relay.requestId relay.task }

/-- The loop after an exchange: any failure ends it. -/
def afterExchange (session : Session) : Except String ProxyResult → Session
  | .error _ => { session with task := .closing }
  | .ok _ =>
      if session.protocol.isReady then { session with task := .idle }
      else { session with task := .closing }

/-- The loop on a message between two exchanges. -/
def receive (codec : ControlCodec) (session : Session) : Message → Session
  | .ping _ => session
  | .text text =>
      match codec.fromStr text with
      | some (.ping ping) =>
          match session.protocol.observeControl (.ping ping) with
          | (.error _, protocol) => { session with protocol, task := .closing }
          | (.ok (), protocol) =>
              match protocol.observeControl (.pong ping) with
              | (.error _, protocol) => { session with protocol, task := .closing }
              | (.ok (), protocol) => { session with protocol }
      | _ => { session with task := .closing }
  | _ => { session with task := .closing }

/-- The handshake: the hello and the answer to it. -/
def greet (codec : ControlCodec) (session : Session) (authorization : String) (message : Message) :
    Session :=
  match message with
  | .text text =>
      match codec.fromStr text with
      | some (.clientHello hello) =>
          if hello.connectorToken.value ≠ authorization then { session with task := .ended }
          else
            match session.protocol.observeControl (.clientHello hello) with
            | (.error _, protocol) => { session with protocol, task := .ended }
            | (.ok (), protocol) =>
                match protocol.observeControl (.serverReady ⟨session.installationId, 1, 1,
                    UInt32.ofNat maxBodyChunkBytes⟩) with
                | (.error _, protocol) => { session with protocol, task := .ended }
                | (.ok (), protocol) => { session with protocol, task := .registering }
      | _ => { session with task := .ended }
  | _ => { session with task := .ended }

end Session

/-! ## The cloud -/

/-- The process of the cloud, with its database. -/
structure Process where
  now : Nat
  db : Database
  relays : Finmap fun _ : String => RelayRegistration
  /-- The installation whose revocation is committed and holds the lock of the registry. -/
  revoking : Option Installation
  sessions : List Session
  proxies : List Proxy

inductive Action where
  | tick (time : Nat)
  | registerInstallation (id account localServerId : Uuid) (routeId : String)
      (publicId : List UInt8) (secretHash : String)
  /-- `revoke_installation` takes the lock and commits. -/
  | revoke (account id : Uuid)
  /-- It removes the route and returns. -/
  | revoked
  /-- A request arrives at the relay route. -/
  | request (route : String) (request : HttpRequest)
  | proxy (number : Nat) (action : ProxyAction)
  /-- A connector upgrades to a relay session. -/
  | connect (token : String)
  | session (number : Nat) (action : SessionAction)

namespace Process

/-- A handler of a request goes on. -/
def setProxy (cloud : Process) (number : Nat) (proxy : Proxy) : Process :=
  { cloud with proxies := cloud.proxies.set number proxy }

/-- A session goes on. -/
def setSession (cloud : Process) (number : Nat) (session : Session) : Process :=
  { cloud with sessions := cloud.sessions.set number session }

/-- `exchange.reply.send(..)`, or the drop of its sender. -/
def setReply (cloud : Process) (exchange : ProxyExchange) (reply : Reply) : Process :=
  match cloud.proxies[exchange.reply]? with
  | some proxy => cloud.setProxy exchange.reply { proxy with reply }
  | none => cloud

/-- The receiver of a queue is dropped. -/
def dropQueue (cloud : Process) : Option ProxyExchange → Process
  | some exchange => cloud.setReply exchange .closed
  | none => cloud

/-- The receiver of a queue is there until its session ends. -/
def receiver (cloud : Process) (registration : RelayRegistration) : Option Session :=
  match cloud.sessions[registration.sessionId]? with
  | some session =>
      match session.task with
      | .ended => none
      | _ => some session
  | none => none

/-- Some handler, or the registry, holds the sender of the session. -/
def hasSender (cloud : Process) (session : Session) (number : Nat) : Bool :=
  cloud.proxies.any (fun proxy => decide (proxy.task.registration? = some ⟨number⟩)) ||
    match session.route with
    | some route => decide (cloud.relays.lookup route = some ⟨number⟩)
    | none => false

/-- A step of a request. -/
def stepProxy (cloud : Process) (number : Nat) (proxy : Proxy) :
    ProxyAction → Option Process
  | .lookup =>
      match proxy.task with
      | .lookup =>
          if cloud.revoking.isSome then none
          else
            match cloud.relays.lookup proxy.route with
            | none => some (cloud.setProxy number { proxy with task := .answered notConnected })
            | some registration =>
                match proxy.request.prepare with
                | .error error =>
                    some (cloud.setProxy number { proxy with task := .answered (.error error) })
                | .ok request =>
                    some (cloud.setProxy number { proxy with task := .reading registration request })
      | _ => none
  | .body bytes =>
      match proxy.task with
      | .reading registration request =>
          if bytes.length ≤ maxRequestBodyBytes then
            let request := { request with body := bytes }
            some (cloud.setProxy number { proxy with task := .sending registration request })
          else none
      | _ => none
  | .bodyFailed =>
      match proxy.task with
      | .reading _ _ =>
          some (cloud.setProxy number { proxy with task := .answered payloadTooLarge })
      | _ => none
  | .bodyTimeout =>
      match proxy.task with
      | .reading _ _ =>
          if proxy.deadline ≤ cloud.now then
            some (cloud.setProxy number { proxy with task := .answered bodyTimeout })
          else none
      | _ => none
  | .send =>
      match proxy.task with
      | .sending registration request =>
          match cloud.receiver registration with
          | some session =>
              if session.queue.isSome then none
              else
                let exchange : ProxyExchange := ⟨request, proxy.deadline, number⟩
                some ((cloud.setSession registration.sessionId
                    { session with queue := some exchange }).setProxy number
                  { proxy with task := .waiting registration })
          | none => none
      | _ => none
  | .sendFailed =>
      match proxy.task with
      | .sending registration _ =>
          if (cloud.receiver registration).isSome then none
          else some (cloud.setProxy number { proxy with task := .answered disconnected })
      | _ => none
  | .sendTimeout =>
      match proxy.task with
      | .sending _ _ =>
          if proxy.deadline ≤ cloud.now then
            some (cloud.setProxy number { proxy with task := .answered queueTimeout })
          else none
      | _ => none
  | .receive =>
      match proxy.task, proxy.reply with
      | .waiting _, .sent result =>
          some (cloud.setProxy number { proxy with task := .answered (replyOf result) })
      | .waiting _, .closed =>
          some (cloud.setProxy number { proxy with task := .answered replyTimeout })
      | _, _ => none
  | .receiveTimeout =>
      match proxy.task, proxy.reply with
      | .waiting _, .pending =>
          if proxy.deadline ≤ cloud.now then
            some (cloud.setProxy number { proxy with task := .answered replyTimeout })
          else none
      | _, _ => none
  | .drop =>
      match proxy.task with
      | .answered _ | .dropped => none
      | _ => some (cloud.setProxy number { proxy with task := .dropped })

/-- A step of a session. -/
def stepSession (codec : ControlCodec) (cloud : Process) (number : Nat) (session : Session) :
    SessionAction → Option Process
  | .hello message =>
      match session.task with
      | .hello authorization =>
          some (cloud.setSession number (session.greet codec authorization message))
      | _ => none
  | .abort =>
      match session.task with
      | .hello _ | .registering => some (cloud.setSession number { session with task := .ended })
      | _ => none
  | .register =>
      match session.task with
      | .registering =>
          if cloud.revoking.isSome then none
          else
            match cloud.db.activeRoute session.installationId with
            | none => some (cloud.setSession number { session with task := .ended })
            | some route =>
                some ({ cloud with
                  db := cloud.db.setConnected session.installationId (some cloud.now)
                  relays := cloud.relays.insert route ⟨number⟩ }.setSession number
                    { session with route := some route, task := .idle })
      | _ => none
  | .take requestId =>
      match session.task, session.queue with
      | .idle, some exchange =>
          some (cloud.setSession number (session.take cloud.now exchange requestId))
      | _, _ => none
  | .send =>
      match session.task with
      | .executing exchange requestId (.sending (frame :: rest)) =>
          let relay : RelayEnd := ⟨session.protocol, requestId, .sending (frame :: rest)⟩
          some (cloud.setSession number
            (session.execute exchange (relay.send codec frame rest).1))
      | _ => none
  | .receive message =>
      match session.task with
      | .executing exchange requestId (.receiving status headers body) =>
          let relay : RelayEnd := ⟨session.protocol, requestId, .receiving status headers body⟩
          some (cloud.setSession number
            (session.execute exchange (relay.receive codec status headers body message).1))
      | _ => none
  | .lost =>
      match session.task with
      | .executing _ _ (.returned _) => none
      | .executing exchange requestId _ =>
          let task := .returned (.error "connector disconnected")
          some (cloud.setSession number
            { session with task := .executing exchange requestId task })
      | .idle => some (cloud.setSession number { session with task := .closing })
      | _ => none
  | .finish =>
      match session.task with
      | .executing exchange _ (.returned result) =>
          some ((cloud.setSession number (session.afterExchange result)).setReply exchange
            (.sent result))
      | _ => none
  | .timeout =>
      match session.task with
      | .executing _ _ (.returned _) => none
      | .executing exchange _ _ =>
          if exchange.deadline ≤ cloud.now then
            some ((cloud.setSession number { session with task := .closing }).setReply exchange
              (.sent (.error "relay exchange exceeded its total deadline")))
          else none
      | _ => none
  | .message message =>
      match session.task with
      | .idle => some (cloud.setSession number (session.receive codec message))
      | _ => none
  | .noSenders =>
      match session.task, session.queue with
      | .idle, none =>
          if cloud.hasSender session number then none
          else some (cloud.setSession number { session with task := .closing })
      | _, _ => none
  | .unregister =>
      match session.task, session.route with
      | .closing, some route =>
          if cloud.revoking.isSome then none
          else if cloud.relays.lookup route = some ⟨number⟩ then
            some ({ cloud with relays := cloud.relays.erase route }.setSession number
              { session with task := .unregistered true })
          else some (cloud.setSession number { session with task := .unregistered false })
      | _, _ => none
  | .disconnected =>
      match session.task with
      | .unregistered removed =>
          let db :=
            if removed then cloud.db.setConnected session.installationId none else cloud.db
          some (({ cloud with db }.setSession number
            { session with queue := none, task := .ended }).dropQueue session.queue)
      | _ => none

/-- One step; `none` when it cannot be taken. -/
def step (codec : ControlCodec) (hash : List UInt8 → String) (cloud : Process) :
    Action → Option Process
  | .tick time => some { cloud with now := cloud.now + time }
  | .registerInstallation id account localServerId routeId publicId secretHash =>
      (cloud.db.registerInstallation id account localServerId routeId publicId secretHash).map
        fun db => { cloud with db }
  | .revoke account id =>
      if cloud.revoking.isSome then none
      else
        match cloud.db.requireInstallationOwner id account, cloud.db.installationById id with
        | .ok (), some installation =>
            some { cloud with db := cloud.db.revoke id cloud.now, revoking := some installation }
        | _, _ => none
  | .revoked =>
      match cloud.revoking with
      | some installation =>
          some { cloud with
            relays := cloud.relays.erase installation.routeId
            revoking := none }
      | none => none
  | .request route request =>
      some { cloud with
        proxies := cloud.proxies ++
          [⟨route, request, cloud.now + 30 * second, .lookup, .pending⟩] }
  | .proxy number action =>
      match cloud.proxies[number]? with
      | some proxy => cloud.stepProxy number proxy action
      | none => none
  | .connect token =>
      match cloud.db.connector hash token with
      | some installationId =>
          some { cloud with
            sessions := cloud.sessions ++
              [⟨installationId, none, .default, none, .hello token⟩] }
      | none => none
  | .session number action =>
      match cloud.sessions[number]? with
      | some session => cloud.stepSession codec number session action
      | none => none

/-- The cloud is started on some database; nothing is connected yet. -/
structure Started (cloud : Process) : Prop where
  keyed : cloud.db.Keyed
  relays : cloud.relays = ∅
  revoking : cloud.revoking = none
  sessions : cloud.sessions = []
  proxies : cloud.proxies = []

/-- The cloud under any order of steps. -/
def system (codec : ControlCodec) (hash : List UInt8 → String) : System Process Action :=
  .ofOption Started (step codec hash)

end Process

/-! ## What is observed -/

/-- The next send of the session puts this `RequestStart` on the wire. -/
def Session.startsNext (session : Session) : Option (ProxyExchange × RequestStartFrame) :=
  match session.task with
  | .executing exchange _ (.sending (.control (.requestStart frame) :: _)) =>
      if (session.protocol.observeControl (.requestStart frame)).1 = .ok () then
        some (exchange, frame)
      else none
  | _ => none

/-- The `RequestStart` an event sends, with its session and its exchange. -/
def startSent (e : Event Process Action) : Option (Session × ProxyExchange × RequestStartFrame) :=
  match e.label with
  | .session number .send =>
      (e.pre.sessions[number]?).bind fun session =>
        session.startsNext.map fun (exchange, frame) => (session, exchange, frame)
  | _ => none

/-- The request an event answers, with the answer. -/
def answered (e : Event Process Action) : Option (Nat × ProxyReply) :=
  match e.label with
  | .proxy number _ =>
      match (e.post.proxies[number]?).map Proxy.task with
      | some (.answered reply) => some (number, reply)
      | _ => none
  | _ => none

/-- The installation whose revocation returns. -/
def revokedInstallation (e : Event Process Action) : Option Uuid :=
  match e.label with
  | .revoked => e.pre.revoking.map Installation.id
  | _ => none

theorem startSent_eq_some {e : Event Process Action} {session : Session}
    {exchange : ProxyExchange} {frame : RequestStartFrame}
    (h : startSent e = some (session, exchange, frame)) :
    ∃ number, e.label = .session number .send ∧ e.pre.sessions[number]? = some session ∧
      session.startsNext = some (exchange, frame) := by
  unfold startSent at h
  split at h
  next number hlabel =>
    obtain ⟨session', hsession, hstarts⟩ := Option.bind_eq_some_iff.mp h
    obtain ⟨⟨exchange', frame'⟩, hnext, heq⟩ := Option.map_eq_some_iff.mp hstarts
    cases heq
    exact ⟨number, hlabel, hsession, hnext⟩
  next => cases h

theorem answered_eq_some {e : Event Process Action} {number : Nat} {reply : ProxyReply}
    (h : answered e = some (number, reply)) :
    ∃ proxy, e.post.proxies[number]? = some proxy ∧ proxy.task = .answered reply := by
  unfold answered at h
  split at h
  next number' _ _ =>
    split at h
    next reply' htask =>
      cases h
      obtain ⟨proxy, hproxy, htask⟩ := Option.map_eq_some_iff.mp htask
      exact ⟨proxy, hproxy, htask⟩
    next => cases h
  next => cases h

theorem revokedInstallation_eq_some {e : Event Process Action} {id : Uuid}
    (h : revokedInstallation e = some id) :
    ∃ installation, e.label = .revoked ∧ e.pre.revoking = some installation ∧
      installation.id = id := by
  unfold revokedInstallation at h
  split at h
  next hlabel =>
    obtain ⟨installation, hlock, rfl⟩ := Option.map_eq_some_iff.mp h
    exact ⟨installation, hlabel, hlock, rfl⟩
  next => cases h

/-! ### A connected installation -/

/-- The control frames of the connector in the examples. -/
def sampleFrames : List RelayControlFrame :=
  [.clientHello ⟨1, RelaySessionState.testToken⟩,
    .requestFailed ⟨0, .badGateway, "local C6 request failed"⟩]

/-- JSON, read for these frames. -/
def sampleCodec : ControlCodec :=
  jsonCodec fun text => sampleFrames.find? fun frame => frame.toJson.render = text

def sampleHash (_ : List UInt8) : String := "hash"

/-- A cloud without installations. -/
def emptyCloud : Process := ⟨0, ⟨[], []⟩, ∅, none, [], []⟩

theorem emptyCloud_started : emptyCloud.Started where
  keyed := ⟨Table.Keyed.nil _, Table.Keyed.nil _⟩
  relays := rfl
  revoking := rfl
  sessions := rfl
  proxies := rfl

/-- Installation `1` is registered by account `7` and its connector connects. -/
def connectSteps : List Action :=
  [.registerInstallation 1 7 9 "home" (List.replicate 16 0x41) "hash",
    .connect RelaySessionState.testToken.value,
    .session 0 (.hello (.text (sampleCodec.toString
      (.clientHello ⟨1, RelaySessionState.testToken⟩)))),
    .session 0 .register]

/-- `GET` for a path. -/
def getRequest (path : String) : HttpRequest := ⟨"GET", path, none, []⟩

/-- The events of the steps. -/
def eventsOf (actions : List Action) : List (Event Process Action) :=
  System.events (Process.step sampleCodec sampleHash) emptyCloud actions

end Cresix.Cloud
