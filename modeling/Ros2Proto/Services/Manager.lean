import Ros2Proto.PubSub.Tcp
import Ros2Proto.Registration.Master
import Ros2Proto.Topics.Negotiation

/-!
# Serving requests

`MultiServiceManager` of `service.hpp`, and the two servers that start one, `Master` and
`TopicManager`. A request is a message of two frames, the name of a method and what is left to the
callback bound to it. A transport is known by its place among those the server accepted. What the
callbacks read and write is a state of type `σ`, and the generated code of a service is a parameter.

Start-up listens first and then binds one method after another, while the poll thread accepts and
reads. The mutex of the manager makes each `bind`, `onAccept` and `onReceive` one step.
-/

namespace Ros2Proto

variable {σ : Type}

/-- The generated serialization of a service. -/
structure ServiceType (Request Response : Type) where
  read : List UInt8 → Except Fault Request
  write : Response → List UInt8

/-- `call` of a `ServiceCallback`: the bytes of the response to the bytes of a request. -/
abbrev ServiceCallback (σ : Type) := σ → List UInt8 → Except Fault (List UInt8 × σ)

def ServiceCallbackT {Request Response : Type} (M : ServiceType Request Response)
    (cb : σ → Request → Except Fault (Response × σ)) : ServiceCallback σ := fun s bytes => do
  let request ← M.read bytes
  let (response, s) ← cb s request
  .ok (M.write response, s)

/-- The methods a server binds when it starts, in order. No method is bound twice. -/
structure StartUp (σ : Type) where
  bindings : List (StdString × ServiceCallback σ)
  distinct : (bindings.map Prod.fst).Nodup

/-! ### The two servers -/

/-- A request with its `topic` and `node_uri`. -/
structure NodeRequest where
  topic : StdString
  nodeUri : StdString
  deriving DecidableEq, Repr

/-- `Master::start`. The response to `registerPublication` has a list that nothing fills. -/
def Master.start (registerSubscriptionType : ServiceType NodeRequest (List StdString))
    (unregisterSubscriptionType : ServiceType NodeRequest Unit)
    (registerPublicationType : ServiceType NodeRequest (List StdString))
    (unregisterPublicationType : ServiceType NodeRequest Unit) : StartUp Master where
  bindings := [
    (literal "registerSubscription", ServiceCallbackT registerSubscriptionType
      fun m req => m.registerSubscription req.topic req.nodeUri),
    (literal "unregisterSubscription", ServiceCallbackT unregisterSubscriptionType
      fun m req => .ok ((), m.unregisterSubscription req.topic req.nodeUri)),
    (literal "registerPublication", ServiceCallbackT registerPublicationType
      fun m req => .ok ([], m.registerPublication req.topic req.nodeUri)),
    (literal "unregisterPublication", ServiceCallbackT unregisterPublicationType
      fun m req => .ok ((), m.unregisterPublication req.topic req.nodeUri))]
  distinct := by
    show [literal "registerSubscription", literal "unregisterSubscription",
      literal "registerPublication", literal "unregisterPublication"].Nodup
    decide

/-- `TopicManager::init`. A `SetRemappings` request is its `find` and its `replace`. -/
def TopicManager.init {C M : Type} (protos : Publication → List PublishTransport)
    (topicRequestType : ServiceType StdString (List StdString))
    (setRemappingsType : ServiceType (List StdString × List StdString) Unit) :
    StartUp (TopicManager C M) where
  bindings := [
    (literal "requestTopic", ServiceCallbackT topicRequestType
      fun t topic => .ok (t.publicationURIs protos topic, t)),
    (literal "setRemappings", ServiceCallbackT setRemappingsType fun t req => do
      let t ← t.setRemappings req.1 req.2
      .ok ((), t))]
  distinct := by
    show [literal "requestTopic", literal "setRemappings"].Nodup
    decide

/-! ### The manager -/

structure MultiServiceManager (σ : Type) where
  listening : Bool
  /-- the places of the transports in `connections_` -/
  connections : List Nat
  cbs : StdMap (ServiceCallback σ)

namespace MultiServiceManager

def empty : MultiServiceManager σ := ⟨false, [], ∅⟩

def init (m : MultiServiceManager σ) : MultiServiceManager σ := { m with listening := true }

def bind (m : MultiServiceManager σ) (method : StdString) (cb : ServiceCallback σ) :
    MultiServiceManager σ :=
  { m with cbs := m.cbs.insert method cb }

/-- `onAccept` of the transport at place `i`. -/
def onAccept (m : MultiServiceManager σ) (i : Nat) (tcp : TransportTCP) :
    Except Fault (TransportTCP × MultiServiceManager σ) := do
  let tcp ← tcp.enableMessagePass.enableRead
  .ok (tcp.setMsgCallback.setDisconnectCallback, { m with connections := m.connections ++ [i] })

/-- A method that is not bound gets a warning and no response. -/
def onReceive (m : MultiServiceManager σ) (s : σ) (tcp : TransportTCP) (frames : List Frame) :
    Except Fault (TransportTCP × σ) :=
  match frames with
  | [method, req] =>
    match m.cbs[method.payload]? with
    | some cb => do
      let (resp, s) ← cb s req.payload
      let tcp ← tcp.sendMessage resp (UInt32.ofNat resp.length)
      .ok (tcp, s)
    | none => .ok (tcp, s)
  | _ => .error .rosBreak

def onDisconnect (m : MultiServiceManager σ) (i : Nat) : MultiServiceManager σ :=
  { m with connections := m.connections.erase i }

end MultiServiceManager

/-! ### A server while it starts -/

/-- A transport the server accepted, with the responses that have left its queue. -/
structure Peer where
  tcp : TransportTCP
  written : List (List Frame)

/-- The responses queued so far. -/
def Peer.queued (p : Peer) : List (List Frame) := p.written ++ p.tcp.sendMsgs.map Message.frames

/-- A request that was handed to `onReceive`. -/
structure Arrival where
  connection : Nat
  method : StdString
  body : List UInt8
  deriving DecidableEq, Repr

/-- A step of start-up. -/
inductive StartStep (σ : Type)
  | init
  | bind (method : StdString) (cb : ServiceCallback σ)

def StartUp.steps (u : StartUp σ) : List (StartStep σ) :=
  .init :: u.bindings.map fun binding => .bind binding.1 binding.2

structure Server (σ : Type) where
  manager : MultiServiceManager σ
  peers : List Peer
  state : σ
  /-- what is left of start-up -/
  startUp : List (StartStep σ)
  arrived : List Arrival

/-- What happens to a server that starts with `u`. -/
inductive ServerEvent (u : StartUp σ)
  /-- the next step of start-up -/
  | start
  | accept (e : Endpoint)
  /-- a request for one of the methods arrives on a connection -/
  | request (i : Nat) (method req : Frame) (known : method.payload ∈ u.bindings.map Prod.fst)
  /-- the front response of a connection has been written -/
  | written (i : Nat)
  | disconnect (i : Nat)

namespace Server

variable {u : StartUp σ}

def starting (u : StartUp σ) (state : σ) : Server σ := ⟨.empty, [], state, u.steps, []⟩

def onStart (s : Server σ) : Server σ :=
  match s.startUp with
  | [] => s
  | .init :: rest => { s with manager := s.manager.init, startUp := rest }
  | .bind method cb :: rest => { s with manager := s.manager.bind method cb, startUp := rest }

def onRequest (s : Server σ) (i : Nat) (method req : Frame) : Except Fault (Server σ) :=
  match s.peers[i]? with
  | none => .ok s
  | some peer =>
    if peer.tcp.closed then .ok s
    else do
      let (tcp, state) ← s.manager.onReceive s.state peer.tcp [method, req]
      .ok { s with
        peers := s.peers.set i { peer with tcp := tcp }
        state := state
        arrived := s.arrived ++ [⟨i, method.payload, req.payload⟩] }

def onWritten (s : Server σ) (i : Nat) : Except Fault (Server σ) :=
  match s.peers[i]? with
  | none => .ok s
  | some peer =>
    if peer.tcp.closed then .ok s
    else do
      let (frames, tcp) ← peer.tcp.takeMessage
      .ok { s with peers := s.peers.set i ⟨tcp, peer.written ++ frames.toList⟩ }

def onDisconnect (s : Server σ) (i : Nat) : Except Fault (Server σ) :=
  match s.peers[i]? with
  | none => .ok s
  | some peer =>
    if peer.tcp.closed then .ok s
    else do
      let tcp ← peer.tcp.close
      .ok { s with
        peers := s.peers.set i { peer with tcp := tcp }
        manager := s.manager.onDisconnect i }

/-- Connections are accepted once the server listens. -/
def onEvent (s : Server σ) : ServerEvent u → Except Fault (Server σ)
  | .start => .ok s.onStart
  | .accept e =>
    if s.manager.listening then do
      let (tcp, manager) ← s.manager.onAccept s.peers.length e.transport
      .ok { s with manager := manager, peers := s.peers ++ [⟨tcp, []⟩] }
    else .ok s
  | .request i method req _ => s.onRequest i method req
  | .written i => s.onWritten i
  | .disconnect i => s.onDisconnect i

end Server

end Ros2Proto
