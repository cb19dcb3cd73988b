import Ros2Proto.Transport.Wire

/-!
# Publishing over TCP

`TCPPublish` and `TCPSubscribe` of `pubsub_tcp.hpp`. A connection of the publisher is known by its
place in `connections_`, which no disconnect changes here. The calls of `cb_` are recorded in `handed`.

Between a connection and its subscriber whole messages travel, in the order in which they were queued:
a step takes the front message of one transport to the owner of the other. What `TCPOptions` look like
on the wire is generated code, and compression is snappy's. Both are parameters, with what their
documentation promises. A buffer that is larger than what it is filled with stands for its filled part,
as no more of it is sent.
-/

namespace Ros2Proto

/-- A `ros2::Message`, whose size is a `uint32_t`. -/
structure OutMessage where
  bytes : List UInt8
  bounded : bytes.length < 2 ^ 32

def OutMessage.size (msg : OutMessage) : UInt32 := UInt32.ofNat msg.bytes.length

structure TCPOptions where
  tcpNodelay : Bool
  compression : UInt8
  filter : UInt32
  deriving DecidableEq, Repr

namespace TCPOptions

def NONE : UInt8 := 0
def SNAPPY : UInt8 := 1

end TCPOptions

/-- What the code uses of snappy. `rawCompress` needs a buffer of `maxCompressedLength` bytes. -/
structure Snappy where
  maxCompressedLength : Nat → Nat
  rawCompress : List UInt8 → List UInt8
  getUncompressedLength : List UInt8 → Option Nat
  rawUncompress : List UInt8 → Option (List UInt8)
  length_rawCompress : ∀ data, (rawCompress data).length ≤ maxCompressedLength data.length
  rawUncompress_rawCompress : ∀ data, data.length < 2 ^ 32 →
    rawUncompress (rawCompress data) = some data
  getUncompressedLength_of_rawUncompress : ∀ compressed data,
    rawUncompress compressed = some data → getUncompressedLength compressed = some data.length

/-- The generated serialization of `TCPOptions`. -/
structure OptionsSerializer where
  write : TCPOptions → List UInt8
  read : List UInt8 → Except Fault TCPOptions
  length_write : ∀ opts, (write opts).length < 2 ^ 32
  read_write : ∀ opts, read (write opts) = .ok opts

/-- The conversion of a `uint32_t` to `int`. -/
def intOfU32 (x : UInt32) : Int := (x.toNat : Int).bmod (2 ^ 32)

/-- The front message of the queue, all of it sent. -/
def TransportTCP.takeMessage (t : TransportTCP) : Except Fault (Option (List Frame) × TransportTCP) :=
  match t.sendMsgs with
  | [] => .ok (none, t)
  | msg :: rest => do
    let t := { t with sendMsgs := rest }
    let t ← if rest.length = 0 then t.disableWrite else .ok t
    .ok (some msg.frames, t)

/-! ### The publisher -/

structure Connection where
  tcp : TransportTCP
  setup : Bool
  opts : TCPOptions

structure TCPPublish where
  connections : List Connection

namespace TCPPublish

/-- `publish` on one connection. `snappyData` is the compressed message, once there is one. -/
def publishOn (snappy : Snappy) (msg : OutMessage) (snappyData : Option (List UInt8))
    (conn : Connection) : Except Fault (Option (List UInt8) × Connection) :=
  if conn.setup then
    if conn.opts.compression = TCPOptions.NONE then do
      let tcp ← conn.tcp.sendMessage msg.bytes msg.size
      .ok (snappyData, { conn with tcp := tcp })
    else if conn.opts.compression = TCPOptions.SNAPPY then do
      let data ← match snappyData with
        | some data => .ok data
        | none =>
          -- The size of the buffer is a `uint32_t`.
          let maxSnappySz := UInt32.ofNat (snappy.maxCompressedLength msg.bytes.length)
          if maxSnappySz.toNat < snappy.maxCompressedLength msg.bytes.length then .error .overrun
          else .ok (snappy.rawCompress msg.bytes)
      let tcp ← conn.tcp.sendMessage data (UInt32.ofNat data.length)
      .ok (some data, { conn with tcp := tcp })
    else .error .rosBreak
  else .ok (snappyData, conn)

def publishEach (snappy : Snappy) (msg : OutMessage) :
    Option (List UInt8) → List Connection → Except Fault (List Connection)
  | _, [] => .ok []
  | snappyData, conn :: rest => do
    let (snappyData, conn) ← publishOn snappy msg snappyData conn
    let rest ← publishEach snappy msg snappyData rest
    .ok (conn :: rest)

def publish (p : TCPPublish) (snappy : Snappy) (msg : OutMessage) : Except Fault TCPPublish := do
  let connections ← publishEach snappy msg none p.connections
  .ok ⟨connections⟩

def onAccept (p : TCPPublish) (tcp : TransportTCP) : Except Fault TCPPublish := do
  let tcp ← tcp.enableMessagePass.setDisconnectCallback.enableRead
  .ok ⟨p.connections ++ [⟨tcp.setMsgCallback, false, ⟨false, 0, 0⟩⟩]⟩

/-- `onOptions` of the connection at place `i`. -/
def onOptions (p : TCPPublish) (serializer : OptionsSerializer) (i : Nat) (frames : List Frame) :
    Except Fault TCPPublish :=
  match frames with
  | [frame] =>
    match p.connections[i]? with
    | none => .ok p
    | some conn => do
      let tcp ← conn.tcp.disableRead
      if conn.setup then .error .rosBreak
      else do
        let opts ← serializer.read frame.payload
        let tcp ← tcp.setFilter (intOfU32 opts.filter)
        .ok ⟨p.connections.set i ⟨tcp, true, opts⟩⟩
  | _ => .error .rosBreak

end TCPPublish

/-! ### The subscriber -/

structure TCPSubscribe where
  tcp : TransportTCP
  opts : TCPOptions
  handed : List (List UInt8)

namespace TCPSubscribe

/-- `start`, with the transport that `connect` leaves. -/
def start (opts : TCPOptions) (serializer : OptionsSerializer) (tcp : TransportTCP) :
    Except Fault TCPSubscribe := do
  let tcp ← tcp.setDisconnectCallback.enableMessagePass.enableRead
  let optsBytes := serializer.write opts
  let tcp ← tcp.setMsgCallback.sendMessage optsBytes (UInt32.ofNat optsBytes.length)
  .ok ⟨tcp, opts, []⟩

def receive (sub : TCPSubscribe) (snappy : Snappy) (frames : List Frame) :
    Except Fault TCPSubscribe :=
  match frames with
  | [frame] =>
    if sub.opts.compression = TCPOptions.NONE then
      if frame.data.length < frame.size.toNat then .error .overrun
      else .ok { sub with handed := sub.handed ++ [frame.payload] }
    else if sub.opts.compression = TCPOptions.SNAPPY then
      match snappy.getUncompressedLength frame.payload with
      | none => .ok sub
      | some uncompressedSz =>
        match snappy.rawUncompress frame.payload with
        | none => .ok sub
        | some data =>
          -- `Message(uint32_t)` is given a `size_t`.
          if (UInt32.ofNat uncompressedSz).toNat < uncompressedSz then .error .overrun
          else .ok { sub with handed := sub.handed ++ [data] }
    else .error .rosBreak
  | _ => .error .rosBreak

end TCPSubscribe

/-! ### Both -/

/-- Options that both ends know, with a filter that is a positive `int`. -/
structure ValidOptions where
  opts : TCPOptions
  compression : opts.compression = TCPOptions.NONE ∨ opts.compression = TCPOptions.SNAPPY
  filter_pos : 0 < opts.filter.toNat
  filter_le : opts.filter.toNat ≤ intMax

/-- A publisher and its subscribers, in the order of its connections. -/
structure PubSub where
  publisher : TCPPublish
  subscribers : List TCPSubscribe

inductive PubSubEvent
  | connect (o : ValidOptions) (accepted connecting : Endpoint)
  /-- the options of a subscriber reach the publisher -/
  | options (i : Nat)
  | publish (msg : OutMessage)
  /-- a message reaches a subscriber -/
  | message (i : Nat)

namespace PubSub

def empty : PubSub := ⟨⟨[]⟩, []⟩

def onEvent (snappy : Snappy) (serializer : OptionsSerializer) (s : PubSub) :
    PubSubEvent → Except Fault PubSub
  | .connect o accepted connecting => do
    let publisher ← s.publisher.onAccept accepted.transport
    let sub ← TCPSubscribe.start o.opts serializer connecting.transport
    .ok ⟨publisher, s.subscribers ++ [sub]⟩
  | .options i =>
    match s.subscribers[i]? with
    | none => .ok s
    | some sub => do
      let (frames, tcp) ← sub.tcp.takeMessage
      let publisher ← match frames with
        | none => .ok s.publisher
        | some frames => s.publisher.onOptions serializer i frames
      .ok ⟨publisher, s.subscribers.set i { sub with tcp := tcp }⟩
  | .publish msg => do
    let publisher ← s.publisher.publish snappy msg
    .ok { s with publisher := publisher }
  | .message i =>
    match s.publisher.connections[i]?, s.subscribers[i]? with
    | some conn, some sub => do
      let (frames, tcp) ← conn.tcp.takeMessage
      let sub ← match frames with
        | none => .ok sub
        | some frames => sub.receive snappy frames
      .ok ⟨⟨s.publisher.connections.set i { conn with tcp := tcp }⟩, s.subscribers.set i sub⟩
    | _, _ => .ok s

end PubSub

end Ros2Proto
