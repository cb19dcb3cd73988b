import Ros2Proto.PubSub.Delivery
import Ros2Proto.Transport.Duplex

/-!
# Publishing over bytes

A publisher and its subscribers with the bytes between them. The transports write and read as their
sockets allow, and a message is handed to its owner by the read that completes it. No connection is lost
here.

What the owners are handed is what whole messages bring in `PubSub`: each run of the bytes has a run of
`PubSub` with the same calls, which ends with the same connections, options and messages handed over. A
message that has left the queue of its transport but has not been handed over is still queued there.
-/

namespace Ros2Proto

open FallibleRun

/-- The bytes in flight on a connection, to the publisher and to the subscriber. -/
structure Wires where
  up : List UInt8
  down : List UInt8

/-- A publisher and its subscribers, what is in flight on the connections, and the events of `PubSub`
that have taken place. -/
structure Wired where
  ends : PubSub
  wires : Nat → Wires
  trace : List PubSubEvent

inductive WiredEvent
  | connect (o : ValidOptions) (accepted connecting : Endpoint)
  | publish (msg : OutMessage)
  /-- the transport of a connection can be written -/
  | writable (i : Nat) (a : Accept)
  /-- the transport of a connection can be read -/
  | readable (i : Nat) (a : Accept)
  /-- the transport of a subscriber can be written -/
  | subscriberWritable (i : Nat) (a : Accept)
  /-- the transport of a subscriber can be read -/
  | subscriberReadable (i : Nat) (a : Accept)

/-- The call an event is, if it is one. -/
def WiredEvent.call : WiredEvent → Option PubSubEvent
  | .connect o accepted connecting => some (.connect o accepted connecting)
  | .publish msg => some (.publish msg)
  | _ => none

def PubSubEvent.isCall : PubSubEvent → Bool
  | connect _ _ _ => true
  | publish _ => true
  | _ => false

/-- The message that a read has handed over, if it completed one. -/
def TransportTCP.handedOver (t t' : TransportTCP) : Option (List Frame) :=
  (t'.delivered.drop t.delivered.length).head?

namespace Wired

def empty : Wired := ⟨.empty, fun _ => ⟨[], []⟩, []⟩

/-- The transports of connection `i` and of its subscriber, and what is in flight between them. -/
def set (s : Wired) (i : Nat) (conn : Connection) (sub : TCPSubscribe) (w : Wires) : Wired :=
  { s with
    ends := ⟨⟨s.ends.publisher.connections.set i conn⟩, s.ends.subscribers.set i sub⟩
    wires := Function.update s.wires i w }

@[simp] theorem set_wires (s : Wired) (i : Nat) (conn : Connection) (sub : TCPSubscribe) (w : Wires) :
    (s.set i conn sub w).wires i = w := Function.update_self ..

/-- A connection writes. -/
def onWritable (s : Wired) (i : Nat) (a : Accept) : Except Fault Wired :=
  match s.ends.publisher.connections[i]?, s.ends.subscribers[i]? with
  | some conn, some sub => do
    let tcp ← conn.tcp.onSend (.writable a)
    .ok (s.set i { conn with tcp := tcp } sub { s.wires i with
      down := (s.wires i).down ++ tcp.sent.drop conn.tcp.sent.length })
  | _, _ => .ok s

/-- A subscriber writes. -/
def onSubscriberWritable (s : Wired) (i : Nat) (a : Accept) : Except Fault Wired :=
  match s.ends.publisher.connections[i]?, s.ends.subscribers[i]? with
  | some conn, some sub => do
    let tcp ← sub.tcp.onSend (.writable a)
    .ok (s.set i conn { sub with tcp := tcp } { s.wires i with
      up := (s.wires i).up ++ tcp.sent.drop sub.tcp.sent.length })
  | _, _ => .ok s

/-- A connection reads, and what it completes goes to `onOptions`. -/
def onReadable (serializer : OptionsSerializer) (s : Wired) (i : Nat) (a : Accept) :
    Except Fault Wired :=
  match s.ends.publisher.connections[i]?, s.ends.subscribers[i]? with
  | some conn, some sub => do
    let tcp ← conn.tcp.onReadable (Channel.chunk (s.wires i).up a)
    let s := s.set i { conn with tcp := tcp } sub { s.wires i with
      up := (s.wires i).up.drop (tcp.received.length - conn.tcp.received.length) }
    match conn.tcp.handedOver tcp with
    | none => .ok s
    | some frames => do
      let publisher ← s.ends.publisher.onOptions serializer i frames
      .ok { s with ends := ⟨publisher, s.ends.subscribers⟩, trace := s.trace ++ [.options i] }
  | _, _ => .ok s

/-- A subscriber reads, and what it completes goes to `receive`. -/
def onSubscriberReadable (snappy : Snappy) (s : Wired) (i : Nat) (a : Accept) : Except Fault Wired :=
  match s.ends.publisher.connections[i]?, s.ends.subscribers[i]? with
  | some conn, some sub => do
    let tcp ← sub.tcp.onReadable (Channel.chunk (s.wires i).down a)
    let wires := { s.wires i with
      down := (s.wires i).down.drop (tcp.received.length - sub.tcp.received.length) }
    match sub.tcp.handedOver tcp with
    | none => .ok (s.set i conn { sub with tcp := tcp } wires)
    | some frames => do
      let sub ← TCPSubscribe.receive { sub with tcp := tcp } snappy frames
      .ok { s.set i conn sub wires with trace := s.trace ++ [.message i] }
  | _, _ => .ok s

def onEvent (snappy : Snappy) (serializer : OptionsSerializer) (s : Wired) :
    WiredEvent → Except Fault Wired
  | .connect o accepted connecting => do
    let ends ← s.ends.onEvent snappy serializer (.connect o accepted connecting)
    .ok {
      ends := ends
      wires := Function.update s.wires s.ends.subscribers.length ⟨[], []⟩
      trace := s.trace ++ [.connect o accepted connecting] }
  | .publish msg => do
    let ends ← s.ends.onEvent snappy serializer (.publish msg)
    .ok { s with ends := ends, trace := s.trace ++ [.publish msg] }
  | .writable i a => s.onWritable i a
  | .readable i a => s.onReadable serializer i a
  | .subscriberWritable i a => s.onSubscriberWritable i a
  | .subscriberReadable i a => s.onSubscriberReadable snappy i a

/-- No write cuts the size of an empty frame and no read leaves part of a size that is zero so far, and
a message that is compressed fits its buffer. -/
def Admits (snappy : Snappy) (s : Wired) : WiredEvent → Prop
  | .connect _ _ _ => True
  | .publish msg => PubSub.FitsBuffer snappy s.ends (.publish msg)
  | .writable i a => ∀ conn ∈ s.ends.publisher.connections[i]?,
      ¬ conn.tcp.CutsEmptySize (.writable a)
  | .readable i a => ∀ conn ∈ s.ends.publisher.connections[i]?,
      ¬ conn.tcp.CutsZeroSize (Channel.chunk (s.wires i).up a)
  | .subscriberWritable i a => ∀ sub ∈ s.ends.subscribers[i]?,
      ¬ sub.tcp.CutsEmptySize (.writable a)
  | .subscriberReadable i a => ∀ sub ∈ s.ends.subscribers[i]?,
      ¬ sub.tcp.CutsZeroSize (Channel.chunk (s.wires i).down a)

instance (t : TransportTCP) : (e : TransportTCP.SendEvent) → Decidable (t.CutsEmptySize e)
  | .sendFrames _ => inferInstanceAs (Decidable False)
  | .writable _ => inferInstanceAs (Decidable (∃ m ∈ t.sendMsgs.head?, _))

instance (t : TransportTCP) (c : Chunk) : Decidable (t.CutsZeroSize c) :=
  inferInstanceAs (Decidable (_ = _ ∧ _ = _ ∧ _ = _ ∧ _ < _ ∧ _ < _ ∧
    ∃ frame ∈ t.readMsg.frames[t.readMsg.frameInd.toNat]?, ∀ b ∈ _, b = 0))

instance (snappy : Snappy) (s : Wired) : (e : WiredEvent) → Decidable (s.Admits snappy e)
  | .connect _ _ _ => inferInstanceAs (Decidable True)
  | .publish _ => inferInstanceAs (Decidable (∀ conn ∈ s.ends.publisher.connections,
      _ → _ → snappy.maxCompressedLength _ < _))
  | .writable _ _ => inferInstanceAs (Decidable (∀ _ ∈ _, ¬ _))
  | .readable _ _ => inferInstanceAs (Decidable (∀ _ ∈ _, ¬ _))
  | .subscriberWritable _ _ => inferInstanceAs (Decidable (∀ _ ∈ _, ¬ _))
  | .subscriberReadable _ _ => inferInstanceAs (Decidable (∀ _ ∈ _, ¬ _))

end Wired

/-! ### One connection -/

/-- A direction carries what a queue of whole messages holds. -/
def Carrying (queue : List Message) (sender : TransportTCP) (wire : List UInt8)
    (receiver : TransportTCP) : Prop :=
  ∃ owed, queue.map Message.frames = owed.map (List.map Frame.ofBytes) ∧
    Conveys sender wire receiver owed

/-- A connection and its subscriber, against the two between which messages travel whole. -/
structure Matches (w : Wires) (conn : Connection) (sub : TCPSubscribe) (conn' : Connection)
    (sub' : TCPSubscribe) : Prop where
  setup : conn.setup = conn'.setup
  opts : conn.opts = conn'.opts
  subOpts : sub.opts = sub'.opts
  handed : sub.handed = sub'.handed
  filter : conn.tcp.filter = conn'.tcp.filter
  msgCounter : conn.tcp.msgCounter = conn'.tcp.msgCounter
  waiting : conn.setup = false → Carrying sub'.tcp.sendMsgs sub.tcp w.up conn.tcp
  ready : conn.setup = true →
    conn.tcp.expectingRead = false ∧ sub.tcp.sendMsgs = [] ∧ sub.tcp.Transmits
  down : Carrying conn'.tcp.sendMsgs conn.tcp w.down sub.tcp

namespace TransportTCP

variable {t t' : TransportTCP}

theorem handedOver_same (h : t'.delivered = t.delivered) : t.handedOver t' = none := by
  rw [handedOver, h, List.drop_length]
  rfl

theorem handedOver_next {frames : List Frame} (h : t'.delivered = t.delivered ++ [frames]) :
    t.handedOver t' = some frames := by
  rw [handedOver, h, List.drop_left]
  rfl

end TransportTCP

theorem Carrying.congr {queue : List Message} {sender sender' receiver receiver' : TransportTCP}
    {wire : List UInt8} (h : Carrying queue sender wire receiver) (hwriter : sender.SameWriter sender')
    (hfilter : sender'.filter ≠ 0) (hreader : receiver.SameReader receiver') :
    Carrying queue sender' wire receiver' := by
  obtain ⟨owed, hqueue, hconveys⟩ := h
  exact ⟨owed, hqueue, hconveys.congr hwriter hfilter hreader⟩

namespace Matches

variable {snappy : Snappy} {serializer : OptionsSerializer} {w : Wires} {conn conn' : Connection}
  {sub sub' : TCPSubscribe} {a : Accept}

theorem writable (h : Matches w conn sub conn' sub')
    (hcut : ¬ conn.tcp.CutsEmptySize (.writable a)) :
    ∃ tcp, conn.tcp.onSend (.writable a) = .ok tcp ∧
      Matches { w with down := w.down ++ tcp.sent.drop conn.tcp.sent.length } { conn with tcp := tcp }
        sub conn' sub' := by
  obtain ⟨owed, hqueue, hconveys⟩ := h.down
  obtain ⟨tcp, hrun, honly, hconveys'⟩ := hconveys.write hcut
  have hsame := honly.sameReader
  refine ⟨tcp, hrun, h.setup, h.opts, h.subOpts, h.handed, ?_, ?_, fun hsetup => ?_,
    fun hsetup => ?_, owed, hqueue, hconveys'⟩
  · have hfilter : tcp.filter = conn.tcp.filter := by rw [honly]
    exact hfilter.trans h.filter
  · have hcounter : tcp.msgCounter = conn.tcp.msgCounter := by rw [honly]
    exact hcounter.trans h.msgCounter
  · obtain ⟨owed', hqueue', hup⟩ := h.waiting hsetup
    exact ⟨owed', hqueue', hup.congr (.refl _) hup.transmits.filter hsame⟩
  · obtain ⟨hread, hempty, htransmits⟩ := h.ready hsetup
    exact ⟨hsame.expectingRead.trans hread, hempty, htransmits⟩

theorem subscriberWritable (h : Matches w conn sub conn' sub')
    (hcut : ¬ sub.tcp.CutsEmptySize (.writable a)) :
    ∃ tcp, sub.tcp.onSend (.writable a) = .ok tcp ∧
      Matches { w with up := w.up ++ tcp.sent.drop sub.tcp.sent.length } conn { sub with tcp := tcp }
        conn' sub' := by
  obtain ⟨owed, hqueue, hdown⟩ := h.down
  cases hsetup : conn.setup with
  | false =>
      obtain ⟨owed', hqueue', hup⟩ := h.waiting hsetup
      obtain ⟨tcp, hrun, honly, hup'⟩ := hup.write hcut
      have hdown' := hdown.congr (.refl _) hdown.transmits.filter honly.sameReader
      exact ⟨tcp, hrun, h.setup, h.opts, h.subOpts, h.handed, h.filter, h.msgCounter,
        fun _ => ⟨owed', hqueue', hup'⟩, fun hready => absurd (hsetup.symm.trans hready) nofun,
        owed, hqueue, hdown'⟩
  | true =>
      obtain ⟨hread, hempty, htransmits⟩ := h.ready hsetup
      refine ⟨sub.tcp, htransmits.idle hempty a, h.setup, h.opts, h.subOpts, h.handed, h.filter,
        h.msgCounter, fun hwaiting => absurd (hsetup.symm.trans hwaiting) nofun, fun _ => ?_,
        owed, hqueue, hdown⟩
      exact ⟨hread, hempty, htransmits⟩

theorem transmits (h : Matches w conn sub conn' sub') : sub.tcp.Transmits := by
  cases hsetup : conn.setup with
  | false =>
      obtain ⟨owed, -, hup⟩ := h.waiting hsetup
      exact hup.transmits
  | true => exact (h.ready hsetup).2.2

/-- A connection whose options have arrived reads no more. -/
theorem readable_ready (h : Matches w conn sub conn' sub') (hsetup : conn.setup = true) (c : Chunk) :
    conn.tcp.onReadable c = .ok conn.tcp := by
  obtain ⟨hread, -, -⟩ := h.ready hsetup
  obtain ⟨owed, -, hdown⟩ := h.down
  exact TransportTCP.onReadable_quiet hdown.transmits.opened hread c

/-- A connection that waits for its options reads. -/
theorem readable_waiting (h : Matches w conn sub conn' sub') (hsetup : conn.setup = false)
    (hcut : ¬ conn.tcp.CutsZeroSize (Channel.chunk w.up a)) :
    ∃ tcp, conn.tcp.onReadable (Channel.chunk w.up a) = .ok tcp ∧ conn.tcp.SameWriter tcp ∧
      tcp.filter = conn.tcp.filter ∧ tcp.msgCounter = conn.tcp.msgCounter ∧
      ((tcp.delivered = conn.tcp.delivered ∧
          Matches { w with up := w.up.drop (tcp.received.length - conn.tcp.received.length) }
            { conn with tcp := tcp } sub conn' sub') ∨
        ∃ frames rest, tcp.delivered = conn.tcp.delivered ++ [frames] ∧
          sub'.tcp.sendMsgs.map Message.frames = frames :: rest ∧
          (rest = [] → sub.tcp.sendMsgs = [])) := by
  obtain ⟨owed, hqueue, hdown⟩ := h.down
  obtain ⟨owed', hqueue', hup⟩ := h.waiting hsetup
  obtain ⟨tcp, hrun, honly, done, rest, hdone, rfl, hdelivered, hup'⟩ := hup.read hcut
  have hfilter : tcp.filter = conn.tcp.filter := by rw [honly]
  have hcounter : tcp.msgCounter = conn.tcp.msgCounter := by rw [honly]
  refine ⟨tcp, hrun, honly.sameWriter, hfilter, hcounter, ?_⟩
  match done, hdone with
  | [], _ =>
      have hdown' := hdown.congr honly.sameWriter (hfilter ▸ hdown.transmits.filter) (.refl _)
      refine .inl ⟨by simpa using hdelivered, h.setup, h.opts, h.subOpts, h.handed,
        hfilter.trans h.filter, hcounter.trans h.msgCounter, fun _ => ⟨rest, hqueue', hup'⟩,
        fun hready => absurd (hsetup.symm.trans hready) nofun, owed, hqueue, hdown'⟩
  | [m], _ =>
      refine .inr ⟨m.map Frame.ofBytes, rest.map (List.map Frame.ofBytes), hdelivered, hqueue',
        fun hnone => ?_⟩
      obtain rfl := List.map_eq_nil_iff.mp hnone
      exact hup'.sent_all

/-- A subscriber reads. -/
theorem subscriberReadable (h : Matches w conn sub conn' sub')
    (hcut : ¬ sub.tcp.CutsZeroSize (Channel.chunk w.down a)) :
    ∃ tcp, sub.tcp.onReadable (Channel.chunk w.down a) = .ok tcp ∧
      ((tcp.delivered = sub.tcp.delivered ∧
          Matches { w with down := w.down.drop (tcp.received.length - sub.tcp.received.length) }
            conn { sub with tcp := tcp } conn' sub') ∨
        ∃ frames, tcp.delivered = sub.tcp.delivered ++ [frames] ∧
          ∃ m rest, conn'.tcp.sendMsgs = m :: rest ∧ m.frames = frames ∧
            ∀ tcp' handed, tcp'.sendMsgs = rest → tcp'.filter = conn'.tcp.filter →
              tcp'.msgCounter = conn'.tcp.msgCounter →
              Matches { w with down := w.down.drop (tcp.received.length - sub.tcp.received.length) }
                conn { sub with tcp := tcp, handed := handed } { conn' with tcp := tcp' }
                { sub' with handed := handed }) := by
  obtain ⟨owed, hqueue, hdown⟩ := h.down
  obtain ⟨tcp, hrun, honly, done, rest, hdone, rfl, hdelivered, hdown'⟩ := hdown.read hcut
  have hsame := honly.sameWriter
  have hfilter : tcp.filter = sub.tcp.filter := by rw [honly]
  have hwaiting : conn.setup = false → Carrying sub'.tcp.sendMsgs tcp w.up conn.tcp := by
    intro hsetup
    obtain ⟨owed', hqueue', hup⟩ := h.waiting hsetup
    exact ⟨owed', hqueue', hup.congr hsame (hfilter ▸ hup.transmits.filter) (.refl _)⟩
  have hready : conn.setup = true →
      conn.tcp.expectingRead = false ∧ tcp.sendMsgs = [] ∧ tcp.Transmits := by
    intro hsetup
    obtain ⟨hread, hempty, htransmits⟩ := h.ready hsetup
    exact ⟨hread, hsame.sendMsgs.trans hempty, htransmits.congr hsame (hfilter ▸ htransmits.filter)⟩
  refine ⟨tcp, hrun, ?_⟩
  match done, hdone with
  | [], _ =>
      exact .inl ⟨by simpa using hdelivered, h.setup, h.opts, h.subOpts, h.handed, h.filter,
        h.msgCounter, hwaiting, hready, rest, hqueue, hdown'⟩
  | [m], _ =>
      obtain ⟨front, behind, hsplit, hfront, hbehind⟩ := List.map_eq_cons_iff.mp hqueue
      refine .inr ⟨m.map Frame.ofBytes, hdelivered, front, behind, hsplit, hfront, ?_⟩
      intro tcp' handed hrest hfilter' hcounter'
      exact ⟨h.setup, h.opts, h.subOpts, rfl, h.filter.trans hfilter'.symm,
        h.msgCounter.trans hcounter'.symm, hwaiting, hready, rest, hrest ▸ hbehind, hdown'⟩

/-- The options have been read: both connections are set up with them. -/
theorem readOptions (h : Matches w conn sub conn' sub') {tcp tcp' : TransportTCP} {f : Int}
    (hf : 0 < f) (hwriter : conn.tcp.SameWriter tcp) (hread : tcp.expectingRead = false)
    (hfilter : tcp.filter = f) (hcounter : tcp.msgCounter = f - 1)
    (hqueue' : tcp'.sendMsgs = conn'.tcp.sendMsgs) (hfilter' : tcp'.filter = f)
    (hcounter' : tcp'.msgCounter = f - 1)
    (hempty : sub.tcp.sendMsgs = []) (htransmits : sub.tcp.Transmits) (opts : TCPOptions)
    (taken : TransportTCP) (up : List UInt8) :
    Matches { w with up := up } ⟨tcp, true, opts⟩ sub ⟨tcp', true, opts⟩
      { sub' with tcp := taken } := by
  have hdown : Carrying conn'.tcp.sendMsgs tcp w.down sub.tcp := by
    obtain ⟨owed, hqueue, hdown⟩ := h.down
    exact ⟨owed, hqueue, hdown.congr hwriter (hfilter ▸ hf.ne') (.refl _)⟩
  exact ⟨rfl, rfl, h.subOpts, h.handed, hfilter.trans hfilter'.symm, hcounter.trans hcounter'.symm,
    nofun, fun _ => ⟨hread, hempty, htransmits⟩, hqueue' ▸ hdown⟩

/-- `onOptions` does the same on both publishers. -/
theorem onOptions (h : Matches w conn sub conn' sub') {o : ValidOptions}
    (hwaiting : Waiting serializer o conn' sub') {tcp : TransportTCP}
    (hwriter : conn.tcp.SameWriter tcp) (hempty : sub.tcp.sendMsgs = []) {p p' : TCPPublish} {i : Nat}
    (hi : p.connections[i]? = some { conn with tcp := tcp }) (hi' : p'.connections[i]? = some conn')
    (taken : TransportTCP) (up : List UInt8) :
    ∃ conn₁ conn₁', p.onOptions serializer i [.ofBytes (serializer.write o.opts)] =
        .ok ⟨p.connections.set i conn₁⟩ ∧
      p'.onOptions serializer i [.ofBytes (serializer.write o.opts)] =
        .ok ⟨p'.connections.set i conn₁'⟩ ∧
      Matches { w with up := up } conn₁ sub conn₁' { sub' with tcp := taken } := by
  have hsetup : conn.setup = false := h.setup.trans hwaiting.setup
  have hf : 0 < intOfU32 o.opts.filter := by
    rw [TransportTCP.intOfU32_eq o.filter_le]
    exact_mod_cast o.filter_pos
  have hopts : serializer.read (Frame.ofBytes (serializer.write o.opts)).payload = .ok o.opts := by
    rw [payload_ofBytes (serializer.length_write _), serializer.read_write]
  obtain ⟨owed, -, hdown⟩ := h.down
  obtain ⟨tcp₁, tcp₂, hread, hfilter, hwriter₂, hquiet, hset, hcounter⟩ :=
    TransportTCP.disableRead_setFilter (hwriter.closed.trans hdown.transmits.opened)
      (hwriter.synchronous.trans hdown.transmits.sending.asynchronous) hf
  obtain ⟨tcp₁', tcp₂', hread', hfilter', hwriter', -, hset', hcounter'⟩ :=
    TransportTCP.disableRead_setFilter hwaiting.live.opened hwaiting.live.asynchronous hf
  refine ⟨⟨tcp₂, true, o.opts⟩, ⟨tcp₂', true, o.opts⟩, onOptions_eq_ok hi hread hsetup hopts hfilter,
    onOptions_eq_ok hi' hread' hwaiting.setup hopts hfilter', ?_⟩
  exact h.readOptions hf (hwriter.trans hwriter₂) hquiet hset hcounter hwriter'.sendMsgs hset' hcounter'
    hempty h.transmits o.opts taken up

/-- A message is sent on both connections. -/
theorem sendMessage (h : Matches w conn sub conn' sub') {data : List UInt8}
    (hdata : data.length < 2 ^ 32) {tcp' : TransportTCP}
    (hrun' : conn'.tcp.sendMessage data (UInt32.ofNat data.length) = .ok tcp') :
    ∃ tcp, conn.tcp.sendMessage data (UInt32.ofNat data.length) = .ok tcp ∧
      Matches w { conn with tcp := tcp } sub { conn' with tcp := tcp' } sub' := by
  obtain ⟨owed, hqueue, hdown⟩ := h.down
  obtain ⟨tcp, hrun, hsame, hdown'⟩ := hdown.sendFrames (.single data hdata)
  obtain ⟨hfilter, hcounter, -⟩ := TransportTCP.sendFrames_queue hrun
  have hcounted : conn'.tcp.counted = conn.tcp.counted := by
    rw [TransportTCP.counted, TransportTCP.counted, h.filter, h.msgCounter]
  obtain ⟨hfilter', hcounter', hqueue'⟩ := TransportTCP.sendFrames_queue hrun'
  refine ⟨tcp, hrun, h.setup, h.opts, h.subOpts, h.handed, ?_, ?_, fun hsetup => ?_,
    fun hsetup => ?_, _, ?_, hdown'⟩
  · rw [hfilter, hfilter', h.filter]
  · rw [hcounter, hcounter', hcounted]
  · obtain ⟨owed', hqueue', hup⟩ := h.waiting hsetup
    exact ⟨owed', hqueue', hup.congr (.refl _) hup.transmits.filter hsame⟩
  · obtain ⟨hread, hempty, htransmits⟩ := h.ready hsetup
    exact ⟨hsame.expectingRead.trans hread, hempty, htransmits⟩
  · rw [hqueue', hqueue, hcounted, List.map_append]
    split_ifs
    · rw [OutFrames.payloads_single]
      rfl
    · rfl

variable {msg : OutMessage} {snappyData snappyData' : Option (List UInt8)}

/-- What `publish` sends on a connection that is set up, which only its options decide. -/
theorem publishOn_sends {conn₁ : Connection} (hsetup : conn.setup = true)
    (hdata : ∀ d ∈ snappyData, d.length < 2 ^ 32)
    (hrun : TCPPublish.publishOn snappy msg snappyData conn = .ok (snappyData', conn₁)) :
    ∃ data : List UInt8, data.length < 2 ^ 32 ∧ (∀ d ∈ snappyData', d.length < 2 ^ 32) ∧
      ∀ c : Connection, c.setup = true → c.opts = conn.opts →
        TCPPublish.publishOn snappy msg snappyData c =
          (c.tcp.sendMessage data (UInt32.ofNat data.length)).map
            fun tcp => (snappyData', { c with tcp := tcp }) := by
  rw [TCPPublish.publishOn, if_pos hsetup] at hrun
  split_ifs at hrun with hnone hsnappy
  · obtain ⟨tcp, -, hlast⟩ := bind_eq_ok_iff.mp hrun
    obtain rfl := congrArg Prod.fst (Except.ok.inj hlast)
    refine ⟨msg.bytes, msg.bounded, hdata, fun c hset hopts => ?_⟩
    rw [TCPPublish.publishOn, if_pos hset, hopts, if_pos hnone, OutMessage.size]
    cases c.tcp.sendMessage msg.bytes (UInt32.ofNat msg.bytes.length) <;> rfl
  · obtain ⟨data, hshort, rfl, hall⟩ : ∃ data : List UInt8, data.length < 2 ^ 32 ∧
        snappyData' = some data ∧ ∀ c : Connection, c.setup = true → c.opts = conn.opts →
          TCPPublish.publishOn snappy msg snappyData c =
            (c.tcp.sendMessage data (UInt32.ofNat data.length)).map
              fun tcp => (some data, { c with tcp := tcp }) := by
      cases snappyData with
      | some data =>
          simp only [bind, Except.bind] at hrun
          split at hrun
          · cases hrun
          · refine ⟨data, hdata data rfl, (congrArg Prod.fst (Except.ok.inj hrun)).symm, ?_⟩
            intro c hset hopts
            rw [TCPPublish.publishOn, if_pos hset, hopts, if_neg hnone, if_pos hsnappy]
            simp only [bind, Except.bind]
            cases c.tcp.sendMessage data (UInt32.ofNat data.length) <;> rfl
      | none =>
          dsimp only at hrun
          split_ifs at hrun with hroom
          · cases hrun
          · simp only [bind, Except.bind] at hrun
            split at hrun
            · cases hrun
            · have hlt := (UInt32.ofNat (snappy.maxCompressedLength msg.bytes.length)).toNat_lt
              refine ⟨snappy.rawCompress msg.bytes, (snappy.length_rawCompress _).trans_lt (by omega),
                (congrArg Prod.fst (Except.ok.inj hrun)).symm, ?_⟩
              intro c hset hopts
              rw [TCPPublish.publishOn, if_pos hset, hopts, if_neg hnone, if_pos hsnappy]
              simp only [hroom, if_false, bind, Except.bind]
              cases c.tcp.sendMessage (snappy.rawCompress msg.bytes) _ <;> rfl
    exact ⟨data, hshort, fun d hd => Option.some.inj hd ▸ hshort, hall⟩

/-- `publish` does the same on both connections. -/
theorem publishOn (h : Matches w conn sub conn' sub') (hdata : ∀ d ∈ snappyData, d.length < 2 ^ 32)
    {conn₁' : Connection}
    (hrun' : TCPPublish.publishOn snappy msg snappyData conn' = .ok (snappyData', conn₁')) :
    ∃ conn₁, TCPPublish.publishOn snappy msg snappyData conn = .ok (snappyData', conn₁) ∧
      (∀ d ∈ snappyData', d.length < 2 ^ 32) ∧ Matches w conn₁ sub conn₁' sub' := by
  cases hsetup : conn.setup with
  | false =>
      have hsetup' := h.setup.symm.trans hsetup
      rw [TCPPublish.publishOn, hsetup', if_neg Bool.false_ne_true] at hrun'
      cases hrun'
      refine ⟨conn, ?_, hdata, h⟩
      rw [TCPPublish.publishOn, hsetup, if_neg Bool.false_ne_true]
  | true =>
      have hsetup' := h.setup.symm.trans hsetup
      obtain ⟨data, hshort, hdata', hsends⟩ := publishOn_sends hsetup' hdata hrun'
      rw [hsends conn' hsetup' rfl] at hrun'
      obtain ⟨tcp', hsend', hlast⟩ := map_eq_ok_iff.mp hrun'
      cases hlast
      obtain ⟨tcp, hsend, hmatches⟩ := h.sendMessage hshort hsend'
      refine ⟨{ conn with tcp := tcp }, ?_, hdata', hmatches⟩
      rw [hsends conn hsetup h.opts, hsend]
      rfl

end Matches

variable {snappy : Snappy} {msg : OutMessage}

/-- `publish` does the same on all of them. -/
theorem publishEach_matches {conns conns' conns₁' : List Connection}
    {snappyData : Option (List UInt8)} (hlength : conns.length = conns'.length)
    (hmatches : ∀ (i : Nat) conn conn', conns[i]? = some conn → conns'[i]? = some conn' →
      ∃ w sub sub', Matches w conn sub conn' sub')
    (hdata : ∀ d ∈ snappyData, d.length < 2 ^ 32)
    (hrun' : TCPPublish.publishEach snappy msg snappyData conns' = .ok conns₁') :
    ∃ conns₁, TCPPublish.publishEach snappy msg snappyData conns = .ok conns₁ ∧
      conns₁.length = conns.length ∧ conns₁'.length = conns'.length ∧
      ∀ (i : Nat) conn conn', conns[i]? = some conn → conns'[i]? = some conn' →
        ∃ conn₁ conn₁', conns₁[i]? = some conn₁ ∧ conns₁'[i]? = some conn₁' ∧
          ∀ w sub sub', Matches w conn sub conn' sub' → Matches w conn₁ sub conn₁' sub' := by
  induction conns generalizing conns' conns₁' snappyData with
  | nil =>
      obtain rfl := List.length_eq_zero_iff.mp hlength.symm
      obtain rfl := Except.ok.inj hrun'
      exact ⟨[], rfl, rfl, rfl, by simp⟩
  | cons conn conns ih =>
      obtain _ | ⟨conn', conns'⟩ := conns'
      · cases hlength
      · obtain ⟨w, sub, sub', hfirst⟩ := hmatches 0 conn conn' rfl rfl
        rw [TCPPublish.publishEach] at hrun'
        obtain ⟨⟨snappyData', conn₁'⟩, hon', hrest⟩ := bind_eq_ok_iff.mp hrun'
        obtain ⟨behind', heach', hlast⟩ := bind_eq_ok_iff.mp hrest
        obtain rfl := Except.ok.inj hlast
        obtain ⟨conn₁, hon, hdata', -⟩ := hfirst.publishOn hdata hon'
        obtain ⟨behind, heach, hlen, hlen', hget⟩ := ih (Nat.succ.inj hlength)
          (fun i c c' hc hc' => hmatches (i + 1) c c' hc hc') hdata' heach'
        refine ⟨conn₁ :: behind, ?_, by simp [hlen], by simp [hlen'], fun i c c' hc hc' => ?_⟩
        · rw [TCPPublish.publishEach]
          exact bind_eq_ok_iff.mpr ⟨_, hon, bind_eq_ok_iff.mpr ⟨behind, heach, rfl⟩⟩
        · cases i with
          | succ i => exact hget i c c' hc hc'
          | zero =>
              obtain rfl := Option.some.inj hc
              obtain rfl := Option.some.inj hc'
              refine ⟨conn₁, conn₁', rfl, rfl, fun w sub sub' hmatch => ?_⟩
              obtain ⟨conn₂, hon₂, -, hmatch₂⟩ := hmatch.publishOn hdata hon'
              obtain ⟨-, rfl⟩ := Prod.mk.inj (Except.ok.inj (hon₂.symm.trans hon))
              exact hmatch₂

/-- A link that is not set up waits for its options. -/
theorem Link.waiting {serializer : OptionsSerializer} {o : ValidOptions} {conn : Connection}
    {sub : TCPSubscribe} {since : Option (List OutMessage)}
    (h : Link snappy serializer o conn sub since) (hsetup : conn.setup = false) :
    Waiting serializer o conn sub := by
  cases since with
  | none => exact h
  | some since =>
      have hready : Ready snappy o conn sub since := h
      cases hsetup.symm.trans hready.setup

/-- A new connection and its subscriber, which has its options to send. -/
theorem exists_fresh (serializer : OptionsSerializer) (o : ValidOptions)
    (accepted connecting : Endpoint) :
    ∃ tcp tcp', (∀ p : TCPPublish, p.onAccept accepted.transport =
        .ok ⟨p.connections ++ [⟨tcp, false, ⟨false, 0, 0⟩⟩]⟩) ∧
      TCPSubscribe.start o.opts serializer connecting.transport = .ok ⟨tcp', o.opts, []⟩ ∧
      Matches ⟨[], []⟩ ⟨tcp, false, ⟨false, 0, 0⟩⟩ ⟨tcp', o.opts, []⟩ ⟨tcp, false, ⟨false, 0, 0⟩⟩
        ⟨tcp', o.opts, []⟩ := by
  have htransport : ∀ e : Endpoint, ∃ t : TransportTCP,
      e.transport.setDisconnectCallback.enableMessagePass.enableRead.map
        TransportTCP.setMsgCallback = .ok t ∧
      e.transport.enableMessagePass.setDisconnectCallback.enableRead.map
        TransportTCP.setMsgCallback = .ok t ∧
      t.Transmits ∧ t.ReadsUpTo [] (.count []) ∧ t.sendMsgs = [] ∧ t.counted = 0 := by
    intro e
    have htransmits := TransportTCP.transmits_passing e.sock e.uninit e.heap
    have hreads := TransportTCP.readsUpTo_passing e.sock e.uninit e.heap
    exact ⟨{ TransportTCP.passing e.sock e.uninit e.heap with disconnectCb := true }, rfl, rfl,
      htransmits.congr ⟨rfl, rfl, rfl, rfl, rfl, rfl, rfl⟩ Int.one_ne_zero,
      hreads.congr ⟨rfl, rfl, rfl, rfl, rfl, rfl, rfl, rfl, rfl, rfl⟩, rfl, rfl⟩
  obtain ⟨tcp, -, haccept, htransmits, hreads, hqueue, -⟩ := htransport accepted
  obtain ⟨t, hstart, -, htransmits', hreads', hqueue', hcounted⟩ := htransport connecting
  have hidle : Conveys t [] tcp [] := ⟨htransmits', by simp, [], _, hreads, by
    rw [TransportTCP.todo, hqueue']
    rfl⟩
  obtain ⟨tcp', hsend, hsame, hup⟩ :=
    hidle.sendFrames (.single (serializer.write o.opts) (serializer.length_write _))
  obtain ⟨-, -, hsent⟩ := TransportTCP.sendFrames_queue hsend
  have hdown : Conveys tcp [] tcp' [] := ⟨htransmits, by simp, [], _, hreads'.congr hsame, by
    rw [TransportTCP.todo, hqueue]
    rfl⟩
  refine ⟨tcp, tcp', fun p => ?_, ?_, rfl, rfl, rfl, rfl, rfl, rfl, fun _ => ⟨_, ?_, hup⟩,
    fun hready => absurd hready Bool.false_ne_true, [], ?_, hdown⟩
  · obtain ⟨t₀, henable, rfl⟩ := map_eq_ok_iff.mp haccept
    rw [TCPPublish.onAccept]
    exact bind_eq_ok_iff.mpr ⟨t₀, henable, rfl⟩
  · obtain ⟨t₀, henable, rfl⟩ := map_eq_ok_iff.mp hstart
    rw [TCPSubscribe.start]
    exact bind_eq_ok_iff.mpr ⟨t₀, henable, bind_eq_ok_iff.mpr ⟨tcp', hsend, rfl⟩⟩
  · rw [hsent, hqueue', hcounted, OutFrames.payloads_single]
    rfl
  · rw [hqueue]
    rfl

/-! ### All of them -/

namespace Wired

section

variable (snappy : Snappy) (serializer : OptionsSerializer)

/-- The events of `PubSub` that have taken place lead to what whole messages would have left. -/
structure Refines (s : Wired) (s' : PubSub) : Prop where
  reached : run (PubSub.onEvent snappy serializer) .empty s.trace = .ok s'
  serving : PubSub.Serving snappy serializer s.trace s'
  connections : s.ends.publisher.connections.length = s'.publisher.connections.length
  subscribers : s.ends.subscribers.length = s'.subscribers.length
  matched : ∀ (i : Nat) conn sub conn' sub', s.ends.publisher.connections[i]? = some conn →
    s.ends.subscribers[i]? = some sub → s'.publisher.connections[i]? = some conn' →
    s'.subscribers[i]? = some sub' → Matches (s.wires i) conn sub conn' sub'

variable {snappy serializer}
variable {s : Wired} {s' : PubSub} {i : Nat} {conn conn₁ conn₁' : Connection}
  {sub sub₁ sub₁' : TCPSubscribe} {w : Wires} {a : Accept}

theorem refines_empty : Refines snappy serializer empty .empty where
  reached := rfl
  serving := PubSub.serving_empty
  connections := rfl
  subscribers := rfl
  matched i conn sub conn' sub' h := by simp [empty, PubSub.empty] at h

theorem Refines.lengths (h : Refines snappy serializer s s') :
    s.ends.publisher.connections.length = s.ends.subscribers.length := by
  rw [h.connections, h.subscribers, h.serving.connections, h.serving.subscribers]

/-- A connection, its subscriber and the two that they are compared with. -/
theorem Refines.exists_link (h : Refines snappy serializer s s')
    (hconn : s.ends.publisher.connections[i]? = some conn) (hsub : s.ends.subscribers[i]? = some sub) :
    ∃ o conn' sub', s'.publisher.connections[i]? = some conn' ∧ s'.subscribers[i]? = some sub' ∧
      Link snappy serializer o conn' sub' (sinceSetup i 0 s.trace) ∧
      Matches (s.wires i) conn sub conn' sub' := by
  have hi : i < (connected s.trace).length := by
    have := (List.getElem?_eq_some_iff.mp hconn).1
    rwa [h.connections, h.serving.connections] at this
  obtain ⟨conn', sub', hconn', hsub', hlink⟩ := h.serving.link i _ (List.getElem?_eq_getElem hi)
  exact ⟨_, conn', sub', hconn', hsub', hlink, h.matched i conn sub conn' sub' hconn hsub hconn' hsub'⟩

/-- One connection and its subscriber change, on both sides. -/
theorem matched_set (h : Refines snappy serializer s s')
    (hmatches : Matches w conn₁ sub₁ conn₁' sub₁') (j : Nat) (c : Connection) (b : TCPSubscribe)
    (c' : Connection) (b' : TCPSubscribe)
    (hc : (s.set i conn₁ sub₁ w).ends.publisher.connections[j]? = some c)
    (hb : (s.set i conn₁ sub₁ w).ends.subscribers[j]? = some b)
    (hc' : (s'.publisher.connections.set i conn₁')[j]? = some c')
    (hb' : (s'.subscribers.set i sub₁')[j]? = some b') :
    Matches ((s.set i conn₁ sub₁ w).wires j) c b c' b' := by
  simp only [set] at hc hb ⊢
  by_cases hj : i = j
  · subst hj
    rw [Function.update_self]
    rw [List.getElem?_set_self'] at hc hb hc' hb'
    obtain ⟨-, -, rfl⟩ := Option.map_eq_some_iff.mp hc
    obtain ⟨-, -, rfl⟩ := Option.map_eq_some_iff.mp hb
    obtain ⟨-, -, rfl⟩ := Option.map_eq_some_iff.mp hc'
    obtain ⟨-, -, rfl⟩ := Option.map_eq_some_iff.mp hb'
    exact hmatches
  · rw [List.getElem?_set_ne hj] at hc hb hc' hb'
    rw [Function.update_of_ne (Ne.symm hj)]
    exact h.matched j c b c' b' hc hb hc' hb'

/-- Bytes move, and no message is complete. -/
theorem Refines.still (h : Refines snappy serializer s s') {conn' : Connection} {sub' : TCPSubscribe}
    (hconn' : s'.publisher.connections[i]? = some conn') (hsub' : s'.subscribers[i]? = some sub')
    (hmatches : Matches w conn₁ sub₁ conn' sub') :
    Refines snappy serializer (s.set i conn₁ sub₁ w) s' where
  reached := h.reached
  serving := h.serving
  connections := List.length_set.trans h.connections
  subscribers := List.length_set.trans h.subscribers
  matched j c b c' b' hc hb hc' hb' := by
    rw [← set_of_getElem? hconn'] at hc'
    rw [← set_of_getElem? hsub'] at hb'
    exact matched_set h hmatches j c b c' b' hc hb hc' hb'

/-- A message is complete. -/
theorem Refines.next (h : Refines snappy serializer s s') {e : PubSubEvent}
    (hfit : PubSub.FitsBuffer snappy s' e)
    (hstep : s'.onEvent snappy serializer e =
      .ok ⟨⟨s'.publisher.connections.set i conn₁'⟩, s'.subscribers.set i sub₁'⟩)
    (hmatches : Matches w conn₁ sub₁ conn₁' sub₁') :
    Refines snappy serializer { s.set i conn₁ sub₁ w with trace := s.trace ++ [e] }
      ⟨⟨s'.publisher.connections.set i conn₁'⟩, s'.subscribers.set i sub₁'⟩ where
  reached := (run_concat_of_run h.reached e).trans hstep
  serving := by
    obtain ⟨t, hrun, hserving⟩ := h.serving.step hfit
    obtain rfl := Except.ok.inj (hstep.symm.trans hrun)
    exact hserving
  connections := List.length_set.trans (h.connections.trans List.length_set.symm)
  subscribers := List.length_set.trans (h.subscribers.trans List.length_set.symm)
  matched := matched_set h hmatches

/-! ### Steps -/

theorem Refines.writable (h : Refines snappy serializer s s')
    (hadmits : s.Admits snappy (.writable i a)) :
    ∃ t, s.onWritable i a = .ok t ∧ t.trace = s.trace ∧ Refines snappy serializer t s' := by
  rw [onWritable]
  cases hconn : s.ends.publisher.connections[i]? with
  | none => exact ⟨s, rfl, rfl, h⟩
  | some conn =>
      cases hsub : s.ends.subscribers[i]? with
      | none => exact ⟨s, rfl, rfl, h⟩
      | some sub =>
          obtain ⟨o, conn', sub', hconn', hsub', -, hmatches⟩ := h.exists_link hconn hsub
          obtain ⟨tcp, hrun, hmatches'⟩ := hmatches.writable (hadmits conn hconn)
          refine ⟨_, bind_eq_ok_iff.mpr ⟨tcp, hrun, rfl⟩, rfl, ?_⟩
          exact h.still hconn' hsub' hmatches'

theorem Refines.subscriberWritable (h : Refines snappy serializer s s')
    (hadmits : s.Admits snappy (.subscriberWritable i a)) :
    ∃ t, s.onSubscriberWritable i a = .ok t ∧ t.trace = s.trace ∧ Refines snappy serializer t s' := by
  rw [onSubscriberWritable]
  cases hconn : s.ends.publisher.connections[i]? with
  | none => exact ⟨s, rfl, rfl, h⟩
  | some conn =>
      cases hsub : s.ends.subscribers[i]? with
      | none => exact ⟨s, rfl, rfl, h⟩
      | some sub =>
          obtain ⟨o, conn', sub', hconn', hsub', -, hmatches⟩ := h.exists_link hconn hsub
          obtain ⟨tcp, hrun, hmatches'⟩ := hmatches.subscriberWritable (hadmits sub hsub)
          refine ⟨_, bind_eq_ok_iff.mpr ⟨tcp, hrun, rfl⟩, rfl, ?_⟩
          exact h.still hconn' hsub' hmatches'

/-- A connection reads: the options may be complete. -/
theorem Refines.readable (h : Refines snappy serializer s s')
    (hadmits : s.Admits snappy (.readable i a)) :
    ∃ t t', s.onReadable serializer i a = .ok t ∧
      (t.trace = s.trace ∨ t.trace = s.trace ++ [.options i]) ∧ Refines snappy serializer t t' := by
  rw [onReadable]
  cases hconn : s.ends.publisher.connections[i]? with
  | none => exact ⟨s, s', rfl, .inl rfl, h⟩
  | some conn =>
    cases hsub : s.ends.subscribers[i]? with
    | none => exact ⟨s, s', rfl, .inl rfl, h⟩
    | some sub =>
      obtain ⟨o, conn', sub', hconn', hsub', hlink, hmatches⟩ := h.exists_link hconn hsub
      cases hsetup : conn.setup with
      | true =>
          have hrun := hmatches.readable_ready hsetup (Channel.chunk (s.wires i).up a)
          have hmatches' : Matches { s.wires i with
              up := (s.wires i).up.drop (conn.tcp.received.length - conn.tcp.received.length) }
              conn sub conn' sub' := by
            rw [Nat.sub_self, List.drop_zero]
            exact hmatches
          refine ⟨s.set i conn sub _, s', bind_eq_ok_iff.mpr ⟨conn.tcp, hrun, ?_⟩, .inl rfl,
            h.still hconn' hsub' hmatches'⟩
          rw [TransportTCP.handedOver_same rfl]
      | false =>
          obtain ⟨tcp, hrun, hwriter, -, -,
              ⟨hsame, hmatches'⟩ | ⟨frames, rest, hnext, hqueue, hempty⟩⟩ :=
            hmatches.readable_waiting hsetup (hadmits conn hconn)
          · refine ⟨s.set i _ _ _, s', bind_eq_ok_iff.mpr ⟨tcp, hrun, ?_⟩, .inl rfl,
              h.still hconn' hsub' hmatches'⟩
            rw [TransportTCP.handedOver_same hsame]
          · have hwaiting : Waiting serializer o conn' sub' := hlink.waiting (hmatches.setup ▸ hsetup)
            obtain ⟨rfl, rfl⟩ := List.cons.inj (hqueue.symm.trans hwaiting.options)
            obtain ⟨m, hoptions, hframes⟩ := List.map_eq_singleton_iff.mp hwaiting.options
            obtain ⟨taken, htake, -⟩ := hwaiting.subLive.takeMessage hoptions
            have hi := (List.getElem?_eq_some_iff.mp hconn).1
            have hget : (s.ends.publisher.connections.set i { conn with tcp := tcp })[i]? =
                some { conn with tcp := tcp } := List.getElem?_set_self hi
            obtain ⟨conn₁, conn₁', hon, hon', hmatches'⟩ := hmatches.onOptions hwaiting hwriter
              (hempty rfl) (p := ⟨_⟩) hget hconn' taken
              ((s.wires i).up.drop (tcp.received.length - conn.tcp.received.length))
            refine ⟨{ s.set i _ _ _ with trace := s.trace ++ [.options i] }, _,
              bind_eq_ok_iff.mpr ⟨tcp, hrun, ?_⟩, .inr rfl,
              h.next (e := .options i) trivial ?_ hmatches'⟩
            · rw [List.set_set] at hon
              rw [TransportTCP.handedOver_next hnext]
              exact bind_eq_ok_iff.mpr ⟨_, hon, rfl⟩
            · rw [hframes] at htake
              simp only [PubSub.onEvent, hsub', htake, hon', bind, Except.bind]

/-- A subscriber reads: a message may be complete. -/
theorem Refines.subscriberReadable (h : Refines snappy serializer s s')
    (hadmits : s.Admits snappy (.subscriberReadable i a)) :
    ∃ t t', s.onSubscriberReadable snappy i a = .ok t ∧
      (t.trace = s.trace ∨ t.trace = s.trace ++ [.message i]) ∧ Refines snappy serializer t t' := by
  rw [onSubscriberReadable]
  cases hconn : s.ends.publisher.connections[i]? with
  | none => exact ⟨s, s', rfl, .inl rfl, h⟩
  | some conn =>
    cases hsub : s.ends.subscribers[i]? with
    | none => exact ⟨s, s', rfl, .inl rfl, h⟩
    | some sub =>
      obtain ⟨o, conn', sub', hconn', hsub', hlink, hmatches⟩ := h.exists_link hconn hsub
      obtain ⟨tcp, hrun, ⟨hsame, hmatches'⟩ | ⟨frames, hnext, m, rest, hqueue, rfl, hmatches'⟩⟩ :=
        hmatches.subscriberReadable (hadmits sub hsub)
      · refine ⟨s.set i _ _ _, s', bind_eq_ok_iff.mpr ⟨tcp, hrun, ?_⟩, .inl rfl,
          h.still hconn' hsub' hmatches'⟩
        rw [TransportTCP.handedOver_same hsame]
      · cases hsince : sinceSetup i 0 s.trace with
        | none =>
            rw [hsince] at hlink
            have hwaiting : Waiting serializer o conn' sub' := hlink
            cases hqueue.symm.trans hwaiting.queue
        | some since =>
            rw [hsince] at hlink
            have hready : Ready snappy o conn' sub' since := hlink
            obtain ⟨tcp', htake, halike⟩ := hready.counting.toLive.takeMessage hqueue
            obtain ⟨pending, hpending, -⟩ := hready.handed
            rw [hqueue, List.map_cons] at hpending
            cases hpending with
            | @cons _ msg _ pending hcarries _ =>
                have hreceive' := hcarries sub' hready.opts
                have hreceive := hcarries { sub with tcp := tcp } (hmatches.subOpts.trans hready.opts)
                have hmatches'' := hmatches' tcp' (sub'.handed ++ [msg.bytes]) halike.sendMsgs
                  halike.filter halike.msgCounter
                refine ⟨{ s.set i _ _ _ with trace := s.trace ++ [.message i] }, _,
                  bind_eq_ok_iff.mpr ⟨tcp, hrun, ?_⟩, .inr rfl,
                  h.next (e := .message i) trivial ?_ hmatches''⟩
                · rw [TransportTCP.handedOver_next hnext, ← hmatches.handed]
                  exact bind_eq_ok_iff.mpr ⟨_, hreceive, rfl⟩
                · simp only [PubSub.onEvent, hconn', hsub', htake, hreceive', bind, Except.bind]

/-- A message is published. -/
theorem Refines.publish (h : Refines snappy serializer s s') {msg : OutMessage}
    (hadmits : s.Admits snappy (.publish msg)) :
    ∃ t t', s.onEvent snappy serializer (.publish msg) = .ok t ∧
      t.trace = s.trace ++ [.publish msg] ∧ Refines snappy serializer t t' := by
  have hmatched : ∀ (i : Nat) conn conn', s.ends.publisher.connections[i]? = some conn →
      s'.publisher.connections[i]? = some conn' → ∃ w sub sub', Matches w conn sub conn' sub' := by
    intro i conn conn' hconn hconn'
    have hi : i < s.ends.subscribers.length := h.lengths ▸ (List.getElem?_eq_some_iff.mp hconn).1
    have hi' : i < s'.subscribers.length := h.subscribers ▸ hi
    exact ⟨_, _, _, h.matched i conn _ conn' _ hconn (List.getElem?_eq_getElem hi) hconn'
      (List.getElem?_eq_getElem hi')⟩
  have hfit : PubSub.FitsBuffer snappy s' (.publish msg) := by
    intro conn' hmem hsetup hsnappy
    obtain ⟨i, hi, rfl⟩ := List.mem_iff_getElem.mp hmem
    have hconn' := List.getElem?_eq_getElem hi
    have hconn := List.getElem?_eq_getElem (l := s.ends.publisher.connections) (h.connections ▸ hi)
    obtain ⟨w, sub, sub', hmatches⟩ := hmatched i _ _ hconn hconn'
    exact hadmits _ (List.getElem_mem _) (hmatches.setup.trans hsetup) (hmatches.opts ▸ hsnappy)
  obtain ⟨t', hstep, hserving⟩ := h.serving.step hfit
  obtain ⟨p', hpublish', hlast⟩ := bind_eq_ok_iff.mp hstep
  obtain ⟨conns', heach', hp'⟩ := bind_eq_ok_iff.mp hpublish'
  obtain rfl := Except.ok.inj hp'
  obtain rfl := Except.ok.inj hlast
  have hdata : ∀ d ∈ (none : Option (List UInt8)), d.length < 2 ^ 32 := nofun
  obtain ⟨conns, heach, hlength, hlength', hget⟩ :=
    publishEach_matches h.connections hmatched hdata heach'
  refine ⟨{ s with ends := ⟨⟨conns⟩, s.ends.subscribers⟩, trace := s.trace ++ [.publish msg] }, _, ?_,
    rfl, ⟨(run_concat_of_run h.reached _).trans hstep, hserving, ?_, h.subscribers, ?_⟩⟩
  · simp only [onEvent, PubSub.onEvent, TCPPublish.publish, heach, bind, Except.bind]
  · exact hlength.trans (h.connections.trans hlength'.symm)
  · intro i conn₁ sub conn₁' sub' hconn₁ hsub hconn₁' hsub'
    have hi : i < s.ends.publisher.connections.length :=
      hlength ▸ (List.getElem?_eq_some_iff.mp hconn₁).1
    have hi' : i < s'.publisher.connections.length := h.connections ▸ hi
    obtain ⟨c, c', hc, hc', hkeeps⟩ :=
      hget i _ _ (List.getElem?_eq_getElem hi) (List.getElem?_eq_getElem hi')
    obtain rfl := Option.some.inj (hc.symm.trans hconn₁)
    obtain rfl := Option.some.inj (hc'.symm.trans hconn₁')
    exact hkeeps _ _ _ (h.matched i _ sub _ sub' (List.getElem?_eq_getElem hi) hsub
      (List.getElem?_eq_getElem hi') hsub')

/-- A connection is made. -/
theorem Refines.connect (h : Refines snappy serializer s s') (o : ValidOptions)
    (accepted connecting : Endpoint) :
    ∃ t t', s.onEvent snappy serializer (.connect o accepted connecting) = .ok t ∧
      t.trace = s.trace ++ [.connect o accepted connecting] ∧ Refines snappy serializer t t' := by
  obtain ⟨tcp, tcp', haccept, hstart, hfresh⟩ := exists_fresh serializer o accepted connecting
  obtain ⟨t', hstep, hserving⟩ := h.serving.step (e := .connect o accepted connecting) trivial
  have hends : ∀ p : PubSub, p.onEvent snappy serializer (.connect o accepted connecting) =
      .ok ⟨⟨p.publisher.connections ++ [⟨tcp, false, ⟨false, 0, 0⟩⟩]⟩,
        p.subscribers ++ [⟨tcp', o.opts, []⟩]⟩ := by
    intro p
    simp only [PubSub.onEvent, haccept, hstart, bind, Except.bind]
  obtain rfl := Except.ok.inj ((hends s').symm.trans hstep)
  have hboth := h.lengths
  refine ⟨⟨⟨⟨s.ends.publisher.connections ++ [⟨tcp, false, ⟨false, 0, 0⟩⟩]⟩,
      s.ends.subscribers ++ [⟨tcp', o.opts, []⟩]⟩,
    Function.update s.wires s.ends.subscribers.length ⟨[], []⟩,
    s.trace ++ [.connect o accepted connecting]⟩, _, ?_, rfl,
    ⟨(run_concat_of_run h.reached _).trans hstep, hserving, ?_, ?_, ?_⟩⟩
  · rw [onEvent]
    exact bind_eq_ok_iff.mpr ⟨_, hends s.ends, rfl⟩
  · rw [List.length_append, List.length_append, h.connections]
  · rw [List.length_append, List.length_append, h.subscribers]
  · intro i conn sub conn' sub' hconn hsub hconn' hsub'
    by_cases hold : i < s.ends.subscribers.length
    · rw [List.getElem?_append_left (by omega)] at hconn hsub
      rw [List.getElem?_append_left (by rw [← h.connections]; omega)] at hconn'
      rw [List.getElem?_append_left (by rw [← h.subscribers]; omega)] at hsub'
      dsimp only
      rw [Function.update_of_ne hold.ne]
      exact h.matched i conn sub conn' sub' hconn hsub hconn' hsub'
    · have hnew : i = s.ends.subscribers.length := by
        have := (List.getElem?_eq_some_iff.mp hsub).1
        rw [List.length_append, List.length_singleton] at this
        omega
      subst hnew
      dsimp only
      rw [Function.update_self]
      rw [List.getElem?_concat_length] at hsub
      rw [← hboth, List.getElem?_concat_length] at hconn
      rw [← hboth, h.connections, List.getElem?_concat_length] at hconn'
      rw [h.subscribers, List.getElem?_concat_length] at hsub'
      obtain rfl := Option.some.inj hconn
      obtain rfl := Option.some.inj hsub
      obtain rfl := Option.some.inj hconn'
      obtain rfl := Option.some.inj hsub'
      exact hfresh

theorem Refines.step (h : Refines snappy serializer s s') {e : WiredEvent}
    (hadmits : s.Admits snappy e) :
    ∃ t, s.onEvent snappy serializer e = .ok t ∧ (∃ t', Refines snappy serializer t t') ∧
      t.trace.filter PubSubEvent.isCall = s.trace.filter PubSubEvent.isCall ++ e.call.toList := by
  cases e with
  | connect o accepted connecting =>
      obtain ⟨t, t', hrun, htrace, h'⟩ := h.connect o accepted connecting
      refine ⟨t, hrun, ⟨t', h'⟩, ?_⟩
      rw [htrace, List.filter_append]
      rfl
  | publish msg =>
      obtain ⟨t, t', hrun, htrace, h'⟩ := h.publish hadmits
      refine ⟨t, hrun, ⟨t', h'⟩, ?_⟩
      rw [htrace, List.filter_append]
      rfl
  | writable i a =>
      obtain ⟨t, hrun, htrace, h'⟩ := h.writable hadmits
      refine ⟨t, hrun, ⟨s', h'⟩, ?_⟩
      rw [htrace]
      exact (List.append_nil _).symm
  | readable i a =>
      obtain ⟨t, t', hrun, htrace, h'⟩ := h.readable hadmits
      refine ⟨t, hrun, ⟨t', h'⟩, ?_⟩
      obtain htrace | htrace := htrace
      · rw [htrace]
        exact (List.append_nil _).symm
      · rw [htrace, List.filter_append]
        rfl
  | subscriberWritable i a =>
      obtain ⟨t, hrun, htrace, h'⟩ := h.subscriberWritable hadmits
      refine ⟨t, hrun, ⟨s', h'⟩, ?_⟩
      rw [htrace]
      exact (List.append_nil _).symm
  | subscriberReadable i a =>
      obtain ⟨t, t', hrun, htrace, h'⟩ := h.subscriberReadable hadmits
      refine ⟨t, hrun, ⟨t', h'⟩, ?_⟩
      obtain htrace | htrace := htrace
      · rw [htrace]
        exact (List.append_nil _).symm
      · rw [htrace, List.filter_append]
        rfl

/-! ### Runs -/

theorem run_refines {events : List WiredEvent}
    (hadmits : Along (onEvent snappy serializer) (Admits snappy) empty events) :
    ∃ s, run (onEvent snappy serializer) empty events = .ok s ∧
      (∃ s', Refines snappy serializer s s') ∧
      s.trace.filter PubSubEvent.isCall = events.filterMap WiredEvent.call := by
  have hstep : ∀ (s : Wired) (e : WiredEvent), (∃ s', Refines snappy serializer s s') →
      s.Admits snappy e → ∃ t, s.onEvent snappy serializer e = .ok t ∧
        (∃ t', Refines snappy serializer t t') ∧
        t.trace.filter PubSubEvent.isCall = s.trace.filter PubSubEvent.isCall ++ e.call.toList :=
    fun s e ⟨_, h⟩ hP => h.step hP
  rw [List.filterMap_eq_flatMap_toList]
  exact run_ledger (fun s => s.trace.filter PubSubEvent.isCall) hstep ⟨_, refines_empty⟩ hadmits

theorem connected_calls (events : List PubSubEvent) :
    connected (events.filter PubSubEvent.isCall) = connected events := by
  rw [connected, connected, List.filterMap_filter]
  congr 1
  funext e
  cases e <;> rfl

/-- The same connections, set up with the same options, and the same messages handed over. -/
def Agrees (p p' : PubSub) : Prop :=
  p.publisher.connections.map (fun c => (c.setup, c.opts)) =
      p'.publisher.connections.map (fun c => (c.setup, c.opts)) ∧
    p.subscribers.map (fun sub => (sub.opts, sub.handed)) =
      p'.subscribers.map (fun sub => (sub.opts, sub.handed))

theorem Refines.agrees (h : Refines snappy serializer s s') : Agrees s.ends s' := by
  have hboth := h.lengths
  have hmatched : ∀ i, i < s.ends.subscribers.length → ∃ conn sub conn' sub',
      s.ends.publisher.connections[i]? = some conn ∧ s.ends.subscribers[i]? = some sub ∧
        s'.publisher.connections[i]? = some conn' ∧ s'.subscribers[i]? = some sub' ∧
        Matches (s.wires i) conn sub conn' sub' := by
    intro i hi
    have hconn := List.getElem?_eq_getElem (hboth ▸ hi)
    have hsub := List.getElem?_eq_getElem hi
    obtain ⟨o, conn', sub', hconn', hsub', -, hmatches⟩ := h.exists_link hconn hsub
    exact ⟨_, _, conn', sub', hconn, hsub, hconn', hsub', hmatches⟩
  constructor
  · apply List.ext_getElem?
    intro i
    by_cases hi : i < s.ends.subscribers.length
    · obtain ⟨conn, sub, conn', sub', hconn, -, hconn', -, hmatches⟩ := hmatched i hi
      rw [List.getElem?_map, List.getElem?_map, hconn, hconn', Option.map_some, Option.map_some,
        hmatches.setup, hmatches.opts]
    · rw [List.getElem?_eq_none (by rw [List.length_map]; omega),
        List.getElem?_eq_none (by rw [List.length_map, ← h.connections]; omega)]
  · apply List.ext_getElem?
    intro i
    by_cases hi : i < s.ends.subscribers.length
    · obtain ⟨conn, sub, conn', sub', -, hsub, -, hsub', hmatches⟩ := hmatched i hi
      rw [List.getElem?_map, List.getElem?_map, hsub, hsub', Option.map_some, Option.map_some,
        hmatches.subOpts, hmatches.handed]
    · rw [List.getElem?_eq_none (by rw [List.length_map]; omega),
        List.getElem?_eq_none (by rw [List.length_map, ← h.subscribers]; omega)]

/-- What a subscriber is to receive, once nothing is queued or in flight to it. -/
theorem Refines.receives (h : Refines snappy serializer s s') {o : ValidOptions}
    (hi : (connected s.trace)[i]? = some o) :
    ∃ conn sub, s.ends.publisher.connections[i]? = some conn ∧ s.ends.subscribers[i]? = some sub ∧
      sub.handed <+: PubSub.expected i o s.trace ∧
      (conn.tcp.sendMsgs = [] → (s.wires i).down = [] → sub.handed = PubSub.expected i o s.trace) := by
  obtain ⟨conn', sub', hconn', hsub', hprefix, hall⟩ := h.serving.receives i o hi
  have hconn := List.getElem?_eq_getElem (l := s.ends.publisher.connections)
    (h.connections ▸ (List.getElem?_eq_some_iff.mp hconn').1)
  have hsub := List.getElem?_eq_getElem (l := s.ends.subscribers)
    (h.subscribers ▸ (List.getElem?_eq_some_iff.mp hsub').1)
  have hmatches := h.matched i _ _ conn' sub' hconn hsub hconn' hsub'
  refine ⟨_, _, hconn, hsub, hmatches.handed ▸ hprefix, fun hqueue hwire => ?_⟩
  obtain ⟨owed, howed, hdown⟩ := hmatches.down
  rw [hdown.drained hqueue hwire] at howed
  rw [hmatches.handed]
  exact hall (List.map_eq_nil_iff.mp howed)

end

/-! ### Main results -/

/-- The options of a subscriber that wants every message as it is. -/
def plain : ValidOptions where
  opts := ⟨false, TCPOptions.NONE, 1⟩
  compression := .inl rfl
  filter_pos := by decide
  filter_le := by decide

/-- A message is published before the options have arrived and another after them, with the count of
the options cut in two on the way up and the second message cut in two on the way down. -/
def early : List WiredEvent :=
  [.connect plain PubSub.idle PubSub.idle, .publish ⟨[5], by decide⟩,
    .subscriberWritable 0 (.upTo 3), .readable 0 .whole, .subscriberWritable 0 .whole,
    .subscriberWritable 0 .whole, .subscriberWritable 0 .whole, .readable 0 .whole,
    .readable 0 .whole, .readable 0 .whole, .publish ⟨[7, 8], by decide⟩, .writable 0 .whole,
    .writable 0 .whole, .writable 0 (.upTo 1), .subscriberReadable 0 .whole,
    .subscriberReadable 0 .whole, .subscriberReadable 0 .whole, .writable 0 .whole,
    .subscriberReadable 0 .whole]

/-- **Publishing over bytes refines publishing of whole messages.** However writes and reads cut the
messages, the run has a run of `PubSub` with the same calls, which ends with the same connections, the
same options and the same messages handed over. -/
theorem bytes_refine_messages (snappy : Snappy) (serializer : OptionsSerializer)
    (events : List WiredEvent)
    (hadmits : Along (onEvent snappy serializer) (Admits snappy) empty events) :
    ∃ s s', run (onEvent snappy serializer) empty events = .ok s ∧
      run (PubSub.onEvent snappy serializer) .empty s.trace = .ok s' ∧
      s.trace.filter PubSubEvent.isCall = events.filterMap WiredEvent.call ∧ Agrees s.ends s' := by
  obtain ⟨s, hrun, ⟨s', h⟩, hcalls⟩ := run_refines hadmits
  exact ⟨s, s', hrun, h.reached, hcalls, h.agrees⟩

theorem bytes_refine_messages_early :
    ∃ s s', run (onEvent PubSub.stored PubSub.fieldwise) empty early = .ok s ∧
      run (PubSub.onEvent PubSub.stored PubSub.fieldwise) .empty s.trace = .ok s' ∧
      s.trace.filter PubSubEvent.isCall = early.filterMap WiredEvent.call ∧ Agrees s.ends s' :=
  bytes_refine_messages PubSub.stored PubSub.fieldwise early (by decide +kernel)

/-- **What each subscriber receives over bytes.** Each subscriber that connected is handed a prefix of
what its options and the moment they arrived select from the messages published, and all of it once its
connection has nothing queued and nothing in flight. -/
theorem bytes_received (snappy : Snappy) (serializer : OptionsSerializer) (events : List WiredEvent)
    (hadmits : Along (onEvent snappy serializer) (Admits snappy) empty events) :
    ∃ s, run (onEvent snappy serializer) empty events = .ok s ∧
      ∀ (i : Nat) o, (connected (events.filterMap WiredEvent.call))[i]? = some o →
        ∃ conn sub, s.ends.publisher.connections[i]? = some conn ∧
          s.ends.subscribers[i]? = some sub ∧ sub.handed <+: PubSub.expected i o s.trace ∧
          (conn.tcp.sendMsgs = [] → (s.wires i).down = [] →
            sub.handed = PubSub.expected i o s.trace) := by
  obtain ⟨s, hrun, ⟨s', h⟩, hcalls⟩ := run_refines hadmits
  refine ⟨s, hrun, fun i o hi => h.receives ?_⟩
  rw [← connected_calls, hcalls]
  exact hi

theorem bytes_received_early :
    ∃ s, run (onEvent PubSub.stored PubSub.fieldwise) empty early = .ok s ∧
      ∀ (i : Nat) o, (connected (early.filterMap WiredEvent.call))[i]? = some o →
        ∃ conn sub, s.ends.publisher.connections[i]? = some conn ∧
          s.ends.subscribers[i]? = some sub ∧ sub.handed <+: PubSub.expected i o s.trace ∧
          (conn.tcp.sendMsgs = [] → (s.wires i).down = [] →
            sub.handed = PubSub.expected i o s.trace) :=
  bytes_received PubSub.stored PubSub.fieldwise early (by decide +kernel)

example : (run (onEvent PubSub.stored PubSub.fieldwise) empty early).map (fun s =>
    (s.ends.subscribers.map TCPSubscribe.handed, (s.wires 0).up, (s.wires 0).down)) =
      .ok ([[[7, 8]]], [], []) := by
  rfl

end Wired

end Ros2Proto
