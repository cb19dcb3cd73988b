import Ros2Proto.Transport.Reader
import Ros2Proto.Transport.Sender

/-!
# Two transports and the bytes between them

A sending transport, a receiving one and the bytes that the first socket has accepted and the second
has not handed over. `sendFrames` calls, writability events and readiness events interleave freely.
A size field is written and read whole; counts and payloads are cut anywhere.

The bytes received, in flight and owed are together the encodings of the messages sent, so what the
receiver has completed is a prefix of them, and all of them once nothing is in flight or owed.
-/

namespace Ros2Proto

open FallibleRun

structure Channel where
  sender : TransportTCP
  /-- the bytes in flight, in the order they were sent -/
  wire : List UInt8
  receiver : TransportTCP

/-- An event at one of the two ends. How many of the bytes given or available a write or a read moves
is the network's choice. -/
inductive ChannelEvent
  | sendFrames (o : OutFrames)
  | writable (a : Accept)
  | readable (a : Accept)

/-- The messages an event passes to `sendFrames`. -/
def ChannelEvent.messages : ChannelEvent → List (List Payload)
  | .sendFrames o => [o.payloads]
  | .writable _ => []
  | .readable _ => []

namespace Channel

/-- What a read returns: the front of the bytes in flight. -/
def chunk (wire : List UInt8) (a : Accept) : Chunk where
  bytes n := wire.take (a.count n)
  bounded n := by
    rw [List.length_take]
    exact (Nat.min_le_left _ _).trans (a.bounded n)

def onEvent (l : Channel) : ChannelEvent → Except Fault Channel
  | .sendFrames o => do
    let sender ← l.sender.onSend (.sendFrames o)
    .ok { l with sender := sender }
  | .writable a => do
    let sender ← l.sender.onSend (.writable a)
    .ok { l with sender := sender, wire := l.wire ++ sender.sent.drop l.sender.sent.length }
  | .readable a => do
    let receiver ← l.receiver.onReadable (chunk l.wire a)
    .ok { l with
      receiver := receiver
      wire := l.wire.drop (receiver.received.length - l.receiver.received.length) }

/-- A write or a read of a size field moves all the bytes it lacks. In a run that keeps to this, that
is the whole field. -/
def MovesSizesWhole (l : Channel) : ChannelEvent → Prop
  | .sendFrames _ => True
  | .writable a => ∀ m ∈ l.sender.sendMsgs.head?, m.numframesFilled = 4 → m.frameSzFilled < 4 →
      m.frameSzFilled.toNat + a.count (4 - m.frameSzFilled.toNat) = 4
  | .readable a => l.receiver.closed = false → l.receiver.reading = true →
      l.receiver.readMsg.numframesFilled = 4 → l.receiver.readMsg.frameSzFilled < 4 →
      l.receiver.readMsg.frameSzFilled.toNat
        + ((chunk l.wire a).bytes (4 - l.receiver.readMsg.frameSzFilled.toNat)).length = 4

instance (l : Channel) : (e : ChannelEvent) → Decidable (l.MovesSizesWhole e)
  | .sendFrames _ => inferInstanceAs (Decidable True)
  | .writable _ => inferInstanceAs (Decidable (∀ _ ∈ _, _ → _ → _))
  | .readable _ => inferInstanceAs (Decidable (_ → _ → _ → _ → _))

/-- The bytes handed to the channel so far or still owed by the sender. -/
def stream (l : Channel) : List UInt8 := l.sender.sent ++ l.sender.todo

/-- Both ends between two events, with every byte accepted either received or in flight. -/
structure Linked (l : Channel) : Prop where
  sending : l.sender.Sending
  reading : ∃ ms p, l.receiver.ReadsUpTo ms p
  fifo : l.sender.sent = l.receiver.received ++ l.wire

theorem Linked.step {l : Channel} {e : ChannelEvent} (h : l.Linked) (hwhole : l.MovesSizesWhole e) :
    ∃ l', l.onEvent e = .ok l' ∧ l'.Linked ∧
      l'.stream = l.stream ++ e.messages.flatMap messageCode.encode := by
  cases e with
  | sendFrames o =>
      obtain ⟨t', hrun, hsending, hsent, htodo⟩ := TransportTCP.onSend_sendFrames h.sending o
      refine ⟨{ l with sender := t' }, ?_, ⟨hsending, h.reading, ?_⟩, ?_⟩
      · simp only [onEvent, hrun, bind, Except.bind]
      · exact hsent.trans h.fifo
      · simp only [stream, hsent, htodo, ChannelEvent.messages, List.flatMap_singleton,
          List.append_assoc]
  | writable a =>
      have hcut : ¬ l.sender.CutsEmptySize (.writable a) := by
        rintro ⟨m, hm, hcount, hempty, hshort⟩
        have := hwhole m hm hcount ((lt_four_iff _).mpr (by omega))
        omega
      obtain ⟨t', hrun, hsending, ⟨new, hnew⟩, hstream⟩ := h.sending.step hcut
      refine ⟨{ l with sender := t', wire := l.wire ++ t'.sent.drop l.sender.sent.length }, ?_,
        ⟨hsending, h.reading, ?_⟩, ?_⟩
      · simp only [onEvent, hrun, bind, Except.bind]
      · simp only [← hnew, List.drop_left, ← List.append_assoc, ← h.fifo]
      · exact hstream
  | readable a =>
      obtain ⟨ms, p, hreads⟩ := h.reading
      have hcut : ¬ l.receiver.CutsZeroSize (chunk l.wire a) := by
        rintro ⟨hopen, hreading, hcount, hsz, hshort, -⟩
        exact absurd (hwhole hopen hreading hcount hsz) hshort.ne
      obtain ⟨t', hrun, hreads'⟩ := hreads.step hcut
      refine ⟨{ l with
        receiver := t'
        wire := l.wire.drop (t'.received.length - l.receiver.received.length) }, ?_,
        ⟨h.sending, hreads', ?_⟩, ?_⟩
      · simp only [onEvent, hrun, bind, Except.bind]
      · rw [h.fifo]
        obtain hsame | ⟨n, hreceived⟩ := hreads.received_step hrun
        · simp [hsame]
        · simp only [hreceived, chunk, List.length_append, Nat.add_sub_cancel_left,
            List.append_assoc]
          rw [List.prefix_iff_eq_append.mp (List.take_prefix _ l.wire)]
      · simp [stream, ChannelEvent.messages]

/-- A sender and a receiver, just connected to each other. -/
def connected (sock sock' : Nat) (uninit uninit' : Message) (heap heap' : Nat → UInt8) : Channel where
  sender := .passing sock uninit heap
  wire := []
  receiver := .passing sock' uninit' heap'

theorem linked_connected (sock sock' : Nat) (uninit uninit' : Message) (heap heap' : Nat → UInt8) :
    (connected sock sock' uninit uninit' heap heap').Linked where
  sending := TransportTCP.sending_passing sock uninit heap
  reading := ⟨_, _, TransportTCP.readsUpTo_passing sock' uninit' heap'⟩
  fifo := rfl

/-- What is received, in flight and owed, against the messages passed to `sendFrames`. -/
theorem run_linked {l : Channel} {events : List ChannelEvent} (h : l.Linked)
    (hwhole : Along onEvent MovesSizesWhole l events) :
    ∃ l', run onEvent l events = .ok l' ∧ l'.Linked ∧
      l'.stream = l.stream ++ (events.flatMap ChannelEvent.messages).flatMap messageCode.encode := by
  rw [List.flatMap_assoc]
  exact run_ledger stream (fun _ _ hlinked hmoves => hlinked.step hmoves) h hwhole

theorem messages_valid (events : List ChannelEvent) :
    ∀ m ∈ events.flatMap ChannelEvent.messages, messageCode.Valid m := by
  intro m hm
  obtain ⟨e, -, he⟩ := List.mem_flatMap.mp hm
  cases e with
  | sendFrames o =>
      rw [List.mem_singleton.mp he]
      exact o.valid
  | writable a => cases he
  | readable a => cases he

/-- **The channel delivers the messages sent, in order.** In a run that moves every size field whole,
the frame vectors given to `readmsg_cb_` are a prefix of those passed to `sendFrames`, frame by frame
and byte by byte, and all of them once the send queue and the channel are empty. -/
theorem channel_delivers_in_order (sock sock' : Nat) (uninit uninit' : Message)
    (heap heap' : Nat → UInt8) (events : List ChannelEvent)
    (hwhole : Along onEvent MovesSizesWhole (connected sock sock' uninit uninit' heap heap') events) :
    ∃ l, run onEvent (connected sock sock' uninit uninit' heap heap') events = .ok l ∧
      l.receiver.delivered
        <+: (events.flatMap ChannelEvent.messages).map (List.map Frame.ofBytes) ∧
      (l.sender.sendMsgs = [] → l.wire = [] →
        l.receiver.delivered
          = (events.flatMap ChannelEvent.messages).map (List.map Frame.ofBytes)) := by
  obtain ⟨l, hrun, hlinked, hstream⟩ :=
    run_linked (linked_connected sock sock' uninit uninit' heap heap') hwhole
  obtain ⟨ms, p, hreads⟩ := hlinked.reading
  obtain ⟨ms, hdelivered, hcompletes, -⟩ := hreads.matchesGrammar
  have hbytes : l.receiver.received ++ (l.wire ++ l.sender.todo)
      = (events.flatMap ChannelEvent.messages).flatMap messageCode.encode := by
    rw [← List.append_assoc, ← hlinked.fifo]
    exact hstream
  refine ⟨l, hrun, ?_, fun hqueue hwire => ?_⟩
  · rw [hdelivered]
    exact (hcompletes.prefix_of_append (messages_valid events) hbytes).map _
  · have hall : l.receiver.received
        = (events.flatMap ChannelEvent.messages).flatMap messageCode.encode := by
      rw [← hbytes, hwire, TransportTCP.todo, hqueue]
      simp
    rw [hall] at hcompletes
    rw [hdelivered, hcompletes.eq_of_flatMap (messages_valid events)]

/-- A message of an empty frame and a frame of two bytes, with the count cut at the sender and the
payload cut at the receiver. -/
theorem channel_delivers_cut_message :
    ∃ l, run onEvent (connected 3 4 ⟨[], 0, 0, 0, 0, 0, 0⟩ ⟨[], 0, 0, 0, 0, 0, 0⟩
        (fun _ => 0) (fun _ => 0))
        [.sendFrames ⟨[⟨[], 0⟩, ⟨[7, 8], 2⟩], by decide, by decide, by decide⟩,
          .writable (.upTo 3), .readable .whole, .writable .whole, .writable .whole,
          .writable .whole, .readable .whole, .readable .whole, .readable .whole,
          .writable .whole, .readable (.upTo 1), .readable .whole] = .ok l ∧
      l.receiver.delivered <+: [[⟨[], 0⟩, ⟨[7, 8], 2⟩]] ∧
      (l.sender.sendMsgs = [] → l.wire = [] →
        l.receiver.delivered = [[⟨[], 0⟩, ⟨[7, 8], 2⟩]]) :=
  channel_delivers_in_order 3 4 _ _ _ _ _ (by decide)

end Channel

end Ros2Proto
