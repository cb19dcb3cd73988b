import Ros2Proto.Transport.Channel
import Ros2Proto.Transport.ReaderSafety
import Ros2Proto.Transport.Readiness

/-!
# One direction of a connection

A transport reads and writes, and each of the two leaves alone what the other works on, unless it closes
the transport. So a connection is two directions that can be looked at one at a time. In a direction,
what the reader has of the message under way, what is on the wire and what the sender owes are together
the encodings of the messages that were queued and have not been handed over: `Conveys`. The sender may
drop messages by its filter, which only decides what is queued.
-/

namespace Ros2Proto

open FallibleRun

namespace TransportTCP

variable {t t' t'' : TransportTCP} {recv : Recv} {send : Send} {frame : Frame} {msg : Message}
  {rest : List Message}

/-! ### What reading and writing leave alone -/

/-- No more than the members of the reader have changed. -/
def ReadsOnly (t t' : TransportTCP) : Prop :=
  t' = { t with
    reading := t'.reading, readMsg := t'.readMsg, delivered := t'.delivered, received := t'.received }

/-- No more than the members of the writer have changed. -/
def WritesOnly (t t' : TransportTCP) : Prop :=
  t' = { t with
    sent := t'.sent, sendMsgs := t'.sendMsgs
    expectingWrite := t'.expectingWrite, pollCalls := t'.pollCalls }

theorem ReadsOnly.trans (h : ReadsOnly t t') (h' : ReadsOnly t' t'') : ReadsOnly t t'' := by
  rw [ReadsOnly] at h h' ⊢
  rw [h', h]

theorem WritesOnly.trans (h : WritesOnly t t') (h' : WritesOnly t' t'') : WritesOnly t t'' := by
  rw [WritesOnly] at h h' ⊢
  rw [h', h]

theorem readsOnly_read {size : UInt32} {n : Int} {bs : List UInt8}
    (hrun : t.read recv size = .ok (n, bs, t')) :
    n < 0 ∧ t'.closed = true ∨ 0 ≤ n ∧ ReadsOnly t t' := by
  rcases read_cases hrun with ⟨rfl, hclose⟩ | ⟨rfl, -, rfl⟩
  · exact Or.inl ⟨by decide, closed_of_close hclose⟩
  · exact Or.inr ⟨Int.natCast_nonneg _, rfl⟩

theorem readsOnly_endFrame (hrun : t.endFrame frame = .ok t') : ReadsOnly t t' := by
  rw [endFrame] at hrun
  dsimp only at hrun
  split_ifs at hrun <;>
    exact Except.ok.inj hrun ▸ rfl

theorem readsOnly_readNumframes (hrun : t.readNumframes recv = .ok t') :
    t'.closed = true ∨ ReadsOnly t t' := by
  obtain ⟨⟨n, bs, t₁⟩, hread, hrest⟩ := bind_eq_ok_iff.mp hrun
  dsimp only at hrest
  rcases readsOnly_read hread with ⟨hn, hclosed⟩ | ⟨hn, honly⟩
  · rw [if_pos hn] at hrest
    exact Or.inl (Except.ok.inj hrest ▸ hclosed)
  · rw [if_neg (Int.not_lt.mpr hn)] at hrest
    have hstored : ∀ m : Message, ReadsOnly t { t₁ with readMsg := m } := fun m => honly.trans rfl
    split_ifs at hrest
    · obtain ⟨t₂, hclose, hlast⟩ := bind_eq_ok_iff.mp hrest
      have hclosed := closed_of_close hclose
      exact Or.inl (Except.ok.inj hlast ▸ hclosed)
    · exact Or.inr (Except.ok.inj hrest ▸ hstored _)
    · exact Or.inr (Except.ok.inj hrest ▸ hstored _)

theorem readsOnly_readFrame (hrun : t.readFrame recv = .ok t') :
    t'.closed = true ∨ ReadsOnly t t' := by
  rcases readFrame_cases hrun with ⟨frame, hend⟩ | ⟨size, n, bs, t₁, hread, hrest⟩
  · exact Or.inr (readsOnly_endFrame hend)
  · rcases readsOnly_read hread with ⟨hn, hclosed⟩ | ⟨hn, honly⟩
    · rcases hrest with ⟨-, rfl⟩ | ⟨hn', -⟩
      · exact Or.inl hclosed
      · omega
    · have hstored : ∀ m : Message, ReadsOnly t { t₁ with readMsg := m } := fun m => honly.trans rfl
      rcases hrest with ⟨hn', -⟩ | ⟨-, frame, ⟨-, hend⟩ | hend⟩
      · omega
      · exact Or.inr ((hstored _).trans (readsOnly_endFrame hend))
      · exact Or.inr ((hstored _).trans (readsOnly_endFrame hend))

theorem readsOnly_readMessage (hrun : t.readMessage recv = .ok t') (hopen : t'.closed = false) :
    ReadsOnly t t' := by
  have hstart : ReadsOnly t t.startReading := by
    rw [startReading]
    split_ifs <;> rfl
  have hrest : t'.closed = true ∨ ReadsOnly t.startReading t' := by
    rw [readMessage] at hrun
    dsimp only at hrun
    split_ifs at hrun
    · exact readsOnly_readNumframes hrun
    · exact readsOnly_readFrame hrun
  rcases hrest with hclosed | honly
  · rw [hopen] at hclosed
    cases hclosed
  · exact hstart.trans honly

theorem writesOnly_disableWrite (hrun : t.disableWrite = .ok t') : WritesOnly t t' := by
  rw [disableWrite] at hrun
  split_ifs at hrun <;>
    exact Except.ok.inj hrun ▸ rfl

theorem writesOnly_enableWrite (hrun : t.enableWrite = .ok t') : WritesOnly t t' := by
  rw [enableWrite] at hrun
  split_ifs at hrun <;>
    exact Except.ok.inj hrun ▸ rfl

theorem writesOnly_finishFrame (hrun : t.finishFrame msg frame rest = .ok t') : WritesOnly t t' := by
  rw [finishFrame] at hrun
  dsimp only at hrun
  split_ifs at hrun
  · split at hrun
    · cases hrun
    · exact Except.ok.inj hrun ▸ rfl
  · have hqueue : WritesOnly t { t with sendMsgs := rest } := rfl
    exact hqueue.trans (writesOnly_disableWrite hrun)
  · exact Except.ok.inj hrun ▸ rfl
  · exact Except.ok.inj hrun ▸ rfl

theorem writesOnly_write {buffer : List UInt8} {size : UInt32} {n : Int}
    (hrun : t.write send buffer size = .ok (n, t')) :
    n < 0 ∧ t'.closed = true ∨ 0 ≤ n ∧ WritesOnly t t' := by
  rcases write_cases hrun with ⟨rfl, hclose⟩ | ⟨hn, sent, rfl⟩
  · exact Or.inl ⟨by decide, closed_of_close hclose⟩
  · exact Or.inr ⟨hn, rfl⟩

theorem writesOnly_writeFrame (hrun : t.writeFrame send msg rest = .ok t') :
    t'.closed = true ∨ WritesOnly t t' := by
  rcases writeFrame_cases hrun with ⟨frame, hend⟩ | ⟨buffer, size, n, t₁, hwrite, hrest⟩
  · exact Or.inr (writesOnly_finishFrame hend)
  · rcases hrest with ⟨msg', frame, hend⟩ | ⟨-, hclose⟩
    · rcases writesOnly_write hwrite with ⟨-, hclosed⟩ | ⟨-, honly⟩
      · exact Or.inl (keepsClosed_finishFrame _ _ hclosed hend).1
      · exact Or.inr (honly.trans (writesOnly_finishFrame hend))
    · exact Or.inl (closed_of_close hclose)

theorem writesOnly_writeMessage (hrun : t.writeMessage send = .ok t') (hopen : t'.closed = false) :
    WritesOnly t t' := by
  have hall : t'.closed = true ∨ WritesOnly t t' := by
    obtain ⟨msg, rest, -, hframe | ⟨buffer, size, n, t₁, hwrite, hrest⟩⟩ := writeMessage_cases hrun
    · exact writesOnly_writeFrame hframe
    · rcases hrest with ⟨hn, msg', rfl⟩ | ⟨-, hclose⟩
      · rcases writesOnly_write hwrite with ⟨hn', -⟩ | ⟨-, honly⟩
        · omega
        · exact Or.inr (honly.trans rfl)
      · exact Or.inl (closed_of_close hclose)
  rcases hall with hclosed | honly
  · rw [hopen] at hclosed
    cases hclosed
  · exact honly

/-! ### The filter -/

/-- The same transport with another filter, which only `sendFrames` looks at. -/
def withFilter (t : TransportTCP) (filter msgCounter : Int) : TransportTCP :=
  { t with filter := filter, msgCounter := msgCounter }

variable {f c : Int}

theorem close_withFilter (t : TransportTCP) (f c : Int) :
    (t.withFilter f c).close = t.close.map fun u => u.withFilter f c := by
  have hclosed : (t.withFilter f c).closed = t.closed := rfl
  have hsock : (t.withFilter f c).sock = t.sock := rfl
  rw [close, close, hclosed, hsock]
  by_cases h : t.closed = true
  · rw [if_pos h, if_pos h]
    rfl
  · rw [if_neg h, if_neg h]
    by_cases h' : t.sock = -1
    · rw [if_pos h', if_pos h']
      rfl
    · rw [if_neg h', if_neg h']
      rfl

theorem enableWrite_withFilter (t : TransportTCP) (f c : Int) :
    (t.withFilter f c).enableWrite = t.enableWrite.map fun u => u.withFilter f c := by
  have hsync : (t.withFilter f c).synchronous = t.synchronous := rfl
  have hclosed : (t.withFilter f c).closed = t.closed := rfl
  have hexpecting : (t.withFilter f c).expectingWrite = t.expectingWrite := rfl
  rw [enableWrite, enableWrite, hsync, hclosed, hexpecting]
  split_ifs <;> rfl

theorem disableWrite_withFilter (t : TransportTCP) (f c : Int) :
    (t.withFilter f c).disableWrite = t.disableWrite.map fun u => u.withFilter f c := by
  have hsync : (t.withFilter f c).synchronous = t.synchronous := rfl
  have hclosed : (t.withFilter f c).closed = t.closed := rfl
  have hexpecting : (t.withFilter f c).expectingWrite = t.expectingWrite := rfl
  rw [disableWrite, disableWrite, hsync, hclosed, hexpecting]
  split_ifs <;> rfl

theorem write_withFilter (t : TransportTCP) (send : Send) (buffer : List UInt8) (size : UInt32) :
    (t.withFilter f c).write send buffer size =
      (t.write send buffer size).map fun r => (r.1, r.2.withFilter f c) := by
  have hclosed : (t.withFilter f c).closed = t.closed := rfl
  rw [write, write, hclosed]
  split_ifs
  · rfl
  · rfl
  · rfl
  · cases send.result (min size.toNat intMax) with
    | some k => rfl
    | none =>
        rw [close_withFilter]
        cases t.close <;> rfl

theorem finishFrame_withFilter (t : TransportTCP) :
    (t.withFilter f c).finishFrame msg frame rest =
      (t.finishFrame msg frame rest).map fun u => u.withFilter f c := by
  have hqueue : ({ t.withFilter f c with sendMsgs := rest } : TransportTCP)
      = ({ t with sendMsgs := rest } : TransportTCP).withFilter f c := rfl
  rw [finishFrame, finishFrame]
  dsimp only
  split_ifs
  · cases msg.frames[(msg.frameInd + 1).toNat]? <;> rfl
  · rw [hqueue, disableWrite_withFilter]
  · rfl
  · rfl

theorem writeFrame_withFilter (t : TransportTCP) (send : Send) :
    (t.withFilter f c).writeFrame send msg rest =
      (t.writeFrame send msg rest).map fun u => u.withFilter f c := by
  rw [writeFrame, writeFrame]
  cases msg.frames[msg.frameInd.toNat]? with
  | none => rfl
  | some frame =>
      dsimp only
      split_ifs
      · rw [write_withFilter]
        cases t.write send _ _ with
        | error e => rfl
        | ok r =>
            simp only [Except.map, bind, Except.bind]
            split_ifs
            · exact finishFrame_withFilter r.2
            · exact close_withFilter r.2 f c
      · rw [write_withFilter]
        cases t.write send _ _ with
        | error e => rfl
        | ok r =>
            simp only [Except.map, bind, Except.bind]
            split_ifs
            · exact finishFrame_withFilter r.2
            · exact close_withFilter r.2 f c
      · exact finishFrame_withFilter t

theorem writeMessage_withFilter (t : TransportTCP) (send : Send) :
    (t.withFilter f c).writeMessage send = (t.writeMessage send).map fun u => u.withFilter f c := by
  have hqueue : (t.withFilter f c).sendMsgs = t.sendMsgs := rfl
  rw [writeMessage, writeMessage, hqueue]
  cases t.sendMsgs with
  | nil => rfl
  | cons msg rest =>
      dsimp only
      split_ifs
      · rw [write_withFilter]
        cases t.write send _ _ with
        | error e => rfl
        | ok r =>
            simp only [Except.map, bind, Except.bind]
            split_ifs
            · rfl
            · exact close_withFilter r.2 f c
      · exact writeFrame_withFilter t send

theorem onSend_writable_withFilter (t : TransportTCP) (a : Accept) :
    (t.withFilter f c).onSend (.writable a) =
      (t.onSend (.writable a)).map fun u => u.withFilter f c := by
  have hclosed : (t.withFilter f c).closed = t.closed := rfl
  have hexpecting : (t.withFilter f c).expectingWrite = t.expectingWrite := rfl
  have hwriteCb : (t.withFilter f c).writeCb = t.writeCb := rfl
  rw [onSend, onSend, socketUpdate_writable, socketUpdate_writable, hclosed, hexpecting, hwriteCb]
  split_ifs
  · rfl
  · exact writeMessage_withFilter t a.send
  · rfl

/-- The counter that `sendFrames` leaves. -/
def counted (t : TransportTCP) : Int := (t.msgCounter + 1).tmod t.filter

/-- A message that the filter lets through is queued as without a filter. -/
theorem sendFrames_due (hfilter : t.filter ≠ 0) (hdue : t.counted = 0) (frames : List Frame) :
    (t.sendFrames frames).map (fun u => u.withFilter 1 0) = (t.withFilter 1 0).sendFrames frames := by
  have hmessages : (t.withFilter 1 0).messages = t.messages := rfl
  have hqueue : (t.withFilter 1 0).sendMsgs = t.sendMsgs := rfl
  have hcounter : ((t.withFilter 1 0).msgCounter + 1).tmod (t.withFilter 1 0).filter = 0 := rfl
  have hone : (t.withFilter 1 0).filter ≠ 0 := Int.one_ne_zero
  have hpush : ∀ (x y : Except Fault TransportTCP) (msg : Message),
      y = x.map (fun u => u.withFilter 1 0) →
      (x.bind fun u => .ok { u with sendMsgs := u.sendMsgs ++ [msg] }).map (fun u => u.withFilter 1 0)
        = y.bind fun u => .ok { u with sendMsgs := u.sendMsgs ++ [msg] } := by
    rintro x _ msg rfl
    cases x <;> rfl
  rw [counted] at hdue
  rw [sendFrames, sendFrames, hmessages, if_neg hfilter, if_neg hone]
  split_ifs with hoff
  · rfl
  · simp only [hcounter, hdue, hqueue, ne_eq, not_true_eq_false, if_false]
    cases frames[0]? with
    | none => rfl
    | some first =>
        dsimp only
        split_ifs
        · exact hpush _ _ _ (enableWrite_withFilter { t with msgCounter := 0 } 1 0)
        · rfl

/-- A message that the filter drops is only counted. -/
theorem sendFrames_dropped (hmessages : t.messages = true) (hfilter : t.filter ≠ 0)
    (hdrop : t.counted ≠ 0) (frames : List Frame) :
    t.sendFrames frames = .ok { t with msgCounter := t.counted } := by
  rw [counted] at hdrop
  rw [sendFrames, hmessages, if_neg (by decide), if_neg hfilter]
  exact if_pos hdrop

theorem writesOnly_sendFrames {frames : List Frame} (hrun : t.sendFrames frames = .ok t') :
    WritesOnly { t with msgCounter := t.counted } t' := by
  rw [sendFrames] at hrun
  dsimp only at hrun
  split_ifs at hrun
  · exact Except.ok.inj hrun ▸ rfl
  · split at hrun
    · cases hrun
    · obtain ⟨t₁, henable, hlast⟩ := bind_eq_ok_iff.mp hrun
      have hpushed : WritesOnly t₁ t' := Except.ok.inj hlast ▸ rfl
      exact (writesOnly_enableWrite henable).trans hpushed
  · split at hrun
    · cases hrun
    · exact Except.ok.inj hrun ▸ rfl

theorem sendMsgs_enableWrite (hrun : t.enableWrite = .ok t') : t'.sendMsgs = t.sendMsgs := by
  rw [enableWrite] at hrun
  split_ifs at hrun <;>
    exact Except.ok.inj hrun ▸ rfl

/-- What a message sent does to the queue. -/
theorem sendFrames_queue {frames : List Frame} (hrun : t.sendFrames frames = .ok t') :
    t'.filter = t.filter ∧ t'.msgCounter = t.counted ∧
      t'.sendMsgs.map Message.frames
        = t.sendMsgs.map Message.frames ++ if t.counted = 0 then [frames] else [] := by
  have honly := writesOnly_sendFrames hrun
  refine ⟨by rw [honly], by rw [honly], ?_⟩
  have hcounter : ((t.msgCounter + 1).tmod t.filter = 0) = (t.counted = 0) := rfl
  rw [sendFrames] at hrun
  simp only [ne_eq, hcounter] at hrun
  by_cases hdue : t.counted = 0
  · rw [if_pos hdue]
    split_ifs at hrun
    · split at hrun
      · cases hrun
      · obtain ⟨t₁, henable, hlast⟩ := bind_eq_ok_iff.mp hrun
        have hsame := sendMsgs_enableWrite henable
        obtain rfl := Except.ok.inj hlast
        rw [List.map_append, hsame]
        rfl
    · split at hrun
      · cases hrun
      · obtain rfl := Except.ok.inj hrun
        exact List.map_append
  · rw [if_neg hdue, List.append_nil]
    split_ifs at hrun
    exact Except.ok.inj hrun ▸ rfl

/-! ### Both halves of a transport -/

/-- The reader is as it was. -/
structure SameReader (t t' : TransportTCP) : Prop where
  closed : t'.closed = t.closed
  sock : t'.sock = t.sock
  messages : t'.messages = t.messages
  readmsgCb : t'.readmsgCb = t.readmsgCb
  readCb : t'.readCb = t.readCb
  expectingRead : t'.expectingRead = t.expectingRead
  reading : t'.reading = t.reading
  readMsg : t'.readMsg = t.readMsg
  delivered : t'.delivered = t.delivered
  received : t'.received = t.received

/-- The writer is as it was. -/
structure SameWriter (t t' : TransportTCP) : Prop where
  closed : t'.closed = t.closed
  synchronous : t'.synchronous = t.synchronous
  messages : t'.messages = t.messages
  writeCb : t'.writeCb = t.writeCb
  expectingWrite : t'.expectingWrite = t.expectingWrite
  sendMsgs : t'.sendMsgs = t.sendMsgs
  sent : t'.sent = t.sent

theorem SameReader.refl (t : TransportTCP) : SameReader t t :=
  ⟨rfl, rfl, rfl, rfl, rfl, rfl, rfl, rfl, rfl, rfl⟩

theorem SameWriter.refl (t : TransportTCP) : SameWriter t t :=
  ⟨rfl, rfl, rfl, rfl, rfl, rfl, rfl⟩

theorem SameWriter.trans (h : SameWriter t t') (h' : SameWriter t' t'') : SameWriter t t'' :=
  ⟨h'.closed.trans h.closed, h'.synchronous.trans h.synchronous, h'.messages.trans h.messages,
    h'.writeCb.trans h.writeCb, h'.expectingWrite.trans h.expectingWrite,
    h'.sendMsgs.trans h.sendMsgs, h'.sent.trans h.sent⟩

theorem WritesOnly.sameReader (h : WritesOnly t t') : SameReader t t' := by
  rw [h]
  exact ⟨rfl, rfl, rfl, rfl, rfl, rfl, rfl, rfl, rfl, rfl⟩

theorem ReadsOnly.sameWriter (h : ReadsOnly t t') : SameWriter t t' := by
  rw [h]
  exact ⟨rfl, rfl, rfl, rfl, rfl, rfl, rfl⟩

/-- `disableRead` and `setFilter`, as `onOptions` calls them. -/
theorem disableRead_setFilter (hopen : t.closed = false) (hasync : t.synchronous = false)
    (hf : 0 < f) :
    ∃ t₁ t₂, t.disableRead = .ok t₁ ∧ t₁.setFilter f = .ok t₂ ∧ t.SameWriter t₂ ∧
      t₂.expectingRead = false ∧ t₂.filter = f ∧ t₂.msgCounter = f - 1 := by
  rw [disableRead, if_neg (by simp [hasync]), if_neg (by simp [hopen])]
  split_ifs with hread
  · exact ⟨_, _, rfl, if_pos hf, ⟨rfl, rfl, rfl, rfl, rfl, rfl, rfl⟩, rfl, rfl, rfl⟩
  · rw [Bool.not_eq_true] at hread
    exact ⟨_, _, rfl, if_pos hf, ⟨rfl, rfl, rfl, rfl, rfl, rfl, rfl⟩, hread, rfl, rfl⟩

theorem Listening.congr (h : t.Listening) (hsame : SameReader t t') : t'.Listening where
  opened := hsame.closed.trans h.opened
  sock := hsame.sock ▸ h.sock
  messages := hsame.messages.trans h.messages
  readmsgCb := hsame.readmsgCb.trans h.readmsgCb
  readCb := hsame.readCb.trans h.readCb
  expectingRead := hsame.expectingRead.trans h.expectingRead

theorem at_congr (hsame : SameReader t t') (p : Progress) : t'.At p ↔ t.At p := by
  have hstart : t'.startReading.readMsg = t.startReading.readMsg := by
    rw [startReading, startReading, hsame.reading]
    split_ifs
    · exact hsame.readMsg
    · simp only [hsame.readMsg]
  have hframe : ∀ done frame left, t'.AtFrame done frame left ↔ t.AtFrame done frame left := by
    intro done frame left
    constructor
    · rintro ⟨hreading, hfilled, hframes, hind⟩
      rw [hsame.reading] at hreading
      rw [hsame.readMsg] at hfilled hframes hind
      exact ⟨hreading, hfilled, hframes, hind⟩
    · rintro ⟨hreading, hfilled, hframes, hind⟩
      rw [← hsame.reading] at hreading
      rw [← hsame.readMsg] at hfilled hframes hind
      exact ⟨hreading, hfilled, hframes, hind⟩
  cases p with
  | count bs => simp only [At, hstart]
  | size done sz left => simp only [At, hframe, hsame.readMsg]
  | payload done n got left => simp only [At, hframe, hsame.readMsg]
  | closed => simp only [At, hsame.closed]

theorem ReadsUpTo.congr {ms : List (List Payload)} {p : Progress} (h : t.ReadsUpTo ms p)
    (hsame : SameReader t t') : t'.ReadsUpTo ms p where
  valid := h.valid
  listening hopen := (h.listening hopen).congr hsame
  place := (at_congr hsame p).mpr h.place
  messages := h.messages
  delivered := hsame.delivered.trans h.delivered
  received := hsame.received.trans h.received

/-! ### A sender with a filter -/

/-- An open transport that sends every message its filter lets through, between two events. -/
structure Transmits (t : TransportTCP) : Prop where
  sending : (t.withFilter 1 0).Sending
  filter : t.filter ≠ 0

theorem Transmits.opened (h : t.Transmits) : t.closed = false := h.sending.opened

theorem Transmits.congr (h : t.Transmits) (hsame : SameWriter t t') (hfilter : t'.filter ≠ 0) :
    t'.Transmits where
  sending :=
    { opened := hsame.closed.trans h.sending.opened
      asynchronous := hsame.synchronous.trans h.sending.asynchronous
      messages := hsame.messages.trans h.sending.messages
      filter := rfl
      msgCounter := rfl
      writeCb := hsame.writeCb.trans h.sending.writeCb
      expectingWrite := by
        show t'.expectingWrite = true ↔ t'.sendMsgs ≠ []
        rw [hsame.expectingWrite, hsame.sendMsgs]
        exact h.sending.expectingWrite
      queued := fun m hm => h.sending.queued m (hsame.sendMsgs ▸ hm) }
  filter := hfilter

theorem transmits_passing (sock : Nat) (uninit : Message) (heap : Nat → UInt8) :
    (passing sock uninit heap).Transmits where
  sending := sending_passing sock uninit heap
  filter := Int.one_ne_zero

/-- Where nothing is owed, nothing is queued. -/
theorem Transmits.sendMsgs_of_todo (h : t.Transmits) (htodo : t.todo = []) : t.sendMsgs = [] := by
  cases hqueue : t.sendMsgs with
  | nil => rfl
  | cons m rest =>
      have hfront : (t.withFilter 1 0).sendMsgs = m :: rest := hqueue
      obtain ⟨pre, cur, post, hm⟩ := h.sending.queued m (by simp [hfront])
      obtain ⟨u, -, hsends⟩ := writeMessage_next h.sending hfront .whole
      have hempty : (t.withFilter 1 0).todo = [] := htodo
      have hfits := hsends.fits
      have hasked := hm.asked_pos
      rw [hempty, List.length_nil, Accept.whole_whole, intMax] at hfits
      omega

/-- A whole write makes what is owed less. -/
theorem Transmits.write_shrinks (h : t.Transmits) (htodo : t.todo ≠ [])
    (hrun : t.onSend (.writable .whole) = .ok t') : t'.todo.length < t.todo.length := by
  cases hqueue : t.sendMsgs with
  | nil =>
      rw [todo, hqueue] at htodo
      exact absurd rfl htodo
  | cons m rest =>
      have hfront : (t.withFilter 1 0).sendMsgs = m :: rest := hqueue
      obtain ⟨pre, cur, post, hm⟩ := h.sending.queued m (by simp [hfront])
      obtain ⟨u, hwrite, hsends⟩ := writeMessage_next h.sending hfront .whole
      have hsend := (onSend_writable h.sending hfront .whole).trans hwrite
      rw [onSend_writable_withFilter, hrun] at hsend
      obtain rfl := Except.ok.inj hsend
      have hleft : t'.todo = t.todo.drop _ := hsends.todo
      have hasked := hm.asked_pos
      have hpos := List.length_pos_iff.mpr htodo
      rw [hleft, Accept.whole_whole, List.length_drop, intMax]
      omega

/-- Nothing happens on a writability event with an empty queue. -/
theorem Transmits.idle (h : t.Transmits) (hqueue : t.sendMsgs = []) (a : Accept) :
    t.onSend (.writable a) = .ok t := by
  have hexpecting : t.expectingWrite ≠ true := fun hwrite => h.sending.expectingWrite.mp hwrite hqueue
  rw [onSend, socketUpdate_writable, h.opened, if_neg Bool.false_ne_true,
    if_neg fun hboth => hexpecting hboth.1]

/-- Nothing happens on a readiness event that is not expected. -/
theorem onReadable_quiet (hopen : t.closed = false) (hread : t.expectingRead = false) (c : Chunk) :
    t.onReadable c = .ok t := by
  have hout : ¬ POLLIN &&& POLLOUT ≠ 0 := by decide
  have herr : ¬ (POLLIN &&& POLLERR ≠ 0 ∨ POLLIN &&& POLLHUP ≠ 0 ∨ POLLIN &&& POLLNVAL ≠ 0) := by
    decide
  rw [onReadable, socketUpdate, hopen, hread]
  simp only [hout, herr, false_and, and_false, Bool.false_eq_true, if_false, bind, Except.bind]

/-- A writability event moves bytes from what is owed to the socket. -/
theorem Transmits.writable (h : t.Transmits) {a : Accept} (hcut : ¬ t.CutsEmptySize (.writable a)) :
    ∃ t', t.onSend (.writable a) = .ok t' ∧ t'.Transmits ∧ WritesOnly t t' ∧
      t.sent <+: t'.sent ∧ t'.sent ++ t'.todo = t.sent ++ t.todo := by
  have hcut' : ¬ (t.withFilter 1 0).CutsEmptySize (.writable a) := hcut
  obtain ⟨u, hrun, hsending, hsent, hledger⟩ := h.sending.step hcut'
  rw [onSend_writable_withFilter] at hrun
  obtain ⟨t', hrun', rfl⟩ := map_eq_ok_iff.mp hrun
  have hopen : t'.closed = false := hsending.opened
  have honly : WritesOnly t t' := by
    rw [onSend, socketUpdate_writable] at hrun'
    split_ifs at hrun'
    · exact Except.ok.inj hrun' ▸ rfl
    · exact writesOnly_writeMessage hrun' hopen
    · exact Except.ok.inj hrun' ▸ rfl
  refine ⟨t', hrun', ⟨hsending, ?_⟩, honly, hsent, ?_⟩
  · have hfilter : t'.filter = t.filter := by rw [honly]
    rw [hfilter]
    exact h.filter
  · rw [SendEvent.encoding, List.append_nil] at hledger
    exact hledger

/-- A message that is sent is owed, if the filter lets it through. -/
theorem Transmits.sendFrames (h : t.Transmits) (o : OutFrames) :
    ∃ t', t.sendFrames o.frames = .ok t' ∧ t'.Transmits ∧
      WritesOnly { t with msgCounter := t.counted } t' ∧ t'.sent = t.sent ∧
      t'.todo = t.todo ++ if t.counted = 0 then messageCode.encode o.payloads else [] := by
  have hfilter : ∀ t' : TransportTCP, WritesOnly { t with msgCounter := t.counted } t' →
      t'.filter ≠ 0 := by
    intro t' honly
    have hsame : t'.filter = t.filter := by rw [honly]
    rw [hsame]
    exact h.filter
  by_cases hdue : t.counted = 0
  · obtain ⟨u, hrun, hsending, hsent, htodo⟩ := onSend_sendFrames h.sending o
    rw [onSend, ← sendFrames_due h.filter hdue] at hrun
    obtain ⟨t', hrun', rfl⟩ := map_eq_ok_iff.mp hrun
    have honly := writesOnly_sendFrames hrun'
    rw [if_pos hdue]
    exact ⟨t', hrun', ⟨hsending, hfilter t' honly⟩, honly, hsent, htodo⟩
  · have hmessages : t.messages = true := h.sending.messages
    have hrun := sendFrames_dropped hmessages h.filter hdue o.frames
    have honly := writesOnly_sendFrames hrun
    rw [if_neg hdue, List.append_nil]
    exact ⟨_, hrun, ⟨h.sending, hfilter _ honly⟩, honly, rfl, rfl⟩

end TransportTCP

/-! ### One direction -/

/-- A message of one frame, which is all of its buffer. -/
def OutFrames.single (data : List UInt8) (h : data.length < 2 ^ 32) : OutFrames where
  frames := [.ofBytes data]
  nonempty := by simp
  count := by simp
  backed := by
    intro f hf
    rw [List.mem_singleton.mp hf, ofBytes_size h]
    exact le_rfl

theorem OutFrames.payloads_single {data : List UInt8} (h : data.length < 2 ^ 32) :
    (OutFrames.single data h).payloads = [data] := by
  show [(Frame.ofBytes data).payload] = [data]
  rw [Frame.payload, ofBytes_size h]
  exact congrArg (fun bs => [bs]) List.take_length

/-- A read hands over one message at most. -/
theorem Progress.length_finished_le (p : Progress) (new : List UInt8) :
    (p.finished new).length ≤ 1 := by
  have hframe : ∀ done q left, (messagesAfterFrame done q left).length ≤ 1 := by
    intro done q left
    cases left <;> simp [messagesAfterFrame]
  cases p with
  | count bs => exact Nat.zero_le 1
  | size done sz left =>
      rw [finished]
      split_ifs
      · exact hframe done [] left
      · exact Nat.zero_le 1
  | payload done n got left =>
      rw [finished]
      split_ifs
      · exact Nat.zero_le 1
      · exact hframe done _ left
  | closed => exact Nat.zero_le 1

/-- What the reader has of a message, what is on the wire and what the sender owes are these
messages. -/
structure Conveys (sender : TransportTCP) (wire : List UInt8) (receiver : TransportTCP)
    (owed : List (List Payload)) : Prop where
  transmits : sender.Transmits
  valid : ∀ m ∈ owed, messageCode.Valid m
  reads : ∃ ms p, receiver.ReadsUpTo ms p ∧
    p.bytes ++ wire ++ sender.todo = owed.flatMap messageCode.encode

namespace Conveys

variable {sender sender' receiver receiver' : TransportTCP} {wire : List UInt8}
  {owed : List (List Payload)} {a : Accept}

theorem congr (h : Conveys sender wire receiver owed) (hwriter : sender.SameWriter sender')
    (hfilter : sender'.filter ≠ 0) (hreader : receiver.SameReader receiver') :
    Conveys sender' wire receiver' owed where
  transmits := h.transmits.congr hwriter hfilter
  valid := h.valid
  reads := by
    obtain ⟨ms, p, hreads, hledger⟩ := h.reads
    refine ⟨ms, p, hreads.congr hreader, ?_⟩
    rw [TransportTCP.todo, hwriter.sendMsgs]
    exact hledger

/-- Encodings of messages never close the reader. -/
theorem ne_closed {p : Progress} {rest : List UInt8} (hvalid : ∀ m ∈ owed, messageCode.Valid m)
    (hledger : p.bytes ++ rest = owed.flatMap messageCode.encode) : p ≠ .closed := by
  rintro rfl
  have hzero : Progress.closed.bytes = zeroCount := rfl
  rw [hzero] at hledger
  cases owed with
  | nil => cases hledger
  | cons m owed =>
      rw [List.flatMap_cons] at hledger
      exact noneComplete_zeroCount rest m _ (hvalid m (by simp)) hledger

/-- The sender is asked to send a message. -/
theorem sendFrames (h : Conveys sender wire receiver owed) (o : OutFrames) :
    ∃ t, sender.sendFrames o.frames = .ok t ∧ sender.SameReader t ∧
      Conveys t wire receiver (owed ++ if sender.counted = 0 then [o.payloads] else []) := by
  obtain ⟨t, hrun, htransmits, honly, -, htodo⟩ := h.transmits.sendFrames o
  obtain ⟨ms, p, hreads, hledger⟩ := h.reads
  have hsame := honly.sameReader
  refine ⟨t, hrun, ⟨hsame.closed, hsame.sock, hsame.messages, hsame.readmsgCb, hsame.readCb,
    hsame.expectingRead, hsame.reading, hsame.readMsg, hsame.delivered, hsame.received⟩, htransmits, ?_,
    ms, p, hreads, ?_⟩
  · intro m hm
    obtain hm | hm := List.mem_append.mp hm
    · exact h.valid m hm
    · split_ifs at hm
      · rw [List.mem_singleton.mp hm]
        exact o.valid
      · cases hm
  · rw [htodo, ← List.append_assoc, hledger, List.flatMap_append]
    split_ifs
    · rw [List.flatMap_singleton]
    · rfl

/-- The socket of the sender accepts some of the bytes owed. -/
theorem write (h : Conveys sender wire receiver owed) (hcut : ¬ sender.CutsEmptySize (.writable a)) :
    ∃ t, sender.onSend (.writable a) = .ok t ∧ sender.WritesOnly t ∧
      Conveys t (wire ++ t.sent.drop sender.sent.length) receiver owed := by
  obtain ⟨t, hrun, htransmits, honly, ⟨new, hnew⟩, hstream⟩ := h.transmits.writable hcut
  obtain ⟨ms, p, hreads, hledger⟩ := h.reads
  refine ⟨t, hrun, honly, htransmits, h.valid, ms, p, hreads, ?_⟩
  have htodo : new ++ t.todo = sender.todo := by
    rw [← hnew, List.append_assoc] at hstream
    exact List.append_cancel_left hstream
  rw [← hledger, ← htodo, ← hnew, List.drop_left]
  simp only [List.append_assoc]

/-- The receiver reads from the wire, and hands over no more than the first message owed. -/
theorem read (h : Conveys sender wire receiver owed)
    (hcut : ¬ receiver.CutsZeroSize (Channel.chunk wire a)) :
    ∃ t, receiver.onReadable (Channel.chunk wire a) = .ok t ∧ receiver.ReadsOnly t ∧
      ∃ done rest, done.length ≤ 1 ∧ owed = done ++ rest ∧
        t.delivered = receiver.delivered ++ done.map (List.map Frame.ofBytes) ∧
        Conveys sender (wire.drop (t.received.length - receiver.received.length)) t rest := by
  obtain ⟨ms, p, hreads, hledger⟩ := h.reads
  have hopen := ne_closed h.valid (List.append_assoc _ _ _ ▸ hledger)
  have hlisten := hreads.listening hopen
  obtain ⟨t, hrun, hsim⟩ :=
    TransportTCP.onReadable_next hlisten hopen hreads.valid hreads.place (Channel.chunk wire a)
  rw [TransportTCP.cutsZeroSize_iff hlisten hopen hreads.place hreads.valid] at hcut
  have hle : ((Channel.chunk wire a).bytes (min p.asked intMax)).length ≤ p.asked :=
    ((Channel.chunk wire a).bounded _).trans (Nat.min_le_left _ _)
  have hfront : (Channel.chunk wire a).bytes (min p.asked intMax) <+: wire := List.take_prefix _ wire
  generalize (Channel.chunk wire a).bytes (min p.asked intMax) = new at hsim hcut hle hfront
  obtain ⟨hbytes, hfinished⟩ := Progress.bytes_next hreads.valid hopen hle hcut
  have hvalid := Progress.next_valid hreads.valid hle
  obtain ⟨left, rfl⟩ := hfront
  rw [← List.append_assoc, hbytes, List.append_assoc, List.append_assoc] at hledger
  have hcompletes : messageCode.Completes
      ((p.finished new).flatMap messageCode.encode ++ (p.next new).bytes) (p.finished new) :=
    ⟨hfinished, _, rfl, Progress.noneComplete_bytes hvalid⟩
  obtain ⟨rest, rfl⟩ := hcompletes.prefix_of_append h.valid
    ((List.append_assoc _ _ _).trans hledger)
  rw [List.flatMap_append, List.append_cancel_left_eq] at hledger
  have hrest : ∀ m ∈ rest, messageCode.Valid m := fun m hm => h.valid m (by simp [hm])
  have hlisten' := hsim.listening (ne_closed hrest hledger)
  refine ⟨t, hrun, ?_, p.finished new, rest, Progress.length_finished_le p new, rfl, hsim.delivered,
    h.transmits, hrest, ms ++ p.finished new, p.next new,
    ⟨hvalid, hsim.listening, hsim.place, ?_, ?_, ?_⟩, ?_⟩
  · rw [TransportTCP.onReadable_listening hlisten] at hrun
    exact TransportTCP.readsOnly_readMessage hrun hlisten'.opened
  · intro m hm
    exact (List.mem_append.mp hm).elim (hreads.messages m) (hfinished m)
  · rw [hsim.delivered, hreads.delivered, List.map_append]
  · rw [hsim.received, hreads.received, List.append_assoc, hbytes, List.flatMap_append,
      List.append_assoc]
  · rw [hsim.received, List.length_append, Nat.add_sub_cancel_left, List.drop_left, List.append_assoc]
    exact hledger

/-- Where nothing is owed or on the wire, no message is. -/
theorem drained (h : Conveys sender wire receiver owed) (hqueue : sender.sendMsgs = [])
    (hwire : wire = []) : owed = [] := by
  obtain ⟨ms, p, hreads, hledger⟩ := h.reads
  rw [TransportTCP.todo, hqueue, hwire, List.flatMap_nil, List.append_nil, List.append_nil] at hledger
  cases owed with
  | nil => rfl
  | cons m owed =>
      rw [List.flatMap_cons] at hledger
      exact absurd hledger (Progress.noneComplete_bytes hreads.valid m _ (h.valid m (by simp)))

/-- Once everything has been sent, a whole read takes whole fields. -/
theorem not_cuts_whole (h : Conveys sender wire receiver owed) (hqueue : sender.sendMsgs = []) :
    ¬ receiver.CutsZeroSize (Channel.chunk wire .whole) := by
  obtain ⟨ms, p, hreads, hledger⟩ := h.reads
  have hopen := ne_closed h.valid (List.append_assoc _ _ _ ▸ hledger)
  rw [TransportTCP.cutsZeroSize_iff (hreads.listening hopen) hopen hreads.place hreads.valid]
  rw [TransportTCP.todo, hqueue, List.flatMap_nil, List.append_nil] at hledger
  have hvalid := hreads.valid
  cases p with
  | count bs => exact id
  | payload done n got left => exact id
  | closed => exact absurd rfl hopen
  | size done sz left =>
      rintro ⟨hshort, -⟩
      -- A field cut short is the end of the stream, which ends with a message.
      have hsz : sz.length < 4 := hvalid.1
      have htaken : (Channel.chunk wire .whole).bytes (min (Progress.size done sz left).asked intMax)
          = wire.take (min (4 - sz.length) intMax) := rfl
      rw [htaken, List.length_append, List.length_take, intMax] at hshort
      have hcut : (Progress.size done (sz ++ wire) left).Valid := by
        refine ⟨?_, hvalid.2⟩
        rw [List.length_append]
        omega
      have hbytes : (Progress.size done (sz ++ wire) left).bytes = owed.flatMap messageCode.encode := by
        rw [← hledger, Progress.bytes, Progress.bytes]
        simp only [List.append_assoc]
      have hnone := Progress.noneComplete_bytes hcut
      rw [hbytes] at hnone
      cases owed with
      | nil =>
          have hlength := congrArg List.length hbytes
          rw [Progress.bytes, List.length_append, List.length_append,
            LittleEndian.length_encode] at hlength
          simp at hlength
      | cons m owed => exact hnone m _ (h.valid m (by simp)) List.flatMap_cons

/-- A whole read makes what is on the wire less. -/
theorem read_shrinks (h : Conveys sender wire receiver owed) (hwire : wire ≠ [])
    {t : TransportTCP} (hrun : receiver.onReadable (Channel.chunk wire .whole) = .ok t) :
    (wire.drop (t.received.length - receiver.received.length)).length < wire.length := by
  obtain ⟨ms, p, hreads, hledger⟩ := h.reads
  have hopen := ne_closed h.valid (List.append_assoc _ _ _ ▸ hledger)
  have hlisten := hreads.listening hopen
  obtain ⟨t', hrun', hsim⟩ :=
    TransportTCP.onReadable_next hlisten hopen hreads.valid hreads.place (Channel.chunk wire .whole)
  obtain rfl := Except.ok.inj (hrun'.symm.trans hrun)
  have hasked := Progress.asked_pos hreads.valid hopen
  have hlength := List.length_pos_iff.mpr hwire
  rw [hsim.received, List.length_append, Nat.add_sub_cancel_left, List.length_drop]
  have hchunk : ((Channel.chunk wire .whole).bytes (min p.asked intMax)).length =
      min (min p.asked intMax) wire.length := List.length_take
  rw [hchunk, intMax]
  omega

/-- A sender that owes nothing has an empty queue. -/
theorem sent_all (h : Conveys sender wire receiver []) : sender.sendMsgs = [] := by
  obtain ⟨ms, p, -, hledger⟩ := h.reads
  exact h.transmits.sendMsgs_of_todo (List.append_eq_nil_iff.mp hledger).2

end Conveys

end Ros2Proto
