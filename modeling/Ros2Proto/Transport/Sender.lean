import Ros2Proto.Base.Runs
import Ros2Proto.Transport.Wire
import Ros2Proto.Transport.ReaderStep

/-!
# The sender against the encoding

A run of the sender interleaves `sendFrames` with writability events, each with the number of bytes
its `write` is allowed. What the queue still owes the socket is `todo`. A step moves bytes from the
front of `todo` to the socket and a call of `sendFrames` adds an encoding at its end, so `sent ++
todo` is the concatenation of the encodings.

One step breaks this. The end of a frame is tested after every write, also one of the size field, and
an empty frame has nothing behind its size. A write that accepts part of an empty frame's size ends
the frame, and the rest of the size is never sent.
-/

namespace Ros2Proto

open LittleEndian FallibleRun

/-- An argument of `sendFrames`: at least one frame, a count that fits its field, and buffers that
hold what their sizes say. -/
structure OutFrames where
  frames : List Frame
  nonempty : frames ≠ []
  count : frames.length < 2 ^ 32
  backed : ∀ f ∈ frames, f.size.toNat ≤ f.data.length

/-- The bytes of the frames. -/
def OutFrames.payloads (o : OutFrames) : List Payload := o.frames.map Frame.payload

theorem payload_length {f : Frame} (h : f.size.toNat ≤ f.data.length) :
    f.payload.length = f.size.toNat := by
  rw [Frame.payload, List.length_take, Nat.min_eq_left h]

theorem OutFrames.valid (o : OutFrames) : messageCode.Valid o.payloads := by
  rw [messageCode_valid, OutFrames.payloads, List.length_map]
  refine ⟨⟨o.count, List.length_pos_iff.mpr o.nonempty⟩, fun p hp => ?_⟩
  obtain ⟨f, hf, rfl⟩ := List.mem_map.mp hp
  rw [payload_length (o.backed f hf)]
  exact f.size.toNat_lt

/-- The answers of a `write` that does not fail: for each number of bytes given, up to that many
accepted, none of them when the call would block. -/
structure Accept where
  count : Nat → Nat
  bounded : ∀ n, count n ≤ n

namespace Accept

def send (a : Accept) : Send where
  result n := some (a.count n)
  bounded n _ h := by
    cases h
    exact a.bounded n

/-- All bytes given. -/
def Whole (a : Accept) : Prop := ∀ n, a.count n = n

def whole : Accept := ⟨id, fun _ => le_rfl⟩

theorem whole_whole : whole.Whole := fun _ => rfl

/-- Up to `k` bytes. -/
def upTo (k : Nat) : Accept := ⟨fun n => min k n, fun _ => Nat.min_le_right _ _⟩

end Accept

/-! ### What a message still owes -/

/-- A frame on the wire. -/
def Frame.wire (f : Frame) : List UInt8 := bytes f.size ++ f.payload

theorem Frame.wire_eq {f : Frame} (h : f.size.toNat ≤ f.data.length) :
    f.wire = frameCode.encode f.payload := by
  rw [Frame.wire, frameCode_encode, payload_length h, bytes]

/-- The bytes of a queued message that the socket has not accepted. -/
def Message.todo (m : Message) : List UInt8 :=
  (bytes m.numframes).drop m.numframesFilled.toNat ++
    match m.frames.drop m.frameInd.toNat with
    | [] => []
    | cur :: post =>
      (bytes m.frameSz).drop m.frameSzFilled.toNat ++ cur.payload.drop m.frameFilled.toNat
        ++ post.flatMap Frame.wire

/-- The frame `cur` is the message's current one, with `pre` before it and `post` behind. -/
structure Message.InFrame (m : Message) (pre : List Frame) (cur : Frame) (post : List Frame) :
    Prop where
  frames : m.frames = pre ++ cur :: post
  frameInd : m.frameInd.toNat = pre.length
  count : m.frames.length < 2 ^ 32
  backed : ∀ f ∈ m.frames, f.size.toNat ≤ f.data.length

/-- The cursors of a message between two writes: each part is sent before the next is begun, and a
frame that is all sent has been left. -/
structure Message.SendsAt (m : Message) (pre : List Frame) (cur : Frame) (post : List Frame) : Prop
    extends m.InFrame pre cur post where
  frameSz : m.frameSz = cur.size
  numframesFilled : m.numframesFilled.toNat ≤ 4
  frameSzFilled : m.frameSzFilled.toNat ≤ 4
  size_after_count : m.numframesFilled.toNat < 4 → m.frameSzFilled = 0
  payload_after_size : m.frameSzFilled.toNat < 4 → m.frameFilled = 0
  unfinished : m.frameSzFilled.toNat = 4 → m.frameFilled.toNat < cur.size.toNat

namespace Message.InFrame

variable {m : Message} {pre post : List Frame} {cur : Frame}

theorem current (h : m.InFrame pre cur post) : m.frames[m.frameInd.toNat]? = some cur := by
  rw [h.frames, h.frameInd, List.getElem?_append_right le_rfl]
  simp

theorem cur_backed (h : m.InFrame pre cur post) : cur.size.toNat ≤ cur.data.length :=
  h.backed cur (by simp [h.frames])

theorem todo_eq (h : m.InFrame pre cur post) :
    m.todo = (bytes m.numframes).drop m.numframesFilled.toNat
      ++ ((bytes m.frameSz).drop m.frameSzFilled.toNat ++ cur.payload.drop m.frameFilled.toNat
        ++ post.flatMap Frame.wire) := by
  rw [Message.todo, h.frames, h.frameInd, List.drop_left]

/-- Advancing past `cur` leads to the next frame. -/
theorem succ_toNat (h : m.InFrame pre cur post) : (m.frameInd + 1).toNat = pre.length + 1 := by
  have hcount := h.count
  rw [h.frames, List.length_append, List.length_cons] at hcount
  exact toNat_succ_cursor h.frameInd (by omega)

end Message.InFrame

/-- The message `sendFrames` builds. -/
def Message.fresh (frames : List Frame) (first : Frame) : Message where
  frames := frames
  numframes := UInt32.ofNat frames.length
  numframesFilled := 0
  frameInd := 0
  frameFilled := 0
  frameSz := first.size
  frameSzFilled := 0

theorem Message.fresh_sendsAt (o : OutFrames) {first : Frame} {rest : List Frame}
    (h : o.frames = first :: rest) : (Message.fresh o.frames first).SendsAt [] first rest where
  frames := h
  frameInd := rfl
  count := o.count
  backed := o.backed
  frameSz := rfl
  numframesFilled := by simp [Message.fresh]
  frameSzFilled := by simp [Message.fresh]
  size_after_count _ := rfl
  payload_after_size _ := rfl
  unfinished := by simp [Message.fresh]

theorem Message.fresh_todo (o : OutFrames) {first : Frame} {rest : List Frame}
    (h : o.frames = first :: rest) :
    (Message.fresh o.frames first).todo = messageCode.encode o.payloads := by
  have hwire : ∀ l : List Frame, (∀ f ∈ l, f.size.toNat ≤ f.data.length) →
      l.flatMap Frame.wire = (l.map Frame.payload).flatMap frameCode.encode := by
    intro l hl
    rw [List.flatMap_map]
    exact List.flatMap_congr fun f hf => Frame.wire_eq (hl f hf)
  have hcount : bytes (UInt32.ofNat o.frames.length) = encode 4 o.frames.length := by
    rw [bytes, UInt32.toNat_ofNat', Nat.mod_eq_of_lt o.count]
  rw [(Message.fresh_sendsAt o h).todo_eq, messageCode_encode, OutFrames.payloads, List.length_map,
    ← hcount, ← hwire _ o.backed, h, List.flatMap_cons]
  simp [Message.fresh, Frame.wire]

/-- How many bytes the next write of the message is given. -/
def Message.asked (m : Message) : Nat :=
  if m.numframesFilled.toNat < 4 then 4 - m.numframesFilled.toNat
  else if m.frameSzFilled.toNat < 4 then 4 - m.frameSzFilled.toNat
  else m.frameSz.toNat - m.frameFilled.toNat

theorem Message.SendsAt.asked_pos {m : Message} {pre post : List Frame} {cur : Frame}
    (h : m.SendsAt pre cur post) : 0 < m.asked := by
  rw [Message.asked]
  split_ifs with hcount hsz
  · omega
  · omega
  · have := h.unfinished (le_antisymm h.frameSzFilled (not_lt.mp hsz))
    rw [h.frameSz]
    omega

/-- How many bytes are dropped when the next write accepts `k`: what is missing of the size of an
empty frame. -/
def Message.lost (m : Message) (k : Nat) : Nat :=
  if m.numframesFilled = 4 ∧ m.frameSz = 0 then 4 - (m.frameSzFilled.toNat + k) else 0

namespace TransportTCP

/-- The bytes the queue still owes the socket. -/
def todo (t : TransportTCP) : List UInt8 := t.sendMsgs.flatMap Message.todo

/-- An open transport that sends every message, between two events. -/
structure Sending (t : TransportTCP) : Prop where
  opened : t.closed = false
  asynchronous : t.synchronous = false
  messages : t.messages = true
  filter : t.filter = 1
  msgCounter : t.msgCounter = 0
  writeCb : t.writeCb = true
  expectingWrite : t.expectingWrite = true ↔ t.sendMsgs ≠ []
  queued : ∀ m ∈ t.sendMsgs, ∃ pre cur post, m.SendsAt pre cur post

/-- The step from `t` to `t'` sends the first `k` bytes owed and drops the next `lost`. -/
structure Sends (t : TransportTCP) (k lost : Nat) (t' : TransportTCP) : Prop where
  sending : t'.Sending
  sent : t'.sent = t.sent ++ t.todo.take k
  todo : t'.todo = t.todo.drop (k + lost)
  fits : k + lost ≤ t.todo.length

/-- A step that was given the front of what is owed. -/
theorem Sends.of_buffer {t t' : TransportTCP} {buffer behind : List UInt8} {k lost : Nat}
    (hsending : t'.Sending) (htodo : t.todo = buffer ++ behind) (hfit : k + lost ≤ buffer.length)
    (hsent : t'.sent = t.sent ++ buffer.take k)
    (htodo' : t'.todo = buffer.drop (k + lost) ++ behind) : t.Sends k lost t' where
  sending := hsending
  sent := by rw [hsent, htodo, List.take_append_of_le_length (by omega)]
  todo := by rw [htodo', htodo, List.drop_append_of_le_length hfit]
  fits := by rw [htodo, List.length_append]; omega

/-- What is owed, from the front message's cursors on. -/
theorem todo_front {t : TransportTCP} {m : Message} {rest : List Message} {pre post : List Frame}
    {cur : Frame} (hq : t.sendMsgs = m :: rest) (hm : m.InFrame pre cur post) :
    t.todo = (bytes m.numframes).drop m.numframesFilled.toNat
      ++ ((bytes m.frameSz).drop m.frameSzFilled.toNat ++ (cur.payload.drop m.frameFilled.toNat
        ++ (post.flatMap Frame.wire ++ rest.flatMap Message.todo))) := by
  rw [todo, hq, List.flatMap_cons, hm.todo_eq]
  simp only [List.append_assoc]

theorem write_ok {t : TransportTCP} (a : Accept) (buffer : List UInt8) (size : UInt32)
    (hopen : t.closed = false) (hsize : 0 < size.toNat) (hbuffer : size.toNat ≤ buffer.length) :
    t.write a.send buffer size = .ok (a.count (min size.toNat intMax),
      { t with sent := t.sent ++ buffer.take (a.count (min size.toNat intMax)) }) := by
  have hne : size ≠ 0 := by
    rintro rfl
    simp at hsize
  simp [write, hopen, hne, hbuffer.not_gt, Accept.send]

theorem enableWrite_ok {t : TransportTCP} (hopen : t.closed = false)
    (hasync : t.synchronous = false) (hidle : t.expectingWrite = false) :
    t.enableWrite = .ok { t with
      pollCalls := t.pollCalls ++ [.addEvents t.sock POLLOUT]
      expectingWrite := true } := by
  simp [enableWrite, hopen, hasync, hidle]

theorem disableWrite_ok {t : TransportTCP} (hopen : t.closed = false)
    (hasync : t.synchronous = false) (hexpecting : t.expectingWrite = true) :
    t.disableWrite = .ok { t with
      pollCalls := t.pollCalls ++ [.delEvents t.sock POLLOUT]
      expectingWrite := false } := by
  simp [disableWrite, hopen, hasync, hexpecting]

/-- The front message replaced by one that still has bytes to send. -/
theorem Sending.setFront {t : TransportTCP} {m m' : Message} {rest : List Message}
    (h : t.Sending) (hq : t.sendMsgs = m :: rest) (hm' : ∃ pre cur post, m'.SendsAt pre cur post)
    (sent : List UInt8) : Sending { t with sent := sent, sendMsgs := m' :: rest } where
  opened := h.opened
  asynchronous := h.asynchronous
  messages := h.messages
  filter := h.filter
  msgCounter := h.msgCounter
  writeCb := h.writeCb
  expectingWrite := by
    rw [h.expectingWrite, hq]
    simp
  queued q hqueued := by
    obtain rfl | hrest := List.mem_cons.mp hqueued
    · exact hm'
    · exact h.queued q (hq ▸ List.mem_cons_of_mem m hrest)

/-- The end of a frame: its bytes are all sent, and what is left to send is what lies behind it. -/
theorem finishFrame_done {t : TransportTCP} {front m : Message} {rest : List Message}
    {pre post : List Frame} {cur : Frame} (h : t.Sending) (hq : t.sendMsgs = front :: rest)
    (hm : m.InFrame pre cur post) (hcount : m.numframesFilled = 4)
    (hdone : m.frameFilled = cur.size) (sent : List UInt8) :
    ∃ t', { t with sent := sent }.finishFrame m cur rest = .ok t' ∧ t'.Sending ∧ t'.sent = sent ∧
      t'.todo = post.flatMap Frame.wire ++ rest.flatMap Message.todo := by
  have hind := hm.succ_toNat
  rw [finishFrame, if_pos hdone]
  cases post with
  | cons next post =>
      have hframes : m.frames = (pre ++ [cur]) ++ next :: post := by simp [hm.frames]
      have hlt : (m.frameInd + 1).toNat < m.frames.length := by
        rw [hind, hframes]
        simp
      have hnext : m.frames[(m.frameInd + 1).toNat]? = some next := by
        rw [hind, hframes, List.getElem?_append_right (by simp)]
        simp
      have hat : Message.SendsAt { m with
          frameInd := m.frameInd + 1
          frameFilled := 0
          frameSz := next.size
          frameSzFilled := 0 } (pre ++ [cur]) next post :=
        { frames := hframes
          frameInd := by simpa using hind
          count := hm.count
          backed := hm.backed
          frameSz := rfl
          numframesFilled := by simp [hcount]
          frameSzFilled := by simp
          size_after_count := by simp
          payload_after_size := by simp
          unfinished := by simp }
      simp only [hlt, hnext, if_true]
      refine ⟨_, rfl, h.setFront hq ⟨_, _, _, hat⟩ sent, rfl, ?_⟩
      rw [todo, List.flatMap_cons, hat.todo_eq]
      simp [hcount, Frame.wire]
  | nil =>
      have hlast : ¬ (m.frameInd + 1).toNat < m.frames.length := by
        rw [hind, hm.frames]
        simp
      have hqueued : ∀ q ∈ rest, ∃ pre cur post, q.SendsAt pre cur post := fun q hqueued =>
        h.queued q (hq ▸ List.mem_cons_of_mem front hqueued)
      have hexpecting : t.expectingWrite = true := by
        rw [h.expectingWrite, hq]
        simp
      simp only [hlast, if_false]
      cases rest with
      | nil =>
          simp only [List.length_nil, if_true]
          refine ⟨_, disableWrite_ok h.opened h.asynchronous hexpecting, ?_, rfl, rfl⟩
          exact ⟨h.opened, h.asynchronous, h.messages, h.filter, h.msgCounter, h.writeCb,
            by simp, by simp⟩
      | cons q qs =>
          rw [if_neg (by simp)]
          refine ⟨_, rfl, ?_, rfl, rfl⟩
          exact ⟨h.opened, h.asynchronous, h.messages, h.filter, h.msgCounter, h.writeCb,
            by simp [hexpecting], hqueued⟩

/-! ### What each phase writes -/

section

variable {t : TransportTCP} {m : Message} {rest : List Message} {cur : Frame}

theorem writeMessage_numframes (hq : t.sendMsgs = m :: rest) (hcount : m.numframesFilled.toNat < 4)
    (send : Send) :
    t.writeMessage send = (t.write send ((bytes m.numframes).drop m.numframesFilled.toNat)
      (4 - m.numframesFilled)).bind fun r =>
        if 0 ≤ r.1 then .ok { r.2 with
          sendMsgs := { m with numframesFilled := m.numframesFilled + wrapU32 r.1 } :: rest }
        else r.2.close := by
  rw [writeMessage, hq]
  simp only [(lt_four_iff _).mpr hcount, if_true]
  rfl

theorem writeMessage_frameSz (hq : t.sendMsgs = m :: rest) (hcount : m.numframesFilled = 4)
    (hcur : m.frames[m.frameInd.toNat]? = some cur) (hsz : m.frameSzFilled.toNat < 4) (send : Send) :
    t.writeMessage send = (t.write send ((bytes m.frameSz).drop m.frameSzFilled.toNat)
      (4 - m.frameSzFilled)).bind fun r =>
        if 0 ≤ r.1 then
          r.2.finishFrame { m with frameSzFilled := m.frameSzFilled + wrapU32 r.1 } cur rest
        else r.2.close := by
  have hpast : ¬ m.numframesFilled < 4 := by simp [hcount]
  rw [writeMessage, hq]
  simp only [hpast, if_false, writeFrame, hcur, (lt_four_iff _).mpr hsz, if_true]
  rfl

/-- What `write` returned goes into a `uint32_t` here, and the message advances even by a failure. -/
theorem writeMessage_payload (hq : t.sendMsgs = m :: rest) (hcount : m.numframesFilled = 4)
    (hcur : m.frames[m.frameInd.toNat]? = some cur) (hsz : m.frameSzFilled = 4)
    (hleft : 0 < cur.size - m.frameFilled) (send : Send) :
    t.writeMessage send = (t.write send (cur.data.drop m.frameFilled.toNat)
      (cur.size - m.frameFilled)).bind fun r =>
        r.2.finishFrame { m with frameFilled := m.frameFilled + wrapU32 r.1 } cur rest := by
  have hpast : ¬ m.numframesFilled < 4 := by simp [hcount]
  have hpastSz : ¬ m.frameSzFilled < 4 := by simp [hsz]
  rw [writeMessage, hq]
  simp only [hpast, hpastSz, if_false, writeFrame, hcur, hleft, if_true, UInt32.zero_le]
  rfl

end

/-! ### What a write that does not fail leaves -/

section

variable {t : TransportTCP} {m : Message} {rest : List Message} {pre post : List Frame} {cur : Frame}

theorem writeNumframes_ok (h : t.Sending) (hq : t.sendMsgs = m :: rest) (hm : m.SendsAt pre cur post)
    (hcount : m.numframesFilled.toNat < 4) (a : Accept) :
    ∃ k, a.count (min m.asked intMax) = k ∧ k ≤ 4 - m.numframesFilled.toNat ∧
      t.writeMessage a.send = .ok { t with
        sent := t.sent ++ ((bytes m.numframes).drop m.numframesFilled.toNat).take k
        sendMsgs := { m with
          numframesFilled := m.numframesFilled + UInt32.ofNat k } :: rest } := by
  have hleft : (4 - m.numframesFilled).toNat = 4 - m.numframesFilled.toNat :=
    toNat_sub_cursor hm.numframesFilled
  have hasked : m.asked = (4 - m.numframesFilled).toNat := by
    rw [Message.asked, if_pos hcount, hleft]
  have hwrite := write_ok a ((bytes m.numframes).drop m.numframesFilled.toNat)
    (4 - m.numframesFilled) h.opened (by omega) (by simp [hleft])
  rw [← hasked] at hwrite
  refine ⟨_, rfl, (a.bounded _).trans ((Nat.min_le_left _ _).trans (by omega)), ?_⟩
  rw [writeMessage_numframes hq hcount, hwrite]
  simp only [Except.bind, Int.natCast_nonneg, if_true, wrapU32_natCast]

theorem writeFrameSz_ok (h : t.Sending) (hq : t.sendMsgs = m :: rest) (hm : m.SendsAt pre cur post)
    (hcount : m.numframesFilled = 4) (hsz : m.frameSzFilled.toNat < 4) (a : Accept) :
    ∃ k, a.count (min m.asked intMax) = k ∧ k ≤ 4 - m.frameSzFilled.toNat ∧
      t.writeMessage a.send = { t with
        sent := t.sent ++ ((bytes m.frameSz).drop m.frameSzFilled.toNat).take k }.finishFrame
          { m with frameSzFilled := m.frameSzFilled + UInt32.ofNat k } cur rest := by
  have hleft : (4 - m.frameSzFilled).toNat = 4 - m.frameSzFilled.toNat :=
    toNat_sub_cursor hm.frameSzFilled
  have hasked : m.asked = (4 - m.frameSzFilled).toNat := by
    rw [Message.asked, if_neg (by simp [hcount]), if_pos hsz, hleft]
  have hwrite := write_ok a ((bytes m.frameSz).drop m.frameSzFilled.toNat)
    (4 - m.frameSzFilled) h.opened (by omega) (by simp [hleft])
  rw [← hasked] at hwrite
  refine ⟨_, rfl, (a.bounded _).trans ((Nat.min_le_left _ _).trans (by omega)), ?_⟩
  rw [writeMessage_frameSz hq hcount hm.current hsz, hwrite]
  simp only [Except.bind, Int.natCast_nonneg, if_true, wrapU32_natCast]

theorem writePayload_ok (h : t.Sending) (hq : t.sendMsgs = m :: rest) (hm : m.SendsAt pre cur post)
    (hcount : m.numframesFilled = 4) (hsz : m.frameSzFilled = 4) (a : Accept) :
    ∃ k, a.count (min m.asked intMax) = k ∧ k ≤ cur.size.toNat - m.frameFilled.toNat ∧
      t.writeMessage a.send = { t with
        sent := t.sent ++ (cur.data.drop m.frameFilled.toNat).take k }.finishFrame
          { m with frameFilled := m.frameFilled + UInt32.ofNat k } cur rest := by
  have hlt : m.frameFilled.toNat < cur.size.toNat := hm.unfinished (by simp [hsz])
  have hbacked : (cur.data.drop m.frameFilled.toNat).length
      = cur.data.length - m.frameFilled.toNat := List.length_drop
  have hcurBacked := hm.cur_backed
  have hleft : (cur.size - m.frameFilled).toNat = cur.size.toNat - m.frameFilled.toNat :=
    toNat_sub_cursor hlt.le
  have hasked : m.asked = (cur.size - m.frameFilled).toNat := by
    rw [Message.asked, if_neg (by simp [hcount]), if_neg (by simp [hsz]), hleft, hm.frameSz]
  have hwrite := write_ok a (cur.data.drop m.frameFilled.toNat) (cur.size - m.frameFilled)
    h.opened (by omega) (by omega)
  rw [← hasked] at hwrite
  refine ⟨_, rfl, (a.bounded _).trans ((Nat.min_le_left _ _).trans (by omega)), ?_⟩
  rw [writeMessage_payload hq hcount hm.current hsz ((pos_iff _).mpr (by omega)), hwrite]
  simp only [Except.bind, wrapU32_natCast]

end

/-- The count is cut anywhere without harm. -/
theorem writeNumframes_next {t : TransportTCP} {m : Message} {rest : List Message}
    {pre post : List Frame} {cur : Frame} (h : t.Sending) (hq : t.sendMsgs = m :: rest)
    (hm : m.SendsAt pre cur post) (hcount : m.numframesFilled.toNat < 4) (a : Accept) :
    ∃ t', t.writeMessage a.send = .ok t' ∧
      t.Sends (a.count (min m.asked intMax)) (m.lost (a.count (min m.asked intMax))) t' := by
  obtain ⟨k, hcountIs, hk, hrun⟩ := writeNumframes_ok h hq hm hcount a
  have hlost : m.lost k = 0 := by
    rw [Message.lost, if_neg]
    rintro ⟨hfour, -⟩
    simp [hfour] at hcount
  have hfilled : (m.numframesFilled + UInt32.ofNat k).toNat = m.numframesFilled.toNat + k :=
    toNat_add_cursor (by omega)
  have hat : Message.SendsAt { m with
      numframesFilled := m.numframesFilled + UInt32.ofNat k } pre cur post :=
    { hm with
      numframesFilled := by simp only [hfilled]; omega
      size_after_count := fun _ => hm.size_after_count hcount }
  rw [hcountIs, hlost, hrun]
  refine ⟨_, rfl, .of_buffer (h.setFront hq ⟨_, _, _, hat⟩ _) (todo_front hq hm.toInFrame)
    (by simpa using hk) rfl ?_⟩
  refine (todo_front rfl hat.toInFrame).trans ?_
  simp only [hfilled, Nat.add_zero, List.drop_drop]

/-- The size. Where the frame is empty, any write of it ends the frame. -/
theorem writeFrameSz_next {t : TransportTCP} {m : Message} {rest : List Message}
    {pre post : List Frame} {cur : Frame} (h : t.Sending) (hq : t.sendMsgs = m :: rest)
    (hm : m.SendsAt pre cur post) (hcount : m.numframesFilled = 4)
    (hsz : m.frameSzFilled.toNat < 4) (a : Accept) :
    ∃ t', t.writeMessage a.send = .ok t' ∧
      t.Sends (a.count (min m.asked intMax)) (m.lost (a.count (min m.asked intMax))) t' := by
  obtain ⟨k, hcountIs, hk, hrun⟩ := writeFrameSz_ok h hq hm hcount hsz a
  have hnone : m.frameFilled = 0 := hm.payload_after_size hsz
  have hfilled : (m.frameSzFilled + UInt32.ofNat k).toNat = m.frameSzFilled.toNat + k :=
    toNat_add_cursor (by omega)
  have htodo : t.todo = (bytes m.frameSz).drop m.frameSzFilled.toNat ++ (cur.payload
      ++ (post.flatMap Frame.wire ++ rest.flatMap Message.todo)) := by
    simp [todo_front hq hm.toInFrame, hcount, hnone]
  rw [hcountIs, hrun]
  have hframe : Message.InFrame { m with
      frameSzFilled := m.frameSzFilled + UInt32.ofNat k } pre cur post := { hm with }
  by_cases hempty : cur.size = 0
  · have hlost : m.lost k = 4 - (m.frameSzFilled.toNat + k) :=
      if_pos ⟨hcount, hm.frameSz.trans hempty⟩
    obtain ⟨t', hfinish, hsending, hsent, htodo'⟩ := finishFrame_done h hq hframe hcount
      (hnone.trans hempty.symm) _
    refine ⟨t', hfinish, .of_buffer hsending htodo (by simp [hlost]; omega) hsent ?_⟩
    rw [htodo', List.drop_drop, List.drop_eq_nil_of_le (by simp [hlost]; omega), Frame.payload,
      hempty]
    simp
  · have hlost : m.lost k = 0 := if_neg fun hc => hempty (hm.frameSz.symm.trans hc.2)
    have hat : Message.SendsAt { m with
        frameSzFilled := m.frameSzFilled + UInt32.ofNat k } pre cur post :=
      { hframe with
        frameSz := hm.frameSz
        numframesFilled := hm.numframesFilled
        frameSzFilled := by simp only [hfilled]; omega
        size_after_count := fun hlt => by simp [hcount] at hlt
        payload_after_size := fun _ => hnone
        unfinished := fun _ => by
          rw [hnone]
          exact Nat.pos_of_ne_zero fun hzero => hempty (UInt32.toNat_inj.mp hzero) }
    have hmore : ¬ m.frameFilled = cur.size := fun hzero => hempty (hzero.symm.trans hnone)
    simp only [hlost, finishFrame, hmore, if_false]
    refine ⟨_, rfl, .of_buffer (h.setFront hq ⟨_, _, _, hat⟩ _) htodo (by simpa using hk) rfl ?_⟩
    refine (todo_front rfl hat.toInFrame).trans ?_
    simp [hfilled, hcount, hnone]

/-- The payload. Its last byte ends the frame. -/
theorem writePayload_next {t : TransportTCP} {m : Message} {rest : List Message}
    {pre post : List Frame} {cur : Frame} (h : t.Sending) (hq : t.sendMsgs = m :: rest)
    (hm : m.SendsAt pre cur post) (hcount : m.numframesFilled = 4) (hsz : m.frameSzFilled = 4)
    (a : Accept) :
    ∃ t', t.writeMessage a.send = .ok t' ∧
      t.Sends (a.count (min m.asked intMax)) (m.lost (a.count (min m.asked intMax))) t' := by
  obtain ⟨k, hcountIs, hk, hrun⟩ := writePayload_ok h hq hm hcount hsz a
  have hlt : m.frameFilled.toNat < cur.size.toNat := hm.unfinished (by simp [hsz])
  have hcurBacked := hm.cur_backed
  have hnonempty : cur.size ≠ 0 := by
    intro hzero
    simp [hzero] at hlt
  have hlost : m.lost k = 0 := if_neg fun hc => hnonempty (hm.frameSz.symm.trans hc.2)
  have hfilled : (m.frameFilled + UInt32.ofNat k).toNat = m.frameFilled.toNat + k :=
    toNat_add_cursor (by have := cur.size.toNat_lt; omega)
  have hpayload : (cur.payload.drop m.frameFilled.toNat).length
      = cur.size.toNat - m.frameFilled.toNat := by
    rw [List.length_drop, payload_length hcurBacked]
  have htake : (cur.data.drop m.frameFilled.toNat).take k
      = (cur.payload.drop m.frameFilled.toNat).take k := by
    rw [Frame.payload, List.drop_take, List.take_take, Nat.min_eq_left hk]
  have htodo : t.todo = cur.payload.drop m.frameFilled.toNat
      ++ (post.flatMap Frame.wire ++ rest.flatMap Message.todo) := by
    simp [todo_front hq hm.toInFrame, hcount, hsz]
  rw [hcountIs, hlost, hrun, htake]
  have hframe : Message.InFrame { m with
      frameFilled := m.frameFilled + UInt32.ofNat k } pre cur post := { hm with }
  by_cases hend : m.frameFilled + UInt32.ofNat k = cur.size
  · have hall : k = cur.size.toNat - m.frameFilled.toNat := by
      rw [← hend, hfilled]
      omega
    obtain ⟨t', hfinish, hsending, hsent, htodo'⟩ := finishFrame_done h hq hframe hcount hend _
    refine ⟨t', hfinish, .of_buffer hsending htodo (by omega) hsent ?_⟩
    rw [htodo', List.drop_eq_nil_of_le (by omega), List.nil_append]
  · have hat : Message.SendsAt { m with
        frameFilled := m.frameFilled + UInt32.ofNat k } pre cur post :=
      { hframe with
        frameSz := hm.frameSz
        numframesFilled := hm.numframesFilled
        frameSzFilled := hm.frameSzFilled
        size_after_count := fun hlt => by simp [hcount] at hlt
        payload_after_size := fun hlt => by simp [hsz] at hlt
        unfinished := fun _ => by
          have hne : (m.frameFilled + UInt32.ofNat k).toNat ≠ cur.size.toNat := fun heq =>
            hend (UInt32.toNat_inj.mp heq)
          change (m.frameFilled + UInt32.ofNat k).toNat < cur.size.toNat
          omega }
    simp only [finishFrame, hend, if_false]
    refine ⟨_, rfl, .of_buffer (h.setFront hq ⟨_, _, _, hat⟩ _) htodo (by omega) rfl ?_⟩
    refine (todo_front rfl hat.toInFrame).trans ?_
    simp [hfilled, hcount, hsz]

/-- One write event of the front message. -/
theorem writeMessage_next {t : TransportTCP} {m : Message} {rest : List Message} (h : t.Sending)
    (hq : t.sendMsgs = m :: rest) (a : Accept) :
    ∃ t', t.writeMessage a.send = .ok t' ∧
      t.Sends (a.count (min m.asked intMax)) (m.lost (a.count (min m.asked intMax))) t' := by
  obtain ⟨pre, cur, post, hm⟩ := h.queued m (by simp [hq])
  by_cases hcount : m.numframesFilled.toNat < 4
  · exact writeNumframes_next h hq hm hcount a
  · have hfour : m.numframesFilled = 4 :=
      UInt32.toNat_inj.mp (le_antisymm hm.numframesFilled (not_lt.mp hcount))
    by_cases hsz : m.frameSzFilled.toNat < 4
    · exact writeFrameSz_next h hq hm hfour hsz a
    · exact writePayload_next h hq hm hfour
        (UInt32.toNat_inj.mp (le_antisymm hm.frameSzFilled (not_lt.mp hsz))) a

/-! ### Events -/

/-- An event of a run of the sender: a call of `sendFrames`, or `socketUpdate` with `POLLOUT`. -/
inductive SendEvent
  | sendFrames (o : OutFrames)
  | writable (a : Accept)

def onSend (t : TransportTCP) : SendEvent → Except Fault TransportTCP
  | .sendFrames o => t.sendFrames o.frames
  | .writable a => t.socketUpdate POLLOUT (.give []) a.send

/-- The bytes an event adds to the stream. -/
def SendEvent.encoding : SendEvent → List UInt8
  | .sendFrames o => messageCode.encode o.payloads
  | .writable _ => []

/-- The write of this event moves part of an empty frame's size field, or none of it. -/
def CutsEmptySize (t : TransportTCP) : SendEvent → Prop
  | .sendFrames _ => False
  | .writable a => ∃ m ∈ t.sendMsgs.head?, m.numframesFilled = 4 ∧ m.frameSz = 0 ∧
      m.frameSzFilled.toNat + a.count (4 - m.frameSzFilled.toNat) < 4

/-- A call of `sendFrames` adds its encoding to what is owed. -/
theorem onSend_sendFrames {t : TransportTCP} (h : t.Sending) (o : OutFrames) :
    ∃ t', t.onSend (.sendFrames o) = .ok t' ∧ t'.Sending ∧ t'.sent = t.sent ∧
      t'.todo = t.todo ++ messageCode.encode o.payloads := by
  obtain ⟨first, behind, hframes⟩ := List.exists_cons_of_ne_nil o.nonempty
  have hcounter : (t.msgCounter + 1).tmod t.filter = 0 := by rw [h.msgCounter, h.filter]; rfl
  have hfilter : ¬ t.filter = 0 := by rw [h.filter]; decide
  have hfirst : o.frames[0]? = some first := by rw [hframes]; rfl
  have hfresh := Message.fresh_sendsAt o hframes
  have htodo := Message.fresh_todo o hframes
  have hqueued : ∀ q ∈ t.sendMsgs ++ [Message.fresh o.frames first],
      ∃ pre cur post, q.SendsAt pre cur post := by
    intro q hq
    obtain hq | hq := List.mem_append.mp hq
    · exact h.queued q hq
    · rw [List.mem_singleton.mp hq]
      exact ⟨_, _, _, hfresh⟩
  have hmessages : (!t.messages) = false := by rw [h.messages]; rfl
  simp only [onSend, sendFrames, hmessages, hfilter, hcounter, hfirst, bind, Except.bind,
    Bool.false_eq_true, if_false, ne_eq, not_true_eq_false]
  by_cases hempty : t.sendMsgs = []
  · have hidle : t.expectingWrite = false := by
      rw [← Bool.not_eq_true, h.expectingWrite]
      exact not_not.mpr hempty
    have henable : TransportTCP.enableWrite { t with msgCounter := 0 } = _ :=
      enableWrite_ok h.opened h.asynchronous hidle
    have hisEmpty : t.sendMsgs.isEmpty = true := by rw [hempty]; rfl
    simp only [hisEmpty, if_true, henable]
    refine ⟨_, rfl, ⟨h.opened, h.asynchronous, h.messages, h.filter, rfl, h.writeCb, by simp,
      hqueued⟩, rfl, ?_⟩
    rw [todo, todo, List.flatMap_append, ← htodo]
    simp [Message.fresh]
  · have hisEmpty : ¬ t.sendMsgs.isEmpty = true := by simpa using hempty
    simp only [hisEmpty, Bool.false_eq_true, if_false]
    refine ⟨_, rfl, ⟨h.opened, h.asynchronous, h.messages, h.filter, rfl, h.writeCb, ?_, hqueued⟩,
      rfl, ?_⟩
    · simp [h.expectingWrite, hempty]
    · rw [todo, todo, List.flatMap_append, ← htodo]
      simp [Message.fresh]

/-- Nothing happens on a writability event with an empty queue. -/
theorem socketUpdate_idle {t : TransportTCP} (h : t.Sending) (hq : t.sendMsgs = []) (recv : Recv)
    (send : Send) : t.socketUpdate POLLOUT recv send = .ok t := by
  have hexpecting : t.expectingWrite = false := by
    rw [← Bool.not_eq_true, h.expectingWrite]
    exact not_not.mpr hq
  have hin : ¬ POLLOUT &&& POLLIN ≠ 0 := by decide
  have herr : ¬ (POLLOUT &&& POLLERR ≠ 0 ∨ POLLOUT &&& POLLHUP ≠ 0 ∨ POLLOUT &&& POLLNVAL ≠ 0) := by
    decide
  simp only [socketUpdate, h.opened, hexpecting, hin, herr, bind, Except.bind, false_and,
    and_false, Bool.false_eq_true, if_false]

theorem onSend_idle {t : TransportTCP} (h : t.Sending) (hq : t.sendMsgs = []) (a : Accept) :
    t.onSend (.writable a) = .ok t :=
  socketUpdate_idle h hq _ _

theorem socketUpdate_writes {t : TransportTCP} {m : Message} {rest : List Message} (h : t.Sending)
    (hq : t.sendMsgs = m :: rest) (recv : Recv) (send : Send) :
    t.socketUpdate POLLOUT recv send = t.writeMessage send := by
  have hexpecting : t.expectingWrite = true := by
    rw [h.expectingWrite, hq]
    simp
  have hin : ¬ POLLOUT &&& POLLIN ≠ 0 := by decide
  have hout : POLLOUT &&& POLLOUT ≠ 0 := by decide
  have herr : ¬ (POLLOUT &&& POLLERR ≠ 0 ∨ POLLOUT &&& POLLHUP ≠ 0 ∨ POLLOUT &&& POLLNVAL ≠ 0) := by
    decide
  have hcond : POLLOUT &&& POLLOUT ≠ 0 ∧ t.expectingWrite = true ∧ t.writeCb = true :=
    ⟨hout, hexpecting, h.writeCb⟩
  simp only [socketUpdate, h.opened, hin, false_and, Bool.false_eq_true, if_false,
    if_pos hcond, bind, Except.bind]
  cases t.writeMessage send with
  | error f => rfl
  | ok t' => simp only [herr, if_false]

theorem onSend_writable {t : TransportTCP} {m : Message} {rest : List Message} (h : t.Sending)
    (hq : t.sendMsgs = m :: rest) (a : Accept) :
    t.onSend (.writable a) = t.writeMessage a.send :=
  socketUpdate_writes h hq _ _

theorem cutsEmptySize_iff {t : TransportTCP} {m : Message} {rest : List Message} (h : t.Sending)
    (hq : t.sendMsgs = m :: rest) (a : Accept) :
    t.CutsEmptySize (.writable a) ↔ 0 < m.lost (a.count (min m.asked intMax)) := by
  obtain ⟨pre, cur, post, hm⟩ := h.queued m (by simp [hq])
  simp only [CutsEmptySize, hq, List.head?_cons, Option.mem_some_iff, exists_eq_left', Message.lost]
  by_cases hempty : m.numframesFilled = 4 ∧ m.frameSz = 0
  · have hsz : m.frameSzFilled.toNat < 4 := by
      refine lt_of_le_of_ne hm.frameSzFilled fun hfour => ?_
      have := hm.unfinished hfour
      rw [← hm.frameSz, hempty.2] at this
      simp at this
    have hasked : min m.asked intMax = 4 - m.frameSzFilled.toNat := by
      rw [Message.asked, if_neg (by simp [hempty.1]), if_pos hsz, intMax]
      omega
    rw [if_pos hempty, hasked]
    simp only [hempty.1, hempty.2, true_and]
    omega
  · rw [if_neg hempty]
    exact iff_of_false (fun hcut => hempty ⟨hcut.1, hcut.2.1⟩) (lt_irrefl 0)

/-- An event that cuts no empty frame's size keeps what is sent and what is owed in step with the
calls. -/
theorem Sending.step {t : TransportTCP} {e : SendEvent} (h : t.Sending)
    (hcut : ¬ t.CutsEmptySize e) :
    ∃ t', t.onSend e = .ok t' ∧ t'.Sending ∧ t.sent <+: t'.sent ∧
      t'.sent ++ t'.todo = (t.sent ++ t.todo) ++ e.encoding := by
  cases e with
  | sendFrames o =>
      obtain ⟨t', hrun, hsending, hsent, htodo⟩ := onSend_sendFrames h o
      refine ⟨t', hrun, hsending, hsent ▸ List.prefix_rfl, ?_⟩
      rw [hsent, htodo, SendEvent.encoding, List.append_assoc]
  | writable a =>
      rw [SendEvent.encoding, List.append_nil]
      cases hq : t.sendMsgs with
      | nil => exact ⟨t, onSend_idle h hq a, h, List.prefix_rfl, rfl⟩
      | cons m rest =>
          obtain ⟨t', hrun, hsends⟩ := writeMessage_next h hq a
          rw [cutsEmptySize_iff h hq, Nat.not_lt, Nat.le_zero] at hcut
          refine ⟨t', (onSend_writable h hq a).trans hrun, hsends.sending, ⟨_, hsends.sent.symm⟩, ?_⟩
          rw [hsends.sent, hsends.todo, hcut, Nat.add_zero, List.append_assoc, List.take_append_drop]

/-- An event that does cut one drops bytes. -/
theorem Sending.step_cut {t : TransportTCP} {e : SendEvent} (h : t.Sending)
    (hcut : t.CutsEmptySize e) :
    ∃ t', t.onSend e = .ok t' ∧ t'.Sending ∧ e.encoding = [] ∧
      (t'.sent ++ t'.todo).length < (t.sent ++ t.todo).length := by
  cases e with
  | sendFrames o => exact absurd hcut id
  | writable a =>
      cases hq : t.sendMsgs with
      | nil =>
          obtain ⟨m, hm, -⟩ := hcut
          simp [hq] at hm
      | cons m rest =>
          obtain ⟨t', hrun, hsends⟩ := writeMessage_next h hq a
          rw [cutsEmptySize_iff h hq] at hcut
          have hfits := hsends.fits
          refine ⟨t', (onSend_writable h hq a).trans hrun, hsends.sending, rfl, ?_⟩
          simp only [hsends.sent, hsends.todo, List.length_append, List.length_take,
            List.length_drop]
          omega

/-- A whole write cuts nothing. -/
theorem not_cutsEmptySize_of_whole {a : Accept} (ha : a.Whole) (t : TransportTCP) :
    ¬ t.CutsEmptySize (.writable a) := by
  rintro ⟨m, -, -, -, hshort⟩
  rw [ha] at hshort
  omega

/-- Whole writes empty the queue. -/
theorem drain {t : TransportTCP} (h : t.Sending) :
    ∃ k t', run onSend t (List.replicate k (.writable .whole)) = .ok t' ∧ t'.sendMsgs = [] ∧
      t'.sent = t.sent ++ t.todo := by
  induction hn : t.todo.length using Nat.strong_induction_on generalizing t with
  | _ n ih =>
      cases hq : t.sendMsgs with
      | nil => exact ⟨0, t, rfl, hq, by simp [todo, hq]⟩
      | cons m rest =>
          obtain ⟨pre, cur, post, hm⟩ := h.queued m (by simp [hq])
          have hcut := not_cutsEmptySize_of_whole Accept.whole_whole t
          obtain ⟨t₁, hrun, hsends⟩ := writeMessage_next h hq .whole
          rw [cutsEmptySize_iff h hq, Nat.not_lt, Nat.le_zero] at hcut
          rw [hcut, Accept.whole_whole] at hsends
          have hasked := hm.asked_pos
          have hpos : 0 < min m.asked intMax := by
            rw [intMax]
            omega
          have htodo := hsends.todo
          rw [Nat.add_zero] at htodo
          have hshorter : t₁.todo.length < n := by
            have := hsends.fits
            rw [htodo, List.length_drop]
            omega
          obtain ⟨k, t', hrun', hempty, hsent⟩ := ih _ hshorter hsends.sending rfl
          refine ⟨k + 1, t', ?_, hempty, ?_⟩
          · rw [List.replicate_succ, run_cons_of_step ((onSend_writable h hq _).trans hrun), hrun']
          · rw [hsent, hsends.sent, htodo, List.append_assoc, List.take_append_drop]

/-! ### Runs -/

theorem sending_passing (sock : Nat) (uninit : Message) (heap : Nat → UInt8) :
    (passing sock uninit heap).Sending where
  opened := rfl
  asynchronous := rfl
  messages := rfl
  filter := rfl
  msgCounter := rfl
  writeCb := rfl
  expectingWrite := by simp [passing, connected]
  queued := by simp [passing, connected]

/-- A run without a cut size field sends and owes exactly the encodings of the calls made. -/
theorem run_sending {t : TransportTCP} {events : List SendEvent} (h : t.Sending)
    (hclean : Along onSend (fun t e => ¬ t.CutsEmptySize e) t events) :
    ∃ t', run onSend t events = .ok t' ∧ t'.Sending ∧
      t'.sent ++ t'.todo = (t.sent ++ t.todo) ++ events.flatMap SendEvent.encoding :=
  run_ledger (fun t : TransportTCP => t.sent ++ t.todo)
    (fun _ _ hsending hcut =>
      let ⟨t', hstep, hsending', _, hledger⟩ := hsending.step hcut
      ⟨t', hstep, hsending', hledger⟩) h hclean

/-- The bytes accepted are the front of `stream`, and all of it when the queue is empty. -/
def Emits (t : TransportTCP) (stream : List UInt8) : Prop :=
  t.sent <+: stream ∧ (t.sendMsgs = [] → t.sent = stream)

/-- **The sender emits the encoding exactly where no empty frame's size is cut.** On the left, every
write of an empty frame's size field in the run ends with the field complete. On the right, after
every prefix of the run, and after any whole writes that follow it, the bytes accepted are a prefix
of the encodings of the calls made, and all of them once the queue is empty. -/
theorem sender_emits_encoding_iff (sock : Nat) (uninit : Message) (heap : Nat → UInt8)
    (events : List SendEvent) :
    Along onSend (fun t e => ¬ t.CutsEmptySize e) (passing sock uninit heap) events ↔
      ∀ before, before <+: events → ∀ rest : List Accept, (∀ a ∈ rest, a.Whole) →
        ∃ t, run onSend (passing sock uninit heap) (before ++ rest.map .writable) = .ok t ∧
          t.Emits (before.flatMap SendEvent.encoding) := by
  have hstart := sending_passing sock uninit heap
  constructor
  · intro hclean before hbefore rest hwhole
    have hall : Along onSend (fun t e => ¬ t.CutsEmptySize e) (passing sock uninit heap)
        (before ++ rest.map .writable) := by
      refine (along_append _ _ _).mpr ⟨hclean.of_prefix hbefore, fun t _ => ?_⟩
      refine along_of_forall (fun t e he => ?_) t
      obtain ⟨a, ha, rfl⟩ := List.mem_map.mp he
      exact not_cutsEmptySize_of_whole (hwhole a ha) t
    obtain ⟨t, hrun, hsending, hledger⟩ := run_sending hstart hall
    have hnone : (rest.map SendEvent.writable).flatMap SendEvent.encoding = [] := by
      simp [List.flatMap_map, SendEvent.encoding]
    have hstream : t.sent ++ t.todo = before.flatMap SendEvent.encoding := by
      rw [hledger, List.flatMap_append, hnone, List.append_nil]
      rfl
    refine ⟨t, hrun, ⟨t.todo, hstream⟩, fun hempty => ?_⟩
    rw [← hstream, todo, hempty, List.flatMap_nil, List.append_nil]
  · intro hemits
    by_contra hcut
    obtain ⟨before, e, after, t, rfl, hclean, hrun, hfail⟩ := exists_first_failure hcut
    obtain ⟨t₁, hrun₁, hsending, hledger⟩ := run_sending hstart hclean
    obtain rfl := Except.ok.inj (hrun.symm.trans hrun₁)
    obtain ⟨t₂, hstep, hsending₂, hencoding, hshort⟩ := hsending.step_cut (not_not.mp hfail)
    obtain ⟨k, t₃, hdrain, hempty, hsent⟩ := drain hsending₂
    obtain ⟨t₄, hrun₄, -, hall⟩ := hemits (before ++ [e]) ⟨after, by simp⟩
      (List.replicate k .whole) (fun a ha => List.eq_of_mem_replicate ha ▸ Accept.whole_whole)
    rw [List.append_assoc, List.singleton_append, List.map_replicate, run_append_of_run hrun,
      run_cons_of_step hstep, hdrain] at hrun₄
    obtain rfl := Except.ok.inj hrun₄
    have hlength := congrArg List.length (hall hempty)
    rw [hsent, List.flatMap_append, List.flatMap_singleton, hencoding, List.append_nil] at hlength
    rw [hledger] at hshort
    simp only [passing, connected, todo, List.flatMap_nil, List.append_nil, List.nil_append]
      at hshort
    exact hlength.not_lt hshort

/-- A message of one empty frame, whose size field the socket does not take at first: the frame is
ended at once, and the queue is empty with only the count sent. -/
theorem cut_empty_size_is_lost :
    ∃ t, run onSend (passing 3 ⟨[], 0, 0, 0, 0, 0, 0⟩ fun _ => 0)
        [.sendFrames ⟨[⟨[], 0⟩], by decide, by decide, by decide⟩, .writable .whole,
          .writable (.upTo 0)] = .ok t ∧
      t.sendMsgs = [] ∧ t.sent = [1, 0, 0, 0] ∧
      ¬ t.Emits (messageCode.encode [[]]) := by
  refine ⟨_, rfl, rfl, rfl, fun h => ?_⟩
  exact absurd (h.2 rfl) (by decide)

end TransportTCP

end Ros2Proto
