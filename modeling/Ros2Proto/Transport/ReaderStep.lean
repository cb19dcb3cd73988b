import Ros2Proto.Transport.Progress
import Mathlib.Tactic.SplitIfs

/-!
# One readiness event

The simulation of `Progress.next` by `readMessage`. `At t p` reads the place `p` off the cursors of
`t`; the three phases of `readMessage` are three lemmas, and what ends a frame is one more, used at
the end of a size field and at the end of a payload alike.
-/

namespace Ros2Proto

open LittleEndian

/-! ### Cursor arithmetic -/

theorem toNat_sub_cursor {a b : UInt32} (h : b.toNat ≤ a.toNat) :
    (a - b).toNat = a.toNat - b.toNat :=
  UInt32.toNat_sub_of_le _ _ (UInt32.le_iff_toNat_le.mpr h)

theorem toNat_add_cursor {a : UInt32} {n : Nat} (h : a.toNat + n < 2 ^ 32) :
    (a + UInt32.ofNat n).toNat = a.toNat + n := by
  rw [UInt32.toNat_add, UInt32.toNat_ofNat']
  omega

theorem toNat_succ_cursor {a : UInt32} {n : Nat} (ha : a.toNat = n) (h : n + 1 < 2 ^ 32) :
    (a + 1).toNat = n + 1 := by
  rw [UInt32.toNat_add, UInt32.toNat_one]
  omega

theorem lt_four_iff (a : UInt32) : a < 4 ↔ a.toNat < 4 := UInt32.lt_iff_toNat_lt

theorem pos_iff (a : UInt32) : 0 < a ↔ 0 < a.toNat := UInt32.lt_iff_toNat_lt

theorem ofBytes_size {p : Payload} (h : p.length < 2 ^ 32) :
    (Frame.ofBytes p).size.toNat = p.length := by
  rw [Frame.ofBytes, UInt32.toNat_ofNat']
  omega

/-- A frame that carries all its bytes is the frame of these bytes. -/
theorem eq_ofBytes {f : Frame} (h : f.data.length = f.size.toNat) : f = Frame.ofBytes f.data := by
  rw [Frame.ofBytes, h, UInt32.ofNat_toNat]

namespace TransportTCP

/-- An open transport that passes messages and waits for input. -/
structure Listening (t : TransportTCP) : Prop where
  opened : t.closed = false
  sock : t.sock ≠ -1
  messages : t.messages = true
  readmsgCb : t.readmsgCb = true
  readCb : t.readCb = true
  expectingRead : t.expectingRead = true

/-- The members that place `t` in the frame behind `done`, with `left` frames after it. -/
structure AtFrame (t : TransportTCP) (done : List Payload) (frame : Frame) (left : Nat) : Prop where
  reading : t.reading = true
  numframesFilled : t.readMsg.numframesFilled = 4
  frames : t.readMsg.frames
    = done.map Frame.ofBytes ++ frame :: List.replicate left ⟨[], 0⟩
  frameInd : t.readMsg.frameInd.toNat = done.length

/-- The cursors of `t` are at the place. The first `readMessage` of a message clears them, so the
start of a count is read off what `startReading` leaves. -/
def At (t : TransportTCP) : Progress → Prop
  | .count bs =>
    t.startReading.readMsg.frames = [] ∧
    t.startReading.readMsg.numframesFilled.toNat = bs.length ∧
    (bytes t.startReading.readMsg.numframes).take bs.length = bs ∧
    t.startReading.readMsg.frameInd = 0 ∧
    t.startReading.readMsg.frameFilled = 0 ∧
    t.startReading.readMsg.frameSzFilled = 0
  | .size done sz left =>
    ∃ size, t.AtFrame done ⟨[], size⟩ left ∧ t.readMsg.frameFilled = 0 ∧
      t.readMsg.frameSzFilled.toNat = sz.length ∧
      bytes size = sz ++ List.replicate (4 - sz.length) 0
  | .payload done n got left =>
    ∃ frame, t.AtFrame done frame left ∧ t.readMsg.frameFilled.toNat = got.length ∧
      t.readMsg.frameSzFilled = 4 ∧ frame.size.toNat = n ∧ frame.data.length = n ∧
      frame.data.take got.length = got
  | .closed => t.closed = true

theorem AtFrame.current {t : TransportTCP} {done : List Payload} {frame : Frame} {left : Nat}
    (h : t.AtFrame done frame left) :
    t.readMsg.frames[t.readMsg.frameInd.toNat]? = some frame := by
  rw [h.frames, h.frameInd, List.getElem?_append_right (by simp)]
  simp

theorem AtFrame.set {t : TransportTCP} {done : List Payload} {frame : Frame} {left : Nat}
    (h : t.AtFrame done frame left) (frame' : Frame) :
    t.readMsg.frames.set t.readMsg.frameInd.toNat frame'
      = done.map Frame.ofBytes ++ frame' :: List.replicate left ⟨[], 0⟩ := by
  rw [h.frames, h.frameInd, List.set_append_right _ _ (by simp)]
  simp

theorem startReading_of_reading {t : TransportTCP} (h : t.reading = true) : t.startReading = t := by
  simp [startReading, h]

theorem startReading_received (t : TransportTCP) : t.startReading.received = t.received := by
  rw [startReading]
  split_ifs <;> rfl

theorem startReading_delivered (t : TransportTCP) : t.startReading.delivered = t.delivered := by
  rw [startReading]
  split_ifs <;> rfl

theorem at_count_iff {t : TransportTCP} (h : t.reading = true) (bs : List UInt8) :
    t.At (.count bs) ↔ t.readMsg.frames = [] ∧ t.readMsg.numframesFilled.toNat = bs.length ∧
      (bytes t.readMsg.numframes).take bs.length = bs ∧ t.readMsg.frameInd = 0 ∧
      t.readMsg.frameFilled = 0 ∧ t.readMsg.frameSzFilled = 0 := by
  simp only [At, startReading_of_reading h]

/-- A transport that is not in a message is at the start of one. -/
theorem at_count_nil {t : TransportTCP} (h : t.reading = false) : t.At (.count []) := by
  simp [At, startReading, h]

/-! ### The answers of `read` -/

/-- A successful `read` on an open transport. -/
theorem read_ok {t : TransportTCP} {recv : Recv} {size : UInt32} {bs : List UInt8}
    (hopen : t.closed = false) (hsize : 0 < size.toNat)
    (hrecv : recv.result (min size.toNat intMax) = .bytes bs) :
    t.read recv size = .ok (bs.length, bs, { t with received := t.received ++ bs }) := by
  have hne : size ≠ 0 := by
    rintro rfl
    simp at hsize
  simp [read, hopen, hne, hrecv]

theorem recv_length_le {recv : Recv} {n : Nat} {bs : List UInt8}
    (hrecv : recv.result (min n intMax) = .bytes bs) : bs.length ≤ n :=
  (recv.bounded _ _ hrecv).trans (Nat.min_le_left _ _)

/-- The transport once a read of `bs` has been stored in the message `m`. -/
def stored (t : TransportTCP) (bs : List UInt8) (m : Message) : TransportTCP :=
  { t with received := t.received ++ bs, readMsg := m }

theorem Listening.stored {t : TransportTCP} (h : t.Listening) (bs : List UInt8) (m : Message) :
    (t.stored bs m).Listening :=
  ⟨h.opened, h.sock, h.messages, h.readmsgCb, h.readCb, h.expectingRead⟩

/-! ### The end of a frame -/

/-- The last test of `readFrame` when the frame is done: the next frame, or the message. -/
theorem endFrame_done {t : TransportTCP} {done : List Payload} {frame : Frame} {left : Nat}
    (hlisten : t.Listening) (hat : t.AtFrame done frame left)
    (hcount : done.length + 1 + left < 2 ^ 32) (hfull : frame.data.length = frame.size.toNat)
    (hfilled : t.readMsg.frameFilled = frame.size) :
    ∃ t', t.endFrame frame = .ok t' ∧ t'.Listening ∧
      t'.At (.afterFrame done frame.data left) ∧ t'.received = t.received ∧
      t'.delivered = t.delivered ++
        (Progress.messagesAfterFrame done frame.data left).map (List.map Frame.ofBytes) := by
  have hframes := hat.frames
  have hind : (t.readMsg.frameInd + 1).toNat = done.length + 1 :=
    toNat_succ_cursor hat.frameInd (by omega)
  have hlength : t.readMsg.frames.length = done.length + 1 + left := by
    rw [hframes]
    simp only [List.length_append, List.length_map, List.length_cons, List.length_replicate]
    omega
  rw [eq_ofBytes hfull] at hframes
  cases left with
  | zero =>
      have hlast : (t.readMsg.frameInd + 1).toNat = t.readMsg.frames.length := by
        rw [hind, hlength]
      simp only [endFrame, if_pos hfilled, if_pos hlast, hlisten.readmsgCb]
      refine ⟨_, rfl, ⟨hlisten.opened, hlisten.sock, hlisten.messages, rfl, hlisten.readCb,
        hlisten.expectingRead⟩, at_count_nil rfl, rfl, ?_⟩
      simp [Progress.messagesAfterFrame, hframes]
  | succ left =>
      have hlast : ¬ (t.readMsg.frameInd + 1).toNat = t.readMsg.frames.length := by
        rw [hind, hlength]
        omega
      simp only [endFrame, if_pos hfilled, if_neg hlast]
      refine ⟨_, rfl, ⟨hlisten.opened, hlisten.sock, hlisten.messages, hlisten.readmsgCb,
        hlisten.readCb, hlisten.expectingRead⟩, ⟨0, ⟨hat.reading, hat.numframesFilled, ?_, ?_⟩, rfl,
        rfl, by simp [bytes]⟩, rfl, by simp [Progress.messagesAfterFrame]⟩
      · simp only [hframes, List.map_append, List.map_cons, List.map_nil, List.append_assoc,
          List.replicate_succ, List.cons_append, List.nil_append]
      · simpa using hind

theorem endFrame_more {t : TransportTCP} {frame : Frame}
    (hfilled : t.readMsg.frameFilled ≠ frame.size) : t.endFrame frame = .ok t := by
  simp [endFrame, hfilled]

/-! ### The three phases -/

/-- What one event owes the place `p` when the read returns `bs`. -/
structure Simulates (t : TransportTCP) (p : Progress) (bs : List UInt8) (t' : TransportTCP) :
    Prop where
  place : t'.At (p.next bs)
  listening : p.next bs ≠ .closed → t'.Listening
  received : t'.received = t.received ++ bs
  delivered : t'.delivered = t.delivered ++ (p.finished bs).map (List.map Frame.ofBytes)

theorem readNumframes_next {t : TransportTCP} {recv : Recv} {pre bs : List UInt8}
    (hlisten : t.Listening) (hpre : pre.length < 4) (hreading : t.reading = true)
    (hat : t.At (.count pre)) (hrecv : recv.result (min (4 - pre.length) intMax) = .bytes bs) :
    ∃ t', t.readNumframes recv = .ok t' ∧ Simulates t (.count pre) bs t' := by
  obtain ⟨hframes, hfilled, hbytes, hind, hframeFilled, hsz⟩ := (at_count_iff hreading _).mp hat
  have hasked : ((4 : UInt32) - t.readMsg.numframesFilled).toNat = 4 - pre.length := by
    rw [toNat_sub_cursor (by rw [hfilled]; exact hpre.le), hfilled]
    rfl
  have hread := read_ok hlisten.opened (by rw [hasked]; omega) (hasked ▸ hrecv)
  have hle : bs.length ≤ 4 - pre.length := recv_length_le hrecv
  have hfilled' : (t.readMsg.numframesFilled + UInt32.ofNat bs.length).toNat = (pre ++ bs).length := by
    rw [toNat_add_cursor (by omega), hfilled, List.length_append]
  have hbytes' : (bytes (overwrite t.readMsg.numframes pre.length bs)).take (pre ++ bs).length
      = pre ++ bs := by
    rw [List.length_append, take_bytes_overwrite (by omega), hbytes]
  have hfour : t.readMsg.numframesFilled + UInt32.ofNat bs.length = 4
      ↔ ¬ (pre ++ bs).length < 4 := by
    rw [← UInt32.toNat_inj, hfilled', List.length_append]
    change pre.length + bs.length = 4 ↔ _
    omega
  simp only [readNumframes, hread, bind, Except.bind, wrapU32_natCast, hfilled]
  rw [if_neg (by omega)]
  by_cases hlength : (pre ++ bs).length < 4
  · rw [if_neg (by rw [hfour]; exact not_not.mpr hlength)]
    refine ⟨_, rfl, ⟨?_, fun _ => hlisten.stored bs _, rfl, by simp [Progress.finished]⟩⟩
    rw [Progress.next, if_pos hlength]
    refine (at_count_iff ?_ _).mpr ⟨hframes, hfilled', hbytes', hind, hframeFilled, hsz⟩
    exact hreading
  · rw [if_pos (hfour.mpr hlength)]
    have hall : (pre ++ bs).length = 4 := by rw [List.length_append] at *; omega
    have hvalue : (overwrite t.readMsg.numframes pre.length bs).toNat = decode (pre ++ bs) := by
      rw [← decode_bytes, ← hbytes', hall, List.take_of_length_le (by simp)]
    by_cases hzero : decode (pre ++ bs) = 0
    · have hz : overwrite t.readMsg.numframes pre.length bs = 0 := by
        rw [← UInt32.toNat_inj, hvalue, hzero]
        rfl
      rw [if_pos hz]
      simp only [close, hlisten.opened, hlisten.sock, Bool.false_eq_true, if_false]
      refine ⟨_, rfl, ⟨?_, ?_, rfl, by simp [Progress.finished]⟩⟩
      · rw [Progress.next, if_neg hlength, if_pos hzero]
        rfl
      · rw [Progress.next, if_neg hlength, if_pos hzero]
        exact fun h => absurd rfl h
    · have hz : overwrite t.readMsg.numframes pre.length bs ≠ 0 := by
        rw [ne_eq, ← UInt32.toNat_inj, hvalue]
        exact hzero
      rw [if_neg hz]
      refine ⟨_, rfl, ⟨?_, fun _ => hlisten.stored bs _, rfl, by simp [Progress.finished]⟩⟩
      rw [Progress.next, if_neg hlength, if_neg hzero]
      obtain ⟨n, hn⟩ := Nat.exists_eq_succ_of_ne_zero hzero
      refine ⟨0, ⟨hreading, hfour.mpr hlength, ?_, ?_⟩, hframeFilled, ?_, ?_⟩
      · simp [resizeFrames, hframes, hvalue, hn, List.replicate_succ]
      · simp [hind]
      · simp [hsz]
      · simp [bytes]

theorem readFrame_size_next {t : TransportTCP} {recv : Recv} {done : List Payload}
    {sz bs : List UInt8} {left : Nat} (hlisten : t.Listening)
    (hvalid : (Progress.size done sz left).Valid) (hat : t.At (.size done sz left))
    (hrecv : recv.result (min (4 - sz.length) intMax) = .bytes bs) :
    ∃ t', t.readFrame recv = .ok t' ∧ Simulates t (.size done sz left) bs t' := by
  obtain ⟨size, hframe, hframeFilled, hfilled, hbytes⟩ := hat
  obtain ⟨hsz, hcount, hdone⟩ := hvalid
  have hasked : ((4 : UInt32) - t.readMsg.frameSzFilled).toNat = 4 - sz.length := by
    rw [toNat_sub_cursor (by rw [hfilled]; exact hsz.le), hfilled]
    rfl
  have hread := read_ok hlisten.opened (by rw [hasked]; omega) (hasked ▸ hrecv)
  have hle : bs.length ≤ 4 - sz.length := recv_length_le hrecv
  have hfilled' : (t.readMsg.frameSzFilled + UInt32.ofNat bs.length).toNat = (sz ++ bs).length := by
    rw [toNat_add_cursor (by omega), hfilled, List.length_append]
  have hfour : t.readMsg.frameSzFilled + UInt32.ofNat bs.length = 4 ↔ ¬ (sz ++ bs).length < 4 := by
    rw [← UInt32.toNat_inj, hfilled', List.length_append]
    change sz.length + bs.length = 4 ↔ _
    omega
  have hbytes' := bytes_overwrite hbytes (show sz.length + bs.length ≤ 4 by omega)
  have hvalue : (overwrite size sz.length bs).toNat = decode (sz ++ bs) := by
    rw [← decode_bytes, hbytes', decode_append_zeros]
  simp only [readFrame, hframe.current, if_pos ((lt_four_iff _).mpr (hfilled ▸ hsz)), hread, bind,
    Except.bind, wrapU32_natCast, hfilled]
  rw [if_neg (by omega)]
  have hzero : overwrite size sz.length bs = 0 ↔ decode (sz ++ bs) = 0 := by
    rw [← hvalue, ← UInt32.toNat_inj]
    rfl
  -- The buffer is allocated only behind the last byte of the size.
  generalize hdata : (if t.readMsg.frameSzFilled + UInt32.ofNat bs.length = 4
    then (List.range (overwrite size sz.length bs).toNat).map t.heap else []) = data
  have hat' : (t.stored bs { t.readMsg.setFrame ⟨data, overwrite size sz.length bs⟩ with
      frameSzFilled := t.readMsg.frameSzFilled + UInt32.ofNat bs.length }).AtFrame
      done ⟨data, overwrite size sz.length bs⟩ left :=
    ⟨hframe.reading, hframe.numframesFilled, hframe.set _, hframe.frameInd⟩
  have hlisten' := hlisten.stored bs { t.readMsg.setFrame ⟨data, overwrite size sz.length bs⟩ with
    frameSzFilled := t.readMsg.frameSzFilled + UInt32.ofNat bs.length }
  have hdata' : (if t.readMsg.frameSzFilled + UInt32.ofNat bs.length = 4
    then allocate { t with received := t.received ++ bs } (overwrite size sz.length bs) else [])
      = data := hdata
  rw [hdata']
  by_cases hz : decode (sz ++ bs) = 0
  · have hempty : data = [] := by
      rw [← hdata, hzero.mpr hz]
      simp
    obtain ⟨t', hend, hl, hp, hr, hd⟩ := endFrame_done hlisten' hat' hcount
      (by rw [hempty, hzero.mpr hz]; rfl) (by rw [hzero.mpr hz]; exact hframeFilled)
    refine ⟨t', hend, ⟨?_, fun _ => hl, hr, ?_⟩⟩
    · rw [Progress.next, if_pos hz, ← hempty]
      exact hp
    · rw [Progress.finished, if_pos hz, ← hempty]
      exact hd
  · have hmore : t.readMsg.frameFilled ≠ overwrite size sz.length bs := by
      rw [hframeFilled]
      exact fun h => hz (hzero.mp h.symm)
    refine ⟨_, endFrame_more hmore, ⟨?_, fun _ => hlisten', rfl, by simp [Progress.finished, hz]⟩⟩
    rw [Progress.next, if_neg hz]
    by_cases hlength : (sz ++ bs).length < 4
    · rw [if_pos hlength]
      rw [if_neg (by rw [hfour]; exact not_not.mpr hlength)] at hdata
      subst hdata
      exact ⟨_, hat', hframeFilled, hfilled', hbytes'⟩
    · rw [if_neg hlength]
      rw [if_pos (hfour.mpr hlength)] at hdata
      refine ⟨_, hat', congrArg UInt32.toNat hframeFilled, hfour.mpr hlength, hvalue, ?_, rfl⟩
      simp [← hdata, hvalue]

theorem readFrame_payload_next {t : TransportTCP} {recv : Recv} {done : List Payload} {n : Nat}
    {got bs : List UInt8} {left : Nat} (hlisten : t.Listening)
    (hvalid : (Progress.payload done n got left).Valid) (hat : t.At (.payload done n got left))
    (hrecv : recv.result (min (n - got.length) intMax) = .bytes bs) :
    ∃ t', t.readFrame recv = .ok t' ∧ Simulates t (.payload done n got left) bs t' := by
  obtain ⟨frame, hframe, hfilled, hsz, hn, hdata, hgot⟩ := hat
  obtain ⟨hlt, hn32, hcount, hdone⟩ := hvalid
  have hasked : (frame.size - t.readMsg.frameFilled).toNat = n - got.length := by
    rw [toNat_sub_cursor (by omega), hn, hfilled]
  have hread := read_ok hlisten.opened (by rw [hasked]; omega) (hasked ▸ hrecv)
  have hle : bs.length ≤ n - got.length := recv_length_le hrecv
  have hfilled' : (t.readMsg.frameFilled + UInt32.ofNat bs.length).toNat = (got ++ bs).length := by
    rw [toNat_add_cursor (by omega), hfilled, List.length_append]
  have hwritten : (Buffer.write frame.data got.length bs).length = n := by
    rw [Buffer.length_write (by omega), hdata]
  have hprefix : (Buffer.write frame.data got.length bs).take (got ++ bs).length = got ++ bs := by
    rw [List.length_append, Buffer.take_write (by omega), hgot]
  have hend : t.readMsg.frameFilled + UInt32.ofNat bs.length = frame.size
      ↔ ¬ (got ++ bs).length < n := by
    rw [← UInt32.toNat_inj, hfilled', hn, List.length_append]
    omega
  have hnotlt : ¬ t.readMsg.frameSzFilled < 4 := by
    rw [lt_four_iff, hsz]
    decide
  simp only [readFrame, hframe.current, if_neg hnotlt]
  rw [if_pos ((pos_iff _).mpr (by omega)), if_neg (by omega)]
  simp only [hread, bind, Except.bind, wrapU32_natCast, hfilled]
  rw [if_neg (by omega)]
  have hat' : (t.stored bs
      { t.readMsg.setFrame ⟨Buffer.write frame.data got.length bs, frame.size⟩ with
        frameFilled := t.readMsg.frameFilled + UInt32.ofNat bs.length }).AtFrame
      done ⟨Buffer.write frame.data got.length bs, frame.size⟩ left :=
    ⟨hframe.reading, hframe.numframesFilled, hframe.set _, hframe.frameInd⟩
  have hlisten' := hlisten.stored bs
    { t.readMsg.setFrame ⟨Buffer.write frame.data got.length bs, frame.size⟩ with
      frameFilled := t.readMsg.frameFilled + UInt32.ofNat bs.length }
  by_cases hlength : (got ++ bs).length < n
  · have hmore : t.readMsg.frameFilled + UInt32.ofNat bs.length ≠ frame.size :=
      fun h => hend.mp h hlength
    refine ⟨_, endFrame_more hmore,
      ⟨?_, fun _ => hlisten', rfl, by simp only [Progress.finished, if_pos hlength]; simp⟩⟩
    rw [Progress.next, if_pos hlength]
    exact ⟨_, hat', hfilled', hsz, hn, hwritten, hprefix⟩
  · have hall : Buffer.write frame.data got.length bs = got ++ bs := by
      rw [← hprefix, List.take_of_length_le]
      omega
    obtain ⟨t', hend', hl, hp, hr, hd⟩ := endFrame_done hlisten' hat' hcount
      (by rw [hwritten]; exact hn.symm) (hend.mpr hlength)
    refine ⟨t', hend', ⟨?_, fun _ => hl, hr, ?_⟩⟩
    · rw [Progress.next, if_neg hlength, ← hall]
      exact hp
    · rw [Progress.finished, if_neg hlength, ← hall]
      exact hd

/-- **One `readMessage` is one step of the place.** -/
theorem readMessage_next {t : TransportTCP} {p : Progress} {recv : Recv} {bs : List UInt8}
    (hlisten : t.Listening) (hopen : p ≠ .closed) (hvalid : p.Valid) (hat : t.At p)
    (hrecv : recv.result (min p.asked intMax) = .bytes bs) :
    ∃ t', t.readMessage recv = .ok t' ∧ Simulates t p bs t' := by
  simp only [readMessage, hlisten.messages, Bool.not_true, Bool.false_eq_true, if_false]
  cases p with
  | count pre =>
      have hpre : pre.length < 4 := hvalid
      have hreading : t.startReading.reading = true := by
        rw [startReading]
        split_ifs with h
        · exact h
        · rfl
      have hlisten' : t.startReading.Listening := by
        rw [startReading]
        split_ifs
        · exact hlisten
        · exact ⟨hlisten.opened, hlisten.sock, hlisten.messages, hlisten.readmsgCb, hlisten.readCb,
            hlisten.expectingRead⟩
      have hat' : t.startReading.At (.count pre) := (at_count_iff hreading pre).mpr hat
      rw [if_pos ((lt_four_iff _).mpr (hat.2.1 ▸ hpre))]
      obtain ⟨t', hrun, hplace, hl, hreceived, hdelivered⟩ :=
        readNumframes_next hlisten' hpre hreading hat' hrecv
      refine ⟨t', hrun, ⟨hplace, hl, ?_, ?_⟩⟩
      · rw [hreceived, startReading_received]
      · rw [hdelivered, startReading_delivered]
  | size done sz left =>
      have hframe := hat.choose_spec.1
      rw [startReading_of_reading hframe.reading, hframe.numframesFilled, if_neg (by decide)]
      exact readFrame_size_next hlisten hvalid hat hrecv
  | payload done n got left =>
      have hframe := hat.choose_spec.1
      rw [startReading_of_reading hframe.reading, hframe.numframesFilled, if_neg (by decide)]
      exact readFrame_payload_next hlisten hvalid hat hrecv
  | closed => exact absurd rfl hopen

end TransportTCP

end Ros2Proto
