import Ros2Proto.Transport.Closing
import Ros2Proto.Transport.Sender

/-!
# The cursors of a message that is sent

What `::send` accepted moves a message on, and nothing else should. A place is where a message stands, in
bytes, and `advance` is where it should stand some bytes later. A failed write closes the transport and
should leave the queue as it was.

Two kinds of writes do otherwise. In the payload a failure is stored in a `uint32_t`, so the cursor goes
back by one or past the end of the frame. And a write that does not complete the size of an empty frame
leaves the frame all the same.
-/

namespace Ros2Proto

open FallibleRun LittleEndian

/-- Where a message stands: the bytes of its count that are sent, and those of the size and of the payload
of its current frame. -/
structure Place where
  frames : List Frame
  numframesFilled : Nat
  frameInd : Nat
  frameSzFilled : Nat
  frameFilled : Nat

def Message.place (m : Message) : Place where
  frames := m.frames
  numframesFilled := m.numframesFilled.toNat
  frameInd := m.frameInd.toNat
  frameSzFilled := m.frameSzFilled.toNat
  frameFilled := m.frameFilled.toNat

namespace Place

/-- The size of the current frame. -/
def size (p : Place) : Nat :=
  match p.frames[p.frameInd]? with
  | some frame => frame.size.toNat
  | none => 0

/-- The start of the next frame, if there is one. -/
def leave (p : Place) : Option Place :=
  if p.frameInd + 1 < p.frames.length then
    some { p with frameInd := p.frameInd + 1, frameSzFilled := 0, frameFilled := 0 }
  else none

/-- The place `k` bytes on. A frame is left with the last of its bytes, and a message with the last of its
frames. -/
def advance (p : Place) (k : Nat) : Option Place :=
  if p.numframesFilled < 4 then some { p with numframesFilled := p.numframesFilled + k }
  else if p.frameSzFilled < 4 then
    if p.frameSzFilled + k = 4 ∧ p.size = 0 then p.leave
    else some { p with frameSzFilled := p.frameSzFilled + k }
  else if p.frameFilled + k = p.size then p.leave
  else some { p with frameFilled := p.frameFilled + k }

/-- A frame that is left is not where the message stands any more. -/
theorem leave_ne (p q : Place) (hind : q.frameInd = p.frameInd) (rest : List Place) :
    p.leave.toList ++ rest ≠ q :: rest := by
  intro heq
  rw [leave] at heq
  split_ifs at heq
  · have hfront : p.frameInd + 1 = q.frameInd := congrArg Place.frameInd (List.cons.inj heq).1
    omega
  · have hlength := congrArg List.length heq
    simp at hlength

end Place

/-- The answer of a `::send` that fails. -/
def Send.fails : Send where
  result _ := none
  bounded _ _ h := nomatch h

namespace TransportTCP

/-- An event of a run of the sender in which writes may fail. -/
inductive WriteEvent
  | send (e : SendEvent)
  /-- `socketUpdate` with `POLLOUT`, where `::send` fails -/
  | fail

def onWrite (t : TransportTCP) : WriteEvent → Except Fault TransportTCP
  | .send e => t.onSend e
  | .fail => t.socketUpdate POLLOUT (.give []) .fails

/-- A write moves the front message on by the bytes that were accepted, and a failed write closes the
transport and nothing else. -/
def KeepsPlace (t : TransportTCP) (e : WriteEvent) : Prop :=
  ∀ m rest, t.closed = false → t.sendMsgs = m :: rest →
    match e with
    | .send (.sendFrames _) => True
    | .send (.writable _) => ∃ t' k, t.onWrite e = .ok t' ∧ t'.closed = false ∧
        t'.sent.length = t.sent.length + k ∧
        t'.sendMsgs.map Message.place = (m.place.advance k).toList ++ rest.map Message.place
    | .fail => ∃ t', t.onWrite e = .ok t' ∧ t'.closed = true ∧ t'.sendMsgs = t.sendMsgs

/-- No message has sent more of its current frame than there is. -/
def FilledInBounds (t : TransportTCP) : Prop :=
  ∀ m ∈ t.sendMsgs, ∀ frame : Frame, m.frames[m.frameInd.toNat]? = some frame →
    m.frameFilled ≤ frame.size

/-- The write fails within a payload, or it moves part of an empty frame's size. -/
def LosesPlace (t : TransportTCP) (e : WriteEvent) : Prop :=
  t.closed = false ∧
    match e with
    | .send e => t.CutsEmptySize e
    | .fail => ∃ m ∈ t.sendMsgs.head?, m.numframesFilled = 4 ∧ m.frameSzFilled = 4

/-- A closed transport with its queue. -/
structure Stopped (t : TransportTCP) : Prop where
  closed : t.closed = true
  asynchronous : t.synchronous = false
  messages : t.messages = true
  filter : t.filter = 1
  msgCounter : t.msgCounter = 0
  queued : ∀ m ∈ t.sendMsgs, ∃ pre cur post, m.SendsAt pre cur post

def Queues (t : TransportTCP) : Prop := (t.Sending ∧ t.sock ≠ -1) ∨ t.Stopped

variable {t : TransportTCP} {m : Message} {rest : List Message} {pre post : List Frame} {cur : Frame}

/-! ### The end of a frame -/

/-- The message at the start of its next frame, if there is one. -/
def nextFrame (m : Message) : Option Message :=
  m.frames[(m.frameInd + 1).toNat]?.map fun next =>
    { m with
      frameInd := m.frameInd + 1
      frameFilled := 0
      frameSz := next.size
      frameSzFilled := 0 }

theorem finishFrame_ok (hasync : t.synchronous = false) (m : Message) (cur : Frame)
    (rest : List Message) :
    ∃ t', t.finishFrame m cur rest = .ok t' ∧ t'.closed = t.closed ∧ t'.sent = t.sent ∧
      t'.sendMsgs = if m.frameFilled = cur.size then (nextFrame m).toList ++ rest else m :: rest := by
  have hdisable : ∀ t₁ : TransportTCP, t₁.synchronous = false →
      ∃ t', t₁.disableWrite = .ok t' ∧ t'.closed = t₁.closed ∧ t'.sent = t₁.sent ∧
        t'.sendMsgs = t₁.sendMsgs := by
    intro t₁ h₁
    rw [disableWrite, if_neg (by simp [h₁])]
    split_ifs <;> exact ⟨_, rfl, rfl, rfl, rfl⟩
  rw [finishFrame]
  dsimp only
  split_ifs with hdone hmore hlast
  · rw [nextFrame, List.getElem?_eq_getElem hmore]
    exact ⟨_, rfl, rfl, rfl, rfl⟩
  · rw [nextFrame, List.getElem?_eq_none (not_lt.mp hmore)]
    obtain ⟨t', hrun, hclosed, hsent, hqueue⟩ := hdisable { t with sendMsgs := rest } hasync
    exact ⟨t', hrun, hclosed, hsent, hqueue⟩
  · rw [nextFrame, List.getElem?_eq_none (not_lt.mp hmore)]
    exact ⟨_, rfl, rfl, rfl, rfl⟩
  · exact ⟨_, rfl, rfl, rfl, rfl⟩

theorem place_nextFrame (hm : m.InFrame pre cur post) :
    (nextFrame m).map Message.place = m.place.leave := by
  have hind : (m.frameInd + 1).toNat = m.frameInd.toNat + 1 := by rw [hm.succ_toNat, hm.frameInd]
  rw [nextFrame, hind]
  show _ = if m.frameInd.toNat + 1 < m.frames.length then _ else none
  split_ifs with hmore
  · rw [List.getElem?_eq_getElem hmore]
    simp [Message.place, hind]
  · rw [List.getElem?_eq_none (not_lt.mp hmore)]
    rfl

theorem place_size (hm : m.InFrame pre cur post) : m.place.size = cur.size.toNat := by
  show (match m.frames[m.frameInd.toNat]? with
    | some frame => frame.size.toNat
    | none => 0) = _
  rw [hm.current]

section

variable (k : Nat)

theorem advance_numframes (hcount : m.numframesFilled.toNat < 4) :
    m.place.advance k = some { m.place with numframesFilled := m.numframesFilled.toNat + k } :=
  if_pos hcount

theorem advance_frameSz (hcount : m.numframesFilled = 4) (hsz : m.frameSzFilled.toNat < 4) :
    m.place.advance k = if m.frameSzFilled.toNat + k = 4 ∧ m.place.size = 0 then m.place.leave
      else some { m.place with frameSzFilled := m.frameSzFilled.toNat + k } := by
  have hpast : ¬ m.place.numframesFilled < 4 := by simp [Message.place, hcount]
  rw [Place.advance, if_neg hpast]
  exact if_pos hsz

theorem advance_payload (hcount : m.numframesFilled = 4) (hsz : m.frameSzFilled = 4) :
    m.place.advance k = if m.frameFilled.toNat + k = m.place.size then m.place.leave
      else some { m.place with frameFilled := m.frameFilled.toNat + k } := by
  have hpast : ¬ m.place.numframesFilled < 4 := by simp [Message.place, hcount]
  have hpastSz : ¬ m.place.frameSzFilled < 4 := by simp [Message.place, hsz]
  rw [Place.advance, if_neg hpast, if_neg hpastSz]
  rfl

end

/-! ### Writes that do not fail -/

/-- What a write of the front message moves, and whether it is moved to the right place. -/
def Moves (t : TransportTCP) (m : Message) (rest : List Message) (a : Accept) (right : Prop) : Prop :=
  ∃ t' k, t.writeMessage a.send = .ok t' ∧ t'.closed = false ∧ t'.sent.length = t.sent.length + k ∧
    (t'.sendMsgs.map Message.place = (m.place.advance k).toList ++ rest.map Message.place ↔ right)

/-- The count moves on. -/
theorem moves_numframes (h : t.Sending) (hq : t.sendMsgs = m :: rest)
    (hm : m.SendsAt pre cur post) (hcount : m.numframesFilled.toNat < 4) (a : Accept) :
    Moves t m rest a True := by
  obtain ⟨k, -, hk, hrun⟩ := writeNumframes_ok h hq hm hcount a
  have hfilled : (m.numframesFilled + UInt32.ofNat k).toNat = m.numframesFilled.toNat + k :=
    toNat_add_cursor (by omega)
  refine ⟨_, k, hrun, h.opened, ?_, iff_of_true ?_ trivial⟩
  · simp
    omega
  · rw [advance_numframes k hcount]
    simp [Message.place, hfilled]

/-- The size moves on, and an empty frame should be left when its size is complete. -/
theorem moves_frameSz (h : t.Sending) (hq : t.sendMsgs = m :: rest)
    (hm : m.SendsAt pre cur post) (hcount : m.numframesFilled = 4) (hsz : m.frameSzFilled.toNat < 4)
    (a : Accept) : Moves t m rest a (¬ t.CutsEmptySize (.writable a)) := by
  obtain ⟨k, hcountIs, hk, hrun⟩ := writeFrameSz_ok h hq hm hcount hsz a
  have hfilled : (m.frameSzFilled + UInt32.ofNat k).toNat = m.frameSzFilled.toNat + k :=
    toNat_add_cursor (by omega)
  let m' : Message := { m with frameSzFilled := m.frameSzFilled + UInt32.ofNat k }
  have hframe : m'.InFrame pre cur post := { hm.toInFrame with }
  have hplace : m'.place = { m.place with frameSzFilled := m.frameSzFilled.toNat + k } := by
    rw [← hfilled]
    rfl
  have hcut : t.CutsEmptySize (.writable a) ↔ cur.size = 0 ∧ m.frameSzFilled.toNat + k < 4 := by
    rw [cutsEmptySize_iff h hq, hcountIs, Message.lost, hm.frameSz]
    split_ifs with hempty
    · simp only [hempty.2, true_and]
      omega
    · exact iff_of_false (Nat.lt_irrefl 0) fun hc => hempty ⟨hcount, hc.1⟩
  obtain ⟨t', hfinish, hopen, hsent, hqueue⟩ := finishFrame_ok (t := { t with
    sent := t.sent ++ ((bytes m.frameSz).drop m.frameSzFilled.toNat).take k }) h.asynchronous m' cur rest
  refine ⟨t', k, hrun.trans hfinish, hopen.trans h.opened, ?_, ?_⟩
  · rw [hsent]
    simp
    omega
  · have hsize : m.place.size = 0 ↔ cur.size = 0 := by
      rw [place_size hm.toInFrame, ← UInt32.toNat_inj]
      rfl
    rw [hqueue, show m'.frameFilled = 0 from hm.payload_after_size hsz, hcut,
      advance_frameSz k hcount hsz]
    by_cases hempty : cur.size = 0
    · rw [if_pos hempty.symm, List.map_append, ← Option.toList_map, place_nextFrame hframe]
      by_cases hcomplete : m.frameSzFilled.toNat + k = 4
      · rw [if_pos ⟨hcomplete, hsize.mpr hempty⟩, hplace]
        exact iff_of_true rfl (by omega)
      · rw [if_neg fun hc => hcomplete hc.1]
        apply iff_of_false
        · exact Place.leave_ne _ _ (by rw [hplace]) _
        · exact not_not.mpr ⟨hempty, by omega⟩
    · rw [if_neg (Ne.symm hempty), if_neg fun hc => hempty (hsize.mp hc.2), List.map_cons, hplace]
      exact iff_of_true rfl fun hc => hempty hc.1

/-- The payload moves on, and the frame is left with its last byte. -/
theorem moves_payload (h : t.Sending) (hq : t.sendMsgs = m :: rest)
    (hm : m.SendsAt pre cur post) (hcount : m.numframesFilled = 4) (hsz : m.frameSzFilled = 4)
    (a : Accept) : Moves t m rest a True := by
  obtain ⟨k, -, hk, hrun⟩ := writePayload_ok h hq hm hcount hsz a
  have hlt : m.frameFilled.toNat < cur.size.toNat := hm.unfinished (by simp [hsz])
  have hbacked := hm.cur_backed
  have hfilled : (m.frameFilled + UInt32.ofNat k).toNat = m.frameFilled.toNat + k :=
    toNat_add_cursor (by have := cur.size.toNat_lt; omega)
  let m' : Message := { m with frameFilled := m.frameFilled + UInt32.ofNat k }
  have hframe : m'.InFrame pre cur post := { hm.toInFrame with }
  have hplace : m'.place = { m.place with frameFilled := m.frameFilled.toNat + k } := by
    rw [← hfilled]
    rfl
  obtain ⟨t', hfinish, hopen, hsent, hqueue⟩ := finishFrame_ok (t := { t with
    sent := t.sent ++ (cur.data.drop m.frameFilled.toNat).take k }) h.asynchronous m' cur rest
  refine ⟨t', k, hrun.trans hfinish, hopen.trans h.opened, ?_, iff_of_true ?_ trivial⟩
  · rw [hsent]
    simp
    omega
  · have hend : m'.frameFilled = cur.size ↔ m.frameFilled.toNat + k = cur.size.toNat := by
      rw [← UInt32.toNat_inj, ← hfilled]
    rw [hqueue, advance_payload k hcount hsz, place_size hm.toInFrame]
    simp only [hend]
    split_ifs
    · rw [List.map_append, ← Option.toList_map, place_nextFrame hframe, hplace]
      rfl
    · rw [List.map_cons, hplace]
      rfl

/-- A write is right exactly if it does not cut the size of an empty frame. -/
theorem Sending.moves (h : t.Sending) (hq : t.sendMsgs = m :: rest) (a : Accept) :
    Moves t m rest a (¬ t.CutsEmptySize (.writable a)) := by
  obtain ⟨pre, cur, post, hm⟩ := h.queued m (by simp [hq])
  have hcut : t.CutsEmptySize (.writable a) → m.numframesFilled = 4 ∧ m.frameSzFilled.toNat < 4 := by
    simp only [CutsEmptySize, hq, List.head?_cons, Option.mem_some_iff, exists_eq_left']
    exact fun hc => ⟨hc.1, by omega⟩
  by_cases hcount : m.numframesFilled.toNat < 4
  · have hnot : ¬ t.CutsEmptySize (.writable a) := by
      intro hc
      simp [(hcut hc).1] at hcount
    simpa only [hnot, not_false_eq_true] using moves_numframes h hq hm hcount a
  · have hfour : m.numframesFilled = 4 :=
      UInt32.toNat_inj.mp (le_antisymm hm.numframesFilled (not_lt.mp hcount))
    by_cases hsz : m.frameSzFilled.toNat < 4
    · exact moves_frameSz h hq hm hfour hsz a
    · have hnot : ¬ t.CutsEmptySize (.writable a) := fun hc => hsz (hcut hc).2
      have hszFour : m.frameSzFilled = 4 :=
        UInt32.toNat_inj.mp (le_antisymm hm.frameSzFilled (not_lt.mp hsz))
      simpa only [hnot, not_false_eq_true] using moves_payload h hq hm hfour hszFour a

/-! ### Writes that fail -/

theorem Sending.close (h : t.Sending) (hsock : t.sock ≠ -1) :
    ∃ t', t.close = .ok t' ∧ t'.Stopped ∧ t'.sendMsgs = t.sendMsgs := by
  rw [TransportTCP.close, if_neg (by simp [h.opened]), if_neg hsock]
  exact ⟨_, rfl, ⟨rfl, h.asynchronous, h.messages, h.filter, h.msgCounter, h.queued⟩, rfl⟩

theorem write_fails {t' : TransportTCP} (hopen : t.closed = false) (buffer : List UInt8)
    (size : UInt32) (hsize : 0 < size.toNat) (hbuffer : size.toNat ≤ buffer.length)
    (hclose : t.close = .ok t') : ∃ n, n = -1 ∧ t.write .fails buffer size = .ok (n, t') := by
  refine ⟨-1, rfl, ?_⟩
  have hne : size ≠ 0 := by
    intro hzero
    simp [hzero] at hsize
  rw [write, if_neg (by simp [hopen]), if_neg hne, if_neg hbuffer.not_gt]
  show t.close.map _ = _
  rw [hclose]
  rfl

/-- Outside of the payload, a write that fails leaves the queue alone. -/
theorem Sending.fails_before_payload (h : t.Sending) (hsock : t.sock ≠ -1)
    (hq : t.sendMsgs = m :: rest) (hm : m.SendsAt pre cur post)
    (hearly : ¬ (m.numframesFilled = 4 ∧ m.frameSzFilled = 4)) :
    ∃ t', t.writeMessage .fails = .ok t' ∧ t'.Stopped ∧ t'.sendMsgs = t.sendMsgs := by
  obtain ⟨t', hclose, hstopped, hqueue⟩ := h.close hsock
  refine ⟨t', ?_, hstopped, hqueue⟩
  have hagain : t'.close = .ok t' := by rw [TransportTCP.close, if_pos hstopped.closed]
  by_cases hcount : m.numframesFilled.toNat < 4
  · have hleft : (4 - m.numframesFilled).toNat = 4 - m.numframesFilled.toNat :=
      toNat_sub_cursor hm.numframesFilled
    obtain ⟨n, hn, hwrite⟩ := write_fails h.opened
      ((bytes m.numframes).drop m.numframesFilled.toNat) (4 - m.numframesFilled) (by omega) (by simp [hleft]) hclose
    rw [writeMessage_numframes hq hcount, hwrite]
    exact (if_neg (by omega)).trans hagain
  · have hfour : m.numframesFilled = 4 :=
      UInt32.toNat_inj.mp (le_antisymm hm.numframesFilled (not_lt.mp hcount))
    have hsz : m.frameSzFilled.toNat < 4 := by
      refine lt_of_le_of_ne hm.frameSzFilled fun heq => ?_
      exact hearly ⟨hfour, UInt32.toNat_inj.mp heq⟩
    have hleft : (4 - m.frameSzFilled).toNat = 4 - m.frameSzFilled.toNat :=
      toNat_sub_cursor hm.frameSzFilled
    obtain ⟨n, hn, hwrite⟩ := write_fails h.opened
      ((bytes m.frameSz).drop m.frameSzFilled.toNat) (4 - m.frameSzFilled) (by omega) (by simp [hleft]) hclose
    rw [writeMessage_frameSz hq hfour hm.current hsz, hwrite]
    exact (if_neg (by omega)).trans hagain

/-- A payload cursor that has moved is seen in the queue, whether or not the frame is left. -/
theorem finishFrame_moved (hasync : t.synchronous = false) (hm : m.InFrame pre cur post)
    (rest : List Message) {moved : UInt32} (hmoved : moved ≠ m.frameFilled) :
    ∃ t', t.finishFrame { m with frameFilled := moved } cur rest = .ok t' ∧
      t'.sendMsgs ≠ m :: rest := by
  have hframe : Message.InFrame { m with frameFilled := moved } pre cur post := { hm with }
  obtain ⟨t', hfinish, -, -, hqueue⟩ :=
    finishFrame_ok hasync { m with frameFilled := moved } cur rest
  refine ⟨t', hfinish, ?_⟩
  rw [hqueue]
  intro heq
  split_ifs at heq
  · have hplaces := congrArg (List.map Message.place) heq
    rw [List.map_append, ← Option.toList_map, place_nextFrame hframe] at hplaces
    exact Place.leave_ne _ m.place rfl _ hplaces
  · exact hmoved (congrArg Message.frameFilled (List.cons.inj heq).1)

/-- What a failed `write` returns moves any payload cursor. -/
theorem add_wrapU32_ne {n : Int} (hn : n = -1) (filled : UInt32) : filled + wrapU32 n ≠ filled := by
  intro heq
  have hfilled := congrArg UInt32.toNat heq
  rw [UInt32.toNat_add, wrapU32, UInt32.toNat_ofNat'] at hfilled
  omega

/-- In the payload it moves the message. -/
theorem Sending.fails_in_payload (h : t.Sending) (hsock : t.sock ≠ -1)
    (hq : t.sendMsgs = m :: rest) (hm : m.SendsAt pre cur post) (hcount : m.numframesFilled = 4)
    (hsz : m.frameSzFilled = 4) :
    ∃ t', t.writeMessage .fails = .ok t' ∧ t'.sendMsgs ≠ t.sendMsgs := by
  obtain ⟨t₁, hclose, hstopped, -⟩ := h.close hsock
  have hlt : m.frameFilled.toNat < cur.size.toNat := hm.unfinished (by simp [hsz])
  have hbacked := hm.cur_backed
  have hleft : (cur.size - m.frameFilled).toNat = cur.size.toNat - m.frameFilled.toNat :=
    toNat_sub_cursor hlt.le
  obtain ⟨n, hn, hwrite⟩ := write_fails h.opened (cur.data.drop m.frameFilled.toNat)
    (cur.size - m.frameFilled) (by omega) (by rw [List.length_drop]; omega) hclose
  rw [writeMessage_payload hq hcount hm.current hsz ((pos_iff _).mpr (by omega)), hwrite, hq]
  exact finishFrame_moved hstopped.asynchronous hm.toInFrame rest (add_wrapU32_ne hn _)

/-! ### Events -/

theorem Queues.queued (h : t.Queues) : ∀ m ∈ t.sendMsgs, ∃ pre cur post, m.SendsAt pre cur post := by
  rcases h with ⟨hsending, -⟩ | hstopped
  · exact hsending.queued
  · exact hstopped.queued

theorem Queues.filledInBounds (h : t.Queues) : t.FilledInBounds := by
  intro m hmem frame hframe
  obtain ⟨pre, cur, post, hm⟩ := h.queued m hmem
  cases hm.current.symm.trans hframe
  rw [UInt32.le_iff_toNat_le]
  by_cases hsz : m.frameSzFilled.toNat < 4
  · rw [hm.payload_after_size hsz]
    exact Nat.zero_le _
  · exact (hm.unfinished (le_antisymm hm.frameSzFilled (not_lt.mp hsz))).le

theorem queues_passing (sock : Nat) (uninit : Message) (heap : Nat → UInt8) :
    (passing sock uninit heap).Queues := by
  left
  refine ⟨sending_passing sock uninit heap, ?_⟩
  show (sock : Int) ≠ -1
  omega

/-- A closed transport still takes messages. -/
theorem Stopped.sendFrames (h : t.Stopped) (o : OutFrames) :
    ∃ t', t.sendFrames o.frames = .ok t' ∧ t'.Stopped := by
  obtain ⟨first, behind, hframes⟩ := List.exists_cons_of_ne_nil o.nonempty
  have hfirst : o.frames[0]? = some first := by rw [hframes]; rfl
  have hcounter : (t.msgCounter + 1).tmod t.filter = 0 := by rw [h.msgCounter, h.filter]; rfl
  have hfilter : ¬ t.filter = 0 := by rw [h.filter]; decide
  have hmessages : (!t.messages) = false := by rw [h.messages]; rfl
  have henable : TransportTCP.enableWrite { t with msgCounter := 0 }
      = .ok { t with msgCounter := 0 } := by
    rw [enableWrite, if_neg (by simp [h.asynchronous]), if_pos h.closed]
  refine ⟨{ t with msgCounter := 0, sendMsgs := t.sendMsgs ++ [.fresh o.frames first] }, ?_, ?_⟩
  · simp only [TransportTCP.sendFrames, hmessages, hfilter, hcounter, hfirst, henable,
      Bool.false_eq_true, if_false, ne_eq, not_true_eq_false]
    split_ifs <;> rfl
  · refine ⟨h.closed, h.asynchronous, h.messages, h.filter, rfl, fun m hmem => ?_⟩
    rcases List.mem_append.mp hmem with hmem | hmem
    · exact h.queued m hmem
    · rw [List.mem_singleton.mp hmem]
      exact ⟨_, _, _, Message.fresh_sendsAt o hframes⟩

theorem Stopped.socketUpdate (h : t.Stopped) (events : PollEvents) (recv : Recv) (send : Send) :
    t.socketUpdate events recv send = .ok t :=
  if_pos h.closed

/-- A transport that still sends has kept its socket. -/
theorem sock_of_survives {x : Except Fault TransportTCP} {t' : TransportTCP} (hsock : t.sock ≠ -1)
    (hx : Survives t x) (hrun : x = .ok t') (hsending : t'.Sending) : t'.sock ≠ -1 := by
  rw [hrun] at hx
  rcases hx.life with ⟨-, -, -, hkept⟩ | ⟨-, hclosed, -⟩
  · rwa [hkept]
  · exact absurd (hclosed.symm.trans hsending.opened) (by decide)

theorem survives_onSend (t : TransportTCP) (e : SendEvent) : Survives t (t.onSend e) := by
  cases e with
  | sendFrames o => exact survives_sendFrames t o.frames
  | writable a => exact survives_socketUpdate t _ _ _

/-- An event that loses no place leaves a queue whose messages all stand at a place of theirs. -/
theorem Queues.step (h : t.Queues) {e : WriteEvent} (hplace : ¬ t.LosesPlace e) :
    ∃ t', t.onWrite e = .ok t' ∧ t'.Queues := by
  rcases h with ⟨hsending, hsock⟩ | hstopped
  · cases e with
    | send e =>
        obtain ⟨t', hrun, hsending', -⟩ := hsending.step fun hcut => hplace ⟨hsending.opened, hcut⟩
        exact ⟨t', hrun, Or.inl
          ⟨hsending', sock_of_survives hsock (survives_onSend t e) hrun hsending'⟩⟩
    | fail =>
        cases hq : t.sendMsgs with
        | nil => exact ⟨t, socketUpdate_idle hsending hq _ _, Or.inl ⟨hsending, hsock⟩⟩
        | cons m rest =>
            obtain ⟨pre, cur, post, hm⟩ := hsending.queued m (by simp [hq])
            obtain ⟨t', hrun, hstopped, -⟩ := hsending.fails_before_payload hsock hq hm fun hpayload =>
              hplace ⟨hsending.opened, m, by simp [hq], hpayload⟩
            exact ⟨t', (socketUpdate_writes hsending hq _ _).trans hrun, Or.inr hstopped⟩
  · rcases e with (o | a) | _
    · obtain ⟨t', hrun, hstopped'⟩ := hstopped.sendFrames o
      exact ⟨t', hrun, Or.inr hstopped'⟩
    · exact ⟨t, hstopped.socketUpdate _ _ _, Or.inr hstopped⟩
    · exact ⟨t, hstopped.socketUpdate _ _ _, Or.inr hstopped⟩

theorem keepsPlace_writable_iff (h : t.Sending) (hq : t.sendMsgs = m :: rest) (a : Accept) :
    t.KeepsPlace (.send (.writable a)) ↔ ¬ t.LosesPlace (.send (.writable a)) := by
  obtain ⟨t', k, hrun, hopen, hsent, hright⟩ := h.moves hq a
  have hstep : t.onWrite (.send (.writable a)) = .ok t' := (onSend_writable h hq a).trans hrun
  constructor
  · intro hkeeps hloses
    obtain ⟨t₁, j, hstep₁, -, hsent₁, hplaces⟩ := hkeeps m rest h.opened hq
    cases hstep.symm.trans hstep₁
    obtain rfl : k = j := by omega
    exact hright.mp hplaces hloses.2
  · intro hplace m₁ rest₁ _ hq₁
    cases hq.symm.trans hq₁
    exact ⟨t', k, hstep, hopen, hsent, hright.mpr fun hcut => hplace ⟨h.opened, hcut⟩⟩

theorem keepsPlace_fail_iff (h : t.Sending) (hsock : t.sock ≠ -1) (hq : t.sendMsgs = m :: rest) :
    t.KeepsPlace .fail ↔ ¬ t.LosesPlace .fail := by
  obtain ⟨pre, cur, post, hm⟩ := h.queued m (by simp [hq])
  have hstep : t.onWrite .fail = t.writeMessage .fails := socketUpdate_writes h hq _ _
  constructor
  · intro hkeeps hloses
    obtain ⟨-, m₁, hhead, hcount, hsz⟩ := hloses
    obtain rfl : m = m₁ := by simpa [hq] using hhead
    obtain ⟨t', hrun, hmoved⟩ := h.fails_in_payload hsock hq hm hcount hsz
    obtain ⟨t₁, hstep₁, -, hsame⟩ := hkeeps m rest h.opened hq
    cases (hstep.trans hrun).symm.trans hstep₁
    exact hmoved hsame
  · intro hplace m₁ rest₁ _ hq₁
    cases hq.symm.trans hq₁
    obtain ⟨t', hrun, hstopped, hsame⟩ := h.fails_before_payload hsock hq hm fun hpayload =>
      hplace ⟨h.opened, m, by simp [hq], hpayload⟩
    exact ⟨t', hstep.trans hrun, hstopped.closed, hsame⟩

/-- An event keeps the place of the front message exactly if it does not lose it. -/
theorem Queues.keepsPlace_iff (h : t.Queues) (e : WriteEvent) :
    t.KeepsPlace e ↔ ¬ t.LosesPlace e := by
  rcases h with ⟨hsending, hsock⟩ | hstopped
  · cases hq : t.sendMsgs with
    | nil =>
        apply iff_of_true
        · intro m rest _ hcons
          rw [hq] at hcons
          cases hcons
        · intro hloses
          rcases e with (o | a) | _
          · exact hloses.2
          · obtain ⟨-, m, hhead, -⟩ := hloses
            simp [hq] at hhead
          · obtain ⟨-, m, hhead, -⟩ := hloses
            simp [hq] at hhead
    | cons m rest =>
        rcases e with (o | a) | _
        · exact iff_of_true (fun _ _ _ _ => trivial) fun hloses => hloses.2
        · exact keepsPlace_writable_iff hsending hq a
        · exact keepsPlace_fail_iff hsending hsock hq
  · apply iff_of_true
    · intro m rest hopen
      rw [hstopped.closed] at hopen
      cases hopen
    · intro hloses
      exact absurd (hstopped.closed.symm.trans hloses.1) (by decide)

/-! ### Runs -/

section

variable (sock : Nat) (uninit : Message) (heap : Nat → UInt8)

theorem along_keepsPlace_iff (events : List WriteEvent) :
    Along onWrite KeepsPlace (passing sock uninit heap) events ↔
      Along onWrite (fun t e => ¬ t.LosesPlace e) (passing sock uninit heap) events := by
  apply along_congr (I := Queues) _ (fun t e h => h.keepsPlace_iff e) (queues_passing sock uninit heap)
  intro t e t' h hplace hok
  obtain ⟨t₁, hok₁, h₁⟩ := h.step hplace
  cases hok.symm.trans hok₁
  exact h₁

/-- **Every write of a run keeps its message's place, and no cursor passes its frame's end, exactly if no
write fails in a payload or cuts the size of an empty frame.** -/
theorem run_keepsPlace_iff (events : List WriteEvent) :
    (Along onWrite KeepsPlace (passing sock uninit heap) events ∧
      ∀ before, before <+: events → ∀ t, run onWrite (passing sock uninit heap) before = .ok t →
        t.FilledInBounds) ↔
      Along onWrite (fun t e => ¬ t.LosesPlace e) (passing sock uninit heap) events := by
  rw [along_keepsPlace_iff, and_iff_left_iff_imp]
  intro hclean before hbefore t hrun
  obtain ⟨t₁, hrun₁, hqueues⟩ := run_invariant (fun _ _ h hplace => h.step hplace)
    (queues_passing sock uninit heap) (hclean.of_prefix hbefore)
  cases hrun.symm.trans hrun₁
  exact hqueues.filledInBounds

end

/-- One frame of one byte. -/
def oneByte : OutFrames where
  frames := [⟨[0], 1⟩]
  nonempty := by simp
  count := by decide
  backed := by decide

/-- The count and the size are sent, and the write of the payload fails. -/
theorem not_keepsPlace : ¬ ∀ (sock : Nat) (uninit : Message) (heap : Nat → UInt8)
    (events : List WriteEvent),
    Along onWrite KeepsPlace (passing sock uninit heap) events ∧
      ∀ before, before <+: events → ∀ t, run onWrite (passing sock uninit heap) before = .ok t →
        t.FilledInBounds := by
  intro hall
  have hkeeps := (hall 7 ⟨[], 0, 0, 0, 0, 0, 0⟩ (fun _ => 0)
    [.send (.sendFrames oneByte), .send (.writable .whole), .send (.writable .whole), .fail]).1
  rw [along_keepsPlace_iff] at hkeeps
  have hlast := ((hkeeps.2 _ rfl).2 _ rfl).2 _ rfl
  exact hlast.1 ⟨rfl, _, rfl, rfl, rfl⟩

end TransportTCP

end Ros2Proto
