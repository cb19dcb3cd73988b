import Ros2Proto.Transport.Reader

/-!
# The reader on every stream

What `readMessage` keeps to whatever the peer sends, however the stream is cut, ends or fails, and
whoever closes the transport in between. `Progress` follows the cursors through every read, the
premature ends of frames included, so its validity is the invariant that carries the bounds. The
bytes of the frames handed over occur in the stream one frame behind another.
-/

namespace Ros2Proto

open LittleEndian FallibleRun

/-- The pieces occur in the stream one behind another, each in one piece. -/
def OccurInOrder {α : Type*} : List (List α) → List α → Prop
  | [], _ => True
  | p :: ps, stream => ∃ before after, stream = before ++ (p ++ after) ∧ OccurInOrder ps after

namespace OccurInOrder

variable {α : Type*} {ps qs : List (List α)} {s t : List α}

theorem prepend (h : OccurInOrder ps s) (before : List α) : OccurInOrder ps (before ++ s) := by
  cases ps with
  | nil => trivial
  | cons p ps =>
      obtain ⟨gap, after, rfl, hrest⟩ := h
      exact ⟨before ++ gap, after, by rw [List.append_assoc], hrest⟩

theorem append (h : OccurInOrder ps s) (h' : OccurInOrder qs t) :
    OccurInOrder (ps ++ qs) (s ++ t) := by
  induction ps generalizing s with
  | nil => exact h'.prepend s
  | cons p ps ih =>
      obtain ⟨gap, after, rfl, hrest⟩ := h
      refine ⟨gap, after ++ t, ?_, ih hrest⟩
      simp only [List.append_assoc]

theorem extend (h : OccurInOrder ps s) (t : List α) : OccurInOrder ps (s ++ t) := by
  have happend := h.append (show OccurInOrder [] t from trivial)
  rwa [List.append_nil] at happend

theorem single (p : List α) : OccurInOrder [p] p :=
  ⟨[], [], by simp, trivial⟩

theorem left (h : OccurInOrder (ps ++ qs) s) : OccurInOrder ps s := by
  induction ps generalizing s with
  | nil => trivial
  | cons p ps ih =>
      obtain ⟨gap, after, rfl, hrest⟩ := h
      exact ⟨gap, after, rfl, ih hrest⟩

end OccurInOrder

namespace Progress

/-- The payloads of the frames of this message that are complete. -/
def doneFrames : Progress → List Payload
  | count _ | closed => []
  | size done _ _ | payload done _ _ _ => done

/-- The bytes of the payload under way. -/
def got : Progress → List UInt8
  | payload _ _ got _ => got
  | count _ | size _ _ _ | closed => []

theorem flatten_messagesAfterFrame (done : List Payload) (p : Payload) (left : Nat) :
    (messagesAfterFrame done p left).flatten ++ (afterFrame done p left).doneFrames = done ++ [p] ∧
      (afterFrame done p left).got = [] := by
  cases left with
  | zero => simp [messagesAfterFrame, afterFrame, doneFrames, got]
  | succ left => simp [messagesAfterFrame, afterFrame, doneFrames, got]

/-- A read adds at most one payload, which stands in the bytes read for it. -/
theorem account_next (p : Progress) (new : List UInt8) :
    ∃ pieces s gap, (p.finished new).flatten ++ (p.next new).doneFrames = p.doneFrames ++ pieces ∧
      p.got ++ new = s ++ (gap ++ (p.next new).got) ∧ OccurInOrder pieces s := by
  cases p with
  | count bs =>
      refine ⟨[], [], new, ?_, ?_, trivial⟩
      · rw [next, finished]
        split_ifs <;> rfl
      · rw [next]
        split_ifs <;> simp [got]
  | size done sz left =>
      rw [next, finished]
      by_cases hzero : decode (sz ++ new) = 0
      · obtain ⟨hflatten, hgot⟩ := flatten_messagesAfterFrame done [] left
        rw [if_pos hzero, if_pos hzero, hgot]
        exact ⟨[[]], [], new, hflatten, by simp [got], OccurInOrder.single []⟩
      · rw [if_neg hzero, if_neg hzero]
        refine ⟨[], [], new, ?_, ?_, trivial⟩
        · split_ifs <;> simp [doneFrames]
        · split_ifs <;> simp [got]
  | payload done n old left =>
      rw [next, finished]
      by_cases hmore : (old ++ new).length < n
      · simp only [if_pos hmore]
        exact ⟨[], [], [], by simp [doneFrames], by simp [got], trivial⟩
      · obtain ⟨hflatten, hgot⟩ := flatten_messagesAfterFrame done (old ++ new) left
        simp only [if_neg hmore, hgot]
        exact ⟨[old ++ new], old ++ new, [], hflatten, by simp [got], OccurInOrder.single _⟩
  | closed => exact ⟨[], [], new, rfl, by simp [got, next], trivial⟩

/-- The messages handed over have frames, and each frame's length fits its size field. -/
theorem finished_valid {p : Progress} {new : List UInt8} (hp : p.Valid)
    (hnew : new.length ≤ p.asked) : ∀ m ∈ p.finished new, messageCode.Valid m := by
  cases p with
  | count bs => exact fun m hm => absurd hm List.not_mem_nil
  | size done sz left =>
      obtain ⟨-, hcount, hdone⟩ := hp
      rw [finished]
      split_ifs
      · exact messagesAfterFrame_valid hcount hdone (by simp)
      · exact fun m hm => absurd hm List.not_mem_nil
  | payload done n got left =>
      obtain ⟨hgot, hn, hcount, hdone⟩ := hp
      have hle : new.length ≤ n - got.length := hnew
      rw [finished]
      split_ifs
      · exact fun m hm => absurd hm List.not_mem_nil
      · apply messagesAfterFrame_valid hcount hdone
        rw [List.length_append]
        omega
  | closed => exact fun m hm => absurd hm List.not_mem_nil

end Progress

/-- The cursors of a message that is being read, and the frames made for its count. -/
structure Message.InBounds (m : Message) : Prop where
  numframesFilled : m.numframesFilled.toNat ≤ 4
  frameSzFilled : m.frameSzFilled.toNat ≤ 4
  counted : m.numframesFilled = 4 → m.frames.length = m.numframes.toNat

/-- A readiness event, with the answer of the socket, or a call of `close`. -/
inductive ReadEvent
  | readable (recv : Recv)
  | close

namespace TransportTCP

/-- `socketUpdate` with `POLLIN`, or `close`. -/
def onRead (t : TransportTCP) : ReadEvent → Except Fault TransportTCP
  | .readable recv => t.socketUpdate POLLIN recv (.take 0)
  | .close => t.close

/-- How many bytes the next `readMessage` asks for. -/
def asked (t : TransportTCP) : Nat :=
  let m := t.startReading.readMsg
  if m.numframesFilled < 4 then (4 - m.numframesFilled).toNat
  else if m.frameSzFilled < 4 then (4 - m.frameSzFilled).toNat
  else match m.frames[m.frameInd.toNat]? with
    | none => 0
    | some frame => (frame.size - m.frameFilled).toNat

/-- What reading is safe means in the state `t`, for the message `uninit` that no constructor
initialized. -/
structure ReadsSafely (uninit : Message) (t : TransportTCP) : Prop where
  /-- the cursors, from the first event on -/
  bounds : t.readMsg = uninit ∨ t.readMsg.InBounds
  /-- `frames.at(frame_ind)` finds its element -/
  current : t.closed = false → t.reading = true → t.readMsg.numframesFilled = 4 →
    t.readMsg.frameInd.toNat < t.readMsg.frames.length
  /-- a payload is read into the rest of a buffer of its size -/
  buffer : t.closed = false → t.reading = true → t.readMsg.numframesFilled = 4 →
    t.readMsg.frameSzFilled = 4 → ∃ frame, t.readMsg.frames[t.readMsg.frameInd.toNat]? = some frame ∧
      frame.data.length = frame.size.toNat ∧ t.readMsg.frameFilled.toNat < frame.size.toNat
  whole : ∀ frames ∈ t.delivered, frames ≠ [] ∧ ∀ f ∈ frames, f.data.length = f.size.toNat
  fromStream : OccurInOrder (t.delivered.flatten.map Frame.data) t.received
  /-- a count of zero closes -/
  zeroCount : t.reading = true → t.readMsg.numframesFilled = 4 → t.readMsg.numframes = 0 →
    t.closed = true
  /-- a read that fails closes, and hands nothing over -/
  closes : t.closed = false → ∀ recv : Recv,
    (∀ bs, recv.result (min t.asked intMax) ≠ .bytes bs) →
      ∃ t', t.onRead (.readable recv) = .ok t' ∧ t'.closed = true ∧ t'.received = t.received ∧
        t'.delivered = t.delivered
  /-- a closed transport does nothing any more -/
  quiet : t.closed = true → ∀ events, run onRead t events = .ok t

/-! ### The cursors -/

theorem inBounds_startReading {t : TransportTCP} (h : t.reading = true → t.readMsg.InBounds) :
    t.startReading.readMsg.InBounds := by
  rw [startReading]
  split_ifs with hreading
  · exact h hreading
  · exact ⟨Nat.zero_le _, Nat.zero_le _, fun hfour => absurd hfour (by simp)⟩

/-- A `read` that returns has failed and closed, or has taken no more bytes than it was asked for. -/
theorem read_cases {t t' : TransportTCP} {recv : Recv} {size : UInt32} {n : Int} {bs : List UInt8}
    (h : t.read recv size = .ok (n, bs, t')) :
    (n = -1 ∧ t.close = .ok t') ∨
      (n = bs.length ∧ bs.length ≤ size.toNat ∧ t' = { t with received := t.received ++ bs }) := by
  rw [read] at h
  split_ifs at h with hclosed
  · cases h
    exact Or.inl ⟨rfl, if_pos hclosed⟩
  · split at h
    · rename_i hrecv
      cases h
      exact Or.inr ⟨rfl, recv_length_le hrecv, rfl⟩
    all_goals
      obtain ⟨t₁, hclose, heq⟩ := map_eq_ok_iff.mp h
      cases heq
      exact Or.inl ⟨rfl, hclose⟩

/-- A `read` leaves the message alone, and returns no more than it was asked for. -/
theorem read_eq_ok {t t' : TransportTCP} {recv : Recv} {size : UInt32} {n : Int} {bs : List UInt8}
    (h : t.read recv size = .ok (n, bs, t')) :
    t'.readMsg = t.readMsg ∧ (0 ≤ n → n = bs.length ∧ bs.length ≤ size.toNat) := by
  rcases read_cases h with ⟨rfl, hclose⟩ | ⟨hn, hbs, rfl⟩
  · have hsame : t'.readMsg = t.readMsg := by
      rw [close] at hclose
      split_ifs at hclose <;> exact (Except.ok.inj hclose) ▸ rfl
    exact ⟨hsame, fun hnonneg => absurd hnonneg (by decide)⟩
  · exact ⟨rfl, fun _ => ⟨hn, hbs⟩⟩

/-- Adding what a read returned to a field counter of which `size` bytes are missing. -/
theorem filled_le_four {filled : UInt32} {bs : List UInt8} {n : Int} (hfilled : filled.toNat ≤ 4)
    (hn : n = bs.length) (hbs : bs.length ≤ (4 - filled).toNat) :
    (filled + wrapU32 n).toNat ≤ 4 := by
  have hleft : ((4 : UInt32) - filled).toNat = 4 - filled.toNat := toNat_sub_cursor hfilled
  rw [hn, wrapU32_natCast, toNat_add_cursor (by omega)]
  omega

theorem length_resizeFrames (frames : List Frame) (n : Nat) : (resizeFrames frames n).length = n := by
  rw [resizeFrames, List.length_append, List.length_take, List.length_replicate]
  omega

theorem readNumframes_inBounds {t t' : TransportTCP} {recv : Recv} (h : t.readMsg.InBounds)
    (hrun : t.readNumframes recv = .ok t') : t'.readMsg.InBounds := by
  obtain ⟨⟨n, bs, t₁⟩, hread, hrest⟩ := bind_eq_ok_iff.mp hrun
  obtain ⟨hsame, hbound⟩ := read_eq_ok hread
  dsimp only at hrest
  by_cases hfail : n < 0
  · rw [if_pos hfail] at hrest
    obtain rfl := Except.ok.inj hrest
    exact hsame.symm ▸ h
  · obtain ⟨hn, hbs⟩ := hbound (Int.not_lt.mp hfail)
    have hfilled := filled_le_four h.numframesFilled hn hbs
    rw [if_neg hfail] at hrest
    simp only [hsame] at hrest
    by_cases hfour : t.readMsg.numframesFilled + wrapU32 n = 4
    · rw [if_pos hfour] at hrest
      have hafter : ∀ numframes : UInt32, Message.InBounds { t.readMsg with
          numframes := numframes
          numframesFilled := t.readMsg.numframesFilled + wrapU32 n
          frames := resizeFrames t.readMsg.frames numframes.toNat } := fun numframes =>
        ⟨hfilled, h.frameSzFilled, fun _ => length_resizeFrames _ _⟩
      split_ifs at hrest
      · obtain ⟨t₂, -, hlast⟩ := bind_eq_ok_iff.mp hrest
        obtain rfl := Except.ok.inj hlast
        exact hafter _
      · obtain rfl := Except.ok.inj hrest
        exact hafter _
    · rw [if_neg hfour] at hrest
      obtain rfl := Except.ok.inj hrest
      exact ⟨hfilled, h.frameSzFilled, fun heq => absurd heq hfour⟩

theorem endFrame_inBounds {t t' : TransportTCP} {frame : Frame} (h : t.readMsg.InBounds)
    (hrun : t.endFrame frame = .ok t') : t'.readMsg.InBounds := by
  rw [endFrame] at hrun
  dsimp only at hrun
  split_ifs at hrun
  · obtain rfl := Except.ok.inj hrun
    exact ⟨h.numframesFilled, Nat.zero_le _, h.counted⟩
  · obtain rfl := Except.ok.inj hrun
    exact ⟨h.numframesFilled, Nat.zero_le _, h.counted⟩
  · obtain rfl := Except.ok.inj hrun
    exact h

theorem counted_setFrame {m : Message} (h : m.numframesFilled = 4 → m.frames.length = m.numframes.toNat)
    (frame : Frame) : m.numframesFilled = 4 → (m.setFrame frame).frames.length = m.numframes.toNat := by
  intro hfour
  rw [Message.setFrame, List.length_set]
  exact h hfour

/-- What a `readFrame` that returns has done: the frame was complete but for its end, or a read failed, or a
piece of the size or of the payload came in. -/
theorem readFrame_cases {t t' : TransportTCP} {recv : Recv} (hrun : t.readFrame recv = .ok t') :
    (∃ frame, t.endFrame frame = .ok t') ∨
      ∃ size n bs t₁, t.read recv size = .ok (n, bs, t₁) ∧ (n < 0 ∧ t₁ = t' ∨ 0 ≤ n ∧ ∃ frame : Frame,
        (size = 4 - t.readMsg.frameSzFilled ∧
          endFrame { t₁ with readMsg := { t₁.readMsg.setFrame frame with
            frameSzFilled := t₁.readMsg.frameSzFilled + wrapU32 n } } frame = .ok t') ∨
        endFrame { t₁ with readMsg := { t₁.readMsg.setFrame frame with
          frameFilled := t₁.readMsg.frameFilled + wrapU32 n } } frame = .ok t') := by
  rw [readFrame] at hrun
  split at hrun
  · cases hrun
  · rename_i frame _
    dsimp only at hrun
    split_ifs at hrun
    · obtain ⟨⟨n, bs, t₁⟩, hread, hrest⟩ := bind_eq_ok_iff.mp hrun
      refine Or.inr ⟨_, n, bs, t₁, hread, ?_⟩
      by_cases hfail : n < 0
      · exact Or.inl ⟨hfail, Except.ok.inj ((if_pos hfail).symm.trans hrest)⟩
      · exact Or.inr ⟨Int.not_lt.mp hfail, _, Or.inl ⟨rfl, (if_neg hfail).symm.trans hrest⟩⟩
    · obtain ⟨⟨n, bs, t₁⟩, hread, hrest⟩ := bind_eq_ok_iff.mp hrun
      refine Or.inr ⟨_, n, bs, t₁, hread, ?_⟩
      by_cases hfail : n < 0
      · exact Or.inl ⟨hfail, Except.ok.inj ((if_pos hfail).symm.trans hrest)⟩
      · exact Or.inr ⟨Int.not_lt.mp hfail, _, Or.inr ((if_neg hfail).symm.trans hrest)⟩
    · exact Or.inl ⟨frame, hrun⟩

theorem readFrame_inBounds {t t' : TransportTCP} {recv : Recv} (h : t.readMsg.InBounds)
    (hrun : t.readFrame recv = .ok t') : t'.readMsg.InBounds := by
  rcases readFrame_cases hrun with ⟨frame, hend⟩ | ⟨size, n, bs, t₁, hread, hrest⟩
  · exact endFrame_inBounds h hend
  · obtain ⟨hsame, hbound⟩ := read_eq_ok hread
    rcases hrest with ⟨-, rfl⟩ | ⟨hnonneg, frame, ⟨rfl, hend⟩ | hend⟩
    · exact hsame.symm ▸ h
    · obtain ⟨hn, hbs⟩ := hbound hnonneg
      apply endFrame_inBounds _ hend
      rw [hsame]
      exact ⟨h.numframesFilled, filled_le_four h.frameSzFilled hn hbs, counted_setFrame h.counted _⟩
    · apply endFrame_inBounds _ hend
      rw [hsame]
      exact ⟨h.numframesFilled, h.frameSzFilled, counted_setFrame h.counted _⟩

/-- Whatever a `readMessage` that returns has read, the cursors it leaves are in bounds. -/
theorem readMessage_inBounds {t t' : TransportTCP} {recv : Recv}
    (h : t.reading = true → t.readMsg.InBounds) (hrun : t.readMessage recv = .ok t') :
    t'.readMsg.InBounds := by
  have hstart := inBounds_startReading h
  rw [readMessage] at hrun
  dsimp only at hrun
  split_ifs at hrun
  · exact readNumframes_inBounds hstart hrun
  · exact readFrame_inBounds hstart hrun

/-! ### Reads that fail -/

theorem asked_eq {t : TransportTCP} {p : Progress} (hopen : p ≠ .closed) (hvalid : p.Valid)
    (hat : t.At p) : t.asked = p.asked := by
  cases p with
  | count bs =>
      have hbs : bs.length < 4 := hvalid
      have hfilled := hat.2.1
      rw [asked, if_pos ((lt_four_iff _).mpr (hfilled ▸ hbs)), toNat_sub_cursor, hfilled]
      · rfl
      · rw [hfilled]
        exact hbs.le
  | size done sz left =>
      obtain ⟨size, hframe, -, hfilled, -⟩ := hat
      have hsz : sz.length < 4 := hvalid.1
      rw [asked, startReading_of_reading hframe.reading, hframe.numframesFilled,
        if_neg (by decide), if_pos ((lt_four_iff _).mpr (hfilled ▸ hsz)), toNat_sub_cursor, hfilled]
      · rfl
      · rw [hfilled]
        exact hsz.le
  | payload done n got left =>
      obtain ⟨frame, hframe, hfilled, hsz, hn, -, -⟩ := hat
      have hgot : got.length < n := hvalid.1
      rw [asked, startReading_of_reading hframe.reading, hframe.numframesFilled, hsz,
        if_neg (by decide), if_neg (by decide), hframe.current]
      show (frame.size - t.readMsg.frameFilled).toNat = n - got.length
      rw [toNat_sub_cursor (by omega), hn, hfilled]
  | closed => exact absurd rfl hopen

/-- `t` closed, with nothing received or handed over. -/
structure ClosedAt (t t' : TransportTCP) : Prop where
  closed : t'.closed = true
  received : t'.received = t.received
  delivered : t'.delivered = t.delivered
  readMsg : t'.readMsg = t.readMsg

theorem Listening.close {t : TransportTCP} (h : t.Listening) :
    ∃ t', t.close = .ok t' ∧ ClosedAt t t' := by
  rw [TransportTCP.close, h.opened, if_neg Bool.false_ne_true, if_neg h.sock]
  exact ⟨_, rfl, rfl, rfl, rfl, rfl⟩

theorem read_fails {t : TransportTCP} {recv : Recv} {size : UInt32} (h : t.Listening)
    (hsize : 0 < size.toNat) (hfail : ∀ bs, recv.result (min size.toNat intMax) ≠ .bytes bs) :
    ∃ t', t.read recv size = .ok (-1, [], t') ∧ ClosedAt t t' := by
  obtain ⟨t', hclose, hclosed⟩ := h.close
  have hne : size ≠ 0 := by
    rintro rfl
    exact absurd hsize (by decide)
  refine ⟨t', ?_, hclosed⟩
  rw [read, h.opened, if_neg Bool.false_ne_true, if_neg hne, hclose]
  split
  · rename_i bs hrecv
    exact absurd hrecv (hfail bs)
  · rfl
  · rfl

theorem Listening.startReading {t : TransportTCP} (h : t.Listening) : t.startReading.Listening := by
  rw [TransportTCP.startReading]
  split_ifs
  · exact h
  · exact ⟨h.opened, h.sock, h.messages, h.readmsgCb, h.readCb, h.expectingRead⟩

/-- A `readMessage` whose read fails closes the transport. -/
theorem readMessage_fails {t : TransportTCP} {p : Progress} {recv : Recv} (hlisten : t.Listening)
    (hopen : p ≠ .closed) (hvalid : p.Valid) (hat : t.At p)
    (hfail : ∀ bs, recv.result (min p.asked intMax) ≠ .bytes bs) :
    ∃ t', t.readMessage recv = .ok t' ∧ ClosedAt t.startReading t' := by
  have hpos : 0 < p.asked := Progress.asked_pos hvalid hopen
  have hasked := asked_eq hopen hvalid hat
  rw [← hasked, asked] at hfail hpos
  simp only [readMessage, hlisten.messages, Bool.not_true, Bool.false_eq_true, if_false]
  cases p with
  | count bs =>
      have hbs : bs.length < 4 := hvalid
      have hcount := (lt_four_iff t.startReading.readMsg.numframesFilled).mpr (hat.2.1 ▸ hbs)
      simp only [if_pos hcount] at hfail hpos ⊢
      obtain ⟨t', hread, hclosed⟩ := read_fails hlisten.startReading hpos hfail
      refine ⟨t', ?_, hclosed⟩
      rw [readNumframes, hread]
      rfl
  | size done sz left =>
      obtain ⟨size, hframe, -, hfilled, -⟩ := hat
      have hsz : sz.length < 4 := hvalid.1
      have hsize := (lt_four_iff t.readMsg.frameSzFilled).mpr (hfilled ▸ hsz)
      have hcount : ¬ (4 : UInt32) < 4 := by decide
      rw [startReading_of_reading hframe.reading] at hfail hpos ⊢
      simp only [hframe.numframesFilled, if_neg hcount, if_pos hsize] at hfail hpos ⊢
      obtain ⟨t', hread, hclosed⟩ := read_fails hlisten hpos hfail
      refine ⟨t', ?_, hclosed⟩
      rw [readFrame, hframe.current]
      simp only [if_pos hsize, hread]
      rfl
  | payload done n got left =>
      obtain ⟨frame, hframe, hfilled, hsz, hn, hdata, -⟩ := hat
      have hcount : ¬ (4 : UInt32) < 4 := by decide
      have hgot : got.length < n := hvalid.1
      rw [startReading_of_reading hframe.reading] at hfail hpos ⊢
      simp only [hframe.numframesFilled, hsz, if_neg hcount, hframe.current] at hfail hpos ⊢
      obtain ⟨t', hread, hclosed⟩ := read_fails hlisten hpos hfail
      have hleft : (frame.size - t.readMsg.frameFilled).toNat = n - got.length := by
        rw [toNat_sub_cursor (by omega), hn, hfilled]
      refine ⟨t', ?_, hclosed⟩
      rw [readFrame, hframe.current]
      simp only [hsz, if_neg hcount, if_pos ((pos_iff _).mpr hpos)]
      rw [if_neg (by omega), hread]
      rfl
  | closed => exact absurd rfl hopen

/-! ### The invariant -/

/-- The reader is at `p`, and the frames it has handed over and completed stand in the stream in
front of the payload under way. -/
structure Accounts (uninit : Message) (t : TransportTCP) (p : Progress) : Prop where
  valid : p.Valid
  listening : p ≠ .closed → t.Listening
  place : t.At p
  bounds : (t.reading = false ∧ t.readMsg = uninit) ∨ t.readMsg.InBounds
  whole : ∀ frames ∈ t.delivered, frames ≠ [] ∧ ∀ f ∈ frames, f.data.length = f.size.toNat
  stands : ∃ s gap, t.received = s ++ (gap ++ p.got) ∧
    OccurInOrder (t.delivered.flatten.map Frame.data ++ p.doneFrames) s

variable {uninit : Message} {t t' : TransportTCP} {p : Progress}

theorem Accounts.inBounds (h : t.Accounts uninit p) (hreading : t.reading = true) :
    t.readMsg.InBounds := by
  rcases h.bounds with ⟨hidle, -⟩ | hbounds
  · rw [hreading] at hidle
    cases hidle
  · exact hbounds

theorem accounts_passing (sock : Nat) (uninit : Message) (heap : Nat → UInt8) :
    (passing sock uninit heap).Accounts uninit (.count []) where
  valid := Nat.succ_pos 3
  listening := (readsUpTo_passing sock uninit heap).listening
  place := at_count_nil rfl
  bounds := Or.inl ⟨rfl, rfl⟩
  whole _ hmem := absurd hmem List.not_mem_nil
  stands := ⟨[], [], rfl, trivial⟩

/-- Closing keeps what was handed over. -/
theorem Accounts.toClosed (h : t.Accounts uninit p) (hclosed : t'.closed = true)
    (hreceived : t'.received = t.received) (hdelivered : t'.delivered = t.delivered)
    (hbounds : (t'.reading = false ∧ t'.readMsg = uninit) ∨ t'.readMsg.InBounds) :
    t'.Accounts uninit .closed where
  valid := trivial
  listening hopen := absurd rfl hopen
  place := hclosed
  bounds := hbounds
  whole := hdelivered.symm ▸ h.whole
  stands := by
    obtain ⟨s, gap, hstream, horder⟩ := h.stands
    refine ⟨t'.received, [], by simp [Progress.got], ?_⟩
    rw [hreceived, hdelivered, hstream]
    show OccurInOrder (_ ++ []) _
    rw [List.append_nil]
    exact horder.left.extend _

theorem data_ofBytes (ms : List (List Payload)) :
    (ms.map (List.map Frame.ofBytes)).flatten.map Frame.data = ms.flatten := by
  have hdata : Frame.data ∘ Frame.ofBytes = id := rfl
  rw [← List.map_flatten, List.map_map, hdata, List.map_id]

/-- A successful read. -/
theorem Accounts.next (h : t.Accounts uninit p) {bs : List UInt8} (hbs : bs.length ≤ p.asked)
    (hsim : Simulates t p bs t') (hbounds : t'.readMsg.InBounds) :
    t'.Accounts uninit (p.next bs) where
  valid := Progress.next_valid h.valid hbs
  listening := hsim.listening
  place := hsim.place
  bounds := Or.inr hbounds
  whole := by
    intro frames hmem
    rw [hsim.delivered] at hmem
    rcases List.mem_append.mp hmem with hold | hnew
    · exact h.whole frames hold
    · obtain ⟨m, hm, rfl⟩ := List.mem_map.mp hnew
      obtain ⟨⟨-, hsome⟩, hsizes⟩ := (messageCode_valid m).mp (Progress.finished_valid h.valid hbs m hm)
      constructor
      · intro hnil
        rw [List.map_eq_nil_iff.mp hnil] at hsome
        exact absurd hsome (by decide)
      · intro f hf
        obtain ⟨q, hq, rfl⟩ := List.mem_map.mp hf
        exact (ofBytes_size (hsizes q hq)).symm
  stands := by
    obtain ⟨s, gap, hstream, horder⟩ := h.stands
    obtain ⟨pieces, s', gap', hpieces, hbytes, horder'⟩ := p.account_next bs
    refine ⟨s ++ (gap ++ s'), gap', ?_, ?_⟩
    · rw [hsim.received, hstream]
      simp only [List.append_assoc, hbytes]
    · have hall : t'.delivered.flatten.map Frame.data ++ (p.next bs).doneFrames
          = (t.delivered.flatten.map Frame.data ++ p.doneFrames) ++ pieces := by
        rw [hsim.delivered, List.flatten_append, List.map_append, data_ofBytes, List.append_assoc,
          hpieces, List.append_assoc]
      rw [hall]
      exact horder.append (horder'.prepend gap)

theorem onRead_closed (h : t.closed = true) (e : ReadEvent) : t.onRead e = .ok t := by
  cases e with
  | readable recv => rw [onRead, socketUpdate, if_pos h]
  | close => rw [onRead, close, if_pos h]

/-- A read that fails closes the transport, whatever the place. -/
theorem Accounts.fails (h : t.Accounts uninit p) (hopen : p ≠ .closed) {recv : Recv}
    (hfail : ∀ bs, recv.result (min p.asked intMax) ≠ .bytes bs) :
    ∃ t', t.onRead (.readable recv) = .ok t' ∧ t'.closed = true ∧ t'.received = t.received ∧
      t'.delivered = t.delivered ∧ t'.readMsg.InBounds := by
  have hlisten := h.listening hopen
  obtain ⟨t', hrun, hclosed⟩ := readMessage_fails hlisten hopen h.valid h.place hfail
  refine ⟨t', (socketUpdate_listening hlisten recv).trans hrun, hclosed.closed,
    hclosed.received.trans (startReading_received t),
    hclosed.delivered.trans (startReading_delivered t), ?_⟩
  rw [hclosed.readMsg]
  exact inBounds_startReading h.inBounds

theorem Accounts.step (h : t.Accounts uninit p) (e : ReadEvent) :
    ∃ t', t.onRead e = .ok t' ∧ ∃ p', t'.Accounts uninit p' := by
  by_cases hopen : p = .closed
  · subst hopen
    exact ⟨t, onRead_closed h.place e, .closed, h⟩
  · have hlisten := h.listening hopen
    cases e with
    | close =>
        obtain ⟨t', hrun, hclosed⟩ := hlisten.close
        have hreading : t'.reading = t.reading := by
          rw [TransportTCP.close, hlisten.opened, if_neg Bool.false_ne_true, if_neg hlisten.sock] at hrun
          exact Except.ok.inj hrun ▸ rfl
        refine ⟨t', hrun, .closed, h.toClosed hclosed.closed hclosed.received hclosed.delivered ?_⟩
        rw [hreading, hclosed.readMsg]
        exact h.bounds
    | readable recv =>
        have hfailed : (∀ bs, recv.result (min p.asked intMax) ≠ .bytes bs) →
            ∃ t', t.onRead (.readable recv) = .ok t' ∧ ∃ p', t'.Accounts uninit p' := by
          intro hfail
          obtain ⟨t', hrun, hclosed, hreceived, hdelivered, hbounds⟩ := h.fails hopen hfail
          exact ⟨t', hrun, .closed, h.toClosed hclosed hreceived hdelivered (Or.inr hbounds)⟩
        cases hrecv : recv.result (min p.asked intMax) with
        | bytes bs =>
            obtain ⟨t', hrun, hsim⟩ := readMessage_next hlisten hopen h.valid h.place hrecv
            have hbounds := readMessage_inBounds h.inBounds hrun
            exact ⟨t', (socketUpdate_listening hlisten recv).trans hrun, _,
              h.next (recv_length_le hrecv) hsim hbounds⟩
        | eof => exact hfailed fun bs hbytes => by rw [hrecv] at hbytes; cases hbytes
        | error => exact hfailed fun bs hbytes => by rw [hrecv] at hbytes; cases hbytes

theorem run_closed (h : t.closed = true) (events : List ReadEvent) : run onRead t events = .ok t := by
  induction events with
  | nil => rfl
  | cons e events ih => rw [run_cons_of_step (onRead_closed h e), ih]

theorem Accounts.ne_closed (h : t.Accounts uninit p) (hopen : t.closed = false) : p ≠ .closed := by
  rintro rfl
  have hclosed : t.closed = true := h.place
  rw [hopen] at hclosed
  cases hclosed

/-- Behind the count the reader is in a frame of the message. -/
theorem Accounts.atFrame (h : t.Accounts uninit p) (hopen : t.closed = false)
    (hreading : t.reading = true) (hcount : t.readMsg.numframesFilled = 4) :
    ∃ done frame left, t.AtFrame done frame left ∧ (t.readMsg.frameSzFilled = 4 →
      frame.data.length = frame.size.toNat ∧ t.readMsg.frameFilled.toNat < frame.size.toNat) := by
  have hplace := h.place
  have hvalid := h.valid
  have hplaceOpen := h.ne_closed hopen
  cases p with
  | count bs =>
      have hbs : bs.length < 4 := hvalid
      have hfilled := ((at_count_iff hreading bs).mp hplace).2.1
      rw [hcount] at hfilled
      exact absurd hfilled.symm hbs.ne
  | size done sz left =>
      obtain ⟨size, hframe, -, hfilled, -⟩ := hplace
      refine ⟨done, _, left, hframe, ?_⟩
      intro hfour
      have hsz : sz.length < 4 := hvalid.1
      rw [hfour] at hfilled
      exact absurd hfilled.symm hsz.ne
  | payload done n got left =>
      obtain ⟨frame, hframe, hfilled, -, hn, hdata, -⟩ := hplace
      have hgot : got.length < n := hvalid.1
      refine ⟨done, frame, left, hframe, fun _ => ⟨hdata.trans hn.symm, ?_⟩⟩
      rw [hfilled, hn]
      exact hgot
  | closed => exact absurd rfl hplaceOpen

theorem Accounts.readsSafely (h : t.Accounts uninit p) : t.ReadsSafely uninit where
  bounds := h.bounds.imp And.right id
  current hopen hreading hcount := by
    obtain ⟨done, frame, left, hframe, -⟩ := h.atFrame hopen hreading hcount
    exact (List.getElem?_eq_some_iff.mp hframe.current).1
  buffer hopen hreading hcount hsize := by
    obtain ⟨done, frame, left, hframe, hbuffer⟩ := h.atFrame hopen hreading hcount
    exact ⟨frame, hframe.current, hbuffer hsize⟩
  whole := h.whole
  fromStream := by
    obtain ⟨s, gap, hstream, horder⟩ := h.stands
    rw [hstream]
    exact horder.left.extend _
  zeroCount hreading hcount hzero := by
    by_contra hclosed
    obtain ⟨done, frame, left, hframe, -⟩ :=
      h.atFrame (Bool.eq_false_iff.mpr hclosed) hreading hcount
    have hlength := (h.inBounds hreading).counted hcount
    rw [hframe.frames, hzero] at hlength
    simp at hlength
  closes hopen recv hfail := by
    have hplace := h.ne_closed hopen
    rw [asked_eq hplace h.valid h.place] at hfail
    obtain ⟨t', hrun, hclosed, hreceived, hdelivered, -⟩ := h.fails hplace hfail
    exact ⟨t', hrun, hclosed, hreceived, hdelivered⟩
  quiet hclosed events := run_closed hclosed events

/-- **The reader is safe on every stream.** Whatever each read returns, in any number of events and
with `close` called at any time, no event fails and every state reached reads safely. -/
theorem reader_safe (sock : Nat) (uninit : Message) (heap : Nat → UInt8) (events : List ReadEvent) :
    ∃ t, run onRead (passing sock uninit heap) events = .ok t ∧ t.ReadsSafely uninit := by
  have hstart := accounts_passing sock uninit heap
  obtain ⟨t, hrun, p, haccounts⟩ := run_always
    (I := fun t : TransportTCP => ∃ p, t.Accounts uninit p) (fun t e ⟨p, h⟩ => h.step e) ⟨_, hstart⟩
    events
  exact ⟨t, hrun, haccounts.readsSafely⟩

end TransportTCP

end Ros2Proto
