import Ros2Proto.Base.Runs
import Ros2Proto.Transport.ReaderStep

/-!
# The reader against the grammar

A run of the reader is a list of readiness events, each with the bytes its `read` returns. As long
as no read leaves a frame's size field incomplete with only zero bytes in it, the messages handed to
`readmsg_cb_` are those the stream completes, after every event and however the stream was cut. The
invariant is that the bytes received are the encodings of the messages delivered followed by
`Progress.bytes`, the part of a message that the cursors account for.

A read that does leave such a field ends its frame at once. From there the reader runs ahead of the
grammar: with zero bytes in whole reads it delivers the message before the stream completes it.
-/

namespace Ros2Proto

open LittleEndian FallibleRun

/-- The answers of `read` on a stream that neither ends nor fails: for each number of bytes asked
for, up to that many bytes, none of them when the call would block. -/
structure Chunk where
  bytes : Nat → List UInt8
  bounded : ∀ n, (bytes n).length ≤ n

namespace Chunk

def recv (c : Chunk) : Recv where
  result n := .bytes (c.bytes n)
  bounded n _ h := by
    cases h
    exact c.bounded n

/-- The chunk that hands over the front of `bs`. -/
def give (bs : List UInt8) : Chunk where
  bytes n := bs.take n
  bounded n := List.length_take_le n bs

/-- As many bytes as asked for. -/
def Whole (c : Chunk) : Prop := ∀ n, (c.bytes n).length = n

/-- As many zero bytes as asked for. -/
def zeros : Chunk where
  bytes n := List.replicate n 0
  bounded n := by simp

theorem zeros_whole : zeros.Whole := by
  intro n
  simp [zeros]

end Chunk

namespace Progress

/-- The bytes of the message under way that have been read. -/
def bytes : Progress → List UInt8
  | count bs => bs
  | size done sz left =>
    encode 4 (done.length + 1 + left) ++ done.flatMap frameCode.encode ++ sz
  | payload done n got left =>
    encode 4 (done.length + 1 + left) ++ done.flatMap frameCode.encode ++ encode 4 n ++ got
  | closed => zeroCount

/-- The read leaves the size field incomplete, and all zero so far. -/
def Cuts : Progress → List UInt8 → Prop
  | size _ sz _, new => (sz ++ new).length < 4 ∧ decode (sz ++ new) = 0
  | _, _ => False

theorem afterFrame_bytes (done : List Payload) (p : Payload) (left : Nat) :
    encode 4 (done.length + 1 + left) ++ done.flatMap frameCode.encode ++ frameCode.encode p
      = (messagesAfterFrame done p left).flatMap messageCode.encode
        ++ (afterFrame done p left).bytes := by
  cases left with
  | zero => simp [messagesAfterFrame, afterFrame, bytes, List.flatMap_append]
  | succ left =>
      have hcount : done.length + 1 + (left + 1) = (done ++ [p]).length + 1 + left := by
        simp only [List.length_append, List.length_singleton]
        omega
      simp [messagesAfterFrame, afterFrame, bytes, List.flatMap_append, hcount]

theorem messagesAfterFrame_valid {done : List Payload} {p : Payload} {left : Nat}
    (hcount : done.length + 1 + left < 2 ^ 32) (hdone : ∀ q ∈ done, q.length < 2 ^ 32)
    (hp : p.length < 2 ^ 32) : ∀ m ∈ messagesAfterFrame done p left, messageCode.Valid m := by
  cases left with
  | zero =>
      intro m hm
      rw [messagesAfterFrame, List.mem_singleton] at hm
      subst hm
      rw [messageCode_valid, List.length_append, List.length_singleton]
      refine ⟨⟨by omega, by omega⟩, fun q hq => ?_⟩
      obtain hq | hq := List.mem_append.mp hq
      · exact hdone q hq
      · rw [List.mem_singleton.mp hq]
        exact hp
  | succ left => simp [messagesAfterFrame]

/-- The bytes of an uncut read complete the messages handed over, and the rest is under way. -/
theorem bytes_next {p : Progress} {new : List UInt8} (hp : p.Valid) (hopen : p ≠ closed)
    (hnew : new.length ≤ p.asked) (hcut : ¬ p.Cuts new) :
    p.bytes ++ new = (p.finished new).flatMap messageCode.encode ++ (p.next new).bytes ∧
      ∀ m ∈ p.finished new, messageCode.Valid m := by
  cases p with
  | count bs =>
      have hbs : bs.length < 4 := hp
      have hle : new.length ≤ 4 - bs.length := hnew
      refine ⟨?_, by simp [finished]⟩
      rw [next, finished, List.flatMap_nil, List.nil_append]
      split_ifs with hlength hzero
      · rfl
      · have hfour : (bs ++ new).length = 4 := by rw [List.length_append] at *; omega
        change bs ++ new = encode 4 0
        rw [← hzero, encode_decode_of_length hfour]
      · have hfour : (bs ++ new).length = 4 := by rw [List.length_append] at *; omega
        change bs ++ new = encode 4 (0 + 1 + (decode (bs ++ new) - 1)) ++ [] ++ []
        rw [show 0 + 1 + (decode (bs ++ new) - 1) = decode (bs ++ new) by omega,
          encode_decode_of_length hfour, List.append_nil, List.append_nil]
  | size done sz left =>
      obtain ⟨hsz, hcount, hdone⟩ := hp
      have hle : new.length ≤ 4 - sz.length := hnew
      rw [next, finished]
      by_cases hzero : decode (sz ++ new) = 0
      · have hfour : (sz ++ new).length = 4 := by
          have : ¬ (sz ++ new).length < 4 := fun h => hcut ⟨h, hzero⟩
          rw [List.length_append] at *
          omega
        rw [if_pos hzero, if_pos hzero]
        refine ⟨?_, messagesAfterFrame_valid hcount hdone (by simp)⟩
        rw [← afterFrame_bytes, bytes, List.append_assoc _ sz new, frameCode_encode]
        rw [← encode_decode_of_length hfour, hzero]
        simp
      · rw [if_neg hzero, if_neg hzero]
        refine ⟨?_, by simp⟩
        rw [List.flatMap_nil, List.nil_append]
        split_ifs with hlength
        · simp [bytes]
        · have hfour : (sz ++ new).length = 4 := by rw [List.length_append] at *; omega
          simp only [bytes, List.append_nil, List.append_assoc]
          rw [encode_decode_of_length hfour]
  | payload done n got left =>
      obtain ⟨hgot, hn, hcount, hdone⟩ := hp
      have hle : new.length ≤ n - got.length := hnew
      rw [next, finished]
      split_ifs with hlength
      · simp [bytes]
      · have hall : (got ++ new).length = n := by rw [List.length_append] at *; omega
        refine ⟨?_, messagesAfterFrame_valid hcount hdone (by omega)⟩
        rw [← afterFrame_bytes, bytes, frameCode_encode, hall]
        simp only [List.append_assoc]
  | closed => exact absurd rfl hopen

/-- A message whose last `left` frames are empty. -/
theorem encode_padded (done : List Payload) (p : Payload) (left : Nat) :
    messageCode.encode (done ++ p :: List.replicate left [])
      = encode 4 (done.length + 1 + left) ++ done.flatMap frameCode.encode
        ++ frameCode.encode p ++ List.replicate (4 * left) 0 := by
  have hempty : (List.replicate left ([] : Payload)).flatMap frameCode.encode
      = List.replicate (4 * left) 0 := by
    induction left with
    | zero => rfl
    | succ left ih =>
        rw [List.replicate_succ, List.flatMap_cons, ih, Nat.mul_succ, Nat.add_comm (4 * left) 4,
          List.replicate_add]
        simp
  have hcount : (done ++ p :: List.replicate left []).length = done.length + 1 + left := by
    simp only [List.length_append, List.length_cons, List.length_replicate]
    omega
  rw [messageCode_encode, hcount, List.flatMap_append, List.flatMap_cons, hempty]
  simp only [List.append_assoc]

theorem padded_valid {done : List Payload} {p : Payload} {left : Nat}
    (hcount : done.length + 1 + left < 2 ^ 32) (hdone : ∀ q ∈ done, q.length < 2 ^ 32)
    (hp : p.length < 2 ^ 32) : messageCode.Valid (done ++ p :: List.replicate left []) := by
  rw [messageCode_valid, List.length_append, List.length_cons, List.length_replicate]
  refine ⟨⟨by omega, by omega⟩, fun q hq => ?_⟩
  obtain hq | hq := List.mem_append.mp hq
  · exact hdone q hq
  · obtain rfl | hq := List.mem_cons.mp hq
    · exact hp
    · rw [List.eq_of_mem_replicate hq]
      simp

/-- What is under way starts with no complete message. -/
theorem noneComplete_bytes {p : Progress} (hp : p.Valid) : messageCode.NoneComplete p.bytes := by
  cases p with
  | count bs => exact noneComplete_of_length_lt hp
  | size done sz left =>
      obtain ⟨hsz, hcount, hdone⟩ := hp
      have hlt : decode sz < 2 ^ 32 :=
        (decode_lt sz).trans_le (Nat.pow_le_pow_right (by decide) hsz.le)
      have hext : List.replicate (4 - sz.length) (0 : UInt8)
          ++ (List.replicate (decode sz) 0 ++ List.replicate (4 * left) 0) ≠ [] := by
        simp only [ne_eq, List.append_eq_nil_iff, List.replicate_eq_nil_iff]
        omega
      have hmessage := padded_valid hcount hdone (p := List.replicate (decode sz) 0)
        (by simpa using hlt)
      refine PrefixCode.noneComplete_of_extends hmessage hext ?_
      rw [encode_padded, frameCode_encode, List.length_replicate, encode_decode_of_le hsz.le]
      simp only [bytes, List.append_assoc]
  | payload done n got left =>
      obtain ⟨hgot, hn, hcount, hdone⟩ := hp
      have hlength : (got ++ List.replicate (n - got.length) 0).length = n := by
        rw [List.length_append, List.length_replicate]
        omega
      have hext : List.replicate (n - got.length) (0 : UInt8) ++ List.replicate (4 * left) 0 ≠ [] := by
        simp only [ne_eq, List.append_eq_nil_iff, List.replicate_eq_nil_iff]
        omega
      have hmessage := padded_valid hcount hdone (p := got ++ List.replicate (n - got.length) 0)
        (by omega)
      refine PrefixCode.noneComplete_of_extends hmessage hext ?_
      rw [encode_padded, frameCode_encode, hlength]
      simp only [bytes, List.append_assoc]
  | closed =>
      have h := noneComplete_zeroCount []
      rwa [List.append_nil] at h

/-- A count of zero is under way only where the reader has closed. -/
theorem closed_of_zeroCount {p : Progress} (hp : p.Valid) {rest : List UInt8}
    (h : p.bytes = zeroCount ++ rest) : p = closed := by
  have hcase : ∀ (n : Nat) (tail : List UInt8), 0 < n → n < 2 ^ 32 →
      encode 4 n ++ tail ≠ zeroCount ++ rest := by
    intro n tail hpos hn heq
    obtain ⟨rfl, -⟩ := u32.determined n 0 _ _ (by simpa using hn) (by simp) heq
    exact absurd hpos (lt_irrefl 0)
  cases p with
  | count bs =>
      have hlength := congrArg List.length h
      have hbs : bs.length < 4 := hp
      simp only [bytes, zeroCount, List.length_append, length_encode] at hlength
      omega
  | size done sz left =>
      rw [bytes, List.append_assoc] at h
      exact absurd h (hcase _ _ (by omega) hp.2.1)
  | payload done n got left =>
      rw [bytes, List.append_assoc, List.append_assoc] at h
      exact absurd h (hcase _ _ (by omega) hp.2.2.1)
  | closed => rfl

end Progress

namespace TransportTCP

/-- One readiness event: `socketUpdate` with `POLLIN`. -/
def onReadable (t : TransportTCP) (c : Chunk) : Except Fault TransportTCP :=
  t.socketUpdate POLLIN c.recv (.take 0)

/-- The read of this event leaves a frame's size field incomplete, with only zero bytes in it. -/
def CutsZeroSize (t : TransportTCP) (c : Chunk) : Prop :=
  t.closed = false ∧ t.reading = true ∧ t.readMsg.numframesFilled = 4 ∧
    t.readMsg.frameSzFilled < 4 ∧
    t.readMsg.frameSzFilled.toNat + (c.bytes (4 - t.readMsg.frameSzFilled.toNat)).length < 4 ∧
    ∃ frame, t.readMsg.frames[t.readMsg.frameInd.toNat]? = some frame ∧
      ∀ b ∈ (bytes frame.size).take t.readMsg.frameSzFilled.toNat
        ++ c.bytes (4 - t.readMsg.frameSzFilled.toNat), b = 0

/-- The deliveries are exactly the messages the bytes received complete, and the connection is
closed exactly when the next count is zero. -/
def MatchesGrammar (t : TransportTCP) : Prop :=
  ∃ ms, t.delivered = ms.map (List.map Frame.ofBytes) ∧ messageCode.Completes t.received ms ∧
    (t.closed = true ↔ ms.flatMap messageCode.encode ++ zeroCount <+: t.received)

/-- The reader is at `p`, and what it has delivered and `p` account for every byte received. -/
structure ReadsUpTo (t : TransportTCP) (ms : List (List Payload)) (p : Progress) : Prop where
  valid : p.Valid
  listening : p ≠ .closed → t.Listening
  place : t.At p
  messages : ∀ m ∈ ms, messageCode.Valid m
  delivered : t.delivered = ms.map (List.map Frame.ofBytes)
  received : t.received = ms.flatMap messageCode.encode ++ p.bytes

theorem onReadable_closed {t : TransportTCP} (h : t.closed = true) (c : Chunk) :
    t.onReadable c = .ok t := by
  simp [onReadable, socketUpdate, h]

/-- A readiness event on a listening transport is one `readMessage`. -/
theorem socketUpdate_listening {t : TransportTCP} (h : t.Listening) (recv : Recv) :
    t.socketUpdate POLLIN recv (.take 0) = t.readMessage recv := by
  have hin : POLLIN &&& POLLIN ≠ 0 := by decide
  have hout : ¬ POLLIN &&& POLLOUT ≠ 0 := by decide
  have herr : ¬ (POLLIN &&& POLLERR ≠ 0 ∨ POLLIN &&& POLLHUP ≠ 0 ∨ POLLIN &&& POLLNVAL ≠ 0) := by
    decide
  have hcond : POLLIN &&& POLLIN ≠ 0 ∧ t.expectingRead = true ∧ t.readCb = true :=
    ⟨hin, h.expectingRead, h.readCb⟩
  rw [socketUpdate, h.opened, if_neg Bool.false_ne_true, if_pos hcond]
  cases t.readMessage recv with
  | error f => rfl
  | ok t' => simp only [bind, Except.bind, hout, herr, false_and, if_false]

theorem onReadable_listening {t : TransportTCP} (h : t.Listening) (c : Chunk) :
    t.onReadable c = t.readMessage c.recv :=
  socketUpdate_listening h c.recv

/-- One event, on a reader that is open at `p`. -/
theorem onReadable_next {t : TransportTCP} {p : Progress} (hlisten : t.Listening)
    (hopen : p ≠ .closed) (hvalid : p.Valid) (hat : t.At p) (c : Chunk) :
    ∃ t', t.onReadable c = .ok t' ∧ Simulates t p (c.bytes (min p.asked intMax)) t' := by
  rw [onReadable_listening hlisten]
  exact readMessage_next hlisten hopen hvalid hat rfl

theorem cutsZeroSize_iff {t : TransportTCP} {p : Progress} (hlisten : t.Listening)
    (hopen : p ≠ .closed) (hat : t.At p) (hvalid : p.Valid) (c : Chunk) :
    t.CutsZeroSize c ↔ p.Cuts (c.bytes (min p.asked intMax)) := by
  cases p with
  | count bs =>
      have hbs : bs.length < 4 := hvalid
      refine iff_of_false ?_ id
      rintro ⟨-, hreading, hfour, -⟩
      have hfilled := ((at_count_iff hreading bs).mp hat).2.1
      rw [hfour] at hfilled
      exact absurd hfilled.symm hbs.ne
  | size done sz left =>
      obtain ⟨size, hframe, -, hfilled, hbytes⟩ := hat
      have hsz : sz.length < 4 := hvalid.1
      have hmin : min (Progress.size done sz left).asked intMax = 4 - sz.length := by
        rw [Progress.asked, intMax]
        omega
      have hold : (bytes size).take sz.length = sz := by
        rw [hbytes, List.take_left]
      rw [hmin, Progress.Cuts, List.length_append, decode_eq_zero_iff]
      constructor
      · rintro ⟨-, -, -, -, hshort, frame, hcurrent, hzero⟩
        rw [hframe.current] at hcurrent
        obtain rfl := Option.some.inj hcurrent
        simp only [hfilled, hold] at hshort hzero
        exact ⟨hshort, hzero⟩
      · rintro ⟨hshort, hzero⟩
        rw [← hfilled] at hshort hsz
        refine ⟨hlisten.opened, hframe.reading, hframe.numframesFilled,
          (lt_four_iff _).mpr hsz, hshort, ⟨[], size⟩, hframe.current, ?_⟩
        simp only [hfilled, hold]
        exact hzero
  | payload done n got left =>
      obtain ⟨frame, -, -, hsz, -⟩ := hat
      refine iff_of_false ?_ id
      rintro ⟨-, -, -, hlt, -⟩
      rw [hsz] at hlt
      exact absurd hlt (by decide)
  | closed => exact absurd rfl hopen

theorem ReadsUpTo.step {t : TransportTCP} {ms : List (List Payload)} {p : Progress} {c : Chunk}
    (h : t.ReadsUpTo ms p) (hcut : ¬ t.CutsZeroSize c) :
    ∃ t', t.onReadable c = .ok t' ∧ ∃ ms' p', t'.ReadsUpTo ms' p' := by
  by_cases hopen : p = .closed
  · subst hopen
    exact ⟨t, onReadable_closed h.place c, ms, .closed, h⟩
  · have hlisten := h.listening hopen
    obtain ⟨t', hrun, hsim⟩ := onReadable_next hlisten hopen h.valid h.place c
    have hle : (c.bytes (min p.asked intMax)).length ≤ p.asked :=
      (c.bounded _).trans (Nat.min_le_left _ _)
    rw [cutsZeroSize_iff hlisten hopen h.place h.valid] at hcut
    obtain ⟨hbytes, hfinished⟩ := Progress.bytes_next h.valid hopen hle hcut
    refine ⟨t', hrun, ms ++ p.finished (c.bytes (min p.asked intMax)), _,
      ⟨Progress.next_valid h.valid hle, hsim.listening, hsim.place, ?_, ?_, ?_⟩⟩
    · intro m hm
      exact (List.mem_append.mp hm).elim (h.messages m) (hfinished m)
    · rw [hsim.delivered, h.delivered, List.map_append]
    · rw [hsim.received, h.received, List.append_assoc, hbytes, List.flatMap_append,
        List.append_assoc]

/-- An event receives nothing, or what its read returns. -/
theorem ReadsUpTo.received_step {t t' : TransportTCP} {ms : List (List Payload)} {p : Progress}
    {c : Chunk} (h : t.ReadsUpTo ms p) (hrun : t.onReadable c = .ok t') :
    t'.received = t.received ∨ ∃ n, t'.received = t.received ++ c.bytes n := by
  by_cases hopen : p = .closed
  · subst hopen
    rw [onReadable_closed h.place] at hrun
    obtain rfl := Except.ok.inj hrun
    exact .inl rfl
  · obtain ⟨t₁, hrun₁, hsim⟩ := onReadable_next (h.listening hopen) hopen h.valid h.place c
    obtain rfl := Except.ok.inj (hrun₁.symm.trans hrun)
    exact .inr ⟨_, hsim.received⟩

theorem ReadsUpTo.matchesGrammar {t : TransportTCP} {ms : List (List Payload)} {p : Progress}
    (h : t.ReadsUpTo ms p) : t.MatchesGrammar := by
  refine ⟨ms, h.delivered,
    ⟨h.messages, p.bytes, h.received, Progress.noneComplete_bytes h.valid⟩, ?_⟩
  rw [h.received, List.prefix_append_right_inj]
  constructor
  · intro hclosed
    by_cases hopen : p = .closed
    · subst hopen
      exact List.prefix_rfl
    · rw [(h.listening hopen).opened] at hclosed
      cases hclosed
  · rintro ⟨rest, hrest⟩
    have hclosed := Progress.closed_of_zeroCount h.valid hrest.symm
    have hplace := h.place
    rw [hclosed] at hplace
    exact hplace

theorem readsUpTo_passing (sock : Nat) (uninit : Message) (heap : Nat → UInt8) :
    (passing sock uninit heap).ReadsUpTo [] (.count []) where
  valid := by simp [Progress.Valid]
  listening _ := ⟨rfl, by simp [passing, connected], rfl, rfl, rfl, rfl⟩
  place := at_count_nil rfl
  messages := by simp
  delivered := rfl
  received := rfl

/-! ### Runs -/

/-- A run without a cut size field matches the grammar after every event. -/
theorem run_matchesGrammar {t : TransportTCP} {ms : List (List Payload)} {p : Progress}
    {chunks : List Chunk} (h : t.ReadsUpTo ms p)
    (hclean : Along onReadable (fun t c => ¬ t.CutsZeroSize c) t chunks) :
    ∃ t', run onReadable t chunks = .ok t' ∧ ∃ ms' p', t'.ReadsUpTo ms' p' :=
  run_invariant (I := fun t => ∃ ms p, ReadsUpTo t ms p)
    (fun _ _ ⟨_, _, hreads⟩ hcut => hreads.step hcut) ⟨ms, p, h⟩ hclean

/-- A whole read never cuts a field. -/
theorem not_cutsZeroSize_of_whole {c : Chunk} (hc : c.Whole) (t : TransportTCP) :
    ¬ t.CutsZeroSize c := by
  rintro ⟨-, -, -, -, hshort, -⟩
  rw [hc] at hshort
  omega

/-- From the end of a frame, `left` reads of zero bytes deliver the message with that many empty
frames more. -/
theorem run_zeros (left : Nat) {t : TransportTCP} {done : List Payload}
    (before : List (List Payload)) (hlisten : t.Listening)
    (hvalid : (Progress.afterFrame done [] left).Valid) (hat : t.At (.afterFrame done [] left))
    (hdelivered : t.delivered
      = (before ++ Progress.messagesAfterFrame done [] left).map (List.map Frame.ofBytes)) :
    ∃ t', run onReadable t (List.replicate left .zeros) = .ok t' ∧
      t'.delivered = (before ++ [done ++ List.replicate (left + 1) []]).map (List.map Frame.ofBytes) ∧
      t'.received = t.received ++ List.replicate (4 * left) 0 := by
  induction left generalizing t done with
  | zero => exact ⟨t, rfl, hdelivered, by simp⟩
  | succ left ih =>
      have hzero : (Chunk.zeros.bytes (min (Progress.size (done ++ [[]]) [] left).asked intMax))
          = List.replicate 4 0 := rfl
      obtain ⟨t', hrun, hsim⟩ := onReadable_next hlisten (by simp [Progress.afterFrame]) hvalid hat
        .zeros
      have hnext : (Progress.size (done ++ [[]]) [] left).next (List.replicate 4 0)
          = .afterFrame (done ++ [[]]) [] left := by
        simp [Progress.next, decode]
      have hplace := hsim.place
      have hl := hsim.listening
      rw [Progress.afterFrame, hzero, hnext] at hplace hl
      have hopen : Progress.afterFrame (done ++ [[]]) [] left ≠ .closed := by
        cases left <;> simp [Progress.afterFrame]
      have hvalid' : (Progress.afterFrame (done ++ [[]]) [] left).Valid := by
        rw [← hnext]
        exact Progress.next_valid hvalid (by simp [Progress.asked])
      obtain ⟨t'', hrun', hdelivered', hreceived'⟩ := ih (hl hopen) hvalid' hplace (by
        rw [hsim.delivered, hdelivered, Progress.afterFrame, hzero]
        simp [Progress.messagesAfterFrame, Progress.finished, decode])
      refine ⟨t'', ?_, ?_, ?_⟩
      · rw [List.replicate_succ, run_cons_of_step hrun, hrun']
      · rw [hdelivered', List.append_assoc, List.singleton_append, ← List.replicate_succ]
      · rw [hreceived', hsim.received, Progress.afterFrame, hzero, List.append_assoc,
          ← List.replicate_add, Nat.mul_succ, Nat.add_comm]

/-- With a cut size field and zero bytes behind it, the stream still completes only what it completed
before: the zero bytes fall short of the message's end by what the field lacks. -/
theorem noneComplete_cut {done : List Payload} {sz : List UInt8} {left : Nat}
    (hcount : done.length + 1 + left < 2 ^ 32) (hdone : ∀ q ∈ done, q.length < 2 ^ 32)
    (hshort : sz.length < 4) (hzero : decode sz = 0) :
    messageCode.NoneComplete (encode 4 (done.length + 1 + left)
      ++ done.flatMap frameCode.encode ++ (sz ++ List.replicate (4 * left) 0)) := by
  have hext : List.replicate (4 - sz.length) (0 : UInt8) ≠ [] := by
    simp only [ne_eq, List.replicate_eq_nil_iff]
    omega
  refine PrefixCode.noneComplete_of_extends (Progress.padded_valid hcount hdone (p := []) (by simp)) hext
    ?_
  rw [Progress.encode_padded, List.append_assoc, List.append_assoc _ (frameCode.encode [])]
  congr 1
  rw [eq_replicate_of_decode_eq_zero hzero, List.length_replicate, ← List.replicate_add,
    ← List.replicate_add, frameCode_encode, List.length_nil, encode_zero, List.append_nil,
    ← List.replicate_add]
  congr 1
  omega

/-- A cut size field makes the reader run ahead: some number of whole reads of zero bytes later it
has delivered a message the stream does not complete. -/
theorem ReadsUpTo.runs_ahead {t : TransportTCP} {ms : List (List Payload)} {p : Progress}
    {c : Chunk} (h : t.ReadsUpTo ms p) (hcut : t.CutsZeroSize c) :
    ∃ k t', run onReadable t (c :: List.replicate k .zeros) = .ok t' ∧ ¬ t'.MatchesGrammar := by
  have hopen : p ≠ .closed := by
    rintro rfl
    have hclosed : t.closed = true := h.place
    rw [hcut.1] at hclosed
    cases hclosed
  have hlisten := h.listening hopen
  rw [cutsZeroSize_iff hlisten hopen h.place h.valid] at hcut
  obtain ⟨t₁, hstep, hsim⟩ := onReadable_next hlisten hopen h.valid h.place c
  have hle : (c.bytes (min p.asked intMax)).length ≤ p.asked :=
    (c.bounded _).trans (Nat.min_le_left _ _)
  generalize c.bytes (min p.asked intMax) = new at hcut hsim hle
  cases p with
  | size done sz left =>
      obtain ⟨hshort, hzero⟩ := hcut
      obtain ⟨-, hcount, hdone⟩ := h.valid
      have hnext : (Progress.size done sz left).next new = .afterFrame done [] left := if_pos hzero
      have hplace := hsim.place
      have hl := hsim.listening
      have hvalid := Progress.next_valid h.valid hle
      rw [hnext] at hplace hl hvalid
      obtain ⟨t', hrun, hdelivered, hreceived⟩ := run_zeros left ms
        (hl (by cases left <;> simp [Progress.afterFrame])) hvalid hplace
        (by rw [hsim.delivered, h.delivered, Progress.finished, if_pos hzero, List.map_append])
      refine ⟨left, t', (run_cons_of_step hstep _).trans hrun, ?_⟩
      rintro ⟨ms', hms', hcompletes, -⟩
      have honly : messageCode.Completes t'.received ms := by
        refine ⟨h.messages, _, ?_, noneComplete_cut hcount hdone hshort hzero⟩
        rw [hreceived, hsim.received, h.received, Progress.bytes]
        simp only [List.append_assoc]
      rw [hcompletes.unique honly, hdelivered, List.map_append] at hms'
      simpa using congrArg List.length hms'
  | count bs => exact absurd hcut id
  | payload done n got left => exact absurd hcut id
  | closed => exact absurd rfl hopen

/-- **The reader matches the wire grammar exactly where no size field is cut.** On the left, no read
of the run leaves a frame's size field incomplete with only zero bytes in it. On the right, after
every prefix of the run, and however the stream goes on in whole reads, the messages delivered are
those the bytes received complete, and the connection is closed exactly at a count of zero. -/
theorem reader_matches_grammar_iff (sock : Nat) (uninit : Message) (heap : Nat → UInt8)
    (chunks : List Chunk) :
    Along onReadable (fun t c => ¬ t.CutsZeroSize c) (passing sock uninit heap) chunks ↔
      ∀ before, before <+: chunks → ∀ rest : List Chunk, (∀ c ∈ rest, c.Whole) →
        ∃ t, run onReadable (passing sock uninit heap) (before ++ rest) = .ok t ∧
          t.MatchesGrammar := by
  have hstart := readsUpTo_passing sock uninit heap
  constructor
  · intro hclean before hbefore rest hwhole
    have hall : Along onReadable (fun t c => ¬ t.CutsZeroSize c) (passing sock uninit heap)
        (before ++ rest) :=
      (along_append _ _ _).mpr ⟨hclean.of_prefix hbefore, fun t _ =>
        along_of_forall (fun t c hc => not_cutsZeroSize_of_whole (hwhole c hc) t) t⟩
    obtain ⟨t, hrun, ms, p, hreads⟩ := run_matchesGrammar hstart hall
    exact ⟨t, hrun, hreads.matchesGrammar⟩
  · intro hmatches
    by_contra hcut
    obtain ⟨before, c, after, t, rfl, hclean, hrun, hfail⟩ := exists_first_failure hcut
    obtain ⟨t₁, hrun₁, ms, p, hreads⟩ := run_matchesGrammar hstart hclean
    obtain rfl := Except.ok.inj (hrun.symm.trans hrun₁)
    obtain ⟨k, t', hahead, hwrong⟩ := hreads.runs_ahead (not_not.mp hfail)
    obtain ⟨t'', hrun'', hright⟩ := hmatches (before ++ [c]) ⟨after, by simp⟩
      (List.replicate k .zeros) (fun c hc => List.eq_of_mem_replicate hc ▸ Chunk.zeros_whole)
    rw [List.append_assoc, List.singleton_append, run_append_of_run hrun, hahead] at hrun''
    obtain rfl := Except.ok.inj hrun''
    exact hwrong hright

/-- A message takes at least a count and a size. -/
theorem MatchesGrammar.eight_le {t : TransportTCP} (h : t.MatchesGrammar) (hsome : t.delivered ≠ []) :
    8 ≤ t.received.length := by
  obtain ⟨ms, hdelivered, ⟨hvalid, tail, hreceived, -⟩, -⟩ := h
  obtain _ | ⟨m, ms⟩ := ms
  · exact absurd hdelivered hsome
  · obtain _ | ⟨p, ps⟩ := m
    · have := ((messageCode_valid []).mp (hvalid [] (by simp))).1.2
      simp at this
    · rw [hreceived]
      simp only [List.flatMap_cons, messageCode_encode, frameCode_encode, List.length_append,
        length_encode]
      omega

/-- The count of one frame, then the first byte of that frame's size, which is `256`: the reader
delivers an empty frame although the stream has completed no message. -/
theorem cut_size_delivers_early :
    ∃ t, run onReadable (passing 3 ⟨[], 0, 0, 0, 0, 0, 0⟩ fun _ => 0)
        [.give [1, 0, 0, 0], .give [0]] = .ok t ∧
      t.received = [1, 0, 0, 0, 0] ∧ t.delivered = [[⟨[], 0⟩]] ∧ ¬ t.MatchesGrammar := by
  refine ⟨_, rfl, rfl, rfl, fun h => ?_⟩
  have hlength := h.eight_le (List.cons_ne_nil _ _)
  exact absurd hlength (by decide)

end TransportTCP

end Ros2Proto
