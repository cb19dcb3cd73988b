import Ros2Proto.Base.LittleEndian
import Ros2Proto.Transport.Messages

/-!
# The wire grammar of messages

A message on the wire is a four-byte little-endian frame count, at least one, and that many frames,
each a four-byte little-endian size and that many bytes. It is stated here once as a self-delimiting
code, for the reader, the sender and the channel between them. A count of zero is no message: the
reader closes the connection at it.
-/

namespace Ros2Proto

open LittleEndian

abbrev Payload := List UInt8

/-- A frame on the wire. -/
def frameCode : PrefixCode Payload UInt8 := .blob u32

/-- A message on the wire. -/
def messageCode : PrefixCode (List Payload) UInt8 := .counted (u32.restrict (1 ≤ ·)) frameCode

@[simp] theorem frameCode_encode (p : Payload) :
    frameCode.encode p = encode 4 p.length ++ p := rfl

@[simp] theorem frameCode_valid (p : Payload) : frameCode.Valid p ↔ p.length < 2 ^ 32 := Iff.rfl

@[simp] theorem messageCode_encode (ps : List Payload) :
    messageCode.encode ps = encode 4 ps.length ++ ps.flatMap frameCode.encode := rfl

theorem messageCode_valid (ps : List Payload) :
    messageCode.Valid ps ↔ (ps.length < 2 ^ 32 ∧ 1 ≤ ps.length) ∧ ∀ p ∈ ps, p.length < 2 ^ 32 :=
  Iff.rfl

/-- The frame that carries exactly `p`. -/
def Frame.ofBytes (p : Payload) : Frame := ⟨p, UInt32.ofNat p.length⟩

/-- The bytes a frame stands for: the first `size` bytes of its buffer. -/
def Frame.payload (f : Frame) : Payload := f.data.take f.size.toNat

/-- The bytes of a count of zero. -/
def zeroCount : List UInt8 := encode 4 0

theorem noneComplete_of_length_lt {tail : List UInt8} (h : tail.length < 4) :
    messageCode.NoneComplete tail := by
  rintro m rest - rfl
  simp only [messageCode_encode, List.length_append, length_encode] at h
  omega

theorem noneComplete_zeroCount (rest : List UInt8) :
    messageCode.NoneComplete (zeroCount ++ rest) := by
  intro m rest' hm h
  rw [messageCode_encode, List.append_assoc, zeroCount] at h
  have hvalid := (messageCode_valid m).mp hm
  obtain ⟨hzero, -⟩ := u32.determined 0 m.length _ _ (by simp) (by simpa using hvalid.1.1) h
  omega

end Ros2Proto
