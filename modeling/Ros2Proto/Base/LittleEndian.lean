import Ros2Proto.Base.PrefixCode
import Mathlib.Tactic.Ring

/-!
# Bytes written in place

Two things a program does to raw memory: it writes a run of bytes into a buffer at an offset, and it
writes the bytes of a fixed-width little-endian integer, possibly a few at a time. `Buffer.write` is
the first. `LittleEndian.encode` and `LittleEndian.decode` give an integer's bytes and the integer of
some bytes, and `LittleEndian.overwrite` is the second: the integer after part of its memory has
been replaced.
-/

namespace Buffer

variable {α : Type*}

/-- The buffer after `new` has been written at offset `off`. -/
def write (buf : List α) (off : Nat) (new : List α) : List α :=
  buf.take off ++ new ++ buf.drop (off + new.length)

theorem length_write {buf : List α} {off : Nat} {new : List α} (h : off + new.length ≤ buf.length) :
    (write buf off new).length = buf.length := by
  simp only [write, List.length_append, List.length_take, List.length_drop]
  omega

theorem take_write {buf : List α} {off : Nat} {new : List α} (h : off ≤ buf.length) :
    (write buf off new).take (off + new.length) = buf.take off ++ new := by
  rw [write, List.take_left']
  rw [List.length_append, List.length_take]
  omega

end Buffer

namespace LittleEndian

/-- The `width` low bytes of `x`, least significant first. -/
def encode : Nat → Nat → List UInt8
  | 0, _ => []
  | width + 1, x => UInt8.ofNat x :: encode width (x / 256)

/-- The integer whose bytes, least significant first, are given. -/
def decode : List UInt8 → Nat
  | [] => 0
  | b :: bs => b.toNat + 256 * decode bs

@[simp] theorem length_encode (width x : Nat) : (encode width x).length = width := by
  induction width generalizing x with
  | zero => rfl
  | succ width ih => simp [encode, ih]

theorem decode_lt (bs : List UInt8) : decode bs < 256 ^ bs.length := by
  induction bs with
  | nil => simp [decode]
  | cons b bs ih =>
      have hb := b.toNat_lt
      simp only [decode, List.length_cons, pow_succ]
      omega

theorem decode_encode {width x : Nat} (h : x < 256 ^ width) : decode (encode width x) = x := by
  induction width generalizing x with
  | zero => simp only [pow_zero] at h; simp only [encode, decode]; omega
  | succ width ih =>
      rw [pow_succ] at h
      have hdiv : x / 256 < 256 ^ width := by omega
      simp only [encode, decode, ih hdiv, UInt8.toNat_ofNat']
      omega

theorem encode_decode (bs : List UInt8) : encode bs.length (decode bs) = bs := by
  induction bs with
  | nil => rfl
  | cons b bs ih =>
      have hb := b.toNat_lt
      have hdiv : (b.toNat + 256 * decode bs) / 256 = decode bs := by omega
      have hhead : UInt8.ofNat (b.toNat + 256 * decode bs) = b := by
        apply UInt8.toNat.inj
        rw [UInt8.toNat_ofNat']
        omega
      simp only [List.length_cons, encode, decode, hdiv, hhead, ih]

theorem encode_injective {width x y : Nat} (hx : x < 256 ^ width) (hy : y < 256 ^ width)
    (h : encode width x = encode width y) : x = y := by
  rw [← decode_encode hx, h, decode_encode hy]

@[simp] theorem encode_zero (width : Nat) : encode width 0 = List.replicate width 0 := by
  induction width with
  | zero => rfl
  | succ width ih => simp [encode, ih, List.replicate_succ]

theorem decode_append_zeros (bs : List UInt8) (n : Nat) :
    decode (bs ++ List.replicate n 0) = decode bs := by
  induction bs with
  | nil =>
      induction n with
      | zero => rfl
      | succ n ih => simpa [List.replicate_succ, decode] using ih
  | cons b bs ih => simp only [List.cons_append, decode, ih]

theorem encode_decode_of_length {width : Nat} {bs : List UInt8} (h : bs.length = width) :
    encode width (decode bs) = bs :=
  h ▸ encode_decode bs

/-- A shorter field is padded with zero bytes. -/
theorem encode_decode_of_le {width : Nat} {bs : List UInt8} (h : bs.length ≤ width) :
    encode width (decode bs) = bs ++ List.replicate (width - bs.length) 0 := by
  rw [← decode_append_zeros bs (width - bs.length), encode_decode_of_length]
  rw [List.length_append, List.length_replicate]
  omega

theorem decode_eq_zero_iff (bs : List UInt8) : decode bs = 0 ↔ ∀ b ∈ bs, b = 0 := by
  induction bs with
  | nil => simp [decode]
  | cons b bs ih =>
      have hb : b.toNat = 0 ↔ b = 0 := by
        rw [← UInt8.toNat_inj, UInt8.toNat_zero]
      simp only [decode, List.mem_cons, forall_eq_or_imp, ← ih, ← hb]
      omega

theorem eq_replicate_of_decode_eq_zero {bs : List UInt8} (h : decode bs = 0) :
    bs = List.replicate bs.length 0 :=
  List.eq_replicate_iff.mpr ⟨rfl, (decode_eq_zero_iff bs).mp h⟩

/-! ### 32-bit fields -/

/-- The four bytes a `uint32_t` occupies. -/
def bytes (x : UInt32) : List UInt8 := encode 4 x.toNat

/-- The `uint32_t` whose memory is the given four bytes. -/
def ofBytes (bs : List UInt8) : UInt32 := UInt32.ofNat (decode bs)

/-- The `uint32_t` after `new` has been written into its memory at offset `off`. -/
def overwrite (x : UInt32) (off : Nat) (new : List UInt8) : UInt32 :=
  ofBytes (Buffer.write (bytes x) off new)

@[simp] theorem length_bytes (x : UInt32) : (bytes x).length = 4 := length_encode 4 _

@[simp] theorem drop_four_bytes (x : UInt32) : (bytes x).drop 4 = [] :=
  List.drop_eq_nil_of_le (length_bytes x).le

theorem toNat_ofBytes {bs : List UInt8} (h : bs.length = 4) : (ofBytes bs).toNat = decode bs := by
  have hlt := decode_lt bs
  rw [h] at hlt
  rw [ofBytes, UInt32.toNat_ofNat']
  omega

theorem bytes_ofBytes {bs : List UInt8} (h : bs.length = 4) : bytes (ofBytes bs) = bs := by
  rw [bytes, toNat_ofBytes h, ← h, encode_decode]

theorem decode_bytes (x : UInt32) : decode (bytes x) = x.toNat :=
  decode_encode (by simpa using x.toNat_lt)

theorem ofBytes_bytes (x : UInt32) : ofBytes (bytes x) = x := by
  apply UInt32.toNat.inj
  rw [toNat_ofBytes (length_bytes x), decode_bytes]

theorem bytes_overwrite_eq_write {x : UInt32} {off : Nat} {new : List UInt8} (hfit : off + new.length ≤ 4) :
    bytes (overwrite x off new) = Buffer.write (bytes x) off new := by
  have hlength : (Buffer.write (bytes x) off new).length = 4 := by
    rw [Buffer.length_write] <;> simp only [length_bytes]
    exact hfit
  rw [overwrite, bytes_ofBytes hlength]

/-- A field whose first `off` bytes are `old` and whose others are clear, once `new` is written
behind `old`: its first bytes are `old ++ new` and the others are still clear. -/
theorem bytes_overwrite {x : UInt32} {old new : List UInt8}
    (hx : bytes x = old ++ List.replicate (4 - old.length) 0)
    (hfit : old.length + new.length ≤ 4) :
    bytes (overwrite x old.length new)
      = (old ++ new) ++ List.replicate (4 - (old ++ new).length) 0 := by
  rw [bytes_overwrite_eq_write hfit, Buffer.write, hx, List.take_left, List.drop_append,
    List.drop_eq_nil_of_le (by omega), List.drop_replicate, List.nil_append, List.length_append]
  congr 2
  omega

/-- Once `new` is written into a field at `off`, the field holds what it held up to there, then
`new`. -/
theorem take_bytes_overwrite {x : UInt32} {off : Nat} {new : List UInt8}
    (hfit : off + new.length ≤ 4) :
    (bytes (overwrite x off new)).take (off + new.length) = (bytes x).take off ++ new := by
  rw [bytes_overwrite_eq_write hfit, Buffer.take_write]
  rw [length_bytes]
  omega

/-- A 32-bit count or size, as a self-delimiting code. -/
def u32 : PrefixCode Nat UInt8 :=
  PrefixCode.fixed (· < 2 ^ 32) (encode 4) 4 (by decide) (length_encode 4) fun _ _ ha hb h =>
    encode_injective (by simpa using ha) (by simpa using hb) h

@[simp] theorem u32_encode (n : Nat) : u32.encode n = encode 4 n := rfl

@[simp] theorem u32_valid (n : Nat) : u32.Valid n ↔ n < 2 ^ 32 := Iff.rfl

end LittleEndian
