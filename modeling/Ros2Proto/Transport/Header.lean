import Ros2Proto.Base.History
import Ros2Proto.Base.Strings
import Ros2Proto.Topics.Manager

/-!
# Connection headers

`Header` of `header.cpp`: a map of strings, read from and written to a buffer of lines. A line is
`key=value` behind its length in four bytes. `parse` is given where the buffer begins in memory and its
size, and does not look where the memory ends: what it reads from there on is undefined.

A buffer is some lines and a tail that completes none. `parse` puts the lines in the map, and how it ends
is read off the tail. What `write` writes is nothing but lines, one for each entry.
-/

namespace Ros2Proto

open LittleEndian Strings

structure Header where
  readMap : StdMap StdString

namespace Header

def empty : Header := ⟨∅⟩

/-- What `parse` sets `error_msg` to. -/
inductive ParseError
  | badLength
  | noEquals
  deriving DecidableEq, Repr

def ParseError.errorMsg : ParseError → StdString
  | badLength => literal
      "Received an invalid TCPROS header.  Each element must be prepended by a 4-byte length."
  | noEquals => literal
      "Received an invalid TCPROS header.  Each line must have an equals sign."

/-- The loop of `parse`, for the memory from `buf` on, of which `left` bytes are the buffer's. -/
def parseLines (h : Header) (memory : List UInt8) (left : Nat) :
    Except Fault (Option ParseError × Header) :=
  if left = 0 then .ok (none, h)
  else if memory.length < 4 then .error .overrun
  else
    let len := ofBytes (memory.take 4)
    if 1000000 < len then .ok (some .badLength, h)
    else if (memory.drop 4).length < len.toNat then .error .overrun
    else
      let line := (memory.drop 4).take len.toNat
      match find (literal "=") line with
      | none => .ok (some .noEquals, h)
      | some eqpos =>
        let h := { h with readMap := h.readMap.insert (line.take eqpos) (line.drop (eqpos + 1)) }
        parseLines h (memory.drop (4 + len.toNat)) (left - (4 + len.toNat))
termination_by left

/-- The result, the header and `error_msg`, for the memory that begins at `buffer`. -/
def parse (h : Header) (memory : List UInt8) (size : UInt32) (errorMsg : StdString) :
    Except Fault (Bool × Header × StdString) := do
  let (error, h) ← h.parseLines memory size.toNat
  .ok (error.isNone, h, error.elim errorMsg ParseError.errorMsg)

/-- The result, and what the argument is set to. -/
def getValue (h : Header) (key value : StdString) : Bool × StdString :=
  match h.readMap[key]? with
  | none => (false, value)
  | some found => (true, found)

/-! ### Writing -/

/-- `memcpy` to `ptr`, where the buffer holds `size` bytes and those up to `ptr` are `written`. -/
def serialize (size : UInt32) (written data : List UInt8) : Except Fault (List UInt8) :=
  if size.toNat < written.length + data.length then .error .overrun else .ok (written ++ data)

def writeEntry (size : UInt32) (written : List UInt8) (entry : StdString × StdString) :
    Except Fault (List UInt8) := do
  let len := UInt32.ofNat (entry.1.length + entry.2.length + 1)
  let written ← serialize size written (bytes len)
  let written ← serialize size written entry.1
  let written ← serialize size written (literal "=")
  serialize size written entry.2

/-- The size that `write` computes. -/
def sizeOf (entries : List (StdString × StdString)) : UInt32 :=
  entries.foldl (fun size entry =>
    size + UInt32.ofNat entry.1.length + UInt32.ofNat entry.2.length + 1 + 4) 0

/-- The buffer and its size. The buffer is left alone where the size is 0. -/
def write (keyVals : StdMap StdString) (buffer : List UInt8) :
    Except Fault (List UInt8 × UInt32) := do
  let size := sizeOf keyVals.toList
  if size = 0 then .ok (buffer, size)
  else
    let written ← keyVals.toList.foldlM (writeEntry size) []
    if written.length = size.toNat then .ok (written, size) else .error .assertion

/-! ### Lines and tails -/

def entryOf (line : StdString) : StdString × StdString :=
  let eqpos := (find (literal "=") line).getD line.length
  (line.take eqpos, line.drop (eqpos + 1))

def lineOf (entry : StdString × StdString) : StdString := entry.1 ++ literal "=" ++ entry.2

/-- The lines `parse` accepts. -/
def lineCode : PrefixCode StdString UInt8 :=
  (PrefixCode.blob u32).restrict fun line => line.length ≤ 1000000 ∧ 61 ∈ line

/-- A header with the entry of one more line. -/
def addLine (h : Header) (line : StdString) : Header :=
  { h with readMap := h.readMap.insert (entryOf line).1 (entryOf line).2 }

/-- How `parse` ends at a tail that completes no line. -/
inductive Ending
  | atEnd
  | failed (error : ParseError)
  | outOfBounds
  deriving DecidableEq

def endingOf (tail : List UInt8) : Ending :=
  if tail = [] then .atEnd
  else if tail.length < 4 then .outOfBounds
  else if 1000000 < ofBytes (tail.take 4) then .failed .badLength
  else if (tail.drop 4).length < (ofBytes (tail.take 4)).toNat then .outOfBounds
  else .failed .noEquals

/-- The error that is found, if the memory is not overrun. -/
def Ending.error : Ending → Except Fault (Option ParseError)
  | atEnd => .ok none
  | failed error => .ok (some error)
  | outOfBounds => .error .overrun

variable {h : Header} {line : StdString} {tail : List UInt8}

theorem find_equals_eq_none_iff : find (literal "=") line = none ↔ 61 ∉ line := by
  have hfront := not_mem_upTo_find 61 line
  have hliteral : literal "=" = [61] := rfl
  rw [hliteral]
  cases hfind : find [61] line with
  | none =>
      rw [hfind] at hfront
      exact iff_of_true rfl hfront
  | some n =>
      apply iff_of_false (by simp)
      intro hnone
      apply hnone
      rw [find_eq_some hfind]
      simp

theorem entryOf_lineOf {entry : StdString × StdString} (h : 61 ∉ entry.1) :
    entryOf (lineOf entry) = entry := by
  have hfind : find (literal "=") (lineOf entry) = some entry.1.length := by
    rw [lineOf, List.append_assoc]
    exact find_append h
  have hvalue : (lineOf entry).drop (entry.1.length + 1) = entry.2 := by
    rw [lineOf]
    apply List.drop_left'
    rw [List.length_append]
    rfl
  rw [entryOf, hfind, Option.getD_some, hvalue, lineOf, List.append_assoc, List.take_left]

/-- No key that is read has an equals sign. -/
theorem not_mem_key (line : StdString) : 61 ∉ (entryOf line).1 := by
  have hfront := not_mem_upTo_find 61 line
  have hliteral : literal "=" = [61] := rfl
  rw [entryOf, hliteral]
  cases hfind : find [61] line with
  | none =>
      rw [hfind] at hfront
      exact fun hmem => hfront (List.mem_of_mem_take hmem)
  | some n =>
      rw [hfind] at hfront
      exact hfront

/-- The bytes of a length, read back. -/
theorem ofBytes_encode {n : Nat} (hn : n < 2 ^ 32) : (ofBytes (encode 4 n)).toNat = n := by
  rw [toNat_ofBytes (length_encode 4 n), decode_encode (by simpa using hn)]

/-! ### Parsing a buffer -/

theorem parseLines_cons (h : Header) (hline : lineCode.Valid line) (memory : List UInt8) (left : Nat) :
    h.parseLines (lineCode.encode line ++ memory) ((lineCode.encode line).length + left) =
      (h.addLine line).parseLines memory left := by
  obtain ⟨hlength, hshort, hequals⟩ := hline
  have hencode : lineCode.encode line = encode 4 line.length ++ line := rfl
  have hsize : (lineCode.encode line).length = 4 + line.length := by
    rw [hencode, List.length_append, length_encode]
  have htake : (lineCode.encode line ++ memory).take 4 = encode 4 line.length := by
    rw [hencode, List.append_assoc]
    exact List.take_left' (length_encode 4 _)
  have hdrop : (lineCode.encode line ++ memory).drop 4 = line ++ memory := by
    rw [hencode, List.append_assoc]
    exact List.drop_left' (length_encode 4 _)
  have hrest : (lineCode.encode line ++ memory).drop (4 + line.length) = memory :=
    List.drop_left' hsize
  have hlen := ofBytes_encode hlength
  have hfind : find (literal "=") line ≠ none := by
    rw [ne_eq, find_equals_eq_none_iff, not_not]
    exact hequals
  obtain ⟨eqpos, heqpos⟩ := Option.ne_none_iff_exists'.mp hfind
  have hleft : ¬ (lineCode.encode line).length + left = 0 := by omega
  have henough : ¬ (lineCode.encode line ++ memory).length < 4 := by
    rw [List.length_append]
    omega
  have hbound : ¬ 1000000 < ofBytes (encode 4 line.length) := by
    rw [UInt32.lt_iff_toNat_lt, hlen]
    exact Nat.not_lt.mpr hshort
  have hwhole : ¬ (line ++ memory).length < line.length := by
    rw [List.length_append]
    omega
  rw [parseLines, if_neg hleft, if_neg henough, htake, if_neg hbound, hdrop, hlen, if_neg hwhole,
    List.take_left, hrest, hsize, Nat.add_sub_cancel_left, addLine, entryOf]
  dsimp only
  rw [heqpos]
  rfl

theorem parseLines_flatMap {lines : List StdString} (hlines : ∀ line ∈ lines, lineCode.Valid line)
    (h : Header) (memory : List UInt8) (left : Nat) :
    h.parseLines (lines.flatMap lineCode.encode ++ memory)
        ((lines.flatMap lineCode.encode).length + left) =
      (lines.foldl addLine h).parseLines memory left := by
  induction lines generalizing h with
  | nil => simp
  | cons line lines ih =>
      rw [List.flatMap_cons, List.append_assoc, List.length_append, Nat.add_assoc,
        parseLines_cons h (hlines line List.mem_cons_self),
        ih fun line' hmem => hlines line' (List.mem_cons_of_mem _ hmem)]
      rfl

theorem parseLines_zero (h : Header) (memory : List UInt8) : h.parseLines memory 0 = .ok (none, h) := by
  rw [parseLines, if_pos rfl]

/-- A whole line at the front of a tail that completes none has no equals sign. -/
theorem find_of_noneComplete (htail : lineCode.NoneComplete tail) (hsize : 4 ≤ tail.length)
    (hshort : ¬ 1000000 < ofBytes (tail.take 4))
    (hwhole : (ofBytes (tail.take 4)).toNat ≤ (tail.drop 4).length) :
    find (literal "=") ((tail.drop 4).take (ofBytes (tail.take 4)).toNat) = none := by
  have hlength : ((tail.drop 4).take (ofBytes (tail.take 4)).toNat).length =
      (ofBytes (tail.take 4)).toNat := by
    rw [List.length_take]
    omega
  have hbytes : encode 4 (ofBytes (tail.take 4)).toNat = tail.take 4 := by
    apply bytes_ofBytes
    rw [List.length_take]
    omega
  rw [UInt32.lt_iff_toNat_lt] at hshort
  rw [find_equals_eq_none_iff]
  intro hequals
  apply htail ((tail.drop 4).take (ofBytes (tail.take 4)).toNat)
    ((tail.drop 4).drop (ofBytes (tail.take 4)).toNat)
  · refine ⟨?_, ?_, hequals⟩
    · show List.length _ < 2 ^ 32
      rw [hlength]
      exact UInt32.toNat_lt _
    · rw [hlength]
      exact Nat.not_lt.mp hshort
  · show tail = encode 4 (List.length _) ++ _ ++ _
    rw [hlength, hbytes, List.append_assoc, List.take_append_drop, List.take_append_drop]

/-- A tail that is read within its bounds is read alike whatever stands behind it. -/
theorem parseLines_tail (htail : lineCode.NoneComplete tail) (hin : endingOf tail ≠ .outOfBounds)
    (h : Header) (beyond : List UInt8) :
    h.parseLines (tail ++ beyond) tail.length = (endingOf tail).error.map fun error => (error, h) := by
  rw [endingOf] at hin ⊢
  by_cases hempty : tail = []
  · rw [if_pos hempty, hempty, List.length_nil, parseLines_zero]
    rfl
  rw [if_neg hempty] at hin ⊢
  by_cases hsize : tail.length < 4
  · rw [if_pos hsize] at hin
    exact absurd rfl hin
  rw [if_neg hsize] at hin ⊢
  have hleft : ¬ tail.length = 0 := by omega
  have henough : ¬ (tail ++ beyond).length < 4 := by
    rw [List.length_append]
    omega
  have htake : (tail ++ beyond).take 4 = tail.take 4 := List.take_append_of_le_length (by omega)
  have hdrop : (tail ++ beyond).drop 4 = tail.drop 4 ++ beyond :=
    List.drop_append_of_le_length (by omega)
  rw [parseLines, if_neg hleft, if_neg henough, htake]
  by_cases hlong : 1000000 < ofBytes (tail.take 4)
  · rw [if_pos hlong, if_pos hlong]
    rfl
  rw [if_neg hlong] at hin ⊢
  rw [if_neg hlong]
  by_cases hcut : (tail.drop 4).length < (ofBytes (tail.take 4)).toNat
  · rw [if_pos hcut] at hin
    exact absurd rfl hin
  rw [if_neg hcut]
  have hline : (tail.drop 4 ++ beyond).take (ofBytes (tail.take 4)).toNat =
      (tail.drop 4).take (ofBytes (tail.take 4)).toNat :=
    List.take_append_of_le_length (by omega)
  have hwhole : ¬ (tail.drop 4 ++ beyond).length < (ofBytes (tail.take 4)).toNat := by
    rw [List.length_append]
    omega
  rw [hdrop, if_neg hwhole, hline]
  dsimp only
  rw [find_of_noneComplete htail (by omega) hlong (by omega)]
  rfl

theorem parseLines_outOfBounds (hout : endingOf tail = .outOfBounds) (h : Header) :
    h.parseLines tail tail.length = .error .overrun := by
  rw [endingOf] at hout
  split_ifs at hout with hempty hsize hlong hcut
  · have hleft : ¬ tail.length = 0 := fun hzero => hempty (List.length_eq_zero_iff.mp hzero)
    rw [parseLines, if_neg hleft, if_pos hsize]
  · have hleft : ¬ tail.length = 0 := by omega
    rw [parseLines, if_neg hleft, if_neg hsize, if_neg hlong, if_pos hcut]

theorem getElem?_foldl_addLine (h : Header) (lines : List StdString) (key : StdString) :
    (lines.foldl addLine h).readMap[key]? =
      ((History.last (fun line => (entryOf line).1) key lines).map fun line => (entryOf line).2).or
        h.readMap[key]? := by
  rw [← History.getElem?_foldl_insert_or]
  have hmap : ∀ h : Header, (lines.foldl addLine h).readMap = lines.foldl
      (fun table line => table.insert (entryOf line).1 (entryOf line).2) h.readMap := by
    induction lines with
    | nil => exact fun _ => rfl
    | cons line lines ih => exact fun h => ih (h.addLine line)
  rw [hmap]

/-- What `parse` makes of some lines and a tail that completes none. -/
theorem parse_completes {lines : List StdString} {tail : List UInt8}
    (hlines : ∀ line ∈ lines, lineCode.Valid line) (htail : lineCode.NoneComplete tail)
    (hsize : (lines.flatMap lineCode.encode ++ tail).length < 2 ^ 32) (h : Header) (errorMsg : StdString)
    {beyond : List UInt8} (hbeyond : endingOf tail ≠ .outOfBounds ∨ beyond = []) :
    h.parse (lines.flatMap lineCode.encode ++ tail ++ beyond)
        (UInt32.ofNat (lines.flatMap lineCode.encode ++ tail).length) errorMsg =
      (endingOf tail).error.map fun error =>
        (error.isNone, lines.foldl addLine h, error.elim errorMsg ParseError.errorMsg) := by
  have hloop : h.parseLines (lines.flatMap lineCode.encode ++ tail ++ beyond)
      (UInt32.ofNat (lines.flatMap lineCode.encode ++ tail).length).toNat =
        (lines.foldl addLine h).parseLines (tail ++ beyond) tail.length := by
    rw [UInt32.toNat_ofNat_of_lt' hsize, List.length_append, List.append_assoc,
      parseLines_flatMap hlines]
  rw [parse, hloop]
  by_cases hin : endingOf tail = .outOfBounds
  · rcases hbeyond with hnot | rfl
    · exact absurd hin hnot
    · rw [List.append_nil, parseLines_outOfBounds hin, hin]
      rfl
  · rw [parseLines_tail htail hin]
    cases (endingOf tail).error <;> rfl

/-- **What `parse` makes of a buffer.** Any buffer is some lines and a tail that completes none. The lines
are put in the header, a later one in the place of an earlier one with its key, and how the tail is cut
decides what is returned. Memory behind the buffer is read exactly if the tail is cut short in its length or
behind a length that is allowed. -/
theorem parse_buffer (h : Header) (buffer : List UInt8) (errorMsg : StdString)
    (hsize : buffer.length < 2 ^ 32) :
    ∃ lines tail, (∀ line ∈ lines, lineCode.Valid line) ∧ lineCode.NoneComplete tail ∧
      buffer = lines.flatMap lineCode.encode ++ tail ∧
      (h.parse buffer (UInt32.ofNat buffer.length) errorMsg = (endingOf tail).error.map fun error =>
        (error.isNone, lines.foldl addLine h, error.elim errorMsg ParseError.errorMsg)) ∧
      (endingOf tail ≠ .outOfBounds → ∀ beyond, h.parse (buffer ++ beyond)
        (UInt32.ofNat buffer.length) errorMsg = h.parse buffer (UInt32.ofNat buffer.length) errorMsg) ∧
      ∀ key, (lines.foldl addLine h).readMap[key]? =
        ((History.last (fun line => (entryOf line).1) key lines).map fun line => (entryOf line).2).or
          h.readMap[key]? := by
  obtain ⟨lines, hlines, tail, rfl, htail⟩ := lineCode.exists_completes buffer
  have hself := parse_completes hlines htail hsize h errorMsg (Or.inr rfl)
  rw [List.append_nil] at hself
  refine ⟨lines, tail, hlines, htail, rfl, hself, ?_, getElem?_foldl_addLine h lines⟩
  intro hin beyond
  rw [hself]
  exact parse_completes hlines htail hsize h errorMsg (Or.inl hin)

/-- A buffer that is cut in the length of its second line. -/
theorem parse_buffer_cut : ∃ lines tail, (∀ line ∈ lines, lineCode.Valid line) ∧
    lineCode.NoneComplete tail ∧
    ([3, 0, 0, 0, 97, 61, 98, 1] : List UInt8) = lines.flatMap lineCode.encode ++ tail ∧
    (empty.parse [3, 0, 0, 0, 97, 61, 98, 1] 8 [] = (endingOf tail).error.map fun error =>
      (error.isNone, lines.foldl addLine empty, error.elim [] ParseError.errorMsg)) ∧
    (endingOf tail ≠ .outOfBounds → ∀ beyond, empty.parse ([3, 0, 0, 0, 97, 61, 98, 1] ++ beyond) 8 [] =
      empty.parse [3, 0, 0, 0, 97, 61, 98, 1] 8 []) ∧
    ∀ key, (lines.foldl addLine empty).readMap[key]? =
      ((History.last (fun line => (entryOf line).1) key lines).map fun line => (entryOf line).2).or
        empty.readMap[key]? :=
  parse_buffer empty [3, 0, 0, 0, 97, 61, 98, 1] [] (by decide)

/-! ### Reading back what was written -/

/-- What `write` puts down for an entry. -/
def encodeEntry (entry : StdString × StdString) : List UInt8 :=
  bytes (UInt32.ofNat (entry.1.length + entry.2.length + 1)) ++ lineOf entry

variable {size : UInt32} {entries : List (StdString × StdString)}

theorem length_lineOf (entry : StdString × StdString) :
    (lineOf entry).length = entry.1.length + entry.2.length + 1 := by
  have hliteral : (literal "=").length = 1 := rfl
  rw [lineOf, List.length_append, List.length_append, hliteral]
  omega

theorem length_encodeEntry (entry : StdString × StdString) :
    (encodeEntry entry).length = entry.1.length + entry.2.length + 5 := by
  rw [encodeEntry, List.length_append, length_bytes, length_lineOf]
  omega

/-- Two copies one behind the other are one. -/
theorem serialize_bind (size : UInt32) (written first second : List UInt8) :
    ((serialize size written first).bind fun written => serialize size written second) =
      serialize size written (first ++ second) := by
  rw [serialize, serialize, List.length_append]
  by_cases hfirst : size.toNat < written.length + first.length
  · rw [if_pos hfirst, if_pos (by omega)]
    rfl
  · rw [if_neg hfirst]
    show serialize size (written ++ first) second = _
    rw [serialize, List.length_append, List.append_assoc, Nat.add_assoc]

theorem writeEntry_eq (size : UInt32) (written : List UInt8) (entry : StdString × StdString) :
    writeEntry size written entry = serialize size written (encodeEntry entry) := by
  rw [encodeEntry, lineOf, ← serialize_bind, List.append_assoc]
  show ((serialize _ _ _).bind fun written => (serialize _ _ _).bind fun written =>
    (serialize _ _ _).bind fun written => serialize _ _ _) = _
  congr 1
  funext written
  rw [← serialize_bind]
  congr 1
  funext written
  rw [serialize_bind]

theorem writeEntries_eq (size : UInt32) (written : List UInt8) (hwritten : written.length ≤ size.toNat)
    (entries : List (StdString × StdString)) :
    entries.foldlM (writeEntry size) written =
      if size.toNat < written.length + (entries.flatMap encodeEntry).length then .error .overrun
      else .ok (written ++ entries.flatMap encodeEntry) := by
  induction entries generalizing written with
  | nil =>
      have hfits : ¬ size.toNat < written.length + 0 := by omega
      rw [List.flatMap_nil, List.append_nil, List.length_nil, if_neg hfits]
      rfl
  | cons entry entries ih =>
      rw [List.foldlM_cons, writeEntry_eq, serialize, List.flatMap_cons, List.length_append,
        ← Nat.add_assoc]
      by_cases hentry : size.toNat < written.length + (encodeEntry entry).length
      · rw [if_pos hentry, if_pos (by omega)]
        rfl
      · rw [if_neg hentry]
        have hnext : (written ++ encodeEntry entry).length ≤ size.toNat := by
          rw [List.length_append]
          omega
        show entries.foldlM (writeEntry size) (written ++ encodeEntry entry) = _
        rw [ih _ hnext, List.length_append, List.append_assoc]

theorem toNat_sizeOf (entries : List (StdString × StdString)) :
    (sizeOf entries).toNat = (entries.flatMap encodeEntry).length % 2 ^ 32 := by
  induction entries using List.reverseRecOn with
  | nil => rfl
  | append_singleton entries entry ih =>
      rw [sizeOf] at ih
      rw [sizeOf, List.foldl_concat, List.flatMap_append, List.flatMap_singleton, List.length_append,
        length_encodeEntry]
      simp only [UInt32.toNat_add, UInt32.toNat_ofNat', ih]
      have hone : (1 : UInt32).toNat = 1 := rfl
      have hfour : (4 : UInt32).toNat = 4 := rfl
      rw [hone, hfour]
      omega

theorem encodeEntry_eq {entry : StdString × StdString} (h : (lineOf entry).length < 2 ^ 32) :
    encodeEntry entry = (PrefixCode.blob u32).encode (lineOf entry) := by
  rw [length_lineOf] at h
  rw [encodeEntry, PrefixCode.blob_encode, u32_encode, length_lineOf, bytes,
    UInt32.toNat_ofNat_of_lt' h]

/-- Where `write` gets through, the buffer is nothing but the lines of the entries. -/
theorem flatMap_encodeEntry (h : (entries.flatMap encodeEntry).length < 2 ^ 32) :
    entries.flatMap encodeEntry = (entries.map lineOf).flatMap (PrefixCode.blob u32).encode ∧
      ∀ entry ∈ entries, (lineOf entry).length < 2 ^ 32 := by
  have hshort : ∀ entry ∈ entries, (lineOf entry).length < 2 ^ 32 := by
    intro entry hmem
    have hsub := (List.sublist_flatten_of_mem (List.mem_map_of_mem (f := encodeEntry) hmem)).length_le
    rw [← List.flatMap_def, length_encodeEntry] at hsub
    rw [length_lineOf]
    omega
  refine ⟨?_, hshort⟩
  rw [List.flatMap_map]
  exact List.flatMap_congr fun entry hmem => encodeEntry_eq (hshort entry hmem)

theorem foldl_addLine_eq (h : ∀ entry ∈ entries, 61 ∉ entry.1) (header : Header) :
    (entries.map lineOf).foldl addLine header =
      ⟨entries.foldl (fun table entry => table.insert entry.1 entry.2) header.readMap⟩ := by
  induction entries generalizing header with
  | nil => rfl
  | cons entry entries ih =>
      rw [List.map_cons, List.foldl_cons, ih fun e hmem => h e (List.mem_cons_of_mem _ hmem),
        List.foldl_cons, addLine, entryOf_lineOf (h entry List.mem_cons_self)]

/-- The bytes that the entries of a map take. -/
def needed (keyVals : StdMap StdString) : Nat :=
  (keyVals.toList.map fun entry => entry.1.length + entry.2.length + 5).sum

theorem length_flatMap_encodeEntry (keyVals : StdMap StdString) :
    (keyVals.toList.flatMap encodeEntry).length = needed keyVals := by
  rw [List.length_flatMap, needed]
  congr 1
  apply List.map_congr_left
  intro entry _
  exact length_encodeEntry entry

theorem toNat_sizeOf_toList (keyVals : StdMap StdString) :
    (sizeOf keyVals.toList).toNat = needed keyVals % 2 ^ 32 := by
  rw [toNat_sizeOf, length_flatMap_encodeEntry]

theorem write_of_lt {keyVals : StdMap StdString} (h : needed keyVals < 2 ^ 32) (buffer : List UInt8) :
    ∃ written, write keyVals buffer = .ok (written, UInt32.ofNat (needed keyVals)) ∧
      (needed keyVals ≠ 0 → written = keyVals.toList.flatMap encodeEntry) := by
  have hsize : sizeOf keyVals.toList = UInt32.ofNat (needed keyVals) := by
    apply UInt32.toNat.inj
    rw [toNat_sizeOf_toList, UInt32.toNat_ofNat']
  have htoNat : (UInt32.ofNat (needed keyVals)).toNat = needed keyVals :=
    UInt32.toNat_ofNat_of_lt' h
  rw [write, hsize]
  by_cases hzero : needed keyVals = 0
  · rw [hzero]
    exact ⟨buffer, rfl, fun hne => absurd rfl hne⟩
  · refine ⟨keyVals.toList.flatMap encodeEntry, ?_, fun _ => rfl⟩
    have hne : ¬ UInt32.ofNat (needed keyVals) = 0 := by
      intro heq
      apply hzero
      rw [← htoNat, heq]
      rfl
    have hfits : ¬ (UInt32.ofNat (needed keyVals)).toNat <
        ([] : List UInt8).length + (keyVals.toList.flatMap encodeEntry).length := by
      rw [length_flatMap_encodeEntry, htoNat, List.length_nil]
      omega
    rw [if_neg hne, writeEntries_eq _ [] (Nat.zero_le _), if_neg hfits, List.nil_append]
    show (if (keyVals.toList.flatMap encodeEntry).length = (UInt32.ofNat (needed keyVals)).toNat then
      Except.ok _ else _) = _
    rw [htoNat, length_flatMap_encodeEntry, if_pos rfl]

/-- A size that does not fit its type wraps around. -/
theorem write_of_le {keyVals : StdMap StdString} (h : 2 ^ 32 ≤ needed keyVals) (buffer : List UInt8) :
    write keyVals buffer =
      if needed keyVals % 2 ^ 32 = 0 then .ok (buffer, 0) else .error .overrun := by
  have hsize := toNat_sizeOf_toList keyVals
  rw [write]
  by_cases hzero : needed keyVals % 2 ^ 32 = 0
  · have heq : sizeOf keyVals.toList = 0 := by
      apply UInt32.toNat.inj
      rw [hsize, hzero]
      rfl
    rw [if_pos heq, if_pos hzero, heq]
  · have hne : ¬ sizeOf keyVals.toList = 0 := by
      intro heq
      rw [heq] at hsize
      exact hzero hsize.symm
    have hover : (sizeOf keyVals.toList).toNat <
        ([] : List UInt8).length + (keyVals.toList.flatMap encodeEntry).length := by
      rw [length_flatMap_encodeEntry, hsize, List.length_nil]
      omega
    rw [if_neg hne, if_neg hzero, writeEntries_eq _ [] (Nat.zero_le _), if_pos hover]
    rfl

/-- A map comes back exactly if `parse` accepts its lines and takes them apart as they were put
together. -/
theorem parse_lines_iff {keyVals : StdMap StdString} (h : needed keyVals < 2 ^ 32)
    (errorMsg : StdString) :
    empty.parse (keyVals.toList.flatMap encodeEntry) (UInt32.ofNat (needed keyVals)) errorMsg =
        .ok (true, ⟨keyVals⟩, errorMsg) ↔
      ∀ entry ∈ keyVals.toList, 61 ∉ entry.1 ∧ (lineOf entry).length ≤ 1000000 := by
  have hlength := length_flatMap_encodeEntry keyVals
  obtain ⟨hblobs, hshort⟩ := flatMap_encodeEntry (hlength ▸ h)
  constructor
  · intro hparse
    obtain ⟨lines, hlines, tail, hbuffer, htail⟩ :=
      lineCode.exists_completes (keyVals.toList.flatMap encodeEntry)
    have hread := getElem?_foldl_addLine empty lines
    have hresult := parse_completes hlines htail (hbuffer ▸ hlength ▸ h) empty errorMsg (Or.inr rfl)
    rw [List.append_nil, ← hbuffer, hlength, hparse] at hresult
    -- success leaves no tail, and the lines are those that were written
    have hempty : tail = [] := by
      by_contra hne
      cases hending : endingOf tail with
      | atEnd =>
          rw [endingOf, if_neg hne] at hending
          split_ifs at hending
      | failed error => simp [hending, Ending.error, Except.map] at hresult
      | outOfBounds => simp [hending, Ending.error, Except.map] at hresult
    subst hempty
    have hheader : (⟨keyVals⟩ : Header) = lines.foldl addLine empty := by
      have hok : (endingOf []).error = .ok none := rfl
      rw [hok] at hresult
      exact congrArg (fun r => r.2.1) (Except.ok.inj hresult)
    have hsame : keyVals.toList.map lineOf = lines := by
      apply PrefixCode.Completes.eq_of_flatMap (c := PrefixCode.blob u32)
      · refine ⟨?_, [], ?_, PrefixCode.noneComplete_nil⟩
        · intro line hmem
          obtain ⟨entry, hentry, rfl⟩ := List.mem_map.mp hmem
          exact hshort entry hentry
        · rw [List.append_nil, ← hblobs, hbuffer, List.append_nil]
          rfl
      · exact fun line hmem => (hlines line hmem).1
    intro entry hentry
    refine ⟨?_, (hlines _ (hsame ▸ List.mem_map_of_mem hentry)).2.1⟩
    have hkey := hread entry.1
    rw [← hheader, Std.ExtTreeMap.mem_toList_iff_getElem?_eq_some.mp hentry] at hkey
    cases hlast : History.last (fun line => (entryOf line).1) entry.1 lines with
    | none => simp [hlast, empty] at hkey
    | some line =>
        have hk := History.key_of_last hlast
        rw [← hk]
        exact not_mem_key line
  · intro hentries
    have hvalid : ∀ line ∈ keyVals.toList.map lineOf, lineCode.Valid line := by
      intro line hmem
      obtain ⟨entry, hentry, rfl⟩ := List.mem_map.mp hmem
      refine ⟨hshort entry hentry, (hentries entry hentry).2, ?_⟩
      exact List.mem_append_left _ (List.mem_append_right _ (List.mem_singleton.mpr rfl))
    have hloop := parseLines_flatMap hvalid empty [] 0
    have hcode : (keyVals.toList.map lineOf).flatMap lineCode.encode =
        keyVals.toList.flatMap encodeEntry := hblobs.symm
    rw [hcode, List.append_nil, Nat.add_zero, hlength, parseLines_zero,
      foldl_addLine_eq fun entry hentry => (hentries entry hentry).1] at hloop
    rw [parse, UInt32.toNat_ofNat_of_lt' h, hloop]
    show Except.ok (true, _, errorMsg) = _
    rw [empty, History.foldl_insert_toList]

/-- Where the size fits its type. -/
theorem parse_written {keyVals : StdMap StdString} (hfits : needed keyVals < 2 ^ 32)
    (buffer : List UInt8) (errorMsg : StdString) :
    ∃ written size, write keyVals buffer = .ok (written, size) ∧
      (empty.parse written size errorMsg = .ok (true, ⟨keyVals⟩, errorMsg) ↔
        ∀ entry ∈ keyVals.toList, 61 ∉ entry.1 ∧ (lineOf entry).length ≤ 1000000) := by
  obtain ⟨written, hwrite, hwritten⟩ := write_of_lt hfits buffer
  refine ⟨written, _, hwrite, ?_⟩
  by_cases hzero : needed keyVals = 0
  · have hlength := length_flatMap_encodeEntry keyVals
    rw [hzero] at hlength
    have hsize : (UInt32.ofNat 0).toNat = 0 := rfl
    rw [← parse_lines_iff hfits, hzero, List.length_eq_zero_iff.mp hlength, parse, parse, hsize,
      parseLines_zero, parseLines_zero]
  · rw [hwritten hzero, parse_lines_iff hfits]

/-- **Written and read back.** Where the size fits its type, `write` gets through, and `parse` makes the same
map of what it wrote exactly if no key has an equals sign and no line is longer than `parse` allows. Where it
does not fit, `write` runs over its buffer, or writes nothing if the size comes to 0. -/
theorem parse_write (keyVals : StdMap StdString) (buffer : List UInt8) (errorMsg : StdString) :
    (needed keyVals < 2 ^ 32 → ∃ written size, write keyVals buffer = .ok (written, size) ∧
      (empty.parse written size errorMsg = .ok (true, ⟨keyVals⟩, errorMsg) ↔
        ∀ entry ∈ keyVals.toList, 61 ∉ entry.1 ∧ (lineOf entry).length ≤ 1000000)) ∧
    (2 ^ 32 ≤ needed keyVals → write keyVals buffer =
      if needed keyVals % 2 ^ 32 = 0 then .ok (buffer, 0) else .error .overrun) :=
  ⟨fun hfits => parse_written hfits buffer errorMsg, fun hbig => write_of_le hbig buffer⟩

/-! ### What a transport reads off a header -/

theorem getValue_eq (h : Header) (key value : StdString) :
    h.getValue key value = (h.readMap[key]?.isSome, h.readMap[key]?.getD value) := by
  rw [getValue]
  cases h.readMap[key]? <;> rfl

end Header

namespace TransportTCP

/-- `parseHeader` of a transport: whether it switches `TCP_NODELAY` on. -/
def parseHeader (header : Header) : Bool :=
  let (found, nodelay) := header.getValue (literal "tcp_nodelay") []
  found && nodelay = literal "1"

theorem parseHeader_iff (header : Header) :
    parseHeader header = true ↔ header.readMap[literal "tcp_nodelay"]? = some (literal "1") := by
  rw [parseHeader, Header.getValue_eq]
  cases header.readMap[literal "tcp_nodelay"]? with
  | none => exact iff_of_false Bool.false_ne_true fun h => by cases h
  | some value => simp

/-- The header of a peer switches `TCP_NODELAY` on exactly if the map it was written from says so. -/
theorem parseHeader_written {keyVals : StdMap StdString} (hfits : Header.needed keyVals < 2 ^ 32)
    (hreads : ∀ entry ∈ keyVals.toList, 61 ∉ entry.1 ∧ (Header.lineOf entry).length ≤ 1000000)
    (buffer : List UInt8) (errorMsg : StdString) :
    ∃ written size header, Header.write keyVals buffer = .ok (written, size) ∧
      Header.empty.parse written size errorMsg = .ok (true, header, errorMsg) ∧
      (parseHeader header = true ↔ keyVals[literal "tcp_nodelay"]? = some (literal "1")) := by
  obtain ⟨written, size, hwrite, hparse⟩ := Header.parse_written hfits buffer errorMsg
  exact ⟨written, size, ⟨keyVals⟩, hwrite, hparse.mpr hreads, parseHeader_iff _⟩

end TransportTCP

end Ros2Proto
