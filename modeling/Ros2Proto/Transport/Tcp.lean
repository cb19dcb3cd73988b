import Ros2Proto.Base.LittleEndian

/-!
# The TCP transport object

`TransportTCP` as `transport_tcp.h` declares it, without the members that only addresses and
logging read, and the operations on the socket: `close`, `read`, `write` and the four that switch
poll events on and off. The transports modelled here were connected or accepted and belong to a
poll set; a listening one passes no messages.

What the object does to the world around it is recorded behind its own members: the calls it makes
on its poll set, the bytes `::recv` has returned and `::send` has accepted, the arguments of
`readmsg_cb_` and the number of times `disconnect_cb_` ran. What the operating system answers is a
parameter: `Recv` and `Send` are one call's answer for each size it may be asked for.
-/

namespace Ros2Proto

/-- What ends the process: a failed `assert` or `ROS_ASSERT`, a `ROS_BREAK`, an exception nothing
catches, or undefined behaviour. -/
inductive Fault
  | assertion
  | rosBreak
  | outOfRange
  | badFunctionCall
  | divisionByZero
  | overrun
  | nullPointer
  deriving DecidableEq, Repr

/-- A `struct Frame`: the buffer `data` points to, and `size`. -/
structure Frame where
  data : List UInt8
  size : UInt32
  deriving DecidableEq, Repr

/-- A `TransportTCP::Message`. -/
structure Message where
  frames : List Frame
  numframes : UInt32
  numframesFilled : UInt32
  frameInd : UInt32
  frameFilled : UInt32
  frameSz : UInt32
  frameSzFilled : UInt32
  deriving DecidableEq, Repr

/-- A `poll` event mask. -/
abbrev PollEvents := UInt32

def POLLIN : PollEvents := 1
def POLLOUT : PollEvents := 4
def POLLERR : PollEvents := 8
def POLLHUP : PollEvents := 16
def POLLNVAL : PollEvents := 32

/-- A call on the transport's poll set. -/
inductive PollCall
  | addSocket (sock : Int)
  | delSocket (sock : Int)
  | addEvents (sock : Int) (events : PollEvents)
  | delEvents (sock : Int) (events : PollEvents)
  deriving DecidableEq, Repr

structure TransportTCP where
  sock : Int
  closed : Bool
  expectingRead : Bool
  expectingWrite : Bool
  /-- `flags_ & SYNCHRONOUS` -/
  synchronous : Bool
  messages : Bool
  reading : Bool
  readMsg : Message
  sendMsgs : List Message
  msgCounter : Int
  filter : Int
  /-- whether each callback member holds a function -/
  readmsgCb : Bool
  readCb : Bool
  writeCb : Bool
  disconnectCb : Bool
  pollCalls : List PollCall
  received : List UInt8
  sent : List UInt8
  delivered : List (List Frame)
  disconnects : Nat
  /-- what memory from `new uint8_t[n]` holds before it is written -/
  heap : Nat → UInt8

/-! ### The operating system's answers -/

/-- What `::recv` returns: bytes (none of them when the call would block), end of file, or an
error. -/
inductive RecvResult
  | bytes (bs : List UInt8)
  | eof
  | error
  deriving DecidableEq, Repr

/-- One answer of `::recv`, for each number of bytes it may be asked for. -/
structure Recv where
  result : Nat → RecvResult
  bounded : ∀ n bs, result n = .bytes bs → bs.length ≤ n

/-- One answer of `::send`, for each number of bytes it may be given: how many it accepted (none of
them when the call would block), or an error. -/
structure Send where
  result : Nat → Option Nat
  bounded : ∀ n k, result n = some k → k ≤ n

/-- The answer that hands over the front of `bs`, as much as was asked for. -/
def Recv.give (bs : List UInt8) : Recv where
  result n := .bytes (bs.take n)
  bounded n _ h := by
    cases h
    simp only [List.length_take]
    omega

/-- The answer that accepts `k` bytes, or fewer where fewer were given. -/
def Send.take (k : Nat) : Send where
  result n := some (min k n)
  bounded n _ h := by
    cases h
    omega

/-- `INT_MAX` -/
def intMax : Nat := 2 ^ 31 - 1

/-- The conversion of a signed integer to `uint32_t`. -/
def wrapU32 (i : Int) : UInt32 := UInt32.ofNat (i % 2 ^ 32).toNat

@[simp] theorem wrapU32_natCast (n : Nat) : wrapU32 n = UInt32.ofNat n := by
  apply UInt32.toNat.inj
  rw [wrapU32, UInt32.toNat_ofNat', UInt32.toNat_ofNat']
  omega

namespace TransportTCP

/-! ### The socket -/

def close (t : TransportTCP) : Except Fault TransportTCP :=
  if t.closed then .ok t
  else if t.sock = -1 then .error .assertion
  else .ok { t with
    closed := true
    pollCalls := t.pollCalls ++ [.delSocket t.sock]
    sock := -1
    disconnectCb := false
    readCb := false
    writeCb := false
    disconnects := if t.disconnectCb then t.disconnects + 1 else t.disconnects }

theorem closed_of_close {t t' : TransportTCP} (hrun : t.close = .ok t') : t'.closed = true := by
  rw [close] at hrun
  split_ifs at hrun with hclosed
  · exact Except.ok.inj hrun ▸ hclosed
  all_goals exact Except.ok.inj hrun ▸ rfl

/-- `read(buffer, size)`: the return value and the bytes written to the front of the buffer. -/
def read (t : TransportTCP) (recv : Recv) (size : UInt32) :
    Except Fault (Int × List UInt8 × TransportTCP) :=
  if t.closed then .ok (-1, [], t)
  else if size = 0 then .error .assertion
  else
    match recv.result (min size.toNat intMax) with
    | .bytes bs => .ok (bs.length, bs, { t with received := t.received ++ bs })
    | .eof => t.close.map fun t => (-1, [], t)
    | .error => t.close.map fun t => (-1, [], t)

/-- `write(buffer, size)`, for the bytes from `buffer` on. -/
def write (t : TransportTCP) (send : Send) (buffer : List UInt8) (size : UInt32) :
    Except Fault (Int × TransportTCP) :=
  if t.closed then .ok (-1, t)
  else if size = 0 then .error .assertion
  else if buffer.length < size.toNat then .error .overrun
  else
    match send.result (min size.toNat intMax) with
    | some k => .ok (k, { t with sent := t.sent ++ buffer.take k })
    | none => t.close.map fun t => (-1, t)

def enableRead (t : TransportTCP) : Except Fault TransportTCP :=
  if t.synchronous then .error .assertion
  else if t.closed then .ok t
  else if !t.expectingRead then
    .ok { t with pollCalls := t.pollCalls ++ [.addEvents t.sock POLLIN], expectingRead := true }
  else .ok t

def disableRead (t : TransportTCP) : Except Fault TransportTCP :=
  if t.synchronous then .error .assertion
  else if t.closed then .ok t
  else if t.expectingRead then
    .ok { t with pollCalls := t.pollCalls ++ [.delEvents t.sock POLLIN], expectingRead := false }
  else .ok t

def enableWrite (t : TransportTCP) : Except Fault TransportTCP :=
  if t.synchronous then .error .assertion
  else if t.closed then .ok t
  else if !t.expectingWrite then
    .ok { t with pollCalls := t.pollCalls ++ [.addEvents t.sock POLLOUT], expectingWrite := true }
  else .ok t

def disableWrite (t : TransportTCP) : Except Fault TransportTCP :=
  if t.synchronous then .error .assertion
  else if t.closed then .ok t
  else if t.expectingWrite then
    .ok { t with pollCalls := t.pollCalls ++ [.delEvents t.sock POLLOUT], expectingWrite := false }
  else .ok t

/-! ### Setting up -/

/-- A transport right after its constructor and `setSocket`. The members `uninit` stands for have no
initializer. -/
def connected (sock : Nat) (uninit : Message) (heap : Nat → UInt8) : TransportTCP where
  sock := sock
  closed := false
  expectingRead := false
  expectingWrite := false
  synchronous := false
  messages := false
  reading := false
  readMsg := uninit
  sendMsgs := []
  msgCounter := 0
  filter := 1
  readmsgCb := false
  readCb := false
  writeCb := false
  disconnectCb := false
  pollCalls := [.addSocket sock]
  received := []
  sent := []
  delivered := []
  disconnects := 0
  heap := heap

def enableMessagePass (t : TransportTCP) : TransportTCP :=
  { t with messages := true, readCb := true, writeCb := true }

def setMsgCallback (t : TransportTCP) : TransportTCP := { t with readmsgCb := true }

def setDisconnectCallback (t : TransportTCP) : TransportTCP := { t with disconnectCb := true }

/-- `setFilter(filter_num)`, guarded by its `assert`. -/
def setFilter (t : TransportTCP) (filterNum : Int) : Except Fault TransportTCP :=
  if 0 < filterNum then .ok { t with filter := filterNum, msgCounter := filterNum - 1 }
  else .error .assertion

/-- A transport that passes messages: `enableMessagePass`, `enableRead` and `setMsgCallback` on a
connected one, as every owner calls them. -/
def passing (sock : Nat) (uninit : Message) (heap : Nat → UInt8) : TransportTCP :=
  { connected sock uninit heap with
    messages := true
    readCb := true
    writeCb := true
    expectingRead := true
    pollCalls := [.addSocket sock, .addEvents sock POLLIN]
    readmsgCb := true }

theorem passing_eq (sock : Nat) (uninit : Message) (heap : Nat → UInt8) :
    ((connected sock uninit heap).enableMessagePass.enableRead.map setMsgCallback)
      = .ok (passing sock uninit heap) := rfl

end TransportTCP

/-- What a transport takes from its socket and from memory. -/
structure Endpoint where
  sock : Nat
  uninit : Message
  heap : Nat → UInt8

def Endpoint.transport (e : Endpoint) : TransportTCP := .connected e.sock e.uninit e.heap

end Ros2Proto
