import Ros2Proto.Base.Assignment
import Ros2Proto.Transport.Messages

/-!
# The poll set

`PollSet` of `poll_set.cpp` and the transports that share one: the sockets it tracks with the events
requested for each, and the array that it hands to `poll`. The bytes that `signal` writes to the set's
own pipe, and the descriptors remembered as just deleted, which only `update` reads, are not part of
the model.

A transport makes its calls on the set while it handles an event, and those calls are what it appends
to `pollCalls`; they take effect on the set in that order.
-/

namespace Ros2Proto

open Assignment Std

/-- A `SocketInfo`. `transport` is whose `socketUpdate` the update function is bound to; the set's own
pipe has none. -/
structure SocketInfo where
  fd : Int
  events : PollEvents
  transport : Option Nat
  deriving DecidableEq, Repr

/-- A `socket_pollfd`, with its `revents` cleared. -/
structure PollFd where
  fd : Int
  events : PollEvents
  deriving DecidableEq, Repr

structure PollSet where
  socketInfo : ExtTreeMap Int SocketInfo compare
  socketsChanged : Bool
  ufds : List PollFd
  /-- `signal_pipe_[0]` -/
  signalPipe : Int

namespace PollSet

def addSocket (p : PollSet) (fd : Int) (transport : Option Nat) : PollSet :=
  if fd ∈ p.socketInfo then p
  else { p with
    socketInfo := p.socketInfo.insert fd ⟨fd, 0, transport⟩
    socketsChanged := true }

def delSocket (p : PollSet) (fd : Int) : PollSet :=
  if fd < 0 then p
  else if fd ∈ p.socketInfo then { p with
    socketInfo := p.socketInfo.erase fd
    socketsChanged := true }
  else p

def addEvents (p : PollSet) (sock : Int) (events : PollEvents) : PollSet :=
  match p.socketInfo[sock]? with
  | none => p
  | some info => { p with
      socketInfo := p.socketInfo.insert sock { info with events := info.events ||| events } }

def delEvents (p : PollSet) (sock : Int) (events : PollEvents) : PollSet :=
  match p.socketInfo[sock]? with
  | none => p
  | some info => { p with
      socketInfo := p.socketInfo.insert sock { info with events := info.events &&& ~~~events } }

/-- The constructor, with the pipe that `create_signal_pair` made. -/
def create (signalPipe : Nat) : PollSet :=
  ((PollSet.mk ∅ false [] signalPipe).addSocket signalPipe none).addEvents signalPipe POLLIN

/-- The array is built anew if `sockets_changed_` is set. Nothing ever clears it. -/
def createNativePollset (p : PollSet) : PollSet :=
  if p.socketsChanged then
    { p with ufds := p.socketInfo.toList.map fun entry => ⟨entry.2.fd, entry.2.events⟩ }
  else p

/-- A call made by the transport at `i`. -/
def onCall (p : PollSet) (i : Nat) : PollCall → PollSet
  | .addSocket sock => p.addSocket sock (some i)
  | .delSocket sock => p.delSocket sock
  | .addEvents sock events => p.addEvents sock events
  | .delEvents sock events => p.delEvents sock events

def onCalls (p : PollSet) (i : Nat) (calls : List PollCall) : PollSet :=
  calls.foldl (fun p call => p.onCall i call) p

/-- `events_` of the socket contains all of `events`. -/
def Requests (p : PollSet) (sock : Int) (events : PollEvents) : Prop :=
  ∃ info, p.socketInfo[sock]? = some info ∧ info.events &&& events = events

end PollSet

/-- A poll set and the transports that were connected or accepted with it, in that order. -/
structure Polling where
  pollSet : PollSet
  transports : List TransportTCP

/-- A new connection, ready to pass messages; an event at the transport `i`; or the next round of
`PollSet::update`. `setFilter` and `sendFrames` come from the owner's threads, `writable` from the poll
thread, `close` from either. -/
inductive PollingEvent
  | connect (sock : Nat) (uninit : Message) (heap : Nat → UInt8)
  | setFilter (i : Nat) (filterNum : Int)
  | sendFrames (i : Nat) (frames : List Frame)
  | writable (i : Nat) (send : Send)
  | close (i : Nat)
  | poll

namespace Polling

def create (signalPipe : Nat) : Polling := ⟨.create signalPipe, []⟩

/-- The transport at `i` does `f`, and the poll set what `f` calls on it. -/
def update (s : Polling) (i : Nat) (f : TransportTCP → Except Fault TransportTCP) :
    Except Fault Polling :=
  match s.transports[i]? with
  | none => .ok s
  | some t => do
    let t' ← f t
    .ok { transports := s.transports.set i t'
          pollSet := s.pollSet.onCalls i (t'.pollCalls.drop t.pollCalls.length) }

/-- A new descriptor is one that is not open. -/
def Unused (s : Polling) (sock : Nat) : Prop :=
  (sock : Int) ≠ s.pollSet.signalPipe ∧ ∀ t ∈ s.transports, t.closed = false → t.sock ≠ sock

instance (s : Polling) (sock : Nat) : Decidable (s.Unused sock) :=
  inferInstanceAs (Decidable (_ ∧ _))

def connect (s : Polling) (t : TransportTCP) : Polling where
  transports := s.transports ++ [t]
  pollSet := s.pollSet.onCalls s.transports.length t.pollCalls

def onEvent (s : Polling) : PollingEvent → Except Fault Polling
  | .connect sock uninit heap =>
    if s.Unused sock then .ok (s.connect (.passing sock uninit heap)) else .ok s
  | .setFilter i filterNum => s.update i fun t => t.setFilter filterNum
  | .sendFrames i frames => s.update i fun t => t.sendFrames frames
  | .writable i send => s.update i fun t => t.socketUpdate POLLOUT (.give []) send
  | .close i => s.update i TransportTCP.close
  | .poll => .ok { s with pollSet := s.pollSet.createNativePollset }

end Polling

/-! ### What the calls do to the requested events -/

namespace PollSet

theorem or_and_right_self (a b : UInt32) : (a ||| b) &&& b = b := by
  apply UInt32.toBitVec_inj.mp
  apply BitVec.eq_of_getLsbD_eq
  intro k _
  simp only [UInt32.toBitVec_and, UInt32.toBitVec_or, BitVec.getLsbD_and, BitVec.getLsbD_or]
  cases a.toBitVec.getLsbD k <;> cases b.toBitVec.getLsbD k <;> rfl

theorem and_not_and_self (a b : UInt32) : (a &&& ~~~b) &&& b = 0 := by
  apply UInt32.toBitVec_inj.mp
  apply BitVec.eq_of_getLsbD_eq
  intro k hk
  simp only [UInt32.toBitVec_and, UInt32.toBitVec_not, BitVec.getLsbD_and, BitVec.getLsbD_not, hk]
  cases a.toBitVec.getLsbD k <;> cases b.toBitVec.getLsbD k <;> simp

end PollSet

end Ros2Proto
