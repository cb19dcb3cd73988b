import Ros2Proto.Base.Runs
import Ros2Proto.Transport.Messages

/-!
# Connecting

`TransportTCP::connect` and `accept` of a transport that is not `SYNCHRONOUS`, with what the operating
system and the resolver answer. The socket joins the poll set in the last step. Most failures of `connect`
before it close the transport, but two leave it open: where there was no socket to close, and where the
host has no address of the family in use.
-/

namespace Ros2Proto

open FallibleRun

/-- What a host name leads to. -/
inductive HostLookup
  | address
  | unresolved
  /-- `getaddrinfo` found addresses of another family only -/
  | noAddress
  deriving DecidableEq, Repr

/-- What `::connect` answers. -/
inductive ConnectAnswer
  | inProgress
  | connected
  | failed
  deriving DecidableEq, Repr

/-- The answers to one `connect`, and what the members without an initializer and new memory hold. -/
structure Dial where
  /-- `socket()`, unless it fails -/
  socket : Option Nat
  lookup : HostLookup
  answer : ConnectAnswer
  /-- whether `set_non_blocking` succeeds, in `connect` and in `initializeSocket` -/
  nonBlocking : Bool
  nonBlockingAgain : Bool
  uninit : Message
  heap : Nat → UInt8

/-- Nothing stops `connect` on its way. -/
def Dial.GetsThrough (d : Dial) : Prop :=
  d.socket ≠ none ∧ d.lookup = .address ∧ d.answer = .inProgress ∧ d.nonBlocking = true ∧
    d.nonBlockingAgain = true

instance (d : Dial) : Decidable d.GetsThrough := by
  unfold Dial.GetsThrough
  infer_instance

namespace TransportTCP

/-- `TransportTCP(poll_set)` -/
def create (uninit : Message) (heap : Nat → UInt8) : TransportTCP :=
  { connected 0 uninit heap with sock := -1, pollCalls := [] }

def setNonBlocking (t : TransportTCP) (succeeds : Bool) : Except Fault (Bool × TransportTCP) :=
  if !t.synchronous then
    if succeeds then .ok (true, t)
    else do
      let t ← t.close
      .ok (false, t)
  else .ok (true, t)

def initializeSocket (t : TransportTCP) (nonBlocking : Bool) : Except Fault (Bool × TransportTCP) :=
  if t.sock = -1 then .error .assertion
  else do
    let (initialized, t) ← t.setNonBlocking nonBlocking
    if initialized then
      .ok (true, { t with pollCalls := t.pollCalls ++ [.addSocket t.sock] })
    else .ok (false, t)

def connect (t : TransportTCP) (d : Dial) : Except Fault (Bool × TransportTCP) :=
  match d.socket with
  | none => .ok (false, { t with sock := -1 })
  | some sock => do
    let (_, t) ← { t with sock := sock }.setNonBlocking d.nonBlocking
    match d.lookup with
    | .unresolved => do
      let t ← t.close
      .ok (false, t)
    | .noAddress => .ok (false, t)
    | .address =>
      -- There is nothing to connect once `setNonBlocking` has closed the socket.
      match if t.sock = -1 then .failed else d.answer with
      | .connected => .error .assertion
      | .failed => do
        let t ← t.close
        .ok (false, t)
      | .inProgress => t.initializeSocket d.nonBlockingAgain

/-- `accept` of a connection, where `set_non_blocking` succeeds or not. What `setSocket` returns is not
looked at. -/
def accept (e : Endpoint) (nonBlocking : Bool) : Except Fault TransportTCP := do
  let (_, tcp) ← { create e.uninit e.heap with sock := e.sock }.initializeSocket nonBlocking
  .ok tcp

/-- The transport's socket is in the poll set. -/
def Polled (t : TransportTCP) : Prop :=
  t.closed = false ∧ t.sock ≠ -1 ∧ .addSocket t.sock ∈ t.pollCalls

instance (t : TransportTCP) : Decidable t.Polled := by
  unfold Polled
  infer_instance

/-- A transport that `connect` has left. But for its socket it is as its constructor made it. -/
structure Dialed (d : Dial) (t : TransportTCP) : Prop where
  synchronous : t.synchronous = false
  expectingRead : t.expectingRead = false
  expectingWrite : t.expectingWrite = false
  sendMsgs : t.sendMsgs = []
  msgCounter : t.msgCounter = 0
  filter : t.filter = 1
  polled_iff : t.Polled ↔ d.GetsThrough

/-! ### What `connect` leaves -/

variable {d : Dial} {sock : Nat} {t : TransportTCP}

/-- The transport after `socket()`, and after it was closed again. -/
def opened (d : Dial) (sock : Nat) : TransportTCP := { create d.uninit d.heap with sock := sock }

def shut (d : Dial) (sock : Nat) : TransportTCP :=
  { create d.uninit d.heap with closed := true, pollCalls := [.delSocket sock] }

theorem opened_sock : (opened d sock).sock ≠ -1 := by
  show (sock : Int) ≠ -1
  omega

theorem close_opened : (opened d sock).close = .ok (shut d sock) := by
  rw [close, if_neg (by simp [opened, create, connected]), if_neg opened_sock]
  rfl

theorem setNonBlocking_opened (b : Bool) :
    (opened d sock).setNonBlocking b = .ok (b, if b then opened d sock else shut d sock) := by
  cases b with
  | true => rfl
  | false =>
      show (do let t ← (opened d sock).close; Except.ok (false, t)) = _
      rw [close_opened]
      rfl

/-- A transport without a socket in the poll set is what a failed `connect` leaves. -/
theorem dialed_of_failed (hnot : ¬ d.GetsThrough) (ht : t = opened d sock ∨ t = shut d sock ∨
    t = create d.uninit d.heap) : Dialed d t := by
  have hpolled : ¬ t.Polled := by
    rcases ht with rfl | rfl | rfl
    · intro h
      cases h.2.2
    · intro h
      cases h.1
    · intro h
      exact h.2.1 rfl
  rcases ht with rfl | rfl | rfl <;>
    exact ⟨rfl, rfl, rfl, rfl, rfl, rfl, iff_of_false hpolled hnot⟩

theorem dialed_connected (hthrough : d.GetsThrough) :
    Dialed d (connected sock d.uninit d.heap) := by
  have hsock : (sock : Int) ≠ -1 := by omega
  exact ⟨rfl, rfl, rfl, rfl, rfl, rfl,
    iff_of_true ⟨rfl, hsock, List.mem_singleton_self _⟩ hthrough⟩

/-- `connect` once it has a socket. -/
theorem connect_of_socket (hsock : d.socket = some sock) :
    (create d.uninit d.heap).connect d =
      match d.lookup, if d.nonBlocking then d.answer else .failed with
      | .unresolved, _ => .ok (false, shut d sock)
      | .noAddress, _ => .ok (false, if d.nonBlocking then opened d sock else shut d sock)
      | .address, .connected => .error .assertion
      | .address, .failed => .ok (false, shut d sock)
      | .address, .inProgress => (opened d sock).initializeSocket d.nonBlockingAgain := by
  have hrun : (create d.uninit d.heap).connect d =
      ((opened d sock).setNonBlocking d.nonBlocking).bind fun r =>
        match d.lookup with
        | .unresolved => r.2.close.bind fun t => .ok (false, t)
        | .noAddress => .ok (false, r.2)
        | .address =>
          match if r.2.sock = -1 then ConnectAnswer.failed else d.answer with
          | .connected => .error .assertion
          | .failed => r.2.close.bind fun t => .ok (false, t)
          | .inProgress => r.2.initializeSocket d.nonBlockingAgain := by
    rw [connect, hsock]
    rfl
  rw [hrun, setNonBlocking_opened]
  cases d.nonBlocking with
  | true =>
      show (match d.lookup with
        | .unresolved => (opened d sock).close.bind fun t => .ok (false, t)
        | .noAddress => .ok (false, opened d sock)
        | .address =>
          match if (opened d sock).sock = -1 then ConnectAnswer.failed else d.answer with
          | .connected => .error .assertion
          | .failed => (opened d sock).close.bind fun t => .ok (false, t)
          | .inProgress => (opened d sock).initializeSocket d.nonBlockingAgain) = _
      rw [if_neg opened_sock, close_opened]
      cases d.lookup <;> cases d.answer <;> rfl
  | false => cases d.lookup <;> rfl

theorem initializeSocket_opened (b : Bool) :
    (opened d sock).initializeSocket b =
      .ok (b, if b then connected sock d.uninit d.heap else shut d sock) := by
  rw [initializeSocket, if_neg opened_sock, setNonBlocking_opened]
  cases b <;> rfl

/-- What `accept` passes on: a transport that is closed already, if its socket could not be made
non-blocking. -/
theorem accept_eq (e : Endpoint) (nonBlocking : Bool) : accept e nonBlocking = .ok
    (if nonBlocking then e.transport else { create e.uninit e.heap with
      closed := true
      pollCalls := [.delSocket e.sock] }) := by
  let d : Dial := ⟨none, .address, .inProgress, nonBlocking, nonBlocking, e.uninit, e.heap⟩
  show ((opened d e.sock).initializeSocket nonBlocking).bind (fun r => .ok r.2) = _
  rw [initializeSocket_opened]
  rfl

theorem open_iff_of_accept {e : Endpoint} {nonBlocking : Bool} (hrun : accept e nonBlocking = .ok t) :
    t.closed = false ↔ nonBlocking = true := by
  rw [accept_eq] at hrun
  obtain rfl := Except.ok.inj hrun
  cases nonBlocking with
  | true => exact iff_of_true rfl rfl
  | false => exact iff_of_false (fun h => Bool.false_ne_true h.symm) Bool.false_ne_true

/-- Where nothing stops it, `connect` leaves a connected transport. -/
theorem connect_of_getsThrough (hthrough : d.GetsThrough) (hsock : d.socket = some sock) :
    (create d.uninit d.heap).connect d = .ok (true, connected sock d.uninit d.heap) := by
  obtain ⟨-, hlookup, hanswer, hfirst, hagain⟩ := hthrough
  rw [connect_of_socket hsock, hlookup, hfirst, hanswer]
  show (opened d sock).initializeSocket d.nonBlockingAgain = _
  rw [initializeSocket_opened, hagain]
  rfl

/-- `connect` asserts that it does not succeed at once. Otherwise it leaves the transport in the poll
set exactly if nothing stopped it. -/
theorem connect_ends (d : Dial) :
    Ends (fun r => Dialed d r.2) (· = .assertion) ((create d.uninit d.heap).connect d) := by
  by_cases hthrough : d.GetsThrough
  · obtain ⟨sock, hsock⟩ := Option.ne_none_iff_exists'.mp hthrough.1
    rw [connect_of_getsThrough hthrough hsock]
    exact dialed_connected hthrough
  · cases hsock : d.socket with
    | none =>
        rw [connect, hsock]
        have hcreated : create d.uninit d.heap = opened d 0 ∨ create d.uninit d.heap = shut d 0 ∨
            create d.uninit d.heap = create d.uninit d.heap := Or.inr (Or.inr rfl)
        exact dialed_of_failed hthrough hcreated
    | some sock =>
        rw [connect_of_socket hsock]
        cases hlookup : d.lookup with
        | unresolved => exact dialed_of_failed hthrough (Or.inr (Or.inl rfl))
        | noAddress =>
            cases d.nonBlocking with
            | true => exact dialed_of_failed hthrough (Or.inl rfl)
            | false => exact dialed_of_failed hthrough (Or.inr (Or.inl rfl))
        | address =>
            cases hanswer : if d.nonBlocking then d.answer else ConnectAnswer.failed with
            | connected => rfl
            | failed => exact dialed_of_failed hthrough (Or.inr (Or.inl rfl))
            | inProgress =>
                show Ends _ _ ((opened d sock).initializeSocket d.nonBlockingAgain)
                rw [initializeSocket_opened]
                cases hagain : d.nonBlockingAgain with
                | false => exact dialed_of_failed hthrough (Or.inr (Or.inl rfl))
                | true =>
                    cases hfirst : d.nonBlocking with
                    | false =>
                        rw [hfirst] at hanswer
                        cases hanswer
                    | true =>
                        rw [hfirst, if_pos rfl] at hanswer
                        exact absurd
                          ⟨by simp [hsock], hlookup, hanswer, hfirst, hagain⟩ hthrough

end TransportTCP

end Ros2Proto
