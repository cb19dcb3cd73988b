import Mathlib.Data.List.Induction
import Mathlib.Data.List.Nodup
import Ros2Proto.Base.Runs
import Ros2Proto.PubSub.Tcp
import Ros2Proto.Topics.Manager

/-!
# Calls on a service

`MultiServiceClient` and `ServiceResponseT` of `service.hpp`. Each call is given a transport of its own,
right after `connect`, and an object that waits for the response, which the transport's `readmsg_cb_`
points to. A response runs the caller's callback and closes the transport, and the disconnect callback
deletes the object. A transport is known by its place among those of all calls, and an object by its
place in `heap`, which is empty again once the object is deleted.

What happened to the calls is recorded in order: the callbacks that ran, the transports that closed and
the objects that were deleted. The record of one call is then one of three: it is pending, it was
disconnected, or its first message was handed to its callback and its transport closed.
-/

namespace Ros2Proto

open FallibleRun

variable {Request Response : Type}

/-- A call of a service, with what its transport takes from its socket and the generated code of the
service. `Request` and `Response` are the messages of all services that are called. -/
structure ServiceCall (Request Response : Type) where
  endpoint : Endpoint
  method : StdString
  request : Request
  write : Request → List UInt8
  read : List UInt8 → Except Fault Response

/-- A `ServiceResponseT`, with the place of its transport. -/
structure ServiceResponseT (Request Response : Type) where
  request : Request
  read : List UInt8 → Except Fault Response
  tcp : Nat

/-- What happened to a call. -/
inductive Happening (Request Response : Type)
  /-- the callback of the object at this place ran -/
  | invoked (object : Nat) (request : Request) (response : Response)
  | closed (tcp : Nat)
  | deleted (object : Nat)
  deriving DecidableEq, Repr

/-- A transport, with the object that its `readmsg_cb_` points to. -/
structure ClientTransport where
  tcp : TransportTCP
  readmsgCb : Nat

structure MultiServiceClient (Request Response : Type) where
  transports : List ClientTransport
  heap : List (Option (ServiceResponseT Request Response))
  outgoingCalls : List Nat
  history : List (Happening Request Response)

/-- A call, the arrival of a message or the loss of a connection. -/
inductive ClientEvent (Request Response : Type)
  | call (c : ServiceCall Request Response)
  | message (i : Nat) (frame : Frame)
  | disconnect (i : Nat)

namespace MultiServiceClient

def empty : MultiServiceClient Request Response := ⟨[], [], [], []⟩

/-- `call` on the given transport. -/
def callOn (s : MultiServiceClient Request Response) (server : TransportTCP) (method : StdString)
    (request : Request) (write : Request → List UInt8) (read : List UInt8 → Except Fault Response) :
    Except Fault (MultiServiceClient Request Response) := do
  let tcp ← server.enableMessagePass.enableRead
  let reqBytes := write request
  let tcp ← tcp.setMsgCallback.setDisconnectCallback.sendFrames
    [⟨method, UInt32.ofNat method.length⟩, ⟨reqBytes, UInt32.ofNat reqBytes.length⟩]
  .ok { s with
    transports := s.transports ++ [⟨tcp, s.heap.length⟩]
    heap := s.heap ++ [some ⟨request, read, s.transports.length⟩]
    outgoingCalls := s.outgoingCalls ++ [s.heap.length] }

/-- `call` on a transport that was just connected. -/
def call (s : MultiServiceClient Request Response) (c : ServiceCall Request Response) :
    Except Fault (MultiServiceClient Request Response) :=
  s.callOn c.endpoint.transport c.method c.request c.write c.read

/-- The first call in the list whose socket is the one given. -/
def findCall (heap : List (Option (ServiceResponseT Request Response))) (conn : Nat) :
    List Nat → Except Fault (Option Nat)
  | [] => .ok none
  | it :: rest =>
    match heap[it]? with
    | some (some response) => if response.tcp = conn then .ok (some it) else findCall heap conn rest
    | _ => .error .nullPointer

def removeConnection (s : MultiServiceClient Request Response) (conn : Nat) :
    Except Fault (MultiServiceClient Request Response) := do
  match ← findCall s.heap conn s.outgoingCalls with
  | none => .ok s
  | some it => .ok { s with
      heap := s.heap.set it none
      outgoingCalls := s.outgoingCalls.erase it
      history := s.history ++ [.deleted it] }

/-- `close` of a transport, with its disconnect callback. -/
def close (s : MultiServiceClient Request Response) (i : Nat) :
    Except Fault (MultiServiceClient Request Response) :=
  match s.transports[i]? with
  | none => .ok s
  | some t =>
    if t.tcp.closed then .ok s
    else do
      let tcp ← t.tcp.close
      let s := { s with
        transports := s.transports.set i { t with tcp := tcp }
        history := s.history ++ [.closed i] }
      if t.tcp.disconnectCb then s.removeConnection i else .ok s

/-- `ServiceResponseT::call` of the object at a place. -/
def onResponse (s : MultiServiceClient Request Response) (object : Nat) (frames : List Frame) :
    Except Fault (MultiServiceClient Request Response) :=
  match s.heap[object]? with
  | some (some this) =>
    match frames with
    | [frame] => do
      let response ← this.read frame.payload
      close { s with history := s.history ++ [.invoked object this.request response] } this.tcp
    | _ => .error .rosBreak
  | _ => .error .nullPointer

/-- A message is read while its transport is open and reads. -/
def onMessage (s : MultiServiceClient Request Response) (i : Nat) (frames : List Frame) :
    Except Fault (MultiServiceClient Request Response) :=
  match s.transports[i]? with
  | none => .ok s
  | some t =>
    if t.tcp.closed ∨ !t.tcp.expectingRead ∨ !t.tcp.readCb then .ok s
    else
      let tcp := { t.tcp with delivered := t.tcp.delivered ++ [frames] }
      onResponse { s with transports := s.transports.set i { t with tcp := tcp } } t.readmsgCb frames

def onEvent (s : MultiServiceClient Request Response) :
    ClientEvent Request Response → Except Fault (MultiServiceClient Request Response)
  | .call c => s.call c
  | .message i frame => s.onMessage i [frame]
  | .disconnect i => s.close i

/-! ### What may have happened to a call -/

/-- The calls made, in order. -/
def calls (events : List (ClientEvent Request Response)) : List (ServiceCall Request Response) :=
  events.filterMap fun
    | .call c => some c
    | _ => none

/-- What an event brings to transport `i`: a message, or `none` for the loss of the connection. -/
def brings (i : Nat) : ClientEvent Request Response → List (Option Frame)
  | .call _ => []
  | .message j frame => if j = i then [some frame] else []
  | .disconnect j => if j = i then [none] else []

/-- What the events bring to transport `i`, of which `made` is the number of calls made before. A
transport is there once its call is made. -/
def trafficFrom (i made : Nat) : List (ClientEvent Request Response) → List (Option Frame)
  | [] => []
  | e :: rest =>
    (if i < made then brings i e else []) ++ trafficFrom i (made + (calls [e]).length) rest

def traffic (i : Nat) (events : List (ClientEvent Request Response)) : List (Option Frame) :=
  trafficFrom i 0 events

/-- The place a happening is about. -/
def place : Happening Request Response → Nat
  | .invoked object _ _ => object
  | .closed tcp => tcp
  | .deleted object => object

/-- What happened to the call at place `i`. -/
def record (i : Nat) (history : List (Happening Request Response)) :
    List (Happening Request Response) :=
  history.filter fun h => place h = i

/-- The record of a call whose transport was brought the given messages. The first thing that came
settles the call, and nothing that comes later does anything to it. -/
inductive Fate (c : ServiceCall Request Response) (i : Nat) :
    List (Option Frame) → List (Happening Request Response) → Prop
  | pending : Fate c i [] []
  | disconnected (later : List (Option Frame)) : Fate c i (none :: later) [.closed i, .deleted i]
  | answered (frame : Frame) (response : Response) (later : List (Option Frame))
      (hread : c.read frame.payload = .ok response) :
      Fate c i (some frame :: later) [.invoked i c.request response, .closed i, .deleted i]

/-- Every call has had one of the three fates. A transport is closed, and its call no longer in the
list, once something came. -/
def Settled (events : List (ClientEvent Request Response))
    (s : MultiServiceClient Request Response) : Prop :=
  ∀ i c, (calls events)[i]? = some c → ∃ t : ClientTransport, s.transports[i]? = some t ∧
    Fate c i (traffic i events) (record i s.history) ∧
    (t.tcp.closed = true ↔ traffic i events ≠ []) ∧ (i ∈ s.outgoingCalls ↔ t.tcp.closed = false)

section

variable {events : List (ClientEvent Request Response)} {e : ClientEvent Request Response}
  {c : ServiceCall Request Response} {s : MultiServiceClient Request Response} {i : Nat}

theorem calls_concat (events : List (ClientEvent Request Response))
    (e : ClientEvent Request Response) : calls (events ++ [e]) = calls events ++ calls [e] :=
  List.filterMap_append

theorem trafficFrom_concat (i : Nat) (events : List (ClientEvent Request Response))
    (e : ClientEvent Request Response) (made : Nat) :
    trafficFrom i made (events ++ [e])
      = trafficFrom i made events
        ++ if i < made + (calls events).length then brings i e else [] := by
  induction events generalizing made with
  | nil => simp [trafficFrom, calls]
  | cons first events ih =>
      have hcalls : calls (first :: events) = calls [first] ++ calls events :=
        List.filterMap_append (l := [first])
      rw [List.cons_append, trafficFrom, ih, trafficFrom, hcalls, List.length_append,
        List.append_assoc, Nat.add_assoc]

theorem traffic_concat (i : Nat) (events : List (ClientEvent Request Response))
    (e : ClientEvent Request Response) :
    traffic i (events ++ [e])
      = traffic i events ++ if i < (calls events).length then brings i e else [] := by
  rw [traffic, trafficFrom_concat, Nat.zero_add, traffic]

/-- Nothing is brought to a transport before its call is made. -/
theorem traffic_of_le (h : (calls events).length ≤ i) : traffic i events = [] := by
  induction events using List.reverseRecOn with
  | nil => rfl
  | append_singleton events e ih =>
      rw [calls_concat, List.length_append] at h
      rw [traffic_concat, ih (by omega), if_neg (by omega), List.nil_append]

theorem record_append (i : Nat) (history more : List (Happening Request Response)) :
    record i (history ++ more) = record i history ++ record i more :=
  List.filter_append ..

theorem record_of_place {h : List (Happening Request Response)} (hplace : ∀ x ∈ h, place x = i) :
    record i h = h :=
  List.filter_eq_self.mpr fun x hx => by simpa using hplace x hx

theorem record_of_place_ne {h : List (Happening Request Response)}
    (hplace : ∀ x ∈ h, place x ≠ i) : record i h = [] :=
  List.filter_eq_nil_iff.mpr fun x hx => by simpa using hplace x hx

theorem Fate.later {before : List (Option Frame)} {happened : List (Happening Request Response)}
    (h : Fate c i before happened) (hcame : before ≠ []) (more : List (Option Frame)) :
    Fate c i (before ++ more) happened := by
  cases h with
  | pending => exact absurd rfl hcame
  | disconnected later => exact .disconnected (later ++ more)
  | answered frame response later hread => exact .answered frame response (later ++ more) hread

/-! ### The invariant -/

/-- The call at place `i` waits for its response on the open transport `t`. -/
structure Waits (c : ServiceCall Request Response) (i : Nat) (t : ClientTransport)
    (s : MultiServiceClient Request Response) : Prop where
  object : s.heap[i]? = some (some ⟨c.request, c.read, i⟩)
  readmsgCb : t.readmsgCb = i
  expectingRead : t.tcp.expectingRead = true
  readCb : t.tcp.readCb = true
  disconnectCb : t.tcp.disconnectCb = true
  sock : t.tcp.sock ≠ -1

/-- How the call at place `i` stands once `came` was brought to its transport `t`. -/
structure Stands (c : ServiceCall Request Response) (i : Nat) (t : ClientTransport)
    (came : List (Option Frame)) (s : MultiServiceClient Request Response) : Prop where
  fate : Fate c i came (record i s.history)
  closed_iff : t.tcp.closed = true ↔ came ≠ []
  listed_iff : i ∈ s.outgoingCalls ↔ t.tcp.closed = false
  waits : t.tcp.closed = false → Waits c i t s

structure Sound (events : List (ClientEvent Request Response))
    (s : MultiServiceClient Request Response) : Prop where
  length_transports : s.transports.length = (calls events).length
  length_heap : s.heap.length = (calls events).length
  place_lt : ∀ h ∈ s.history, place h < (calls events).length
  listed_lt : ∀ i ∈ s.outgoingCalls, i < (calls events).length
  nodup : s.outgoingCalls.Nodup
  stands : ∀ i c, (calls events)[i]? = some c →
    ∃ t, s.transports[i]? = some t ∧ Stands c i t (traffic i events) s

theorem sound_empty : Sound [] (empty : MultiServiceClient Request Response) where
  length_transports := rfl
  length_heap := rfl
  place_lt := by simp [empty]
  listed_lt := by simp [empty]
  nodup := .nil
  stands i c hc := by simp [calls] at hc

theorem Sound.settled (h : Sound events s) : Settled events s := by
  intro i c hc
  obtain ⟨t, ht, hstands⟩ := h.stands i c hc
  exact ⟨t, ht, hstands.fate, hstands.closed_iff, hstands.listed_iff⟩

/-- The objects in the list are there, each with its own transport. -/
def Lists (heap : List (Option (ServiceResponseT Request Response))) (listed : List Nat) : Prop :=
  ∀ j ∈ listed, ∃ o : ServiceResponseT Request Response, heap[j]? = some (some o) ∧ o.tcp = j

theorem Sound.lists (h : Sound events s) : Lists s.heap s.outgoingCalls := by
  intro j hj
  have hlt := h.listed_lt j hj
  obtain ⟨t, -, hstands⟩ := h.stands j _ (List.getElem?_eq_getElem hlt)
  have hwaits := hstands.waits (hstands.listed_iff.mp hj)
  exact ⟨_, hwaits.object, rfl⟩

theorem findCall_of_mem {heap : List (Option (ServiceResponseT Request Response))}
    {listed : List Nat} (h : Lists heap listed) (hmem : i ∈ listed) :
    findCall heap i listed = .ok (some i) := by
  induction listed with
  | nil => cases hmem
  | cons it rest ih =>
      obtain ⟨o, ho, htcp⟩ := h it (by simp)
      simp only [findCall, ho, htcp]
      by_cases hit : it = i
      · rw [if_pos hit, hit]
      · rw [if_neg hit]
        apply ih
        · intro j hj
          exact h j (by simp [hj])
        · rcases List.mem_cons.mp hmem with rfl | hrest
          · exact absurd rfl hit
          · exact hrest

/-- The close of a transport that is open, whose disconnect callback finds its call. -/
theorem close_of_open {t : ClientTransport} (ht : s.transports[i]? = some t)
    (hopen : t.tcp.closed = false) (hsock : t.tcp.sock ≠ -1) (hcb : t.tcp.disconnectCb = true)
    (hlists : Lists s.heap s.outgoingCalls) (hmem : i ∈ s.outgoingCalls) :
    ∃ tcp : TransportTCP, tcp.closed = true ∧ s.close i = .ok
      { transports := s.transports.set i { t with tcp := tcp }
        heap := s.heap.set i none
        outgoingCalls := s.outgoingCalls.erase i
        history := s.history ++ [.closed i, .deleted i] } := by
  obtain ⟨tcp, hclose, hclosed⟩ : ∃ tcp : TransportTCP, t.tcp.close = .ok tcp ∧ tcp.closed = true := by
    rw [TransportTCP.close, if_neg (by simp [hopen]), if_neg hsock]
    exact ⟨_, rfl, rfl⟩
  have hremove : ({ s with
      transports := s.transports.set i { t with tcp := tcp }
      history := s.history ++ [.closed i] } : MultiServiceClient Request Response).removeConnection i
      = .ok { transports := s.transports.set i { t with tcp := tcp }
              heap := s.heap.set i none
              outgoingCalls := s.outgoingCalls.erase i
              history := s.history ++ [.closed i, .deleted i] } := by
    rw [removeConnection, findCall_of_mem hlists hmem]
    show Except.ok _ = Except.ok _
    simp
  refine ⟨tcp, hclosed, ?_⟩
  simp only [MultiServiceClient.close, ht, hopen, hcb, hclose]
  exact hremove

/-! ### What an event does -/

/-- What is not about a call leaves it as it stands. -/
theorem Stands.frame {t : ClientTransport} {came : List (Option Frame)}
    {s' : MultiServiceClient Request Response} (h : Stands c i t came s)
    (hrecord : record i s'.history = record i s.history)
    (hlisted : i ∈ s'.outgoingCalls ↔ i ∈ s.outgoingCalls) (hheap : s'.heap[i]? = s.heap[i]?) :
    Stands c i t came s' where
  fate := hrecord ▸ h.fate
  closed_iff := h.closed_iff
  listed_iff := hlisted.trans h.listed_iff
  waits hopen := { h.waits hopen with object := hheap.trans (h.waits hopen).object }

/-- Nothing came yet to a transport that is open. -/
theorem Stands.pending {t : ClientTransport} {came : List (Option Frame)}
    (h : Stands c i t came s) (hopen : t.tcp.closed = false) :
    came = [] ∧ record i s.history = [] := by
  have hnone : came = [] := by
    by_contra hcame
    rw [h.closed_iff.mpr hcame] at hopen
    cases hopen
  have hfate := h.fate
  rw [hnone] at hfate
  cases hrecord : record i s.history with
  | nil => exact ⟨hnone, rfl⟩
  | cons x rest =>
      rw [hrecord] at hfate
      cases hfate

theorem traffic_concat_of_lt (hlt : i < (calls events).length) :
    traffic i (events ++ [e]) = traffic i events ++ brings i e := by
  rw [traffic_concat, if_pos hlt]

/-- An event that finds its transport closed, or finds none, does nothing. -/
theorem Sound.stay (h : Sound events s) (he : calls [e] = [])
    (hother : ∀ j, j ≠ i → brings j e = [])
    (hclosed : ∀ t, s.transports[i]? = some t → t.tcp.closed = true) : Sound (events ++ [e]) s := by
  have hcalls : calls (events ++ [e]) = calls events := by rw [calls_concat, he, List.append_nil]
  apply Sound.mk
  case nodup => exact h.nodup
  case stands =>
    intro j c hc
    rw [hcalls] at hc
    obtain ⟨t, ht, hstands⟩ := h.stands j c hc
    rw [traffic_concat_of_lt (List.getElem?_eq_some_iff.mp hc).1]
    refine ⟨t, ht, ?_⟩
    by_cases hj : j = i
    · subst hj
      have hcame := hstands.closed_iff.mp (hclosed t ht)
      exact { hstands with
        fate := hstands.fate.later hcame _
        closed_iff := by simp [hclosed t ht, hcame] }
    · rwa [hother j hj, List.append_nil]
  all_goals rw [hcalls]
  · exact h.length_transports
  · exact h.length_heap
  · exact h.place_lt
  · exact h.listed_lt

/-- The first thing that comes to a transport closes it and deletes its call. -/
theorem Sound.retire (h : Sound events s) {t : ClientTransport} (ht : s.transports[i]? = some t)
    (hopen : t.tcp.closed = false) {t' : ClientTransport} (hclosed : t'.tcp.closed = true)
    {first : Option Frame} {happened : List (Happening Request Response)} (he : calls [e] = [])
    (hself : brings i e = [first]) (hother : ∀ j, j ≠ i → brings j e = [])
    (hplace : ∀ x ∈ happened, place x = i)
    (hfate : ∀ c, (calls events)[i]? = some c → Fate c i [first] happened) :
    Sound (events ++ [e])
      { transports := s.transports.set i t'
        heap := s.heap.set i none
        outgoingCalls := s.outgoingCalls.erase i
        history := s.history ++ happened } := by
  have hcalls : calls (events ++ [e]) = calls events := by rw [calls_concat, he, List.append_nil]
  have hi : i < (calls events).length :=
    h.length_transports ▸ (List.getElem?_eq_some_iff.mp ht).1
  apply Sound.mk
  case nodup => exact h.nodup.erase i
  case stands =>
    intro j c hc
    rw [hcalls] at hc
    obtain ⟨u, hu, hstands⟩ := h.stands j c hc
    rw [traffic_concat_of_lt (List.getElem?_eq_some_iff.mp hc).1]
    by_cases hj : j = i
    · subst hj
      cases ht.symm.trans hu
      obtain ⟨hcame, hrecord⟩ := hstands.pending hopen
      refine ⟨t', by rw [List.getElem?_set_self (h.length_transports ▸ hi)], ?_⟩
      rw [hcame, hself, List.nil_append]
      exact
        { fate := by
            rw [record_append, hrecord, List.nil_append, record_of_place hplace]
            exact hfate c hc
          closed_iff := by simp [hclosed]
          listed_iff := by simp [h.nodup.mem_erase_iff, hclosed]
          waits := fun hno => by rw [hclosed] at hno; cases hno }
    · rw [hother j hj, List.append_nil]
      refine ⟨u, by rwa [List.getElem?_set_ne (Ne.symm hj)], hstands.frame ?_ ?_ ?_⟩
      · rw [record_append, record_of_place_ne (i := j) (h := happened), List.append_nil]
        intro x hx
        rw [hplace x hx]
        exact Ne.symm hj
      · simp [h.nodup.mem_erase_iff, hj]
      · exact List.getElem?_set_ne (Ne.symm hj)
  all_goals rw [hcalls]
  · rw [List.length_set, h.length_transports]
  · rw [List.length_set, h.length_heap]
  · intro x hx
    rcases List.mem_append.mp hx with hx | hx
    · exact h.place_lt x hx
    · rw [hplace x hx]
      exact hi
  · intro j hj
    exact h.listed_lt j (List.mem_of_mem_erase hj)

/-- What `call` makes of a transport that was just connected. -/
theorem call_eq (s : MultiServiceClient Request Response) (c : ServiceCall Request Response) :
    ∃ tcp : TransportTCP, tcp.closed = false ∧ tcp.expectingRead = true ∧ tcp.readCb = true ∧
      tcp.disconnectCb = true ∧ tcp.sock ≠ -1 ∧ s.call c = .ok
        { transports := s.transports ++ [⟨tcp, s.heap.length⟩]
          heap := s.heap ++ [some ⟨c.request, c.read, s.transports.length⟩]
          outgoingCalls := s.outgoingCalls ++ [s.heap.length]
          history := s.history } := by
  refine ⟨_, ?_, ?_, ?_, ?_, ?_, rfl⟩
  · rfl
  · rfl
  · rfl
  · rfl
  · show (c.endpoint.sock : Int) ≠ -1
    omega

/-- How a call stands right after it was made. -/
theorem Sound.stands_called (h : Sound events s) (c : ServiceCall Request Response)
    {tcp : TransportTCP} (hopen : tcp.closed = false) (hreads : tcp.expectingRead = true)
    (hreadCb : tcp.readCb = true) (hcb : tcp.disconnectCb = true) (hsock : tcp.sock ≠ -1) :
    Stands c (calls events).length ⟨tcp, s.heap.length⟩ []
      { transports := s.transports ++ [⟨tcp, s.heap.length⟩]
        heap := s.heap ++ [some ⟨c.request, c.read, s.transports.length⟩]
        outgoingCalls := s.outgoingCalls ++ [s.heap.length]
        history := s.history } where
  fate := by
    rw [record_of_place_ne (h := s.history)]
    · exact .pending
    · intro x hx
      exact Nat.ne_of_lt (h.place_lt x hx)
  closed_iff := by simp [hopen]
  listed_iff := by simp [hopen, h.length_heap]
  waits _ :=
    { object := by
        rw [← h.length_heap, List.getElem?_concat_length, h.length_heap, h.length_transports]
      readmsgCb := h.length_heap
      expectingRead := hreads
      readCb := hreadCb
      disconnectCb := hcb
      sock := hsock }

/-- A call adds a transport and an object at the next place, and waits there. -/
theorem Sound.call (h : Sound events s) (c : ServiceCall Request Response) :
    ∃ s', s.call c = .ok s' ∧ Sound (events ++ [.call c]) s' := by
  have hcalls : calls (events ++ [.call c]) = calls events ++ [c] := calls_concat events (.call c)
  obtain ⟨tcp, hopen, hreads, hreadCb, hcb, hsock, hrun⟩ := call_eq s c
  refine ⟨_, hrun, ?_⟩
  have htraffic : ∀ j, traffic j (events ++ [.call c]) = traffic j events := by
    intro j
    rw [traffic_concat]
    show traffic j events ++ (if j < (calls events).length then [] else []) = _
    rw [ite_self, List.append_nil]
  have hnew : (calls events).length ∉ s.outgoingCalls := fun hmem =>
    Nat.lt_irrefl _ (h.listed_lt _ hmem)
  apply Sound.mk
  case nodup =>
    show (s.outgoingCalls ++ [s.heap.length]).Nodup
    rw [h.length_heap, ← List.concat_eq_append]
    exact h.nodup.concat hnew
  case stands =>
    intro j d hd
    rw [htraffic]
    by_cases hj : j < (calls events).length
    · rw [hcalls, List.getElem?_append_left hj] at hd
      obtain ⟨t, ht, hstands⟩ := h.stands j d hd
      refine ⟨t, ?_, hstands.frame rfl ?_ ?_⟩
      · rwa [List.getElem?_append_left (h.length_transports ▸ hj)]
      · simp [h.length_heap, Nat.ne_of_lt hj]
      · exact List.getElem?_append_left (h.length_heap ▸ hj)
    · have hend : j = (calls events).length := by
        have hlt := (List.getElem?_eq_some_iff.mp hd).1
        rw [hcalls, List.length_append, List.length_singleton] at hlt
        omega
      subst hend
      rw [hcalls, List.getElem?_concat_length] at hd
      cases hd
      rw [traffic_of_le (Nat.le_refl _)]
      refine ⟨⟨tcp, s.heap.length⟩, ?_, h.stands_called c hopen hreads hreadCb hcb hsock⟩
      rw [← h.length_transports, List.getElem?_concat_length]
  all_goals rw [hcalls, List.length_append]
  · rw [List.length_append, h.length_transports]
    rfl
  · rw [List.length_append, h.length_heap]
    rfl
  · intro x hx
    have := h.place_lt x hx
    omega
  · intro j hj
    rcases List.mem_append.mp hj with hj | hj
    · have := h.listed_lt j hj
      omega
    · rw [List.mem_singleton.mp hj, h.length_heap, List.length_singleton]
      omega

/-- The call that waits on an open transport. -/
theorem Sound.exists_waits (h : Sound events s) {t : ClientTransport}
    (ht : s.transports[i]? = some t) (hopen : t.tcp.closed = false) :
    ∃ c, (calls events)[i]? = some c ∧ Waits c i t s ∧ i ∈ s.outgoingCalls := by
  have hi : i < (calls events).length :=
    h.length_transports ▸ (List.getElem?_eq_some_iff.mp ht).1
  have hc := List.getElem?_eq_getElem hi
  obtain ⟨u, hu, hstands⟩ := h.stands i _ hc
  cases ht.symm.trans hu
  exact ⟨_, hc, hstands.waits hopen, hstands.listed_iff.mpr hopen⟩

theorem brings_disconnect_of_ne (j : Nat) (hj : j ≠ i) :
    brings j (.disconnect i : ClientEvent Request Response) = [] :=
  if_neg (Ne.symm hj)

theorem brings_message_of_ne (frame : Frame) (j : Nat) (hj : j ≠ i) :
    brings j (.message i frame : ClientEvent Request Response) = [] :=
  if_neg (Ne.symm hj)

theorem Sound.disconnect (h : Sound events s) (i : Nat) :
    ∃ s', s.close i = .ok s' ∧ Sound (events ++ [.disconnect i]) s' := by
  cases ht : s.transports[i]? with
  | none =>
      refine ⟨s, by simp only [MultiServiceClient.close, ht],
        h.stay rfl brings_disconnect_of_ne ?_⟩
      intro t hsome
      rw [ht] at hsome
      cases hsome
  | some t =>
      cases hclosed : t.tcp.closed with
      | true =>
          refine ⟨s, by simp only [MultiServiceClient.close, ht, hclosed, if_true],
            h.stay rfl brings_disconnect_of_ne ?_⟩
          intro u hu
          cases ht.symm.trans hu
          exact hclosed
      | false =>
          obtain ⟨c, hc, hwaits, hmem⟩ := h.exists_waits ht hclosed
          obtain ⟨tcp, htcp, hrun⟩ :=
            close_of_open ht hclosed hwaits.sock hwaits.disconnectCb h.lists hmem
          have hself : brings i (.disconnect i : ClientEvent Request Response) = [none] :=
            if_pos rfl
          refine ⟨_, hrun, h.retire ht hclosed htcp rfl hself brings_disconnect_of_ne ?_ ?_⟩
          · simp [place]
          · intro d _
            exact .disconnected []

/-- A message that is there when its transport closes, or has no transport, is not read. -/
theorem onMessage_of_closed {t : ClientTransport} (ht : s.transports[i]? = some t)
    (hclosed : t.tcp.closed = true) (frames : List Frame) : s.onMessage i frames = .ok s := by
  simp only [onMessage, ht]
  rw [if_pos (Or.inl hclosed)]

/-- A message that is read as a response goes to its callback, and its transport closes. -/
theorem onMessage_of_open {t : ClientTransport} (ht : s.transports[i]? = some t)
    (hopen : t.tcp.closed = false) (hwaits : Waits c i t s)
    (hlists : Lists s.heap s.outgoingCalls) (hmem : i ∈ s.outgoingCalls) {frame : Frame}
    {response : Response} (hread : c.read frame.payload = .ok response) :
    ∃ tcp : TransportTCP, tcp.closed = true ∧ s.onMessage i [frame] = .ok
      { transports := s.transports.set i { t with tcp := tcp }
        heap := s.heap.set i none
        outgoingCalls := s.outgoingCalls.erase i
        history := s.history ++ [.invoked i c.request response, .closed i, .deleted i] } := by
  have hi := (List.getElem?_eq_some_iff.mp ht).1
  have hobject : s.heap[t.readmsgCb]? = some (some ⟨c.request, c.read, i⟩) := by
    rw [hwaits.readmsgCb, hwaits.object]
  obtain ⟨tcp, htcp, hrun⟩ := close_of_open
    (s := { s with
      transports := s.transports.set i
        { t with tcp := { t.tcp with delivered := t.tcp.delivered ++ [[frame]] } }
      history := s.history ++ [.invoked t.readmsgCb c.request response] })
    (List.getElem?_set_self hi) hopen hwaits.sock hwaits.disconnectCb hlists hmem
  refine ⟨tcp, htcp, ?_⟩
  simp only [onMessage, ht]
  rw [if_neg (by simp [hopen, hwaits.expectingRead, hwaits.readCb])]
  simp only [onResponse, hobject, hread]
  apply Eq.trans hrun
  rw [List.set_set, List.append_assoc, hwaits.readmsgCb]
  rfl

/-- A message is read on an open transport, or fails to be read as a response. -/
theorem Sound.message (h : Sound events s) (i : Nat) (frame : Frame) :
    Ends (Sound (events ++ [.message i frame]))
      (fun f => ∃ c ∈ calls events, ∃ bytes, c.read bytes = .error f) (s.onMessage i [frame]) := by
  cases ht : s.transports[i]? with
  | none =>
      apply Ends.of_ok
      refine ⟨s, by simp only [onMessage, ht], h.stay rfl (brings_message_of_ne frame) ?_⟩
      intro t hsome
      rw [ht] at hsome
      cases hsome
  | some t =>
      cases hclosed : t.tcp.closed with
      | true =>
          apply Ends.of_ok
          refine ⟨s, onMessage_of_closed ht hclosed [frame],
            h.stay rfl (brings_message_of_ne frame) ?_⟩
          intro u hu
          cases ht.symm.trans hu
          exact hclosed
      | false =>
          obtain ⟨c, hc, hwaits, hmem⟩ := h.exists_waits ht hclosed
          cases hread : c.read frame.payload with
          | error f =>
              simp only [onMessage, ht]
              rw [if_neg (by simp [hclosed, hwaits.expectingRead, hwaits.readCb]),
                hwaits.readmsgCb]
              simp only [onResponse, hwaits.object, hread]
              exact ⟨c, List.mem_of_getElem? hc, frame.payload, hread⟩
          | ok response =>
              obtain ⟨tcp, htcp, hrun⟩ :=
                onMessage_of_open ht hclosed hwaits h.lists hmem hread
              apply Ends.of_ok
              have hself : brings i (.message i frame : ClientEvent Request Response)
                  = [some frame] := if_pos rfl
              refine ⟨_, hrun, h.retire ht hclosed htcp rfl hself (brings_message_of_ne frame) ?_ ?_⟩
              · simp [place]
              · intro d hd
                cases hc.symm.trans hd
                exact .answered frame response [] hread

theorem Sound.onEvent (h : Sound events s) (e : ClientEvent Request Response) :
    Ends (Sound (events ++ [e]))
      (fun f => ∃ c ∈ calls events, ∃ bytes, c.read bytes = .error f) (s.onEvent e) := by
  cases e with
  | call c => exact Ends.of_ok (h.call c)
  | message i frame => exact h.message i frame
  | disconnect i => exact Ends.of_ok (h.disconnect i)

end

/-- **Whatever the order of the calls, of the messages that arrive and of the connections that are
lost, every call is answered at most once**: with the first thing that came to its own transport, if
that was a message, and before the transport closed and the call was deleted. Only a response that the
generated code does not accept ends the process. -/
theorem run_settles (events : List (ClientEvent Request Response)) :
    Ends (Settled events) (fun f => ∃ c ∈ calls events, ∃ bytes, c.read bytes = .error f)
      (run onEvent empty events) := by
  have hends : Ends (Sound events)
      (fun f => ∃ c ∈ calls events, ∃ bytes, c.read bytes = .error f) (run onEvent empty events) := by
    apply walk_ends (P := fun _ _ => True)
    · intro done e rest s hes h _
      apply (h.onEvent e).mono_fault
      intro f hf
      obtain ⟨c, hc, hread⟩ := hf
      have hcalls : calls events = calls done ++ calls (e :: rest) := by
        rw [hes]
        exact List.filterMap_append
      exact ⟨c, by rw [hcalls]; exact List.mem_append_left _ hc, hread⟩
    · exact sound_empty
    · exact along_of_forall (fun _ _ _ => trivial) _
  exact hends.mono fun s h => h.settled

end MultiServiceClient

end Ros2Proto
