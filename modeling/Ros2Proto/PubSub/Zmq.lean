import Ros2Proto.Base.Assignment
import Ros2Proto.PubSub.MessageQueue
import Ros2Proto.Topics.Manager
import Ros2Proto.Transport.Wire

/-!
# Publishing over 0MQ

`PublishZMQ` and any number of `SubscribeZMQ`, of `pubsub_zmq.hpp`: each has a thread of its own, any
number of threads publish, and the steps come in any order. The library is not modelled. Its answers, and
the messages that arrive at the sockets of subscribers, come with the events, and `ZmqPromises` is what its
documentation says of them. `recv` has a message with all of its parts, and each call may throw instead.

`SubscribeZMQ::run` filters nothing, as the prefix it subscribes to has length 0, and copies the topic
into an array of 100 bytes. A `Payload` is the bytes of a `Message`, or of one part of a 0MQ message.
-/

namespace Ros2Proto

open FallibleRun

/-- What ends the process: a `zmq::error_t` that nothing catches, or a fault. -/
inductive ZmqFault
  | zmqError
  | fault (f : Fault)
  deriving DecidableEq, Repr

/-! ### The subscriber -/

structure SubscribeZMQ where
  endpoint : StdString
  shutdown : Bool
  /-- the thread is in `run` -/
  running : Bool
  /-- the messages the socket has, each with its parts -/
  pipe : List (List Payload)
  /-- the arguments of `cb_` -/
  received : List Payload
  deriving DecidableEq, Repr

namespace SubscribeZMQ

/-- `start` of a new object. -/
def start (endpoint : StdString) : SubscribeZMQ := ⟨endpoint, false, true, [], []⟩

/-- One round of the loop with a message: `topic[100]` has to hold the topic and a zero byte. -/
def onMessage (sub : SubscribeZMQ) (parts : List Payload) : Except Fault SubscribeZMQ :=
  match parts with
  | [] => .ok sub
  | topic :: rest =>
    if 100 ≤ topic.length then .error .overrun
    else match rest with
      | [] => .ok sub
      | [data] => .ok { sub with received := sub.received ++ [data] }
      | _ :: _ :: _ => .ok { sub with running := false }

/-- One round of the loop in `run`, or the end of it. -/
def round (sub : SubscribeZMQ) : Except Fault SubscribeZMQ :=
  if ¬ sub.running then .ok sub
  else if sub.shutdown then .ok { sub with running := false }
  else match sub.pipe with
    | [] => .ok sub
    | parts :: rest => { sub with pipe := rest }.onMessage parts

end SubscribeZMQ

/-! ### The publisher -/

/-- What a call of the library by a publisher's thread answers. -/
structure ZmqAnswer where
  throws : Bool
  /-- `send` has taken the part, and did not answer `EAGAIN` -/
  taken : Bool
  /-- what `getsockopt` writes -/
  lastEndpoint : StdString
  deriving DecidableEq, Repr

/-- Nothing catches what a call throws. -/
def ZmqAnswer.check (answer : ZmqAnswer) : Except ZmqFault Unit :=
  if answer.throws then .error .zmqError else .ok ()

/-- What went between the threads and the library. -/
inductive ZmqCall
  | bind (endpoint : StdString)
  | lastEndpoint (endpoint : StdString)
  | send (part : Payload) (more : Bool)
  /-- `send` has answered `EAGAIN` -/
  | refused
  | connect (peer : Nat) (endpoint : StdString)
  /-- a subscriber's socket has a message, with all of its parts -/
  | arrive (peer : Nat) (parts : List Payload)
  deriving DecidableEq, Repr

/-- `send` of a part. -/
def ZmqAnswer.send (answer : ZmqAnswer) (part : Payload) (more : Bool) : ZmqCall :=
  if answer.taken then .send part more else .refused

/-- Where the thread of a `PublishZMQ` is in `run`. -/
inductive PublishPlace
  | bind
  | lastEndpoint
  | loop
  | sendTopic (msg : Payload)
  | sendData (msg : Payload)
  | returned
  deriving DecidableEq, Repr

/-- The endpoint is behind the thread. -/
def PublishPlace.late : PublishPlace → Bool
  | .bind | .lastEndpoint => false
  | _ => true

/-- The thread is about to call the library. -/
def PublishPlace.calls : PublishPlace → Bool
  | .bind | .lastEndpoint | .sendTopic _ | .sendData _ => true
  | .loop | .returned => false

structure PublishZMQ where
  endpoint : StdString
  /-- the argument that `start` has not yet assigned -/
  assigning : Option StdString
  thread : Option PublishPlace
  shutdown : Bool
  queue : QueueTraffic Payload
  deriving DecidableEq, Repr

/-- A subscription, and whether its thread has connected. -/
structure ZmqPeer where
  sub : SubscribeZMQ
  connected : Bool
  deriving DecidableEq, Repr

structure ZmqLink where
  pub : PublishZMQ
  peers : List ZmqPeer
  calls : List ZmqCall
  /-- the messages that the thread is done with -/
  sent : List Payload
  deriving DecidableEq, Repr

inductive ZmqEvent
  /-- `start` creates the thread -/
  | start (endpoint : StdString)
  /-- `start` assigns `endpoint_` -/
  | assign
  | publish (msg : Payload)
  /-- the next step of the publisher's thread -/
  | step (answer : ZmqAnswer)
  | shutdown
  | subscribe (endpoint : StdString)
  /-- `run` of a subscriber, up to its loop -/
  | connect (peer : Nat) (throws : Bool)
  | arrive (peer : Nat) (parts : List Payload)
  /-- a round of a subscriber's loop, in which a call may throw -/
  | receive (peer : Nat) (throws : Bool)
  | shutdownSub (peer : Nat)

namespace ZmqLink

def create (maxSize : Nat) : ZmqLink :=
  ⟨⟨[], none, none, false, QueueTraffic.create maxSize⟩, [], [], []⟩

/-- The publisher's `run`, up to the next thing that another thread sees. -/
def step (s : ZmqLink) (answer : ZmqAnswer) : Except ZmqFault ZmqLink :=
  match s.pub.thread with
  | none | some .returned => .ok s
  | some .bind => do
    answer.check
    .ok { s with
      pub := { s.pub with thread := some .lastEndpoint }
      calls := s.calls ++ [.bind s.pub.endpoint] }
  | some .lastEndpoint => do
    answer.check
    .ok { s with
      pub := { s.pub with endpoint := answer.lastEndpoint, thread := some .loop }
      calls := s.calls ++ [.lastEndpoint answer.lastEndpoint] }
  | some .loop =>
    if s.pub.shutdown then .ok { s with pub := { s.pub with thread := some .returned } }
    else match s.pub.queue.queue.queue with
      | [] => .ok s
      | msg :: _ => do
        let queue ← (s.pub.queue.onEvent (.pop 0)).mapError .fault
        .ok { s with pub := { s.pub with queue := queue, thread := some (.sendTopic msg) } }
  | some (.sendTopic msg) => do
    answer.check
    .ok { s with
      pub := { s.pub with thread := some (.sendData msg) }
      calls := s.calls ++ [answer.send (literal "pubsub_zmq") true] }
  | some (.sendData msg) => do
    answer.check
    .ok { s with
      pub := { s.pub with thread := some .loop }
      calls := s.calls ++ [answer.send msg false]
      sent := s.sent ++ [msg] }

def onEvent (s : ZmqLink) : ZmqEvent → Except ZmqFault ZmqLink
  | .start endpoint => if s.pub.thread.isSome then .ok s else
    .ok { s with pub := { s.pub with thread := some .bind, assigning := some endpoint } }
  | .assign => .ok { s with pub := { s.pub with
      endpoint := s.pub.assigning.getD s.pub.endpoint
      assigning := none } }
  | .publish msg => do
    let queue ← (s.pub.queue.onEvent (.push msg)).mapError .fault
    .ok { s with pub := { s.pub with queue := queue } }
  | .step answer => s.step answer
  | .shutdown => .ok { s with pub := { s.pub with shutdown := true } }
  | .subscribe endpoint => .ok { s with peers := s.peers ++ [⟨.start endpoint, false⟩] }
  | .connect i throws =>
    match s.peers[i]? with
    | none => .ok s
    | some peer =>
      if peer.connected then .ok s
      else if throws then .error .zmqError
      else .ok { s with
        peers := s.peers.set i { peer with connected := true }
        calls := s.calls ++ [.connect i peer.sub.endpoint] }
  | .arrive i parts =>
    match s.peers[i]? with
    | none => .ok s
    | some peer =>
      if peer.connected ∧ peer.sub.running then .ok { s with
        peers := s.peers.set i { peer with sub := { peer.sub with pipe := peer.sub.pipe ++ [parts] } }
        calls := s.calls ++ [.arrive i parts] }
      else .ok s
  | .receive i throws =>
    match s.peers[i]? with
    | none => .ok s
    | some peer =>
      if !peer.connected then .ok s
      else if peer.sub.running ∧ !peer.sub.shutdown ∧ throws then .error .zmqError
      else do
        let sub ← peer.sub.round.mapError .fault
        .ok { s with peers := s.peers.set i { peer with sub := sub } }
  | .shutdownSub i => .ok { s with
      peers := s.peers.modify i fun peer => { peer with sub := { peer.sub with shutdown := true } } }

end ZmqLink

/-! ### What the library promises -/

namespace ZmqCall

/-- What a call sends. -/
def part? : ZmqCall → Option (Payload × Bool)
  | .send part more => some (part, more)
  | _ => none

/-- The message that arrives at a subscriber. -/
def arrival? (i : Nat) : ZmqCall → Option (List Payload)
  | .arrive j parts => if j = i then some parts else none
  | _ => none

/-- The messages that parts make up: all parts but the last of a message come with `ZMQ_SNDMORE`. -/
def messages : List (Payload × Bool) → List (List Payload)
  | [] => []
  | (part, false) :: rest => [part] :: messages rest
  | (part, true) :: rest =>
    match messages rest with
    | [] => []
    | parts :: later => (part :: parts) :: later

/-- The messages that were sent. -/
def sent (calls : List ZmqCall) : List (List Payload) := messages (calls.filterMap part?)

def arrived (i : Nat) (calls : List ZmqCall) : List (List Payload) := calls.filterMap (arrival? i)

end ZmqCall

/-- What the documentation of 0MQ says of such calls. Nothing can be bound or connected to an empty endpoint.
`send` never blocks on a `PUB` socket. A socket that is connected to the endpoint that a `PUB` socket reports
has messages of that socket only, each of them whole and at most once, in the order in which they were
sent. -/
structure ZmqPromises (calls : List ZmqCall) : Prop where
  bound : .bind [] ∉ calls
  connected : ∀ i, .connect i [] ∉ calls
  taken : .refused ∉ calls
  arrived : ∀ endpoint i, .lastEndpoint endpoint ∈ calls → .connect i endpoint ∈ calls →
    (ZmqCall.arrived i calls).Sublist (ZmqCall.sent calls)

namespace SubscribeZMQ

/-! ### What a subscriber makes of any messages -/

/-- The payload of a message with two parts. -/
def payload : List Payload → Option Payload
  | [_, data] => some data
  | _ => none

/-- The topic fits, and a message with more than two parts ends the loop. -/
def Fits (parts : List Payload) : Prop := ∀ topic ∈ parts.head?, topic.length < 100

/-- The messages that the loop comes to: up to the first with more than two parts. -/
def reached : List (List Payload) → List (List Payload)
  | [] => []
  | parts :: rest => if parts.length ≤ 2 then parts :: reached rest else [parts]

variable {sub sub' : SubscribeZMQ} {parts : List Payload}

/-- What a round does with a message whose topic fits. -/
theorem onMessage_of_fits (h : Fits parts) (sub : SubscribeZMQ) : sub.onMessage parts = .ok { sub with
    received := sub.received ++ (payload parts).toList
    running := sub.running && decide (parts.length ≤ 2) } := by
  have hsame : ({ sub with
      received := sub.received ++ (none : Option Payload).toList
      running := sub.running && true } : SubscribeZMQ) = sub := by
    rw [Option.toList_none, List.append_nil, Bool.and_true]
  match parts, h with
  | [], _ => exact congrArg Except.ok hsame.symm
  | [topic], h =>
      rw [onMessage, if_neg (Nat.not_le.mpr (h topic rfl))]
      exact congrArg Except.ok hsame.symm
  | [topic, data], h =>
      rw [onMessage, if_neg (Nat.not_le.mpr (h topic rfl))]
      show Except.ok { sub with received := sub.received ++ [data] } =
        Except.ok { sub with received := sub.received ++ [data], running := sub.running && true }
      rw [Bool.and_true]
  | topic :: data :: more :: rest, h =>
      rw [onMessage, if_neg (Nat.not_le.mpr (h topic rfl))]
      have hlong : decide ((topic :: data :: more :: rest).length ≤ 2) = false :=
        decide_eq_false (by simp)
      rw [hlong, Bool.and_false]
      show Except.ok { sub with running := false } =
        Except.ok { sub with received := sub.received ++ [], running := false }
      rw [List.append_nil]

theorem onMessage_of_not_fits (h : ¬ Fits parts) (sub : SubscribeZMQ) :
    sub.onMessage parts = .error .overrun := by
  cases parts with
  | nil => exact absurd (fun _ hmem => by cases hmem) h
  | cons topic rest =>
      have hlong : 100 ≤ topic.length := by
        by_contra hshort
        apply h
        intro t ht
        obtain rfl := Option.some.inj ht
        exact Nat.not_le.mp hshort
      exact if_pos hlong

/-- What a round can do. -/
theorem round_cases (sub : SubscribeZMQ) :
    (sub.running = true → sub.shutdown = false → sub.pipe = []) ∧ sub.round = .ok sub ∨
    sub.shutdown = true ∧ sub.round = .ok { sub with running := false } ∨
    ∃ parts rest, sub.running = true ∧ sub.shutdown = false ∧ sub.pipe = parts :: rest ∧
      sub.round = { sub with pipe := rest }.onMessage parts := by
  rw [round]
  by_cases hrunning : sub.running = true
  · rw [if_neg (not_not.mpr hrunning)]
    by_cases hshutdown : sub.shutdown = true
    · exact Or.inr (Or.inl ⟨hshutdown, if_pos hshutdown⟩)
    · rw [if_neg hshutdown]
      cases hpipe : sub.pipe with
      | nil => exact Or.inl ⟨fun _ _ => rfl, rfl⟩
      | cons parts rest =>
          exact Or.inr (Or.inr ⟨parts, rest, hrunning, Bool.eq_false_iff.mpr hshutdown, rfl, rfl⟩)
  · exact Or.inl ⟨fun h => absurd h hrunning, if_pos hrunning⟩

end SubscribeZMQ

namespace QueueTraffic

/-! ### The queue of a publisher -/

variable {M : Type*} {q q' : QueueTraffic M}

/-- `pop` by a thread that does not wait, of a queue that is not empty. -/
theorem onEvent_pop (hwaiting : q.waiting = []) {msg : M} {rest : List M}
    (hqueue : q.queue.queue = msg :: rest) (thread : Nat) : q.onEvent (.pop thread) = .ok { q with
      queue := { q.queue with queue := rest }
      returned := q.returned ++ [some msg] } := by
  have hawake : thread ∉ q.waiting := hwaiting ▸ List.not_mem_nil
  rw [onEvent, if_neg hawake, tryPop, hqueue, if_neg (by simp), MessageQueue.takeFront, hqueue]
  rfl

/-- `push` wakes nobody up and returns nothing to anybody. -/
theorem waiting_of_push {msg : M} (hrun : q.onEvent (.push msg) = .ok q') :
    q'.waiting = q.waiting ∧ q'.popped = q.popped := by
  obtain ⟨⟨deleted, queue⟩, -, hrest⟩ := bind_eq_ok_iff.mp hrun
  obtain rfl := Except.ok.inj hrest
  exact ⟨rfl, rfl⟩

/-- Where nothing was dropped, what was pushed was popped or is in the queue. -/
theorem Represents.pushed_of_kept {maxSize : Nat} {line : Line M Departure} (h : Represents maxSize line q)
    (hkept : q.dropped = []) : q.pushed = q.popped ++ q.queue.queue := by
  have hpopped : ∀ e ∈ line.gone, e.2 = .popped := by
    intro e he
    cases hway : e.2 with
    | popped => rfl
    | dropped =>
        have hmem : e.1 ∈ line.leftBy .dropped :=
          List.mem_map_of_mem (List.mem_filter.mpr ⟨he, decide_eq_true hway⟩)
        rw [← h.dropped, hkept] at hmem
        exact absurd hmem List.not_mem_nil
  rw [h.pushed, h.popped, h.queue, Line.entered_of_leftBy hpopped]

end QueueTraffic

/-! ### From the publisher to the subscribers -/

namespace ZmqCall

/-- The parts of a message of `PublishZMQ`. -/
def parts (msg : Payload) : List (Payload × Bool) := [(literal "pubsub_zmq", true), (msg, false)]

/-- The message that they make up. -/
def message (msg : Payload) : List Payload := [literal "pubsub_zmq", msg]

theorem fits_message (msg : Payload) : SubscribeZMQ.Fits (message msg) := by
  intro topic htopic
  obtain rfl := Option.some.inj htopic
  decide

/-- A topic whose data is yet to be sent makes up no message. -/
theorem messages_flatMap_parts {begun : List (Payload × Bool)} (hbegun : messages begun = [])
    (msgs : List Payload) : messages (msgs.flatMap parts ++ begun) = msgs.map message := by
  induction msgs with
  | nil => exact hbegun
  | cons msg msgs ih =>
      have hcons : (msg :: msgs).flatMap parts ++ begun =
          (literal "pubsub_zmq", true) :: (msg, false) :: (msgs.flatMap parts ++ begun) := by
        rw [List.flatMap_cons, List.append_assoc]
        rfl
      rw [hcons, messages, messages, ih, List.map_cons, message]

@[simp] theorem arrived_append (i : Nat) (calls more : List ZmqCall) :
    arrived i (calls ++ more) = arrived i calls ++ arrived i more :=
  List.filterMap_append

theorem arrived_send (i : Nat) (answer : ZmqAnswer) (part : Payload) (more : Bool) :
    arrived i [answer.send part more] = [] := by
  rw [ZmqAnswer.send]
  split_ifs <;> rfl

theorem arrived_of_ne {i j : Nat} (h : j ≠ i) (parts : List Payload) :
    arrived j [.arrive i parts] = [] := by
  rw [arrived, List.filterMap_cons, arrival?, if_neg (Ne.symm h)]
  rfl

theorem arrived_self (i : Nat) (parts : List Payload) : arrived i [.arrive i parts] = [parts] := by
  rw [arrived, List.filterMap_cons, arrival?, if_pos rfl]
  rfl

end ZmqCall

namespace PublishZMQ

/-- The message that the thread has taken from the queue, and is not done with. -/
def held (pub : PublishZMQ) : List Payload :=
  match pub.thread with
  | some (.sendTopic msg) | some (.sendData msg) => [msg]
  | _ => []

/-- The part of it that has been sent. -/
def begun (pub : PublishZMQ) : List (Payload × Bool) :=
  match pub.thread with
  | some (.sendData _) => [(literal "pubsub_zmq", true)]
  | _ => []

/-- The thread has stored the endpoint that the library reported. -/
def Stored (pub : PublishZMQ) : Prop := ∃ place, pub.thread = some place ∧ place.late = true

/-- What `endpoint_` is, where nothing was bound to an empty endpoint. -/
structure Named (calls : List ZmqCall) (pub : PublishZMQ) : Prop where
  fresh : pub.thread = none → pub.endpoint = [] ∧ pub.assigning = none
  waits : pub.assigning ≠ none → pub.thread = some .bind ∧ pub.endpoint = []
  stored : pub.Stored → .lastEndpoint pub.endpoint ∈ calls

theorem messages_begun (pub : PublishZMQ) : ZmqCall.messages pub.begun = [] := by
  rw [begun]
  split <;> rfl

theorem Named.assigned {calls : List ZmqCall} {pub : PublishZMQ} (h : pub.Named calls)
    (hthread : pub.thread ≠ some .bind) : pub.assigning = none := by
  by_contra hwaits
  exact hthread (h.waits hwaits).1

/-- A thread that is behind the endpoint stays there. -/
theorem Named.go {calls : List ZmqCall} {pub pub' : PublishZMQ} (h : pub.Named calls)
    (hstored : pub.Stored) (hstored' : pub'.Stored) (hendpoint : pub'.endpoint = pub.endpoint)
    (hassigning : pub'.assigning = pub.assigning) : pub'.Named calls := by
  obtain ⟨place, hthread, hlate⟩ := hstored
  obtain ⟨place', hthread', -⟩ := hstored'
  have hassigned : pub.assigning = none := by
    apply h.assigned
    rw [hthread]
    rintro ⟨⟩
    cases hlate
  apply Named.mk
  case fresh =>
    intro hnone
    rw [hthread'] at hnone
    cases hnone
  case waits => exact fun hwaits => absurd (hassigning.trans hassigned) hwaits
  case stored =>
    intro _
    rw [hendpoint]
    exact h.stored ⟨place, hthread, hlate⟩

theorem Named.append {calls : List ZmqCall} {pub : PublishZMQ} (h : pub.Named calls)
    (more : List ZmqCall) : pub.Named (calls ++ more) :=
  ⟨h.fresh, h.waits, fun hstored => List.mem_append_left _ (h.stored hstored)⟩

end PublishZMQ

/-- Every message that arrived was read or is in the socket, and those with two parts that were read were
passed on. The loop ends on `shutdown`, or after a message with more parts. -/
def ZmqPeer.Reads (arrived : List (List Payload)) (peer : ZmqPeer) : Prop :=
  ∃ read, arrived = read ++ peer.sub.pipe ∧ peer.sub.received = read.filterMap SubscribeZMQ.payload ∧
    (peer.sub.running = false → peer.sub.shutdown = true ∨ ∃ parts ∈ read, 2 < parts.length)

/-- What a subscriber of this publisher has had and has. -/
structure ZmqPeer.Follows (sent : List Payload) (peer : ZmqPeer) : Prop where
  ordered : (peer.sub.received ++ peer.sub.pipe.filterMap SubscribeZMQ.payload).Sublist sent
  fits : ∀ parts ∈ peer.sub.pipe, SubscribeZMQ.Fits parts
  ended : peer.sub.running = false → peer.sub.shutdown = true

namespace ZmqLink

/-- What every step keeps. -/
structure Inv (maxSize : Nat) (s : ZmqLink) : Prop where
  line : ∃ line, QueueTraffic.Represents maxSize line s.pub.queue
  awake : s.pub.queue.waiting = []
  popped : s.pub.queue.popped = s.sent ++ s.pub.held
  parts : .refused ∉ s.calls →
    s.calls.filterMap ZmqCall.part? = s.sent.flatMap ZmqCall.parts ++ s.pub.begun
  named : .bind [] ∉ s.calls → s.pub.Named s.calls
  reads : ∀ (i : Nat) (peer : ZmqPeer), s.peers[i]? = some peer →
    peer.Reads (ZmqCall.arrived i s.calls)
  connected : ∀ (i : Nat) (peer : ZmqPeer), s.peers[i]? = some peer → peer.connected = true →
    .connect i peer.sub.endpoint ∈ s.calls
  unconnected : ∀ i : Nat, (∀ peer : ZmqPeer, s.peers[i]? = some peer → peer.connected = false) →
    ZmqCall.arrived i s.calls = []

variable {maxSize : Nat} {s s' : ZmqLink} {peer peer' : ZmqPeer} {i : Nat}

theorem inv_create (maxSize : Nat) : (create maxSize).Inv maxSize where
  line := ⟨.empty, QueueTraffic.represents_create⟩
  awake := rfl
  popped := rfl
  parts _ := rfl
  named _ := by
    refine ⟨fun _ => ⟨rfl, rfl⟩, fun h => absurd rfl h, ?_⟩
    intro ⟨place, hplace, _⟩
    cases hplace
  reads i peer h := by simp [create] at h
  connected i peer h := by simp [create] at h
  unconnected _ _ := rfl

/-! ### Subscribers -/

theorem reads_start (endpoint : StdString) : ZmqPeer.Reads [] ⟨.start endpoint, false⟩ :=
  ⟨[], rfl, rfl, fun h => absurd h.symm Bool.false_ne_true⟩

/-- A round of a subscriber's loop. -/
theorem reads_round {arrived : List (List Payload)} {sub : SubscribeZMQ} (h : peer.Reads arrived)
    (hrun : peer.sub.round = .ok sub) :
    sub.endpoint = peer.sub.endpoint ∧ ZmqPeer.Reads arrived { peer with sub := sub } := by
  obtain ⟨read, harrived, hreceived, hended⟩ := h
  rcases peer.sub.round_cases with ⟨-, hround⟩ | ⟨hshutdown, hround⟩ |
    ⟨parts, rest, hrunning, -, hpipe, hround⟩
  · obtain rfl := Except.ok.inj (hround.symm.trans hrun)
    exact ⟨rfl, read, harrived, hreceived, hended⟩
  · obtain rfl := Except.ok.inj (hround.symm.trans hrun)
    exact ⟨rfl, read, harrived, hreceived, fun _ => Or.inl hshutdown⟩
  · rw [hround] at hrun
    rw [hpipe] at harrived
    by_cases hfits : SubscribeZMQ.Fits parts
    · rw [SubscribeZMQ.onMessage_of_fits hfits] at hrun
      obtain rfl := Except.ok.inj hrun
      refine ⟨rfl, read ++ [parts], ?_, ?_, ?_⟩
      · rw [harrived, List.append_assoc]
        rfl
      · show peer.sub.received ++ _ = _
        rw [hreceived, List.filterMap_append, List.filterMap_cons, List.filterMap_nil]
        cases SubscribeZMQ.payload parts <;> rfl
      · intro hstops
        have hlong : decide (parts.length ≤ 2) = false := by
          simpa [hrunning] using hstops
        have hmem : parts ∈ read ++ [parts] := List.mem_append_right _ (List.mem_singleton_self _)
        exact Or.inr ⟨parts, hmem, Nat.not_le.mp (of_decide_eq_false hlong)⟩
    · rw [SubscribeZMQ.onMessage_of_not_fits hfits] at hrun
      cases hrun

/-- One subscriber changes, and the calls that come with it are about it alone. -/
theorem Inv.setPeer (h : s.Inv maxSize) (hi : s.peers[i]? = some peer) (more : List ZmqCall)
    (hparts : more.filterMap ZmqCall.part? = []) (hothers : ∀ j, j ≠ i → ZmqCall.arrived j more = [])
    (hreads : peer'.Reads (ZmqCall.arrived i (s.calls ++ more)))
    (hconnected : peer'.connected = true → .connect i peer'.sub.endpoint ∈ s.calls ++ more)
    (hunconnected : peer'.connected = false → ZmqCall.arrived i (s.calls ++ more) = []) :
    Inv maxSize { s with peers := s.peers.set i peer', calls := s.calls ++ more } where
  line := h.line
  awake := h.awake
  popped := h.popped
  parts hnot := by
    have hold := h.parts fun hmem => hnot (List.mem_append_left _ hmem)
    show (s.calls ++ more).filterMap ZmqCall.part? = _
    rw [List.filterMap_append, hparts, List.append_nil]
    exact hold
  named hnot := (h.named fun hmem => hnot (List.mem_append_left _ hmem)).append more
  reads j other hj := by
    rcases Assignment.getElem?_set_cases hj with ⟨rfl, rfl⟩ | ⟨hji, hj⟩
    · exact hreads
    · show other.Reads (ZmqCall.arrived j (s.calls ++ more))
      rw [ZmqCall.arrived_append, hothers j hji, List.append_nil]
      exact h.reads j other hj
  connected j other hj hother := by
    rcases Assignment.getElem?_set_cases hj with ⟨rfl, rfl⟩ | ⟨hji, hj⟩
    · exact hconnected hother
    · exact List.mem_append_left _ (h.connected j other hj hother)
  unconnected j hnone := by
    by_cases hji : j = i
    · subst hji
      exact hunconnected (hnone peer' (Assignment.getElem?_set_place hi peer'))
    · show ZmqCall.arrived j (s.calls ++ more) = []
      rw [ZmqCall.arrived_append, hothers j hji, List.append_nil]
      refine h.unconnected j fun other hj => hnone other ?_
      exact (List.getElem?_set_ne (Ne.symm hji)).trans hj

/-- A new subscription. -/
theorem Inv.subscribe (h : s.Inv maxSize) (endpoint : StdString) :
    Inv maxSize { s with peers := s.peers ++ [⟨.start endpoint, false⟩] } := by
  have hcases : ∀ (i : Nat) (peer : ZmqPeer), (s.peers ++ [⟨.start endpoint, false⟩])[i]? = some peer →
      s.peers[i]? = some peer ∨ i = s.peers.length ∧ peer = ⟨.start endpoint, false⟩ := by
    intro i peer hi
    rcases Nat.lt_or_ge i s.peers.length with hlt | hge
    · rw [List.getElem?_append_left hlt] at hi
      exact Or.inl hi
    · rw [List.getElem?_append_right hge, List.getElem?_singleton] at hi
      split_ifs at hi with hzero
      exact Or.inr ⟨by omega, (Option.some.inj hi).symm⟩
  have hnew : ZmqCall.arrived s.peers.length s.calls = [] := by
    apply h.unconnected
    intro peer hpeer
    rw [List.getElem?_eq_none (Nat.le_refl _)] at hpeer
    cases hpeer
  refine ⟨h.line, h.awake, h.popped, h.parts, h.named, ?_, ?_, ?_⟩
  · intro i peer hi
    rcases hcases i peer hi with hold | ⟨rfl, rfl⟩
    · exact h.reads i peer hold
    · show ZmqPeer.Reads (ZmqCall.arrived s.peers.length s.calls) _
      rw [hnew]
      exact reads_start endpoint
  · intro i peer hi hconnected
    rcases hcases i peer hi with hold | ⟨-, rfl⟩
    · exact h.connected i peer hold hconnected
    · exact absurd hconnected Bool.false_ne_true
  · intro i hnone
    apply h.unconnected
    intro peer hpeer
    apply hnone
    exact (List.getElem?_append_left (List.getElem?_eq_some_iff.mp hpeer).1).trans hpeer

/-! ### The publisher -/

/-- The publisher changes, with calls of its own. -/
theorem Inv.setPub (h : s.Inv maxSize) {pub : PublishZMQ} {sent : List Payload} (more : List ZmqCall)
    (hline : ∃ line, QueueTraffic.Represents maxSize line pub.queue) (hawake : pub.queue.waiting = [])
    (hpopped : pub.queue.popped = sent ++ pub.held)
    (hparts : .refused ∉ more → s.sent.flatMap ZmqCall.parts ++ s.pub.begun ++
      more.filterMap ZmqCall.part? = sent.flatMap ZmqCall.parts ++ pub.begun)
    (hnamed : .bind [] ∉ more → s.pub.Named s.calls → pub.Named (s.calls ++ more))
    (harrived : ∀ i, ZmqCall.arrived i more = []) :
    Inv maxSize { s with pub := pub, calls := s.calls ++ more, sent := sent } where
  line := hline
  awake := hawake
  popped := hpopped
  parts hnot := by
    have hold := h.parts fun hmem => hnot (List.mem_append_left _ hmem)
    show (s.calls ++ more).filterMap ZmqCall.part? = _
    rw [List.filterMap_append, hold]
    exact hparts fun hmem => hnot (List.mem_append_right _ hmem)
  named hnot := by
    have hold := h.named fun hmem => hnot (List.mem_append_left _ hmem)
    exact hnamed (fun hmem => hnot (List.mem_append_right _ hmem)) hold
  reads i peer hi := by
    show peer.Reads (ZmqCall.arrived i (s.calls ++ more))
    rw [ZmqCall.arrived_append, harrived, List.append_nil]
    exact h.reads i peer hi
  connected i peer hi hconnected := List.mem_append_left _ (h.connected i peer hi hconnected)
  unconnected i hnone := by
    show ZmqCall.arrived i (s.calls ++ more) = []
    rw [ZmqCall.arrived_append, harrived, List.append_nil]
    exact h.unconnected i hnone

/-- It changes without a call, and has sent as much as before. -/
theorem Inv.quiet (h : s.Inv maxSize) {pub : PublishZMQ}
    (hline : ∃ line, QueueTraffic.Represents maxSize line pub.queue) (hawake : pub.queue.waiting = [])
    (hpopped : pub.queue.popped = s.sent ++ pub.held) (hbegun : pub.begun = s.pub.begun)
    (hnamed : s.pub.Named s.calls → pub.Named s.calls) : Inv maxSize { s with pub := pub } := by
  have hset := h.setPub [] hline hawake hpopped
    (fun _ => by rw [List.filterMap_nil, List.append_nil, hbegun])
    (fun _ hold => by rw [List.append_nil]; exact hnamed hold) (fun _ => rfl)
  rwa [List.append_nil] at hset

theorem Inv.start (h : s.Inv maxSize) (hthread : s.pub.thread = none) (endpoint : StdString) :
    Inv maxSize { s with pub := { s.pub with thread := some .bind, assigning := some endpoint } } := by
  refine h.quiet h.line h.awake ?_ ?_ ?_
  · have hpopped := h.popped
    rw [PublishZMQ.held, hthread] at hpopped
    exact hpopped
  · rw [PublishZMQ.begun, PublishZMQ.begun, hthread]
  · intro hold
    apply PublishZMQ.Named.mk
    case fresh =>
      intro hnone
      cases hnone
    case waits => exact fun _ => ⟨rfl, (hold.fresh hthread).1⟩
    case stored =>
      intro ⟨place, hplace, hlate⟩
      obtain rfl := Option.some.inj hplace
      cases hlate

theorem Inv.assign (h : s.Inv maxSize) : Inv maxSize { s with pub := { s.pub with
    endpoint := s.pub.assigning.getD s.pub.endpoint
    assigning := none } } := by
  refine h.quiet h.line h.awake h.popped rfl ?_
  intro hold
  have hsame : s.pub.assigning = none → s.pub.assigning.getD s.pub.endpoint = s.pub.endpoint := by
    intro hnone
    rw [hnone]
    rfl
  refine ⟨fun hnone => ?_, fun hwaits => absurd rfl hwaits, fun hstored => ?_⟩
  · obtain ⟨hendpoint, hassigning⟩ := hold.fresh hnone
    exact ⟨(hsame hassigning).trans hendpoint, rfl⟩
  · have hassigned : s.pub.assigning = none := by
      apply hold.assigned
      obtain ⟨place, hplace, hlate⟩ := hstored
      rw [show s.pub.thread = some place from hplace]
      rintro ⟨⟩
      cases hlate
    show .lastEndpoint (s.pub.assigning.getD s.pub.endpoint) ∈ s.calls
    rw [hsame hassigned]
    exact hold.stored hstored

theorem Inv.publish (h : s.Inv maxSize) {msg : Payload} {queue : QueueTraffic Payload}
    (hpush : s.pub.queue.onEvent (.push msg) = .ok queue) :
    Inv maxSize { s with pub := { s.pub with queue := queue } } := by
  obtain ⟨queue', hpush', hdoes⟩ := s.pub.queue.onEvent_does (.push msg)
  obtain rfl := Except.ok.inj (hpush.symm.trans hpush')
  obtain ⟨hwaiting, hpopped⟩ := QueueTraffic.waiting_of_push hpush
  obtain ⟨line, hline⟩ := h.line
  exact h.quiet (hline.does hdoes) (hwaiting.trans h.awake) (hpopped.trans h.popped) rfl
    fun hold => ⟨hold.fresh, hold.waits, hold.stored⟩

/-- The thread takes the message that is first in line. -/
theorem Inv.take (h : s.Inv maxSize) (hloop : s.pub.thread = some .loop) {msg : Payload}
    {rest : List Payload} (hqueue : s.pub.queue.queue.queue = msg :: rest)
    {queue : QueueTraffic Payload} (hpop : s.pub.queue.onEvent (.pop 0) = .ok queue) :
    Inv maxSize { s with pub := { s.pub with queue := queue, thread := some (.sendTopic msg) } } := by
  rw [QueueTraffic.onEvent_pop h.awake hqueue] at hpop
  obtain rfl := Except.ok.inj hpop
  obtain ⟨line, hline⟩ := h.line
  refine h.quiet ⟨_, hline.pop hqueue rfl rfl rfl rfl⟩ h.awake ?_ ?_ ?_
  · have hpopped := h.popped
    rw [PublishZMQ.held, hloop, List.append_nil] at hpopped
    show QueueTraffic.popped _ = s.sent ++ [msg]
    rw [QueueTraffic.popped_append s.pub.queue rfl, hpopped]
    rfl
  · rw [PublishZMQ.begun, PublishZMQ.begun, hloop]
  · exact fun hold => hold.go ⟨_, hloop, rfl⟩ ⟨_, rfl, rfl⟩ rfl rfl

theorem filterMap_send (answer : ZmqAnswer) (part : Payload) (more : Bool)
    (h : .refused ∉ [answer.send part more]) :
    [answer.send part more].filterMap ZmqCall.part? = [(part, more)] := by
  rw [ZmqAnswer.send] at h ⊢
  split_ifs at h ⊢
  · rfl
  · exact absurd (List.mem_singleton_self _) h

/-- The thread's next step. -/
theorem Inv.step (h : s.Inv maxSize) {answer : ZmqAnswer} (hrun : s.step answer = .ok s') :
    s'.Inv maxSize := by
  rw [ZmqLink.step] at hrun
  cases hthread : s.pub.thread with
  | none =>
      rw [hthread] at hrun
      exact Except.ok.inj hrun ▸ h
  | some place =>
      have hpopped := h.popped
      rw [hthread] at hrun
      cases place with
      | bind =>
          obtain ⟨-, -, hlast⟩ := bind_eq_ok_iff.mp hrun
          obtain rfl := Except.ok.inj hlast
          rw [PublishZMQ.held, hthread] at hpopped
          refine h.setPub [.bind s.pub.endpoint] h.line h.awake hpopped ?_ ?_ fun _ => rfl
          · intro _
            rw [PublishZMQ.begun, PublishZMQ.begun, hthread]
            exact List.append_nil _
          · -- where `start` had not assigned the endpoint, it was empty
            intro hnot hold
            have hassigned : s.pub.assigning = none := by
              by_contra hwaits
              apply hnot
              rw [(hold.waits hwaits).2]
              exact List.mem_singleton_self _
            apply PublishZMQ.Named.mk
            case fresh =>
              intro hnone
              cases hnone
            case waits => exact fun hwaits => absurd hassigned hwaits
            case stored =>
              intro ⟨place, hplace, hlate⟩
              obtain rfl := Option.some.inj hplace
              cases hlate
      | lastEndpoint =>
          obtain ⟨-, -, hlast⟩ := bind_eq_ok_iff.mp hrun
          obtain rfl := Except.ok.inj hlast
          rw [PublishZMQ.held, hthread] at hpopped
          refine h.setPub [.lastEndpoint answer.lastEndpoint] h.line h.awake hpopped ?_ ?_ fun _ => rfl
          · intro _
            rw [PublishZMQ.begun, PublishZMQ.begun, hthread]
            exact List.append_nil _
          · intro _ hold
            have hassigned := hold.assigned (by rw [hthread]; decide)
            apply PublishZMQ.Named.mk
            case fresh =>
              intro hnone
              cases hnone
            case waits => exact fun hwaits => absurd hassigned hwaits
            case stored => exact fun _ => List.mem_append_right _ (List.mem_singleton_self _)
      | loop =>
          replace hrun : (if s.pub.shutdown = true then _ else _) = Except.ok s' := hrun
          by_cases hshutdown : s.pub.shutdown = true
          · rw [if_pos hshutdown] at hrun
            obtain rfl := Except.ok.inj hrun
            rw [PublishZMQ.held, hthread] at hpopped
            refine h.quiet h.line h.awake hpopped ?_ ?_
            · rw [PublishZMQ.begun, PublishZMQ.begun, hthread]
            · exact fun hold => hold.go ⟨_, hthread, rfl⟩ ⟨_, rfl, rfl⟩ rfl rfl
          · rw [if_neg hshutdown] at hrun
            split at hrun
            · exact Except.ok.inj hrun ▸ h
            · rename_i msg rest hqueue
              obtain ⟨queue, hpop, hlast⟩ := bind_eq_ok_iff.mp hrun
              obtain rfl := Except.ok.inj hlast
              exact h.take hthread hqueue (mapError_eq_ok_iff.mp hpop)
      | sendTopic msg =>
          obtain ⟨-, -, hlast⟩ := bind_eq_ok_iff.mp hrun
          obtain rfl := Except.ok.inj hlast
          rw [PublishZMQ.held, hthread] at hpopped
          refine h.setPub [answer.send _ true] h.line h.awake hpopped ?_ ?_
            fun i => ZmqCall.arrived_send i answer _ true
          · intro hnot
            rw [filterMap_send answer _ true hnot, PublishZMQ.begun, PublishZMQ.begun, hthread,
              List.append_nil]
          · intro _ hold
            have hgo : PublishZMQ.Named s.calls { s.pub with thread := some (.sendData msg) } :=
              hold.go ⟨_, hthread, rfl⟩ ⟨_, rfl, rfl⟩ rfl rfl
            exact hgo.append _
      | sendData msg =>
          obtain ⟨-, -, hlast⟩ := bind_eq_ok_iff.mp hrun
          obtain rfl := Except.ok.inj hlast
          rw [PublishZMQ.held, hthread] at hpopped
          refine h.setPub [answer.send msg false] h.line h.awake ?_ ?_ ?_
            fun i => ZmqCall.arrived_send i answer msg false
          · exact hpopped.trans (List.append_nil _).symm
          · intro hnot
            rw [filterMap_send answer msg false hnot, PublishZMQ.begun, PublishZMQ.begun, hthread,
              List.flatMap_append, List.append_assoc, List.append_nil]
            rfl
          · intro _ hold
            have hgo : PublishZMQ.Named s.calls { s.pub with thread := some .loop } :=
              hold.go ⟨_, hthread, rfl⟩ ⟨_, rfl, rfl⟩ rfl rfl
            exact hgo.append _
      | returned => exact Except.ok.inj hrun ▸ h

/-! ### Every step -/

theorem Inv.connect (h : s.Inv maxSize) (hi : s.peers[i]? = some peer) :
    Inv maxSize { s with
      peers := s.peers.set i { peer with connected := true }
      calls := s.calls ++ [.connect i peer.sub.endpoint] } := by
  have harrived : ZmqCall.arrived i (s.calls ++ [.connect i peer.sub.endpoint]) =
      ZmqCall.arrived i s.calls :=
    (ZmqCall.arrived_append i _ _).trans (List.append_nil _)
  apply h.setPeer hi
  case hparts => rfl
  case hothers => exact fun _ _ => rfl
  case hreads =>
    rw [harrived]
    exact h.reads i peer hi
  case hconnected => exact fun _ => List.mem_append_right _ (List.mem_singleton_self _)
  case hunconnected => exact fun hnot => absurd hnot.symm Bool.false_ne_true

theorem Inv.arrive (h : s.Inv maxSize) (hi : s.peers[i]? = some peer) (hconnected : peer.connected = true)
    (hrunning : peer.sub.running = true) (parts : List Payload) :
    Inv maxSize { s with
      peers := s.peers.set i { peer with sub := { peer.sub with pipe := peer.sub.pipe ++ [parts] } }
      calls := s.calls ++ [.arrive i parts] } := by
  have hmem := h.connected i peer hi hconnected
  apply h.setPeer hi
  case hparts => rfl
  case hothers => exact fun j hj => ZmqCall.arrived_of_ne hj parts
  case hreads =>
    obtain ⟨read, harrived, hreceived, -⟩ := h.reads i peer hi
    refine ⟨read, ?_, hreceived, fun hended => ?_⟩
    · rw [ZmqCall.arrived_append, ZmqCall.arrived_self, harrived, List.append_assoc]
    · exact absurd (hended.symm.trans hrunning) Bool.false_ne_true
  case hconnected => exact fun _ => List.mem_append_left _ hmem
  case hunconnected => exact fun hnot => absurd (hnot.symm.trans hconnected) Bool.false_ne_true

/-- A subscriber changes by itself. -/
theorem Inv.alone (h : s.Inv maxSize) (hi : s.peers[i]? = some peer) {sub : SubscribeZMQ}
    (hendpoint : sub.endpoint = peer.sub.endpoint)
    (hreads : ZmqPeer.Reads (ZmqCall.arrived i s.calls) { peer with sub := sub }) :
    Inv maxSize { s with peers := s.peers.set i { peer with sub := sub } } := by
  have hset : Inv maxSize { s with
      peers := s.peers.set i { peer with sub := sub }
      calls := s.calls ++ [] } := by
    apply h.setPeer hi
    case hparts => rfl
    case hothers => exact fun _ _ => rfl
    case hreads =>
      rw [List.append_nil]
      exact hreads
    case hconnected =>
      rw [List.append_nil, hendpoint]
      exact h.connected i peer hi
    case hunconnected =>
      intro hnot
      rw [List.append_nil]
      apply h.unconnected
      intro other hother
      obtain rfl := Option.some.inj (hi.symm.trans hother)
      exact hnot
  rwa [List.append_nil] at hset

theorem Inv.onEvent (h : s.Inv maxSize) {e : ZmqEvent} (hrun : s.onEvent e = .ok s') : s'.Inv maxSize := by
  cases e with
  | start endpoint =>
      rw [ZmqLink.onEvent] at hrun
      split_ifs at hrun with hstarted
      · exact Except.ok.inj hrun ▸ h
      · obtain rfl := Except.ok.inj hrun
        exact h.start (by simpa using hstarted) endpoint
  | assign => exact Except.ok.inj hrun ▸ h.assign
  | publish msg =>
      obtain ⟨queue, hpush, hlast⟩ := bind_eq_ok_iff.mp hrun
      obtain rfl := Except.ok.inj hlast
      exact h.publish (mapError_eq_ok_iff.mp hpush)
  | step answer => exact h.step hrun
  | shutdown =>
      obtain rfl := Except.ok.inj hrun
      exact h.quiet h.line h.awake h.popped rfl fun hold => ⟨hold.fresh, hold.waits, hold.stored⟩
  | subscribe endpoint => exact Except.ok.inj hrun ▸ h.subscribe endpoint
  | connect i throws =>
      rw [ZmqLink.onEvent] at hrun
      split at hrun
      · exact Except.ok.inj hrun ▸ h
      · rename_i peer hi
        split_ifs at hrun
        · exact Except.ok.inj hrun ▸ h
        · exact Except.ok.inj hrun ▸ h.connect hi
  | arrive i parts =>
      rw [ZmqLink.onEvent] at hrun
      split at hrun
      · exact Except.ok.inj hrun ▸ h
      · rename_i peer hi
        split_ifs at hrun with htakes
        · exact Except.ok.inj hrun ▸ h.arrive hi htakes.1 htakes.2 parts
        · exact Except.ok.inj hrun ▸ h
  | receive i throws =>
      rw [ZmqLink.onEvent] at hrun
      split at hrun
      · exact Except.ok.inj hrun ▸ h
      · rename_i peer hi
        split_ifs at hrun
        · exact Except.ok.inj hrun ▸ h
        · obtain ⟨sub, hround, hlast⟩ := bind_eq_ok_iff.mp hrun
          obtain rfl := Except.ok.inj hlast
          obtain ⟨hendpoint, hreads⟩ := reads_round (h.reads i peer hi) (mapError_eq_ok_iff.mp hround)
          exact h.alone hi hendpoint hreads
  | shutdownSub i =>
      obtain rfl := Except.ok.inj hrun
      cases hi : s.peers[i]? with
      | none =>
          rw [List.modify_eq_self (List.getElem?_eq_none_iff.mp hi)]
          exact h
      | some peer =>
          rw [List.modify_eq_set_getElem?, hi]
          show Inv maxSize { s with
            peers := s.peers.set i { peer with sub := { peer.sub with shutdown := true } } }
          refine h.alone hi rfl ?_
          obtain ⟨read, harrived, hreceived, -⟩ := h.reads i peer hi
          exact ⟨read, harrived, hreceived, fun _ => Or.inl rfl⟩

/-! ### When the process goes on -/

/-- A call that a step makes does not throw, and the topic of a message that it reads fits. -/
def GetsThrough (s : ZmqLink) : ZmqEvent → Prop
  | .step answer => ∀ place, s.pub.thread = some place → place.calls = true → answer.throws = false
  | .connect i throws => ∀ peer, s.peers[i]? = some peer → peer.connected = false → throws = false
  | .receive i throws => ∀ peer, s.peers[i]? = some peer → peer.connected = true →
      peer.sub.running = true → peer.sub.shutdown = false →
        throws = false ∧ ∀ parts ∈ peer.sub.pipe.head?, SubscribeZMQ.Fits parts
  | _ => True

/-- Where every published message is. -/
structure Accounted (maxSize : Nat) (s : ZmqLink) : Prop where
  /-- popped, dropped or in the queue -/
  queue : s.pub.queue.Accounted maxSize
  /-- of the popped, sent or in the hands of the thread -/
  popped : s.pub.queue.popped = s.sent ++ s.pub.held
  kept : s.pub.queue.dropped = [] →
    s.sent ++ s.pub.held ++ s.pub.queue.queue.queue = s.pub.queue.pushed
  /-- of what arrived at a subscriber, read or in its socket -/
  reads : ∀ (i : Nat) (peer : ZmqPeer), s.peers[i]? = some peer →
    peer.Reads (ZmqCall.arrived i s.calls)

/-- What comes of it, where the library keeps its promises. -/
structure Delivered (s : ZmqLink) : Prop where
  sends : ZmqCall.sent s.calls = s.sent.map ZmqCall.message
  named : s.pub.Stored → .lastEndpoint s.pub.endpoint ∈ s.calls
  connected : ∀ peer ∈ s.peers, peer.connected = true → peer.sub.endpoint ≠ []
  follows : ∀ peer ∈ s.peers, .lastEndpoint peer.sub.endpoint ∈ s.calls → peer.Follows s.sent

theorem Inv.accounted (h : s.Inv maxSize) : s.Accounted maxSize := by
  obtain ⟨line, hline⟩ := h.line
  refine ⟨hline.accounted, h.popped, fun hkept => ?_, h.reads⟩
  rw [← h.popped]
  exact (hline.pushed_of_kept hkept).symm

/-- A subscriber reads messages of the publisher only, so all of them have their two parts. -/
theorem follows_of_sublist {arrived : List (List Payload)} {sent : List Payload}
    (h : peer.Reads arrived) (hsub : arrived.Sublist (sent.map ZmqCall.message)) :
    peer.Follows sent := by
  obtain ⟨read, rfl, hreceived, hended⟩ := h
  have hmessage : ∀ parts ∈ read ++ peer.sub.pipe, ∃ msg, ZmqCall.message msg = parts := by
    intro parts hparts
    obtain ⟨msg, -, hmsg⟩ := List.mem_map.mp (hsub.subset hparts)
    exact ⟨msg, hmsg⟩
  have hpayloads : (sent.map ZmqCall.message).filterMap SubscribeZMQ.payload = sent := by
    rw [List.filterMap_map]
    exact List.filterMap_some
  constructor
  case ordered =>
    have hpayload := hsub.filterMap SubscribeZMQ.payload
    rwa [hpayloads, List.filterMap_append, ← hreceived] at hpayload
  case fits =>
    intro parts hparts
    obtain ⟨msg, rfl⟩ := hmessage parts (List.mem_append_right _ hparts)
    exact ZmqCall.fits_message msg
  case ended =>
    intro hnot
    rcases hended hnot with hshutdown | ⟨parts, hparts, hlong⟩
    · exact hshutdown
    · obtain ⟨msg, rfl⟩ := hmessage parts (List.mem_append_left _ hparts)
      exact absurd hlong (Nat.lt_irrefl 2)

theorem Inv.delivered (h : s.Inv maxSize) (hpromises : ZmqPromises s.calls) : s.Delivered := by
  have hsends : ZmqCall.sent s.calls = s.sent.map ZmqCall.message := by
    rw [ZmqCall.sent, h.parts hpromises.taken]
    exact ZmqCall.messages_flatMap_parts s.pub.messages_begun s.sent
  have hfollows : ∀ (i : Nat) (peer : ZmqPeer), s.peers[i]? = some peer →
      .lastEndpoint peer.sub.endpoint ∈ s.calls → peer.Follows s.sent := by
    intro i peer hi hendpoint
    apply follows_of_sublist (h.reads i peer hi)
    by_cases hconnected : peer.connected = true
    · rw [← hsends]
      exact hpromises.arrived _ i hendpoint (h.connected i peer hi hconnected)
    · have hnone : ZmqCall.arrived i s.calls = [] := by
        apply h.unconnected
        intro other hother
        obtain rfl := Option.some.inj (hi.symm.trans hother)
        exact Bool.eq_false_iff.mpr hconnected
      rw [hnone]
      exact List.nil_sublist _
  refine ⟨hsends, (h.named hpromises.bound).stored, ?_, ?_⟩
  · intro peer hpeer hconnected hempty
    obtain ⟨i, hi⟩ := List.getElem?_of_mem hpeer
    apply hpromises.connected i
    rw [← hempty]
    exact h.connected i peer hi hconnected
  · intro peer hpeer
    obtain ⟨i, hi⟩ := List.getElem?_of_mem hpeer
    exact hfollows i peer hi

/-- A message on its way to the subscriber that was told the endpoint. -/
def published : List ZmqEvent :=
  let reported := literal "tcp://127.0.0.1:4545"
  let done : ZmqAnswer := ⟨false, true, reported⟩
  [.start (literal "tcp://127.0.0.1:0"), .assign, .step done, .step done, .subscribe reported,
    .connect 0 false, .publish [7, 8], .step done, .step done, .step done,
    .arrive 0 (ZmqCall.message [7, 8]), .receive 0 false]

end ZmqLink

end Ros2Proto
