import Mathlib.Data.List.ReduceOption
import Ros2Proto.Base.Line
import Ros2Proto.Base.Runs
import Ros2Proto.Transport.Tcp

/-!
# The message queue

`MessageQueue` of `core.hpp`, which `PublishZMQ::publish` pushes copies to and the thread of `PublishZMQ`
pops from. Any number of threads push and pop. What a thread does under `mutex_`, up to `timed_wait` or
the release, is one step; `timed_wait` may return true without a notification, and returns false after
`stop`, whatever the queue holds by then.

The pushed messages stand in line, and leave it from the front by `pop`, or by a `push` that finds no room.
-/

namespace Ros2Proto

open FallibleRun

variable {M : Type*}

/-- A `MessageQueue<T>`, where `M` is `T*`. -/
structure MessageQueue (M : Type*) where
  maxSize : Nat
  queue : List M
  deriving DecidableEq, Repr

namespace MessageQueue

/-- `queue_.front()` and `queue_.pop_front()`, which are undefined on an empty deque. -/
def takeFront (q : MessageQueue M) : Except Fault (M × MessageQueue M) :=
  match q.queue with
  | [] => .error .overrun
  | front :: rest => .ok (front, { q with queue := rest })

/-- The message that `push` deletes, if any, and the queue after it. -/
def push (q : MessageQueue M) (msg : M) : Except Fault (Option M × MessageQueue M) := do
  let q := { q with queue := q.queue ++ [msg] }
  if q.maxSize ≠ 0 ∧ q.maxSize < q.queue.length then
    let (front, q) ← q.takeFront
    .ok (some front, q)
  else
    .ok (none, q)

variable {q : MessageQueue M}

theorem push_of_room (hroom : q.maxSize ≠ 0 → q.queue.length < q.maxSize) (msg : M) :
    q.push msg = .ok (none, { q with queue := q.queue ++ [msg] }) := by
  have hfits : ¬ (q.maxSize ≠ 0 ∧ q.maxSize < (q.queue ++ [msg]).length) := by
    intro h
    have hlt := hroom h.1
    have hover := h.2
    rw [List.length_append, List.length_singleton] at hover
    omega
  rw [push]
  exact if_neg hfits

/-- Without room the oldest message gives way. -/
theorem push_of_full (hmax : q.maxSize ≠ 0) (hfull : q.maxSize ≤ q.queue.length) {oldest : M}
    {rest : List M} (holdest : q.queue = oldest :: rest) (msg : M) :
    q.push msg = .ok (some oldest, { q with queue := rest ++ [msg] }) := by
  have hover : q.maxSize ≠ 0 ∧ q.maxSize < (q.queue ++ [msg]).length := by
    rw [List.length_append, List.length_singleton]
    exact ⟨hmax, by omega⟩
  have hfront : MessageQueue.takeFront { q with queue := q.queue ++ [msg] } =
      .ok (oldest, { q with queue := rest ++ [msg] }) := by
    rw [takeFront, holdest]
    rfl
  rw [push]
  show (if q.maxSize ≠ 0 ∧ q.maxSize < (q.queue ++ [msg]).length then _ else _) = _
  rw [if_pos hover, hfront]
  rfl

end MessageQueue

/-- A queue, the threads in `timed_wait`, and what the calls so far were given and did: the arguments of
`push`, the messages it deleted, and the results of `pop`, where `none` is `NULL`. -/
structure QueueTraffic (M : Type*) where
  queue : MessageQueue M
  waiting : List Nat
  pushed : List M
  dropped : List M
  returned : List (Option M)
  deriving DecidableEq, Repr

/-- A call of `push` or `pop`, or a return of `timed_wait`. -/
inductive QueueEvent (M : Type*)
  | push (msg : M)
  | pop (thread : Nat)
  | wake (thread : Nat)
  | timeOut (thread : Nat)
  deriving DecidableEq, Repr

namespace QueueTraffic

def create (maxSize : Nat) : QueueTraffic M := ⟨⟨maxSize, []⟩, [], [], [], []⟩

/-- `pop` from the test of the loop, up to the next wait or the return. -/
def tryPop (s : QueueTraffic M) (thread : Nat) : Except Fault (QueueTraffic M) :=
  if s.queue.queue.isEmpty then .ok { s with waiting := thread :: s.waiting }
  else do
    let (front, queue) ← s.queue.takeFront
    .ok { s with queue := queue, returned := s.returned ++ [some front] }

/-- A thread in `pop` does not call it, and only a thread in `timed_wait` returns from there. -/
def onEvent (s : QueueTraffic M) : QueueEvent M → Except Fault (QueueTraffic M)
  | .push msg => do
    let (deleted, queue) ← s.queue.push msg
    .ok { s with
      queue := queue
      pushed := s.pushed ++ [msg]
      dropped := s.dropped ++ deleted.toList }
  | .pop thread => if thread ∈ s.waiting then .ok s else s.tryPop thread
  | .wake thread =>
    if thread ∈ s.waiting then { s with waiting := s.waiting.erase thread }.tryPop thread else .ok s
  | .timeOut thread =>
    if thread ∈ s.waiting then
      .ok { s with waiting := s.waiting.erase thread, returned := s.returned ++ [none] }
    else .ok s

/-- The messages that `pop` returned. -/
def popped (s : QueueTraffic M) : List M := s.returned.reduceOption

/-! ### What a step does -/

/-- What a step does with messages. -/
inductive Does (s s' : QueueTraffic M) : QueueEvent M → Prop
  | nothing {e : QueueEvent M} (hqueue : s'.queue = s.queue) (hpushed : s'.pushed = s.pushed)
      (hdropped : s'.dropped = s.dropped) (hreturned : s'.returned = s.returned) : Does s s' e
  | timedOut (thread : Nat) (hqueue : s'.queue = s.queue) (hpushed : s'.pushed = s.pushed)
      (hdropped : s'.dropped = s.dropped) (hreturned : s'.returned = s.returned ++ [none]) :
      Does s s' (.timeOut thread)
  | popped {e : QueueEvent M} {front : M} {rest : List M} (hfront : s.queue.queue = front :: rest)
      (hqueue : s'.queue = { s.queue with queue := rest }) (hpushed : s'.pushed = s.pushed)
      (hdropped : s'.dropped = s.dropped) (hreturned : s'.returned = s.returned ++ [some front])
      (hpop : ∀ thread, e ≠ .timeOut thread) : Does s s' e
  | pushed (msg : M) (hroom : s.queue.maxSize ≠ 0 → s.queue.queue.length < s.queue.maxSize)
      (hqueue : s'.queue = { s.queue with queue := s.queue.queue ++ [msg] })
      (hpushed : s'.pushed = s.pushed ++ [msg]) (hdropped : s'.dropped = s.dropped)
      (hreturned : s'.returned = s.returned) : Does s s' (.push msg)
  | replaced (msg : M) {oldest : M} {rest : List M} (hmax : s.queue.maxSize ≠ 0)
      (hfull : s.queue.maxSize ≤ s.queue.queue.length) (holdest : s.queue.queue = oldest :: rest)
      (hqueue : s'.queue = { s.queue with queue := rest ++ [msg] })
      (hpushed : s'.pushed = s.pushed ++ [msg]) (hdropped : s'.dropped = s.dropped ++ [oldest])
      (hreturned : s'.returned = s.returned) : Does s s' (.push msg)

theorem tryPop_does (s : QueueTraffic M) (waiting : List Nat) (thread : Nat) {e : QueueEvent M}
    (hpop : ∀ thread, e ≠ .timeOut thread) :
    ∃ s', { s with waiting := waiting }.tryPop thread = .ok s' ∧ Does s s' e := by
  rw [tryPop]
  cases hqueue : s.queue.queue with
  | nil => exact ⟨_, rfl, .nothing rfl rfl rfl rfl⟩
  | cons front rest =>
      refine ⟨{ s with
        queue := { s.queue with queue := rest }
        waiting := waiting
        returned := s.returned ++ [some front] }, ?_, .popped hqueue rfl rfl rfl rfl hpop⟩
      rw [if_neg (by simp), MessageQueue.takeFront, hqueue]
      rfl

/-- No call takes the front of an empty queue. -/
theorem onEvent_does (s : QueueTraffic M) (e : QueueEvent M) :
    ∃ s', s.onEvent e = .ok s' ∧ Does s s' e := by
  cases e with
  | push msg =>
      by_cases hroom : s.queue.maxSize ≠ 0 → s.queue.queue.length < s.queue.maxSize
      · have hrun : s.onEvent (.push msg) = .ok { s with
            queue := { s.queue with queue := s.queue.queue ++ [msg] }
            pushed := s.pushed ++ [msg]
            dropped := s.dropped ++ [] } := by
          rw [onEvent, MessageQueue.push_of_room hroom]
          rfl
        exact ⟨_, hrun, .pushed msg hroom rfl rfl (List.append_nil _) rfl⟩
      · obtain ⟨hmax, hfull⟩ : s.queue.maxSize ≠ 0 ∧ s.queue.maxSize ≤ s.queue.queue.length := by
          omega
        obtain ⟨oldest, rest, holdest⟩ : ∃ oldest rest, s.queue.queue = oldest :: rest := by
          apply List.exists_cons_of_length_pos
          omega
        have hrun : s.onEvent (.push msg) = .ok { s with
            queue := { s.queue with queue := rest ++ [msg] }
            pushed := s.pushed ++ [msg]
            dropped := s.dropped ++ [oldest] } := by
          rw [onEvent, MessageQueue.push_of_full hmax hfull holdest]
          rfl
        exact ⟨_, hrun, .replaced msg hmax hfull holdest rfl rfl rfl rfl⟩
  | pop thread =>
      rw [onEvent]
      split_ifs with hwaiting
      · exact ⟨s, rfl, .nothing rfl rfl rfl rfl⟩
      · exact tryPop_does s s.waiting thread (by simp)
  | wake thread =>
      rw [onEvent]
      split_ifs with hwaiting
      · exact tryPop_does s (s.waiting.erase thread) thread (by simp)
      · exact ⟨s, rfl, .nothing rfl rfl rfl rfl⟩
  | timeOut thread =>
      rw [onEvent]
      split_ifs with hwaiting
      · exact ⟨_, rfl, .timedOut thread rfl rfl rfl rfl⟩
      · exact ⟨s, rfl, .nothing rfl rfl rfl rfl⟩

/-! ### The line -/

/-- How a message leaves the queue. -/
inductive Departure
  | popped
  | dropped
  deriving DecidableEq, Repr

/-- The pushed messages stand in this line. -/
structure Represents (maxSize : Nat) (line : Line M Departure) (s : QueueTraffic M) : Prop where
  capacity : s.queue.maxSize = maxSize
  queue : s.queue.queue = line.waiting
  pushed : s.pushed = line.entered
  popped : s.popped = line.leftBy .popped
  dropped : s.dropped = line.leftBy .dropped
  bounded : maxSize ≠ 0 → s.queue.queue.length ≤ maxSize
  unbounded : maxSize = 0 → s.dropped = []

variable {maxSize : Nat} {line : Line M Departure} {s s' : QueueTraffic M} {e : QueueEvent M}

theorem represents_create : Represents maxSize .empty (create maxSize : QueueTraffic M) where
  capacity := rfl
  queue := rfl
  pushed := rfl
  popped := rfl
  dropped := rfl
  bounded _ := Nat.zero_le _
  unbounded _ := rfl

theorem Represents.congr (h : Represents maxSize line s) (hqueue : s'.queue = s.queue)
    (hpushed : s'.pushed = s.pushed) (hdropped : s'.dropped = s.dropped)
    (hpopped : s'.popped = s.popped) : Represents maxSize line s' := by
  obtain ⟨hcapacity, hline, hentered, hleft, hgone, hbounded, hunbounded⟩ := h
  rw [← hqueue] at hcapacity hline hbounded
  rw [← hdropped] at hgone hunbounded
  exact ⟨hcapacity, hline, hpushed.trans hentered, hpopped.trans hleft, hgone, hbounded, hunbounded⟩

theorem popped_append (s : QueueTraffic M) {result : Option M}
    (hreturned : s'.returned = s.returned ++ [result]) : s'.popped = s.popped ++ result.toList := by
  rw [popped, popped, hreturned, List.reduceOption_append]
  cases result <;> rfl

/-- `pop` takes the message that is first in line. -/
theorem Represents.pop (h : Represents maxSize line s) {front : M} {rest : List M}
    (hfront : s.queue.queue = front :: rest) (hqueue : s'.queue = { s.queue with queue := rest })
    (hpushed : s'.pushed = s.pushed) (hdropped : s'.dropped = s.dropped)
    (hreturned : s'.returned = s.returned ++ [some front]) :
    Represents maxSize (line.leave front rest .popped) s' := by
  have hwaiting : line.waiting = front :: rest := h.queue.symm.trans hfront
  apply Represents.mk
  case capacity =>
    rw [hqueue]
    exact h.capacity
  case queue =>
    rw [hqueue]
    rfl
  case pushed => rw [hpushed, h.pushed, Line.entered_leave hwaiting]
  case popped =>
    rw [popped_append s hreturned, h.popped, Line.leftBy_leave]
    rfl
  case dropped =>
    rw [hdropped, h.dropped, Line.leftBy_leave]
    rfl
  case bounded =>
    intro hmax
    have hle := h.bounded hmax
    rw [hfront, List.length_cons] at hle
    rw [hqueue]
    exact Nat.le_of_succ_le hle
  case unbounded =>
    rw [hdropped]
    exact h.unbounded

/-- `push` puts its message at the end of the line. -/
theorem Represents.push (h : Represents maxSize line s) {msg : M}
    (hroom : s.queue.maxSize ≠ 0 → s.queue.queue.length < s.queue.maxSize)
    (hqueue : s'.queue = { s.queue with queue := s.queue.queue ++ [msg] })
    (hpushed : s'.pushed = s.pushed ++ [msg]) (hdropped : s'.dropped = s.dropped)
    (hreturned : s'.returned = s.returned) : Represents maxSize (line.enter msg) s' := by
  apply Represents.mk
  case capacity =>
    rw [hqueue]
    exact h.capacity
  case queue =>
    rw [hqueue, h.queue]
    rfl
  case pushed => rw [hpushed, h.pushed, Line.entered_enter]
  case popped => exact (congrArg List.reduceOption hreturned).trans h.popped
  case dropped => exact hdropped.trans h.dropped
  case bounded =>
    intro hmax
    rw [h.capacity] at hroom
    rw [hqueue, List.length_append]
    exact hroom hmax
  case unbounded =>
    rw [hdropped]
    exact h.unbounded

/-- Without room the first in line leaves once the message has come. -/
theorem Represents.displace (h : Represents maxSize line s) {msg oldest : M} {rest : List M}
    (hmax : s.queue.maxSize ≠ 0) (holdest : s.queue.queue = oldest :: rest)
    (hqueue : s'.queue = { s.queue with queue := rest ++ [msg] })
    (hpushed : s'.pushed = s.pushed ++ [msg]) (hdropped : s'.dropped = s.dropped ++ [oldest])
    (hreturned : s'.returned = s.returned) :
    Represents maxSize ((line.enter msg).leave oldest (rest ++ [msg]) .dropped) s' := by
  have hwaiting : (line.enter msg).waiting = oldest :: (rest ++ [msg]) := by
    rw [Line.enter, ← h.queue, holdest]
    rfl
  apply Represents.mk
  case capacity =>
    rw [hqueue]
    exact h.capacity
  case queue =>
    rw [hqueue]
    rfl
  case pushed => rw [hpushed, h.pushed, Line.entered_leave hwaiting, Line.entered_enter]
  case popped =>
    rw [Line.leftBy_leave]
    exact (congrArg List.reduceOption hreturned).trans h.popped
  case dropped =>
    rw [hdropped, h.dropped, Line.leftBy_leave]
    rfl
  case bounded =>
    intro hne
    have hle := h.bounded hne
    rw [holdest, List.length_cons] at hle
    rw [hqueue, List.length_append]
    exact hle
  case unbounded =>
    intro hzero
    rw [h.capacity] at hmax
    exact absurd hzero hmax

/-- Each step is one or two of the line, or leaves it as it is. -/
theorem Represents.does (h : Represents maxSize line s) (hdoes : Does s s' e) :
    ∃ line', Represents maxSize line' s' := by
  cases hdoes with
  | nothing hqueue hpushed hdropped hreturned =>
      exact ⟨line, h.congr hqueue hpushed hdropped (congrArg List.reduceOption hreturned)⟩
  | timedOut thread hqueue hpushed hdropped hreturned =>
      have hpopped : s'.popped = s.popped := by
        rw [popped_append s hreturned]
        exact List.append_nil _
      exact ⟨line, h.congr hqueue hpushed hdropped hpopped⟩
  | popped hfront hqueue hpushed hdropped hreturned _ =>
      exact ⟨_, h.pop hfront hqueue hpushed hdropped hreturned⟩
  | pushed msg hroom hqueue hpushed hdropped hreturned =>
      exact ⟨_, h.push hroom hqueue hpushed hdropped hreturned⟩
  | replaced msg hmax hfull holdest hqueue hpushed hdropped hreturned =>
      exact ⟨_, h.displace hmax holdest hqueue hpushed hdropped hreturned⟩

/-! ### The books -/

/-- Where the messages are: `account` says of each that was pushed whether it was popped, dropped, or is
still there. -/
structure Accounted (maxSize : Nat) (s : QueueTraffic M) : Prop where
  inOrder : s.popped.Sublist s.pushed
  bounded : maxSize ≠ 0 → s.queue.queue.length ≤ maxSize
  account : ∃ account : List (M × Option Departure), account.map Prod.fst = s.pushed ∧
    (account.filter fun entry => entry.2 = some .popped).map Prod.fst = s.popped ∧
    (account.filter fun entry => entry.2 = some .dropped).map Prod.fst = s.dropped ∧
    (account.filter fun entry => entry.2 = none).map Prod.fst = s.queue.queue
  latest : s.queue.queue <:+ s.pushed
  unbounded : maxSize = 0 → s.dropped = []

theorem Represents.accounted (h : Represents maxSize line s) : Accounted maxSize s where
  inOrder := by
    rw [h.popped, h.pushed]
    exact line.leftBy_sublist .popped
  bounded := h.bounded
  account := by
    refine ⟨line.account, ?_, ?_, ?_, ?_⟩
    · rw [line.account_fst, h.pushed]
    · rw [line.account_some, h.popped]
    · rw [line.account_some, h.dropped]
    · rw [line.account_none, h.queue]
  latest := by
    rw [h.queue, h.pushed]
    exact line.waiting_suffix
  unbounded := h.unbounded

/-- Which steps drop a message, and which return `NULL`. -/
structure Removes (maxSize : Nat) (s : QueueTraffic M) (e : QueueEvent M) (s' : QueueTraffic M) :
    Prop where
  drops : s'.dropped = s.dropped ∨ ∃ msg oldest rest, e = .push msg ∧ maxSize ≠ 0 ∧
    s.queue.queue.length = maxSize ∧ s.queue.queue = oldest :: rest ∧
    s'.queue.queue = rest ++ [msg] ∧ s'.dropped = s.dropped ++ [oldest]
  null : s'.returned = s.returned ++ [none] → ∃ thread, e = .timeOut thread
  timedOut : ∀ thread, e = .timeOut thread →
    s'.queue = s.queue ∧ s'.popped = s.popped ∧ s'.dropped = s.dropped

theorem Represents.removes (h : Represents maxSize line s) (hdoes : Does s s' e) :
    Removes maxSize s e s' := by
  have hquiet : s'.returned = s.returned → s'.returned = s.returned ++ [none] →
      ∃ thread, e = .timeOut thread := by
    intro hreturned hnull
    rw [hreturned] at hnull
    exact absurd (List.self_eq_append_right.mp hnull) (List.cons_ne_nil _ _)
  cases hdoes with
  | nothing hqueue hpushed hdropped hreturned =>
      refine ⟨Or.inl hdropped, hquiet hreturned, fun _ _ => ⟨hqueue, ?_, hdropped⟩⟩
      exact congrArg List.reduceOption hreturned
  | timedOut thread hqueue hpushed hdropped hreturned =>
      refine ⟨Or.inl hdropped, fun _ => ⟨thread, rfl⟩, fun _ _ => ⟨hqueue, ?_, hdropped⟩⟩
      rw [popped_append s hreturned]
      exact List.append_nil _
  | popped hfront hqueue hpushed hdropped hreturned hpop =>
      refine ⟨Or.inl hdropped, ?_, fun thread htimeOut => absurd htimeOut (hpop thread)⟩
      intro hnull
      rw [hreturned] at hnull
      cases List.append_cancel_left hnull
  | pushed msg hroom hqueue hpushed hdropped hreturned =>
      exact ⟨Or.inl hdropped, hquiet hreturned, fun _ h => by cases h⟩
  | @replaced msg oldest rest hmax hfull holdest hqueue hpushed hdropped hreturned =>
      refine ⟨Or.inr ⟨msg, oldest, rest, rfl, ?_, ?_, holdest, ?_, hdropped⟩, hquiet hreturned,
        fun _ h => by cases h⟩
      · rw [← h.capacity]
        exact hmax
      · rw [h.capacity] at hmax hfull
        exact Nat.le_antisymm (h.bounded hmax) hfull
      · rw [hqueue]

/-- **A queue loses nothing silently.** Whatever threads push and pop, in whatever order, the messages
popped are some of those pushed, in their order, each pushed message is popped, dropped or in the queue, which
holds the latest, and a message is dropped, as the oldest, only by a `push` that finds the queue full. A
`pop` that times out removes none. -/
theorem run_accounted (maxSize : Nat) (events : List (QueueEvent M)) :
    ∃ s, run onEvent (create maxSize) events = .ok s ∧ Accounted maxSize s ∧
      ∀ e, ∃ s', s.onEvent e = .ok s' ∧ Removes maxSize s e s' := by
  obtain ⟨s, hrun, line, h⟩ : ∃ s, run onEvent (create maxSize) events = .ok s ∧
      ∃ line, Represents maxSize line s := by
    apply run_always _ ⟨.empty, represents_create⟩ events
    intro s e hs
    obtain ⟨line, h⟩ := hs
    obtain ⟨s', hstep, hdoes⟩ := s.onEvent_does e
    exact ⟨s', hstep, h.does hdoes⟩
  refine ⟨s, hrun, h.accounted, fun e => ?_⟩
  obtain ⟨s', hstep, hdoes⟩ := s.onEvent_does e
  exact ⟨s', hstep, h.removes hdoes⟩

example : run onEvent (create 2) [.push 1, .push 2, .push 3, .pop 0, .timeOut 0] =
    .ok ⟨⟨2, [3]⟩, [], [1, 2, 3], [1], [some 2]⟩ := rfl

end QueueTraffic

end Ros2Proto
