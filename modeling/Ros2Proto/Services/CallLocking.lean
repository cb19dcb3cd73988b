import Ros2Proto.Base.Locks
import Ros2Proto.Base.Runs

/-!
# A call whose connection drops

The lock steps of `MultiServiceClient::call` on a user thread and of `socketUpdate` on the poll thread,
on the client's `mutex_` and on the `close_mutex_` and `message_mutex_` of each transport. `call` holds
`mutex_` throughout. `socketUpdate` holds `close_mutex_` while `readMessage` or `writeMessage` holds
`message_mutex_`, and a `close` from inside them runs the disconnect callback, which takes `mutex_`.

So once `call` has set the disconnect callback, the poll thread can wait for `mutex_` with the
transport's mutexes held, and `call` for one of these. What it takes to get there is part of the state:
which callbacks a transport has, what it polls for and how many messages are queued. No thread takes
`mutex_` while it holds it, so nothing depends on it being no recursive mutex.
-/

namespace Ros2Proto.CallLocking

open Locks FallibleRun

/-- The client's mutex, and the two of each transport. -/
inductive Mutex
  | client
  | close (i : Nat)
  | message (i : Nat)
  deriving DecidableEq

/-- Whether the mutex is one of transport `i`. -/
def Mutex.of (i : Nat) : Mutex → Prop
  | client => False
  | close j => j = i
  | message j => j = i

/-- What a write of the front message comes to. -/
inductive Outcome
  | goesOn
  | finishes
  | closes
  deriving DecidableEq

/-- A callback of `socketUpdate`. A read closes the transport where it fails, where it reads the end of
file or a count of zero, and where it reads the response. -/
inductive Callback
  | read (closes : Bool)
  | write (outcome : Outcome)
  deriving DecidableEq

inductive Act
  | enableMessagePass (i : Nat)
  | expectRead (i : Nat)
  | expectWrite (i : Nat) (on : Bool)
  | setDisconnectCallback (i : Nat)
  | enableWriteIfEmpty (i : Nat)
  | pushBack (i : Nat)
  | popFront (i : Nat)
  /-- the callbacks of `socketUpdate`, unless the transport is closed -/
  | update (i : Nat) (callbacks : List Callback)
  | runCallback (i : Nat) (cb : Callback)
  | closeUnlessClosed (i : Nat)
  | markClosed (i : Nat)
  | callDisconnectCb (i : Nat)
  deriving DecidableEq

abbrev Step := Op Mutex Act

/-! ### The functions -/

/-- `close_mutex_` around a test of `closed_`. On a closed transport nothing reads what follows the
test. -/
def testClosed (i : Nat) : List Step := [.acquire (.close i), .release (.close i)]

def read (i : Nat) : List Step := testClosed i
def write (i : Nat) : List Step := testClosed i
def enableRead (i : Nat) : List Step := testClosed i ++ [.act (.expectRead i)]
def enableWrite (i : Nat) : List Step := testClosed i ++ [.act (.expectWrite i true)]
def disableWrite (i : Nat) : List Step := testClosed i ++ [.act (.expectWrite i false)]

def enableMessagePass (i : Nat) : List Step :=
  [.acquire (.message i), .act (.enableMessagePass i), .release (.message i)]

def setMsgCallback (i : Nat) : List Step := [.acquire (.message i), .release (.message i)]

/-- `sendFrames`, whose filter lets every message of a client pass. -/
def sendFrames (i : Nat) : List Step :=
  [.acquire (.message i), .act (.enableWriteIfEmpty i), .act (.pushBack i), .release (.message i)]

/-- `MultiServiceClient::call` on transport `i`. -/
def call (i : Nat) : List Step :=
  [.acquire .client] ++ enableMessagePass i ++ enableRead i ++ setMsgCallback i
    ++ [.act (.setDisconnectCallback i)] ++ sendFrames i ++ [.release .client]

/-- The disconnect callback. -/
def removeConnection : List Step := [.acquire .client, .release .client]

def close (i : Nat) : List Step := [.act (.closeUnlessClosed i)]

def readMessage (i : Nat) (closes : Bool) : List Step :=
  .acquire (.message i) :: (read i ++ if closes then close i else []) ++ [.release (.message i)]

def writeMessage (i : Nat) (outcome : Outcome) : List Step :=
  .acquire (.message i) :: (write i ++ match outcome with
    | .goesOn => []
    | .finishes => [.act (.popFront i)]
    | .closes => close i) ++ [.release (.message i)]

def Callback.steps (i : Nat) : Callback → List Step
  | read closes => readMessage i closes
  | write outcome => writeMessage i outcome

/-- `socketUpdate` of transport `i`, with the callbacks that the events ask for and whether they ask to
close. -/
def socketUpdate (i : Nat) (reads : Option Bool) (writes : Option Outcome) (hangup : Bool) :
    List Step :=
  [.acquire (.close i),
    .act (.update i (reads.toList.map Callback.read ++ writes.toList.map Callback.write)),
    .release (.close i)] ++ if hangup then close i else []

/-- What the acts read and write of a transport. -/
structure Connection where
  closed : Bool
  /-- `read_cb_` and `write_cb_` -/
  callbacks : Bool
  disconnectCb : Bool
  expectingRead : Bool
  expectingWrite : Bool
  /-- the length of `send_msgs_` -/
  queue : Nat

/-- A transport that was just connected. -/
def Connection.fresh : Connection := ⟨false, false, false, false, false, 0⟩

/-- Whether `socketUpdate` runs the callback. -/
def Callback.ready (c : Connection) : Callback → Bool
  | read _ => c.expectingRead && c.callbacks
  | write _ => c.expectingWrite && c.callbacks

structure Data where
  connection : Nat → Connection
  /-- whether the `disconnect_cb` of the `close` that runs is a function -/
  disconnectCb : Bool

def Data.set (d : Data) (i : Nat) (c : Connection) : Data :=
  { d with connection := Function.update d.connection i c }

/-- What an act does, and the steps that follow from it. -/
def exec (d : Data) : Act → Data × List Step
  | .enableMessagePass i => (d.set i { d.connection i with callbacks := true }, [])
  | .expectRead i => (d.set i { d.connection i with expectingRead := true }, [])
  | .expectWrite i on => (d.set i { d.connection i with expectingWrite := on }, [])
  | .setDisconnectCallback i => (d.set i { d.connection i with disconnectCb := true }, [])
  | .enableWriteIfEmpty i => (d, if (d.connection i).queue = 0 then enableWrite i else [])
  | .pushBack i => (d.set i { d.connection i with queue := (d.connection i).queue + 1 }, [])
  | .popFront i =>
    let queue := (d.connection i).queue - 1
    (d.set i { d.connection i with queue := queue }, if queue = 0 then disableWrite i else [])
  | .update i callbacks =>
    (d, if (d.connection i).closed then [] else callbacks.map fun cb => .act (.runCallback i cb))
  | .runCallback i cb => (d, if cb.ready (d.connection i) then cb.steps i else [])
  | .closeUnlessClosed i =>
    (d, if (d.connection i).closed then []
      else [.acquire (.close i), .act (.markClosed i), .release (.close i),
        .act (.callDisconnectCb i)])
  | .markClosed i =>
    if (d.connection i).closed then ({ d with disconnectCb := false }, [])
    else ({ d.set i { d.connection i with closed := true, callbacks := false, disconnectCb := false }
      with disconnectCb := (d.connection i).disconnectCb }, [])
  | .callDisconnectCb _ => (d, if d.disconnectCb then removeConnection else [])

/-! ### The threads -/

inductive Thread
  | user
  | poll
  deriving DecidableEq

/-- An event of a run: a thread begins a call, or takes its next step. -/
inductive Event
  | call (i : Nat)
  | socketUpdate (i : Nat) (reads : Option Bool) (writes : Option Outcome) (hangup : Bool)
  | advance (t : Thread)

abbrev State := Locks.State Thread Mutex Act Data

def onEvent (s : State) : Event → Except (Thread × Mutex) State
  | .call i => .ok (s.start .user (CallLocking.call i))
  | .socketUpdate i reads writes hangup =>
    .ok (s.start .poll (CallLocking.socketUpdate i reads writes hangup))
  | .advance t => s.advance exec t

/-- No thread running and every transport just connected. -/
def idle : State := .idle ⟨fun _ => .fresh, false⟩

/-- The user thread holds `mutex_` and has mutexes of transport `i` to take. -/
def Ahead (s : State) (i : Nat) : Prop :=
  s.Holds .user .client ∧ ∃ m : Mutex, m.of i ∧ .acquire m ∈ s.code .user

/-- The poll thread, inside a callback of transport `i`, is about to take `mutex_`. -/
def AtRemove (s : State) (i : Nat) : Prop := s.Holds .poll (.message i) ∧ s.Wants .poll .client

/-- The poll thread holds `close_mutex_` and is about to run a callback. -/
def AtCallback (s : State) (i : Nat) : Prop :=
  s.Holds .poll (.close i) ∧ s.Wants .poll (.message i)

/-- The user thread found the queue empty and is about to take `close_mutex_` in `enableWrite`. -/
def AtEnableWrite (s : State) (i : Nat) : Prop :=
  s.Holds .user (.message i) ∧ s.Wants .user (.close i)

/-- The poll thread runs no disconnect callback from inside a callback of a transport on which `call`
has mutexes to take, and `call` does not begin while one waits. No `sendFrames` finds the queue empty
while the poll thread is about to run a callback of the transport, nor does the poll thread run one
while `enableWrite` is about to take `close_mutex_`. -/
def Apart (s : State) : Event → Prop
  | .advance .user => ∀ rest i,
    (s.code .user = .acquire .client :: rest → (∃ m : Mutex, m.of i ∧ .acquire m ∈ rest) →
      ¬ AtRemove s i) ∧
    (s.code .user = .act (.enableWriteIfEmpty i) :: rest → (s.data.connection i).queue = 0 →
      ¬ AtCallback s i)
  | .advance .poll => ∀ rest i,
    (s.code .poll = .act (.callDisconnectCb i) :: rest → s.data.disconnectCb = true →
      s.Holds .poll (.message i) → ¬ Ahead s i) ∧
    ∀ cb : Callback, s.code .poll = .act (.runCallback i cb) :: rest →
      cb.ready (s.data.connection i) = true → ¬ AtEnableWrite s i
  | _ => True

/-! ### What each thread may do -/

/-- No mutex but those of transport `i` is held. -/
def Only (i : Nat) (held : Mutex → Nat) : Prop := ∀ m : Mutex, ¬ m.of i → held m = 0

/-- Both mutexes of transport `i` are held, and no other. -/
def Inside (i : Nat) (held : Mutex → Nat) : Prop :=
  0 < held (.close i) ∧ 0 < held (.message i) ∧ Only i held

/-- The client's mutex is held, and no other but perhaps `message_mutex_` of transport `i`. -/
def InCall (i : Nat) (held : Mutex → Nat) : Prop :=
  0 < held .client ∧ ∀ m, m ≠ .client → m ≠ .message i → held m = 0

/-- What each thread may do with what it holds. The user thread takes everything inside `mutex_`, and
`close_mutex_` last. The poll thread takes `close_mutex_` first, and `mutex_` last. -/
def allowed : Thread → Step → (Mutex → Nat) → Prop
  | .user, .acquire .client, held => ∀ m, held m = 0
  | .user, .acquire (.message i), held => InCall i held ∧ held (.message i) = 0
  | .user, .acquire (.close i), held => InCall i held
  | .user, .release .client, held => 0 < held .client
  | .user, .release (.message i), held => held (.message i) = 1
  | .user, .release (.close i), held => 0 < held (.close i)
  | .user, .act (.enableWriteIfEmpty i), held => InCall i held ∧ 0 < held (.message i)
  | .user, .act (.enableMessagePass _), _ | .user, .act (.expectRead _), _
  | .user, .act (.expectWrite _ _), _ | .user, .act (.setDisconnectCallback _), _
  | .user, .act (.pushBack _), _ => True
  | .user, .act _, _ => False
  | .poll, .acquire .client, held =>
    (∀ m, held m = 0) ∨ held .client = 0 ∧ ∃ i, Inside i held
  | .poll, .acquire (.message i), held => 0 < held (.close i) ∧ Only i held
  | .poll, .acquire (.close i), held => (∀ m, held m = 0) ∨ 0 < held (.close i)
  | .poll, .release m, held => 0 < held m
  | .poll, .act (.update i _), held | .poll, .act (.runCallback i _), held =>
    0 < held (.close i) ∧ Only i held
  | .poll, .act (.popFront i), held => Inside i held
  | .poll, .act (.closeUnlessClosed i), held | .poll, .act (.callDisconnectCb i), held =>
    (∀ m, held m = 0) ∨ Inside i held
  | .poll, .act (.markClosed _), _ | .poll, .act (.expectWrite _ _), _ => True
  | .poll, .act _, _ => False

section

variable {t : Thread} {i : Nat} {held : Mutex → Nat}

theorem held_of_allowed_release (t : Thread) (m : Mutex) (held : Mutex → Nat)
    (h : allowed t (.release m) held) : 0 < held m := by
  cases t with
  | poll => exact h
  | user =>
      cases m with
      | client => exact h
      | close i => exact h
      | message i => exact Nat.lt_of_lt_of_eq Nat.one_pos (Eq.symm h)

theorem InCall.after_message (h : InCall i held) :
    InCall i ((Op.acquire (.message i) : Step).after held) := by
  constructor
  · rw [Op.after_acquire_of_ne held (by simp)]
    exact h.1
  · intro m hclient hmessage
    rw [Op.after_acquire_of_ne held hmessage]
    exact h.2 m hclient hmessage

theorem inside_after_message (hclose : 0 < held (.close i)) (honly : Only i held) :
    Inside i ((Op.acquire (.message i) : Step).after held) := by
  refine ⟨?_, by simp, ?_⟩
  · rwa [Op.after_acquire_of_ne held (by simp)]
  · intro m hm
    rw [Op.after_acquire_of_ne held]
    · exact honly m hm
    · rintro rfl
      exact hm rfl

theorem Inside.client_free (h : Inside i held) : held .client = 0 := h.2.2 _ id

theorem testClosed_neutral (h : allowed t (.acquire (.close i)) held) :
    Neutral (allowed t) held (testClosed i) := by
  apply Neutral.pair h
  cases t with
  | user => simp [allowed]
  | poll => simp [allowed]

theorem call_disciplined (i : Nat) : Disciplined (allowed .user) (call i) fun _ => 0 := by
  have hcall : InCall i ((Op.acquire .client : Step).after fun _ => 0) := by
    constructor
    · simp
    · intro m hclient _
      rw [Op.after_acquire_of_ne _ hclient]
  have hfree : ((Op.acquire .client : Step).after fun _ => 0) (.message i) = 0 := by
    rw [Op.after_acquire_of_ne _ (by simp)]
  have hmessage : ∀ ops : List Step,
      Neutral (allowed .user) ((Op.acquire (.message i) : Step).after
        ((Op.acquire .client : Step).after fun _ => 0)) ops →
      Neutral (allowed .user) ((Op.acquire .client : Step).after fun _ => 0)
        (.acquire (.message i) :: ops ++ [.release (.message i)]) := by
    intro ops hops
    apply Neutral.bracket ⟨hcall, hfree⟩ hops
    show _ = 1
    rw [Op.after_acquire_self, hfree]
  have hbody : Neutral (allowed .user) ((Op.acquire .client : Step).after fun _ => 0)
      (enableMessagePass i ++ enableRead i ++ setMsgCallback i ++ [.act (.setDisconnectCallback i)]
        ++ sendFrames i) := by
    apply Neutral.append
    · apply Neutral.append
      · apply Neutral.append
        · apply Neutral.append
          · exact hmessage [.act (.enableMessagePass i)] (.act trivial)
          · exact (testClosed_neutral (t := .user) hcall).append (.act trivial)
        · exact hmessage [] .nil
      · exact .act trivial
    · apply hmessage [.act (.enableWriteIfEmpty i), .act (.pushBack i)]
      exact (Neutral.act ⟨hcall.after_message, by simp⟩).append (.act trivial)
  have hclient : ∀ ops : List Step,
      Neutral (allowed .user) ((Op.acquire .client : Step).after fun _ => 0) ops →
      Neutral (allowed .user) (fun _ => 0) (.acquire .client :: ops ++ [.release .client]) := by
    intro ops hops
    exact .bracket (fun _ => rfl) hops (by simp [allowed])
  simpa [call] using (hclient _ hbody).disciplined

theorem close_neutral (h : (∀ m, held m = 0) ∨ Inside i held) :
    Neutral (allowed .poll) held (close i) :=
  .act h

/-- A callback of the poll thread, whose body may run inside both mutexes of its transport. -/
theorem message_neutral (hclose : 0 < held (.close i)) (honly : Only i held) {ops : List Step}
    (hops : ∀ held, Inside i held → Neutral (allowed .poll) held ops) :
    Neutral (allowed .poll) held (.acquire (.message i) :: ops ++ [.release (.message i)]) := by
  have hinside := inside_after_message hclose honly
  exact .bracket ⟨hclose, honly⟩ (hops _ hinside) hinside.2.1

theorem callback_neutral (hclose : 0 < held (.close i)) (honly : Only i held) (cb : Callback) :
    Neutral (allowed .poll) held (cb.steps i) := by
  have htest : ∀ held, Inside i held → Neutral (allowed .poll) held (testClosed i) :=
    fun held h => testClosed_neutral (Or.inr h.1)
  cases cb with
  | read closes =>
      apply message_neutral hclose honly
      intro held h
      apply (htest held h).append
      cases closes
      · exact .nil
      · exact close_neutral (Or.inr h)
  | write outcome =>
      apply message_neutral hclose honly
      intro held h
      apply (htest held h).append
      cases outcome with
      | goesOn => exact .nil
      | finishes => exact .act h
      | closes => exact close_neutral (Or.inr h)

theorem socketUpdate_disciplined (i : Nat) (reads : Option Bool) (writes : Option Outcome)
    (hangup : Bool) :
    Disciplined (allowed .poll) (socketUpdate i reads writes hangup) fun _ => 0 := by
  have honly : Only i ((Op.acquire (.close i) : Step).after fun _ => 0) := by
    intro m hm
    rw [Op.after_acquire_of_ne]
    rintro rfl
    exact hm rfl
  have hlock : ∀ callbacks, Neutral (allowed .poll) (fun _ => 0)
      (.acquire (.close i) :: [.act (.update i callbacks)] ++ [.release (.close i)]) := by
    intro callbacks
    exact .bracket (Or.inl fun _ => rfl) (.act ⟨by simp, honly⟩) (by simp [allowed])
  apply Neutral.disciplined
  apply (hlock _).append
  cases hangup
  · exact .nil
  · exact close_neutral (Or.inl fun _ => rfl)

/-- The steps of a `close` that found its transport open. -/
theorem closeOpen_neutral (h : (∀ m, held m = 0) ∨ Inside i held) :
    Neutral (allowed .poll) held
      [.acquire (.close i), .act (.markClosed i), .release (.close i), .act (.callDisconnectCb i)] := by
  have hlock : Neutral (allowed .poll) held
      (.acquire (.close i) :: [.act (.markClosed i)] ++ [.release (.close i)]) :=
    .bracket (h.imp_right fun hinside => hinside.1) (.act trivial) (by simp [allowed])
  exact hlock.append (.act h)

theorem removeConnection_neutral (h : (∀ m, held m = 0) ∨ Inside i held) :
    Neutral (allowed .poll) held removeConnection := by
  apply Neutral.pair
  · exact h.imp_right fun hinside => ⟨hinside.client_free, i, hinside⟩
  · simp [allowed]

theorem exec_neutral (t : Thread) (a : Act) (held : Mutex → Nat) (d : Data)
    (h : allowed t (.act a) held) : Neutral (allowed t) held (exec d a).2 := by
  cases t with
  | user =>
      cases a with
      | enableWriteIfEmpty i =>
          simp only [exec]
          split_ifs
          · exact (testClosed_neutral (t := .user) h.1).append (.act trivial)
          · exact .nil
      | enableMessagePass | expectRead | expectWrite | setDisconnectCallback | pushBack =>
          exact .nil
      | popFront | update | runCallback | closeUnlessClosed | markClosed | callDisconnectCb =>
          exact h.elim
  | poll =>
      cases a with
      | popFront i =>
          simp only [exec]
          split_ifs
          · exact (testClosed_neutral (t := .poll) (Or.inr h.1)).append (.act trivial)
          · exact .nil
      | update i callbacks =>
          simp only [exec]
          split_ifs
          · exact .nil
          · rw [List.map_eq_flatMap]
            exact .flatMap fun cb _ => .act h
      | runCallback i cb =>
          simp only [exec]
          split_ifs
          · exact callback_neutral h.1 h.2 cb
          · exact .nil
      | closeUnlessClosed i =>
          simp only [exec]
          split_ifs
          · exact .nil
          · exact closeOpen_neutral h
      | callDisconnectCb i =>
          simp only [exec]
          split_ifs
          · exact removeConnection_neutral h
          · exact .nil
      | markClosed i =>
          simp only [exec]
          split_ifs
          · exact .nil
          · exact .nil
      | expectWrite => exact .nil
      | enableMessagePass | expectRead | setDisconnectCallback | enableWriteIfEmpty | pushBack =>
          exact h.elim

end

end Ros2Proto.CallLocking
