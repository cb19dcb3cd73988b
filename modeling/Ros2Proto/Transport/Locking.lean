import Ros2Proto.Base.Locks
import Ros2Proto.Base.Runs

/-!
# The transport's two mutexes

The lock steps of `socketUpdate`, which the poll thread calls, and of `sendFrames`, which any other
thread may call, on `close_mutex_` and `message_mutex_`. `socketUpdate` holds `close_mutex_` while
`readMessage` or `writeMessage` takes `message_mutex_`. `sendFrames` holds `message_mutex_` while
`enableWrite` takes `close_mutex_`, which it does only where `send_msgs_` is empty, so the length of
the queue is part of the state.

Each side takes its mutexes in an order of its own, and the two orders are opposite. So the poll
thread and a sender can each hold one mutex and wait for the other.
-/

namespace Ros2Proto.Locking

open Locks FallibleRun

inductive Mutex
  | close
  | message
  deriving DecidableEq

/-- What is done with `send_msgs_` under `message_mutex_`. -/
inductive QueueAct
  | enableWriteIfEmpty
  | pushBack
  | popFront
  deriving DecidableEq

abbrev Step := Op Mutex QueueAct

/-! ### The functions -/

/-- `close_mutex_` around a test of `closed_`, as in `read`, `write`, `enableWrite` and
`disableWrite`. -/
def testClosed : List Step := [.acquire .close, .release .close]

def read : List Step := testClosed
def write : List Step := testClosed
def enableWrite : List Step := testClosed
def disableWrite : List Step := testClosed

/-- `close()` of an open transport. -/
def close : List Step := [.acquire .close, .release .close]

/-- The queue's length after an act, and the steps that follow from it. -/
def exec (queue : Nat) : QueueAct → Nat × List Step
  | .enableWriteIfEmpty => (queue, if queue = 0 then enableWrite else [])
  | .pushBack => (queue + 1, [])
  | .popFront => (queue - 1, if queue - 1 = 0 then disableWrite else [])

/-- `sendFrames`, where the filter lets the message pass or not. -/
def sendFrames (passes : Bool) : List Step :=
  .acquire .message :: (if passes then [.act .enableWriteIfEmpty, .act .pushBack] else [])
    ++ [.release .message]

/-- What else a callback calls on this transport: `close` when a read or write failed or the count
is zero, and what `readmsg_cb_` or `disconnect_cb_` calls. -/
inductive Call
  | close
  | sendFrames (passes : Bool)

def Call.steps : Call → List Step
  | .close => Locking.close
  | .sendFrames passes => Locking.sendFrames passes

def readMessage (calls : List Call) : List Step :=
  .acquire .message :: (read ++ calls.flatMap Call.steps) ++ [.release .message]

/-- `writeMessage`, where the write finishes the front message or not. -/
def writeMessage (finishes : Bool) (calls : List Call) : List Step :=
  .acquire .message :: (write ++ (if finishes then [.act .popFront] else [])
    ++ calls.flatMap Call.steps) ++ [.release .message]

/-- `socketUpdate`, with the callbacks it runs and whether the events ask to close. -/
def socketUpdate (reads : Option (List Call)) (writes : Option (Bool × List Call))
    (hangup : Bool) : List Step :=
  .acquire .close :: (reads.elim [] readMessage ++ writes.elim [] fun w => writeMessage w.1 w.2)
    ++ [.release .close] ++ if hangup then close else []

/-! ### The threads -/

inductive Thread (ι : Type*)
  | poll
  | sender (i : ι)
  deriving DecidableEq

/-- An event of a run: a thread begins a call, or takes its next step. -/
inductive Event (ι : Type*)
  | socketUpdate (reads : Option (List Call)) (writes : Option (Bool × List Call)) (hangup : Bool)
  | sendFrames (i : ι) (passes : Bool)
  | advance (t : Thread ι)

abbrev State (ι : Type*) := Locks.State (Thread ι) Mutex QueueAct Nat

variable {ι : Type*}

def onEvent [DecidableEq ι] (s : State ι) : Event ι → Except (Thread ι × Mutex) (State ι)
  | .socketUpdate reads writes hangup =>
    .ok (s.start .poll (Locking.socketUpdate reads writes hangup))
  | .sendFrames i passes => .ok (s.start (.sender i) (Locking.sendFrames passes))
  | .advance t => s.advance exec t

/-- No thread running and nothing queued. -/
def idle : State ι := .idle 0

section

variable [DecidableEq ι]

/-- The poll thread holds `close_mutex_` and is about to run a callback. -/
def AtCallback (s : State ι) : Prop := s.Holds .poll .close ∧ s.Wants .poll .message

/-- A sender found the queue empty and is about to take `close_mutex_` in `enableWrite`. -/
def AtEnableWrite (s : State ι) (i : ι) : Prop :=
  s.Holds (.sender i) .message ∧ s.Wants (.sender i) .close

/-- No sender tests the queue and finds it empty while the poll thread is about to run a callback,
and the poll thread does not enter `socketUpdate` to run a callback while a sender is about to take
`close_mutex_`. -/
def Apart (s : State ι) : Event ι → Prop
  | .advance (.sender i) =>
    (∃ rest, s.code (.sender i) = .act .enableWriteIfEmpty :: rest) → s.data = 0 → ¬ AtCallback s
  | .advance .poll =>
    (∃ rest, s.code .poll = .acquire .close :: .acquire .message :: rest) →
      ∀ i, ¬ AtEnableWrite s i
  | _ => True

end

/-! ### The two orders -/

/-- What each thread may do with what it holds. The poll thread takes `message_mutex_` only inside
`close_mutex_`, and a sender takes `close_mutex_` only inside `message_mutex_`. -/
def allowed : Thread ι → Step → (Mutex → Nat) → Prop
  | .poll, .acquire .close, held =>
    (held .close = 0 ∧ held .message = 0) ∨ (0 < held .close ∧ 0 < held .message)
  | .poll, .acquire .message, held => 0 < held .close
  | .poll, .release .close, held => 0 < held .close ∧ (held .message = 0 → held .close = 1)
  | .poll, .release .message, held => 0 < held .message
  | .poll, .act _, held => 0 < held .close ∧ 0 < held .message
  | .sender _, .acquire .close, held => held .close = 0 ∧ 0 < held .message
  | .sender _, .acquire .message, held => held .close = 0
  | .sender _, .release .close, held => 0 < held .close ∧ 0 < held .message
  | .sender _, .release .message, held => 0 < held .message ∧ held .close = 0
  | .sender _, .act _, held => held .close = 0 ∧ 0 < held .message

@[simp] theorem after_acquire_close (held : Mutex → Nat) :
    (Op.acquire .close : Step).after held .message = held .message :=
  Op.after_acquire_of_ne held nofun

@[simp] theorem after_acquire_message (held : Mutex → Nat) :
    (Op.acquire .message : Step).after held .close = held .close :=
  Op.after_acquire_of_ne held nofun

theorem held_of_allowed_release (t : Thread ι) (m : Mutex) (held : Mutex → Nat)
    (h : allowed t (.release m) held) : 0 < held m := by
  cases t <;> cases m
  · exact h.1
  · exact h
  · exact h.1
  · exact h.1

/-- `close_mutex_` taken and given back, by a thread that acts on the queue. -/
theorem testClosed_neutral {t : Thread ι} {held : Mutex → Nat} {a : QueueAct}
    (h : allowed t (.act a) held) : Neutral (allowed t) held testClosed := by
  refine Neutral.pair ?_ ?_
  · cases t
    · exact .inr h
    · exact h
  · cases t
    · refine ⟨by simp, ?_⟩
      have := h.2
      simp
      omega
    · refine ⟨by simp, ?_⟩
      simpa using h.2

/-- `sendFrames`, by a thread that may take `message_mutex_` and act on the queue inside it. -/
theorem sendFrames_neutral {t : Thread ι} {held : Mutex → Nat} (passes : Bool)
    (hacquire : allowed t (.acquire .message) held)
    (hact : ∀ a, allowed t (.act a) ((Op.acquire .message : Step).after held)) :
    Neutral (allowed t) held (sendFrames passes) := by
  refine Neutral.bracket hacquire ?_ ?_
  · cases passes
    · exact .nil
    · exact (Neutral.act (hact _)).append (.act (hact _))
  · have := hact .pushBack
    cases t
    · exact this.2
    · exact this.symm

theorem sendFrames_disciplined (i : ι) (passes : Bool) :
    Disciplined (allowed (.sender i)) (sendFrames passes) fun _ => 0 := by
  have hacquire : allowed (.sender i) (.acquire .message) fun _ => 0 := rfl
  exact (sendFrames_neutral passes hacquire fun _ => ⟨by simp, by simp⟩).disciplined

theorem calls_neutral {held : Mutex → Nat} (hclose : 0 < held .close) (hmessage : 0 < held .message)
    (calls : List Call) :
    Neutral (allowed (.poll : Thread ι)) held (calls.flatMap Call.steps) := by
  refine Neutral.flatMap fun c _ => ?_
  cases c with
  | close => exact testClosed_neutral (a := .pushBack) ⟨hclose, hmessage⟩
  | sendFrames passes =>
      exact sendFrames_neutral passes hclose fun _ => ⟨by simpa using hclose, by simp⟩

/-- A callback, run with `close_mutex_` held. -/
theorem callback_neutral {held : Mutex → Nat} (hclose : 0 < held .close) (finishes : Bool)
    (calls : List Call) :
    Neutral (allowed (.poll : Thread ι)) held (.acquire .message :: (testClosed
      ++ (if finishes then [.act .popFront] else []) ++ calls.flatMap Call.steps)
      ++ [.release .message]) := by
  have hact : ∀ a, allowed (.poll : Thread ι) (.act a) ((Op.acquire .message : Step).after held) :=
    fun _ => ⟨by simpa using hclose, by simp⟩
  refine Neutral.bracket hclose ?_ (hact .pushBack).2
  refine ((testClosed_neutral (hact .pushBack)).append ?_).append
    (calls_neutral (hact .pushBack).1 (hact .pushBack).2 calls)
  cases finishes
  · exact .nil
  · exact .act (hact _)

theorem socketUpdate_disciplined (reads : Option (List Call)) (writes : Option (Bool × List Call))
    (hangup : Bool) :
    Disciplined (allowed (.poll : Thread ι)) (socketUpdate reads writes hangup) fun _ => 0 := by
  have hclose : 0 < (Op.acquire .close : Step).after (fun _ => 0) .close := by simp
  refine Neutral.disciplined (.append (.bracket (.inl ⟨rfl, rfl⟩) (.append ?_ ?_) ?_) ?_)
  · cases reads with
    | none => exact .nil
    | some calls => simpa [readMessage, read] using callback_neutral hclose false calls
  · cases writes with
    | none => exact .nil
    | some w => exact callback_neutral hclose w.1 w.2
  · exact ⟨hclose, fun _ => by simp⟩
  · cases hangup
    · exact .nil
    · exact .pair (.inl ⟨rfl, rfl⟩) ⟨hclose, fun _ => by simp⟩

theorem exec_neutral (t : Thread ι) (a : QueueAct) (held : Mutex → Nat) (queue : Nat)
    (h : allowed t (.act a) held) : Neutral (allowed t) held (exec queue a).2 := by
  cases a with
  | enableWriteIfEmpty =>
      simp only [exec]
      split_ifs
      · exact testClosed_neutral h
      · exact .nil
  | pushBack => exact .nil
  | popFront =>
      simp only [exec]
      split_ifs
      · exact testClosed_neutral h
      · exact .nil

/-- The order in which a thread takes its mutexes. -/
def order : Thread ι → Mutex → Mutex → Prop
  | .poll, m, n => m = .close ∧ n = .message
  | .sender _, m, n => m = .message ∧ n = .close

theorem order_of_allowed (t : Thread ι) (m : Mutex) (held : Mutex → Nat)
    (h : allowed t (.acquire m) held) (hfree : held m = 0) (n : Mutex) (hn : 0 < held n) :
    order t n m := by
  cases t <;> cases m <;> cases n <;> simp_all [allowed, order]

/-! ### Runs -/

section

variable [DecidableEq ι]

/-- The poll thread and the sender `i` each hold a mutex and wait for the other's. -/
def Inverted (s : State ι) (i : ι) : Prop := AtCallback s ∧ AtEnableWrite s i

/-- Between two events. A sender's own code takes `close_mutex_` nowhere but in an `enableWrite` it
has come to. -/
structure Safe (s : State ι) : Prop where
  keeps : s.Keeps allowed
  enableWrite_first : ∀ i, .acquire .close ∉ (s.code (.sender i)).tail
  no_pop : ∀ i, .act .popFront ∉ s.code (.sender i)
  not_inverted : ∀ i, ¬ Inverted s i

/-- Two threads wait for each other only if one is the poll thread at a callback and the other a
sender at `enableWrite`. -/
theorem crossWait_iff {s : State ι} (h : s.Keeps allowed) : s.CrossWait ↔ ∃ i, Inverted s i := by
  constructor
  · rintro ⟨t, u, m, n, hm, hwn, hnn, hn, hwm, hnm⟩
    have horder := h.lt_of_waits (order_of_allowed t) hm hwn hnn
    have horder' := h.lt_of_waits (order_of_allowed u) hn hwm hnm
    cases t with
    | poll =>
        cases u with
        | poll => exact absurd hn hnn
        | sender i =>
            obtain ⟨rfl, rfl⟩ := horder
            exact ⟨i, ⟨hm, hwn⟩, hn, hwm⟩
    | sender i =>
        cases u with
        | poll =>
            obtain ⟨rfl, rfl⟩ := horder'
            exact ⟨i, ⟨hn, hwm⟩, hm, hwn⟩
        | sender j =>
            obtain ⟨rfl, rfl⟩ := horder
            exact absurd horder'.1 (by decide)
  · rintro ⟨i, ⟨hclose, hwants⟩, hmessage, hwants'⟩
    refine ⟨.poll, .sender i, .close, .message, hclose, hwants, fun hpoll => ?_, hmessage, hwants',
      fun hsender => ?_⟩
    · cases State.holds_unique hpoll hmessage
    · cases State.holds_unique hclose hsender

theorem safe_idle : Safe (idle : State ι) where
  keeps := State.keeps_idle 0
  enableWrite_first _ := by simp [idle, State.idle]
  no_pop _ := by simp [idle, State.idle]
  not_inverted := by
    rintro i ⟨⟨hheld, -⟩, -⟩
    exact absurd hheld (Nat.lt_irrefl 0)

/-- The poll thread begins a call. -/
theorem Safe.start_poll {s : State ι} (h : Safe s) {ops : List Step}
    (hops : Disciplined (allowed (.poll : Thread ι)) ops fun _ => 0) : Safe (s.start .poll ops) := by
  have hsender : ∀ i, (s.start .poll ops).code (.sender i) = s.code (.sender i) := fun i =>
    State.code_start_of_ne s (by simp) ops
  refine ⟨h.keeps.start hops, fun i => hsender i ▸ h.enableWrite_first i,
    fun i => hsender i ▸ h.no_pop i, ?_⟩
  intro i hinverted
  by_cases hrest : s.code .poll = []
  · exact h.keeps.not_holds_of_rest hrest _ ((s.holds_start ..).mp hinverted.1.1)
  · rw [State.start, if_neg hrest] at hinverted
    exact h.not_inverted i hinverted

/-- A sender begins a call. -/
theorem Safe.start_sender {s : State ι} (h : Safe s) (i : ι) (passes : Bool) :
    Safe (s.start (.sender i) (sendFrames passes)) := by
  have hcode : ∀ j, (s.start (.sender i) (sendFrames passes)).code (.sender j)
      = s.code (.sender j) ∨ j = i ∧ s.code (.sender i) = [] ∧
        (s.start (.sender i) (sendFrames passes)).code (.sender j) = sendFrames passes := by
    intro j
    by_cases hj : j = i
    · subst hj
      rw [State.code_start_self]
      split_ifs with hrest
      · exact .inr ⟨rfl, hrest, rfl⟩
      · exact .inl rfl
    · exact .inl (State.code_start_of_ne s (by simpa using hj) _)
  refine ⟨h.keeps.start (sendFrames_disciplined i passes), fun j => ?_, fun j => ?_, ?_⟩
  · obtain hsame | ⟨-, -, hnew⟩ := hcode j
    · exact hsame ▸ h.enableWrite_first j
    · rw [hnew]
      cases passes <;> decide
  · obtain hsame | ⟨-, -, hnew⟩ := hcode j
    · exact hsame ▸ h.no_pop j
    · rw [hnew]
      cases passes <;> decide
  · intro j hinverted
    obtain ⟨⟨hclose, hwants⟩, hmessage, hwants'⟩ := hinverted
    rw [State.Wants, State.code_start_of_ne s (by simp)] at hwants
    rw [State.holds_start] at hclose hmessage
    obtain hsame | ⟨rfl, hrest, -⟩ := hcode j
    · rw [State.Wants, hsame] at hwants'
      exact h.not_inverted j ⟨⟨hclose, hwants⟩, hmessage, hwants'⟩
    · exact h.keeps.not_holds_of_rest hrest _ hmessage

/-- The poll thread takes a step. -/
theorem Safe.took_poll {s s' : State ι} (h : Safe s) (hkeeps : s'.Keeps allowed) {op : Step}
    {rest : List Step} (htook : s.Took exec .poll op rest s') (hapart : Apart s (.advance .poll)) :
    Safe s' := by
  have hsender : ∀ i, s'.code (.sender i) = s.code (.sender i) := fun i =>
    htook.code_other _ (by simp)
  refine ⟨hkeeps, fun i => hsender i ▸ h.enableWrite_first i, fun i => hsender i ▸ h.no_pop i, ?_⟩
  intro i hinverted
  obtain ⟨⟨hclose, hwants⟩, hmessage, hwants'⟩ := hinverted
  have hnot : ¬ s'.Holds .poll .message := fun hpoll => by
    cases State.holds_unique hpoll hmessage
  have hat : AtEnableWrite s i :=
    ⟨(htook.holds_other (by simp)).mp hmessage, (htook.wants_other (by simp)).mp hwants'⟩
  have hbefore : s.held .poll .message = 0 := by
    by_contra hne
    cases State.holds_unique (Nat.pos_of_ne_zero hne : s.Holds .poll .message) hat.1
  have hop := h.keeps.allowed_next htook.code
  rw [State.Holds, htook.held_self] at hclose hnot
  rw [State.Wants, htook.code_self] at hwants
  -- Not holding `message_mutex_`, the poll thread comes to a callback only through `close_mutex_`.
  cases op with
  | acquire m =>
      cases m with
      | close =>
          obtain ⟨rest', hrest⟩ := hwants
          exact hapart ⟨rest', by rw [htook.code, ← hrest]; rfl⟩ i hat
      | message => exact hnot (by simp)
  | release m =>
      cases m with
      | close =>
          rw [Op.after, Function.update_self, hop.2 hbefore] at hclose
          exact Nat.lt_irrefl 0 hclose
      | message => exact absurd hop (by simp [allowed, hbefore])
  | act a => exact absurd hop.2 (by simp [hbefore])

/-- A sender's step puts further steps in front only where it finds the queue empty. -/
theorem Safe.expansion_sender {s : State ι} (h : Safe s) {i : ι} {op : Step} {rest : List Step}
    (hcode : s.code (.sender i) = op :: rest) :
    s.expansion exec op = [] ∨
      op = .act .enableWriteIfEmpty ∧ s.data = 0 ∧ s.expansion exec op = enableWrite := by
  cases op with
  | acquire m => exact .inl rfl
  | release m => exact .inl rfl
  | act a =>
      cases a with
      | enableWriteIfEmpty =>
          by_cases hempty : s.data = 0
          · exact .inr ⟨rfl, hempty, if_pos hempty⟩
          · exact .inl (if_neg hempty)
      | pushBack => exact .inl rfl
      | popFront => exact absurd (by simp [hcode]) (h.no_pop i)

/-- A sender takes a step. -/
theorem Safe.took_sender {s s' : State ι} (h : Safe s) (hkeeps : s'.Keeps allowed) {i : ι}
    {op : Step} {rest : List Step} (htook : s.Took exec (.sender i) op rest s')
    (hapart : Apart s (.advance (.sender i))) : Safe s' := by
  have hrest : .acquire .close ∉ rest := by
    have := h.enableWrite_first i
    rwa [htook.code] at this
  have hnoPop : .act .popFront ∉ rest := fun hmem => h.no_pop i (by simp [htook.code, hmem])
  have hother : ∀ j, j ≠ i → s'.code (.sender j) = s.code (.sender j) := fun j hj =>
    htook.code_other _ (by simpa using hj)
  have hexpansion := h.expansion_sender htook.code
  refine ⟨hkeeps, fun j => ?_, fun j => ?_, ?_⟩
  · by_cases hj : j = i
    · subst hj
      rw [htook.code_self]
      obtain hnone | ⟨-, -, henable⟩ := hexpansion
      · rw [hnone, List.nil_append]
        exact fun hmem => hrest (List.mem_of_mem_tail hmem)
      · rw [henable]
        simpa [enableWrite, testClosed] using hrest
    · exact hother j hj ▸ h.enableWrite_first j
  · by_cases hj : j = i
    · subst hj
      rw [htook.code_self]
      obtain hnone | ⟨-, -, henable⟩ := hexpansion
      · rwa [hnone, List.nil_append]
      · rw [henable]
        simpa [enableWrite, testClosed] using hnoPop
    · exact hother j hj ▸ h.no_pop j
  · intro j hinverted
    obtain ⟨hcallback, hmessage, hwants⟩ := hinverted
    have hbefore : AtCallback s :=
      ⟨(htook.holds_other (by simp)).mp hcallback.1, (htook.wants_other (by simp)).mp hcallback.2⟩
    by_cases hj : j = i
    · subst hj
      obtain ⟨rest', hcode⟩ := hwants
      rw [htook.code_self] at hcode
      obtain hnone | ⟨rfl, hempty, -⟩ := hexpansion
      · rw [hnone, List.nil_append] at hcode
        exact hrest (by simp [hcode])
      · exact hapart ⟨rest, htook.code⟩ hempty hbefore
    · have hne : Thread.sender j ≠ Thread.sender i := by simpa using hj
      exact h.not_inverted j
        ⟨hbefore, (htook.holds_other hne).mp hmessage, (htook.wants_other hne).mp hwants⟩

/-- Any event that keeps the two calls apart. -/
theorem Safe.step {s : State ι} {e : Event ι} (h : Safe s) (hapart : Apart s e) :
    ∃ s', onEvent s e = .ok s' ∧ Safe s' := by
  cases e with
  | socketUpdate reads writes hangup =>
      exact ⟨_, rfl, h.start_poll (socketUpdate_disciplined reads writes hangup)⟩
  | sendFrames i passes => exact ⟨_, rfl, h.start_sender i passes⟩
  | advance t =>
      obtain ⟨s', hrun, hkeeps, ⟨rfl, -⟩ | ⟨op, rest, htook⟩⟩ :=
        h.keeps.advance exec held_of_allowed_release
          (fun t a held queue hact => exec_neutral t a held queue hact) t
      · exact ⟨s', hrun, h⟩
      · refine ⟨s', hrun, ?_⟩
        cases t with
        | poll => exact h.took_poll hkeeps htook hapart
        | sender i => exact h.took_sender hkeeps htook hapart

/-- A sender holds `close_mutex_` only inside `message_mutex_`. -/
theorem holds_message_of_close {s : State ι} (h : s.Keeps allowed) {i : ι}
    (hclose : s.Holds (.sender i) .close) : s.Holds (.sender i) .message := by
  cases hcode : s.code (.sender i) with
  | nil => exact absurd hclose (h.not_holds_of_rest hcode _)
  | cons op rest =>
      have hop := h.allowed_next hcode
      rw [State.Holds] at hclose ⊢
      cases op with
      | acquire m => cases m <;> simp only [allowed] at hop <;> omega
      | release m => cases m <;> simp only [allowed] at hop <;> omega
      | act a => exact hop.2

/-- Any other event leads the two threads to wait for each other. -/
theorem Safe.step_inverted {s : State ι} {e : Event ι} (h : Safe s) (hapart : ¬ Apart s e) :
    ∃ s' i, onEvent s e = .ok s' ∧ s'.Keeps allowed ∧ Inverted s' i := by
  cases e with
  | socketUpdate reads writes hangup => exact absurd trivial hapart
  | sendFrames i passes => exact absurd trivial hapart
  | advance t =>
      obtain ⟨s', hrun, hkeeps, hcases⟩ :=
        h.keeps.advance exec held_of_allowed_release
          (fun t a held queue hact => exec_neutral t a held queue hact) t
      cases t with
      | poll =>
          rw [Apart, Classical.not_imp, not_forall_not] at hapart
          obtain ⟨⟨rest, hcode⟩, i, hat⟩ := hapart
          obtain ⟨rest', hwants⟩ := hat.2
          obtain ⟨rfl, hnil | ⟨m, u, ⟨rest'', hnext⟩, hne, hholds⟩⟩ | ⟨op, rest'', htook⟩ := hcases
          · rw [hcode] at hnil
            cases hnil
          · -- Nothing holds `close_mutex_`: its holder would be the sender that waits for it.
            rw [hcode] at hnext
            cases hnext
            cases u with
            | poll => exact absurd rfl hne
            | sender j =>
                cases State.holds_unique (holds_message_of_close h.keeps hholds) hat.1
                have hfree := (h.keeps.allowed_next hwants).1
                rw [State.Holds, hfree] at hholds
                exact absurd hholds (Nat.lt_irrefl 0)
          · have hsame := hcode.symm.trans htook.code
            cases hsame
            refine ⟨s', i, hrun, hkeeps, ⟨?_, rest, htook.code_self⟩,
              (htook.holds_other (by simp)).mpr hat.1, (htook.wants_other (by simp)).mpr hat.2⟩
            rw [State.Holds, htook.held_self]
            simp
      | sender i =>
          rw [Apart, Classical.not_imp, Classical.not_imp, not_not] at hapart
          obtain ⟨⟨rest, hcode⟩, hempty, hclose, hwants⟩ := hapart
          obtain hstays | ⟨op, rest', htook⟩ := hcases
          · exact absurd hstays (State.not_stays hcode (Op.act_ne_acquire _))
          · have hsame := hcode.symm.trans htook.code
            cases hsame
            have hfront : s.expansion exec (.act .enableWriteIfEmpty) = enableWrite := if_pos hempty
            refine ⟨s', i, hrun, hkeeps, ⟨(htook.holds_other (by simp)).mpr hclose,
              (htook.wants_other (by simp)).mpr hwants⟩, ?_, htook.wants_self hfront⟩
            rw [State.Holds, htook.held_self]
            exact (h.keeps.allowed_next hcode).2

/-- **The two threads wait for each other exactly where the calls are not kept apart.** On the left,
no `sendFrames` of the run finds the queue empty while the poll thread is about to run a callback,
and the poll thread never enters `socketUpdate` to run one while a `sendFrames` is about to take
`close_mutex_`. On the right, no state on the way has two threads that each hold a mutex and wait for
the one the other holds. -/
theorem no_deadlock_iff (events : List (Event ι)) :
    Along onEvent Apart (idle : State ι) events ↔
      ∀ before, before <+: events →
        ∃ s, run onEvent (idle : State ι) before = .ok s ∧ ¬ s.CrossWait := by
  constructor
  · intro happart before hbefore
    obtain ⟨s, hrun, hsafe⟩ := run_invariant (I := Safe) (fun _ _ hsafe hstep => hsafe.step hstep)
      safe_idle (happart.of_prefix hbefore)
    refine ⟨s, hrun, fun hcross => ?_⟩
    obtain ⟨i, hinverted⟩ := (crossWait_iff hsafe.keeps).mp hcross
    exact hsafe.not_inverted i hinverted
  · intro hfree
    by_contra hnot
    obtain ⟨before, e, after, s, rfl, happart, hrun, hstep⟩ := exists_first_failure hnot
    obtain ⟨s₁, hrun₁, hsafe⟩ := run_invariant (I := Safe) (fun _ _ hsafe hstep => hsafe.step hstep)
      safe_idle happart
    obtain rfl := Except.ok.inj (hrun.symm.trans hrun₁)
    obtain ⟨s', i, hnext, hkeeps, hinverted⟩ := hsafe.step_inverted hstep
    obtain ⟨s'', hrun', hno⟩ := hfree (before ++ [e]) ⟨after, by simp⟩
    rw [run_concat_of_run hrun, hnext] at hrun'
    obtain rfl := Except.ok.inj hrun'
    exact hno ((crossWait_iff hkeeps).mpr ⟨i, hinverted⟩)

/-- The poll thread takes `close_mutex_` to read, a sender takes `message_mutex_` and finds the queue
empty: each waits for the other. -/
theorem publish_while_polling_deadlocks :
    ∃ s, run onEvent (idle : State Unit)
        [.socketUpdate (some []) none false, .sendFrames () true, .advance .poll,
          .advance (.sender ()), .advance (.sender ())] = .ok s ∧ s.CrossWait := by
  refine ⟨_, rfl, .poll, .sender (), .close, .message, ?_⟩
  exact ⟨by decide, ⟨_, rfl⟩, by decide, by decide, ⟨_, rfl⟩, by decide⟩

end

end Ros2Proto.Locking
