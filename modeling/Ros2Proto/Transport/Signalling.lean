import Ros2Proto.Base.Locks
import Ros2Proto.Base.Runs
import Ros2Proto.Transport.PollSet

/-!
# Waking the poll thread

`PollSet::signal` and the pipe behind it. The poll thread builds its array and waits in `poll`; any other
thread may change the set meanwhile, and writes a byte to the pipe so that `poll` returns and the array is
built anew. `signal` only tries to take its mutex, and does nothing where another thread has it. All
functions change the set under `socket_info_mutex_`, and all but `addSocket` keep it while they signal.

A thread that fails to take `signal_mutex_` counts on the byte of the thread that has it. That byte may be
written, read and acted upon before the change it should announce, if its thread is past the write and holds
nothing that keeps the poll thread from going on. So a change goes unannounced only behind the back of an
`addSocket` between its write and its release, and then until `poll` times out.

The time for which the loop of `update` takes `socket_info_mutex_` to look sockets up is not part of the
model, nor is `just_deleted_mutex_`, which nothing is waited for under.
-/

namespace Ros2Proto

open Assignment FallibleRun Locks Std

def PollCall.sock : PollCall → Int
  | addSocket sock => sock
  | delSocket sock => sock
  | addEvents sock _ => sock
  | delEvents sock _ => sock

/-- What the function returns, which is whether it changes the set and signals. -/
def PollSet.returns (p : PollSet) : PollCall → Bool
  | .addSocket fd => fd ∉ p.socketInfo
  | .delSocket fd => ¬ fd < 0 ∧ fd ∈ p.socketInfo
  | .addEvents sock _ => sock ∈ p.socketInfo
  | .delEvents sock _ => sock ∈ p.socketInfo

namespace PollSet

variable {p : PollSet} {c : PollCall}

theorem onCall_of_not_returns (h : p.returns c = false) (i : Nat) : p.onCall i c = p := by
  cases c with
  | addSocket fd =>
      rw [returns, decide_eq_false_iff_not, not_not] at h
      exact if_pos h
  | delSocket fd =>
      rw [returns, decide_eq_false_iff_not] at h
      show p.delSocket fd = p
      rw [delSocket]
      split_ifs with hneg hmem
      · rfl
      · exact absurd ⟨hneg, hmem⟩ h
      · rfl
  | addEvents sock events | delEvents sock events =>
      rw [returns, decide_eq_false_iff_not, ExtTreeMap.mem_iff_isSome_getElem?,
        Option.not_isSome_iff_eq_none] at h
      simp only [onCall, addEvents, delEvents, h]

/-- What no call changes, and what a call about another socket does not. -/
structure Alike (fd : Int) (p p' : PollSet) : Prop where
  ufds : p'.ufds = p.ufds
  signalPipe : p'.signalPipe = p.signalPipe
  changed : p.socketsChanged = true → p'.socketsChanged = true
  entry : p'.socketInfo[fd]? = p.socketInfo[fd]?

theorem alike_refl (fd : Int) (p : PollSet) : Alike fd p p := ⟨rfl, rfl, id, rfl⟩

theorem alike_onCall {fd : Int} (h : c.sock ≠ fd) (p : PollSet) (i : Nat) :
    Alike fd p (p.onCall i c) := by
  replace h : fd ≠ c.sock := h.symm
  cases c with
  | addSocket sock =>
      have hne : fd ≠ sock := h
      show Alike fd p (p.addSocket sock (some i))
      rw [addSocket]
      split_ifs
      · exact alike_refl fd p
      · exact ⟨rfl, rfl, fun _ => rfl, getElem?_insert_of_ne _ hne _⟩
  | delSocket sock =>
      have hne : fd ≠ sock := h
      show Alike fd p (p.delSocket sock)
      rw [delSocket]
      split_ifs
      · exact alike_refl fd p
      · exact ⟨rfl, rfl, fun _ => rfl, getElem?_erase_of_ne _ hne⟩
      · exact alike_refl fd p
  | addEvents sock events =>
      have hne : fd ≠ sock := h
      show Alike fd p (p.addEvents sock events)
      rw [addEvents]
      split
      · exact alike_refl fd p
      · exact ⟨rfl, rfl, id, getElem?_insert_of_ne _ hne _⟩
  | delEvents sock events =>
      have hne : fd ≠ sock := h
      show Alike fd p (p.delEvents sock events)
      rw [delEvents]
      split
      · exact alike_refl fd p
      · exact ⟨rfl, rfl, id, getElem?_insert_of_ne _ hne _⟩

end PollSet

namespace Signalling

inductive Thread (ι : Type*)
  | poll
  | user (i : ι)
  deriving DecidableEq

inductive Mutex
  | socketInfo
  deriving DecidableEq

/-- A call on the set, for the transport with the given number. -/
abbrev Call := Nat × PollCall

inductive Act (ι : Type*)
  | change (t : Thread ι) (c : Call)
  /-- `signal` up to its try at `signal_mutex_`, by a function that returns true -/
  | signal (t : Thread ι)
  | writeSignal (t : Thread ι)
  | unlock (t : Thread ι)
  | createNativePollset
  /-- `poll` returns, and update functions make calls before and after the one of the pipe -/
  | poll (before after : List Call)
  /-- the loop of `onLocalPipeEvents` -/
  | readSignal

abbrev Step (ι : Type*) := Op Mutex (Act ι)

structure Data (ι : Type*) where
  pollSet : PollSet
  /-- the bytes in the pipe, which holds one more than `room` -/
  pipe : Nat
  room : Nat
  signalMutex : Option (Thread ι)
  /-- what the function that a thread is in, or was in last, returns -/
  returned : Thread ι → Bool

abbrev State (ι : Type*) := Locks.State (Thread ι) Mutex (Act ι) (Data ι)

variable {ι : Type*}

/-! ### The functions -/

/-- `addSocket` signals after it has given `socket_info_mutex_` back. -/
def call (t : Thread ι) (c : Call) : List (Step ι) :=
  match c.2 with
  | .addSocket _ =>
    [.acquire .socketInfo, .act (.change t c), .release .socketInfo, .act (.signal t)]
  | _ => [.acquire .socketInfo, .act (.change t c), .act (.signal t), .release .socketInfo]

def update (before after : List Call) : List (Step ι) :=
  [.acquire .socketInfo, .act .createNativePollset, .release .socketInfo, .act (.poll before after)]

/-- `poll` is given the pipe and asked for input. -/
def Hears (p : PollSet) : Prop := (⟨p.signalPipe, POLLIN⟩ : PollFd) ∈ p.ufds

instance (p : PollSet) : Decidable (Hears p) :=
  inferInstanceAs (Decidable (_ ∈ p.ufds))

/-- With this, `poll` returns at once. -/
def Wakes (d : Data ι) : Prop := 0 < d.pipe ∧ Hears d.pollSet

instance (d : Data ι) : Decidable (Wakes d) := inferInstanceAs (Decidable (_ ∧ _))

section

variable [DecidableEq ι]

def exec (d : Data ι) : Act ι → Data ι × List (Step ι)
  | .change t c => ({ d with
      pollSet := d.pollSet.onCall c.1 c.2
      returned := Function.update d.returned t (d.pollSet.returns c.2) }, [])
  | .signal t =>
    if d.returned t = true ∧ d.signalMutex = none then
      ({ d with signalMutex := some t }, [.act (.writeSignal t), .act (.unlock t)])
    else (d, [])
  | .writeSignal _ => ({ d with pipe := if d.pipe ≤ d.room then d.pipe + 1 else d.pipe }, [])
  | .unlock _ => ({ d with signalMutex := none }, [])
  | .createNativePollset => ({ d with pollSet := d.pollSet.createNativePollset }, [])
  | .poll before after => (d, before.flatMap (call .poll) ++
      (if Wakes d then [.act .readSignal] else []) ++ after.flatMap (call .poll))
  | .readSignal => if d.pipe = 0 then (d, []) else ({ d with pipe := d.pipe - 1 }, [.act .readSignal])

/-- A thread begins a call or a round, or takes its next step. -/
inductive Event (ι : Type*)
  | update (before after : List Call)
  | call (i : ι) (c : Call)
  | advance (t : Thread ι)

/-- The descriptor of the pipe is the set's own, and no call is about it. -/
def onEvent (s : State ι) : Event ι → Except (Thread ι × Mutex) (State ι)
  | .update before after =>
    if ∀ c ∈ before ++ after, c.2.sock ≠ s.data.pollSet.signalPipe then
      .ok (s.start .poll (Signalling.update before after))
    else .ok s
  | .call i c =>
    if c.2.sock ≠ s.data.pollSet.signalPipe then .ok (s.start (.user i) (Signalling.call (.user i) c))
    else .ok s
  | .advance t => s.advance exec t

/-- A new set. Its constructor has signalled twice. -/
def create (signalPipe room : Nat) : State ι :=
  .idle ⟨.create signalPipe, min 2 (room + 1), room, none, fun _ => false⟩

/-- The poll thread is in `poll`. -/
def Waits (s : State ι) : Prop := ∃ before after rest, s.code .poll = .act (.poll before after) :: rest

/-- The array is not what it would be if it were built now. -/
def Stale (p : PollSet) : Prop := p.createNativePollset.ufds ≠ p.ufds

instance (p : PollSet) : Decidable (Stale p) := inferInstanceAs (Decidable (_ ≠ _))

/-- The next thing that is done, but for giving the mutex back, is to signal. -/
def Signals (t : Thread ι) (code : List (Step ι)) : Prop :=
  ∃ rest, code = .act (.signal t) :: rest ∨ code = .release .socketInfo :: .act (.signal t) :: rest

/-- The thread has changed the set and is about to try the mutex, or has it and is about to write. -/
def Announces (s : State ι) (t : Thread ι) : Prop :=
  (s.data.returned t = true ∧ Signals t (s.code t)) ∨
    ∃ rest, s.code t = .act (.writeSignal t) :: rest

/-- The thread has written and is about to give the mutex back. -/
def Written (s : State ι) (t : Thread ι) : Prop := ∃ rest, s.code t = .act (.unlock t) :: rest

/-- No thread fails to take `signal_mutex_` where another has written and keeps nothing but this mutex.
Such another thread is in `addSocket`. -/
def Timely (s : State ι) : Event ι → Prop
  | .advance (.user i) => s.data.returned (.user i) = true →
    (∃ rest, s.code (.user i) = .act (.signal (.user i)) :: rest) →
      ∀ j, s.data.signalMutex = some (.user j) → Written s (.user j) → s.Holds (.user j) .socketInfo
  | _ => True

/-! ### What a thread may do -/

/-- The set is changed, and the array built, under `socket_info_mutex_`, and each thread signals for
itself. -/
def allowed (pipe : Int) : Thread ι → Step ι → (Mutex → Nat) → Prop
  | _, .acquire .socketInfo, held => held .socketInfo = 0
  | _, .release .socketInfo, held => 0 < held .socketInfo
  | t, .act (.change u c), held => u = t ∧ 0 < held .socketInfo ∧ c.2.sock ≠ pipe
  | t, .act (.signal u), _ => u = t
  | t, .act (.writeSignal u), _ => u = t
  | t, .act (.unlock u), _ => u = t
  | t, .act .createNativePollset, held => t = .poll ∧ 0 < held .socketInfo
  | t, .act (.poll before after), held =>
    t = .poll ∧ held .socketInfo = 0 ∧ ∀ c ∈ before ++ after, c.2.sock ≠ pipe
  | t, .act .readSignal, _ => t = .poll

variable {pipe : Int} {t : Thread ι} {held : Mutex → Nat}

omit [DecidableEq ι] in
theorem call_neutral (t : Thread ι) (hheld : held .socketInfo = 0) {c : Call}
    (hc : c.2.sock ≠ pipe) : Neutral (allowed pipe t) held (call t c) := by
  have htaken : 0 < (Op.acquire .socketInfo : Step ι).after held .socketInfo := by simp
  have hchange : Neutral (allowed pipe t) ((Op.acquire .socketInfo : Step ι).after held)
      [.act (.change t c)] := Neutral.act ⟨rfl, htaken, hc⟩
  have hsignal : ∀ held, Neutral (allowed pipe t) held [.act (.signal t)] := fun _ => Neutral.act rfl
  cases c with
  | mk i call =>
      cases call with
      | addSocket fd => exact (Neutral.bracket hheld hchange htaken).append (hsignal held)
      | delSocket | addEvents | delEvents =>
          exact Neutral.bracket hheld (hchange.append (hsignal _)) htaken

omit [DecidableEq ι] in
theorem update_disciplined {before after : List Call} (h : ∀ c ∈ before ++ after, c.2.sock ≠ pipe) :
    Disciplined (allowed pipe (.poll : Thread ι)) (update before after) fun _ => 0 := by
  have htaken : 0 < (Op.acquire .socketInfo : Step ι).after (fun _ => 0) .socketInfo := by simp
  have hround : Neutral (allowed pipe (.poll : Thread ι)) (fun _ => 0)
      [.acquire .socketInfo, .act .createNativePollset, .release .socketInfo] :=
    Neutral.bracket rfl (Neutral.act (a := Act.createNativePollset) ⟨rfl, htaken⟩) htaken
  exact (hround.append (Neutral.act (a := Act.poll before after) ⟨rfl, rfl, h⟩)).disciplined

theorem exec_neutral (t : Thread ι) (a : Act ι) (held : Mutex → Nat) (d : Data ι)
    (h : allowed pipe t (.act a) held) : Neutral (allowed pipe t) held (exec d a).2 := by
  cases a with
  | signal u =>
      obtain rfl : u = t := h
      rw [exec]
      split_ifs
      · exact (Neutral.act (a := Act.writeSignal u) rfl).append (Neutral.act (a := Act.unlock u) rfl)
      · exact .nil
  | poll before after =>
      obtain ⟨rfl, hheld, hcalls⟩ := h
      have hneutral : ∀ calls : List Call, (∀ c ∈ calls, c ∈ before ++ after) →
          Neutral (allowed pipe .poll) held (calls.flatMap (call (.poll : Thread ι))) :=
        fun calls hsub => Neutral.flatMap fun c hc => call_neutral .poll hheld (hcalls c (hsub c hc))
      refine ((hneutral before fun c hc => List.mem_append_left _ hc).append ?_).append
        (hneutral after fun c hc => List.mem_append_right _ hc)
      split_ifs
      · exact Neutral.act rfl
      · exact .nil
  | readSignal =>
      rw [exec]
      split_ifs
      · exact .nil
      · exact Neutral.act h
  | change | writeSignal | unlock | createNativePollset => exact .nil

omit [DecidableEq ι] in
theorem held_of_allowed_release (t : Thread ι) (m : Mutex) (held : Mutex → Nat)
    (h : allowed pipe t (.release m) held) : 0 < held m := by
  cases m
  exact h

/-! ### The invariant -/

/-- A change is followed by its signal, and only the write comes before giving `signal_mutex_` back. -/
def Linked (t : Thread ι) : List (Step ι) → Prop
  | [] => True
  | op :: rest =>
    ((∃ c, op = .act (.change t c)) → Signals t rest) ∧
      ((∃ rest', rest = .act (.unlock t) :: rest') → op = .act (.writeSignal t)) ∧ Linked t rest

/-- The poll thread is on its way to `poll`, or in update functions behind it. -/
def Round (code : List (Step ι)) : Prop :=
  (∃ before after, code <:+ update before after) ∨ ∀ before after, .act (.poll before after) ∉ code

/-- The array is built, and the mutex not yet given back. -/
def AtRelease (s : State ι) : Prop :=
  ∃ before after, s.code .poll = [.release .socketInfo, .act (.poll before after)]

structure Safe (pipe : Int) (s : State ι) : Prop where
  keeps : s.Keeps (allowed pipe)
  signalPipe : s.data.pollSet.signalPipe = pipe
  changed : s.data.pollSet.socketsChanged = true
  own : s.data.pollSet.socketInfo[pipe]? = some ⟨pipe, POLLIN, none⟩
  linked : ∀ i, Linked (.user i) (s.code (.user i))
  holder : ∀ t, s.data.signalMutex = some t →
    (∃ rest, s.code t = .act (.writeSignal t) :: .act (.unlock t) :: rest) ∨ Written s t
  round : Round (s.code .poll)
  fresh : AtRelease s → ¬ Stale s.data.pollSet ∧ Hears s.data.pollSet
  hears : Waits s → Hears s.data.pollSet
  woken : Waits s → Stale s.data.pollSet → 0 < s.data.pipe ∨ ∃ i, Announces s (.user i)
  /-- who has written with the set's mutex did so for the array that `poll` has -/
  written : ∀ i, Waits s → Written s (.user i) → s.Holds (.user i) .socketInfo → 0 < s.data.pipe

variable {s s' : State ι} {op : Step ι} {rest : List (Step ι)} {i : ι}

theorem signalPipe_createNativePollset (p : PollSet) :
    p.createNativePollset.signalPipe = p.signalPipe ∧
      p.createNativePollset.socketInfo = p.socketInfo ∧
      p.createNativePollset.socketsChanged = p.socketsChanged := by
  rw [PollSet.createNativePollset]
  split_ifs <;> exact ⟨rfl, rfl, rfl⟩

/-- The array that was just built is up to date, and the pipe is in it. -/
theorem built {p : PollSet} (hchanged : p.socketsChanged = true) (hpipe : p.signalPipe = pipe)
    (hown : p.socketInfo[pipe]? = some ⟨pipe, POLLIN, none⟩) :
    ¬ Stale p.createNativePollset ∧ Hears p.createNativePollset := by
  have hbuilt : p.createNativePollset =
      { p with ufds := p.socketInfo.toList.map fun entry => ⟨entry.2.fd, entry.2.events⟩ } :=
    if_pos hchanged
  rw [hbuilt]
  constructor
  · intro hstale
    exact hstale (congrArg PollSet.ufds (if_pos hchanged))
  · show (⟨p.signalPipe, POLLIN⟩ : PollFd) ∈ _
    rw [hpipe]
    exact List.mem_map.mpr
      ⟨(pipe, ⟨pipe, POLLIN, none⟩), ExtTreeMap.mem_toList_iff_getElem?_eq_some.mpr hown, rfl⟩

/-- Only `poll` itself puts the thread into `poll`. -/
theorem poll_not_mem_exec (d : Data ι) (a : Act ι) (before after : List Call) :
    .act (.poll before after) ∉ (exec d a).2 := by
  have hcall : ∀ calls : List Call,
      .act (.poll before after) ∉ calls.flatMap (call (.poll : Thread ι)) := by
    intro calls hmem
    obtain ⟨c, -, hmem⟩ := List.mem_flatMap.mp hmem
    rw [call] at hmem
    split at hmem <;> simp at hmem
  cases a with
  | signal t =>
      rw [exec]
      split_ifs <;> simp
  | poll before' after' =>
      simp only [exec, List.mem_append, not_or]
      refine ⟨⟨hcall before', ?_⟩, hcall after'⟩
      split_ifs <;> simp
  | readSignal =>
      rw [exec]
      split_ifs <;> simp
  | change | writeSignal | unlock | createNativePollset => simp [exec]

/-! ### What a step keeps -/

/-- The set's own members, after a step of any thread. -/
theorem Safe.pollSet_step (h : Safe pipe s) (htook : s.Took exec t op rest s')
    (hrun : s.advance exec t = .ok s') :
    s'.data.pollSet.signalPipe = pipe ∧ s'.data.pollSet.socketsChanged = true ∧
      s'.data.pollSet.socketInfo[pipe]? = some ⟨pipe, POLLIN, none⟩ := by
  have hsame : s'.data.pollSet = s.data.pollSet → s'.data.pollSet.signalPipe = pipe ∧
      s'.data.pollSet.socketsChanged = true ∧
        s'.data.pollSet.socketInfo[pipe]? = some ⟨pipe, POLLIN, none⟩ :=
    fun heq => heq ▸ ⟨h.signalPipe, h.changed, h.own⟩
  have hallowed := h.keeps.allowed_next htook.code
  cases op with
  | acquire m | release m =>
      apply hsame
      rw [State.data_of_not_act (by simp [htook.code]) hrun]
  | act a =>
      have hdata := State.data_of_act htook.code hrun
      cases a with
      | change u c =>
          have halike := PollSet.alike_onCall hallowed.2.2 s.data.pollSet c.1
          rw [hdata]
          exact ⟨halike.signalPipe.trans h.signalPipe, halike.changed h.changed,
            halike.entry.trans h.own⟩
      | createNativePollset =>
          obtain ⟨hpipe, hinfo, hchanged⟩ := signalPipe_createNativePollset s.data.pollSet
          rw [hdata]
          exact ⟨hpipe.trans h.signalPipe, hchanged.trans h.changed, hinfo ▸ h.own⟩
      | signal u =>
          apply hsame
          rw [hdata, exec]
          split_ifs <;> rfl
      | readSignal =>
          apply hsame
          rw [hdata, exec]
          split_ifs <;> rfl
      | writeSignal | unlock | poll =>
          apply hsame
          rw [hdata]
          rfl

/-- A step of a thread that is not the poll thread leaves the array alone, and the set as well unless it
is a change. -/
theorem Safe.user_pollSet (h : Safe pipe s) (htook : s.Took exec (.user i) op rest s')
    (hrun : s.advance exec (.user i) = .ok s') :
    PollSet.Alike pipe s.data.pollSet s'.data.pollSet ∧
      ((∀ c, op ≠ .act (.change (.user i) c)) → s'.data.pollSet = s.data.pollSet) := by
  have hsame : s'.data.pollSet = s.data.pollSet →
      PollSet.Alike pipe s.data.pollSet s'.data.pollSet ∧
        ((∀ c, op ≠ .act (.change (.user i) c)) → s'.data.pollSet = s.data.pollSet) :=
    fun heq => ⟨heq ▸ PollSet.alike_refl pipe _, fun _ => heq⟩
  have hallowed := h.keeps.allowed_next htook.code
  cases op with
  | acquire m | release m =>
      apply hsame
      rw [State.data_of_not_act (by simp [htook.code]) hrun]
  | act a =>
      have hdata := State.data_of_act htook.code hrun
      cases a with
      | change u c =>
          obtain ⟨rfl, -, hsock⟩ := hallowed
          refine ⟨?_, fun hne => absurd rfl (hne c)⟩
          rw [hdata]
          exact PollSet.alike_onCall hsock _ _
      | signal u =>
          apply hsame
          rw [hdata, exec]
          split_ifs <;> rfl
      | writeSignal | unlock =>
          apply hsame
          rw [hdata]
          rfl
      | createNativePollset => cases hallowed.1
      | poll => cases hallowed.1
      | readSignal => cases hallowed

/-- Only a thread that is about to write, or has written, has `signal_mutex_`. -/
theorem Safe.holder_step (h : Safe pipe s) (htook : s.Took exec t op rest s')
    (hrun : s.advance exec t = .ok s') (u : Thread ι) (hu : s'.data.signalMutex = some u) :
    (∃ rest, s'.code u = .act (.writeSignal u) :: .act (.unlock u) :: rest) ∨ Written s' u := by
  have hallowed := h.keeps.allowed_next htook.code
  -- a step that is neither to take the mutex, to write nor to give it back is not the holder's
  have hquiet : s'.data.signalMutex = s.data.signalMutex →
      (∀ v, op ≠ .act (.writeSignal v) ∧ op ≠ .act (.unlock v)) →
      (∃ rest, s'.code u = .act (.writeSignal u) :: .act (.unlock u) :: rest) ∨ Written s' u := by
    intro hsame hop
    rw [hsame] at hu
    have hne : u ≠ t := by
      intro heq
      subst heq
      rcases h.holder u hu with ⟨rest', hcode⟩ | ⟨rest', hcode⟩
      · exact (hop u).1 (List.cons.inj (htook.code.symm.trans hcode)).1
      · exact (hop u).2 (List.cons.inj (htook.code.symm.trans hcode)).1
    rw [Written, htook.code_other u hne]
    exact h.holder u hu
  cases op with
  | acquire m | release m =>
      exact hquiet (congrArg Data.signalMutex (State.data_of_not_act (by simp [htook.code]) hrun))
        (by simp)
  | act a =>
      have hdata := State.data_of_act htook.code hrun
      cases a with
      | change v c =>
          apply hquiet _ (by simp)
          rw [hdata]
          rfl
      | signal v =>
          obtain rfl : v = t := hallowed
          by_cases htakes : s.data.returned v = true ∧ s.data.signalMutex = none
          · have hexec : exec s.data (.signal v) =
                ({ s.data with signalMutex := some v }, [.act (.writeSignal v), .act (.unlock v)]) :=
              if_pos htakes
            rw [hdata, hexec] at hu
            obtain rfl := Option.some.inj hu
            left
            refine ⟨rest, ?_⟩
            rw [htook.code_self]
            show (exec s.data (.signal v)).2 ++ rest = _
            rw [hexec]
            rfl
          · apply hquiet _ (by simp)
            rw [hdata, exec, if_neg htakes]
      | writeSignal v =>
          obtain rfl : v = t := hallowed
          have hsame : s'.data.signalMutex = s.data.signalMutex := by
            rw [hdata]
            rfl
          rw [hsame] at hu
          by_cases hv : u = v
          · subst hv
            right
            rcases h.holder u hu with ⟨rest', hcode⟩ | ⟨rest', hcode⟩
            · obtain ⟨-, hrest⟩ := List.cons.inj (htook.code.symm.trans hcode)
              refine ⟨rest', ?_⟩
              rw [htook.code_self, hrest]
              rfl
            · have hclash := (List.cons.inj (htook.code.symm.trans hcode)).1
              cases hclash
          · rw [Written, htook.code_other u hv]
            exact h.holder u hu
      | unlock v =>
          rw [hdata] at hu
          cases hu
      | createNativePollset =>
          apply hquiet _ (by simp)
          rw [hdata]
          rfl
      | poll before after =>
          apply hquiet _ (by simp)
          rw [hdata]
          rfl
      | readSignal =>
          apply hquiet _ (by simp)
          rw [hdata, exec]
          split_ifs <;> rfl

/-! ### A step of the poll thread -/

/-- What follows a step of the poll thread. -/
theorem Round.step (h : Round (s.code .poll)) (htook : s.Took exec .poll op rest s') :
    Round (s'.code .poll) ∧ (AtRelease s' → op = .act .createNativePollset) ∧
      (Waits s' → op = .release .socketInfo ∧ AtRelease s) := by
  have hnone : ∀ before after, .act (.poll before after) ∉ s.expansion exec op := by
    intro before after
    cases op with
    | acquire m | release m => exact List.not_mem_nil
    | act a => exact poll_not_mem_exec s.data a before after
  have hcode := htook.code
  have hself := htook.code_self
  rcases h with ⟨before, after, hsuffix⟩ | hout
  · have hplaces : s.code .poll = [] ∨ s.code .poll = [.act (.poll before after)] ∨
        s.code .poll = [.release .socketInfo, .act (.poll before after)] ∨
        s.code .poll = [.act .createNativePollset, .release .socketInfo, .act (.poll before after)] ∨
        s.code .poll = update before after := by
      simp only [update, List.suffix_cons_iff, List.suffix_nil] at hsuffix
      rcases hsuffix with h | h | h | h | h
      · exact Or.inr (Or.inr (Or.inr (Or.inr h)))
      · exact Or.inr (Or.inr (Or.inr (Or.inl h)))
      · exact Or.inr (Or.inr (Or.inl h))
      · exact Or.inr (Or.inl h)
      · exact Or.inl h
    rcases hplaces with hplace | hplace | hplace | hplace | hplace
    · rw [hplace] at hcode
      cases hcode
    · rw [hplace] at hcode
      obtain ⟨rfl, rfl⟩ := List.cons.inj hcode
      rw [List.append_nil] at hself
      have hmem : ∀ b a, .act (.poll b a) ∉ s'.code .poll := fun b a => hself ▸ hnone b a
      refine ⟨Or.inr hmem, ?_, ?_⟩
      · rintro ⟨b, a, hat⟩
        exact absurd (by simp [hat]) (hmem b a)
      · rintro ⟨b, a, rest', hat⟩
        exact absurd (by simp [hat]) (hmem b a)
    · have hat : AtRelease s := ⟨before, after, hplace⟩
      rw [hplace] at hcode
      obtain ⟨rfl, rfl⟩ := List.cons.inj hcode
      replace hself : s'.code .poll = [.act (.poll before after)] := hself
      refine ⟨Or.inl ⟨before, after, ?_⟩, ?_, fun _ => ⟨rfl, hat⟩⟩
      · rw [hself]
        exact ⟨[.acquire .socketInfo, .act .createNativePollset, .release .socketInfo], rfl⟩
      · rintro ⟨b, a, hrelease⟩
        rw [hself] at hrelease
        cases hrelease
    · rw [hplace] at hcode
      obtain ⟨rfl, rfl⟩ := List.cons.inj hcode
      replace hself : s'.code .poll = [.release .socketInfo, .act (.poll before after)] := hself
      refine ⟨Or.inl ⟨before, after, ?_⟩, fun _ => rfl, ?_⟩
      · rw [hself]
        exact ⟨[.acquire .socketInfo, .act .createNativePollset], rfl⟩
      · rintro ⟨b, a, rest', hwaits⟩
        rw [hself] at hwaits
        cases hwaits
    · rw [hplace] at hcode
      obtain ⟨rfl, rfl⟩ := List.cons.inj hcode
      replace hself : s'.code .poll =
        [.act .createNativePollset, .release .socketInfo, .act (.poll before after)] := hself
      refine ⟨Or.inl ⟨before, after, ?_⟩, ?_, ?_⟩
      · rw [hself]
        exact ⟨[.acquire .socketInfo], rfl⟩
      · rintro ⟨b, a, hrelease⟩
        rw [hself] at hrelease
        cases hrelease
      · rintro ⟨b, a, rest', hwaits⟩
        rw [hself] at hwaits
        cases hwaits
  · have hmem : ∀ b a, .act (.poll b a) ∉ s'.code .poll := by
      intro b a hmem
      rw [hself] at hmem
      rcases List.mem_append.mp hmem with hmem | hmem
      · exact hnone b a hmem
      · exact hout b a (by simp [hcode, hmem])
    refine ⟨Or.inr hmem, ?_, ?_⟩
    · rintro ⟨b, a, hat⟩
      exact absurd (by simp [hat]) (hmem b a)
    · rintro ⟨b, a, rest', hat⟩
      exact absurd (by simp [hat]) (hmem b a)

/-- Before it gives the mutex back, the poll thread holds it. -/
theorem Safe.holds_of_atRelease (h : Safe pipe s) (hat : AtRelease s) :
    s.Holds .poll .socketInfo := by
  obtain ⟨before, after, hcode⟩ := hat
  exact h.keeps.allowed_next hcode

theorem Safe.took_poll (h : Safe pipe s) (hkeeps : s'.Keeps (allowed pipe))
    (htook : s.Took exec .poll op rest s') (hrun : s.advance exec .poll = .ok s') : Safe pipe s' := by
  obtain ⟨hpipe, hchanged, hown⟩ := h.pollSet_step htook hrun
  obtain ⟨hround, hbuilds, hwaits⟩ := h.round.step htook
  have huser : ∀ i, s'.code (.user i) = s.code (.user i) := fun i => htook.code_other _ (by simp)
  have hdata : Waits s' → s'.data = s.data := by
    intro hw
    obtain ⟨rfl, -⟩ := hwaits hw
    exact State.data_of_not_act (by simp [htook.code]) hrun
  apply Safe.mk hkeeps hpipe hchanged hown (fun i => huser i ▸ h.linked i) (h.holder_step htook hrun)
    hround
  case fresh =>
    intro hat
    obtain rfl := hbuilds hat
    rw [State.data_of_act htook.code hrun]
    exact built h.changed h.signalPipe h.own
  case hears =>
    intro hw
    rw [hdata hw]
    exact (h.fresh (hwaits hw).2).2
  case woken =>
    intro hw hstale
    rw [hdata hw] at hstale
    exact absurd hstale (h.fresh (hwaits hw).2).1
  case written =>
    -- the poll thread had the mutex, so no other thread does
    intro i hw _ hholds
    have hpoll := h.holds_of_atRelease (hwaits hw).2
    cases State.holds_unique hpoll ((htook.holds_other (by simp)).mp hholds)

/-! ### A step of another thread -/

/-- Only `signal` puts steps in front, where it gets its mutex. -/
theorem Safe.expansion_user (h : Safe pipe s) (hcode : s.code (.user i) = op :: rest) :
    s.expansion exec op = [] ∨ (op = .act (.signal (.user i)) ∧ s.data.returned (.user i) = true ∧
      s.expansion exec op = [.act (.writeSignal (.user i)), .act (.unlock (.user i))]) := by
  have hallowed := h.keeps.allowed_next hcode
  cases op with
  | acquire m | release m => exact Or.inl rfl
  | act a =>
      cases a with
      | signal u =>
          obtain rfl : u = .user i := hallowed
          by_cases htakes : s.data.returned (.user i) = true ∧ s.data.signalMutex = none
          · exact Or.inr ⟨rfl, htakes.1, congrArg Prod.snd (if_pos htakes)⟩
          · exact Or.inl (congrArg Prod.snd (if_neg htakes))
      | change | writeSignal | unlock => exact Or.inl rfl
      | createNativePollset => cases hallowed.1
      | poll => cases hallowed.1
      | readSignal => cases hallowed

theorem Safe.linked_step (h : Safe pipe s) (htook : s.Took exec (.user i) op rest s') :
    Linked (.user i) (s'.code (.user i)) := by
  have hlinked := h.linked i
  rw [htook.code] at hlinked
  obtain ⟨-, hunlock, hrest⟩ := hlinked
  rw [htook.code_self]
  rcases h.expansion_user htook.code with hnone | ⟨rfl, -, htakes⟩
  · rw [hnone]
    exact hrest
  · rw [htakes]
    refine ⟨by simp, fun _ => rfl, by simp, ?_, hrest⟩
    intro hnext
    cases hunlock hnext

/-- The bytes in the pipe are not read by other threads, and what a function returns is its thread's
own. -/
theorem Safe.user_data (h : Safe pipe s) (htook : s.Took exec (.user i) op rest s')
    (hrun : s.advance exec (.user i) = .ok s') :
    s.data.pipe ≤ s'.data.pipe ∧
      ∀ j, j ≠ i → s'.data.returned (.user j) = s.data.returned (.user j) := by
  have hallowed := h.keeps.allowed_next htook.code
  have hsame : s'.data = s.data → s.data.pipe ≤ s'.data.pipe ∧
      ∀ j, j ≠ i → s'.data.returned (.user j) = s.data.returned (.user j) :=
    fun heq => heq ▸ ⟨Nat.le_refl _, fun _ _ => rfl⟩
  cases op with
  | acquire m | release m => exact hsame (State.data_of_not_act (by simp [htook.code]) hrun)
  | act a =>
      have hdata := State.data_of_act htook.code hrun
      cases a with
      | change u c =>
          obtain rfl : u = .user i := hallowed.1
          rw [hdata]
          refine ⟨Nat.le_refl _, fun j hj => ?_⟩
          exact Function.update_of_ne (by simpa using hj) ..
      | signal u =>
          rw [hdata, exec]
          split_ifs <;> exact ⟨Nat.le_refl _, fun _ _ => rfl⟩
      | writeSignal u =>
          rw [hdata]
          refine ⟨?_, fun _ _ => rfl⟩
          show s.data.pipe ≤ if s.data.pipe ≤ s.data.room then s.data.pipe + 1 else s.data.pipe
          split_ifs <;> omega
      | unlock u =>
          rw [hdata]
          exact ⟨Nat.le_refl _, fun _ _ => rfl⟩
      | createNativePollset => cases hallowed.1
      | poll => cases hallowed.1
      | readSignal => cases hallowed

theorem Announces.of_other {j : ι} (h : Announces s (.user j))
    (htook : s.Took exec (.user i) op rest s') (hj : j ≠ i)
    (hreturned : s'.data.returned (.user j) = s.data.returned (.user j)) : Announces s' (.user j) := by
  have hcode := htook.code_other (.user j) (by simpa using hj)
  rw [Announces, hcode, hreturned]
  exact h

/-- Once a byte is written, the pipe is not empty, full or not. -/
theorem pipe_writeSignal (d : Data ι) (t : Thread ι) : 0 < (exec d (.writeSignal t)).1.pipe := by
  show 0 < if d.pipe ≤ d.room then d.pipe + 1 else d.pipe
  split_ifs <;> omega

/-- A thread that fails to take `signal_mutex_` leaves the change to one that will write, or whose byte
is still in the pipe. -/
theorem Safe.woken_of_failed (h : Safe pipe s) (htook : s.Took exec (.user i) op rest s')
    (hop : op = .act (.signal (.user i))) (hreturned : s.data.returned (.user i) = true)
    (hfails : s.data.signalMutex ≠ none) (hsame : s'.data = s.data) (hw : Waits s)
    (htimely : Timely s (.advance (.user i))) :
    0 < s'.data.pipe ∨ ∃ j, Announces s' (.user j) := by
  subst hop
  obtain ⟨u, hu⟩ := Option.ne_none_iff_exists'.mp hfails
  cases u with
  | poll =>
      obtain ⟨before, after, rest', hpoll⟩ := hw
      rcases h.holder _ hu with ⟨rest'', hcode⟩ | ⟨rest'', hcode⟩
      · cases hpoll.symm.trans hcode
      · cases hpoll.symm.trans hcode
  | user k =>
      rcases h.holder _ hu with ⟨rest', hcode⟩ | hwritten
      · have hk : k ≠ i := by
          rintro rfl
          cases htook.code.symm.trans hcode
        right
        exact ⟨k, Or.inr ⟨_, (htook.code_other _ (by simpa using hk)).trans hcode⟩⟩
      · left
        rw [hsame]
        exact h.written k hw hwritten (htimely hreturned ⟨rest, htook.code⟩ k hu hwritten)

/-- While `poll` waits, a change goes unannounced by no step that is timely. -/
theorem Safe.woken_step (h : Safe pipe s) (htook : s.Took exec (.user i) op rest s')
    (hrun : s.advance exec (.user i) = .ok s') (htimely : Timely s (.advance (.user i)))
    (hw : Waits s) (hstale : Stale s'.data.pollSet) :
    0 < s'.data.pipe ∨ ∃ j, Announces s' (.user j) := by
  have hallowed := h.keeps.allowed_next htook.code
  obtain ⟨hpipe, hreturned⟩ := h.user_data htook hrun
  -- what was announced before still is, unless it was this thread's to announce
  have hframe : s'.data.pollSet = s.data.pollSet →
      (Announces s (.user i) → 0 < s'.data.pipe ∨ ∃ j, Announces s' (.user j)) →
      0 < s'.data.pipe ∨ ∃ j, Announces s' (.user j) := by
    intro hset hself
    rw [hset] at hstale
    rcases h.woken hw hstale with hpos | ⟨j, hj⟩
    · exact Or.inl (Nat.lt_of_lt_of_le hpos hpipe)
    · by_cases hji : j = i
      · exact hself (hji ▸ hj)
      · exact Or.inr ⟨j, hj.of_other htook hji (hreturned j hji)⟩
  have hnot : (∀ rest', op :: rest ≠ .act (.signal (.user i)) :: rest') →
      (∀ rest', op :: rest ≠ .release .socketInfo :: .act (.signal (.user i)) :: rest') →
      (∀ rest', op :: rest ≠ .act (.writeSignal (.user i)) :: rest') → ¬ Announces s (.user i) := by
    intro hsignal hrelease hwrite hannounces
    rw [Announces, Signals, htook.code] at hannounces
    rcases hannounces with ⟨-, rest', hcode | hcode⟩ | ⟨rest', hcode⟩
    · exact hsignal rest' hcode
    · exact hrelease rest' hcode
    · exact hwrite rest' hcode
  cases op with
  | acquire m =>
      apply hframe (by rw [State.data_of_not_act (by simp [htook.code]) hrun])
      intro hannounces
      exact absurd hannounces (hnot (by simp) (by simp) (by simp))
  | release m =>
      have hdata := State.data_of_not_act (by simp [htook.code]) hrun
      apply hframe (by rw [hdata])
      intro hannounces
      rw [Announces, Signals, htook.code] at hannounces
      rcases hannounces with ⟨htrue, rest', hcode | hcode⟩ | ⟨rest', hcode⟩
      · cases hcode
      · obtain ⟨-, hrest⟩ := List.cons.inj hcode
        right
        refine ⟨i, Or.inl ⟨hdata ▸ htrue, rest', Or.inl ?_⟩⟩
        rw [htook.code_self, hrest]
        rfl
      · cases hcode
  | act a =>
      have hdata := State.data_of_act htook.code hrun
      cases a with
      | change u c =>
          obtain rfl : u = .user i := hallowed.1
          by_cases hchanges : s.data.pollSet.returns c.2 = true
          · have hlinked := h.linked i
            rw [htook.code] at hlinked
            right
            refine ⟨i, Or.inl ⟨?_, ?_⟩⟩
            · rw [hdata]
              exact (Function.update_self ..).trans hchanges
            · rw [htook.code_self]
              exact hlinked.1 ⟨c, rfl⟩
          · rw [Bool.not_eq_true] at hchanges
            apply hframe
            · rw [hdata]
              exact PollSet.onCall_of_not_returns hchanges c.1
            · intro hannounces
              exact absurd hannounces (hnot (by simp) (by simp) (by simp))
      | signal u =>
          obtain rfl : u = .user i := hallowed
          by_cases htakes : s.data.returned (.user i) = true ∧ s.data.signalMutex = none
          · right
            refine ⟨i, Or.inr ⟨.act (.unlock (.user i)) :: rest, ?_⟩⟩
            have hexpansion : (exec s.data (.signal (.user i))).2 =
                [.act (.writeSignal (.user i)), .act (.unlock (.user i))] :=
              congrArg Prod.snd (if_pos htakes)
            rw [htook.code_self]
            show (exec s.data (.signal (.user i))).2 ++ rest = _
            rw [hexpansion]
            rfl
          · have hsame : s'.data = s.data := by
              rw [hdata, exec, if_neg htakes]
            apply hframe (by rw [hsame])
            intro hannounces
            rw [Announces, Signals, htook.code] at hannounces
            rcases hannounces with ⟨htrue, -⟩ | ⟨rest', hcode⟩
            · exact h.woken_of_failed htook rfl htrue (fun hfree => htakes ⟨htrue, hfree⟩) hsame hw
                htimely
            · cases hcode
      | writeSignal u =>
          left
          rw [hdata]
          exact pipe_writeSignal s.data u
      | unlock u =>
          apply hframe
          · rw [hdata]
            rfl
          · intro hannounces
            exact absurd hannounces (hnot (by simp) (by simp) (by simp))
      | createNativePollset => cases hallowed.1
      | poll => cases hallowed.1
      | readSignal => cases hallowed

theorem Safe.took_user (h : Safe pipe s) (hkeeps : s'.Keeps (allowed pipe))
    (htook : s.Took exec (.user i) op rest s') (hrun : s.advance exec (.user i) = .ok s')
    (htimely : Timely s (.advance (.user i))) : Safe pipe s' := by
  obtain ⟨hpipe, hchanged, hown⟩ := h.pollSet_step htook hrun
  obtain ⟨halike, hquiet⟩ := h.user_pollSet htook hrun
  have hpoll : s'.code .poll = s.code .poll := htook.code_other _ (by simp)
  have hwaits : Waits s' → Waits s := by
    intro hw
    rw [Waits, hpoll] at hw
    exact hw
  apply Safe.mk hkeeps hpipe hchanged hown
  case linked =>
    intro j
    by_cases hj : j = i
    · subst hj
      exact h.linked_step htook
    · rw [htook.code_other _ (by simpa using hj)]
      exact h.linked j
  case holder => exact h.holder_step htook hrun
  case round => exact hpoll ▸ h.round
  case fresh =>
    intro hat
    rw [AtRelease, hpoll] at hat
    -- the poll thread has the mutex, so this is no change
    rw [hquiet]
    · exact h.fresh hat
    · rintro c rfl
      have huser : s.Holds (.user i) .socketInfo := (h.keeps.allowed_next htook.code).2.1
      cases State.holds_unique (h.holds_of_atRelease hat) huser
  case hears =>
    intro hw
    rw [Hears, halike.signalPipe, halike.ufds]
    exact h.hears (hwaits hw)
  case woken =>
    intro hw hstale
    exact h.woken_step htook hrun htimely (hwaits hw) hstale
  case written =>
    intro j hw hwritten hholds
    by_cases hj : j = i
    · subst hj
      obtain ⟨rest', hcode⟩ := hwritten
      rw [htook.code_self] at hcode
      rcases h.expansion_user htook.code with hnone | ⟨-, -, htakes⟩
      · rw [hnone] at hcode
        have hlinked := h.linked j
        rw [htook.code] at hlinked
        obtain rfl := hlinked.2.1 ⟨rest', hcode⟩
        rw [State.data_of_act htook.code hrun]
        exact pipe_writeSignal s.data _
      · rw [htakes] at hcode
        cases hcode
    · have hne : (.user j : Thread ι) ≠ .user i := by simpa using hj
      rw [Written, htook.code_other _ hne] at hwritten
      exact Nat.lt_of_lt_of_le (h.written j (hwaits hw) hwritten ((htook.holds_other hne).mp hholds))
        (h.user_data htook hrun).1

/-! ### Runs -/

omit [DecidableEq ι] in
theorem linked_call (t : Thread ι) (c : Call) : Linked t (call t c) := by
  cases c with
  | mk n pollCall =>
      cases pollCall <;> simp [call, Linked, Signals]

theorem Safe.start_poll (h : Safe pipe s) {before after : List Call}
    (hcalls : ∀ c ∈ before ++ after, c.2.sock ≠ pipe) :
    Safe pipe (s.start .poll (update before after)) := by
  have hkeeps := h.keeps.start (update_disciplined hcalls)
  by_cases hrest : s.code .poll = []
  · rw [State.start, if_pos hrest] at hkeeps ⊢
    have hpoll : Function.update s.code .poll (update before after) .poll = update before after :=
      Function.update_self ..
    have huser : ∀ i, Function.update s.code .poll (update before after) (.user i) =
        s.code (.user i) := fun i => Function.update_of_ne (by simp) ..
    have hnot : ∀ b a rest', update before after ≠ (.act (.poll b a) :: rest' : List (Step ι)) := by
      intro b a rest' heq
      cases heq
    apply Safe.mk hkeeps h.signalPipe h.changed h.own
    case linked => exact fun i => huser i ▸ h.linked i
    case holder =>
      intro t ht
      have hne : t ≠ .poll := by
        rintro rfl
        rcases h.holder .poll ht with ⟨rest', hcode⟩ | ⟨rest', hcode⟩
        · cases hrest.symm.trans hcode
        · cases hrest.symm.trans hcode
      rw [Written]
      show (∃ rest, Function.update s.code .poll (update before after) t = _) ∨
        ∃ rest, Function.update s.code .poll (update before after) t = _
      rw [Function.update_of_ne hne]
      exact h.holder t ht
    case round => exact Or.inl ⟨before, after, hpoll ▸ List.suffix_rfl⟩
    case fresh =>
      rintro ⟨b, a, hat⟩
      cases hpoll.symm.trans hat
    case hears =>
      rintro ⟨b, a, rest', hw⟩
      exact absurd (hpoll.symm.trans hw) (hnot b a rest')
    case woken =>
      rintro ⟨b, a, rest', hw⟩
      exact absurd (hpoll.symm.trans hw) (hnot b a rest')
    case written =>
      rintro i ⟨b, a, rest', hw⟩
      exact absurd (hpoll.symm.trans hw) (hnot b a rest')
  · rw [State.start, if_neg hrest]
    exact h

theorem Safe.start_user (h : Safe pipe s) (i : ι) {c : Call} (hc : c.2.sock ≠ pipe) :
    Safe pipe (s.start (.user i) (call (.user i) c)) := by
  have hneutral : Neutral (allowed pipe (.user i)) (fun _ => 0) (call (.user i) c) :=
    call_neutral (.user i) rfl hc
  have hkeeps := h.keeps.start hneutral.disciplined
  by_cases hrest : s.code (.user i) = []
  · rw [State.start, if_pos hrest] at hkeeps ⊢
    have hself : Function.update s.code (.user i) (call (.user i) c) (.user i) = call (.user i) c :=
      Function.update_self ..
    have hother : ∀ t, t ≠ .user i →
        Function.update s.code (.user i) (call (.user i) c) t = s.code t :=
      fun t ht => Function.update_of_ne ht ..
    have hpoll := hother .poll (by simp)
    -- who announces or has written is not at rest
    have hbusy : ∀ {j : ι} {op : Step ι} {rest'}, s.code (.user j) = op :: rest' →
        (.user j : Thread ι) ≠ .user i := by
      intro j op rest' hcode heq
      rw [heq, hrest] at hcode
      cases hcode
    apply Safe.mk hkeeps h.signalPipe h.changed h.own
    case linked =>
      intro j
      show Linked (.user j) (Function.update s.code (.user i) (call (.user i) c) (.user j))
      by_cases hj : (.user j : Thread ι) = .user i
      · rw [hj, hself]
        exact linked_call (.user i) c
      · rw [hother _ hj]
        exact h.linked j
    case holder =>
      intro t ht
      have hne : t ≠ .user i := by
        rintro rfl
        rcases h.holder _ ht with ⟨rest', hcode⟩ | ⟨rest', hcode⟩
        · exact absurd rfl (hbusy hcode)
        · exact absurd rfl (hbusy hcode)
      rw [Written]
      show (∃ rest, Function.update s.code (.user i) (call (.user i) c) t = _) ∨
        ∃ rest, Function.update s.code (.user i) (call (.user i) c) t = _
      rw [hother t hne]
      exact h.holder t ht
    case round => exact hpoll ▸ h.round
    case fresh =>
      rintro ⟨b, a, hat⟩
      exact h.fresh ⟨b, a, hpoll.symm.trans hat⟩
    case hears =>
      rintro ⟨b, a, rest', hw⟩
      exact h.hears ⟨b, a, rest', hpoll.symm.trans hw⟩
    case woken =>
      rintro ⟨b, a, rest', hw⟩ hstale
      rcases h.woken ⟨b, a, rest', hpoll.symm.trans hw⟩ hstale with hpos | ⟨j, hj⟩
      · exact Or.inl hpos
      · right
        refine ⟨j, ?_⟩
        have hne : (.user j : Thread ι) ≠ .user i := by
          rcases hj with ⟨-, rest'', hcode | hcode⟩ | ⟨rest'', hcode⟩ <;> exact hbusy hcode
        rw [Announces, Signals]
        show (_ ∧ ∃ rest, Function.update s.code (.user i) (call (.user i) c) (.user j) = _ ∨
            Function.update s.code (.user i) (call (.user i) c) (.user j) = _) ∨
          ∃ rest, Function.update s.code (.user i) (call (.user i) c) (.user j) = _
        rw [hother _ hne]
        exact hj
    case written =>
      rintro j ⟨b, a, rest', hw⟩ ⟨rest'', hwritten⟩ hholds
      have hw' : Waits s := ⟨b, a, rest', hpoll.symm.trans hw⟩
      have hne : (.user j : Thread ι) ≠ .user i := by
        intro heq
        rw [heq] at hwritten
        have hcode := hself.symm.trans hwritten
        cases c with
        | mk n pollCall => cases pollCall <;> cases hcode
      exact h.written j hw' ⟨rest'', (hother _ hne).symm.trans hwritten⟩ hholds
  · rw [State.start, if_neg hrest]
    exact h

theorem safe_create (signalPipe room : Nat) : Safe signalPipe (create signalPipe room : State ι) := by
  have hset : (PollSet.create signalPipe).socketInfo[(signalPipe : Int)]? =
      some ⟨signalPipe, POLLIN, none⟩ := by
    simp [PollSet.create, PollSet.addSocket, PollSet.addEvents, POLLIN]
  have hchanged : (PollSet.create signalPipe).signalPipe = signalPipe ∧
      (PollSet.create signalPipe).socketsChanged = true := by
    simp [PollSet.create, PollSet.addSocket, PollSet.addEvents]
  apply Safe.mk (s := create signalPipe room) (State.keeps_idle _) hchanged.1 hchanged.2 hset
  case linked => exact fun _ => trivial
  case holder =>
    intro t ht
    cases ht
  case round => exact Or.inr fun _ _ => List.not_mem_nil
  case fresh =>
    rintro ⟨b, a, hat⟩
    cases hat
  case hears =>
    rintro ⟨b, a, rest', hw⟩
    cases hw
  case woken =>
    rintro ⟨b, a, rest', hw⟩
    cases hw
  case written =>
    rintro i ⟨b, a, rest', hw⟩
    cases hw

theorem Safe.step (h : Safe pipe s) (e : Event ι) (htimely : Timely s e) :
    ∃ s', onEvent s e = .ok s' ∧ Safe pipe s' := by
  cases e with
  | update before after =>
      simp only [onEvent, h.signalPipe]
      split_ifs with hcalls
      · exact ⟨_, rfl, h.start_poll hcalls⟩
      · exact ⟨s, rfl, h⟩
  | call i c =>
      simp only [onEvent, h.signalPipe]
      split_ifs with hc
      · exact ⟨_, rfl, h.start_user i hc⟩
      · exact ⟨s, rfl, h⟩
  | advance t =>
      obtain ⟨s', hrun, hkeeps, hcases⟩ := h.keeps.advance exec held_of_allowed_release exec_neutral t
      refine ⟨s', hrun, ?_⟩
      rcases hcases with ⟨rfl, -⟩ | ⟨op, rest, htook⟩
      · exact h
      · cases t with
        | poll => exact h.took_poll hkeeps htook hrun
        | user i => exact h.took_user hkeeps htook hrun htimely

/-- A socket is added while the poll thread waits, and its thread stops short of giving `signal_mutex_`
back. The poll thread reads the byte and goes round, and then events are added by another thread. -/
def overtaken : List (Event Bool) :=
  [.update [] [], .advance .poll, .advance .poll, .advance .poll,
    .call true (0, .addSocket 5), .advance (.user true), .advance (.user true), .advance (.user true),
    .advance (.user true), .advance (.user true),
    .advance .poll, .advance .poll, .advance .poll, .advance .poll, .advance .poll,
    .update [] [], .advance .poll, .advance .poll, .advance .poll,
    .call false (0, .addEvents 5 POLLIN), .advance (.user false), .advance (.user false),
    .advance (.user false), .advance (.user false), .advance (.user true)]

/-- **No wake-up is lost**, in any interleaving of any number of threads in which no thread fails to take
`signal_mutex_` behind the back of an `addSocket` that has written: while `poll` waits on an array that is
out of date, the pipe wakes it, or a thread is about to write. Behind the back of an `addSocket`, a wake-up
may be lost, with every thread done and the change left to the timeout of `poll`. -/
theorem no_wakeup_lost (signalPipe room : Nat) :
    (∀ events : List (Event ι), Along onEvent Timely (create signalPipe room) events →
      ∃ s, run onEvent (create signalPipe room) events = .ok s ∧
        (Waits s → Stale s.data.pollSet → Wakes s.data ∨ ∃ i, Announces s (.user i))) ∧
    ∃ s, run onEvent (create 3 65535) overtaken = .ok s ∧ Waits s ∧ Stale s.data.pollSet ∧
      ¬ Wakes s.data ∧ ∀ i, s.code (.user i) = [] := by
  constructor
  · intro events htimely
    obtain ⟨s, hrun, hsafe⟩ := run_invariant (I := Safe signalPipe)
      (fun s e h => h.step e) (safe_create signalPipe room) htimely
    refine ⟨s, hrun, fun hw hstale => ?_⟩
    rcases hsafe.woken hw hstale with hpos | hannounced
    · exact Or.inl ⟨hpos, hsafe.hears hw⟩
    · exact Or.inr hannounced
  · refine ⟨_, rfl, ⟨[], [], [], rfl⟩, by decide, by decide, ?_⟩
    intro i
    cases i <;> rfl

/-- A socket is added while the poll thread waits, up to the byte in the pipe. -/
def announced : List (Event Bool) :=
  [.update [] [], .advance .poll, .advance .poll, .advance .poll, .call true (0, .addSocket 5),
    .advance (.user true), .advance (.user true), .advance (.user true), .advance (.user true),
    .advance (.user true)]

theorem along_announced : Along onEvent Timely (create 3 65535) announced := by
  have hfree : ∀ {P : Prop} {j : Bool}, (none : Option (Thread Bool)) = some (.user j) → P := by
    intro P j hj
    cases hj
  apply Along.cons rfl trivial
  apply Along.cons rfl trivial
  apply Along.cons rfl trivial
  apply Along.cons rfl trivial
  apply Along.cons rfl trivial
  apply Along.cons rfl fun _ _ _ hj => hfree hj
  apply Along.cons rfl fun _ _ _ hj => hfree hj
  apply Along.cons rfl fun _ _ _ hj => hfree hj
  apply Along.cons rfl fun _ _ _ hj => hfree hj
  apply Along.cons rfl
  · -- the thread is behind its try at the mutex
    intro _ hsignals
    obtain ⟨rest, hcode⟩ := hsignals
    cases hcode
  · trivial

theorem no_wakeup_lost_announced : ∃ s, run onEvent (create 3 65535) announced = .ok s ∧ Waits s ∧
    Stale s.data.pollSet ∧ (Wakes s.data ∨ ∃ i, Announces s (.user i)) := by
  obtain ⟨s, hrun, hwoken⟩ := (no_wakeup_lost 3 65535).1 announced along_announced
  obtain ⟨t, hrun', hwaits, hstale⟩ : ∃ t, run onEvent (create 3 65535) announced = .ok t ∧
      Waits t ∧ Stale t.data.pollSet := ⟨_, rfl, ⟨[], [], [], rfl⟩, by decide⟩
  obtain rfl := Except.ok.inj (hrun.symm.trans hrun')
  exact ⟨s, hrun, hwaits, hstale, hwoken hwaits hstale⟩

end

end Signalling

end Ros2Proto
