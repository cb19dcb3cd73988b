import Ros2Proto.Services.CallLocking

/-!
# How a call and the poll thread come to wait for each other

There are two ways. Either the poll thread waits for `mutex_` with mutexes held that `call` has to take,
or each thread holds one mutex of a transport and waits for the other. The second is taken in one step.
After the step that leads into the first there is no way out: the user thread can go on for a while, but
what it comes to is a mutex that the poll thread holds.
-/

namespace Ros2Proto.CallLocking

open Locks FallibleRun

/-! ### The two ways to wait for each other -/

/-- The mutexes that the poll thread takes only right after an act. -/
def Mutex.inner : Mutex → Prop
  | close _ => False
  | client | message _ => True

/-- The user thread takes `close_mutex_` right after giving back `message_mutex_`, or in an
`enableWrite` it has come to. -/
def Follows (before after : Step) : Prop :=
  ∀ i, after = .acquire (.close i) → before = .release (.message i)

/-- The poll thread waits for `mutex_` with mutexes held that `call` has to take. -/
def Blocked (s : State) (i : Nat) : Prop := AtRemove s i ∧ Ahead s i

/-- Each thread holds one mutex of the transport and is about to take the other. -/
def Inverted (s : State) (i : Nat) : Prop := AtCallback s i ∧ AtEnableWrite s i

/-- Whether a step of `call` is one of the call on transport `i`. -/
def On (i : Nat) : Step → Prop
  | .acquire .client => True
  | .acquire (.close j) | .acquire (.message j) | .act (.enableWriteIfEmpty j) => j = i
  | .release _ | .act _ => True

/-- What the code of the threads looks like between two events. -/
structure Shaped (s : State) : Prop where
  keeps : s.Keeps allowed
  poll_inner : ∀ m : Mutex, m.inner → .acquire m ∉ (s.code .poll).tail
  user_follows : (s.code .user).IsChain Follows
  user_on : ∃ i, ∀ op ∈ s.code .user, On i op
  user_last : .release .client ∉ (s.code .user).dropLast

/-- Neither of the two ways has been taken. -/
structure Safe (s : State) : Prop extends Shaped s where
  not_blocked : ∀ i, ¬ Blocked s i
  not_inverted : ∀ i, ¬ Inverted s i

theorem safe_idle : Safe idle where
  keeps := State.keeps_idle _
  poll_inner _ _ := List.not_mem_nil
  user_follows := .nil
  user_on := ⟨0, nofun⟩
  user_last := List.not_mem_nil
  not_blocked _ h := absurd h.1.1 (Nat.lt_irrefl 0)
  not_inverted _ h := absurd h.1.1 (Nat.lt_irrefl 0)

section

variable {s s' : State} {i : Nat}

theorem Only.eq {held : Mutex → Nat} {j : Nat} (h : Only j held) {m : Mutex} (hm : m.of i)
    (hheld : 0 < held m) : i = j := by
  by_contra hne
  rw [h m] at hheld
  · exact Nat.lt_irrefl 0 hheld
  · cases m with
    | client => exact hm.elim
    | close k =>
        rintro rfl
        exact hne (Eq.symm hm)
    | message k =>
        rintro rfl
        exact hne (Eq.symm hm)

/-- Where the poll thread waits for `mutex_` with a mutex of transport `i` held, it is inside a
callback of this transport. -/
theorem atRemove_of_wants (h : s.Keeps allowed) (hwants : s.Wants .poll .client) {m : Mutex}
    (hm : m.of i) (hheld : s.Holds .poll m) : AtRemove s i := by
  refine ⟨?_, hwants⟩
  obtain ⟨rest, hcode⟩ := hwants
  rcases h.allowed_next hcode with hnone | ⟨-, j, hinside⟩
  · rw [State.Holds, hnone m] at hheld
    exact absurd hheld (Nat.lt_irrefl 0)
  · obtain rfl := hinside.2.2.eq hm hheld
    exact hinside.2.1

theorem stuck_of_waits (h : s.Keeps allowed) {m n : Mutex} (hm : s.Holds .user m)
    (hwants : s.Wants .user n) (hfree : ¬ s.Holds .user n) (hn : s.Holds .poll n)
    (hwants' : s.Wants .poll m) : (∃ i, Blocked s i) ∨ ∃ i, Inverted s i := by
  obtain ⟨rest, hcode⟩ := hwants
  have hop := h.allowed_next hcode
  have hmem : ∀ n, s.code .user = .acquire n :: rest → .acquire n ∈ s.code .user := by
    intro n hn
    rw [hn]
    exact List.mem_cons_self
  cases n with
  | client =>
      rw [State.Holds, hop m] at hm
      exact absurd hm (Nat.lt_irrefl 0)
  | message i =>
      obtain rfl : m = .client := by
        by_contra hne
        have hne' : m ≠ .message i := by
          rintro rfl
          exact hfree hm
        rw [State.Holds, hop.1.2 m hne hne'] at hm
        exact Nat.lt_irrefl 0 hm
      exact Or.inl ⟨i, atRemove_of_wants h hwants' (m := .message i) rfl hn, hm, .message i, rfl,
        hmem _ hcode⟩
  | close i =>
      by_cases hclient : m = .client
      · subst hclient
        exact Or.inl ⟨i, atRemove_of_wants h hwants' (m := .close i) rfl hn, hm, .close i, rfl,
          hmem _ hcode⟩
      · obtain rfl : m = .message i := by
          by_contra hne
          rw [State.Holds, hop.2 m hclient hne] at hm
          exact Nat.lt_irrefl 0 hm
        exact Or.inr ⟨i, ⟨hn, hwants'⟩, hm, rest, hcode⟩

/-- **The two threads wait for each other in one of two ways.** -/
theorem stuck_of_crossWait (h : s.Keeps allowed) (hcross : s.CrossWait) :
    (∃ i, Blocked s i) ∨ ∃ i, Inverted s i := by
  obtain ⟨t, u, m, n, hm, hwn, hnn, hn, hwm, hnm⟩ := hcross
  cases t with
  | user =>
      cases u with
      | user => exact absurd hn hnn
      | poll => exact stuck_of_waits h hm hwn hnn hn hwm
  | poll =>
      cases u with
      | user => exact stuck_of_waits h hn hwm hnm hm hwn
      | poll => exact absurd hn hnn

/-! ### A thread's step -/

theorem Mutex.inner.ne_close {m : Mutex} (hm : m.inner) (i : Nat) : m ≠ .close i := by
  rintro rfl
  exact hm

theorem Callback.steps_eq (i : Nat) (cb : Callback) :
    ∃ rest, cb.steps i = .acquire (.message i) :: rest := by
  cases cb with
  | read closes => exact ⟨_, rfl⟩
  | write outcome => exact ⟨_, rfl⟩

theorem callback_inner {m : Mutex} (hm : m.inner) (i : Nat) (cb : Callback) :
    .acquire m ∉ (cb.steps i).tail := by
  have hne := hm.ne_close i
  cases cb with
  | read closes => cases closes <;> simp [Callback.steps, readMessage, read, testClosed, close, hne]
  | write outcome =>
      cases outcome <;> simp [Callback.steps, writeMessage, write, testClosed, close, hne]

/-- What an act puts in front takes an inner mutex only where it runs a callback. -/
theorem exec_front (d : Data) (a : Act) :
    (∀ m : Mutex, m.inner → .acquire m ∉ (exec d a).2) ∨
    (∃ i cb, a = .runCallback i cb ∧ cb.ready (d.connection i) = true ∧
      (exec d a).2 = cb.steps i) ∨
    ∃ i, a = .callDisconnectCb i ∧ d.disconnectCb = true ∧ (exec d a).2 = removeConnection := by
  have hnil : ∀ m : Mutex, m.inner → .acquire m ∉ ([] : List Step) := fun _ _ => List.not_mem_nil
  have htest : ∀ i b, ∀ m : Mutex, m.inner → .acquire m ∉ testClosed i ++ [.act b] := by
    intro i b m hm
    have hne := hm.ne_close i
    simp [testClosed, hne]
  cases a with
  | enableMessagePass | expectRead | expectWrite | setDisconnectCallback | pushBack =>
      exact Or.inl hnil
  | markClosed j =>
      left
      simp only [exec]
      split_ifs
      · exact hnil
      · exact hnil
  | enableWriteIfEmpty j =>
      left
      simp only [exec]
      split_ifs
      · exact htest j (.expectWrite j true)
      · exact hnil
  | popFront j =>
      left
      simp only [exec]
      split_ifs
      · exact htest j (.expectWrite j false)
      · exact hnil
  | closeUnlessClosed j =>
      left
      simp only [exec]
      split_ifs
      · exact hnil
      · intro m hm
        have hne := hm.ne_close j
        simp [hne]
  | update j callbacks =>
      left
      simp only [exec]
      split_ifs
      · exact hnil
      · simp
  | runCallback j cb =>
      by_cases hready : cb.ready (d.connection j) = true
      · exact Or.inr (Or.inl ⟨j, cb, rfl, hready, if_pos hready⟩)
      · left
        simp only [exec]
        rw [if_neg hready]
        exact hnil
  | callDisconnectCb j =>
      by_cases hcb : d.disconnectCb = true
      · exact Or.inr (Or.inr ⟨j, rfl, hcb, if_pos hcb⟩)
      · left
        simp only [exec]
        rw [if_neg hcb]
        exact hnil

theorem exec_tail (d : Data) (a : Act) {m : Mutex} (hm : m.inner) :
    .acquire m ∉ (exec d a).2.tail := by
  rcases exec_front d a with hnone | ⟨i, cb, -, -, hfront⟩ | ⟨i, -, -, hfront⟩
  · exact fun hmem => hnone m hm (List.mem_of_mem_tail hmem)
  · rw [hfront]
    exact callback_inner hm i cb
  · rw [hfront]
    simp [removeConnection]

/-- The poll thread comes to an inner mutex only by an act that runs a callback. -/
theorem Shaped.poll_wants (h : Shaped s) {op : Step} {rest : List Step}
    (htook : s.Took exec .poll op rest s') {m : Mutex} (hm : m.inner) (hwants : s'.Wants .poll m) :
    (m = .client ∧ s.data.disconnectCb = true ∧ ∃ i, op = .act (.callDisconnectCb i)) ∨
      ∃ i cb, m = .message i ∧ op = .act (.runCallback i cb) ∧
        cb.ready (s.data.connection i) = true := by
  have hrest : .acquire m ∉ rest := by
    have := h.poll_inner m hm
    rwa [htook.code] at this
  obtain ⟨after, hafter⟩ := hwants
  rw [htook.code_self] at hafter
  rcases List.append_eq_cons_iff.mp hafter with ⟨-, hcons⟩ | ⟨more, hfront, -⟩
  · rw [hcons] at hrest
    exact absurd List.mem_cons_self hrest
  · cases op with
    | acquire n => cases hfront
    | release n => cases hfront
    | act a =>
        rw [State.expansion] at hfront
        rcases exec_front s.data a with hnone | ⟨i, cb, rfl, hready, hsteps⟩ | ⟨i, rfl, hcb, hsteps⟩
        · exact absurd (by rw [hfront]; exact List.mem_cons_self) (hnone m hm)
        · obtain ⟨steps, hcallback⟩ := cb.steps_eq i
          rw [hsteps, hcallback] at hfront
          cases hfront
          exact Or.inr ⟨i, cb, rfl, rfl, hready⟩
        · rw [hsteps] at hfront
          cases hfront
          exact Or.inl ⟨rfl, hcb, i, rfl⟩

theorem mem_of_mem_tail_append {α : Type*} {x : α} {xs ys : List α} (h : x ∈ (xs ++ ys).tail) :
    x ∈ xs.tail ∨ x ∈ ys := by
  cases xs with
  | nil => exact Or.inr (List.mem_of_mem_tail h)
  | cons first xs => exact List.mem_append.mp h

theorem Shaped.took_poll (h : Shaped s) (hkeeps : s'.Keeps allowed) {op : Step} {rest : List Step}
    (htook : s.Took exec .poll op rest s') : Shaped s' := by
  have hcode : s'.code .user = s.code .user := htook.code_other _ (by decide)
  apply Shaped.mk hkeeps
  · intro m hm hmem
    have hrest := h.poll_inner m hm
    rw [htook.code] at hrest
    rw [htook.code_self] at hmem
    rcases mem_of_mem_tail_append hmem with hfront | hmem
    · cases op with
      | acquire n => cases hfront
      | release n => cases hfront
      | act a => exact exec_tail s.data a hm hfront
    · exact hrest hmem
  all_goals rw [hcode]
  · exact h.user_follows
  · exact h.user_on
  · exact h.user_last

/-- What the user thread puts in front is an `enableWrite`, where it finds the queue empty. -/
theorem Shaped.user_expansion (h : Shaped s) {op : Step} {rest : List Step}
    (hcode : s.code .user = op :: rest) :
    s.expansion exec op = [] ∨ ∃ i, op = .act (.enableWriteIfEmpty i) ∧
      (s.data.connection i).queue = 0 ∧ s.expansion exec op = enableWrite i := by
  have hop := h.keeps.allowed_next hcode
  cases op with
  | acquire m => exact Or.inl rfl
  | release m => exact Or.inl rfl
  | act a =>
      cases a with
      | enableMessagePass | expectRead | expectWrite | setDisconnectCallback | pushBack =>
          exact Or.inl rfl
      | enableWriteIfEmpty i =>
          by_cases hempty : (s.data.connection i).queue = 0
          · exact Or.inr ⟨i, rfl, hempty, if_pos hempty⟩
          · exact Or.inl (if_neg hempty)
      | popFront | update | runCallback | closeUnlessClosed | markClosed | callDisconnectCb =>
          exact hop.elim

theorem Shaped.user_rest (h : Shaped s) {op : Step} {rest : List Step}
    (hcode : s.code .user = op :: rest) :
    rest.IsChain Follows ∧ ∀ i after, rest = .acquire (.close i) :: after →
      op = .release (.message i) := by
  have hchain := h.user_follows
  rw [hcode] at hchain
  cases rest with
  | nil => exact ⟨.nil, nofun⟩
  | cons next rest =>
      rw [List.isChain_cons_cons] at hchain
      refine ⟨hchain.2, ?_⟩
      intro i after hnext
      exact hchain.1 i (List.cons.inj hnext).1

theorem Shaped.took_user (h : Shaped s) (hkeeps : s'.Keeps allowed) {op : Step} {rest : List Step}
    (htook : s.Took exec .user op rest s') : Shaped s' := by
  have hcode : s'.code .poll = s.code .poll := htook.code_other _ (by decide)
  obtain ⟨hchain, hclose⟩ := h.user_rest htook.code
  obtain ⟨i, hon⟩ := h.user_on
  have hlast := h.user_last
  rw [htook.code] at hon hlast
  apply Shaped.mk hkeeps
  · rw [hcode]
    exact h.poll_inner
  all_goals
    rw [htook.code_self]
    rcases h.user_expansion htook.code with hnone | ⟨j, rfl, -, henable⟩
  · rw [hnone, List.nil_append]
    exact hchain
  · rw [henable]
    cases rest with
    | nil => simp [enableWrite, testClosed, Follows]
    | cons next rest =>
        have hnext : ∀ j, next ≠ .acquire (.close j) := by
          rintro j rfl
          cases hclose j rest rfl
        simpa [enableWrite, testClosed, Follows, hnext] using hchain
  · rw [hnone, List.nil_append]
    exact ⟨i, fun op' hop' => hon op' (List.mem_cons_of_mem _ hop')⟩
  · obtain rfl : j = i := hon _ List.mem_cons_self
    rw [henable]
    refine ⟨j, ?_⟩
    simpa [enableWrite, testClosed, On] using fun op' hop' => hon op' (List.mem_cons_of_mem _ hop')
  · rw [hnone, List.nil_append]
    cases rest with
    | nil => simp
    | cons next rest => exact fun hmem => hlast (List.mem_cons_of_mem _ hmem)
  · rw [henable]
    cases rest with
    | nil => simp [enableWrite, testClosed]
    | cons next rest => simpa [enableWrite, testClosed] using hlast

theorem Shaped.start_call (h : Shaped s) (i : Nat) : Shaped (s.start .user (call i)) := by
  by_cases hrest : s.code .user = []
  · apply Shaped.mk (h.keeps.start (call_disciplined i))
    · rw [State.code_start_of_ne s (by decide)]
      exact h.poll_inner
    all_goals rw [State.code_start_self, if_pos hrest]
    · simp [call, enableMessagePass, enableRead, setMsgCallback, sendFrames, testClosed, Follows]
    · refine ⟨i, ?_⟩
      simp [call, enableMessagePass, enableRead, setMsgCallback, sendFrames, testClosed, On]
    · simp [call, enableMessagePass, enableRead, setMsgCallback, sendFrames, testClosed]
  · rwa [State.start, if_neg hrest]

theorem Shaped.start_update (h : Shaped s) (i : Nat) (reads : Option Bool)
    (writes : Option Outcome) (hangup : Bool) :
    Shaped (s.start .poll (socketUpdate i reads writes hangup)) := by
  have hcode := State.code_start_of_ne s (t := .poll) (u := .user) (by decide)
    (socketUpdate i reads writes hangup)
  by_cases hrest : s.code .poll = []
  · apply Shaped.mk (h.keeps.start (socketUpdate_disciplined i reads writes hangup))
    · intro m _
      rw [State.code_start_self, if_pos hrest]
      cases hangup <;> simp [socketUpdate, close]
    all_goals rw [hcode]
    · exact h.user_follows
    · exact h.user_on
    · exact h.user_last
  · rwa [State.start, if_neg hrest]

/-- An advance either takes a step or finds the thread at rest or waiting. -/
theorem Shaped.advance (h : Shaped s) (t : Thread) :
    ∃ s', s.advance exec t = .ok s' ∧ Shaped s' ∧
      (s.Stays t s' ∨ ∃ op rest, s.Took exec t op rest s') := by
  obtain ⟨s', hrun, hkeeps, hcases⟩ :=
    h.keeps.advance exec held_of_allowed_release exec_neutral t
  refine ⟨s', hrun, ?_, hcases⟩
  rcases hcases with ⟨rfl, -⟩ | ⟨op, rest, htook⟩
  · exact h
  · cases t with
    | user => exact h.took_user hkeeps htook
    | poll => exact h.took_poll hkeeps htook

/-! ### Runs that keep apart -/

section

variable {op : Step} {rest : List Step}

theorem atRemove_of_took (htook : s.Took exec .user op rest s') : AtRemove s' i ↔ AtRemove s i :=
  and_congr (htook.holds_other (by decide)) (htook.wants_other (by decide))

theorem atCallback_of_took (htook : s.Took exec .user op rest s') :
    AtCallback s' i ↔ AtCallback s i :=
  and_congr (htook.holds_other (by decide)) (htook.wants_other (by decide))

theorem atEnableWrite_of_took (htook : s.Took exec .poll op rest s') :
    AtEnableWrite s' i ↔ AtEnableWrite s i :=
  and_congr (htook.holds_other (by decide)) (htook.wants_other (by decide))

theorem ahead_of_took (htook : s.Took exec .poll op rest s') : Ahead s' i ↔ Ahead s i := by
  rw [Ahead, Ahead, htook.holds_other (by decide), htook.code_other _ (by decide)]

end

/-- The poll thread's step, where it keeps apart from the call. -/
theorem Safe.took_poll (h : Safe s) (hshaped : Shaped s') {op : Step} {rest : List Step}
    (htook : s.Took exec .poll op rest s') (hapart : Apart s (.advance .poll)) : Safe s' := by
  apply Safe.mk hshaped
  · intro i hblocked
    obtain ⟨⟨hmessage, hwants⟩, hahead⟩ := hblocked
    rcases h.poll_wants htook (m := .client) trivial hwants with ⟨-, hcb, j, rfl⟩ | ⟨j, cb, hno, -⟩
    · have hbefore : s.Holds .poll (.message i) := by
        rwa [State.Holds, htook.held_self] at hmessage
      obtain rfl : i = j := by
        rcases h.keeps.allowed_next htook.code with hnone | hinside
        · rw [State.Holds, hnone] at hbefore
          exact absurd hbefore (Nat.lt_irrefl 0)
        · exact hinside.2.2.eq (m := .message i) rfl hbefore
      exact (hapart rest i).1 htook.code hcb hbefore ((ahead_of_took htook).mp hahead)
    · cases hno
  · intro i hinverted
    obtain ⟨⟨-, hwants⟩, henable⟩ := hinverted
    rcases h.poll_wants htook (m := .message i) trivial hwants with
      ⟨hno, -⟩ | ⟨j, cb, hsame, rfl, hready⟩
    · cases hno
    · cases hsame
      exact (hapart rest i).2 cb htook.code hready ((atEnableWrite_of_took htook).mp henable)

/-- The user thread holds `mutex_` once it has taken it. -/
theorem takes_client_of_took {op : Step} {rest : List Step}
    (htook : s.Took exec .user op rest s') (hclient : s'.Holds .user .client) :
    s.Holds .user .client ∨ op = .acquire .client := by
  rw [State.Holds, htook.held_self] at hclient
  cases op with
  | acquire m =>
      by_cases hm : m = .client
      · exact Or.inr (by rw [hm])
      · rw [Op.after_acquire_of_ne _ (Ne.symm hm)] at hclient
        exact Or.inl hclient
  | release m =>
      by_cases hm : m = .client
      · rw [hm, Op.after, Function.update_self] at hclient
        exact Or.inl (Nat.lt_of_lt_of_le hclient (Nat.sub_le ..))
      · rw [Op.after_release_of_ne _ (Ne.symm hm)] at hclient
        exact Or.inl hclient
  | act a => exact Or.inl hclient

/-- The user thread's step, where it keeps apart from the poll thread. -/
theorem Safe.took_user (h : Safe s) (hshaped : Shaped s') {op : Step} {rest : List Step}
    (htook : s.Took exec .user op rest s') (hapart : Apart s (.advance .user)) : Safe s' := by
  have hop := h.keeps.allowed_next htook.code
  have hfront := h.user_expansion htook.code
  apply Safe.mk hshaped
  · intro i hblocked
    obtain ⟨hremove, hclient, m, hm, hmem⟩ := hblocked
    rw [atRemove_of_took htook] at hremove
    rw [htook.code_self] at hmem
    rcases takes_client_of_took htook hclient with hbefore | rfl
    · rcases List.mem_append.mp hmem with hmem | hmem
      · rcases hfront with hnone | ⟨j, rfl, -, henable⟩
        · rw [hnone] at hmem
          cases hmem
        · -- Both threads would hold `message_mutex_`.
          rw [henable] at hmem
          obtain rfl : m = .close j := by simpa [enableWrite, testClosed] using hmem
          obtain rfl : j = i := hm
          cases State.holds_unique hremove.1 (hop.2 : s.Holds .user (.message j))
      · apply h.not_blocked i
        exact ⟨hremove, hbefore, m, hm, by simp [htook.code, hmem]⟩
    · exact (hapart rest i).1 htook.code ⟨m, hm, hmem⟩ hremove
  · intro i hinverted
    obtain ⟨hcallback, hmessage, after, hnext⟩ := hinverted
    rw [atCallback_of_took htook] at hcallback
    rw [htook.code_self] at hnext
    rcases hfront with hnone | ⟨j, rfl, hempty, henable⟩
    · rw [hnone, List.nil_append] at hnext
      obtain rfl := (h.user_rest htook.code).2 i after hnext
      rw [State.Holds, htook.held_self, Op.after, Function.update_self, hop] at hmessage
      exact Nat.lt_irrefl 0 hmessage
    · rw [henable] at hnext
      cases hnext
      exact (hapart rest i).2 htook.code hempty hcallback

theorem Safe.step {e : Event} (h : Safe s) (hapart : Apart s e) :
    ∃ s', onEvent s e = .ok s' ∧ Safe s' := by
  cases e with
  | call i =>
      refine ⟨_, rfl, ?_⟩
      by_cases hrest : s.code .user = []
      · apply Safe.mk (h.toShaped.start_call i)
        · intro j hblocked
          exact h.keeps.not_holds_of_rest hrest _ ((s.holds_start ..).mp hblocked.2.1)
        · intro j hinverted
          exact h.keeps.not_holds_of_rest hrest _ ((s.holds_start ..).mp hinverted.2.1)
      · rwa [State.start, if_neg hrest]
  | socketUpdate i reads writes hangup =>
      refine ⟨_, rfl, ?_⟩
      by_cases hrest : s.code .poll = []
      · apply Safe.mk (h.toShaped.start_update i reads writes hangup)
        · intro j hblocked
          exact h.keeps.not_holds_of_rest hrest _ ((s.holds_start ..).mp hblocked.1.1)
        · intro j hinverted
          exact h.keeps.not_holds_of_rest hrest _ ((s.holds_start ..).mp hinverted.1.1)
      · rwa [State.start, if_neg hrest]
  | advance t =>
      obtain ⟨s', hrun, hshaped, ⟨rfl, -⟩ | ⟨op, rest, htook⟩⟩ := h.toShaped.advance t
      · exact ⟨s', hrun, h⟩
      · refine ⟨s', hrun, ?_⟩
        cases t with
        | poll => exact h.took_poll hshaped htook hapart
        | user => exact h.took_user hshaped htook hapart

theorem Safe.not_crossWait (h : Safe s) : ¬ s.CrossWait := by
  intro hcross
  rcases stuck_of_crossWait h.keeps hcross with ⟨i, hblocked⟩ | ⟨i, hinverted⟩
  · exact h.not_blocked i hblocked
  · exact h.not_inverted i hinverted

/-! ### Runs that do not -/

/-- A step that takes no mutex is taken. -/
theorem Shaped.took_of_ne (h : Shaped s) {t : Thread} {op : Step} {rest : List Step}
    (hcode : s.code t = op :: rest) (hop : ∀ m, op ≠ .acquire m) :
    ∃ s', s.advance exec t = .ok s' ∧ Shaped s' ∧ s.Took exec t op rest s' := by
  obtain ⟨s', hrun, hshaped, hstays | ⟨op', rest', htook⟩⟩ := h.advance t
  · exact absurd hstays (State.not_stays hcode hop)
  · cases hcode.symm.trans htook.code
    exact ⟨s', hrun, hshaped, htook⟩

theorem Inverted.crossWait (h : Inverted s i) : s.CrossWait := by
  obtain ⟨⟨hclose, hwants⟩, hmessage, hwants'⟩ := h
  refine ⟨.poll, .user, .close i, .message i, hclose, hwants, fun hpoll => ?_, hmessage, hwants',
    fun huser => ?_⟩
  · cases State.holds_unique hpoll hmessage
  · cases State.holds_unique huser hclose

/-- The mutexes of the transport that the poll thread holds while it waits for `mutex_`. -/
theorem AtRemove.holds (h : AtRemove s i) (hkeeps : s.Keeps allowed) {m : Mutex} (hm : m.of i) :
    s.Holds .poll m := by
  obtain ⟨hmessage, rest, hcode⟩ := h
  rcases hkeeps.allowed_next hcode with hnone | ⟨-, j, hinside⟩
  · rw [State.Holds, hnone] at hmessage
    exact absurd hmessage (Nat.lt_irrefl 0)
  · obtain rfl := hinside.2.2.eq (m := .message i) rfl hmessage
    cases m with
    | client => exact hm.elim
    | close k =>
        obtain rfl : k = i := hm
        exact hinside.1
    | message k =>
        obtain rfl : k = i := hm
        exact hmessage

/-- The call that is ahead is the call on the transport. -/
theorem Ahead.on (h : Ahead s i) (hshaped : Shaped s) : ∀ op ∈ s.code .user, On i op := by
  obtain ⟨-, m, hm, hmem⟩ := h
  obtain ⟨j, hon⟩ := hshaped.user_on
  have hij : j = i := by
    have hmj := hon _ hmem
    cases m with
    | client => exact hm.elim
    | close k => exact (Eq.symm hmj).trans hm
    | message k => exact (Eq.symm hmj).trans hm
  rwa [hij] at hon

/-- The user thread waits for a mutex of the transport, while the poll thread waits for `mutex_`. -/
theorem Blocked.crossWait (h : Blocked s i) (hshaped : Shaped s) {m : Mutex}
    (hwants : s.Wants .user m) : s.CrossWait := by
  obtain ⟨hremove, hahead⟩ := h
  obtain ⟨rest, hcode⟩ := hwants
  have hon := hahead.on hshaped (.acquire m) (by simp [hcode])
  have hclient := hahead.1
  have hm : m.of i := by
    cases m with
    | client =>
        rw [State.Holds, hshaped.keeps.allowed_next hcode] at hclient
        exact absurd hclient (Nat.lt_irrefl 0)
    | close k => exact hon
    | message k => exact hon
  have hpoll := hremove.holds hshaped.keeps hm
  refine ⟨.user, .poll, .client, m, hclient, ⟨rest, hcode⟩, fun huser => ?_, hpoll, hremove.2,
    fun hpoll' => ?_⟩
  · cases State.holds_unique huser hpoll
  · cases State.holds_unique hclient hpoll'

/-- The user thread goes on where it takes no mutex, and is no further from one that it has to take. -/
theorem Blocked.goesOn (h : Blocked s i) (hshaped : Shaped s) {op : Step} {rest : List Step}
    (hcode : s.code .user = op :: rest) (hne : ∀ m, op ≠ .acquire m) :
    ∃ s', onEvent s (.advance .user) = .ok s' ∧ Shaped s' ∧ Blocked s' i ∧
      s'.code .user = rest := by
  obtain ⟨hremove, hahead⟩ := h
  have hon := hahead.on hshaped op (by simp [hcode])
  have hop := hshaped.keeps.allowed_next hcode
  obtain ⟨hclient, m, hm, hmem⟩ := hahead
  rw [hcode] at hmem
  have hrest : .acquire m ∈ rest := (List.mem_cons.mp hmem).resolve_left (Ne.symm (hne m))
  obtain ⟨s', hrun, hshaped', htook⟩ := hshaped.took_of_ne hcode hne
  have hnone : s.expansion exec op = [] := by
    rcases hshaped.user_expansion hcode with hnone | ⟨j, rfl, -, -⟩
    · exact hnone
    · obtain rfl : j = i := hon
      cases State.holds_unique hremove.1 (hop.2 : s.Holds .user (.message j))
  have hcode' : s'.code .user = rest := by rw [htook.code_self, hnone, List.nil_append]
  refine ⟨s', hrun, hshaped', ⟨(atRemove_of_took htook).mpr hremove, ?_, m, hm, ?_⟩, hcode'⟩
  · rw [State.Holds, htook.held_self]
    cases op with
    | acquire n => exact absurd rfl (hne n)
    | release n =>
        have hlast := hshaped.user_last
        rw [hcode, List.dropLast_cons_of_ne_nil (List.ne_nil_of_mem hrest)] at hlast
        have hn : .client ≠ n := by
          rintro rfl
          exact hlast List.mem_cons_self
        rw [Op.after_release_of_ne _ hn]
        exact hclient
    | act a => exact hclient
  · rwa [hcode']

/-- The user thread, going on alone, comes to wait for the poll thread, which waits for it. -/
theorem Blocked.reaches (h : Blocked s i) (hshaped : Shaped s) :
    ∃ n s', run onEvent s (List.replicate n (.advance .user)) = .ok s' ∧ s'.CrossWait := by
  induction hsteps : s.code .user generalizing s with
  | nil =>
      obtain ⟨-, -, m, -, hmem⟩ := h
      rw [hsteps] at hmem
      cases hmem
  | cons op rest ih =>
      by_cases htakes : ∃ m, op = .acquire m
      · obtain ⟨m, rfl⟩ := htakes
        exact ⟨0, s, rfl, h.crossWait hshaped ⟨rest, hsteps⟩⟩
      · obtain ⟨s', hrun, hshaped', hblocked, hrest⟩ :=
          h.goesOn hshaped hsteps fun m hm => htakes ⟨m, hm⟩
        obtain ⟨n, t, hreach, hcross⟩ := ih hblocked hshaped' hrest
        exact ⟨n + 1, t, (run_cons_of_step hrun _).trans hreach, hcross⟩

theorem AtRemove.not_holds (h : AtRemove s i) (hkeeps : s.Keeps allowed) :
    ¬ s.Holds .poll .client := by
  intro hclient
  obtain ⟨rest, hcode⟩ := h.2
  rw [State.Holds] at hclient
  rcases hkeeps.allowed_next hcode with hnone | ⟨hfree, -⟩
  · rw [hnone] at hclient
    exact Nat.lt_irrefl 0 hclient
  · rw [hfree] at hclient
    exact Nat.lt_irrefl 0 hclient

/-- The user thread begins a call on the transport whose disconnect callback waits. -/
theorem Shaped.blocked_of_begins (h : Shaped s) {rest : List Step}
    (hcode : s.code .user = .acquire .client :: rest)
    (hahead : ∃ m : Mutex, m.of i ∧ .acquire m ∈ rest) (hremove : AtRemove s i) :
    ∃ s', s.advance exec .user = .ok s' ∧ Shaped s' ∧ Blocked s' i := by
  obtain ⟨s', hrun, hshaped, ⟨-, hnil | ⟨m, u, ⟨rest', hnext⟩, hne, hheld⟩⟩ | ⟨op, rest', htook⟩⟩ :=
    h.advance .user
  · rw [hcode] at hnil
    cases hnil
  · cases hcode.symm.trans hnext
    cases u with
    | user => exact absurd rfl hne
    | poll => exact absurd hheld (hremove.not_holds h.keeps)
  · cases hcode.symm.trans htook.code
    obtain ⟨m, hm, hmem⟩ := hahead
    refine ⟨s', hrun, hshaped, (atRemove_of_took htook).mpr hremove, ?_, m, hm, ?_⟩
    · rw [State.Holds, htook.held_self, Op.after_acquire_self]
      exact Nat.succ_pos _
    · rw [htook.code_self]
      exact hmem

/-- A `sendFrames` finds the queue empty while the poll thread is about to run a callback. -/
theorem Shaped.inverted_of_enableWrite (h : Shaped s) {rest : List Step}
    (hcode : s.code .user = .act (.enableWriteIfEmpty i) :: rest)
    (hempty : (s.data.connection i).queue = 0) (hcallback : AtCallback s i) :
    ∃ s', s.advance exec .user = .ok s' ∧ Shaped s' ∧ Inverted s' i := by
  obtain ⟨s', hrun, hshaped, htook⟩ := h.took_of_ne hcode (Op.act_ne_acquire _)
  have hfront : s.expansion exec (.act (.enableWriteIfEmpty i)) = enableWrite i := if_pos hempty
  refine ⟨s', hrun, hshaped, (atCallback_of_took htook).mpr hcallback, ?_, htook.wants_self hfront⟩
  rw [State.Holds, htook.held_self]
  exact (h.keeps.allowed_next hcode).2

/-- The poll thread closes a transport on which a call has mutexes to take. -/
theorem Shaped.blocked_of_callback (h : Shaped s) {rest : List Step}
    (hcode : s.code .poll = .act (.callDisconnectCb i) :: rest) (hcb : s.data.disconnectCb = true)
    (hmessage : s.Holds .poll (.message i)) (hahead : Ahead s i) :
    ∃ s', s.advance exec .poll = .ok s' ∧ Shaped s' ∧ Blocked s' i := by
  obtain ⟨s', hrun, hshaped, htook⟩ := h.took_of_ne hcode (Op.act_ne_acquire _)
  have hfront : s.expansion exec (.act (.callDisconnectCb i)) = removeConnection := if_pos hcb
  refine ⟨s', hrun, hshaped, ⟨?_, htook.wants_self hfront⟩, (ahead_of_took htook).mpr hahead⟩
  rw [State.Holds, htook.held_self]
  exact hmessage

/-- The poll thread runs a callback while an `enableWrite` is about to take `close_mutex_`. -/
theorem Shaped.inverted_of_callback (h : Shaped s) {rest : List Step} {cb : Callback}
    (hcode : s.code .poll = .act (.runCallback i cb) :: rest)
    (hready : cb.ready (s.data.connection i) = true) (henable : AtEnableWrite s i) :
    ∃ s', s.advance exec .poll = .ok s' ∧ Shaped s' ∧ Inverted s' i := by
  obtain ⟨s', hrun, hshaped, htook⟩ := h.took_of_ne hcode (Op.act_ne_acquire _)
  obtain ⟨steps, hsteps⟩ := cb.steps_eq i
  have hfront : s.expansion exec (.act (.runCallback i cb)) = .acquire (.message i) :: steps := by
    rw [← hsteps]
    exact if_pos hready
  refine ⟨s', hrun, hshaped, ⟨?_, htook.wants_self hfront⟩, (atEnableWrite_of_took htook).mpr henable⟩
  rw [State.Holds, htook.held_self]
  exact (h.keeps.allowed_next hcode).1

/-- A step that does not keep apart leads into one of the two ways. -/
theorem Shaped.stuck {e : Event} (h : Shaped s) (hapart : ¬ Apart s e) :
    ∃ s', onEvent s e = .ok s' ∧ Shaped s' ∧ ∃ i, Blocked s' i ∨ Inverted s' i := by
  cases e with
  | call i => exact absurd trivial hapart
  | socketUpdate i reads writes hangup => exact absurd trivial hapart
  | advance t =>
      cases t with
      | user =>
          rw [Apart, not_forall] at hapart
          obtain ⟨rest, hapart⟩ := hapart
          rw [not_forall] at hapart
          obtain ⟨i, hapart⟩ := hapart
          rcases not_and_or.mp hapart with hbegins | hwrites
          · push Not at hbegins
            obtain ⟨hcode, hahead, hremove⟩ := hbegins
            obtain ⟨s', hrun, hshaped, hblocked⟩ := h.blocked_of_begins hcode hahead hremove
            exact ⟨s', hrun, hshaped, i, Or.inl hblocked⟩
          · push Not at hwrites
            obtain ⟨hcode, hempty, hcallback⟩ := hwrites
            obtain ⟨s', hrun, hshaped, hinverted⟩ :=
              h.inverted_of_enableWrite hcode hempty hcallback
            exact ⟨s', hrun, hshaped, i, Or.inr hinverted⟩
      | poll =>
          rw [Apart, not_forall] at hapart
          obtain ⟨rest, hapart⟩ := hapart
          rw [not_forall] at hapart
          obtain ⟨i, hapart⟩ := hapart
          rcases not_and_or.mp hapart with hcloses | hruns
          · push Not at hcloses
            obtain ⟨hcode, hcb, hmessage, hahead⟩ := hcloses
            obtain ⟨s', hrun, hshaped, hblocked⟩ :=
              h.blocked_of_callback hcode hcb hmessage hahead
            exact ⟨s', hrun, hshaped, i, Or.inl hblocked⟩
          · push Not at hruns
            obtain ⟨cb, hcode, hready, henable⟩ := hruns
            obtain ⟨s', hrun, hshaped, hinverted⟩ := h.inverted_of_callback hcode hready henable
            exact ⟨s', hrun, hshaped, i, Or.inr hinverted⟩

end

/-- **The call and the poll thread wait for each other exactly where they are not kept apart.** No state
of a run that keeps them apart has two threads that each hold a mutex and wait for the one the other
holds. Any other run comes to such a state once the user thread goes on alone after some step. -/
theorem apart_or_deadlocks (events : List Event) :
    (Along onEvent Apart idle events → ∀ before, before <+: events →
      ∃ s, run onEvent idle before = .ok s ∧ ¬ s.CrossWait) ∧
    (¬ Along onEvent Apart idle events → ∃ before n s, before <+: events ∧
      run onEvent idle (before ++ List.replicate n (.advance .user)) = .ok s ∧ s.CrossWait) := by
  constructor
  · intro happart before hbefore
    obtain ⟨s, hrun, hsafe⟩ := run_invariant (I := Safe) (fun _ _ hsafe hstep => hsafe.step hstep)
      safe_idle (happart.of_prefix hbefore)
    exact ⟨s, hrun, hsafe.not_crossWait⟩
  · intro hnot
    obtain ⟨before, e, after, s, rfl, happart, hrun, hstep⟩ := exists_first_failure hnot
    obtain ⟨s₁, hrun₁, hsafe⟩ := run_invariant (I := Safe) (fun _ _ hsafe hstep => hsafe.step hstep)
      safe_idle happart
    obtain rfl := Except.ok.inj (hrun.symm.trans hrun₁)
    obtain ⟨s', hnext, hshaped, i, hblocked | hinverted⟩ := hsafe.toShaped.stuck hstep
    · obtain ⟨n, t, hreach, hcross⟩ := hblocked.reaches hshaped
      refine ⟨before ++ [e], n, t, ⟨after, by simp⟩, ?_, hcross⟩
      rw [run_append_of_run ((run_concat_of_run hrun e).trans hnext)]
      exact hreach
    · refine ⟨before ++ [e], 0, s', ⟨after, by simp⟩, ?_, hinverted.crossWait⟩
      rw [List.replicate_zero, List.append_nil, run_concat_of_run hrun]
      exact hnext

/-- The transport drops between `setDisconnectCallback` and `sendFrames`. -/
def dropDuringCall : List Event :=
  [.call 0, .socketUpdate 0 (some true) none false] ++ List.replicate 10 (.advance .user)
    ++ List.replicate 11 (.advance .poll)

theorem drop_during_call_deadlocks :
    ∃ s, run onEvent idle dropDuringCall = .ok s ∧ s.CrossWait := by
  refine ⟨_, rfl, .poll, .user, .message 0, .client, ?_⟩
  exact ⟨by decide, ⟨_, rfl⟩, by decide, by decide, ⟨_, rfl⟩, by decide⟩

end Ros2Proto.CallLocking
