import Mathlib.Data.Set.Insert
import Ros2Proto.Base.Assignment
import Ros2Proto.PubSub.Options
import Ros2Proto.Transport.Connecting

/-!
# Shutting a publisher down

`TCPPublish::shutdown` on one thread while the poll thread runs. Shutdown copies `connections_` under
`connections_mutex_`, closes each transport of the copy and closes the server last. `close` marks the
transport closed under its `close_mutex_` and calls `onDisconnect` after that. The poll thread serves one
event at a time: it holds the server's `close_mutex_` from `accept` until `onAccept` is done, and a
connection's while its options are read. A transport is known by its place among those the server
accepted.

A connection that `onAccept` adds after the copy is closed by nobody but its peer. A transport whose socket
`accept` could not make non-blocking is closed before `onAccept` lists it, so its `disconnect_cb` never runs
and nothing takes it off the list. So nothing is left exactly if each late connection has been dropped by
its peer and there is no transport of the other kind.
-/

namespace Ros2Proto

open FallibleRun

/-- A `Connection` of `connections_`, with the place of its transport. -/
structure ConnectionEntry where
  tcp : Nat
  setup : Bool
  opts : TCPOptions

/-- Where the thread that calls `shutdown` is. -/
inductive ShutdownThread
  | before
  /-- these transports of the copy are left -/
  | closing (rest : List Nat)
  /-- in `close`, with `disconnect_cb` to be called -/
  | notifying (i : Nat) (rest : List Nat)
  | returned

/-- The part of the copy that has not been closed. -/
def ShutdownThread.rest : ShutdownThread → List Nat
  | .closing rest | .notifying _ rest => rest
  | .before | .returned => []

/-- Where the poll thread is. -/
inductive PollThread
  | idle
  /-- in `socketUpdate` of the server, with `accept_cb_` to be called -/
  | accepting (i : Nat)
  /-- in `socketUpdate` of a connection, with its options to be passed on -/
  | reading (i : Nat) (opts : TCPOptions)
  /-- in `close` of a connection, with `disconnect_cb` to be called -/
  | notifying (i : Nat)

structure PublisherThreads where
  transports : List TransportTCP
  connections : List ConnectionEntry
  serverClosed : Bool
  user : ShutdownThread
  poll : PollThread
  /-- the transports that `onAccept` added after the copy was made -/
  late : List Nat
  /-- the transports that the poll thread closed, as their peers were gone -/
  dropped : List Nat
  /-- the transports that were closed when `accept` passed them on -/
  stillborn : List Nat

/-- A step of shutdown, what the poll thread finds to do, or the callback it has to call. -/
inductive ThreadEvent
  | shutdown
  /-- a connection is there to be accepted, and `set_non_blocking` succeeds on it or not -/
  | accept (e : Endpoint) (nonBlocking : Bool)
  | options (i : Nat) (opts : TCPOptions)
  | drop (i : Nat)
  | callback

namespace PublisherThreads

def empty : PublisherThreads := ⟨[], [], false, .before, .idle, [], [], []⟩

/-- The places of the transports in `connections_`. -/
def ids (s : PublisherThreads) : List Nat := s.connections.map ConnectionEntry.tcp

/-! ### The callbacks -/

def onAccept (s : PublisherThreads) (i : Nat) (t : TransportTCP) :
    Except Fault PublisherThreads := do
  let t ← t.enableMessagePass.setDisconnectCallback.enableRead
  .ok { s with
    transports := s.transports.set i t.setMsgCallback
    connections := s.connections ++ [⟨i, false, ⟨false, 0, 0⟩⟩] }

def onOptions (s : PublisherThreads) (i : Nat) (t : TransportTCP) (opts : TCPOptions) :
    Except Fault PublisherThreads := do
  let t ← t.disableRead
  match s.connections.find? fun conn => conn.tcp = i with
  | none => .ok { s with transports := s.transports.set i t }
  | some conn =>
    if conn.setup then .error .rosBreak
    else do
      let t ← t.setFilter (intOfU32 opts.filter)
      .ok { s with
        transports := s.transports.set i t
        connections := s.connections.map fun conn => if conn.tcp = i then ⟨i, true, opts⟩ else conn }

def onDisconnect (s : PublisherThreads) (i : Nat) : PublisherThreads :=
  { s with connections := s.connections.eraseP fun conn => conn.tcp = i }

/-! ### The threads -/

/-- The next step of `shutdown`, which may have to wait for the poll thread. -/
def onShutdown (s : PublisherThreads) : Except Fault PublisherThreads :=
  match s.user with
  | .before => .ok { s with user := .closing s.ids }
  | .closing [] =>
    match s.poll with
    | .accepting _ => .ok s
    | _ => .ok { s with serverClosed := true, user := .returned }
  | .closing (i :: rest) =>
    match s.transports[i]? with
    | none => .error .nullPointer
    | some t =>
      if t.closed then .ok { s with user := .closing rest }
      else
        match s.poll with
        | .reading j _ => if j = i then .ok s else closeCopy s i t rest
        | _ => closeCopy s i t rest
  | .notifying i rest => .ok { s.onDisconnect i with user := .closing rest }
  | .returned => .ok s
where
  closeCopy (s : PublisherThreads) (i : Nat) (t : TransportTCP) (rest : List Nat) :
      Except Fault PublisherThreads := do
    let t' ← t.close
    .ok { s with
      transports := s.transports.set i t'
      user := if t.disconnectCb then .notifying i rest else .closing rest }

/-- The peer of a connection is gone: a read fails, or the socket reports it. -/
def onDrop (s : PublisherThreads) (i : Nat) (t : TransportTCP) : Except Fault PublisherThreads := do
  let t' ← t.close
  .ok { s with
    transports := s.transports.set i t'
    poll := if t.disconnectCb then .notifying i else .idle
    dropped := s.dropped ++ [i] }

/-- Whether the copy has been made. -/
def copied (s : PublisherThreads) : Bool :=
  match s.user with
  | .before => false
  | _ => true

def onCallback (s : PublisherThreads) : Except Fault PublisherThreads :=
  match s.poll with
  | .idle => .ok s
  | .accepting i =>
    match s.transports[i]? with
    | none => .error .nullPointer
    | some t => do
      let s' ← s.onAccept i t
      .ok { s' with poll := .idle, late := if s.copied then s.late ++ [i] else s.late }
  | .reading i opts =>
    match s.transports[i]? with
    | none => .error .nullPointer
    | some t => do
      let s' ← s.onOptions i t opts
      .ok { s' with poll := .idle }
  | .notifying i => .ok { s.onDisconnect i with poll := .idle }

/-- The poll thread takes up an event only when it is idle and the socket is open. -/
def onEvent (s : PublisherThreads) : ThreadEvent → Except Fault PublisherThreads
  | .shutdown => s.onShutdown
  | .callback => s.onCallback
  | .accept e nonBlocking =>
    match s.poll with
    | .idle =>
      if s.serverClosed then .ok s
      else do
        let t ← TransportTCP.accept e nonBlocking
        let i := s.transports.length
        .ok { s with
          transports := s.transports ++ [t]
          poll := .accepting i
          stillborn := if nonBlocking then s.stillborn else s.stillborn ++ [i] }
    | _ => .ok s
  | .options i opts =>
    match s.poll, s.transports[i]? with
    | .idle, some t =>
      if t.closed ∨ !t.expectingRead then .ok s else .ok { s with poll := .reading i opts }
    | _, _ => .ok s
  | .drop i =>
    match s.poll, s.transports[i]? with
    | .idle, some t => if t.closed then .ok s else s.onDrop i t
    | _, _ => .ok s

/-! ### What should be left -/

/-- `shutdown` has returned, and the poll thread is in no callback. -/
def Finished (s : PublisherThreads) : Prop := s.user = .returned ∧ s.poll = .idle

/-- No connection is listed, and no transport is open. -/
def Clean (s : PublisherThreads) : Prop :=
  s.connections = [] ∧ ∀ t ∈ s.transports, t.closed = true

end PublisherThreads

/-! ### The threads without their transports -/

/-- Which transports are listed and which are open, and where the threads are. -/
structure ShutdownView where
  ids : List Nat
  opened : Set Nat
  count : Nat
  serverClosed : Bool
  user : ShutdownThread
  poll : PollThread
  late : List Nat
  dropped : List Nat
  stillborn : List Nat

namespace ShutdownView

/-- A transport that is listed or open has a thread that is to close or to erase it, but for those
that came late and those that were closed when they came. -/
structure Inv (v : ShutdownView) : Prop where
  nodup : v.ids.Nodup
  ids_lt : ∀ i ∈ v.ids, i < v.count
  opened_lt : ∀ i ∈ v.opened, i < v.count
  known : ∀ i ∈ v.opened, i ∈ v.ids ∨ v.poll = .accepting i
  removing : ∀ i ∈ v.ids, i ∉ v.opened → i ∉ v.stillborn →
    (∃ rest, v.user = .notifying i rest) ∨ v.poll = .notifying i
  copied : v.user ≠ .before → ∀ i ∈ v.ids, i ∈ v.opened → i ∈ v.user.rest ∨ i ∈ v.late
  early : v.user = .before → v.late = []
  rest : ∀ i ∈ v.user.rest, i < v.count ∧ i ∉ v.late
  fresh : ∀ i, v.poll = .accepting i → i ∉ v.ids ∧ i ∉ v.user.rest ∧ i ∉ v.late
  born : ∀ i, v.poll = .accepting i → i < v.count ∧ (i ∈ v.opened ∨ i ∈ v.stillborn)
  userNotifies : ∀ i rest, v.user = .notifying i rest → i < v.count ∧ i ∉ v.opened ∧ i ∉ v.stillborn
  pollNotifies : ∀ i, v.poll = .notifying i → i ∉ v.opened ∧ i ∉ v.stillborn
  late : ∀ i ∈ v.late, i < v.count ∧ (i ∈ v.opened ∨ i ∈ v.dropped ∨ i ∈ v.stillborn)
  dropped : ∀ i ∈ v.dropped, i < v.count ∧ i ∉ v.opened
  stillborn : ∀ i ∈ v.stillborn, i < v.count ∧ i ∉ v.opened ∧ (i ∈ v.ids ∨ v.poll = .accepting i)
  noAccept : v.serverClosed = true → ∀ i, v.poll ≠ .accepting i
  ended : v.user = .returned → v.serverClosed = true

variable {v : ShutdownView} {i : Nat} {rest : List Nat}

/-- A listed transport that is closed is for the poll thread to remove, if `shutdown` does not. -/
theorem Inv.removing_poll (h : v.Inv) (hi : i ∈ v.ids) (hclosed : i ∉ v.opened)
    (hborn : i ∉ v.stillborn) (huser : ∀ rest, v.user ≠ .notifying i rest) : v.poll = .notifying i := by
  rcases h.removing i hi hclosed hborn with ⟨rest, hrest⟩ | hpoll
  · exact absurd hrest (huser rest)
  · exact hpoll

/-- If the poll thread does not remove it, `shutdown` does. -/
theorem Inv.removing_user (h : v.Inv) (hi : i ∈ v.ids) (hclosed : i ∉ v.opened)
    (hborn : i ∉ v.stillborn) (hpoll : v.poll ≠ .notifying i) : ∃ rest, v.user = .notifying i rest := by
  rcases h.removing i hi hclosed hborn with hrest | hremoving
  · exact hrest
  · exact absurd hremoving hpoll

theorem Inv.copied_rest (h : v.Inv) {user : ShutdownThread} (huser : v.user = user) (hstarted : user ≠ .before)
    (hi : i ∈ v.ids) (hopen : i ∈ v.opened) : i ∈ user.rest ∨ i ∈ v.late := by
  have hcopied := h.copied (huser ▸ hstarted) i hi hopen
  rwa [huser] at hcopied

/-! #### Steps of shutdown -/

theorem Inv.copy (h : v.Inv) (huser : v.user = .before) : Inv { v with user := .closing v.ids } where
  __ := h
  removing k hk hclosed hborn := Or.inr (h.removing_poll hk hclosed hborn (by rw [huser]; nofun))
  copied _ k hk _ := Or.inl hk
  early := nofun
  rest k hk := ⟨h.ids_lt k hk, by rw [h.early huser]; exact List.not_mem_nil⟩
  fresh k hk := ⟨(h.fresh k hk).1, (h.fresh k hk).1, (h.fresh k hk).2.2⟩
  userNotifies := nofun
  ended := nofun

theorem Inv.finish (h : v.Inv) (huser : v.user = .closing []) (hpoll : ∀ i, v.poll ≠ .accepting i) :
    Inv { v with serverClosed := true, user := .returned } where
  __ := h
  removing k hk hclosed hborn := Or.inr (h.removing_poll hk hclosed hborn (by rw [huser]; nofun))
  copied _ k hk hopen := by
    show k ∈ (ShutdownThread.closing []).rest ∨ k ∈ v.late
    exact h.copied_rest huser nofun hk hopen
  early := nofun
  rest := nofun
  fresh k hk := absurd hk (hpoll k)
  userNotifies := nofun
  noAccept _ := hpoll
  ended _ := rfl

/-- The next transport of the copy is closed already. -/
theorem Inv.skip (h : v.Inv) (huser : v.user = .closing (i :: rest)) (hi : i ∉ v.opened) :
    Inv { v with user := .closing rest } where
  __ := h
  removing k hk hclosed hborn := Or.inr (h.removing_poll hk hclosed hborn (by rw [huser]; nofun))
  copied _ k hk hopen := by
    have hne : k ≠ i := fun heq => hi (heq ▸ hopen)
    have hcopied := h.copied_rest huser nofun hk hopen
    exact hcopied.imp_left fun hmem => (List.mem_cons.mp hmem).resolve_left hne
  early := nofun
  rest k hk := h.rest k (by rw [huser]; exact List.mem_cons_of_mem i hk)
  fresh k hk := by
    obtain ⟨hids, hrest, hlate⟩ := h.fresh k hk
    rw [huser] at hrest
    exact ⟨hids, fun hmem => hrest (List.mem_cons_of_mem i hmem), hlate⟩
  userNotifies := nofun
  ended := nofun

/-- The next transport of the copy is closed, and its callback is to be called. -/
theorem Inv.close (h : v.Inv) (huser : v.user = .closing (i :: rest)) (hi : i ∈ v.opened) :
    Inv { v with opened := v.opened \ {i}, user := .notifying i rest } where
  __ := h
  opened_lt k hk := h.opened_lt k hk.1
  known k hk := h.known k hk.1
  removing k hk hclosed hborn := by
    by_cases hki : k = i
    · exact Or.inl ⟨rest, by rw [hki]⟩
    · have hclosedBefore : k ∉ v.opened := fun hopen => hclosed ⟨hopen, hki⟩
      exact Or.inr (h.removing_poll hk hclosedBefore hborn (by rw [huser]; nofun))
  copied _ k hk hopen := by
    have hcopied := h.copied_rest huser nofun hk hopen.1
    exact hcopied.imp_left fun hmem => (List.mem_cons.mp hmem).resolve_left hopen.2
  early := nofun
  rest k hk := h.rest k (by rw [huser]; exact List.mem_cons_of_mem i hk)
  fresh k hk := by
    obtain ⟨hids, hrest, hlate⟩ := h.fresh k hk
    rw [huser] at hrest
    exact ⟨hids, fun hmem => hrest (List.mem_cons_of_mem i hmem), hlate⟩
  born k hk := by
    have hrest := (h.fresh k hk).2.1
    rw [huser] at hrest
    have hne : k ≠ i := fun heq => hrest (heq ▸ List.mem_cons_self)
    exact ⟨(h.born k hk).1, (h.born k hk).2.imp_left fun hopen => ⟨hopen, hne⟩⟩
  userNotifies k ks hk := by
    obtain ⟨rfl, rfl⟩ := ShutdownThread.notifying.inj hk
    exact ⟨h.opened_lt i hi, fun hopen => hopen.2 rfl, fun hborn => (h.stillborn i hborn).2.1 hi⟩
  pollNotifies k hk := ⟨fun hopen => (h.pollNotifies k hk).1 hopen.1, (h.pollNotifies k hk).2⟩
  late k hk := by
    have hne : k ≠ i := fun heq =>
      (h.rest i (by rw [huser]; exact List.mem_cons_self)).2 (heq ▸ hk)
    exact ⟨(h.late k hk).1, (h.late k hk).2.imp_left fun hopen => ⟨hopen, hne⟩⟩
  dropped k hk := ⟨(h.dropped k hk).1, fun hopen => (h.dropped k hk).2 hopen.1⟩
  stillborn k hk := by
    obtain ⟨hlt, hclosed, hlisted⟩ := h.stillborn k hk
    exact ⟨hlt, fun hopen => hclosed hopen.1, hlisted⟩
  ended := nofun

theorem Inv.notified (h : v.Inv) (huser : v.user = .notifying i rest) :
    Inv { v with ids := v.ids.erase i, user := .closing rest } where
  __ := h
  nodup := h.nodup.erase i
  ids_lt k hk := h.ids_lt k (List.mem_of_mem_erase hk)
  known k hk := by
    have hne : k ≠ i := fun heq => (h.userNotifies i rest huser).2.1 (heq ▸ hk)
    exact (h.known k hk).imp_left fun hmem => (h.nodup.mem_erase_iff).mpr ⟨hne, hmem⟩
  removing k hk hclosed hborn := by
    obtain ⟨hne, hmem⟩ := h.nodup.mem_erase_iff.mp hk
    refine Or.inr (h.removing_poll hmem hclosed hborn fun ks hks => hne ?_)
    rw [huser] at hks
    exact (ShutdownThread.notifying.inj hks).1.symm
  copied _ k hk hopen := by
    show k ∈ (ShutdownThread.notifying i rest).rest ∨ k ∈ v.late
    exact h.copied_rest huser nofun (List.mem_of_mem_erase hk) hopen
  early := nofun
  rest k hk := h.rest k (by rw [huser]; exact hk)
  fresh k hk := by
    obtain ⟨hids, hrest, hlate⟩ := h.fresh k hk
    rw [huser] at hrest
    exact ⟨fun hmem => hids (List.mem_of_mem_erase hmem), hrest, hlate⟩
  userNotifies := nofun
  stillborn k hk := by
    obtain ⟨hlt, hclosed, hlisted⟩ := h.stillborn k hk
    have hne : k ≠ i := fun heq => (h.userNotifies i rest huser).2.2 (heq ▸ hk)
    exact ⟨hlt, hclosed, hlisted.imp_left fun hmem => h.nodup.mem_erase_iff.mpr ⟨hne, hmem⟩⟩
  ended := nofun

/-! #### Steps of the poll thread -/

/-- A transport is accepted, and it is open or was closed at once. -/
theorem Inv.accept (h : v.Inv) (hpoll : v.poll = .idle) (hserver : ¬ v.serverClosed = true)
    (nonBlocking : Bool) {opened : Set Nat} {stillborn : List Nat}
    (hopened : ∀ k, k ∈ opened ↔ k ∈ v.opened ∨ k = v.count ∧ nonBlocking = true)
    (hstillborn : ∀ k, k ∈ stillborn ↔ k ∈ v.stillborn ∨ k = v.count ∧ nonBlocking = false) :
    Inv { v with
      opened := opened
      count := v.count + 1
      poll := .accepting v.count
      stillborn := stillborn } := by
  have hopenedOld : ∀ k < v.count, k ∈ opened → k ∈ v.opened := fun k hlt hopen =>
    ((hopened k).mp hopen).resolve_right fun hnew => hlt.ne hnew.1
  have hstillbornOld : ∀ k < v.count, k ∈ stillborn → k ∈ v.stillborn := fun k hlt hborn =>
    ((hstillborn k).mp hborn).resolve_right fun hnew => hlt.ne hnew.1
  have hclosedOld : ∀ k, k ∉ opened → k ∉ v.opened := fun k hclosed hopen =>
    hclosed ((hopened k).mpr (Or.inl hopen))
  have hbornOld : ∀ k, k ∉ stillborn → k ∉ v.stillborn := fun k hborn hstill =>
    hborn ((hstillborn k).mpr (Or.inl hstill))
  exact {
    h with
    ids_lt := fun k hk => Nat.lt_succ_of_lt (h.ids_lt k hk)
    opened_lt := fun k hk => by
      rcases (hopened k).mp hk with hold | ⟨rfl, -⟩
      · exact Nat.lt_succ_of_lt (h.opened_lt k hold)
      · exact Nat.lt_succ_self _
    known := fun k hk => by
      rcases (hopened k).mp hk with hold | ⟨rfl, -⟩
      · have hknown := h.known k hold
        rw [hpoll] at hknown
        exact Or.inl (hknown.resolve_right nofun)
      · exact Or.inr rfl
    removing := fun k hk hclosed hborn => by
      have hremoving := h.removing_user hk (hclosedOld k hclosed) (hbornOld k hborn)
        (by rw [hpoll]; nofun)
      exact Or.inl hremoving
    copied := fun huser k hk hopen => h.copied huser k hk (hopenedOld k (h.ids_lt k hk) hopen)
    rest := fun k hk => ⟨Nat.lt_succ_of_lt (h.rest k hk).1, (h.rest k hk).2⟩
    fresh := fun k hk => by
      obtain rfl := PollThread.accepting.inj hk
      exact ⟨fun hmem => (h.ids_lt _ hmem).false, fun hmem => (h.rest _ hmem).1.false,
        fun hmem => (h.late _ hmem).1.false⟩
    born := fun k hk => by
      obtain rfl := PollThread.accepting.inj hk
      refine ⟨Nat.lt_succ_self _, ?_⟩
      cases nonBlocking with
      | true => exact Or.inl ((hopened _).mpr (Or.inr ⟨rfl, rfl⟩))
      | false => exact Or.inr ((hstillborn _).mpr (Or.inr ⟨rfl, rfl⟩))
    userNotifies := fun k ks hk => by
      obtain ⟨hlt, hclosed, hborn⟩ := h.userNotifies k ks hk
      exact ⟨Nat.lt_succ_of_lt hlt, fun hopen => hclosed (hopenedOld k hlt hopen),
        fun hstill => hborn (hstillbornOld k hlt hstill)⟩
    pollNotifies := nofun
    late := fun k hk => by
      obtain ⟨hlt, hopen | hdropped | hborn⟩ := h.late k hk
      · exact ⟨Nat.lt_succ_of_lt hlt, Or.inl ((hopened k).mpr (Or.inl hopen))⟩
      · exact ⟨Nat.lt_succ_of_lt hlt, Or.inr (Or.inl hdropped)⟩
      · exact ⟨Nat.lt_succ_of_lt hlt, Or.inr (Or.inr ((hstillborn k).mpr (Or.inl hborn)))⟩
    dropped := fun k hk => by
      obtain ⟨hlt, hclosed⟩ := h.dropped k hk
      exact ⟨Nat.lt_succ_of_lt hlt, fun hopen => hclosed (hopenedOld k hlt hopen)⟩
    stillborn := fun k hk => by
      rcases (hstillborn k).mp hk with hold | ⟨rfl, hblocking⟩
      · obtain ⟨hlt, hclosed, hlisted⟩ := h.stillborn k hold
        rw [hpoll] at hlisted
        exact ⟨Nat.lt_succ_of_lt hlt, fun hopen => hclosed (hopenedOld k hlt hopen),
          Or.inl (hlisted.resolve_right nofun)⟩
      · refine ⟨Nat.lt_succ_self _, fun hopen => ?_, Or.inr rfl⟩
        rcases (hopened _).mp hopen with hold | ⟨-, htrue⟩
        · exact (h.opened_lt _ hold).false
        · exact Bool.false_ne_true (hblocking.symm.trans htrue)
    noAccept := fun hclosed => absurd hclosed hserver }

/-- A connection that is listed after the copy was made is late. -/
theorem Inv.accepted (h : v.Inv) (hpoll : v.poll = .accepting i) {late : List Nat}
    (hlate : v.user = .before ∧ late = v.late ∨ v.user ≠ .before ∧ late = v.late ++ [i]) :
    Inv { v with ids := v.ids ++ [i], poll := .idle, late := late } where
  __ := h
  nodup := by
    obtain ⟨hids, -, -⟩ := h.fresh i hpoll
    refine List.nodup_append.mpr ⟨h.nodup, by simp, fun k hk j hj heq => hids ?_⟩
    rwa [heq, List.mem_singleton.mp hj] at hk
  ids_lt k hk := by
    rcases List.mem_append.mp hk with hk | hk
    · exact h.ids_lt k hk
    · obtain rfl := List.mem_singleton.mp hk
      exact (h.born k hpoll).1
  known k hk := by
    rcases h.known k hk with hmem | haccepting
    · exact Or.inl (List.mem_append_left _ hmem)
    · rw [hpoll] at haccepting
      obtain rfl := PollThread.accepting.inj haccepting
      exact Or.inl (by simp)
  removing k hk hclosed hborn := by
    rcases List.mem_append.mp hk with hk | hk
    · exact Or.inl (h.removing_user hk hclosed hborn (by rw [hpoll]; nofun))
    · obtain rfl := List.mem_singleton.mp hk
      rcases (h.born k hpoll).2 with hopen | hstill
      · exact absurd hopen hclosed
      · exact absurd hstill hborn
  copied huser k hk hopen := by
    obtain ⟨hbefore, -⟩ | ⟨-, rfl⟩ := hlate
    · exact absurd hbefore huser
    · rcases List.mem_append.mp hk with hk | hk
      · exact (h.copied huser k hk hopen).imp_right fun hmem => List.mem_append_left _ hmem
      · exact Or.inr (List.mem_append_right _ hk)
  early huser := by
    obtain ⟨-, rfl⟩ | ⟨hafter, -⟩ := hlate
    · exact h.early huser
    · exact absurd huser hafter
  rest k hk := by
    refine ⟨(h.rest k hk).1, fun hmem => ?_⟩
    obtain ⟨-, rfl⟩ | ⟨-, rfl⟩ := hlate
    · exact (h.rest k hk).2 hmem
    · rcases List.mem_append.mp hmem with hmem | hmem
      · exact (h.rest k hk).2 hmem
      · obtain rfl := List.mem_singleton.mp hmem
        exact (h.fresh k hpoll).2.1 hk
  fresh := nofun
  born := nofun
  pollNotifies := nofun
  late k hk := by
    obtain ⟨-, rfl⟩ | ⟨-, rfl⟩ := hlate
    · exact h.late k hk
    · rcases List.mem_append.mp hk with hk | hk
      · exact h.late k hk
      · obtain rfl := List.mem_singleton.mp hk
        obtain ⟨hlt, hborn⟩ := h.born k hpoll
        exact ⟨hlt, hborn.imp_right Or.inr⟩
  stillborn k hk := by
    obtain ⟨hlt, hclosed, hlisted⟩ := h.stillborn k hk
    refine ⟨hlt, hclosed, Or.inl ?_⟩
    rcases hlisted with hmem | haccepting
    · exact List.mem_append_left _ hmem
    · rw [hpoll] at haccepting
      obtain rfl := PollThread.accepting.inj haccepting
      exact List.mem_append_right _ (List.mem_singleton_self _)
  noAccept _ := nofun

/-- The poll thread goes from one place to another that no invariant is about. -/
theorem Inv.setPoll (h : v.Inv) {poll : PollThread} (hpoll : ∀ i, v.poll ≠ .accepting i)
    (hpoll' : ∀ i, v.poll ≠ .notifying i) (haccepting : ∀ i, poll ≠ .accepting i)
    (hnotifying : ∀ i, poll ≠ .notifying i) : Inv { v with poll := poll } where
  __ := h
  known k hk := Or.inl ((h.known k hk).resolve_right (hpoll k))
  removing k hk hclosed hborn := Or.inl ((h.removing k hk hclosed hborn).resolve_right (hpoll' k))
  fresh k hk := absurd hk (haccepting k)
  born k hk := absurd hk (haccepting k)
  stillborn k hk := by
    obtain ⟨hlt, hclosed, hlisted⟩ := h.stillborn k hk
    exact ⟨hlt, hclosed, Or.inl (hlisted.resolve_right (hpoll k))⟩
  pollNotifies k hk := absurd hk (hnotifying k)
  noAccept _ := haccepting

/-- The poll thread closes a connection. -/
theorem Inv.drop (h : v.Inv) (hpoll : v.poll = .idle) (hi : i ∈ v.opened) :
    Inv { v with
      opened := v.opened \ {i}
      poll := .notifying i
      dropped := v.dropped ++ [i] } where
  __ := h
  opened_lt k hk := h.opened_lt k hk.1
  known k hk := by
    have hknown := h.known k hk.1
    rw [hpoll] at hknown
    exact Or.inl (hknown.resolve_right nofun)
  removing k hk hclosed hborn := by
    by_cases hki : k = i
    · exact Or.inr (by rw [hki])
    · have hclosedBefore : k ∉ v.opened := fun hopen => hclosed ⟨hopen, hki⟩
      exact Or.inl (h.removing_user hk hclosedBefore hborn (by rw [hpoll]; nofun))
  copied huser k hk hopen := h.copied huser k hk hopen.1
  fresh := nofun
  born := nofun
  userNotifies k ks hk := by
    obtain ⟨hlt, hclosed, hborn⟩ := h.userNotifies k ks hk
    exact ⟨hlt, fun hopen => hclosed hopen.1, hborn⟩
  pollNotifies k hk := by
    obtain rfl := PollThread.notifying.inj hk
    exact ⟨fun hopen => hopen.2 rfl, fun hborn => (h.stillborn i hborn).2.1 hi⟩
  late k hk := by
    obtain ⟨hlt, hopen | hdropped | hborn⟩ := h.late k hk
    · by_cases hki : k = i
      · exact ⟨hlt, Or.inr (Or.inl (by simp [hki]))⟩
      · exact ⟨hlt, Or.inl ⟨hopen, hki⟩⟩
    · exact ⟨hlt, Or.inr (Or.inl (List.mem_append_left _ hdropped))⟩
    · exact ⟨hlt, Or.inr (Or.inr hborn)⟩
  dropped k hk := by
    rcases List.mem_append.mp hk with hk | hk
    · exact ⟨(h.dropped k hk).1, fun hopen => (h.dropped k hk).2 hopen.1⟩
    · obtain rfl := List.mem_singleton.mp hk
      exact ⟨h.opened_lt k hi, fun hopen => hopen.2 rfl⟩
  stillborn k hk := by
    obtain ⟨hlt, hclosed, hlisted⟩ := h.stillborn k hk
    rw [hpoll] at hlisted
    exact ⟨hlt, fun hopen => hclosed hopen.1, Or.inl (hlisted.resolve_right nofun)⟩
  noAccept _ := nofun

theorem Inv.erased (h : v.Inv) (hpoll : v.poll = .notifying i) :
    Inv { v with ids := v.ids.erase i, poll := .idle } where
  __ := h
  nodup := h.nodup.erase i
  ids_lt k hk := h.ids_lt k (List.mem_of_mem_erase hk)
  known k hk := by
    have hne : k ≠ i := fun heq => (h.pollNotifies i hpoll).1 (heq ▸ hk)
    have hknown := h.known k hk
    rw [hpoll] at hknown
    exact Or.inl (h.nodup.mem_erase_iff.mpr ⟨hne, hknown.resolve_right nofun⟩)
  removing k hk hclosed hborn := by
    obtain ⟨hne, hmem⟩ := h.nodup.mem_erase_iff.mp hk
    refine Or.inl (h.removing_user hmem hclosed hborn fun heq => hne ?_)
    rw [hpoll] at heq
    exact (PollThread.notifying.inj heq).symm
  copied huser k hk hopen := h.copied huser k (List.mem_of_mem_erase hk) hopen
  fresh := nofun
  born := nofun
  pollNotifies := nofun
  stillborn k hk := by
    obtain ⟨hlt, hclosed, hlisted⟩ := h.stillborn k hk
    have hne : k ≠ i := fun heq => (h.pollNotifies i hpoll).2 (heq ▸ hk)
    rw [hpoll] at hlisted
    exact ⟨hlt, hclosed, Or.inl (h.nodup.mem_erase_iff.mpr ⟨hne, hlisted.resolve_right nofun⟩)⟩
  noAccept _ := nofun

/-- Once both threads are done, what is listed is late and open, or was closed when it came. -/
theorem Inv.finished (h : v.Inv) (huser : v.user = .returned) (hpoll : v.poll = .idle) :
    (v.ids = [] ∧ v.opened = ∅) ↔ (∀ i ∈ v.late, i ∈ v.dropped) ∧ v.stillborn = [] := by
  have hlisted : ∀ i ∈ v.ids, i ∉ v.stillborn → i ∈ v.opened ∧ i ∈ v.late := by
    intro i hi hborn
    have hopen : i ∈ v.opened := by
      by_contra hclosed
      have hremoving := h.removing_poll hi hclosed hborn (by rw [huser]; nofun)
      rw [hpoll] at hremoving
      cases hremoving
    have hcopied := h.copied_rest huser nofun hi hopen
    exact ⟨hopen, hcopied.resolve_left List.not_mem_nil⟩
  constructor
  · intro ⟨hids, hopened⟩
    have hborn : v.stillborn = [] := by
      apply List.eq_nil_iff_forall_not_mem.mpr
      intro i hi
      have hlists := (h.stillborn i hi).2.2
      rw [hids, hpoll] at hlists
      rcases hlists with hmem | haccepting
      · cases hmem
      · cases haccepting
    refine ⟨fun i hi => ?_, hborn⟩
    rcases (h.late i hi).2 with hopen | hdropped | hstill
    · rw [hopened] at hopen
      exact absurd hopen (Set.notMem_empty i)
    · exact hdropped
    · rw [hborn] at hstill
      exact absurd hstill List.not_mem_nil
  · intro ⟨hdropped, hborn⟩
    have hids : v.ids = [] := by
      apply List.eq_nil_iff_forall_not_mem.mpr
      intro i hi
      obtain ⟨hopen, hlate⟩ := hlisted i hi (hborn ▸ List.not_mem_nil)
      exact (h.dropped i (hdropped i hlate)).2 hopen
    refine ⟨hids, Set.eq_empty_iff_forall_notMem.mpr fun i hopen => ?_⟩
    have hknown := h.known i hopen
    rw [hids, hpoll] at hknown
    rcases hknown with hmem | haccepting
    · cases hmem
    · cases haccepting

end ShutdownView

/-! ### The threads with their transports -/

namespace PublisherThreads

def isOpen (s : PublisherThreads) (i : Nat) : Prop :=
  ∃ t, s.transports[i]? = some t ∧ t.closed = false

def view (s : PublisherThreads) : ShutdownView where
  ids := s.ids
  opened := {i | s.isOpen i}
  count := s.transports.length
  serverClosed := s.serverClosed
  user := s.user
  poll := s.poll
  late := s.late
  dropped := s.dropped
  stillborn := s.stillborn

/-- The callback of an open transport is bound, once `onAccept` is done. -/
def Bound (s : PublisherThreads) : Prop :=
  ∀ (i : Nat) (t : TransportTCP), s.transports[i]? = some t → s.poll ≠ .accepting i →
    t.closed = false → t.disconnectCb = true

variable {s s' : PublisherThreads} {i : Nat} {t t' : TransportTCP}

theorem isOpen_set (hi : s.transports[i]? = some t) (k : Nat) :
    (∃ u, (s.transports.set i t')[k]? = some u ∧ u.closed = false) ↔
      if i = k then t'.closed = false else s.isOpen k := by
  have hlt : i < s.transports.length := (List.getElem?_eq_some_iff.mp hi).1
  rw [isOpen, List.getElem?_set]
  split_ifs with hik
  · simp
  · rfl

theorem opened_set (hi : s.transports[i]? = some t) (hsame : t'.closed = t.closed) :
    {k | ∃ u, (s.transports.set i t')[k]? = some u ∧ u.closed = false} = s.view.opened := by
  ext k
  apply (isOpen_set hi k).trans
  show _ ↔ s.isOpen k
  split_ifs with hik
  · rw [← hik, isOpen, hi]
    simp [hsame]
  · rfl

theorem opened_set_closed (hi : s.transports[i]? = some t) (hclosed : t'.closed = true) :
    {k | ∃ u, (s.transports.set i t')[k]? = some u ∧ u.closed = false} = s.view.opened \ {i} := by
  ext k
  apply (isOpen_set hi k).trans
  show _ ↔ s.isOpen k ∧ k ≠ i
  split_ifs with hik
  · simp [hclosed, hik]
  · exact (and_iff_left (Ne.symm hik)).symm

/-- Where one transport changes, it is the only one to look at. -/
theorem Bound.set (hb : s.Bound) (ht' : t'.closed = false → t'.disconnectCb = true)
    (htransports : s'.transports = s.transports.set i t')
    (hpoll : ∀ k, k ≠ i → s'.poll ≠ .accepting k → s.poll ≠ .accepting k) : s'.Bound := by
  intro k u hk hnot hu
  rw [htransports] at hk
  rcases Assignment.getElem?_set_cases hk with ⟨-, rfl⟩ | ⟨hne, hk⟩
  · exact ht' hu
  · exact hb k u hk (hpoll k hne hnot) hu

theorem mem_opened_append (s : PublisherThreads) (t : TransportTCP) (k : Nat) :
    (∃ u, (s.transports ++ [t])[k]? = some u ∧ u.closed = false) ↔
      s.isOpen k ∨ k = s.transports.length ∧ t.closed = false := by
  rw [isOpen]
  rcases Nat.lt_trichotomy k s.transports.length with hlt | rfl | hgt
  · rw [List.getElem?_append_left hlt]
    exact (or_iff_left fun hnew => hlt.ne hnew.1).symm
  · rw [List.getElem?_concat_length, List.getElem?_eq_none (Nat.le_refl _)]
    simp
  · rw [List.getElem?_eq_none (Nat.le_of_lt hgt), List.getElem?_eq_none]
    · simp [hgt.ne']
    · rw [List.length_append]
      exact hgt

theorem ids_onDisconnect (s : PublisherThreads) (i : Nat) : (s.onDisconnect i).ids = s.ids.erase i := by
  rw [ids, ids, onDisconnect]
  induction s.connections with
  | nil => rfl
  | cons conn rest ih =>
      by_cases hconn : conn.tcp = i
      · rw [List.eraseP_cons_of_pos (by simpa using hconn), List.map_cons, hconn,
          List.erase_cons_head]
      · rw [List.eraseP_cons_of_neg (by simpa using hconn), List.map_cons, List.map_cons,
          List.erase_cons_tail (by simpa using hconn), ih]

/-! #### Steps -/

theorem onShutdown_keeps (h : s.view.Inv) (hb : s.Bound) (hrun : s.onShutdown = .ok s') :
    s'.view.Inv ∧ s'.Bound := by
  rw [onShutdown] at hrun
  split at hrun
  · rename_i huser
    obtain rfl := Except.ok.inj hrun
    exact ⟨h.copy huser, hb⟩
  · rename_i huser
    split at hrun
    · obtain rfl := Except.ok.inj hrun
      exact ⟨h, hb⟩
    · rename_i hpoll
      obtain rfl := Except.ok.inj hrun
      exact ⟨h.finish huser hpoll, hb⟩
  · rename_i i rest huser
    have hclose : ∀ t, s.transports[i]? = some t → t.closed = false →
        onShutdown.closeCopy s i t rest = .ok s' → s'.view.Inv ∧ s'.Bound := by
      intro t hi hopen hrun
      obtain ⟨t', hclose, hlast⟩ := bind_eq_ok_iff.mp hrun
      have hclosed := TransportTCP.closed_of_close hclose
      have hbusy : s.poll ≠ .accepting i := by
        intro haccepting
        have hfresh := (h.fresh i haccepting).2.1
        exact hfresh (by rw [show s.view.user = .closing (i :: rest) from huser]; exact List.mem_cons_self)
      have hcb := hb i t hi hbusy hopen
      rw [hcb, if_pos rfl] at hlast
      obtain rfl := Except.ok.inj hlast
      constructor
      · show ShutdownView.Inv ⟨s.ids, {k | ∃ u, (s.transports.set i t')[k]? = some u ∧ u.closed = false},
          (s.transports.set i t').length, s.serverClosed, .notifying i rest, s.poll, s.late, s.dropped,
          s.stillborn⟩
        rw [opened_set_closed hi hclosed, List.length_set]
        exact h.close huser ⟨t, hi, hopen⟩
      · refine hb.set ?_ rfl (fun _ _ hpoll => hpoll)
        intro hopen'
        rw [hclosed] at hopen'
        cases hopen'
    split at hrun
    · cases hrun
    · rename_i t hi
      split_ifs at hrun with hclosed
      · obtain rfl := Except.ok.inj hrun
        have hnot : ¬ s.isOpen i := by
          intro ⟨u, hu, hopen⟩
          obtain rfl := Option.some.inj (hi.symm.trans hu)
          rw [hclosed] at hopen
          cases hopen
        exact ⟨h.skip huser hnot, hb⟩
      · have hopen := Bool.eq_false_iff.mpr hclosed
        split at hrun
        · split_ifs at hrun
          · obtain rfl := Except.ok.inj hrun
            exact ⟨h, hb⟩
          · exact hclose t hi hopen hrun
        · exact hclose t hi hopen hrun
  · rename_i i rest huser
    obtain rfl := Except.ok.inj hrun
    refine ⟨?_, hb⟩
    show ShutdownView.Inv ⟨(s.onDisconnect i).ids, _, _, _, _, _, _, _, _⟩
    rw [ids_onDisconnect]
    exact h.notified huser
  · obtain rfl := Except.ok.inj hrun
    exact ⟨h, hb⟩

/-- An operation that neither closes a transport nor unbinds its callback. -/
def KeepsBound (t t' : TransportTCP) : Prop :=
  t'.closed = t.closed ∧ t'.disconnectCb = t.disconnectCb

theorem keepsBound_enableRead (hrun : t.enableRead = .ok t') : KeepsBound t t' := by
  rw [TransportTCP.enableRead] at hrun
  split_ifs at hrun <;> exact Except.ok.inj hrun ▸ ⟨rfl, rfl⟩

theorem keepsBound_disableRead (hrun : t.disableRead = .ok t') : KeepsBound t t' := by
  rw [TransportTCP.disableRead] at hrun
  split_ifs at hrun <;> exact Except.ok.inj hrun ▸ ⟨rfl, rfl⟩

theorem keepsBound_setFilter {filterNum : Int} (hrun : t.setFilter filterNum = .ok t') :
    KeepsBound t t' := by
  rw [TransportTCP.setFilter] at hrun
  split_ifs at hrun
  exact Except.ok.inj hrun ▸ ⟨rfl, rfl⟩

theorem onAccept_cases (hrun : s.onAccept i t = .ok s') :
    ∃ t', t'.closed = t.closed ∧ t'.disconnectCb = true ∧ s' = { s with
      transports := s.transports.set i t'
      connections := s.connections ++ [⟨i, false, ⟨false, 0, 0⟩⟩] } := by
  obtain ⟨t₁, henable, hlast⟩ := bind_eq_ok_iff.mp hrun
  obtain ⟨hclosed, hcb⟩ := keepsBound_enableRead henable
  exact ⟨t₁.setMsgCallback, hclosed, hcb, (Except.ok.inj hlast).symm⟩

/-- The options of a connection change neither what is listed nor what is open. -/
theorem onOptions_cases {opts : TCPOptions} (hrun : s.onOptions i t opts = .ok s') :
    ∃ t' connections, KeepsBound t t' ∧
      connections.map ConnectionEntry.tcp = s.ids ∧
      s' = { s with transports := s.transports.set i t', connections := connections } := by
  obtain ⟨t₁, hdisable, hrest⟩ := bind_eq_ok_iff.mp hrun
  have hkeeps := keepsBound_disableRead hdisable
  split at hrest
  · exact ⟨t₁, s.connections, hkeeps, rfl, (Except.ok.inj hrest).symm⟩
  · split_ifs at hrest
    obtain ⟨t₂, hfilter, hlast⟩ := bind_eq_ok_iff.mp hrest
    obtain ⟨hclosed, hcb⟩ := keepsBound_setFilter hfilter
    refine ⟨t₂, _, ⟨hclosed.trans hkeeps.1, hcb.trans hkeeps.2⟩, ?_, (Except.ok.inj hlast).symm⟩
    rw [List.map_map, ids]
    apply List.map_congr_left
    intro conn _
    rw [Function.comp_apply]
    split_ifs with hconn
    · exact hconn.symm
    · rfl

theorem onCallback_keeps (h : s.view.Inv) (hb : s.Bound) (hrun : s.onCallback = .ok s') :
    s'.view.Inv ∧ s'.Bound := by
  rw [onCallback] at hrun
  split at hrun
  · obtain rfl := Except.ok.inj hrun
    exact ⟨h, hb⟩
  · rename_i i hpoll
    split at hrun
    · cases hrun
    · rename_i t hi
      obtain ⟨s₁, haccept, hlast⟩ := bind_eq_ok_iff.mp hrun
      obtain ⟨t', hclosed, hcb, rfl⟩ := onAccept_cases haccept
      obtain rfl := Except.ok.inj hlast
      have hlate : s.user = .before ∧ (if s.copied then s.late ++ [i] else s.late) = s.late ∨
          s.user ≠ .before ∧ (if s.copied then s.late ++ [i] else s.late) = s.late ++ [i] := by
        rw [copied]
        cases huser : s.user with
        | before => exact Or.inl ⟨rfl, rfl⟩
        | closing rest => exact Or.inr ⟨nofun, rfl⟩
        | notifying j rest => exact Or.inr ⟨nofun, rfl⟩
        | returned => exact Or.inr ⟨nofun, rfl⟩
      constructor
      · show ShutdownView.Inv ⟨(s.connections ++ [_]).map ConnectionEntry.tcp,
          {k | ∃ u, (s.transports.set i t')[k]? = some u ∧ u.closed = false},
          (s.transports.set i t').length, s.serverClosed, s.user, .idle, _, s.dropped, s.stillborn⟩
        rw [opened_set hi hclosed, List.length_set, List.map_append]
        exact h.accepted hpoll hlate
      · apply hb.set (fun _ => hcb) rfl
        intro k hne _ haccepting
        exact hne (PollThread.accepting.inj (hpoll.symm.trans haccepting)).symm
  · rename_i i opts hpoll
    split at hrun
    · cases hrun
    · rename_i t hi
      obtain ⟨s₁, hoptions, hlast⟩ := bind_eq_ok_iff.mp hrun
      obtain ⟨t', connections, ⟨hclosed, hcb⟩, hids, rfl⟩ := onOptions_cases hoptions
      obtain rfl := Except.ok.inj hlast
      constructor
      · show ShutdownView.Inv ⟨connections.map ConnectionEntry.tcp,
          {k | ∃ u, (s.transports.set i t')[k]? = some u ∧ u.closed = false},
          (s.transports.set i t').length, s.serverClosed, s.user, .idle, s.late, s.dropped, s.stillborn⟩
        rw [opened_set hi hclosed, List.length_set, hids]
        exact h.setPoll (fun k hk => nomatch hpoll.symm.trans hk) (fun k hk => nomatch hpoll.symm.trans hk)
          nofun nofun
      · refine hb.set ?_ rfl (fun k _ _ => by rw [hpoll]; nofun)
        intro hopen
        rw [hcb]
        exact hb i t hi (by rw [hpoll]; nofun) (hclosed ▸ hopen)
  · rename_i i hpoll
    obtain rfl := Except.ok.inj hrun
    constructor
    · show ShutdownView.Inv ⟨(s.onDisconnect i).ids, _, _, _, _, _, _, _, _⟩
      rw [ids_onDisconnect]
      exact h.erased hpoll
    · intro k u hk _ hu
      exact hb k u hk (by rw [hpoll]; nofun) hu

theorem accept_keeps (h : s.view.Inv) (hb : s.Bound) {e : Endpoint} {nonBlocking : Bool}
    (hrun : s.onEvent (.accept e nonBlocking) = .ok s') : s'.view.Inv ∧ s'.Bound := by
  rw [onEvent] at hrun
  split at hrun
  · rename_i hpoll
    by_cases hserver : s.serverClosed = true
    · rw [if_pos hserver] at hrun
      obtain rfl := Except.ok.inj hrun
      exact ⟨h, hb⟩
    · rw [if_neg hserver] at hrun
      obtain ⟨t, haccept, hlast⟩ := bind_eq_ok_iff.mp hrun
      obtain rfl := Except.ok.inj hlast
      constructor
      · show ShutdownView.Inv ⟨s.ids, {k | ∃ u, (s.transports ++ [t])[k]? = some u ∧ u.closed = false},
          (s.transports ++ [t]).length, s.serverClosed, s.user, .accepting s.transports.length, s.late,
          s.dropped, if nonBlocking then s.stillborn else s.stillborn ++ [s.transports.length]⟩
        rw [List.length_append]
        apply h.accept hpoll hserver nonBlocking
        · intro k
          rw [← TransportTCP.open_iff_of_accept haccept]
          exact mem_opened_append s t k
        · intro k
          show _ ↔ k ∈ s.stillborn ∨ k = s.transports.length ∧ nonBlocking = false
          cases nonBlocking <;> simp
      · intro k u hk hne hu
        have hk' : k ≠ s.transports.length := fun heq => hne (by rw [heq])
        rcases Nat.lt_or_gt_of_ne hk' with hlt | hgt
        · rw [List.getElem?_append_left hlt] at hk
          exact hb k u hk (by rw [hpoll]; nofun) hu
        · rw [List.getElem?_eq_none (by rw [List.length_append]; exact hgt)] at hk
          cases hk
  · obtain rfl := Except.ok.inj hrun
    exact ⟨h, hb⟩

theorem options_keeps (h : s.view.Inv) (hb : s.Bound) {opts : TCPOptions}
    (hrun : s.onEvent (.options i opts) = .ok s') : s'.view.Inv ∧ s'.Bound := by
  rw [onEvent] at hrun
  split at hrun
  · rename_i hpoll hi
    split_ifs at hrun
    · obtain rfl := Except.ok.inj hrun
      exact ⟨h, hb⟩
    · obtain rfl := Except.ok.inj hrun
      refine ⟨h.setPoll (fun k hk => nomatch hpoll.symm.trans hk)
        (fun k hk => nomatch hpoll.symm.trans hk) nofun nofun, fun k u hk _ hu => ?_⟩
      exact hb k u hk (by rw [hpoll]; nofun) hu
  · obtain rfl := Except.ok.inj hrun
    exact ⟨h, hb⟩

theorem drop_keeps (h : s.view.Inv) (hb : s.Bound) (hrun : s.onEvent (.drop i) = .ok s') :
    s'.view.Inv ∧ s'.Bound := by
  rw [onEvent] at hrun
  split at hrun
  · rename_i t hpoll hi
    split_ifs at hrun with hclosed
    · obtain rfl := Except.ok.inj hrun
      exact ⟨h, hb⟩
    · have hopen := Bool.eq_false_iff.mpr hclosed
      obtain ⟨t', hclose, hlast⟩ := bind_eq_ok_iff.mp hrun
      have hclosed' := TransportTCP.closed_of_close hclose
      have hcb := hb i t hi (by rw [hpoll]; nofun) hopen
      rw [hcb, if_pos rfl] at hlast
      obtain rfl := Except.ok.inj hlast
      constructor
      · show ShutdownView.Inv ⟨s.ids, {k | ∃ u, (s.transports.set i t')[k]? = some u ∧
          u.closed = false}, (s.transports.set i t').length, s.serverClosed, s.user, .notifying i,
          s.late, s.dropped ++ [i], s.stillborn⟩
        rw [opened_set_closed hi hclosed', List.length_set]
        exact h.drop hpoll ⟨t, hi, hopen⟩
      · refine hb.set ?_ rfl (fun k _ _ => by rw [hpoll]; nofun)
        intro hopen'
        rw [hclosed'] at hopen'
        cases hopen'
  · obtain rfl := Except.ok.inj hrun
    exact ⟨h, hb⟩

theorem onEvent_keeps (h : s.view.Inv) (hb : s.Bound) {e : ThreadEvent} (hrun : s.onEvent e = .ok s') :
    s'.view.Inv ∧ s'.Bound := by
  cases e with
  | shutdown => exact onShutdown_keeps h hb hrun
  | callback => exact onCallback_keeps h hb hrun
  | accept e nonBlocking => exact accept_keeps h hb hrun
  | options i opts => exact options_keeps h hb hrun
  | drop i => exact drop_keeps h hb hrun

/-! ### Every run -/

theorem inv_empty : empty.view.Inv ∧ empty.Bound := by
  have hopened : empty.view.opened = ∅ := by
    apply Set.eq_empty_iff_forall_notMem.mpr
    intro i hi
    obtain ⟨t, ht, -⟩ := hi
    simp [empty] at ht
  refine ⟨?_, fun i t ht => by simp [empty] at ht⟩
  constructor
  case opened_lt => simp [hopened]
  case known => simp [hopened]
  case copied => exact fun hne => absurd rfl hne
  case noAccept => nofun
  all_goals simp [empty, view, ids, ShutdownThread.rest]

theorem run_keeps {events : List ThreadEvent} (hrun : run onEvent empty events = .ok s) :
    s.view.Inv ∧ s.Bound :=
  run_preserves (I := fun s => s.view.Inv ∧ s.Bound)
    (fun _ _ _ h hrun => onEvent_keeps h.1 h.2 hrun) inv_empty hrun

theorem clean_iff : s.Clean ↔ s.view.ids = [] ∧ s.view.opened = ∅ := by
  have hids : s.connections = [] ↔ s.ids = [] := List.map_eq_nil_iff.symm
  rw [Clean, hids]
  apply and_congr Iff.rfl
  constructor
  · intro hall
    apply Set.eq_empty_iff_forall_notMem.mpr
    intro i ⟨t, ht, hopen⟩
    rw [hall t (List.mem_of_getElem? ht)] at hopen
    cases hopen
  · intro hempty t ht
    obtain ⟨i, hi⟩ := List.getElem?_of_mem ht
    by_contra hopen
    have hmem : i ∈ s.view.opened := ⟨t, hi, Bool.eq_false_iff.mpr hopen⟩
    rw [hempty] at hmem
    exact hmem

/-- With nothing open no thread has anything to do. -/
theorem Clean.quiet (hclean : s.Clean) (hdone : s.Finished) (h : s.view.Inv) (e : ThreadEvent) :
    s.onEvent e = .ok s := by
  obtain ⟨huser, hpoll⟩ := hdone
  cases e with
  | shutdown => rw [onEvent, onShutdown, huser]
  | callback => rw [onEvent, onCallback, hpoll]
  | accept e nonBlocking =>
      simp only [onEvent, hpoll]
      exact if_pos (h.ended huser)
  | options i opts =>
      cases hi : s.transports[i]? with
      | none => simp only [onEvent, hpoll, hi]
      | some t =>
          simp only [onEvent, hpoll, hi]
          exact if_pos (Or.inl (hclean.2 t (List.mem_of_getElem? hi)))
  | drop i =>
      cases hi : s.transports[i]? with
      | none => simp only [onEvent, hpoll, hi]
      | some t =>
          simp only [onEvent, hpoll, hi]
          exact if_pos (hclean.2 t (List.mem_of_getElem? hi))

/-! ### Main result -/

/-- **What shutdown leaves.** When shutdown has returned and the poll thread is in no callback, no
connection is listed and no transport is open, and so nothing can be called back any more, if and only
if every connection that was added after shutdown made its copy has been dropped by its peer, and no
transport was closed already when it was accepted. -/
theorem clean_iff_late_dropped (events : List ThreadEvent)
    (hrun : run onEvent empty events = .ok s) (hdone : s.Finished) :
    (s.Clean ↔ (∀ i ∈ s.late, i ∈ s.dropped) ∧ s.stillborn = []) ∧
      (s.Clean → ∀ e, s.onEvent e = .ok s) := by
  obtain ⟨h, -⟩ := run_keeps hrun
  exact ⟨clean_iff.trans (h.finished hdone.1 hdone.2), fun hclean => hclean.quiet hdone h⟩

/-- One connection before the copy, and one after it that its peer drops. -/
def lateAndDropped : List ThreadEvent :=
  [.accept PubSub.idle true, .callback, .shutdown, .accept PubSub.idle true, .callback, .shutdown,
    .shutdown, .drop 1, .shutdown, .callback]

theorem clean_lateAndDropped :
    ∃ s, run onEvent empty lateAndDropped = .ok s ∧
      (s.Clean ↔ (∀ i ∈ s.late, i ∈ s.dropped) ∧ s.stillborn = []) ∧
        (s.Clean → ∀ e, s.onEvent e = .ok s) := by
  obtain ⟨s, hrun, hdone⟩ : ∃ s, run onEvent empty lateAndDropped = .ok s ∧ s.Finished :=
    ⟨_, rfl, rfl, rfl⟩
  exact ⟨s, hrun, clean_iff_late_dropped lateAndDropped hrun hdone⟩

/-- A connection that is accepted after the copy stays open. -/
theorem late_accept_leaks :
    ¬ ∀ s, run onEvent empty [.shutdown, .accept PubSub.idle true, .callback, .shutdown] = .ok s →
      s.Finished → s.Clean := by
  intro hall
  have hclean := hall _ rfl ⟨rfl, rfl⟩
  cases hclean.1

/-- A transport that was closed before it was listed stays on the list. -/
example : (run onEvent empty [.accept PubSub.idle false, .callback, .shutdown, .shutdown,
    .shutdown]).map (fun s => (s.ids, s.transports.map TransportTCP.closed)) = .ok ([0], [true]) := rfl

end PublisherThreads

end Ros2Proto
