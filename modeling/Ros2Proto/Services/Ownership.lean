import Mathlib.Data.List.Nodup
import Ros2Proto.Services.Manager
import Ros2Proto.Transport.Closing
import Ros2Proto.Transport.Connecting

/-!
# The connections of a service manager

A `MultiServiceManager` from its constructor to its destructor, with the transport it listens on, those it
accepts and every poll event on them. What a poll event leads to is read off the transport: the messages it
delivered go to `onReceive`, and if its disconnect callback ran, `onDisconnect` did.

While it lives, the manager lists the transports that are open, each once, unless `accept` could not make a
socket non-blocking: that transport is closed when it joins the list, and never leaves. The destructor closes
the transport it listens on and no other, so a connection that is open then keeps both of its callbacks.
-/

namespace Ros2Proto

open FallibleRun TransportTCP

variable {σ : Type}

namespace TransportTCP

/-- `listen`, on the socket that `socket` and `bind` have made, if any. -/
def listen (t : TransportTCP) (sock : Option Nat) (nonBlocking : Bool) :
    Except Fault (Bool × TransportTCP) :=
  match sock with
  | none | some 0 => .ok (false, t)
  | some (n + 1) => do
    let (initialized, t) ← { t with sock := n + 1 }.initializeSocket nonBlocking
    if initialized then do
      let t ← t.enableRead
      .ok (true, t)
    else .ok (false, t)

end TransportTCP

/-- An accepted transport, and whether its socket could be made non-blocking. -/
structure Accepted where
  tcp : TransportTCP
  nonBlocking : Bool

structure Serving (σ : Type) where
  manager : MultiServiceManager σ
  server : TransportTCP
  accepted : List Accepted
  state : σ

inductive ServingEvent (σ : Type)
  | init (sock : Option Nat) (nonBlocking : Bool)
  | bind (method : StdString) (cb : ServiceCallback σ)
  | accept (e : Endpoint) (nonBlocking : Bool)
  /-- poll reports events on an accepted transport -/
  | socketUpdate (i : Nat) (events : PollEvents) (recv : Recv) (send : Send)

namespace Serving

/-- `MultiServiceManager(TransportTCPPtr(new TransportTCP(ps_)))` -/
def construct (uninit : Message) (heap : Nat → UInt8) (state : σ) : Serving σ :=
  ⟨.empty, .create uninit heap, [], state⟩

def init (s : Serving σ) (sock : Option Nat) (nonBlocking : Bool) : Except Fault (Serving σ) := do
  let (listening, server) ← s.server.listen sock nonBlocking
  if listening then .ok { s with server := server, manager := s.manager.init }
  else .error .rosBreak

def accept (s : Serving σ) (e : Endpoint) (nonBlocking : Bool) : Except Fault (Serving σ) :=
  if s.manager.listening then do
    let tcp ← TransportTCP.accept e nonBlocking
    let (tcp, manager) ← s.manager.onAccept s.accepted.length tcp
    .ok { s with manager := manager, accepted := s.accepted ++ [⟨tcp, nonBlocking⟩] }
  else .ok s

/-- The callbacks that a step on the transport at place `i` has run. -/
def callBack (s : Serving σ) (i : Nat) (before : Accepted) (tcp : TransportTCP) :
    Except Fault (Serving σ) := do
  let messages := tcp.delivered.drop before.tcp.delivered.length
  let (tcp, state) ← run (fun p frames => s.manager.onReceive p.2 p.1 frames) (tcp, s.state) messages
  let manager :=
    if before.tcp.disconnects < tcp.disconnects then s.manager.onDisconnect i else s.manager
  .ok { s with
    manager := manager
    accepted := s.accepted.set i { before with tcp := tcp }
    state := state }

/-- A step on the transport at place `i`, with its callbacks. -/
def onTransport (s : Serving σ) (i : Nat) (f : TransportTCP → Except Fault TransportTCP) :
    Except Fault (Serving σ) :=
  match s.accepted[i]? with
  | none => .ok s
  | some a => do
    let tcp ← f a.tcp
    s.callBack i a tcp

/-- `TransportTCP::socketUpdate`. A response that `onReceive` queues can leave within the same call. -/
def socketUpdate (s : Serving σ) (i : Nat) (events : PollEvents) (recv : Recv) (send : Send) :
    Except Fault (Serving σ) := do
  let s ← s.onTransport i fun t =>
    if !t.closed ∧ events &&& POLLIN ≠ 0 ∧ t.expectingRead ∧ t.readCb then t.readMessage recv
    else .ok t
  let s ← s.onTransport i fun t =>
    if !t.closed ∧ events &&& POLLOUT ≠ 0 ∧ t.expectingWrite ∧ t.writeCb then t.writeMessage send
    else .ok t
  s.onTransport i fun t =>
    if events &&& POLLERR ≠ 0 ∨ events &&& POLLHUP ≠ 0 ∨ events &&& POLLNVAL ≠ 0 then t.close
    else .ok t

def onEvent (s : Serving σ) : ServingEvent σ → Except Fault (Serving σ)
  | .init sock nonBlocking => s.init sock nonBlocking
  | .bind method cb => .ok { s with manager := s.manager.bind method cb }
  | .accept e nonBlocking => s.accept e nonBlocking
  | .socketUpdate i events recv send => s.socketUpdate i events recv send

/-- What is left after `~MultiServiceManager`: the transport it listened on and those it accepted. -/
def destroy (s : Serving σ) : Except Fault (TransportTCP × List Accepted) := do
  let server ← s.server.close
  .ok (server, s.accepted)

/-- The list holds the transports that have not disconnected, each once, and no other. -/
def Owns (s : Serving σ) : Prop :=
  s.manager.connections.Nodup ∧
    ∀ i, i ∈ s.manager.connections ↔ ∃ a : Accepted, s.accepted[i]? = some a ∧ a.tcp.closed = false

/-- No open transport has a callback of the manager. -/
def NoneBound (left : TransportTCP × List Accepted) : Prop :=
  ∀ a ∈ left.2, a.tcp.closed = false → a.tcp.readmsgCb = false ∧ a.tcp.disconnectCb = false

/-! ### The invariant -/

/-- How the transport at place `i` stands to the list. -/
structure Stands (connections : List Nat) (i : Nat) (a : Accepted) : Prop where
  listed_iff : i ∈ connections ↔ a.tcp.closed = false ∨ a.nonBlocking = false
  bound : a.tcp.closed = false → a.tcp.readmsgCb = true ∧ a.tcp.disconnectCb = true
  stillborn : a.nonBlocking = false → a.tcp.closed = true

structure Inv (s : Serving σ) : Prop where
  nodup : s.manager.connections.Nodup
  listed_lt : ∀ i ∈ s.manager.connections, i < s.accepted.length
  stands : ∀ i a, s.accepted[i]? = some a → Stands s.manager.connections i a
  listens : s.manager.listening = true → s.server.sock ≠ -1
  accepts : s.accepted ≠ [] → s.manager.listening = true

variable {s : Serving σ} {i : Nat} {a : Accepted} {tcp : TransportTCP}

theorem inv_construct (uninit : Message) (heap : Nat → UInt8) (state : σ) :
    Inv (construct uninit heap state) where
  nodup := .nil
  listed_lt := by simp [construct, MultiServiceManager.empty]
  stands i a ha := by simp [construct] at ha
  listens h := by cases h
  accepts h := absurd rfl h

/-- Only the transport at `i` and its entry in the list change. -/
theorem Inv.replace (h : Inv s) (ha : s.accepted[i]? = some a) (manager : MultiServiceManager σ)
    (hlistening : manager.listening = s.manager.listening) (hnodup : manager.connections.Nodup)
    (hlisted : ∀ j, j ∈ manager.connections → j ∈ s.manager.connections)
    (hothers : ∀ j, j ≠ i → (j ∈ manager.connections ↔ j ∈ s.manager.connections))
    (hstands : Stands manager.connections i { a with tcp := tcp }) (state : σ) :
    Inv { s with
      manager := manager
      accepted := s.accepted.set i { a with tcp := tcp }
      state := state } where
  nodup := hnodup
  listed_lt j hj := by
    show j < (s.accepted.set i _).length
    rw [List.length_set]
    exact h.listed_lt j (hlisted j hj)
  stands j b hb := by
    rcases Assignment.getElem?_set_cases hb with ⟨rfl, rfl⟩ | ⟨hji, hb⟩
    · exact hstands
    · have hother := h.stands j b hb
      exact { hother with listed_iff := (hothers j hji).trans hother.listed_iff }
  listens hlistens := h.listens (hlistening.symm.trans hlistens)
  accepts _ := hlistening.trans (h.accepts (List.ne_nil_of_mem (List.mem_of_getElem? ha)))

/-- A transport that stays as it was keeps its place. -/
theorem Inv.stays (h : Inv s) (ha : s.accepted[i]? = some a) (hclosed : tcp.closed = a.tcp.closed)
    (hmsg : tcp.readmsgCb = a.tcp.readmsgCb) (hcb : tcp.disconnectCb = a.tcp.disconnectCb)
    (state : σ) :
    Inv { s with accepted := s.accepted.set i { a with tcp := tcp }, state := state } := by
  have hstands := h.stands i a ha
  apply h.replace ha s.manager rfl h.nodup (fun _ hj => hj) (fun _ _ => Iff.rfl)
  exact ⟨hclosed ▸ hstands.listed_iff, hclosed ▸ hmsg ▸ hcb ▸ hstands.bound,
    hclosed ▸ hstands.stillborn⟩

/-- A transport that was closed has left the list. -/
theorem Inv.closes (h : Inv s) (ha : s.accepted[i]? = some a) (hopen : a.tcp.closed = false)
    (hclosed : tcp.closed = true) (state : σ) :
    Inv { s with
      manager := s.manager.onDisconnect i
      accepted := s.accepted.set i { a with tcp := tcp }
      state := state } := by
  have hborn : a.nonBlocking ≠ false := by
    intro hstill
    rw [(h.stands i a ha).stillborn hstill] at hopen
    cases hopen
  have hnot : ¬ tcp.closed = false := by simp [hclosed]
  apply h.replace ha (s.manager.onDisconnect i) rfl (h.nodup.erase i)
    (fun _ hj => List.mem_of_mem_erase hj) (fun _ hji => List.mem_erase_of_ne hji)
  refine ⟨iff_of_false h.nodup.not_mem_erase (not_or.mpr ⟨hnot, hborn⟩), ?_, ?_⟩
  · exact fun hstill => absurd hstill hnot
  · exact fun hstill => absurd hstill hborn

theorem onReceive_ages (m : MultiServiceManager σ) (state : σ) (tcp : TransportTCP)
    (frames : List Frame) :
    Ends (fun p => Ages tcp p.1) (fun _ => True) (m.onReceive state tcp frames) := by
  rcases frames with _ | ⟨method, _ | ⟨req, _ | ⟨more, rest⟩⟩⟩
  · trivial
  · trivial
  · rw [MultiServiceManager.onReceive]
    cases m.cbs[method.payload]? with
    | none => exact Ages.refl tcp
    | some cb =>
        have hcall : Ends (fun _ => True) (fun _ => True) (cb state req.payload) := by
          cases cb state req.payload <;> trivial
        apply hcall.bind
        intro r _
        apply (survives_sendFrames tcp _).bind
        intro tcp' htcp'
        exact htcp'
  · trivial

theorem Inv.callBack (h : Inv s) (ha : s.accepted[i]? = some a) (hages : Ages a.tcp tcp) :
    Ends Inv (fun _ => True) (s.callBack i a tcp) := by
  have hrun : Ends (fun p => Ages a.tcp p.1) (fun _ => True)
      (run (fun p frames => s.manager.onReceive p.2 p.1 frames) (tcp, s.state)
        (tcp.delivered.drop a.tcp.delivered.length)) := by
    apply run_always_ends (I := fun p : TransportTCP × σ => Ages a.tcp p.1) _ hages
    intro p frames hp
    exact (onReceive_ages s.manager p.2 p.1 frames).mono fun _ h' => hp.trans h'
  apply hrun.bind
  intro p hp
  show Inv { s with
    manager := if a.tcp.disconnects < p.1.disconnects then s.manager.onDisconnect i else s.manager
    accepted := s.accepted.set i { a with tcp := p.1 }
    state := p.2 }
  rcases hp.life with ⟨hclosed, hcb, hcount, -⟩ | ⟨hopen, hclosed, hcount⟩
  · rw [hcount, if_neg (Nat.lt_irrefl _)]
    exact h.stays ha hclosed hp.readmsgCb hcb p.2
  · rw [((h.stands i a ha).bound hopen).2, if_pos rfl] at hcount
    rw [if_pos (by omega)]
    exact h.closes ha hopen hclosed p.2

theorem Inv.onTransport (h : Inv s) {f : TransportTCP → Except Fault TransportTCP}
    (hf : ∀ t, Survives t (f t)) (i : Nat) : Ends Inv (fun _ => True) (s.onTransport i f) := by
  rw [Serving.onTransport]
  cases ha : s.accepted[i]? with
  | none => exact h
  | some a =>
      apply (hf a.tcp).bind
      intro tcp htcp
      exact h.callBack ha htcp

theorem Inv.socketUpdate (h : Inv s) (i : Nat) (events : PollEvents) (recv : Recv) (send : Send) :
    Ends Inv (fun _ => True) (s.socketUpdate i events recv send) := by
  apply (h.onTransport (fun t => (survives_readMessage t recv).guarded _) i).bind
  intro s₁ h₁
  apply (h₁.onTransport (fun t => (survives_writeMessage t send).guarded _) i).bind
  intro s₂ h₂
  exact h₂.onTransport (fun t => (survives_close t).guarded _) i

theorem initializeSocket_sock (t : TransportTCP) (nonBlocking : Bool) :
    Ends (fun r => r.1 = true → r.2.sock = t.sock) (fun _ => True)
      (t.initializeSocket nonBlocking) := by
  rw [initializeSocket]
  split_ifs
  · trivial
  · cases nonBlocking with
    | true =>
        rw [setNonBlocking]
        cases t.synchronous <;> exact fun _ => rfl
    | false =>
        rw [setNonBlocking]
        cases t.synchronous with
        | true => exact fun _ => rfl
        | false =>
            cases t.close with
            | error fault => trivial
            | ok t' =>
                intro hfalse
                cases hfalse

/-- `listen` succeeds with a socket. -/
theorem ends_listen (t : TransportTCP) (sock : Option Nat) (nonBlocking : Bool) :
    Ends (fun r => r.1 = true → r.2.sock ≠ -1) (fun _ => True) (t.listen sock nonBlocking) := by
  rcases sock with _ | _ | n
  · intro hfalse
    cases hfalse
  · intro hfalse
    cases hfalse
  · apply (initializeSocket_sock { t with sock := n + 1 } nonBlocking).bind
    intro r hr
    show Ends _ _ (if r.1 = true then _ else _)
    split_ifs with hinitialized
    · have hsock : r.2.sock ≠ -1 := by
        rw [hr hinitialized]
        show (n : Int) + 1 ≠ -1
        omega
      have hread : Ends (fun t' => t'.sock = r.2.sock) (fun _ => True) r.2.enableRead := by
        rw [enableRead]
        split_ifs <;> trivial
      apply hread.bind
      intro t' ht' _
      exact ht' ▸ hsock
    · intro hfalse
      cases hfalse

theorem Inv.init (h : Inv s) (sock : Option Nat) (nonBlocking : Bool) :
    Ends Inv (fun _ => True) (s.init sock nonBlocking) := by
  apply (ends_listen s.server sock nonBlocking).bind
  intro r hr
  show Ends _ _ (if r.1 = true then _ else _)
  split_ifs with hlistens
  · exact { h with
      listens := fun _ => hr hlistens
      accepts := fun _ => rfl }
  · trivial

/-- A new transport has its callbacks, and is open unless it could not be made non-blocking. -/
theorem onAccept_accepted (m : MultiServiceManager σ) (i : Nat) (e : Endpoint) (nonBlocking : Bool) :
    ∃ tcp : TransportTCP, (TransportTCP.accept e nonBlocking).bind (m.onAccept i) =
        .ok (tcp, { m with connections := m.connections ++ [i] }) ∧
      (tcp.closed = false ↔ nonBlocking = true) ∧ tcp.readmsgCb = true ∧ tcp.disconnectCb = true := by
  rw [TransportTCP.accept_eq]
  cases nonBlocking with
  | true => exact ⟨_, rfl, iff_of_true rfl rfl, rfl, rfl⟩
  | false => exact ⟨_, rfl, iff_of_false (fun h : true = false => nomatch h) nofun, rfl, rfl⟩

theorem Inv.accept (h : Inv s) (e : Endpoint) (nonBlocking : Bool) :
    Ends Inv (fun _ => True) (s.accept e nonBlocking) := by
  by_cases hlistening : s.manager.listening = true
  · obtain ⟨tcp, haccept, hopen, hmsg, hcb⟩ :=
      onAccept_accepted s.manager s.accepted.length e nonBlocking
    obtain ⟨tcp₀, hnew, honAccept⟩ := bind_eq_ok_iff.mp haccept
    have hrun : s.accept e nonBlocking = .ok { s with
        manager := { s.manager with connections := s.manager.connections ++ [s.accepted.length] }
        accepted := s.accepted ++ [⟨tcp, nonBlocking⟩] } := by
      rw [Serving.accept, if_pos hlistening, hnew]
      show (s.manager.onAccept s.accepted.length tcp₀).bind _ = _
      rw [honAccept]
      rfl
    rw [hrun]
    have hnot : s.accepted.length ∉ s.manager.connections := fun hmem =>
      Nat.lt_irrefl _ (h.listed_lt _ hmem)
    apply Inv.mk
    case nodup =>
      show (s.manager.connections ++ [s.accepted.length]).Nodup
      rw [← List.concat_eq_append]
      exact h.nodup.concat hnot
    case listed_lt =>
      intro j hj
      show j < (s.accepted ++ [_]).length
      rw [List.length_append, List.length_singleton]
      rcases List.mem_append.mp hj with hj | hj
      · have := h.listed_lt j hj
        omega
      · rw [List.mem_singleton.mp hj]
        omega
    case stands =>
      intro j b hb
      show Stands (s.manager.connections ++ [s.accepted.length]) j b
      by_cases hj : j < s.accepted.length
      · replace hb : (s.accepted ++ [_])[j]? = some b := hb
        rw [List.getElem?_append_left hj] at hb
        have hstands := h.stands j b hb
        refine { hstands with listed_iff := Iff.trans ?_ hstands.listed_iff }
        simp [Nat.ne_of_lt hj]
      · obtain rfl : j = s.accepted.length := by
          have hlt := (List.getElem?_eq_some_iff.mp hb).1
          rw [List.length_append, List.length_singleton] at hlt
          omega
        replace hb : (s.accepted ++ [⟨tcp, nonBlocking⟩])[s.accepted.length]? = some b := hb
        rw [List.getElem?_concat_length] at hb
        cases hb
        have hborn : nonBlocking = false → tcp.closed = true := by
          intro hstill
          rw [← Bool.not_eq_false, hopen, hstill]
          exact Bool.false_ne_true
        refine ⟨iff_of_true (by simp) ?_, fun _ => ⟨hmsg, hcb⟩, hborn⟩
        show tcp.closed = false ∨ nonBlocking = false
        cases nonBlocking with
        | true => exact Or.inl (hopen.mpr rfl)
        | false => exact Or.inr rfl
    case listens => exact h.listens
    case accepts => exact fun _ => hlistening
  · rw [Serving.accept, if_neg hlistening]
    exact h

theorem Inv.onEvent (h : Inv s) (e : ServingEvent σ) : Ends Inv (fun _ => True) (s.onEvent e) := by
  cases e with
  | init sock nonBlocking => exact h.init sock nonBlocking
  | bind method cb => exact ⟨h.nodup, h.listed_lt, h.stands, h.listens, h.accepts⟩
  | accept e nonBlocking => exact h.accept e nonBlocking
  | socketUpdate i events recv send => exact h.socketUpdate i events recv send

theorem Inv.owns_iff (h : Inv s) : s.Owns ↔ ∀ a ∈ s.accepted, a.nonBlocking = true := by
  constructor
  · intro howns a hmem
    obtain ⟨i, ha⟩ := List.getElem?_of_mem hmem
    have hstands := h.stands i a ha
    by_contra hstill
    rw [Bool.not_eq_true] at hstill
    obtain ⟨b, hb, hopen⟩ := (howns.2 i).mp (hstands.listed_iff.mpr (Or.inr hstill))
    cases ha.symm.trans hb
    rw [hstands.stillborn hstill] at hopen
    cases hopen
  · intro hall
    refine ⟨h.nodup, fun i => ⟨fun hlisted => ?_, fun hsome => ?_⟩⟩
    · have ha := List.getElem?_eq_getElem (h.listed_lt i hlisted)
      rcases (h.stands i _ ha).listed_iff.mp hlisted with hopen | hstill
      · exact ⟨_, ha, hopen⟩
      · rw [hall _ (List.getElem_mem _)] at hstill
        cases hstill
    · obtain ⟨a, ha, hopen⟩ := hsome
      exact (h.stands i a ha).listed_iff.mpr (Or.inl hopen)

/-- After the destructor, the callbacks of an open connection are still there. -/
theorem Inv.noneBound_iff (h : Inv s) :
    Ends NoneBound (· = .assertion) s.destroy ↔ ∀ a ∈ s.accepted, a.tcp.closed = true := by
  have hclose : s.server.close = .error .assertion ∧ s.accepted = [] ∨
      ∃ server, s.server.close = .ok server := by
    by_cases hclosed : s.server.closed = true
    · exact Or.inr ⟨_, by rw [close, if_pos hclosed]⟩
    · by_cases hsock : s.server.sock = -1
      · left
        refine ⟨by rw [close, if_neg hclosed, if_pos hsock], ?_⟩
        by_contra hsome
        exact h.listens (h.accepts hsome) hsock
      · exact Or.inr ⟨_, by rw [close, if_neg hclosed, if_neg hsock]⟩
  rcases hclose with ⟨hrun, hnone⟩ | ⟨server, hrun⟩
  · have hdestroy : s.destroy = .error .assertion := by
      rw [destroy, hrun]
      rfl
    rw [hdestroy, hnone]
    apply iff_of_true rfl
    simp
  · have hdestroy : s.destroy = .ok (server, s.accepted) := by
      rw [destroy, hrun]
      rfl
    rw [hdestroy]
    show NoneBound (server, s.accepted) ↔ _
    constructor
    · intro hfree a hmem
      obtain ⟨i, ha⟩ := List.getElem?_of_mem hmem
      by_contra hopen
      rw [Bool.not_eq_true] at hopen
      have hbound := ((h.stands i a ha).bound hopen).1
      rw [(hfree a hmem hopen).1] at hbound
      cases hbound
    · intro hall a hmem hopen
      rw [hall a hmem] at hopen
      cases hopen

/-- **After any run, the list is right exactly if every accepted socket could be made non-blocking, and
the destructor leaves no callback behind exactly if no accepted connection is open.** -/
theorem run_owns_iff (uninit : Message) (heap : Nat → UInt8) (state : σ)
    (events : List (ServingEvent σ)) :
    Ends (fun s => (s.Owns ↔ ∀ a ∈ s.accepted, a.nonBlocking = true) ∧
        (Ends NoneBound (· = .assertion) s.destroy ↔ ∀ a ∈ s.accepted, a.tcp.closed = true))
      (fun _ => True) (run onEvent (construct uninit heap state) events) := by
  have hrun : Ends Inv (fun _ => True) (run onEvent (construct uninit heap state) events) :=
    run_always_ends (fun s e h => h.onEvent e) (inv_construct uninit heap state) events
  exact hrun.mono fun s h => ⟨h.owns_iff, h.noneBound_iff⟩

/-- A manager that is destroyed while it serves one connection. -/
theorem not_noneBound : ¬ ∀ (uninit : Message) (heap : Nat → UInt8) (state : Unit)
    (events : List (ServingEvent Unit)),
    Ends (fun s => s.Owns ∧ Ends NoneBound (· = .assertion) s.destroy) (fun _ => True)
      (run onEvent (construct uninit heap state) events) := by
  intro hall
  have hends : Ends (fun s : Serving Unit => s.Owns ∧ Ends NoneBound (· = .assertion) s.destroy)
      (fun _ => True) _ :=
    hall ⟨[], 0, 0, 0, 0, 0, 0⟩ (fun _ => 0) ()
      [.init (some 3) true, .accept ⟨4, ⟨[], 0, 0, 0, 0, 0, 0⟩, fun _ => 0⟩ true]
  have hfree := hends.2 _ (List.mem_singleton_self _) rfl
  cases hfree.1

end Serving

end Ros2Proto
