import Ros2Proto.Base.Linearizability
import Ros2Proto.Services.Client
import Ros2Proto.Services.StartUp

/-!
# Calls on a server

Any number of `MultiServiceClient`s call the methods of one `MultiServiceManager`. Each call has a
connection of its own: whole messages travel on it, in order, from the queue of one transport to the
owner of the other. The server starts meanwhile, accepts the connections in any order, and either side
may lose a connection at any time.

The calls, and the responses that were handed to their callbacks, are recorded in the order in which
they happened. As the mutex of the manager makes `onReceive` one step, a call takes effect when its
request arrives.
-/

namespace Ros2Proto

open FallibleRun Linearizability

variable {σ κ Request Response : Type} [DecidableEq κ]

/-- The bytes that a frame for `bytes` carries, which are all of them below the size of a `uint32_t`. -/
def framed (bytes : List UInt8) : List UInt8 := (Frame.ofBytes bytes).payload

/-- The message of a call. -/
def ServiceCall.frames (c : ServiceCall Request Response) : List Frame :=
  [.ofBytes c.method, .ofBytes (c.write c.request)]

/-- What a call does to the state of the server that it takes effect on, and what its callback is to be
handed. -/
def StartUp.Performs (u : StartUp σ) (s : σ) (c : ServiceCall Request Response)
    (out : Except Fault Response) (s' : σ) : Prop :=
  ∃ cb resp, u.handler (framed c.method) = some cb ∧
    cb s (framed (c.write c.request)) = .ok (resp, s') ∧ out = c.read (framed resp)

/-- The callback of the server fails on a call, or the caller cannot read some response. -/
def StartUp.Fails (u : StartUp σ) (c : ServiceCall Request Response) (f : Fault) : Prop :=
  (∃ cb s, u.handler (framed c.method) = some cb ∧ cb s (framed (c.write c.request)) = .error f) ∨
    ∃ bytes, c.read bytes = .error f

/-- The connection of a call. -/
structure CallLink (κ : Type) where
  client : κ
  /-- the place of the call among those of its client -/
  place : Nat
  /-- the messages that have left the client and have not arrived -/
  requests : List (List Frame)
  /-- the place of the transport that the server accepted -/
  peer : Option Nat
  /-- how many of the messages that have left the server have arrived -/
  taken : Nat

def CallLink.id (link : CallLink κ) : κ × Nat := (link.client, link.place)

/-- A call is known by its client and its place. -/
abbrev CallMark (κ Request Response : Type) :=
  Mark (κ × Nat) (ServiceCall Request Response) (Except Fault Response)

structure RemoteCalls (σ κ Request Response : Type) where
  clients : κ → MultiServiceClient Request Response
  links : List (CallLink κ)
  server : Server σ
  history : List (CallMark κ Request Response)

inductive RemoteEvent (κ Request Response : Type)
  /-- the next step of the server's start-up -/
  | start
  | call (k : κ) (c : ServiceCall Request Response)
  /-- the front message of the client has been written -/
  | send (l : Nat)
  | accept (l : Nat) (e : Endpoint)
  /-- a message reaches the server -/
  | request (l : Nat)
  /-- the front message of the server has been written -/
  | respond (l : Nat)
  /-- a message reaches the client -/
  | response (l : Nat)
  /-- the server loses the connection -/
  | hangUp (l : Nat)
  /-- the client loses the connection -/
  | lose (l : Nat)

/-- The front message of transport `i` has been written. -/
def MultiServiceClient.onWritten (s : MultiServiceClient Request Response) (i : Nat) :
    Except Fault (List (List Frame) × MultiServiceClient Request Response) :=
  match s.transports[i]? with
  | none => .ok ([], s)
  | some t =>
    if t.tcp.closed then .ok ([], s)
    else do
      let (frames, tcp) ← t.tcp.takeMessage
      .ok (frames.toList, { s with transports := s.transports.set i { t with tcp := tcp } })

/-- A message on a connection that is open goes to `onReceive`. -/
def Server.onMessage (s : Server σ) (i : Nat) (frames : List Frame) : Except Fault (Server σ) :=
  match frames with
  | [method, req] => s.onRequest i method req
  | _ =>
    match s.peers[i]? with
    | none => .ok s
    | some peer => if peer.tcp.closed then .ok s else .error .rosBreak

namespace RemoteCalls

def start (u : StartUp σ) (s₀ : σ) : RemoteCalls σ κ Request Response :=
  ⟨fun _ => .empty, [], .starting u s₀, []⟩

/-- The callback of a call of client `k` was handed a response. -/
def returned (k : κ) : Happening Request Response → Option (CallMark κ Request Response)
  | .invoked object _ response => some (.ret (k, object) (.ok response))
  | _ => none

def onCall (s : RemoteCalls σ κ Request Response) (k : κ) (c : ServiceCall Request Response) :
    Except Fault (RemoteCalls σ κ Request Response) := do
  let place := (s.clients k).transports.length
  let client ← (s.clients k).call c
  .ok { s with
    clients := Function.update s.clients k client
    links := s.links ++ [⟨k, place, [], none, 0⟩]
    history := s.history ++ [.call (k, place) c] }

def onSend (s : RemoteCalls σ κ Request Response) (l : Nat) (link : CallLink κ) :
    Except Fault (RemoteCalls σ κ Request Response) := do
  let (frames, client) ← (s.clients link.client).onWritten link.place
  .ok { s with
    clients := Function.update s.clients link.client client
    links := s.links.set l { link with requests := link.requests ++ frames } }

def onAccept (u : StartUp σ) (s : RemoteCalls σ κ Request Response) (l : Nat) (link : CallLink κ)
    (e : Endpoint) : Except Fault (RemoteCalls σ κ Request Response) :=
  if link.peer.isSome ∨ ¬ s.server.manager.listening then .ok s
  else do
    let server ← s.server.onEvent (u := u) (.accept e)
    .ok { s with
      links := s.links.set l { link with peer := some s.server.peers.length }
      server := server }

def onRequest (s : RemoteCalls σ κ Request Response) (l : Nat) (link : CallLink κ) :
    Except Fault (RemoteCalls σ κ Request Response) :=
  match link.peer, link.requests with
  | some i, frames :: rest => do
    let server ← s.server.onMessage i frames
    .ok { s with links := s.links.set l { link with requests := rest }, server := server }
  | _, _ => .ok s

/-- What the server does on a connection that it accepted. -/
def onServer (s : RemoteCalls σ κ Request Response) (link : CallLink κ)
    (f : Server σ → Nat → Except Fault (Server σ)) : Except Fault (RemoteCalls σ κ Request Response) :=
  match link.peer with
  | none => .ok s
  | some i => do
    let server ← f s.server i
    .ok { s with server := server }

/-- The messages that have left the server. -/
def written (s : RemoteCalls σ κ Request Response) (link : CallLink κ) : List (List Frame) :=
  (link.peer.bind fun i => s.server.peers[i]?).elim [] Peer.written

def onResponse (s : RemoteCalls σ κ Request Response) (l : Nat) (link : CallLink κ) :
    Except Fault (RemoteCalls σ κ Request Response) :=
  match (s.written link)[link.taken]? with
  | none => .ok s
  | some frames => do
    let client ← (s.clients link.client).onMessage link.place frames
    let happened := client.history.drop (s.clients link.client).history.length
    .ok { s with
      clients := Function.update s.clients link.client client
      links := s.links.set l { link with taken := link.taken + 1 }
      history := s.history ++ happened.filterMap (returned link.client) }

def onLose (s : RemoteCalls σ κ Request Response) (link : CallLink κ) :
    Except Fault (RemoteCalls σ κ Request Response) := do
  let client ← (s.clients link.client).close link.place
  .ok { s with clients := Function.update s.clients link.client client }

/-- What happens on a connection, if there is one at the place. -/
def onLink (s : RemoteCalls σ κ Request Response) (l : Nat)
    (f : CallLink κ → Except Fault (RemoteCalls σ κ Request Response)) :
    Except Fault (RemoteCalls σ κ Request Response) :=
  match s.links[l]? with
  | none => .ok s
  | some link => f link

def onEvent (u : StartUp σ) (s : RemoteCalls σ κ Request Response) :
    RemoteEvent κ Request Response → Except Fault (RemoteCalls σ κ Request Response)
  | .start => .ok { s with server := s.server.onStart }
  | .call k c => s.onCall k c
  | .send l => s.onLink l (s.onSend l)
  | .accept l e => s.onLink l fun link => s.onAccept u l link e
  | .request l => s.onLink l (s.onRequest l)
  | .respond l => s.onLink l fun link => s.onServer link Server.onWritten
  | .response l => s.onLink l (s.onResponse l)
  | .hangUp l => s.onLink l fun link => s.onServer link Server.onDisconnect
  | .lose l => s.onLink l s.onLose

end RemoteCalls

/-! ### The clients -/

namespace MultiServiceClient

/-- What waits in the queue of transport `i`, nothing once it is closed. -/
def queueAt (s : MultiServiceClient Request Response) (i : Nat) : List (List Frame) :=
  (s.transports[i]?).elim [] fun t =>
    if t.tcp.closed then [] else t.tcp.sendMsgs.map Message.frames

def ClosedAt (s : MultiServiceClient Request Response) (i : Nat) : Prop :=
  ∃ t ∈ s.transports[i]?, t.tcp.closed = true

instance (s : MultiServiceClient Request Response) (i : Nat) : Decidable (s.ClosedAt i) :=
  inferInstanceAs (Decidable (∃ t ∈ s.transports[i]?, t.tcp.closed = true))

/-- A client that has made the calls in `made`. -/
structure Caller (made : List (ServiceCall Request Response)) (s : MultiServiceClient Request Response) :
    Prop where
  sound : ∃ events, Sound events s ∧ calls events = made
  responds : ∀ t ∈ s.transports, t.tcp.closed = false → t.tcp.Responds

variable {s s' : MultiServiceClient Request Response} {made : List (ServiceCall Request Response)}
  {i : Nat} {t t' : ClientTransport}

theorem caller_empty : Caller [] (empty : MultiServiceClient Request Response) where
  sound := ⟨[], sound_empty, rfl⟩
  responds t ht := by cases ht

theorem Caller.length (h : Caller made s) : s.transports.length = made.length := by
  obtain ⟨events, hsound, rfl⟩ := h.sound
  exact hsound.length_transports

theorem queueAt_of_open (ht : s.transports[i]? = some t) (hopen : t.tcp.closed = false) :
    s.queueAt i = t.tcp.sendMsgs.map Message.frames := by
  rw [queueAt, ht]
  simp [hopen]

theorem queueAt_of_closedAt (h : s.ClosedAt i) : s.queueAt i = [] := by
  obtain ⟨t, ht, hclosed⟩ := h
  rw [queueAt, ht]
  simp [hclosed]

theorem queueAt_congr (h : s'.transports[i]? = s.transports[i]?) : s'.queueAt i = s.queueAt i := by
  rw [queueAt, queueAt, h]

theorem closedAt_congr (h : s'.transports[i]? = s.transports[i]?) : s'.ClosedAt i ↔ s.ClosedAt i := by
  rw [ClosedAt, ClosedAt, h]

/-- The open transports still respond once one of them has changed. -/
theorem Caller.responds_set (h : Caller made s)
    (hresponds : t'.tcp.closed = false → t'.tcp.Responds) :
    ∀ t ∈ s.transports.set i t', t.tcp.closed = false → t.tcp.Responds := by
  intro t ht hopen
  rcases List.mem_or_eq_of_mem_set ht with ht | rfl
  · exact h.responds t ht hopen
  · exact hresponds hopen

/-- A transport changes, but nothing that its call depends on. -/
theorem Sound.setTransport {events : List (ClientEvent Request Response)} (h : Sound events s)
    (ht : s.transports[i]? = some t) (hreadmsgCb : t'.readmsgCb = t.readmsgCb)
    (hclosed : t'.tcp.closed = t.tcp.closed) (hreads : t'.tcp.expectingRead = t.tcp.expectingRead)
    (hreadCb : t'.tcp.readCb = t.tcp.readCb) (hcb : t'.tcp.disconnectCb = t.tcp.disconnectCb)
    (hsock : t'.tcp.sock = t.tcp.sock) :
    Sound events { s with transports := s.transports.set i t' } where
  length_transports := (List.length_set ..).trans h.length_transports
  length_heap := h.length_heap
  place_lt := h.place_lt
  listed_lt := h.listed_lt
  nodup := h.nodup
  stands j c hc := by
    obtain ⟨u, hu, hstands⟩ := h.stands j c hc
    by_cases hj : j = i
    · subst hj
      cases ht.symm.trans hu
      refine ⟨t', List.getElem?_set_self (List.getElem?_eq_some_iff.mp ht).1, ?_⟩
      exact
        { fate := hstands.fate
          closed_iff := hclosed ▸ hstands.closed_iff
          listed_iff := hclosed ▸ hstands.listed_iff
          waits := fun hopen =>
            have hwaits := hstands.waits (hclosed ▸ hopen)
            { object := hwaits.object
              readmsgCb := hreadmsgCb.trans hwaits.readmsgCb
              expectingRead := hreads.trans hwaits.expectingRead
              readCb := hreadCb.trans hwaits.readCb
              disconnectCb := hcb.trans hwaits.disconnectCb
              sock := hsock ▸ hwaits.sock } }
    · refine ⟨u, (List.getElem?_set_ne (Ne.symm hj)).trans hu, hstands.fate, hstands.closed_iff,
        hstands.listed_iff, fun hopen => ?_⟩
      have hwaits := hstands.waits hopen
      exact ⟨hwaits.object, hwaits.readmsgCb, hwaits.expectingRead, hwaits.readCb,
        hwaits.disconnectCb, hwaits.sock⟩

/-- Writing the front message changes no more of a transport than its queue and its poll events. -/
theorem takeMessage_frame {tcp tcp' : TransportTCP} {frames : Option (List Frame)}
    (h : tcp.takeMessage = .ok (frames, tcp')) :
    tcp' = { tcp with
      sendMsgs := tcp'.sendMsgs, expectingWrite := tcp'.expectingWrite, pollCalls := tcp'.pollCalls } := by
  rw [TransportTCP.takeMessage] at h
  split at h
  · cases h
    rfl
  · rename_i msg rest _
    dsimp only at h
    split_ifs at h
    · obtain ⟨mid, hmid, hlast⟩ := bind_eq_ok_iff.mp h
      cases hlast
      rw [TransportTCP.disableWrite] at hmid
      split_ifs at hmid <;> cases hmid <;> rfl
    · cases h
      rfl

theorem Caller.onWritten (h : Caller made s) (i : Nat) :
    ∃ frames s', s.onWritten i = .ok (frames, s') ∧ Caller made s' ∧
      frames ++ s'.queueAt i = s.queueAt i ∧ (s'.ClosedAt i ↔ s.ClosedAt i) ∧
      ∀ j, j ≠ i → s'.transports[j]? = s.transports[j]? := by
  rw [MultiServiceClient.onWritten]
  cases ht : s.transports[i]? with
  | none => exact ⟨[], s, rfl, h, rfl, Iff.rfl, fun _ _ => rfl⟩
  | some t =>
      dsimp only
      split_ifs with hclosed
      · exact ⟨[], s, rfl, h, rfl, Iff.rfl, fun _ _ => rfl⟩
      · have hopen := Bool.eq_false_iff.mpr hclosed
        obtain ⟨frames, tcp, htake, hresponds, hqueue⟩ :=
          (h.responds t (List.mem_of_getElem? ht) hopen).takeMessage hopen
        have hframe := takeMessage_frame htake
        have hopen' : tcp.closed = false := by rw [hframe, hopen]
        have hset : (s.transports.set i { t with tcp := tcp })[i]? = some { t with tcp := tcp } :=
          List.getElem?_set_self (List.getElem?_eq_some_iff.mp ht).1
        refine ⟨frames.toList, _, bind_eq_ok_iff.mpr ⟨_, htake, rfl⟩, ⟨?_, ?_⟩, ?_, ?_, ?_⟩
        · obtain ⟨events, hsound, hmade⟩ := h.sound
          refine ⟨events, hsound.setTransport ht rfl ?_ ?_ ?_ ?_ ?_, hmade⟩ <;> rw [hframe]
        · exact h.responds_set fun _ => hresponds
        · rw [queueAt_of_open ht hopen, ← hqueue]
          congr 1
          exact queueAt_of_open (s := { s with transports := s.transports.set i { t with tcp := tcp } })
            hset hopen'
        · simp [ClosedAt, hset, ht, hopen, hopen']
        · intro j hj
          exact List.getElem?_set_ne (Ne.symm hj)

/-- The transport of a new call has its message queued. -/
theorem call_queues (s : MultiServiceClient Request Response) (c : ServiceCall Request Response) :
    ∃ tcp : TransportTCP, tcp.closed = false ∧ tcp.Responds ∧
      tcp.sendMsgs.map Message.frames = [c.frames] ∧
      s.call c = .ok
        { transports := s.transports ++ [⟨tcp, s.heap.length⟩]
          heap := s.heap ++ [some ⟨c.request, c.read, s.transports.length⟩]
          outgoingCalls := s.outgoingCalls ++ [s.heap.length]
          history := s.history } := by
  refine ⟨_, ?_, ?_, ?_, rfl⟩
  · rfl
  · refine ⟨⟨rfl, rfl, fun _ => ?_, Int.one_pos, Int.le_refl 0, Int.one_pos⟩,
      fun _ => ⟨⟨rfl, rfl, rfl⟩, rfl, rfl⟩⟩
    show (c.endpoint.sock : Int) ≠ -1
    omega
  · rfl

theorem Caller.call (h : Caller made s) (c : ServiceCall Request Response) :
    ∃ s', s.call c = .ok s' ∧ Caller (made ++ [c]) s' ∧
      (∀ j, s'.queueAt j = if j = made.length then [c.frames] else s.queueAt j) ∧
      (∀ j, s'.ClosedAt j ↔ s.ClosedAt j) := by
  obtain ⟨events, hsound, rfl⟩ := h.sound
  obtain ⟨tcp, hopen, hresponds, hqueue, hrun⟩ := call_queues s c
  obtain ⟨s', hrun', hsound'⟩ := hsound.call c
  obtain rfl := Except.ok.inj (hrun.symm.trans hrun')
  have hnew : (s.transports ++ [(⟨tcp, s.heap.length⟩ : ClientTransport)])[s.transports.length]?
      = some ⟨tcp, s.heap.length⟩ := List.getElem?_concat_length ..
  have hold : ∀ j, j ≠ s.transports.length →
      (s.transports ++ [(⟨tcp, s.heap.length⟩ : ClientTransport)])[j]? = s.transports[j]? := by
    intro j hj
    rcases Nat.lt_or_gt_of_ne hj with hlt | hgt
    · exact List.getElem?_append_left hlt
    · rw [List.getElem?_eq_none (Nat.le_of_lt hgt), List.getElem?_eq_none]
      rw [List.length_append]
      exact hgt
  refine ⟨_, hrun, ⟨⟨_, hsound', calls_concat events (.call c)⟩, ?_⟩, ?_, ?_⟩
  · intro t ht hopens
    rcases List.mem_append.mp ht with ht | ht
    · exact h.responds t ht hopens
    · obtain rfl := List.mem_singleton.mp ht
      exact hresponds
  · intro j
    rw [← hsound.length_transports]
    split_ifs with hj
    · subst hj
      rw [queueAt_of_open hnew hopen, hqueue]
    · exact queueAt_congr (hold j hj)
  · intro j
    by_cases hj : j = s.transports.length
    · subst hj
      simp [ClosedAt, hopen]
    · exact closedAt_congr (hold j hj)

/-- A transport closes. -/
theorem Caller.closes (h : Caller made s) (hi : i < s.transports.length) (hclosed : t'.tcp.closed = true)
    (hrun : s'.transports = s.transports.set i t') :
    (∀ t ∈ s'.transports, t.tcp.closed = false → t.tcp.Responds) ∧ s'.ClosedAt i ∧
      ∀ j, j ≠ i → s'.transports[j]? = s.transports[j]? := by
  rw [ClosedAt, hrun]
  refine ⟨h.responds_set fun hopen => ?_, ⟨t', List.getElem?_set_self hi, hclosed⟩, ?_⟩
  · rw [hclosed] at hopen
    cases hopen
  · intro j hj
    exact List.getElem?_set_ne (Ne.symm hj)

/-- Nothing happened, or the open transport `i` closed. -/
inductive Changes (i : Nat) (s s' : MultiServiceClient Request Response) : Prop
  | quiet (hsame : s' = s)
  | closes (hopen : ¬ s.ClosedAt i) (hclosed : s'.ClosedAt i)
      (hother : ∀ j, j ≠ i → s'.transports[j]? = s.transports[j]?)

theorem not_closedAt (ht : s.transports[i]? = some t) (hopen : t.tcp.closed = false) :
    ¬ s.ClosedAt i := by
  intro ⟨u, hu, hclosed⟩
  cases ht.symm.trans hu
  rw [hopen] at hclosed
  cases hclosed

theorem Caller.close (h : Caller made s) (i : Nat) :
    ∃ s', s.close i = .ok s' ∧ Caller made s' ∧ Changes i s s' := by
  obtain ⟨events, hsound, rfl⟩ := h.sound
  cases ht : s.transports[i]? with
  | none => exact ⟨s, by simp only [MultiServiceClient.close, ht], h, .quiet rfl⟩
  | some t =>
      cases hopen : t.tcp.closed with
      | true => exact ⟨s, by simp only [MultiServiceClient.close, ht, hopen, if_true], h, .quiet rfl⟩
      | false =>
          obtain ⟨c, hc, hwaits, hmem⟩ := hsound.exists_waits ht hopen
          obtain ⟨tcp, htcp, hrun⟩ :=
            close_of_open ht hopen hwaits.sock hwaits.disconnectCb hsound.lists hmem
          obtain ⟨s', hrun', hsound'⟩ := hsound.disconnect i
          have htransports : s'.transports = s.transports.set i { t with tcp := tcp } := by
            rw [← Except.ok.inj (hrun.symm.trans hrun')]
          obtain ⟨hresponds, hclosed, hother⟩ :=
            h.closes (List.getElem?_eq_some_iff.mp ht).1 htcp htransports
          refine ⟨s', hrun', ⟨⟨_, hsound', ?_⟩, hresponds⟩,
            .closes (not_closedAt ht hopen) hclosed hother⟩
          rw [calls_concat]
          exact List.append_nil _

/-- What a message is to the client: it is not read, or it answers the call at its place. -/
inductive Answers (made : List (ServiceCall Request Response)) (i : Nat) (frame : Frame)
    (s s' : MultiServiceClient Request Response) : Prop
  | unread (hsame : s' = s) (hclosed : i < s.transports.length → s.ClosedAt i)
  | read (c : ServiceCall Request Response) (response : Response) (hc : made[i]? = some c)
      (hread : c.read frame.payload = .ok response) (hchanges : Changes i s s') (hopen : ¬ s.ClosedAt i)
      (hhappened : s'.history.drop s.history.length
        = [.invoked i c.request response, .closed i, .deleted i])

/-- Either way the transport is closed afterwards, and no other has changed. -/
theorem Answers.closed {frame : Frame} (h : Answers made i frame s s') (hi : i < s.transports.length) :
    s'.ClosedAt i ∧ ∀ j, j ≠ i → s'.transports[j]? = s.transports[j]? := by
  cases h with
  | unread hsame hclosed =>
      rw [hsame]
      exact ⟨hclosed hi, fun _ _ => rfl⟩
  | read c response hc hread hchanges hopen hhappened =>
      cases hchanges with
      | quiet hsame =>
          rw [hsame, List.drop_length] at hhappened
          cases hhappened
      | closes _ hclosed hother => exact ⟨hclosed, hother⟩

theorem Caller.onMessage (h : Caller made s) (i : Nat) (frame : Frame) :
    Ends (fun s' => Caller made s' ∧ Answers made i frame s s')
      (fun f => ∃ c ∈ made, ∃ bytes, c.read bytes = .error f) (s.onMessage i [frame]) := by
  obtain ⟨events, hsound, rfl⟩ := h.sound
  have hends := hsound.message i frame
  cases ht : s.transports[i]? with
  | none =>
      apply Ends.of_ok
      refine ⟨s, by simp only [MultiServiceClient.onMessage, ht], h, .unread rfl fun hlt => ?_⟩
      exact absurd (List.getElem?_eq_none_iff.mp ht) (Nat.not_le_of_lt hlt)
  | some t =>
      cases hopen : t.tcp.closed with
      | true =>
          exact Ends.of_ok ⟨s, onMessage_of_closed ht hopen [frame], h,
            .unread rfl fun _ => ⟨t, ht, hopen⟩⟩
      | false =>
          obtain ⟨c, hc, hwaits, hmem⟩ := hsound.exists_waits ht hopen
          cases hread : c.read frame.payload with
          | error f =>
              have hrun : s.onMessage i [frame] = .error f := by
                simp only [MultiServiceClient.onMessage, ht]
                rw [if_neg (by simp [hopen, hwaits.expectingRead, hwaits.readCb]),
                  hwaits.readmsgCb]
                simp only [onResponse, hwaits.object, hread]
                rfl
              rw [hrun]
              exact ⟨c, List.mem_of_getElem? hc, frame.payload, hread⟩
          | ok response =>
              obtain ⟨tcp, htcp, hrun⟩ :=
                onMessage_of_open ht hopen hwaits hsound.lists hmem hread
              obtain ⟨s', hrun', hsound'⟩ : ∃ s', s.onMessage i [frame] = .ok s' ∧
                  Sound (events ++ [.message i frame]) s' := ⟨_, hrun, hends.of_eq_ok hrun⟩
              have hs' := Except.ok.inj (hrun.symm.trans hrun')
              have htransports : s'.transports = s.transports.set i { t with tcp := tcp } := by
                rw [← hs']
              have hhistory : s'.history
                  = s.history ++ [.invoked i c.request response, .closed i, .deleted i] := by
                rw [← hs']
              obtain ⟨hresponds, hclosed, hother⟩ :=
                h.closes (List.getElem?_eq_some_iff.mp ht).1 htcp htransports
              have hcalls : calls (events ++ [.message i frame]) = calls events := by
                rw [calls_concat]
                exact List.append_nil _
              apply Ends.of_ok
              refine ⟨s', hrun', ⟨⟨_, hsound', hcalls⟩, hresponds⟩, .read c response hc hread
                (.closes (not_closedAt ht hopen) hclosed hother) (not_closedAt ht hopen) ?_⟩
              rw [hhistory]
              exact List.drop_left ..

end MultiServiceClient

/-! ### The server -/

namespace Server

variable {u : StartUp σ} {s s' : Server σ} {i : Nat} {method body : List UInt8}

/-- The connection is open, and the method is bound. -/
def Ready (s : Server σ) (i : Nat) (method : List UInt8) : Prop :=
  (∃ peer ∈ s.peers[i]?, peer.tcp.closed = false) ∧ (s.manager.cbs[method]?).isSome

instance (s : Server σ) (i : Nat) (method : List UInt8) : Decidable (s.Ready i method) :=
  inferInstanceAs (Decidable ((∃ peer ∈ s.peers[i]?, peer.tcp.closed = false) ∧
    (s.manager.cbs[method]?).isSome))

/-- What a request is to the server. It is answered if the server is ready for it. -/
inductive Treats (u : StartUp σ) (i : Nat) (method body : List UInt8) (s s' : Server σ) : Prop
  | ignores (hlate : ¬ s.Ready i method) (hstate : s'.state = s.state)
      (hqueue : ∀ j, s'.queuedAt j = s.queuedAt j)
  | answers (cb : ServiceCallback σ) (resp : List UInt8) (hhandler : u.handler method = some cb)
      (hcb : cb s.state body = .ok (resp, s'.state))
      (hqueue : ∀ j, s'.queuedAt j = s.queuedAt j ++ if i = j then [[.ofBytes resp]] else [])

/-- What no request does. -/
structure Idles (s s' : Server σ) : Prop where
  state : s'.state = s.state
  queue : ∀ j, s'.queuedAt j = s.queuedAt j

/-- Only a request arrives. -/
theorem Serves.idles (h : Serves u s s') (harrived : s'.arrived = s.arrived) : Idles s s' := by
  rcases h with ⟨hstate, -, hqueue⟩ | ⟨a, cb, resp, -, -, hmore, -⟩
  · exact ⟨hstate, hqueue⟩
  · rw [harrived] at hmore
    simpa using congrArg List.length hmore

theorem Sound.idles_onStart (h : Sound u s) :
    Sound u s.onStart ∧ Idles s s.onStart ∧ s.onStart.peers = s.peers := by
  have hsame : s.onStart.arrived = s.arrived ∧ s.onStart.peers = s.peers := by
    rw [Server.onStart]
    split <;> exact ⟨rfl, rfl⟩
  exact ⟨h.onStart.1, h.onStart.2.idles hsame.1, hsame.2⟩

theorem Sound.idles_onAccept (h : Sound u s) (hlistening : s.manager.listening = true) (e : Endpoint) :
    ∃ s', s.onEvent (u := u) (.accept e) = .ok s' ∧ Sound u s' ∧ Idles s s' ∧
      s'.peers.length = s.peers.length + 1 := by
  obtain ⟨s', hrun, hsound, hserves⟩ := h.onAccept e
  have hsame : s'.arrived = s.arrived ∧ s'.peers.length = s.peers.length + 1 := by
    rw [Server.onEvent, if_pos hlistening] at hrun
    obtain ⟨⟨tcp, manager⟩, -, hs'⟩ := bind_eq_ok_iff.mp hrun
    cases hs'
    exact ⟨rfl, List.length_append⟩
  exact ⟨s', hrun, hsound, hserves.idles hsame.1, hsame.2⟩

theorem Sound.idles_onWritten (h : Sound u s) (i : Nat) :
    ∃ s', s.onWritten i = .ok s' ∧ Sound u s' ∧ Idles s s' ∧
      s'.peers.length = s.peers.length := by
  obtain ⟨s', hrun, hsound, hserves⟩ := h.onWritten i
  have hsame : s'.arrived = s.arrived ∧ s'.peers.length = s.peers.length := by
    rw [Server.onWritten] at hrun
    split at hrun
    · cases hrun
      exact ⟨rfl, rfl⟩
    · split_ifs at hrun
      · cases hrun
        exact ⟨rfl, rfl⟩
      · obtain ⟨⟨frames, tcp⟩, -, hs'⟩ := bind_eq_ok_iff.mp hrun
        cases hs'
        exact ⟨rfl, List.length_set ..⟩
  exact ⟨s', hrun, hsound, hserves.idles hsame.1, hsame.2⟩

theorem Sound.idles_onDisconnect (h : Sound u s) (i : Nat) :
    ∃ s', s.onDisconnect i = .ok s' ∧ Sound u s' ∧ Idles s s' ∧
      s'.peers.length = s.peers.length := by
  obtain ⟨s', hrun, hsound, hserves⟩ := h.onDisconnect i
  have hsame : s'.arrived = s.arrived ∧ s'.peers.length = s.peers.length := by
    rw [Server.onDisconnect] at hrun
    split at hrun
    · cases hrun
      exact ⟨rfl, rfl⟩
    · split_ifs at hrun
      · cases hrun
        exact ⟨rfl, rfl⟩
      · obtain ⟨tcp, -, hs'⟩ := bind_eq_ok_iff.mp hrun
        cases hs'
        exact ⟨rfl, List.length_set ..⟩
  exact ⟨s', hrun, hsound, hserves.idles hsame.1, hsame.2⟩

/-- A request for a method that is not bound changes no more than what arrived. -/
theorem Sound.ignores_unbound (h : Sound u s) {peer : Peer} (hi : s.peers[i]? = some peer)
    (hopen : peer.tcp.closed = false) {method req : Frame}
    (hcb : s.manager.cbs[method.payload]? = none) :
    ∃ s', s.onRequest i method req = .ok s' ∧ Sound u s' ∧
      Treats u i method.payload req.payload s s' ∧ s'.peers.length = s.peers.length := by
  have hreceive : s.manager.onReceive s.state peer.tcp [method, req] = .ok (peer.tcp, s.state) := by
    simp only [MultiServiceManager.onReceive, hcb]
  have hset : s.peers.set i peer = s.peers := by
    obtain ⟨hlt, rfl⟩ := List.getElem?_eq_some_iff.mp hi
    exact List.set_getElem_self hlt
  refine ⟨_, (onRequest_eq hi hopen method req).trans (bind_eq_ok_iff.mpr ⟨_, hreceive, rfl⟩),
    ⟨?_, h.cbs, h.startUp⟩, ?_, List.length_set ..⟩
  · intro p hp
    exact h.responds p (hset ▸ hp)
  · refine .ignores ?_ rfl fun j => ?_
    · intro hready
      have hbound := hready.2
      rw [hcb] at hbound
      cases hbound
    · show ((s.peers.set i peer)[j]?).elim [] Peer.queued = _
      rw [hset, queuedAt]

theorem onRequest_inv {peer : Peer} (hi : s.peers[i]? = some peer) (hopen : peer.tcp.closed = false)
    {method req : Frame} (hrun : s.onRequest i method req = .ok s') :
    s'.arrived = s.arrived ++ [⟨i, method.payload, req.payload⟩] ∧
      s'.peers.length = s.peers.length := by
  rw [onRequest_eq hi hopen] at hrun
  obtain ⟨out, -, hs'⟩ := bind_eq_ok_iff.mp hrun
  cases hs'
  exact ⟨rfl, List.length_set ..⟩

/-- A request on an open connection whose callback returns is answered. -/
theorem Sound.answers_bound (h : Sound u s) {peer : Peer} (hi : s.peers[i]? = some peer)
    (hopen : peer.tcp.closed = false) {method req : Frame} {cb : ServiceCallback σ}
    (hcb : s.manager.cbs[method.payload]? = some cb) {out : List UInt8 × σ}
    (hout : cb s.state req.payload = .ok out) :
    ∃ s', s.onRequest i method req = .ok s' ∧ Sound u s' ∧
      Treats u i method.payload req.payload s s' ∧ s'.peers.length = s.peers.length := by
  have known : method.payload ∈ u.bindings.map Prod.fst := List.mem_map_of_mem (h.cbs _ _ hcb)
  have hin : InTime s (.request i method req known) := by
    intro _ _ _
    exact ⟨cb, out, hcb, hout⟩
  have houtcome : Outcome u s (.request i method req known) := h.onReceive_answers hi hopen hcb hout
  rcases houtcome with ⟨s', hrun, hsound, ⟨-, hserves⟩ | ⟨hlate, -⟩⟩ | ⟨hlate, -⟩
  · obtain ⟨harrived, hlength⟩ := onRequest_inv hi hopen hrun
    refine ⟨s', hrun, hsound, ?_, hlength⟩
    rcases hserves with ⟨-, hsame, -⟩ | ⟨a, cb', resp, hhandler, hcb', hmore, hqueue⟩
    · rw [hsame] at harrived
      simpa using congrArg List.length harrived
    · obtain rfl := List.singleton_inj.mp (List.append_cancel_left (harrived.symm.trans hmore))
      exact .answers cb' resp hhandler hcb' hqueue
  · exact absurd hin hlate
  · exact absurd hin hlate

theorem Sound.treats (h : Sound u s) (i : Nat) (method req : Frame) :
    Ends (fun s' => Sound u s' ∧ Treats u i method.payload req.payload s s' ∧
        s'.peers.length = s.peers.length)
      (fun f => ∃ cb state, u.handler method.payload = some cb ∧ cb state req.payload = .error f)
      (s.onRequest i method req) := by
  cases hi : s.peers[i]? with
  | none =>
      apply Ends.of_ok
      refine ⟨s, by simp only [Server.onRequest, hi], h, .ignores ?_ rfl fun _ => rfl, rfl⟩
      intro hready
      obtain ⟨peer, hpeer, -⟩ := hready.1
      cases hi.symm.trans hpeer
  | some peer =>
      cases hopen : peer.tcp.closed with
      | true =>
          apply Ends.of_ok
          refine ⟨s, by simp only [Server.onRequest, hi, hopen, if_true], h,
            .ignores ?_ rfl fun _ => rfl, rfl⟩
          intro hready
          obtain ⟨peer', hpeer, hopens⟩ := hready.1
          cases hi.symm.trans hpeer
          rw [hopen] at hopens
          cases hopens
      | false =>
          cases hcb : s.manager.cbs[method.payload]? with
          | none => exact Ends.of_ok (h.ignores_unbound hi hopen hcb)
          | some cb =>
              cases hout : cb s.state req.payload with
              | ok out => exact Ends.of_ok (h.answers_bound hi hopen hcb hout)
              | error f =>
                  have hreceive : s.manager.onReceive s.state peer.tcp [method, req] = .error f := by
                    simp only [MultiServiceManager.onReceive, hcb, hout]
                    rfl
                  rw [(onRequest_eq hi hopen method req).trans
                    (bind_eq_error_iff.mpr (Or.inl hreceive))]
                  exact ⟨cb, s.state, u.handler_eq (h.cbs _ _ hcb), hout⟩

end Server

end Ros2Proto
