import Ros2Proto.PubSub.Delivery
import Ros2Proto.Transport.Readiness
import Ros2Proto.Transport.ReaderSafety

/-!
# The handshake of a subscriber

What a `TCPPublish` does with the connections it accepts, byte by byte: the poll thread reads and writes
as the sockets allow, `onOptions` is called from within `readMessage` once a message is complete, and a
call of `publish` copies `connections_` at one moment and goes through the copy at later ones. A
connection is known by its place among those accepted. `onDisconnect` takes its place out of
`connections_`, at any time after the transport has closed.

A transport that has handed a message over is not read again: `disableRead` runs in the callback, before
the connection is looked up. So `onOptions` is entered once, and what it sets stays.
-/

namespace Ros2Proto

open FallibleRun

/-- A call of `publish` under way: the entries of its copy that are still to come, and the compressed
message once there is one. -/
structure PublishCall where
  msg : OutMessage
  snappyData : Option (List UInt8)
  conns : List (Nat × Bool × TCPOptions)

/-- A `TCPPublish` with every connection it accepted, the places that `connections_` no longer has, and
the calls of `publish`. -/
structure Handshaking where
  connections : List Connection
  removed : List Nat
  publishing : List PublishCall

inductive HandshakeEvent
  | accept (e : Endpoint)
  | readable (i : Nat) (recv : Recv)
  | writable (i : Nat) (send : Send)
  | close (i : Nat)
  | disconnect (i : Nat)
  /-- `publish` is called and copies the list -/
  | publish (msg : OutMessage)
  /-- a call of `publish` goes on with the next entry of its copy -/
  | proceed (k : Nat)

namespace Handshaking

def empty : Handshaking := ⟨[], [], []⟩

/-- The connection is in `connections_`, and its transport is read. -/
def onAccept (s : Handshaking) (tcp : TransportTCP) : Except Fault Handshaking := do
  let p ← TCPPublish.onAccept ⟨s.connections⟩ tcp
  .ok { s with connections := p.connections }

/-- `onOptions` of the connection at place `i`. Where `connections_` does not have it, there is nothing
to set up. -/
def onOptions (s : Handshaking) (serializer : OptionsSerializer) (i : Nat) (frames : List Frame) :
    Except Fault Handshaking :=
  if i ∈ s.removed then
    match frames, s.connections[i]? with
    | [_], some conn => do
      let tcp ← conn.tcp.disableRead
      .ok { s with connections := s.connections.set i { conn with tcp := tcp } }
    | [_], none => .ok s
    | _, _ => .error .rosBreak
  else do
    let p ← TCPPublish.onOptions ⟨s.connections⟩ serializer i frames
    .ok { s with connections := p.connections }

/-- `socketUpdate` reads while the transport is open and expects to, and a message that is complete goes
to `onOptions`. -/
def onReadable (s : Handshaking) (serializer : OptionsSerializer) (i : Nat) (recv : Recv) :
    Except Fault Handshaking :=
  match s.connections[i]? with
  | none => .ok s
  | some conn =>
    if conn.tcp.closed ∨ !conn.tcp.expectingRead ∨ !conn.tcp.readCb then .ok s
    else do
      let tcp ← conn.tcp.readMessage recv
      let s := { s with connections := s.connections.set i { conn with tcp := tcp } }
      match tcp.delivered.drop conn.tcp.delivered.length with
      | [] => .ok s
      | frames :: _ => s.onOptions serializer i frames

/-- The transport at place `i` is replaced by what an operation leaves of it. -/
def onTransport (s : Handshaking) (i : Nat) (f : TransportTCP → Except Fault TransportTCP) :
    Except Fault Handshaking :=
  match s.connections[i]? with
  | none => .ok s
  | some conn => do
    let tcp ← f conn.tcp
    .ok { s with connections := s.connections.set i { conn with tcp := tcp } }

def onWritable (s : Handshaking) (i : Nat) (send : Send) : Except Fault Handshaking :=
  s.onTransport i fun t =>
    if t.closed ∨ !t.expectingWrite ∨ !t.writeCb then .ok t else t.writeMessage send

def onDisconnect (s : Handshaking) (i : Nat) : Handshaking :=
  match s.connections[i]? with
  | none => s
  | some conn => if conn.tcp.closed then { s with removed := i :: s.removed } else s

/-- The entries of `connections_`, with their places. -/
def copyConnections (s : Handshaking) : List (Nat × Bool × TCPOptions) :=
  (s.connections.zipIdx.filter fun entry => entry.2 ∉ s.removed).map fun entry =>
    (entry.2, entry.1.setup, entry.1.opts)

/-- The loop of `publish` on the next entry. The transport is shared with the list, the rest is the
copy's own. -/
def proceed (s : Handshaking) (snappy : Snappy) (k : Nat) : Except Fault Handshaking :=
  match s.publishing[k]? with
  | none => .ok s
  | some call =>
    match call.conns with
    | [] => .ok s
    | (i, setup, opts) :: rest =>
      match s.connections[i]? with
      | none => .ok s
      | some conn => do
        let (snappyData, sent) ← TCPPublish.publishOn snappy call.msg call.snappyData
          ⟨conn.tcp, setup, opts⟩
        .ok { s with
          connections := s.connections.set i { conn with tcp := sent.tcp }
          publishing := s.publishing.set k { call with snappyData := snappyData, conns := rest } }

def onEvent (snappy : Snappy) (serializer : OptionsSerializer) (s : Handshaking) :
    HandshakeEvent → Except Fault Handshaking
  | .accept e => s.onAccept e.transport
  | .readable i recv => s.onReadable serializer i recv
  | .writable i send => s.onWritable i send
  | .close i => s.onTransport i TransportTCP.close
  | .disconnect i => .ok (s.onDisconnect i)
  | .publish msg => .ok { s with publishing := s.publishing ++ [⟨msg, none, s.copyConnections⟩] }
  | .proceed k => s.proceed snappy k

end Handshaking

/-! ### What operations do to a transport -/

namespace TransportTCP

/-- What an operation leaves that does not read: it hands nothing over, and does not read again. -/
structure Aside (t t' : TransportTCP) : Prop where
  delivered : t'.delivered = t.delivered
  quiet : t.Quiet → t'.Quiet

/-- What an operation leaves that does not send. -/
structure Unsent (t t' : TransportTCP) : Prop where
  sendMsgs : t'.sendMsgs = t.sendMsgs
  sent : t'.sent = t.sent

variable {t t' t'' : TransportTCP} {send : Send} {recv : Recv} {msg : Message} {rest : List Message}
  {frame : Frame}

theorem Aside.refl (t : TransportTCP) : Aside t t := ⟨rfl, id⟩

theorem Aside.trans (h : Aside t t') (h' : Aside t' t'') : Aside t t'' :=
  ⟨h'.delivered.trans h.delivered, fun hquiet => h'.quiet (h.quiet hquiet)⟩

theorem Unsent.refl (t : TransportTCP) : Unsent t t := ⟨rfl, rfl⟩

theorem Unsent.trans (h : Unsent t t') (h' : Unsent t' t'') : Unsent t t'' :=
  ⟨h'.sendMsgs.trans h.sendMsgs, h'.sent.trans h.sent⟩

theorem aside_close (hrun : t.close = .ok t') : Aside t t' ∧ Unsent t t' := by
  rw [close] at hrun
  split_ifs at hrun with hclosed
  · obtain rfl := Except.ok.inj hrun
    exact ⟨.refl t, .refl t⟩
  all_goals
    obtain rfl := Except.ok.inj hrun
    exact ⟨⟨rfl, fun _ => Or.inl rfl⟩, rfl, rfl⟩

theorem aside_enableWrite (hrun : t.enableWrite = .ok t') : Aside t t' := by
  rw [enableWrite] at hrun
  split_ifs at hrun <;>
    exact Except.ok.inj hrun ▸ ⟨rfl, id⟩

theorem aside_disableWrite (hrun : t.disableWrite = .ok t') : Aside t t' := by
  rw [disableWrite] at hrun
  split_ifs at hrun <;>
    exact Except.ok.inj hrun ▸ ⟨rfl, id⟩

/-- A transport that stops to read is quiet. -/
theorem quiet_of_disableRead (hrun : t.disableRead = .ok t') :
    t'.Quiet ∧ t'.delivered = t.delivered ∧ Unsent t t' := by
  rw [disableRead] at hrun
  split_ifs at hrun with hsync hclosed hreads
  · obtain rfl := Except.ok.inj hrun
    exact ⟨Or.inl hclosed, rfl, .refl t⟩
  · obtain rfl := Except.ok.inj hrun
    exact ⟨Or.inr rfl, rfl, rfl, rfl⟩
  · obtain rfl := Except.ok.inj hrun
    exact ⟨Or.inr (by simpa using hreads), rfl, .refl t⟩

theorem aside_setFilter {filterNum : Int} (hrun : t.setFilter filterNum = .ok t') :
    Aside t t' ∧ Unsent t t' := by
  rw [setFilter] at hrun
  split_ifs at hrun
  obtain rfl := Except.ok.inj hrun
  exact ⟨⟨rfl, id⟩, rfl, rfl⟩

theorem aside_sendFrames {frames : List Frame} (hrun : t.sendFrames frames = .ok t') : Aside t t' := by
  obtain ⟨counter, rfl | ⟨t₁, msg, henable, rfl⟩⟩ := sendFrames_cases hrun
  · exact ⟨rfl, id⟩
  · have hcounted : Aside t { t with msgCounter := counter } := ⟨rfl, id⟩
    have haside : Aside { t with msgCounter := counter } t₁ := by
      split_ifs at henable
      · exact aside_enableWrite henable
      · exact Except.ok.inj henable ▸ .refl _
    have hpushed : Aside t₁ { t₁ with sendMsgs := t₁.sendMsgs ++ [msg] } := ⟨rfl, id⟩
    exact (hcounted.trans haside).trans hpushed

theorem aside_write {buffer : List UInt8} {size : UInt32} {n : Int}
    (hrun : t.write send buffer size = .ok (n, t')) : Aside t t' := by
  rcases write_cases hrun with ⟨-, hclose⟩ | ⟨-, sent, rfl⟩
  · exact (aside_close hclose).1
  · exact ⟨rfl, id⟩

theorem aside_finishFrame (hrun : t.finishFrame msg frame rest = .ok t') : Aside t t' := by
  have hqueue : ∀ msgs : List Message, Aside t { t with sendMsgs := msgs } := fun _ => ⟨rfl, id⟩
  rw [finishFrame] at hrun
  dsimp only at hrun
  split_ifs at hrun
  · split at hrun
    · cases hrun
    · exact Except.ok.inj hrun ▸ hqueue _
  · exact (hqueue rest).trans (aside_disableWrite hrun)
  · exact Except.ok.inj hrun ▸ hqueue _
  · exact Except.ok.inj hrun ▸ hqueue _

theorem aside_writeFrame (hrun : t.writeFrame send msg rest = .ok t') : Aside t t' := by
  rcases writeFrame_cases hrun with ⟨frame, hend⟩ | ⟨buffer, size, n, t₁, hwrite, hrest⟩
  · exact aside_finishFrame hend
  · rcases hrest with ⟨msg', frame, hend⟩ | ⟨-, hclose⟩
    · exact (aside_write hwrite).trans (aside_finishFrame hend)
    · exact (aside_write hwrite).trans (aside_close hclose).1

theorem aside_writeMessage (hrun : t.writeMessage send = .ok t') :
    Aside t t' ∧ t.sendMsgs ≠ [] := by
  obtain ⟨msg, rest, hqueue, hframe | ⟨buffer, size, n, t₁, hwrite, hrest⟩⟩ := writeMessage_cases hrun
  all_goals refine ⟨?_, by simp [hqueue]⟩
  · exact aside_writeFrame hframe
  · rcases hrest with ⟨-, msg', rfl⟩ | ⟨-, hclose⟩
    · have hqueued : ∀ msgs : List Message, Aside t₁ { t₁ with sendMsgs := msgs } := fun _ => ⟨rfl, id⟩
      exact (aside_write hwrite).trans (hqueued _)
    · exact (aside_write hwrite).trans (aside_close hclose).1

/-! ### Reading -/

/-- What an operation leaves that reads: it hands over a message at most, and sends nothing. -/
structure Reads (t t' : TransportTCP) : Prop where
  delivered : t'.delivered = t.delivered ∨ ∃ frames, t'.delivered = t.delivered ++ [frames]
  unsent : Unsent t t'

theorem unsent_read {size : UInt32} {n : Int} {bs : List UInt8}
    (hrun : t.read recv size = .ok (n, bs, t')) : t'.delivered = t.delivered ∧ Unsent t t' := by
  rcases read_cases hrun with ⟨-, hclose⟩ | ⟨-, -, rfl⟩
  · obtain ⟨haside, hunsent⟩ := aside_close hclose
    exact ⟨haside.delivered, hunsent⟩
  · exact ⟨rfl, rfl, rfl⟩

theorem reads_endFrame (hrun : t.endFrame frame = .ok t') : Reads t t' := by
  rw [endFrame] at hrun
  dsimp only at hrun
  split_ifs at hrun
  · obtain rfl := Except.ok.inj hrun
    exact ⟨Or.inr ⟨_, rfl⟩, rfl, rfl⟩
  · obtain rfl := Except.ok.inj hrun
    exact ⟨Or.inl rfl, rfl, rfl⟩
  · obtain rfl := Except.ok.inj hrun
    exact ⟨Or.inl rfl, .refl t⟩

theorem Reads.of_delivered (h : t'.delivered = t.delivered) (hunsent : Unsent t t')
    (h' : Reads t' t'') : Reads t t'' := by
  refine ⟨?_, hunsent.trans h'.unsent⟩
  rw [← h]
  exact h'.delivered

/-- What was read changes the message under way. -/
theorem Reads.of_read {size : UInt32} {n : Int} {bs : List UInt8} {msg : Message}
    (hread : t.read recv size = .ok (n, bs, t')) (h : Reads { t' with readMsg := msg } t'') :
    Reads t t'' := by
  obtain ⟨hdelivered, hunsent⟩ := unsent_read hread
  exact .of_delivered hdelivered hunsent ⟨h.delivered, h.unsent.sendMsgs, h.unsent.sent⟩

theorem reads_readNumframes (hrun : t.readNumframes recv = .ok t') : Reads t t' := by
  obtain ⟨⟨n, bs, t₁⟩, hread, hrest⟩ := bind_eq_ok_iff.mp hrun
  obtain ⟨hdelivered, hunsent⟩ := unsent_read hread
  dsimp only at hrest
  split_ifs at hrest
  · obtain rfl := Except.ok.inj hrest
    exact ⟨Or.inl hdelivered, hunsent⟩
  · obtain ⟨t₂, hclose, hlast⟩ := bind_eq_ok_iff.mp hrest
    obtain rfl := Except.ok.inj hlast
    obtain ⟨haside, hunsent'⟩ := aside_close hclose
    exact ⟨Or.inl (haside.delivered.trans hdelivered), hunsent'.sendMsgs.trans hunsent.sendMsgs,
      hunsent'.sent.trans hunsent.sent⟩
  all_goals
    obtain rfl := Except.ok.inj hrest
    exact ⟨Or.inl hdelivered, hunsent.sendMsgs, hunsent.sent⟩

theorem reads_readFrame (hrun : t.readFrame recv = .ok t') : Reads t t' := by
  rcases readFrame_cases hrun with ⟨frame, hend⟩ | ⟨size, n, bs, t₁, hread, hrest⟩
  · exact reads_endFrame hend
  · rcases hrest with ⟨-, rfl⟩ | ⟨-, frame, ⟨-, hend⟩ | hend⟩
    · obtain ⟨hdelivered, hunsent⟩ := unsent_read hread
      exact ⟨Or.inl hdelivered, hunsent⟩
    · exact .of_read hread (reads_endFrame hend)
    · exact .of_read hread (reads_endFrame hend)

theorem reads_readMessage (hrun : t.readMessage recv = .ok t') : Reads t t' := by
  have hstart : t.startReading.delivered = t.delivered ∧ Unsent t t.startReading := by
    rw [startReading]
    split_ifs
    · exact ⟨rfl, .refl t⟩
    · exact ⟨rfl, rfl, rfl⟩
  rw [readMessage] at hrun
  dsimp only at hrun
  split_ifs at hrun
  · exact .of_delivered hstart.1 hstart.2 (reads_readNumframes hrun)
  · exact .of_delivered hstart.1 hstart.2 (reads_readFrame hrun)

end TransportTCP

namespace Handshaking

/-! ### The invariant -/

/-- The next read of the connection completes a message and hands it to `onOptions`. -/
def EntersOptions (conn : Connection) : Prop :=
  ¬ conn.tcp.Quiet ∧ ∃ recv t, conn.tcp.readMessage recv = .ok t ∧ t.delivered ≠ conn.tcp.delivered

/-- A connection at any stage of its handshake. What was handed over went to `onOptions`. -/
structure Negotiates (conn : Connection) : Prop where
  entered_le : conn.tcp.delivered.length ≤ 1
  quiet : conn.tcp.delivered ≠ [] → conn.tcp.Quiet
  entered : conn.setup = true → conn.tcp.delivered ≠ []
  unsent : conn.setup = false → conn.tcp.sendMsgs = [] ∧ conn.tcp.sent = []

structure Inv (s : Handshaking) : Prop where
  negotiates : ∀ (i : Nat) (conn : Connection), s.connections[i]? = some conn → Negotiates conn
  copied : ∀ call ∈ s.publishing, ∀ entry ∈ call.conns, entry.2.1 = true →
    ∃ conn : Connection, s.connections[entry.1]? = some conn ∧ conn.setup = true

/-- The connections are still there, and those set up are as they were. -/
def Keeps (s s' : Handshaking) : Prop :=
  ∀ (i : Nat) (conn : Connection), s.connections[i]? = some conn →
    ∃ conn' : Connection, s'.connections[i]? = some conn' ∧
      (conn.setup = true → conn'.setup = true ∧ conn'.opts = conn.opts)

variable {s s' s'' : Handshaking} {i : Nat} {conn conn' : Connection} {serializer : OptionsSerializer}
  {snappy : Snappy}

theorem Keeps.refl (s : Handshaking) : Keeps s s := fun _ conn hi => ⟨conn, hi, fun h => ⟨h, rfl⟩⟩

theorem Keeps.trans (h : Keeps s s') (h' : Keeps s' s'') : Keeps s s'' := by
  intro i conn hi
  obtain ⟨conn', hi', hkeep⟩ := h i conn hi
  obtain ⟨conn'', hi'', hkeep'⟩ := h' i conn' hi'
  refine ⟨conn'', hi'', fun hsetup => ?_⟩
  obtain ⟨hsetup', hopts⟩ := hkeep hsetup
  obtain ⟨hsetup'', hopts'⟩ := hkeep' hsetup'
  exact ⟨hsetup'', hopts'.trans hopts⟩

/-- What was copied as set up is set up for good. -/
theorem Inv.copied_of_keeps (h : Inv s) (hkeeps : Keeps s s') {conns : List (Nat × Bool × TCPOptions)}
    (hconns : ∃ call ∈ s.publishing, ∀ entry ∈ conns, entry ∈ call.conns) :
    ∀ entry ∈ conns, entry.2.1 = true →
      ∃ conn : Connection, s'.connections[entry.1]? = some conn ∧ conn.setup = true := by
  obtain ⟨call, hcall, hsubset⟩ := hconns
  intro entry hentry hsetup
  obtain ⟨conn, hi, hconn⟩ := h.copied call hcall entry (hsubset entry hentry) hsetup
  obtain ⟨conn', hi', hkeep⟩ := hkeeps _ conn hi
  exact ⟨conn', hi', (hkeep hconn).1⟩

/-- One connection goes on. -/
theorem Inv.set (h : Inv s) (hi : s.connections[i]? = some conn) (hconn : Negotiates conn')
    (hkeep : conn.setup = true → conn'.setup = true ∧ conn'.opts = conn.opts) :
    Inv { s with connections := s.connections.set i conn' } ∧
      Keeps s { s with connections := s.connections.set i conn' } := by
  have hkeeps : Keeps s { s with connections := s.connections.set i conn' } := by
    intro j c hj
    by_cases heq : j = i
    · subst heq
      cases hi.symm.trans hj
      exact ⟨conn', Assignment.getElem?_set_place hi conn', hkeep⟩
    · exact ⟨c, (List.getElem?_set_ne (Ne.symm heq)).trans hj, fun hsetup => ⟨hsetup, rfl⟩⟩
  refine ⟨⟨?_, ?_⟩, hkeeps⟩
  · intro j c hj
    rcases Assignment.getElem?_set_cases hj with ⟨-, rfl⟩ | ⟨-, hj⟩
    · exact hconn
    · exact h.negotiates j c hj
  · intro call hcall
    exact h.copied_of_keeps hkeeps ⟨call, hcall, fun _ hentry => hentry⟩

/-- An operation that neither reads nor sends leaves the handshake where it is. -/
theorem Negotiates.aside (h : Negotiates conn) {tcp : TransportTCP} (haside : conn.tcp.Aside tcp)
    (hunsent : conn.setup = false → tcp.sendMsgs = [] ∧ tcp.sent = []) :
    Negotiates { conn with tcp := tcp } where
  entered_le := haside.delivered.symm ▸ h.entered_le
  quiet hentered := haside.quiet (h.quiet (haside.delivered ▸ hentered))
  entered hsetup := haside.delivered.symm ▸ h.entered hsetup
  unsent := hunsent

theorem Negotiates.unsent_of (h : Negotiates conn) {tcp : TransportTCP}
    (hunsent : conn.tcp.Unsent tcp) (hsetup : conn.setup = false) :
    tcp.sendMsgs = [] ∧ tcp.sent = [] := by
  rw [hunsent.sendMsgs, hunsent.sent]
  exact h.unsent hsetup

/-! ### What an event does -/

theorem Inv.onTransport (h : Inv s) {f : TransportTCP → Except Fault TransportTCP}
    (hf : ∀ conn tcp, Negotiates conn → f conn.tcp = .ok tcp → Negotiates { conn with tcp := tcp })
    (hrun : s.onTransport i f = .ok s') : Inv s' ∧ Keeps s s' := by
  rw [Handshaking.onTransport] at hrun
  split at hrun
  · obtain rfl := Except.ok.inj hrun
    exact ⟨h, .refl s⟩
  · rename_i conn hi
    obtain ⟨tcp, hstep, hlast⟩ := bind_eq_ok_iff.mp hrun
    obtain rfl := Except.ok.inj hlast
    exact h.set hi (hf conn tcp (h.negotiates i conn hi) hstep) fun hsetup => ⟨hsetup, rfl⟩

theorem Negotiates.close (h : Negotiates conn) {tcp : TransportTCP} (hrun : conn.tcp.close = .ok tcp) :
    Negotiates { conn with tcp := tcp } := by
  obtain ⟨haside, hunsent⟩ := TransportTCP.aside_close hrun
  exact h.aside haside (h.unsent_of hunsent)

/-- Nothing is written on a connection that is not set up. -/
theorem Negotiates.writable (h : Negotiates conn) {tcp : TransportTCP} {send : Send}
    (hrun : (if conn.tcp.closed ∨ !conn.tcp.expectingWrite ∨ !conn.tcp.writeCb then .ok conn.tcp
      else conn.tcp.writeMessage send) = .ok tcp) : Negotiates { conn with tcp := tcp } := by
  split_ifs at hrun
  · obtain rfl := Except.ok.inj hrun
    exact h
  · obtain ⟨haside, hqueued⟩ := TransportTCP.aside_writeMessage hrun
    exact h.aside haside fun hsetup => absurd (h.unsent hsetup).1 hqueued

theorem Inv.onAccept (h : Inv s) {e : Endpoint} (hrun : s.onAccept e.transport = .ok s') :
    Inv s' ∧ Keeps s s' := by
  obtain ⟨tcp, hdelivered, hsendMsgs, hsent, hconnections⟩ : ∃ tcp : TransportTCP,
      tcp.delivered = [] ∧ tcp.sendMsgs = [] ∧ tcp.sent = [] ∧
      s' = { s with connections := s.connections ++ [⟨tcp, false, ⟨false, 0, 0⟩⟩] } := by
    refine ⟨_, ?_, ?_, ?_, (Except.ok.inj hrun).symm⟩
    · rfl
    · rfl
    · rfl
  subst hconnections
  have hnew : Negotiates ⟨tcp, false, ⟨false, 0, 0⟩⟩ := by
    refine ⟨?_, ?_, ?_, fun _ => ⟨hsendMsgs, hsent⟩⟩
    · rw [hdelivered]
      exact Nat.zero_le 1
    · exact fun hentered => absurd hdelivered hentered
    · intro hsetup
      cases hsetup
  have hkeeps : Keeps s { s with connections := s.connections ++ [⟨tcp, false, ⟨false, 0, 0⟩⟩] } := by
    intro j c hj
    refine ⟨c, ?_, fun hsetup => ⟨hsetup, rfl⟩⟩
    exact (List.getElem?_append_left (List.getElem?_eq_some_iff.mp hj).1).trans hj
  refine ⟨⟨?_, ?_⟩, hkeeps⟩
  · intro j c hj
    rcases List.mem_append.mp (List.mem_of_getElem? hj) with hc | hc
    · obtain ⟨k, hk⟩ := List.getElem?_of_mem hc
      exact h.negotiates k c hk
    · rw [List.mem_singleton.mp hc]
      exact hnew
  · intro call hcall
    exact h.copied_of_keeps hkeeps ⟨call, hcall, fun _ hentry => hentry⟩

/-- `onOptions` stops the reading first, and then sets up the connection where it finds it. -/
theorem onOptions_eq_ok (hi : s.connections[i]? = some conn) {frames : List Frame}
    (hrun : s.onOptions serializer i frames = .ok s') :
    ∃ tcp conn', conn.tcp.disableRead = .ok tcp ∧
      s' = { s with connections := s.connections.set i conn' } ∧
      (conn' = { conn with tcp := tcp } ∨ conn.setup = false ∧ ∃ filterNum tcp' opts,
        tcp.setFilter filterNum = .ok tcp' ∧ conn' = ⟨tcp', true, opts⟩) := by
  have hbreak : ∀ frames : List Frame, frames.length ≠ 1 →
      s.onOptions serializer i frames = .error .rosBreak := by
    intro frames hframes
    rcases frames with _ | ⟨frame, _ | ⟨frame₂, frames⟩⟩
    · exact ite_self _
    · exact absurd rfl hframes
    · exact ite_self _
  rcases frames with _ | ⟨frame, _ | ⟨frame₂, frames⟩⟩
  · rw [hbreak [] (by simp)] at hrun
    cases hrun
  · simp only [onOptions, hi] at hrun
    split_ifs at hrun with hremoved
    · obtain ⟨tcp, hdisable, hlast⟩ := bind_eq_ok_iff.mp hrun
      exact ⟨tcp, _, hdisable, (Except.ok.inj hlast).symm, Or.inl rfl⟩
    · obtain ⟨p, hp, hlast⟩ := bind_eq_ok_iff.mp hrun
      obtain rfl := Except.ok.inj hlast
      simp only [TCPPublish.onOptions, hi] at hp
      obtain ⟨tcp, hdisable, hp⟩ := bind_eq_ok_iff.mp hp
      split_ifs at hp with hsetup
      obtain ⟨opts, -, hp⟩ := bind_eq_ok_iff.mp hp
      obtain ⟨tcp', hfilter, hp⟩ := bind_eq_ok_iff.mp hp
      obtain rfl := Except.ok.inj hp
      exact ⟨tcp, _, hdisable, rfl,
        Or.inr ⟨Bool.eq_false_iff.mpr hsetup, _, tcp', opts, hfilter, rfl⟩⟩
  · rw [hbreak (frame :: frame₂ :: frames) (by simp)] at hrun
    cases hrun

/-- What `onOptions` leaves of a connection that was read. -/
theorem Negotiates.entered_of_read (h : Negotiates conn) (hread : ¬ conn.tcp.Quiet)
    {tcp tcp' : TransportTCP} {frames : List Frame} (hdelivered : tcp.delivered = [frames])
    (hunsent : conn.tcp.Unsent tcp) (hdisable : tcp.disableRead = .ok tcp')
    (hconn : conn' = { conn with tcp := tcp' } ∨ conn.setup = false ∧ ∃ filterNum tcp'' opts,
      tcp'.setFilter filterNum = .ok tcp'' ∧ conn' = ⟨tcp'', true, opts⟩) : Negotiates conn' := by
  obtain ⟨hquiet, hsame, hunsent'⟩ := TransportTCP.quiet_of_disableRead hdisable
  have hone : tcp'.delivered = [frames] := hsame.trans hdelivered
  have hsetup : conn.setup = false := by
    by_contra hsetup
    exact hread (h.quiet (h.entered (Bool.eq_true_of_not_eq_false hsetup)))
  rcases hconn with rfl | ⟨-, filterNum, tcp'', opts, hfilter, rfl⟩
  · refine ⟨?_, fun _ => hquiet, ?_, fun _ => h.unsent_of (hunsent.trans hunsent') hsetup⟩
    · show tcp'.delivered.length ≤ 1
      rw [hone]
      exact Nat.le_refl 1
    · intro hset
      cases hsetup.symm.trans hset
  · obtain ⟨haside, -⟩ := TransportTCP.aside_setFilter hfilter
    have hone' : tcp''.delivered = [frames] := haside.delivered.trans hone
    refine ⟨?_, fun _ => haside.quiet hquiet, fun _ => ?_, ?_⟩
    · show tcp''.delivered.length ≤ 1
      rw [hone']
      exact Nat.le_refl 1
    · show tcp''.delivered ≠ []
      rw [hone']
      exact List.cons_ne_nil _ _
    · intro hset
      cases hset

theorem Inv.onReadable (h : Inv s) {recv : Recv}
    (hrun : s.onReadable serializer i recv = .ok s') : Inv s' ∧ Keeps s s' := by
  rw [Handshaking.onReadable] at hrun
  split at hrun
  · obtain rfl := Except.ok.inj hrun
    exact ⟨h, .refl s⟩
  · rename_i conn hi
    have hconn := h.negotiates i conn hi
    split_ifs at hrun with hskip
    · obtain rfl := Except.ok.inj hrun
      exact ⟨h, .refl s⟩
    · obtain ⟨tcp, hread, hrest⟩ := bind_eq_ok_iff.mp hrun
      have hquiet : ¬ conn.tcp.Quiet := fun hq => hskip (hq.elim Or.inl fun hq => Or.inr (Or.inl hq))
      have hnone : conn.tcp.delivered = [] := by
        by_contra hentered
        exact hquiet (hconn.quiet hentered)
      have hreads := TransportTCP.reads_readMessage hread
      rw [hnone] at hrest
      simp only [List.length_nil, List.drop_zero] at hrest
      rcases hreads.delivered with hsame | ⟨frames, hmore⟩
      · have hnone' : tcp.delivered = [] := hsame.trans hnone
        rw [hnone'] at hrest
        obtain rfl := Except.ok.inj hrest
        refine h.set hi ⟨?_, ?_, ?_, ?_⟩ fun hsetup => ⟨hsetup, rfl⟩
        · show tcp.delivered.length ≤ 1
          rw [hnone']
          exact Nat.zero_le 1
        · exact fun hentered => absurd hnone' hentered
        · exact fun hsetup => absurd hnone (hconn.entered hsetup)
        · exact hconn.unsent_of hreads.unsent
      · have hone : tcp.delivered = [frames] := by rw [hmore, hnone, List.nil_append]
        rw [hone] at hrest
        obtain ⟨tcp', conn', hdisable, hs', hconn'⟩ :=
          onOptions_eq_ok (Assignment.getElem?_set_place hi _) hrest
        rw [List.set_set] at hs'
        subst hs'
        have hnew := hconn.entered_of_read hquiet hone hreads.unsent hdisable hconn'
        exact h.set hi hnew fun hsetup => absurd hnone (hconn.entered hsetup)

theorem Inv.onDisconnect (h : Inv s) (i : Nat) :
    Inv (s.onDisconnect i) ∧ Keeps s (s.onDisconnect i) := by
  rw [Handshaking.onDisconnect]
  split
  · exact ⟨h, .refl s⟩
  · split_ifs
    · exact ⟨⟨h.negotiates, h.copied⟩, fun j c hj => ⟨c, hj, fun hsetup => ⟨hsetup, rfl⟩⟩⟩
    · exact ⟨h, .refl s⟩

/-- The copy says of no connection that it is set up before it is. -/
theorem Inv.publish (h : Inv s) (msg : OutMessage) :
    Inv { s with publishing := s.publishing ++ [⟨msg, none, s.copyConnections⟩] } := by
  refine ⟨h.negotiates, ?_⟩
  intro call hcall entry hentry hsetup
  rcases List.mem_append.mp hcall with hcall | hcall
  · exact h.copied call hcall entry hentry hsetup
  · rw [List.mem_singleton.mp hcall] at hentry
    obtain ⟨listed, hlisted, rfl⟩ := List.mem_map.mp hentry
    have hmem := (List.mem_filter.mp hlisted).1
    exact ⟨listed.1, List.mem_zipIdx_iff_getElem?.mp hmem, hsetup⟩

/-- `publish` does nothing on a connection that its copy has as not set up. -/
theorem publishOn_aside {msg : OutMessage} {data data' : Option (List UInt8)} {sent : Connection}
    (hrun : TCPPublish.publishOn snappy msg data conn = .ok (data', sent)) :
    (conn.setup = false → sent.tcp = conn.tcp) ∧ conn.tcp.Aside sent.tcp := by
  rw [TCPPublish.publishOn] at hrun
  by_cases hsetup : conn.setup = true
  · rw [if_pos hsetup] at hrun
    refine ⟨fun hno => absurd (hsetup.symm.trans hno) (by decide), ?_⟩
    split_ifs at hrun
    · obtain ⟨tcp, hsend, hlast⟩ := bind_eq_ok_iff.mp hrun
      cases hlast
      exact TransportTCP.aside_sendFrames hsend
    · have hsent : ∀ bytes : List UInt8,
          ((conn.tcp.sendMessage bytes (UInt32.ofNat bytes.length)).bind fun tcp =>
            .ok (some bytes, { conn with tcp := tcp })) = .ok (data', sent) →
          conn.tcp.Aside sent.tcp := by
        intro bytes hrest
        obtain ⟨tcp, hsend, hlast⟩ := bind_eq_ok_iff.mp hrest
        cases hlast
        exact TransportTCP.aside_sendFrames hsend
      cases data with
      | some bytes => exact hsent bytes hrun
      | none =>
          dsimp only at hrun
          split_ifs at hrun
          · cases hrun
          · exact hsent _ hrun
  · rw [if_neg hsetup] at hrun
    cases hrun
    exact ⟨fun _ => rfl, .refl _⟩

theorem Inv.proceed (h : Inv s) {k : Nat} (hrun : s.proceed snappy k = .ok s') :
    Inv s' ∧ Keeps s s' := by
  rw [Handshaking.proceed] at hrun
  split at hrun
  · obtain rfl := Except.ok.inj hrun
    exact ⟨h, .refl s⟩
  rename_i call hcall
  split at hrun
  · obtain rfl := Except.ok.inj hrun
    exact ⟨h, .refl s⟩
  rename_i i setup opts rest hconns
  split at hrun
  · obtain rfl := Except.ok.inj hrun
    exact ⟨h, .refl s⟩
  rename_i conn hi
  obtain ⟨⟨data, sent⟩, hpublish, hlast⟩ := bind_eq_ok_iff.mp hrun
  obtain rfl := Except.ok.inj hlast
  obtain ⟨hnone, haside⟩ := publishOn_aside hpublish
  have hmem := List.mem_of_getElem? hcall
  have hconn := h.negotiates i conn hi
  have hunsent : conn.setup = false → sent.tcp.sendMsgs = [] ∧ sent.tcp.sent = [] := by
    intro hsetup
    have hcopied : setup = false := by
      by_contra htrue
      obtain ⟨conn', hi', hset⟩ := h.copied call hmem (i, setup, opts) (by simp [hconns])
        (Bool.eq_true_of_not_eq_false htrue)
      cases hi.symm.trans hi'
      cases hsetup.symm.trans hset
    rw [hnone hcopied]
    exact hconn.unsent hsetup
  obtain ⟨hinv, hkeeps⟩ := h.set hi (hconn.aside haside hunsent) fun hsetup => ⟨hsetup, rfl⟩
  refine ⟨⟨hinv.negotiates, ?_⟩, hkeeps⟩
  intro call' hcall'
  rcases List.mem_or_eq_of_mem_set hcall' with hcall' | rfl
  · exact hinv.copied call' hcall'
  · apply h.copied_of_keeps hkeeps
    exact ⟨call, hmem, fun entry hentry => by simp [hconns, hentry]⟩

theorem Inv.onEvent (h : Inv s) {e : HandshakeEvent}
    (hrun : s.onEvent snappy serializer e = .ok s') : Inv s' ∧ Keeps s s' := by
  cases e with
  | accept e => exact h.onAccept hrun
  | readable i recv => exact h.onReadable hrun
  | writable i send =>
      change s.onWritable i send = .ok s' at hrun
      rw [onWritable] at hrun
      exact h.onTransport (fun conn tcp hconn hstep => hconn.writable hstep) hrun
  | close i => exact h.onTransport (fun conn tcp hconn hstep => hconn.close hstep) hrun
  | disconnect i => exact Except.ok.inj hrun ▸ h.onDisconnect i
  | publish msg =>
      exact Except.ok.inj hrun ▸
        ⟨h.publish msg, fun j c hj => ⟨c, hj, fun hsetup => ⟨hsetup, rfl⟩⟩⟩
  | proceed k => exact h.proceed hrun

theorem inv_empty : Inv empty where
  negotiates i conn hi := by simp [empty] at hi
  copied call hcall := by simp [empty] at hcall

theorem run_keeps (h : Inv s) {events : List HandshakeEvent}
    (hrun : run (onEvent snappy serializer) s events = .ok s') : Inv s' ∧ Keeps s s' := by
  apply run_preserves (I := fun s' => Inv s' ∧ Keeps s s') _ ⟨h, .refl s⟩ hrun
  intro mid e next hmid hstep
  obtain ⟨hinv, hkeeps⟩ := hmid.1.onEvent hstep
  exact ⟨hinv, hmid.2.trans hkeeps⟩

/-- A connection that is about to enter `onOptions` has not done so before, and is not set up. -/
theorem Negotiates.fresh_of_enters (h : Negotiates conn) (henters : EntersOptions conn) :
    conn.tcp.delivered = [] ∧ conn.setup = false := by
  have hnone : conn.tcp.delivered = [] := by
    by_contra hentered
    exact henters.1 (h.quiet hentered)
  refine ⟨hnone, ?_⟩
  by_contra hsetup
  exact h.entered (Bool.eq_true_of_not_eq_false hsetup) hnone

/-- **Each connection enters `onOptions` once at most**, whatever its subscriber sends, and then it is
not set up yet. Before it is set up nothing is queued on it or sent, and once it is, it stays so with
its options. -/
theorem handshake_once {before after : List HandshakeEvent}
    (hbefore : run (onEvent snappy serializer) empty before = .ok s)
    (hafter : run (onEvent snappy serializer) s after = .ok s')
    (hi : s.connections[i]? = some conn) :
    ∃ conn' : Connection, s'.connections[i]? = some conn' ∧ conn'.tcp.delivered.length ≤ 1 ∧
      (EntersOptions conn' → conn'.tcp.delivered = [] ∧ conn'.setup = false) ∧
      (conn'.setup = false → conn'.tcp.sendMsgs = [] ∧ conn'.tcp.sent = []) ∧
      (conn.setup = true → conn'.setup = true ∧ conn'.opts = conn.opts) := by
  obtain ⟨hinv, -⟩ := run_keeps inv_empty hbefore
  obtain ⟨hinv', hkeeps⟩ := run_keeps hinv hafter
  obtain ⟨conn', hi', hkeep⟩ := hkeeps i conn hi
  have hconn' := hinv'.negotiates i conn' hi'
  exact ⟨conn', hi', hconn'.entered_le, hconn'.fresh_of_enters, hconn'.unsent, hkeep⟩

/-- The options arrive in three pieces, and then a message is published. -/
theorem handshake_once_options : ∃ (s s' : Handshaking) (conn' : Connection),
    run (onEvent PubSub.stored PubSub.fieldwise) empty [.accept PubSub.idle,
      .readable 0 (.give [1, 0, 0, 0]), .readable 0 (.give [6, 0, 0, 0]),
      .readable 0 (.give [0, 0, 1, 0, 0, 0])] = .ok s ∧
    run (onEvent PubSub.stored PubSub.fieldwise) s [.publish (PubSub.zeros 2 (by decide)),
      .proceed 0] = .ok s' ∧
    s'.connections[0]? = some conn' ∧ conn'.tcp.delivered.length ≤ 1 ∧ conn'.setup = true ∧
    conn'.opts = ⟨false, 0, 1⟩ := by
  obtain ⟨s, s', conn, hbefore, hafter, hi, hsetup, hopts⟩ : ∃ (s s' : Handshaking) (conn : Connection),
      run (onEvent PubSub.stored PubSub.fieldwise) empty [.accept PubSub.idle,
        .readable 0 (.give [1, 0, 0, 0]), .readable 0 (.give [6, 0, 0, 0]),
        .readable 0 (.give [0, 0, 1, 0, 0, 0])] = .ok s ∧
      run (onEvent PubSub.stored PubSub.fieldwise) s [.publish (PubSub.zeros 2 (by decide)),
        .proceed 0] = .ok s' ∧
      s.connections[0]? = some conn ∧ conn.setup = true ∧ conn.opts = ⟨false, 0, 1⟩ :=
    ⟨_, _, _, rfl, rfl, rfl, rfl, rfl⟩
  obtain ⟨conn', hi', hentered, -, -, hkeep⟩ := handshake_once hbefore hafter hi
  obtain ⟨hsetup', hopts'⟩ := hkeep hsetup
  exact ⟨s, s', conn', hbefore, hafter, hi', hentered, hsetup', hopts'.trans hopts⟩

end Handshaking

end Ros2Proto
