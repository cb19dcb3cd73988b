import Mathlib.Data.Set.Basic
import Ros2Proto.PubSub.Delivery

/-!
# The options of a subscriber

A publisher does what its subscribers ask for: `onOptions` passes their filter on to `setFilter`, and
`publish` compresses as they say. Neither value is checked when it arrives. A `TCPPublish` is shown to
stay up on all options of a set exactly if every filter in it is a positive `int` and every compression
is one that `publish` knows, whatever else its connections do.
-/

namespace Ros2Proto

open FallibleRun

/-! ### What subscribers send -/

/-- The options of the constructor of `TCPSubscribe` that is given none. The generated message starts
out with a filter of zero. -/
def TCPSubscribe.defaultOptions : TCPOptions := ⟨false, TCPOptions.NONE, 0⟩

/-- The options of `TCPSubFactory::CreateSubTransport`. -/
def TCPSubFactory.options : TCPOptions := ⟨true, TCPOptions.NONE, 1⟩

/-- Options that a publisher can serve. -/
structure TCPOptions.Acceptable (opts : TCPOptions) : Prop where
  filter_pos : 0 < opts.filter.toNat
  filter_le : opts.filter.toNat ≤ intMax
  compression : opts.compression = NONE ∨ opts.compression = SNAPPY

/-! ### A publisher's connections -/

/-- What happens on the connections of a publisher. -/
inductive ConnectionEvent
  | accept (e : Endpoint)
  /-- the options frame of the subscriber on a connection arrives -/
  | options (i : Nat) (opts : TCPOptions)
  | publish (msg : OutMessage)
  /-- the front message of a connection has been sent -/
  | sent (i : Nat)
  /-- a transport closes, its `disconnect_cb_` is yet to run -/
  | close (i : Nat)
  | disconnect (i : Nat)

/-- The options an event carries. -/
def ConnectionEvent.options? : ConnectionEvent → Option TCPOptions
  | .options _ opts => some opts
  | _ => none

namespace TCPPublish

/-- `onDisconnect` of the connection at place `i`. -/
def onDisconnect (p : TCPPublish) (i : Nat) : TCPPublish := ⟨p.connections.eraseIdx i⟩

/-- The transport of the connection at place `i` is replaced by what an operation leaves of it. -/
def onTransport (p : TCPPublish) (i : Nat) (f : TransportTCP → Except Fault TransportTCP) :
    Except Fault TCPPublish :=
  match p.connections[i]? with
  | none => .ok p
  | some conn => do
    let tcp ← f conn.tcp
    .ok ⟨p.connections.set i { conn with tcp := tcp }⟩

/-- A frame is read only while its transport is open and expects to read. -/
def onConnectionEvent (snappy : Snappy) (serializer : OptionsSerializer) (p : TCPPublish) :
    ConnectionEvent → Except Fault TCPPublish
  | .accept e => p.onAccept e.transport
  | .options i opts =>
    match p.connections[i]? with
    | none => .ok p
    | some conn =>
      if conn.tcp.closed ∨ !conn.tcp.expectingRead then .ok p
      else p.onOptions serializer i [.ofBytes (serializer.write opts)]
  | .publish msg => p.publish snappy msg
  | .sent i => p.onTransport i fun t => t.takeMessage.map Prod.snd
  | .close i => p.onTransport i fun t => t.close
  | .disconnect i => .ok (p.onDisconnect i)

end TCPPublish

/-! ### A publisher that stays up -/

/-- The faults of a failed assertion, a `ROS_BREAK` and a division by zero. -/
def Fault.Aborts (f : Fault) : Prop := f = .assertion ∨ f = .rosBreak ∨ f = .divisionByZero

namespace TCPPublish

/-- Every connection that is set up counts below a positive filter. -/
def CountsBelow (p : TCPPublish) : Prop :=
  ∀ conn ∈ p.connections, conn.setup = true →
    0 < conn.tcp.filter ∧ 0 ≤ conn.tcp.msgCounter ∧ conn.tcp.msgCounter < conn.tcp.filter

/-- It did not abort, and its connections count below their filters. -/
def StaysUp : Except Fault TCPPublish → Prop := Ends CountsBelow fun f => ¬ f.Aborts

/-- A connection that reads no options once it is set up. -/
structure Sound (conn : Connection) : Prop where
  counted : conn.tcp.Counted
  quiet : conn.setup = true → conn.tcp.Quiet
  compression : conn.setup = true →
    conn.opts.compression = TCPOptions.NONE ∨ conn.opts.compression = TCPOptions.SNAPPY

def AllSound (conns : List Connection) : Prop := ∀ conn ∈ conns, Sound conn

variable {p : TCPPublish} {conn : Connection} {conns : List Connection} {snappy : Snappy}
  {serializer : OptionsSerializer}

theorem AllSound.countsBelow (h : AllSound p.connections) : p.CountsBelow := by
  intro conn hconn _
  have hcounted := (h conn hconn).counted
  exact ⟨hcounted.filter_pos, hcounted.counter_nonneg, hcounted.counter_lt⟩

theorem AllSound.set (h : AllSound conns) (hconn : Sound conn) (i : Nat) :
    AllSound (conns.set i conn) := by
  intro c hc
  rcases List.mem_or_eq_of_mem_set hc with hc | rfl
  · exact h c hc
  · exact hconn

theorem Sound.follow (h : Sound conn) {tcp : TransportTCP} (hfollows : conn.tcp.Follows tcp) :
    Sound { conn with tcp := tcp } :=
  ⟨hfollows.counted, fun hsetup => hfollows.quiet (h.quiet hsetup), h.compression⟩

/-- A message is sent or the buffer for the compressed one is too small. -/
theorem Sound.publishOn (h : Sound conn) (msg : OutMessage) (snappyData : Option (List UInt8)) :
    Ends (fun out => Sound out.2) (fun f => ¬ f.Aborts)
      (publishOn snappy msg snappyData conn) := by
  have hsend : ∀ data size (snappyData' : Option (List UInt8)),
      Ends (fun out : Option (List UInt8) × Connection => Sound out.2) (fun f => ¬ f.Aborts)
        ((conn.tcp.sendMessage data size).bind fun tcp =>
          .ok (snappyData', { conn with tcp := tcp })) := by
    intro data size snappyData'
    obtain ⟨tcp, hrun, hfollows⟩ := h.counted.sendMessage data size
    rw [hrun]
    exact h.follow hfollows
  rw [TCPPublish.publishOn]
  by_cases hsetup : conn.setup = true
  · rw [if_pos hsetup]
    rcases h.compression hsetup with hnone | hsnappy
    · rw [if_pos hnone]
      exact hsend _ _ _
    · rw [if_neg (by rw [hsnappy]; decide), if_pos hsnappy]
      cases snappyData with
      | some data => exact hsend _ _ _
      | none =>
          dsimp only
          split_ifs with hroom
          · show ¬ Fault.Aborts .overrun
            simp [Fault.Aborts]
          · exact hsend _ _ _
  · rw [if_neg hsetup]
    exact h

theorem AllSound.publishEach (h : AllSound conns) (msg : OutMessage)
    (snappyData : Option (List UInt8)) :
    Ends AllSound (fun f => ¬ f.Aborts) (publishEach snappy msg snappyData conns) := by
  induction conns generalizing snappyData with
  | nil => exact h
  | cons conn rest ih =>
      rw [TCPPublish.publishEach]
      apply ((h conn (by simp)).publishOn msg snappyData).bind
      intro result hconn'
      obtain ⟨snappyData', conn'⟩ := result
      apply (ih (fun c hc => h c (by simp [hc])) snappyData').bind
      intro rest' hrest' c hc
      rcases List.mem_cons.mp hc with rfl | hc
      · exact hconn'
      · exact hrest' c hc

theorem AllSound.onTransport (h : AllSound p.connections) (i : Nat)
    {f : TransportTCP → Except Fault TransportTCP}
    (hf : ∀ t : TransportTCP, t.Counted → ∃ t', f t = .ok t' ∧ t.Follows t') :
    ∃ p', p.onTransport i f = .ok p' ∧ AllSound p'.connections := by
  rw [TCPPublish.onTransport]
  cases hi : p.connections[i]? with
  | none => exact ⟨p, rfl, h⟩
  | some conn =>
      have hconn := h conn (List.mem_of_getElem? hi)
      obtain ⟨tcp, hrun, hfollows⟩ := hf conn.tcp hconn.counted
      exact ⟨_, bind_eq_ok_iff.mpr ⟨tcp, hrun, rfl⟩, h.set (hconn.follow hfollows) i⟩

/-- The options arrive as they were written. -/
theorem read_ofBytes_write (serializer : OptionsSerializer) (opts : TCPOptions) :
    serializer.read (Frame.ofBytes (serializer.write opts)).payload = .ok opts := by
  rw [payload_ofBytes (serializer.length_write _), serializer.read_write]

/-- The first options that a connection reads. -/
theorem AllSound.onOptions (h : AllSound p.connections) {i : Nat}
    (hi : p.connections[i]? = some conn) (hread : ¬ conn.tcp.Quiet) {opts : TCPOptions}
    (hopts : opts.Acceptable) :
    ∃ p', p.onOptions serializer i [.ofBytes (serializer.write opts)] = .ok p' ∧
      AllSound p'.connections := by
  have hconn := h conn (List.mem_of_getElem? hi)
  have hsetup : conn.setup = false := Bool.eq_false_iff.mpr (mt hconn.quiet hread)
  obtain ⟨tcp, hdisable, hcounted, hquiet⟩ := hconn.counted.disableRead
  have hpos : 0 < intOfU32 opts.filter := by
    rw [TransportTCP.intOfU32_eq hopts.filter_le]
    exact_mod_cast hopts.filter_pos
  obtain ⟨tcp', hfilter, hfollows⟩ := hcounted.setFilter hpos
  have hdecoded := read_ofBytes_write serializer opts
  refine ⟨_, onOptions_eq_ok hi hdisable hsetup hdecoded hfilter, h.set ?_ i⟩
  exact ⟨hfollows.counted, fun _ => hfollows.quiet hquiet, fun _ => hopts.compression⟩

theorem AllSound.onAccept (h : AllSound p.connections) (e : Endpoint) :
    ∃ p', p.onAccept e.transport = .ok p' ∧ AllSound p'.connections := by
  refine ⟨_, rfl, fun c hc => ?_⟩
  rcases List.mem_append.mp hc with hc | hc
  · exact h c hc
  · obtain rfl := List.mem_singleton.mp hc
    refine ⟨⟨rfl, rfl, fun _ => ?_, Int.one_pos, Int.le_refl 0, Int.one_pos⟩, nofun, nofun⟩
    show (e.sock : Int) ≠ -1
    omega

/-- One event, with acceptable options. -/
theorem AllSound.step (h : AllSound p.connections) {e : ConnectionEvent}
    (hopts : ∀ opts ∈ e.options?, opts.Acceptable) :
    Ends (fun p => AllSound p.connections) (fun f => ¬ f.Aborts)
      (onConnectionEvent snappy serializer p e) := by
  cases e with
  | accept e => exact .of_ok (h.onAccept e)
  | options i opts =>
      rw [onConnectionEvent]
      cases hi : p.connections[i]? with
      | none => exact h
      | some conn =>
          dsimp only
          split_ifs with hquiet
          · exact h
          · exact .of_ok (h.onOptions hi hquiet (hopts opts rfl))
  | publish msg => exact (h.publishEach msg none).bind fun conns hconns => hconns
  | sent i => exact .of_ok (h.onTransport i fun t ht => ht.takeMessage)
  | close i => exact .of_ok (h.onTransport i fun t ht => ht.close)
  | disconnect i =>
      show AllSound (p.connections.eraseIdx i)
      exact fun c hc => h c (List.mem_of_mem_eraseIdx hc)

/-! ### The options that bring it down -/

theorem bmod_nonpos {n : Nat} (hlt : n < 2 ^ 32) (h : n = 0 ∨ 2 ^ 31 ≤ n) :
    (n : Int).bmod (2 ^ 32) ≤ 0 := by
  rcases h with rfl | hbig
  · decide
  · rw [← Int.sub_bmod_right]
    rw [Int.bmod_eq_of_le] <;> omega

/-- A `uint32_t` from `2 ^ 31` on is a negative `int`. -/
theorem intOfU32_nonpos {x : UInt32} (h : ¬ (0 < x.toNat ∧ x.toNat ≤ intMax)) : intOfU32 x ≤ 0 := by
  apply bmod_nonpos x.toNat_lt
  rw [intMax] at h
  omega

/-- A new connection whose subscriber sends these options, and one message. -/
def firstMessage (opts : TCPOptions) (e : Endpoint) (msg : OutMessage) : List ConnectionEvent :=
  [.accept e, .options 0 opts, .publish msg]

theorem onOptions_eq_error {i : Nat} {frame : Frame} {tcp : TransportTCP} {opts : TCPOptions}
    {f : Fault} (hi : p.connections[i]? = some conn) (hread : conn.tcp.disableRead = .ok tcp)
    (hsetup : conn.setup = false) (hopts : serializer.read frame.payload = .ok opts)
    (hfilter : tcp.setFilter (intOfU32 opts.filter) = .error f) :
    p.onOptions serializer i [frame] = .error f := by
  simp only [TCPPublish.onOptions, hi]
  apply bind_eq_error_iff.mpr
  refine Or.inr ⟨tcp, hread, ?_⟩
  rw [hsetup, if_neg Bool.false_ne_true]
  exact bind_eq_error_iff.mpr (Or.inr ⟨opts, hopts, bind_eq_error_iff.mpr (Or.inl hfilter)⟩)

/-- A new connection reads its options. -/
theorem run_accept (snappy : Snappy) (serializer : OptionsSerializer) (e : Endpoint) :
    ∃ tcp tcp' : TransportTCP,
      onConnectionEvent snappy serializer ⟨[]⟩ (.accept e) = .ok ⟨[⟨tcp, false, ⟨false, 0, 0⟩⟩]⟩ ∧
        tcp.disableRead = .ok tcp' ∧ ¬ tcp.Quiet :=
  ⟨_, _, rfl, rfl, not_or.mpr ⟨Bool.false_ne_true, Bool.false_ne_true⟩⟩

theorem onConnectionEvent_options {i : Nat} (hi : p.connections[i]? = some conn)
    (hread : ¬ conn.tcp.Quiet) (opts : TCPOptions) :
    onConnectionEvent snappy serializer p (.options i opts) =
      p.onOptions serializer i [.ofBytes (serializer.write opts)] := by
  simp only [onConnectionEvent, hi]
  exact if_neg hread

variable {opts : TCPOptions}

/-- A filter that is no positive `int` fails the assertion when the options arrive. -/
theorem run_bad_filter (h : ¬ (0 < opts.filter.toNat ∧ opts.filter.toNat ≤ intMax)) (e : Endpoint)
    (msg : OutMessage) :
    run (onConnectionEvent snappy serializer) ⟨[]⟩ (firstMessage opts e msg) =
      .error .assertion := by
  obtain ⟨tcp, tcp', haccept, hdisable, hread⟩ := run_accept snappy serializer e
  have hdecoded := read_ofBytes_write serializer opts
  have hfilter : tcp'.setFilter (intOfU32 opts.filter) = .error .assertion :=
    if_neg (Int.not_lt.mpr (intOfU32_nonpos h))
  rw [firstMessage, run_cons_of_step haccept, run_cons, onConnectionEvent_options rfl hread,
    onOptions_eq_error rfl hdisable rfl hdecoded hfilter]
  rfl

/-- A compression that is not known breaks at the first message. -/
theorem run_bad_compression (hpos : 0 < opts.filter.toNat) (hle : opts.filter.toNat ≤ intMax)
    (h : ¬ (opts.compression = TCPOptions.NONE ∨ opts.compression = TCPOptions.SNAPPY))
    (e : Endpoint) (msg : OutMessage) :
    run (onConnectionEvent snappy serializer) ⟨[]⟩ (firstMessage opts e msg) =
      .error .rosBreak := by
  obtain ⟨tcp, tcp', haccept, hdisable, hread⟩ := run_accept snappy serializer e
  have hdecoded := read_ofBytes_write serializer opts
  have hfilter : ∃ tcp'', tcp'.setFilter (intOfU32 opts.filter) = .ok tcp'' := by
    rw [TransportTCP.intOfU32_eq hle]
    exact ⟨_, if_pos (by exact_mod_cast hpos)⟩
  obtain ⟨tcp'', hfilter⟩ := hfilter
  obtain ⟨hnone, hsnappy⟩ := not_or.mp h
  have hpublish : publishOn snappy msg none ⟨tcp'', true, opts⟩ = .error .rosBreak := by
    rw [publishOn, if_pos rfl, if_neg hnone, if_neg hsnappy]
  rw [firstMessage, run_cons_of_step haccept, run_cons, onConnectionEvent_options rfl hread,
    onOptions_eq_ok rfl hdisable rfl hdecoded hfilter]
  apply bind_eq_error_iff.mpr
  refine Or.inr ⟨_, rfl, ?_⟩
  rw [run_cons]
  apply bind_eq_error_iff.mpr (Or.inl _)
  apply bind_eq_error_iff.mpr (Or.inl _)
  exact bind_eq_error_iff.mpr (Or.inl hpublish)

theorem not_staysUp (h : ¬ opts.Acceptable) (e : Endpoint) (msg : OutMessage) :
    ¬ StaysUp (run (onConnectionEvent snappy serializer) ⟨[]⟩ (firstMessage opts e msg)) := by
  by_cases hfilter : 0 < opts.filter.toNat ∧ opts.filter.toNat ≤ intMax
  · have hcompression : ¬ (opts.compression = TCPOptions.NONE ∨
        opts.compression = TCPOptions.SNAPPY) := fun hknown => h ⟨hfilter.1, hfilter.2, hknown⟩
    rw [run_bad_compression hfilter.1 hfilter.2 hcompression]
    exact fun hup => hup (Or.inr (Or.inl rfl))
  · rw [run_bad_filter hfilter]
    exact fun hup => hup (Or.inl rfl)

/-! ### Main result -/

/-- **Options that keep a publisher up.** A publisher whose subscribers send options of a set never
aborts, and counts below a positive filter on every connection it set up, if and only if it can serve
all options of the set. -/
theorem stays_up_iff (snappy : Snappy) (serializer : OptionsSerializer) (sent : Set TCPOptions) :
    (∀ events : List ConnectionEvent, (∀ e ∈ events, ∀ opts ∈ e.options?, opts ∈ sent) →
      StaysUp (run (onConnectionEvent snappy serializer) ⟨[]⟩ events)) ↔
      ∀ opts ∈ sent, opts.Acceptable := by
  constructor
  · intro hup opts hopts
    by_contra hnot
    apply not_staysUp hnot PubSub.idle (PubSub.zeros 0 (by omega))
    apply hup
    intro e he opts' hopts'
    simp only [firstMessage, List.mem_cons, List.not_mem_nil, or_false] at he
    rcases he with rfl | rfl | rfl
    · cases hopts'
    · cases hopts'
      exact hopts
    · cases hopts'
  · intro hall events hsent
    have halong : Along (onConnectionEvent snappy serializer)
        (fun _ e => ∀ opts ∈ e.options?, opts.Acceptable) ⟨[]⟩ events :=
      along_of_forall (fun _ e he opts hopts => hall opts (hsent e he opts hopts)) _
    have hsound := run_ends (I := fun p : TCPPublish => AllSound p.connections)
      (fun p e hp hopts => hp.step hopts) (by simp [AllSound]) halong
    exact hsound.mono fun p hp => hp.countsBelow

/-- The options of a `TCPSubscribe` that was given none fail the assertion of `setFilter`. -/
theorem defaultOptions_abort :
    ¬ StaysUp (run (onConnectionEvent PubSub.stored PubSub.fieldwise) ⟨[]⟩
      [.accept PubSub.idle, .options 0 TCPSubscribe.defaultOptions]) :=
  fun hup => hup (Or.inl rfl)

end TCPPublish

end Ros2Proto
