import Mathlib.Data.List.Forall2
import Ros2Proto.Base.Runs
import Ros2Proto.PubSub.Counting
import Ros2Proto.Transport.ReaderStep

/-!
# A connection and its subscriber

A connection waits for the options of its subscriber, and counts the messages published from then on.
What it queues is what the options select, and each queued message makes the subscriber hand over what
was published, compressed or not. The one thing that can go wrong is the buffer for the compressed
message, whose size is a `uint32_t`.
-/

namespace Ros2Proto

open FallibleRun

/-! ### One message -/

theorem payload_ofBytes {p : Payload} (h : p.length < 2 ^ 32) : (Frame.ofBytes p).payload = p := by
  rw [Frame.payload, ofBytes_size h]
  exact List.take_length

/-- What a `uint32_t` can hold is not cut off. -/
theorem not_toNat_ofNat_lt {n : Nat} (h : n < 2 ^ 32) : ¬ (UInt32.ofNat n).toNat < n := by
  rw [UInt32.toNat_ofNat', Nat.mod_eq_of_lt h]
  exact Nat.lt_irrefl n

section

variable (snappy : Snappy) (serializer : OptionsSerializer)

/-- What is sent for a message under these options. -/
def carried (opts : TCPOptions) (msg : OutMessage) : List UInt8 :=
  if opts.compression = TCPOptions.NONE then msg.bytes else snappy.rawCompress msg.bytes

/-- A subscriber with these options hands over the message when these frames arrive. -/
def Carries (opts : TCPOptions) (frames : List Frame) (msg : OutMessage) : Prop :=
  ∀ sub : TCPSubscribe, sub.opts = opts →
    sub.receive snappy frames = .ok { sub with handed := sub.handed ++ [msg.bytes] }

/-- A compressed message fits in the buffer for it. -/
def Fits (msg : OutMessage) : Prop := snappy.maxCompressedLength msg.bytes.length < 2 ^ 32

variable {snappy serializer}

theorem carries_carried (o : ValidOptions) (msg : OutMessage)
    (hfit : o.opts.compression = TCPOptions.SNAPPY → Fits snappy msg) :
    Carries snappy o.opts [.ofBytes (carried snappy o.opts msg)] msg := by
  intro sub hopts
  rw [TCPSubscribe.receive, hopts]
  by_cases hnone : o.opts.compression = TCPOptions.NONE
  · rw [if_pos hnone, carried, if_pos hnone, payload_ofBytes msg.bounded, if_neg]
    rw [ofBytes_size msg.bounded]
    exact Nat.lt_irrefl _
  · have hsnappy := o.compression.resolve_left hnone
    have hshort : (snappy.rawCompress msg.bytes).length < 2 ^ 32 :=
      (snappy.length_rawCompress msg.bytes).trans_lt (hfit hsnappy)
    have hdata := snappy.rawUncompress_rawCompress msg.bytes msg.bounded
    have hlength := snappy.getUncompressedLength_of_rawUncompress _ _ hdata
    have hroom := not_toNat_ofNat_lt msg.bounded
    rw [if_neg hnone, if_pos hsnappy, carried, if_neg hnone, payload_ofBytes hshort]
    simp only [hlength, hdata, hroom, if_false]

/-- A message is sent on a connection whose options arrived `k` messages ago. -/
theorem publishOn_ready {conn : Connection} {o : ValidOptions} {k : Nat}
    (hsetup : conn.setup = true) (hopts : conn.opts = o.opts)
    (hcounting : conn.tcp.Counting o.opts.filter.toNat k) {msg : OutMessage}
    (hfit : o.opts.compression = TCPOptions.SNAPPY → Fits snappy msg)
    {snappyData : Option (List UInt8)} (hdata : ∀ d ∈ snappyData, d = snappy.rawCompress msg.bytes) :
    ∃ snappyData' tcp' added, TCPPublish.publishOn snappy msg snappyData conn =
        .ok (snappyData', { conn with tcp := tcp' }) ∧
      (∀ d ∈ snappyData', d = snappy.rawCompress msg.bytes) ∧
      tcp'.Counting o.opts.filter.toNat (k + 1) ∧ tcp'.sendMsgs = conn.tcp.sendMsgs ++ added ∧
      added.map Message.frames =
        if k % o.opts.filter.toNat = 0 then [[.ofBytes (carried snappy o.opts msg)]] else [] := by
  obtain ⟨tcp', added, hsend, hcounting', hqueue, hadded⟩ := hcounting.sendMessage o.filter_pos
    (carried snappy o.opts msg) (UInt32.ofNat (carried snappy o.opts msg).length)
  rw [TCPPublish.publishOn, if_pos hsetup, hopts]
  by_cases hnone : o.opts.compression = TCPOptions.NONE
  · have hcarried : carried snappy o.opts msg = msg.bytes := if_pos hnone
    rw [hcarried] at hsend
    rw [if_pos hnone, OutMessage.size, hsend]
    exact ⟨snappyData, tcp', added, rfl, hdata, hcounting', hqueue, hadded⟩
  · have hcarried : carried snappy o.opts msg = snappy.rawCompress msg.bytes := if_neg hnone
    have hsnappy := o.compression.resolve_left hnone
    rw [hcarried] at hsend
    rw [if_neg hnone, if_pos hsnappy]
    have hsome : ∀ d ∈ some (snappy.rawCompress msg.bytes), d = snappy.rawCompress msg.bytes :=
      fun d hd => (Option.some.inj hd).symm
    cases snappyData with
    | none =>
        have hroom := not_toNat_ofNat_lt (hfit hsnappy)
        simp only [hroom, if_false, hsend, bind, Except.bind]
        exact ⟨_, tcp', added, rfl, hsome, hcounting', hqueue, hadded⟩
    | some data =>
        obtain rfl := hdata data rfl
        simp only [hsend, bind, Except.bind]
        exact ⟨_, tcp', added, rfl, hsome, hcounting', hqueue, hadded⟩

/-! ### One connection -/

variable (snappy serializer)

/-- The options of the subscriber have not arrived. -/
structure Waiting (o : ValidOptions) (conn : Connection) (sub : TCPSubscribe) : Prop where
  live : conn.tcp.Live
  setup : conn.setup = false
  queue : conn.tcp.sendMsgs = []
  subLive : sub.tcp.Live
  options : sub.tcp.sendMsgs.map Message.frames = [[.ofBytes (serializer.write o.opts)]]
  opts : sub.opts = o.opts
  handed : sub.handed = []

/-- The options arrived, and these messages have been published since. -/
structure Ready (o : ValidOptions) (conn : Connection) (sub : TCPSubscribe)
    (since : List OutMessage) : Prop where
  counting : conn.tcp.Counting o.opts.filter.toNat since.length
  setup : conn.setup = true
  connOpts : conn.opts = o.opts
  options : sub.tcp.sendMsgs = []
  opts : sub.opts = o.opts
  handed : ∃ pending, List.Forall₂ (Carries snappy o.opts) (conn.tcp.sendMsgs.map Message.frames)
      pending ∧
    (everyNth o.opts.filter.toNat since).map OutMessage.bytes =
      sub.handed ++ pending.map OutMessage.bytes

/-- A connection and its subscriber, with the messages published since the options arrived. -/
def Link (o : ValidOptions) (conn : Connection) (sub : TCPSubscribe) :
    Option (List OutMessage) → Prop
  | none => Waiting serializer o conn sub
  | some since => Ready snappy o conn sub since

variable {snappy serializer}
variable {o : ValidOptions} {conn conn' : Connection} {sub : TCPSubscribe}
  {since : Option (List OutMessage)} {msg : OutMessage} {snappyData snappyData' : Option (List UInt8)}

theorem Ready.publishOn {since : List OutMessage} (h : Ready snappy o conn sub since)
    (hfit : o.opts.compression = TCPOptions.SNAPPY → Fits snappy msg)
    (hdata : ∀ d ∈ snappyData, d = snappy.rawCompress msg.bytes) :
    ∃ snappyData' conn', TCPPublish.publishOn snappy msg snappyData conn = .ok (snappyData', conn') ∧
      (∀ d ∈ snappyData', d = snappy.rawCompress msg.bytes) ∧
      Ready snappy o conn' sub (since ++ [msg]) := by
  obtain ⟨snappyData', tcp', added, hrun, hdata', hcounting, hqueue, hadded⟩ :=
    publishOn_ready h.setup h.connOpts h.counting hfit hdata
  obtain ⟨pending, hpending, hhanded⟩ := h.handed
  refine ⟨snappyData', _, hrun, hdata', ?_, h.setup, h.connOpts, h.options, h.opts, ?_⟩
  · rw [List.length_append, List.length_singleton]
    exact hcounting
  · refine ⟨pending ++ if since.length % o.opts.filter.toNat = 0 then [msg] else [], ?_, ?_⟩
    · rw [hqueue, List.map_append, hadded]
      apply List.rel_append hpending
      split_ifs
      · exact .cons (carries_carried o msg hfit) .nil
      · exact .nil
    · rw [everyNth_concat, List.map_append, hhanded, List.map_append, List.append_assoc]

/-- A message on any connection: nothing if it waits for its options. -/
theorem Link.publishOn (h : Link snappy serializer o conn sub since)
    (hfit : conn.setup = true → conn.opts.compression = TCPOptions.SNAPPY → Fits snappy msg)
    (hdata : ∀ d ∈ snappyData, d = snappy.rawCompress msg.bytes) :
    ∃ snappyData' conn', TCPPublish.publishOn snappy msg snappyData conn = .ok (snappyData', conn') ∧
      (∀ d ∈ snappyData', d = snappy.rawCompress msg.bytes) ∧
      Link snappy serializer o conn' sub (since.map (· ++ [msg])) := by
  cases since with
  | none =>
      refine ⟨snappyData, conn, ?_, hdata, h⟩
      rw [TCPPublish.publishOn, h.setup]
      rfl
  | some since =>
      have hready : Ready snappy o conn sub since := h
      exact hready.publishOn (hready.connOpts ▸ hfit hready.setup) hdata

/-- Publishing adds the message to every link. -/
theorem publishEach_links {conns : List Connection}
    (hlinks : ∀ conn ∈ conns, ∃ o sub since, Link snappy serializer o conn sub since)
    (hfit : ∀ conn ∈ conns, conn.setup = true → conn.opts.compression = TCPOptions.SNAPPY →
      Fits snappy msg)
    (hdata : ∀ d ∈ snappyData, d = snappy.rawCompress msg.bytes) :
    ∃ conns', TCPPublish.publishEach snappy msg snappyData conns = .ok conns' ∧
      conns'.length = conns.length ∧
      ∀ (i : Nat) conn, conns[i]? = some conn → ∃ conn', conns'[i]? = some conn' ∧
        ∀ o sub since, Link snappy serializer o conn sub since →
          Link snappy serializer o conn' sub (since.map (· ++ [msg])) := by
  induction conns generalizing snappyData with
  | nil => exact ⟨[], rfl, rfl, by simp⟩
  | cons conn conns ih =>
      obtain ⟨o, sub, since, hlink⟩ := hlinks conn (by simp)
      have hfits := hfit conn (by simp)
      obtain ⟨snappyData', conn', hrun, hdata', -⟩ := hlink.publishOn hfits hdata
      obtain ⟨conns', hrest, hlength, hget⟩ := ih (fun c hc => hlinks c (by simp [hc]))
        (fun c hc => hfit c (by simp [hc])) hdata'
      refine ⟨conn' :: conns', ?_, by simp [hlength], fun i c hc => ?_⟩
      · simp only [TCPPublish.publishEach, hrun, hrest, bind, Except.bind]
      · cases i with
        | succ i => exact hget i c hc
        | zero =>
            obtain rfl := Option.some.inj hc
            refine ⟨conn', rfl, fun o sub since hlink => ?_⟩
            obtain ⟨_, _, hrun', -, hlink'⟩ := hlink.publishOn hfits hdata
            obtain ⟨-, rfl⟩ := Prod.mk.inj (Except.ok.inj (hrun.symm.trans hrun'))
            exact hlink'

theorem onOptions_eq_ok {p : TCPPublish} {i : Nat} {frame : Frame} {tcp tcp' : TransportTCP}
    {opts : TCPOptions} (hi : p.connections[i]? = some conn) (hread : conn.tcp.disableRead = .ok tcp)
    (hsetup : conn.setup = false) (hopts : serializer.read frame.payload = .ok opts)
    (hfilter : tcp.setFilter (intOfU32 opts.filter) = .ok tcp') :
    p.onOptions serializer i [frame] = .ok ⟨p.connections.set i ⟨tcp', true, opts⟩⟩ := by
  simp only [TCPPublish.onOptions, hi]
  apply bind_eq_ok_iff.mpr
  refine ⟨tcp, hread, ?_⟩
  rw [hsetup, if_neg Bool.false_ne_true]
  exact bind_eq_ok_iff.mpr ⟨opts, hopts, bind_eq_ok_iff.mpr ⟨tcp', hfilter, rfl⟩⟩

/-- The options arrive. -/
theorem Waiting.onOptions (h : Waiting serializer o conn sub) (snappy : Snappy) {p : TCPPublish}
    {i : Nat} (hi : p.connections[i]? = some conn) :
    ∃ conn', p.onOptions serializer i [.ofBytes (serializer.write o.opts)] =
        .ok ⟨p.connections.set i conn'⟩ ∧
      ∀ tcp, tcp.sendMsgs = [] → Ready snappy o conn' { sub with tcp := tcp } [] := by
  obtain ⟨tcp, hread, halike⟩ := h.live.disableRead
  obtain ⟨tcp', hfilter, hcounting, hqueue⟩ := halike.live.setFilter o.filter_pos
  rw [← TransportTCP.intOfU32_eq o.filter_le] at hfilter
  have hopts : serializer.read (Frame.ofBytes (serializer.write o.opts)).payload = .ok o.opts := by
    rw [payload_ofBytes (serializer.length_write _), serializer.read_write]
  refine ⟨⟨tcp', true, o.opts⟩, ?_, fun tcp'' hempty => ⟨hcounting, rfl, rfl, hempty, h.opts, [], ?_, ?_⟩⟩
  · exact onOptions_eq_ok hi hread h.setup hopts hfilter
  · rw [hqueue, halike.sendMsgs, h.queue]
    exact .nil
  · rw [h.handed]
    rfl

/-! ### A new connection -/

theorem onAccept_transport (p : TCPPublish) (e : Endpoint) :
    ∃ tcp, p.onAccept e.transport = .ok ⟨p.connections ++ [⟨tcp, false, ⟨false, 0, 0⟩⟩]⟩ ∧
      tcp.Live ∧ tcp.sendMsgs = [] :=
  ⟨_, rfl, ⟨rfl, rfl, rfl⟩, rfl⟩

/-- The options are the first message of a subscriber. -/
theorem start_transport (serializer : OptionsSerializer) (opts : TCPOptions) (e : Endpoint) :
    ∃ tcp, TCPSubscribe.start opts serializer e.transport = .ok ⟨tcp, opts, []⟩ ∧ tcp.Live ∧
      tcp.sendMsgs.map Message.frames = [[.ofBytes (serializer.write opts)]] := by
  obtain ⟨t, hstart, hcounting, hqueue⟩ : ∃ t,
      e.transport.setDisconnectCallback.enableMessagePass.enableRead = .ok t ∧
        t.setMsgCallback.Counting 1 0 ∧ t.setMsgCallback.sendMsgs = [] :=
    ⟨_, rfl, ⟨⟨rfl, rfl, rfl⟩, rfl, rfl⟩, rfl⟩
  obtain ⟨tcp, added, hsend, hcounting', hadd, hadded⟩ := hcounting.sendMessage Nat.one_pos
    (serializer.write opts) (UInt32.ofNat (serializer.write opts).length)
  refine ⟨tcp, ?_, hcounting'.toLive, ?_⟩
  · rw [TCPSubscribe.start]
    exact bind_eq_ok_iff.mpr ⟨t, hstart, bind_eq_ok_iff.mpr ⟨tcp, hsend, rfl⟩⟩
  · rw [hadd, hqueue, List.nil_append, hadded]
    rfl

/-- The front message of a connection arrives. -/
theorem Ready.receive {since : List OutMessage} (h : Ready snappy o conn sub since) {m : Message}
    {rest : List Message} (hq : conn.tcp.sendMsgs = m :: rest) :
    ∃ tcp sub', conn.tcp.takeMessage = .ok (some m.frames, tcp) ∧
      sub.receive snappy m.frames = .ok sub' ∧
      Ready snappy o { conn with tcp := tcp } sub' since := by
  obtain ⟨tcp, htake, halike⟩ := h.counting.toLive.takeMessage hq
  obtain ⟨pending, hpending, hhanded⟩ := h.handed
  rw [hq, List.map_cons] at hpending
  cases hpending with
  | @cons _ msg _ pending hcarries hrest =>
      refine ⟨tcp, _, htake, hcarries sub h.opts, ⟨halike.live, ?_, ?_⟩, h.setup, h.connOpts, h.options,
        h.opts, pending, ?_, ?_⟩
      · exact halike.filter.trans h.counting.filter
      · exact halike.msgCounter.trans h.counting.counter
      · rw [halike.sendMsgs]
        exact hrest
      · rw [hhanded, List.map_cons, List.append_assoc]
        rfl

end

end Ros2Proto
