import Ros2Proto.PubSub.Link

/-!
# What each subscriber receives

Each subscriber receives what its own options and the moment they arrived select from the messages
published, whatever the other connections do, in every run in which no message is too large for the
compression buffer. A message that is ends the run.
-/

namespace Ros2Proto

open FallibleRun

/-! ### What the events select -/

namespace PubSubEvent

/-- The options with which a subscriber connects. -/
def connects : PubSubEvent → Option ValidOptions
  | connect o _ _ => some o
  | _ => none

/-- The message published. -/
def publishes : PubSubEvent → Option OutMessage
  | publish msg => some msg
  | _ => none

/-- The options of connection `i` may arrive. -/
def setsUp (i : Nat) : PubSubEvent → Bool
  | options j => j = i
  | _ => false

end PubSubEvent

/-- The options of the connections, in their order. -/
def connected (events : List PubSubEvent) : List ValidOptions := events.filterMap PubSubEvent.connects

/-- The messages published since the options of connection `i` arrived, which they can once it is one
of the connections. There are `n` connections before the events. -/
def sinceSetup (i n : Nat) : List PubSubEvent → Option (List OutMessage)
  | [] => none
  | e :: events =>
    if e.setsUp i ∧ i < n then some (events.filterMap PubSubEvent.publishes)
    else sinceSetup i (if e.connects.isSome then n + 1 else n) events

theorem connected_concat (events : List PubSubEvent) (e : PubSubEvent) :
    connected (events ++ [e]) = connected events ++ e.connects.toList := by
  rw [connected, List.filterMap_append, connected]
  cases h : e.connects <;> simp [h]

theorem length_connected_cons (n : Nat) (first : PubSubEvent) (events : List PubSubEvent) :
    (if first.connects.isSome = true then n + 1 else n) + (connected events).length =
      n + (connected (first :: events)).length := by
  rw [connected, connected, List.filterMap_cons]
  cases h : first.connects with
  | none => simp
  | some o =>
      simp
      omega

theorem sinceSetup_concat (i n : Nat) (events : List PubSubEvent) (e : PubSubEvent) :
    sinceSetup i n (events ++ [e]) =
      match sinceSetup i n events with
      | some since => some (since ++ e.publishes.toList)
      | none => if e.setsUp i ∧ i < n + (connected events).length then some [] else none := by
  induction events generalizing n with
  | nil => simp [sinceSetup, connected]
  | cons first events ih =>
      rw [List.cons_append, sinceSetup, sinceSetup]
      by_cases hset : first.setsUp i ∧ i < n
      · rw [if_pos hset, if_pos hset, List.filterMap_append]
        cases h : e.publishes <;> simp [h]
      · rw [if_neg hset, if_neg hset, ih, length_connected_cons]

theorem sinceSetup_quiet {i n : Nat} {events : List PubSubEvent} {e : PubSubEvent}
    (hset : e.setsUp i = false) (hpublishes : e.publishes = none) :
    sinceSetup i n (events ++ [e]) = sinceSetup i n events := by
  rw [sinceSetup_concat, hset, hpublishes]
  cases sinceSetup i n events with
  | none => rfl
  | some since => exact congrArg some (List.append_nil since)

/-- Options that arrive for no connection set nothing up. -/
theorem sinceSetup_of_le {i n : Nat} {events : List PubSubEvent}
    (h : n + (connected events).length ≤ i) : sinceSetup i n events = none := by
  induction events generalizing n with
  | nil => rfl
  | cons first events ih =>
      rw [sinceSetup, if_neg (by omega)]
      apply ih
      rw [length_connected_cons]
      exact h

/-! ### Runs -/

theorem set_of_getElem? {α : Type*} {l : List α} {i : Nat} {a : α} (h : l[i]? = some a) :
    l.set i a = l := by
  obtain ⟨hi, rfl⟩ := List.getElem?_eq_some_iff.mp h
  exact List.set_getElem_self hi

namespace PubSub

section

variable (snappy : Snappy) (serializer : OptionsSerializer)

/-- Every connection is where the events have brought it. -/
structure Serving (events : List PubSubEvent) (s : PubSub) : Prop where
  connections : s.publisher.connections.length = (connected events).length
  subscribers : s.subscribers.length = (connected events).length
  link : ∀ (i : Nat) o, (connected events)[i]? = some o → ∃ conn sub,
    s.publisher.connections[i]? = some conn ∧ s.subscribers[i]? = some sub ∧
      Link snappy serializer o conn sub (sinceSetup i 0 events)

/-- A message is published only where its compressed form, if a connection wants it, has a buffer. -/
def FitsBuffer (s : PubSub) : PubSubEvent → Prop
  | .publish msg => ∀ conn ∈ s.publisher.connections, conn.setup = true →
      conn.opts.compression = TCPOptions.SNAPPY → Fits snappy msg
  | _ => True

variable {snappy serializer}
variable {s : PubSub} {events : List PubSubEvent}

theorem serving_empty : Serving snappy serializer [] empty where
  connections := rfl
  subscribers := rfl
  link i o h := by simp [connected] at h

/-- An event that is no connection, for what it does to each link. -/
theorem Serving.next (h : Serving snappy serializer events s) {e : PubSubEvent} {s' : PubSub}
    (he : e.connects = none)
    (hconnections : s'.publisher.connections.length = s.publisher.connections.length)
    (hsubscribers : s'.subscribers.length = s.subscribers.length)
    (hlink : ∀ (i : Nat) o conn sub, (connected events)[i]? = some o →
      s.publisher.connections[i]? = some conn → s.subscribers[i]? = some sub →
      Link snappy serializer o conn sub (sinceSetup i 0 events) →
      ∃ conn' sub', s'.publisher.connections[i]? = some conn' ∧ s'.subscribers[i]? = some sub' ∧
        Link snappy serializer o conn' sub' (sinceSetup i 0 (events ++ [e]))) :
    Serving snappy serializer (events ++ [e]) s' := by
  have hconnected : connected (events ++ [e]) = connected events := by
    rw [connected_concat, he]
    exact List.append_nil _
  refine ⟨?_, ?_, fun i o hi => ?_⟩
  · rw [hconnections, hconnected, h.connections]
  · rw [hsubscribers, hconnected, h.subscribers]
  · rw [hconnected] at hi
    obtain ⟨conn, sub, hconn, hsub, hold⟩ := h.link i o hi
    exact hlink i o conn sub hi hconn hsub hold

/-- An event that changes nothing, and that the events do not count. -/
theorem Serving.still (h : Serving snappy serializer events s) {e : PubSubEvent}
    (he : e.connects = none)
    (hsince : ∀ i < (connected events).length,
      sinceSetup i 0 (events ++ [e]) = sinceSetup i 0 events) :
    Serving snappy serializer (events ++ [e]) s := by
  refine h.next he rfl rfl ?_
  intro i o conn sub hi hconn hsub hlink
  exact ⟨conn, sub, hconn, hsub, (hsince i (List.getElem?_eq_some_iff.mp hi).1).symm ▸ hlink⟩

/-- One connection and its subscriber change. -/
theorem Serving.set (h : Serving snappy serializer events s) {e : PubSubEvent}
    (he : e.connects = none) {i : Nat} (hi : i < (connected events).length)
    (hother : ∀ j, j ≠ i → sinceSetup j 0 (events ++ [e]) = sinceSetup j 0 events)
    {conn' : Connection} {sub' : TCPSubscribe}
    (hlink' : ∀ o, (connected events)[i]? = some o →
      Link snappy serializer o conn' sub' (sinceSetup i 0 (events ++ [e]))) :
    Serving snappy serializer (events ++ [e])
      ⟨⟨s.publisher.connections.set i conn'⟩, s.subscribers.set i sub'⟩ := by
  apply h.next he List.length_set List.length_set
  intro j o conn sub hj hconn hsub hlink
  by_cases hji : j = i
  · subst hji
    refine ⟨conn', sub', ?_, ?_, hlink' o hj⟩
    · exact List.getElem?_set_self (h.connections ▸ hi)
    · exact List.getElem?_set_self (h.subscribers ▸ hi)
  · refine ⟨conn, sub, ?_, ?_, (hother j hji).symm ▸ hlink⟩
    · rw [List.getElem?_set_ne (Ne.symm hji), hconn]
    · rw [List.getElem?_set_ne (Ne.symm hji), hsub]

/-- A connection is made. -/
theorem Serving.connect (h : Serving snappy serializer events s) (o : ValidOptions)
    (accepted connecting : Endpoint) :
    ∃ s', s.onEvent snappy serializer (.connect o accepted connecting) = .ok s' ∧
      Serving snappy serializer (events ++ [.connect o accepted connecting]) s' := by
  obtain ⟨tcp, haccept, hlive, hempty⟩ := onAccept_transport s.publisher accepted
  obtain ⟨tcp', hstart, hlive', hoptions⟩ := start_transport serializer o.opts connecting
  have hconnected : connected (events ++ [.connect o accepted connecting]) = connected events ++ [o] :=
    connected_concat events _
  have hsince : ∀ i, sinceSetup i 0 (events ++ [.connect o accepted connecting]) =
      sinceSetup i 0 events := fun _ => sinceSetup_quiet rfl rfl
  refine ⟨⟨⟨s.publisher.connections ++ [⟨tcp, false, ⟨false, 0, 0⟩⟩]⟩,
    s.subscribers ++ [⟨tcp', o.opts, []⟩]⟩, ?_, ?_, ?_, fun i o' hi => ?_⟩
  · simp only [onEvent, haccept, hstart, bind, Except.bind]
  · rw [hconnected, List.length_append, List.length_append, h.connections]
    rfl
  · rw [hconnected, List.length_append, List.length_append, h.subscribers]
    rfl
  · rw [hsince]
    rw [hconnected] at hi
    by_cases hold : i < (connected events).length
    · rw [List.getElem?_append_left hold] at hi
      obtain ⟨conn, sub, hconn, hsub, hlink⟩ := h.link i o' hi
      refine ⟨conn, sub, ?_, ?_, hlink⟩
      · rw [List.getElem?_append_left (h.connections ▸ hold), hconn]
      · rw [List.getElem?_append_left (h.subscribers ▸ hold), hsub]
    · have hnew : i = (connected events).length := by
        have hlt := (List.getElem?_eq_some_iff.mp hi).1
        rw [List.length_append, List.length_singleton] at hlt
        omega
      subst hnew
      rw [List.getElem?_concat_length] at hi
      obtain rfl := Option.some.inj hi
      rw [sinceSetup_of_le (by omega)]
      refine ⟨⟨tcp, false, ⟨false, 0, 0⟩⟩, ⟨tcp', o.opts, []⟩, ?_, ?_,
        ⟨hlive, rfl, hempty, hlive', hoptions, rfl, rfl⟩⟩
      · rw [← h.connections, List.getElem?_concat_length]
      · rw [← h.subscribers, List.getElem?_concat_length]

/-- Options arrive. -/
theorem Serving.options (h : Serving snappy serializer events s) (i : Nat) :
    ∃ s', s.onEvent snappy serializer (.options i) = .ok s' ∧
      Serving snappy serializer (events ++ [.options i]) s' := by
  have hother : ∀ j, j ≠ i → sinceSetup j 0 (events ++ [.options i]) = sinceSetup j 0 events :=
    fun j hj => sinceSetup_quiet (decide_eq_false (Ne.symm hj)) rfl
  by_cases hi : i < (connected events).length
  · have ho := List.getElem?_eq_getElem hi
    obtain ⟨conn, sub, hconn, hsub, hlink⟩ := h.link i _ ho
    cases hsince : sinceSetup i 0 events with
    | some since =>
        rw [hsince] at hlink
        have hready : Ready snappy _ conn sub since := hlink
        refine ⟨s, ?_, h.still rfl fun j _ => ?_⟩
        · simp only [onEvent, hsub, TransportTCP.takeMessage_nil hready.options, bind, Except.bind,
            set_of_getElem? hsub]
        · by_cases hj : j = i
          · subst hj
            rw [sinceSetup_concat, hsince]
            exact congrArg some (List.append_nil since)
          · exact hother j hj
    | none =>
        rw [hsince] at hlink
        have hwaiting : Waiting serializer _ conn sub := hlink
        obtain ⟨m, hqueue, hframes⟩ := List.map_eq_singleton_iff.mp hwaiting.options
        obtain ⟨tcp, htake, halike⟩ := hwaiting.subLive.takeMessage hqueue
        obtain ⟨conn', hrun, hready⟩ := hwaiting.onOptions snappy hconn
        rw [hframes] at htake
        refine ⟨⟨⟨s.publisher.connections.set i conn'⟩, s.subscribers.set i { sub with tcp := tcp }⟩,
          ?_, ?_⟩
        · simp only [onEvent, hsub, htake, hrun, bind, Except.bind]
        · apply h.set rfl hi hother
          intro o ho'
          obtain rfl := Option.some.inj (ho.symm.trans ho')
          have hset : sinceSetup i 0 (events ++ [.options i]) = some [] := by
            rw [sinceSetup_concat, hsince, Nat.zero_add]
            exact if_pos ⟨decide_eq_true rfl, hi⟩
          rw [hset]
          exact hready tcp halike.sendMsgs
  · have hnone : s.subscribers[i]? = none := List.getElem?_eq_none (by have := h.subscribers; omega)
    refine ⟨s, ?_, h.still rfl fun j hj => hother j (by omega)⟩
    simp only [onEvent, hnone]

/-- A message is published. -/
theorem Serving.publish (h : Serving snappy serializer events s) {msg : OutMessage}
    (hfit : FitsBuffer snappy s (.publish msg)) :
    ∃ s', s.onEvent snappy serializer (.publish msg) = .ok s' ∧
      Serving snappy serializer (events ++ [.publish msg]) s' := by
  have hlinks : ∀ conn ∈ s.publisher.connections, ∃ o sub since,
      Link snappy serializer o conn sub since := by
    intro conn hmem
    obtain ⟨i, hi, rfl⟩ := List.mem_iff_getElem.mp hmem
    obtain ⟨conn, sub, hconn, -, hlink⟩ := h.link i _ (List.getElem?_eq_getElem (h.connections ▸ hi))
    rw [List.getElem?_eq_getElem hi] at hconn
    exact ⟨_, sub, _, Option.some.inj hconn ▸ hlink⟩
  have hdata : ∀ d ∈ (none : Option (List UInt8)), d = snappy.rawCompress msg.bytes := nofun
  obtain ⟨conns', hrun, hlength, hget⟩ := publishEach_links hlinks hfit hdata
  refine ⟨{ s with publisher := ⟨conns'⟩ }, ?_, ?_⟩
  · simp only [onEvent, TCPPublish.publish, hrun, bind, Except.bind]
  · refine h.next rfl hlength rfl ?_
    intro i o conn sub _ hconn hsub hlink
    obtain ⟨conn', hconn', hlink'⟩ := hget i conn hconn
    refine ⟨conn', sub, hconn', hsub, ?_⟩
    have hsince : sinceSetup i 0 (events ++ [.publish msg]) =
        (sinceSetup i 0 events).map (· ++ [msg]) := by
      rw [sinceSetup_concat]
      cases sinceSetup i 0 events <;> rfl
    rw [hsince]
    exact hlink' o sub _ hlink

/-- A message reaches its subscriber. -/
theorem Serving.message (h : Serving snappy serializer events s) (i : Nat) :
    ∃ s', s.onEvent snappy serializer (.message i) = .ok s' ∧
      Serving snappy serializer (events ++ [.message i]) s' := by
  have hsince : ∀ j, sinceSetup j 0 (events ++ [.message i]) = sinceSetup j 0 events :=
    fun _ => sinceSetup_quiet rfl rfl
  by_cases hi : i < (connected events).length
  · have ho := List.getElem?_eq_getElem hi
    obtain ⟨conn, sub, hconn, hsub, hlink⟩ := h.link i _ ho
    cases hqueue : conn.tcp.sendMsgs with
    | nil =>
        refine ⟨s, ?_, h.still rfl fun j _ => hsince j⟩
        simp only [onEvent, hconn, hsub, TransportTCP.takeMessage_nil hqueue, bind, Except.bind,
          set_of_getElem? hconn, set_of_getElem? hsub]
    | cons m rest =>
        cases hold : sinceSetup i 0 events with
        | none =>
            rw [hold] at hlink
            have hwaiting : Waiting serializer _ conn sub := hlink
            cases hqueue.symm.trans hwaiting.queue
        | some since =>
            rw [hold] at hlink
            have hready : Ready snappy _ conn sub since := hlink
            obtain ⟨tcp, sub', htake, hreceive, hready'⟩ := hready.receive hqueue
            refine ⟨⟨⟨s.publisher.connections.set i { conn with tcp := tcp }⟩, s.subscribers.set i sub'⟩,
              ?_, ?_⟩
            · simp only [onEvent, hconn, hsub, htake, hreceive, bind, Except.bind]
            · apply h.set rfl hi fun j _ => hsince j
              intro o ho'
              obtain rfl := Option.some.inj (ho.symm.trans ho')
              rw [hsince, hold]
              exact hready'
  · have hnone : s.publisher.connections[i]? = none :=
      List.getElem?_eq_none (by have := h.connections; omega)
    refine ⟨s, ?_, h.still rfl fun j _ => hsince j⟩
    simp only [onEvent, hnone]

theorem Serving.step (h : Serving snappy serializer events s) {e : PubSubEvent}
    (hfit : FitsBuffer snappy s e) :
    ∃ s', s.onEvent snappy serializer e = .ok s' ∧ Serving snappy serializer (events ++ [e]) s' := by
  cases e with
  | connect o accepted connecting => exact h.connect o accepted connecting
  | options i => exact h.options i
  | publish msg => exact h.publish hfit
  | message i => exact h.message i

/-! ### Overrunning the buffer -/

theorem publishOn_overruns {msg : OutMessage} {conn : Connection} (hsetup : conn.setup = true)
    (hsnappy : conn.opts.compression = TCPOptions.SNAPPY) (hfit : ¬ Fits snappy msg) :
    TCPPublish.publishOn snappy msg none conn = .error .overrun := by
  have hnone : conn.opts.compression ≠ TCPOptions.NONE := by
    rw [hsnappy]
    decide
  have hroom : (UInt32.ofNat (snappy.maxCompressedLength msg.bytes.length)).toNat <
      snappy.maxCompressedLength msg.bytes.length := by
    rw [UInt32.toNat_ofNat']
    exact (Nat.mod_lt _ (by norm_num)).trans_le (not_lt.mp hfit)
  rw [TCPPublish.publishOn, if_pos hsetup, if_neg hnone, if_pos hsnappy]
  simp only [hroom, if_true, bind, Except.bind]

/-- A connection that does not compress leaves the buffer to the connections after it. -/
theorem publishOn_plain {msg : OutMessage} {conn conn' : Connection} {snappyData' : Option (List UInt8)}
    (hplain : ¬ (conn.setup = true ∧ conn.opts.compression = TCPOptions.SNAPPY))
    (hrun : TCPPublish.publishOn snappy msg none conn = .ok (snappyData', conn')) :
    snappyData' = none := by
  rw [TCPPublish.publishOn] at hrun
  by_cases hsetup : conn.setup = true
  · rw [if_pos hsetup] at hrun
    by_cases hnone : conn.opts.compression = TCPOptions.NONE
    · rw [if_pos hnone] at hrun
      obtain ⟨tcp, -, hrun⟩ := bind_eq_ok_iff.mp hrun
      cases hrun
      rfl
    · rw [if_neg hnone, if_neg fun hsnappy => hplain ⟨hsetup, hsnappy⟩] at hrun
      cases hrun
  · rw [if_neg hsetup] at hrun
    cases hrun
    rfl

/-- Where the compressed message has no buffer, publishing overruns it. -/
theorem publishEach_overruns {msg : OutMessage} {conns conns' : List Connection}
    (h : ∃ conn ∈ conns, conn.setup = true ∧ conn.opts.compression = TCPOptions.SNAPPY)
    (hfit : ¬ Fits snappy msg) :
    TCPPublish.publishEach snappy msg none conns ≠ .ok conns' := by
  induction conns generalizing conns' with
  | nil => simp at h
  | cons conn conns ih =>
      intro hrun
      rw [TCPPublish.publishEach] at hrun
      obtain ⟨⟨snappyData', conn'⟩, hon, hrun⟩ := bind_eq_ok_iff.mp hrun
      by_cases hfirst : conn.setup = true ∧ conn.opts.compression = TCPOptions.SNAPPY
      · rw [publishOn_overruns hfirst.1 hfirst.2 hfit] at hon
        cases hon
      · obtain rfl := publishOn_plain hfirst hon
        obtain ⟨rest, hrest, -⟩ := bind_eq_ok_iff.mp hrun
        obtain ⟨c, hc, hbad⟩ := h
        obtain rfl | hc := List.mem_cons.mp hc
        · exact hfirst hbad
        · exact ih ⟨c, hc, hbad⟩ hrest

theorem overruns {e : PubSubEvent} {s' : PubSub} (h : ¬ FitsBuffer snappy s e) :
    s.onEvent snappy serializer e ≠ .ok s' := by
  cases e with
  | connect o accepted connecting => exact absurd trivial h
  | options i => exact absurd trivial h
  | message i => exact absurd trivial h
  | publish msg =>
      intro hrun
      obtain ⟨publisher, hpublish, -⟩ := bind_eq_ok_iff.mp hrun
      obtain ⟨conns', heach, -⟩ := bind_eq_ok_iff.mp hpublish
      simp only [FitsBuffer, not_forall] at h
      obtain ⟨conn, hmem, hsetup, hsnappy, hfit⟩ := h
      exact publishEach_overruns ⟨conn, hmem, hsetup, hsnappy⟩ hfit heach

/-! ### Main result -/

/-- What a subscriber with these options is to receive. -/
def expected (i : Nat) (o : ValidOptions) (events : List PubSubEvent) : List (List UInt8) :=
  (everyNth o.opts.filter.toNat ((sinceSetup i 0 events).getD [])).map OutMessage.bytes

/-- Every subscriber was handed the messages it is to receive, in order, but for those on their way. -/
def Receives (events : List PubSubEvent) (s : PubSub) : Prop :=
  ∀ (i : Nat) o, (connected events)[i]? = some o → ∃ conn sub,
    s.publisher.connections[i]? = some conn ∧ s.subscribers[i]? = some sub ∧
      sub.handed <+: expected i o events ∧
      (conn.tcp.sendMsgs = [] → sub.handed = expected i o events)

theorem Serving.receives (h : Serving snappy serializer events s) : Receives events s := by
  intro i o hi
  obtain ⟨conn, sub, hconn, hsub, hlink⟩ := h.link i o hi
  refine ⟨conn, sub, hconn, hsub, ?_⟩
  rw [expected]
  cases hsince : sinceSetup i 0 events with
  | none =>
      rw [hsince] at hlink
      have hwaiting : Waiting serializer o conn sub := hlink
      rw [hwaiting.handed]
      exact ⟨List.nil_prefix, fun _ => rfl⟩
  | some since =>
      rw [hsince] at hlink
      have hready : Ready snappy o conn sub since := hlink
      obtain ⟨pending, hpending, hhanded⟩ := hready.handed
      rw [Option.getD_some, hhanded]
      refine ⟨List.prefix_append _ _, fun hempty => ?_⟩
      rw [hempty] at hpending
      cases hpending
      exact (List.append_nil _).symm

/-- **What each subscriber receives.** Each subscriber is handed what its options and the moment they
arrived select from the messages published, in order and byte for byte, in exactly the runs in which
every message published to a compressing connection fits the buffer for its compressed form. -/
theorem subscribers_receive_iff (snappy : Snappy) (serializer : OptionsSerializer)
    (events : List PubSubEvent) :
    (∃ s, run (onEvent snappy serializer) empty events = .ok s ∧ Receives events s) ↔
      Along (onEvent snappy serializer) (FitsBuffer snappy) empty events := by
  constructor
  · intro ⟨s, hrun, _⟩
    by_contra hnot
    obtain ⟨before, e, after, mid, rfl, -, hmid, hfail⟩ := exists_first_failure hnot
    rw [run_append_of_run hmid, run_cons] at hrun
    obtain ⟨s', hstep, -⟩ := bind_eq_ok_iff.mp hrun
    exact overruns hfail hstep
  · intro halong
    obtain ⟨s, hrun, hserving⟩ := walk_along (J := Serving snappy serializer)
      (fun done e rest s _ h hfit => h.step hfit) serving_empty halong
    exact ⟨s, hrun, hserving.receives⟩

/-! ### A message too large -/

/-- Snappy's bound on what it makes of `n` bytes, with a compression that keeps them as they are. -/
def stored : Snappy where
  maxCompressedLength n := 32 + n + n / 6
  rawCompress data := data
  getUncompressedLength compressed := some compressed.length
  rawUncompress compressed := some compressed
  length_rawCompress data := by omega
  rawUncompress_rawCompress _ _ := rfl
  getUncompressedLength_of_rawUncompress _ _ h := by rw [Option.some.inj h]

/-- The fields in order, the filter in four bytes. -/
def fieldwise : OptionsSerializer where
  write opts := (if opts.tcpNodelay then 1 else 0) :: opts.compression :: LittleEndian.bytes opts.filter
  read
    | nodelay :: compression :: filter => .ok ⟨nodelay = 1, compression, LittleEndian.ofBytes filter⟩
    | _ => .error .overrun
  length_write opts := by simp
  read_write opts := by
    obtain ⟨nodelay, compression, filter⟩ := opts
    cases nodelay <;> simp [LittleEndian.ofBytes_bytes]

def compressing : ValidOptions where
  opts := ⟨false, TCPOptions.SNAPPY, 1⟩
  compression := .inr rfl
  filter_pos := by decide
  filter_le := by decide

def idle : Endpoint := ⟨0, ⟨[], 0, 0, 0, 0, 0, 0⟩, fun _ => 0⟩

def zeros (n : Nat) (h : n < 2 ^ 32) : OutMessage :=
  ⟨List.replicate n 0, by rwa [List.length_replicate]⟩

theorem length_zeros (n : Nat) (h : n < 2 ^ 32) : (zeros n h).bytes.length = n :=
  List.length_replicate

theorem compressing_overruns {msg : OutMessage} (hfit : ¬ Fits stored msg) (s : PubSub) :
    run (onEvent stored fieldwise) empty [.connect compressing idle idle, .options 0, .publish msg] ≠
      .ok s := by
  obtain ⟨mid, hmid, conn, hmem, hsetup, hsnappy⟩ : ∃ mid,
      run (onEvent stored fieldwise) empty [.connect compressing idle idle, .options 0] = .ok mid ∧
        ∃ conn ∈ mid.publisher.connections, conn.setup = true ∧
          conn.opts.compression = TCPOptions.SNAPPY :=
    ⟨_, rfl, _, List.mem_singleton.mpr rfl, rfl, rfl⟩
  intro hrun
  have hstep := (run_concat_of_run hmid (.publish msg)).symm.trans hrun
  have hbad : ¬ FitsBuffer stored mid (.publish msg) :=
    fun hall => hfit (hall conn hmem hsetup hsnappy)
  exact overruns hbad hstep

/-- A message of the least size whose bound is `2 ^ 32`, published to a compressing connection,
overruns a buffer of no bytes. -/
theorem too_large_overruns :
    ¬ ∃ s, run (onEvent stored fieldwise) empty [.connect compressing idle idle, .options 0,
          .publish (zeros 3681400512 (by omega))] = .ok s ∧
        Receives [.connect compressing idle idle, .options 0,
          .publish (zeros 3681400512 (by omega))] s := by
  have hfit : ¬ Fits stored (zeros 3681400512 (by omega)) := by
    rw [Fits, length_zeros]
    show ¬ 32 + 3681400512 + 3681400512 / 6 < 2 ^ 32
    omega
  intro ⟨s, hrun, _⟩
  exact compressing_overruns hfit s hrun

end

end PubSub

end Ros2Proto
