import Ros2Proto.PubSub.Wired

/-!
# What is sent arrives

From wherever a run has come, the bytes of a connection can be moved until there are none: each write
makes what is owed less and each read what is on the wire, as the transports expect writes while they
owe something and reads while they wait for something. So the options of a subscriber reach the
publisher, and the messages published since reach the subscriber.
-/

namespace Ros2Proto

open FallibleRun

/-- Bytes are written or read at one end of connection `i`. -/
def WiredEvent.moves (i : Nat) : WiredEvent → Bool
  | .connect _ _ _ => false
  | .publish _ => false
  | .writable j _ => j = i
  | .readable j _ => j = i
  | .subscriberWritable j _ => j = i
  | .subscriberReadable j _ => j = i

namespace Wired

section

variable {snappy : Snappy} {serializer : OptionsSerializer}
variable {s : Wired} {i : Nat} {conn conn₁ : Connection} {sub sub₁ : TCPSubscribe} {w : Wires}
  {a : Accept}

/-! ### Single steps -/

/-- A connection and its subscriber, after a run. -/
structure Holds (snappy : Snappy) (serializer : OptionsSerializer) (i : Nat) (s : Wired)
    (conn : Connection) (sub : TCPSubscribe) : Prop where
  refines : ∃ s', Refines snappy serializer s s'
  connection : s.ends.publisher.connections[i]? = some conn
  subscriber : s.ends.subscribers[i]? = some sub

theorem holds_set (hconn : s.ends.publisher.connections[i]? = some conn)
    (hsub : s.ends.subscribers[i]? = some sub)
    (h : ∃ s', Refines snappy serializer (s.set i conn₁ sub₁ w) s') :
    Holds snappy serializer i (s.set i conn₁ sub₁ w) conn₁ sub₁ where
  refines := h
  connection := List.getElem?_set_self (List.getElem?_eq_some_iff.mp hconn).1
  subscriber := List.getElem?_set_self (List.getElem?_eq_some_iff.mp hsub).1

theorem Holds.connection_of_mem (h : Holds snappy serializer i s conn sub)
    (hconn : conn₁ ∈ s.ends.publisher.connections[i]?) : conn = conn₁ :=
  Option.some.inj (h.connection.symm.trans hconn)

theorem Holds.subscriber_of_mem (h : Holds snappy serializer i s conn sub)
    (hsub : sub₁ ∈ s.ends.subscribers[i]?) : sub = sub₁ :=
  Option.some.inj (h.subscriber.symm.trans hsub)

theorem Holds.writable (h : Holds snappy serializer i s conn sub)
    (hcut : ¬ conn.tcp.CutsEmptySize (.writable a)) :
    s.Admits snappy (.writable i a) ∧ ∃ t tcp, s.onEvent snappy serializer (.writable i a) = .ok t ∧
      conn.tcp.onSend (.writable a) = .ok tcp ∧
      Holds snappy serializer i t { conn with tcp := tcp } sub := by
  obtain ⟨s', hrefines⟩ := h.refines
  have hadmits : s.Admits snappy (.writable i a) := fun c hc => h.connection_of_mem hc ▸ hcut
  obtain ⟨t, hrun, -, hrefines'⟩ := hrefines.writable hadmits
  refine ⟨hadmits, t, ?_⟩
  have hstep := hrun
  rw [onWritable, h.connection, h.subscriber] at hstep
  obtain ⟨tcp, hsend, hlast⟩ := bind_eq_ok_iff.mp hstep
  obtain rfl := Except.ok.inj hlast
  exact ⟨tcp, hrun, hsend, holds_set h.connection h.subscriber ⟨s', hrefines'⟩⟩

theorem Holds.subscriberWritable (h : Holds snappy serializer i s conn sub)
    (hcut : ¬ sub.tcp.CutsEmptySize (.writable a)) :
    s.Admits snappy (.subscriberWritable i a) ∧
      ∃ t tcp, s.onEvent snappy serializer (.subscriberWritable i a) = .ok t ∧
        sub.tcp.onSend (.writable a) = .ok tcp ∧
        Holds snappy serializer i t conn { sub with tcp := tcp } := by
  obtain ⟨s', hrefines⟩ := h.refines
  have hadmits : s.Admits snappy (.subscriberWritable i a) := fun c hc => h.subscriber_of_mem hc ▸ hcut
  obtain ⟨t, hrun, -, hrefines'⟩ := hrefines.subscriberWritable hadmits
  refine ⟨hadmits, t, ?_⟩
  have hstep := hrun
  rw [onSubscriberWritable, h.connection, h.subscriber] at hstep
  obtain ⟨tcp, hsend, hlast⟩ := bind_eq_ok_iff.mp hstep
  obtain rfl := Except.ok.inj hlast
  exact ⟨tcp, hrun, hsend, holds_set h.connection h.subscriber ⟨s', hrefines'⟩⟩

theorem onOptions_sets {p p' : TCPPublish} {frames : List Frame}
    (hconn : p.connections[i]? = some conn) (hrun : p.onOptions serializer i frames = .ok p') :
    ∃ conn', p'.connections = p.connections.set i conn' := by
  unfold TCPPublish.onOptions at hrun
  split at hrun
  · rw [hconn] at hrun
    obtain ⟨tcp, -, hrest⟩ := bind_eq_ok_iff.mp hrun
    split_ifs at hrest
    obtain ⟨opts, -, hlast⟩ := bind_eq_ok_iff.mp hrest
    obtain ⟨tcp', -, hlast⟩ := bind_eq_ok_iff.mp hlast
    obtain rfl := Except.ok.inj hlast
    exact ⟨_, rfl⟩
  · cases hrun

theorem Holds.readable (h : Holds snappy serializer i s conn sub)
    (hcut : ¬ conn.tcp.CutsZeroSize (Channel.chunk (s.wires i).up a)) :
    s.Admits snappy (.readable i a) ∧
      ∃ t tcp conn', s.onEvent snappy serializer (.readable i a) = .ok t ∧
        conn.tcp.onReadable (Channel.chunk (s.wires i).up a) = .ok tcp ∧
        (t.wires i).up = (s.wires i).up.drop (tcp.received.length - conn.tcp.received.length) ∧
        Holds snappy serializer i t conn' sub := by
  obtain ⟨s', hrefines⟩ := h.refines
  have hadmits : s.Admits snappy (.readable i a) := fun c hc => h.connection_of_mem hc ▸ hcut
  obtain ⟨t, t', hrun, -, hrefines'⟩ := hrefines.readable hadmits
  refine ⟨hadmits, t, ?_⟩
  have hi := (List.getElem?_eq_some_iff.mp h.connection).1
  have hi' := (List.getElem?_eq_some_iff.mp h.subscriber).1
  have hstep := hrun
  rw [onReadable, h.connection, h.subscriber] at hstep
  obtain ⟨tcp, hread, hrest⟩ := bind_eq_ok_iff.mp hstep
  dsimp only at hrest
  split at hrest
  · obtain rfl := Except.ok.inj hrest
    refine ⟨tcp, _, hrun, hread, ?_, holds_set h.connection h.subscriber ⟨t', hrefines'⟩⟩
    rw [set_wires]
  · obtain ⟨p, hon, hlast⟩ := bind_eq_ok_iff.mp hrest
    obtain ⟨conn', hset⟩ := onOptions_sets (List.getElem?_set_self hi) hon
    obtain rfl := Except.ok.inj hlast
    refine ⟨tcp, conn', hrun, hread, ?_, ⟨t', hrefines'⟩, ?_, List.getElem?_set_self hi'⟩
    · rw [set_wires]
    · have hlength : i < (s.ends.publisher.connections.set i { conn with tcp := tcp }).length := by
        rw [List.length_set]
        exact hi
      show p.connections[i]? = some conn'
      rw [hset]
      exact List.getElem?_set_self hlength

theorem Holds.subscriberReadable (h : Holds snappy serializer i s conn sub)
    (hcut : ¬ sub.tcp.CutsZeroSize (Channel.chunk (s.wires i).down a)) :
    s.Admits snappy (.subscriberReadable i a) ∧
      ∃ t tcp sub', s.onEvent snappy serializer (.subscriberReadable i a) = .ok t ∧
        sub.tcp.onReadable (Channel.chunk (s.wires i).down a) = .ok tcp ∧
        (t.wires i).down = (s.wires i).down.drop (tcp.received.length - sub.tcp.received.length) ∧
        Holds snappy serializer i t conn sub' := by
  obtain ⟨s', hrefines⟩ := h.refines
  have hadmits : s.Admits snappy (.subscriberReadable i a) := fun c hc => h.subscriber_of_mem hc ▸ hcut
  obtain ⟨t, t', hrun, -, hrefines'⟩ := hrefines.subscriberReadable hadmits
  refine ⟨hadmits, t, ?_⟩
  have hi := (List.getElem?_eq_some_iff.mp h.connection).1
  have hi' := (List.getElem?_eq_some_iff.mp h.subscriber).1
  have hstep := hrun
  rw [onSubscriberReadable, h.connection, h.subscriber] at hstep
  obtain ⟨tcp, hread, hrest⟩ := bind_eq_ok_iff.mp hstep
  dsimp only at hrest
  split at hrest
  · obtain rfl := Except.ok.inj hrest
    refine ⟨tcp, _, hrun, hread, ?_, holds_set h.connection h.subscriber ⟨t', hrefines'⟩⟩
    rw [set_wires]
  · obtain ⟨sub', hreceive, hlast⟩ := bind_eq_ok_iff.mp hrest
    obtain rfl := Except.ok.inj hlast
    refine ⟨tcp, sub', hrun, hread, ?_, ⟨t', hrefines'⟩, List.getElem?_set_self hi,
      List.getElem?_set_self hi'⟩
    rw [set_wires]

/-! ### Runs -/

variable (snappy serializer)

/-- Where connection `i` and its subscriber can be brought by moving their bytes alone. -/
def Leads (i : Nat) (s : Wired) (A : Wired → Connection → TCPSubscribe → Prop) : Prop :=
  ∃ moves t conn sub, (∀ e ∈ moves, e.moves i) ∧
    Along (onEvent snappy serializer) (Admits snappy) s moves ∧
    run (onEvent snappy serializer) s moves = .ok t ∧ Holds snappy serializer i t conn sub ∧
    A t conn sub

variable {snappy serializer}
variable {A B : Wired → Connection → TCPSubscribe → Prop}

theorem Leads.trans (h : Leads snappy serializer i s A)
    (hnext : ∀ t conn sub, Holds snappy serializer i t conn sub → A t conn sub →
      Leads snappy serializer i t B) : Leads snappy serializer i s B := by
  obtain ⟨moves, t, conn, sub, hmoves, halong, hrun, hholds, hA⟩ := h
  obtain ⟨moves', u, conn', sub', hmoves', halong', hrun', hholds', hB⟩ := hnext t conn sub hholds hA
  refine ⟨moves ++ moves', u, conn', sub', fun e he => ?_, ?_, ?_, hholds', hB⟩
  · exact (List.mem_append.mp he).elim (hmoves e) (hmoves' e)
  · refine (along_append _ _ _).mpr ⟨halong, fun t' ht' => ?_⟩
    obtain rfl := Except.ok.inj (hrun.symm.trans ht')
    exact halong'
  · rw [run_append_of_run hrun, hrun']

/-- One event after another makes a measure less. -/
theorem leads_drains (measure : Wired → Nat) {e : WiredEvent} (he : e.moves i)
    (hstep : ∀ s conn sub, Holds snappy serializer i s conn sub → A s conn sub → 0 < measure s →
      s.Admits snappy e ∧ ∃ t conn' sub', s.onEvent snappy serializer e = .ok t ∧
        Holds snappy serializer i t conn' sub' ∧ A t conn' sub' ∧ measure t < measure s)
    (h : Holds snappy serializer i s conn sub) (hA : A s conn sub) :
    Leads snappy serializer i s fun t conn sub => A t conn sub ∧ measure t = 0 := by
  have hdrain : ∀ s, (∃ conn sub, Holds snappy serializer i s conn sub ∧ A s conn sub) →
      0 < measure s → s.Admits snappy e ∧ ∃ t, s.onEvent snappy serializer e = .ok t ∧
        (∃ conn sub, Holds snappy serializer i t conn sub ∧ A t conn sub) ∧ measure t < measure s := by
    rintro s ⟨conn, sub, hholds, hA⟩ hpos
    obtain ⟨hadmits, t, conn', sub', hrun, hholds', hA', hless⟩ := hstep s conn sub hholds hA hpos
    exact ⟨hadmits, t, hrun, ⟨conn', sub', hholds', hA'⟩, hless⟩
  obtain ⟨k, t, halong, hrun, ⟨conn', sub', hholds, hA'⟩, hzero⟩ :=
    run_drains measure hdrain ⟨conn, sub, h, hA⟩
  exact ⟨_, t, conn', sub', fun e' he' => List.eq_of_mem_replicate he' ▸ he, halong, hrun, hholds, hA',
    hzero⟩

theorem Holds.matches (h : Holds snappy serializer i s conn sub) : ∃ o conn' sub' since,
    Link snappy serializer o conn' sub' since ∧ Matches (s.wires i) conn sub conn' sub' := by
  obtain ⟨s', hrefines⟩ := h.refines
  obtain ⟨o, conn', sub', -, -, hlink, hmatches⟩ := hrefines.exists_link h.connection h.subscriber
  exact ⟨o, conn', sub', _, hlink, hmatches⟩

/-- A subscriber sends what it has queued. -/
theorem Holds.leads_sent (h : Holds snappy serializer i s conn sub) :
    Leads snappy serializer i s fun _ _ sub => sub.tcp.sendMsgs = [] := by
  have hdrain := leads_drains (A := fun _ _ _ => True) (e := .subscriberWritable i .whole)
    (fun s => (s.ends.subscribers[i]?.map fun sub => sub.tcp.todo.length).getD 0)
    (decide_eq_true rfl) ?_ h trivial
  · obtain ⟨moves, t, conn', sub', hmoves, halong, hrun, hholds, -, hzero⟩ := hdrain
    refine ⟨moves, t, conn', sub', hmoves, halong, hrun, hholds, ?_⟩
    rw [hholds.subscriber, Option.map_some, Option.getD_some] at hzero
    obtain ⟨o, c, b, since, -, hmatches⟩ := hholds.matches
    exact hmatches.transmits.sendMsgs_of_todo (List.length_eq_zero_iff.mp hzero)
  · intro s conn sub hholds _ hpos
    have hcut := TransportTCP.not_cutsEmptySize_of_whole Accept.whole_whole sub.tcp
    obtain ⟨hadmits, t, tcp, hrun, hsend, hholds'⟩ := hholds.subscriberWritable hcut
    refine ⟨hadmits, t, _, _, hrun, hholds', trivial, ?_⟩
    rw [hholds.subscriber, Option.map_some, Option.getD_some] at hpos ⊢
    rw [hholds'.subscriber, Option.map_some, Option.getD_some]
    obtain ⟨o, c, b, since, -, hmatches⟩ := hholds.matches
    exact hmatches.transmits.write_shrinks (List.length_pos_iff.mp hpos) hsend

/-- A connection reads the options that its subscriber has sent. -/
theorem Holds.leads_setup (h : Holds snappy serializer i s conn sub)
    (hsent : sub.tcp.sendMsgs = []) :
    Leads snappy serializer i s fun _ conn _ => conn.setup = true := by
  have hdrain := leads_drains (A := fun _ _ sub => sub.tcp.sendMsgs = []) (e := .readable i .whole)
    (fun s => (s.ends.publisher.connections[i]?.map fun conn =>
      if conn.setup then 0 else (s.wires i).up.length).getD 0) (decide_eq_true rfl) ?_ h hsent
  · obtain ⟨moves, t, conn', sub', hmoves, halong, hrun, hholds, hempty, hzero⟩ := hdrain
    refine ⟨moves, t, conn', sub', hmoves, halong, hrun, hholds, ?_⟩
    by_contra hsetup
    rw [Bool.not_eq_true] at hsetup
    rw [hholds.connection, Option.map_some, Option.getD_some, hsetup,
      if_neg Bool.false_ne_true] at hzero
    obtain ⟨o, c, b, since, hlink, hmatches⟩ := hholds.matches
    have hwaiting := Link.waiting hlink (hmatches.setup ▸ hsetup)
    obtain ⟨owed, howed, hup⟩ := hmatches.waiting hsetup
    rw [hup.drained hempty (List.length_eq_zero_iff.mp hzero), hwaiting.options] at howed
    cases howed
  · intro s conn sub hholds hempty hpos
    rw [hholds.connection, Option.map_some, Option.getD_some] at hpos
    obtain hsetup | hsetup := Bool.eq_false_or_eq_true conn.setup
    · rw [hsetup, if_pos rfl] at hpos
      cases hpos
    · obtain ⟨o, c, b, since, -, hmatches⟩ := hholds.matches
      obtain ⟨owed, -, hup⟩ := hmatches.waiting hsetup
      obtain ⟨hadmits, t, tcp, conn', hrun, hread, hwire, hholds'⟩ :=
        hholds.readable (hup.not_cuts_whole hempty)
      refine ⟨hadmits, t, _, _, hrun, hholds', hempty, ?_⟩
      rw [hsetup, if_neg Bool.false_ne_true] at hpos
      have hless := hup.read_shrinks (List.length_pos_iff.mp hpos) hread
      rw [hholds.connection, hholds'.connection, Option.map_some, Option.map_some, Option.getD_some,
        Option.getD_some, hsetup, if_neg Bool.false_ne_true, hwire]
      split_ifs
      · exact hpos
      · exact hless

/-- A connection sends what it has queued. -/
theorem Holds.leads_written (h : Holds snappy serializer i s conn sub) (hsetup : conn.setup = true) :
    Leads snappy serializer i s fun _ conn _ => conn.setup = true ∧ conn.tcp.sendMsgs = [] := by
  have hdrain := leads_drains (A := fun _ conn _ => conn.setup = true) (e := .writable i .whole)
    (fun s => (s.ends.publisher.connections[i]?.map fun conn => conn.tcp.todo.length).getD 0)
    (decide_eq_true rfl) ?_ h hsetup
  · obtain ⟨moves, t, conn', sub', hmoves, halong, hrun, hholds, hsetup', hzero⟩ := hdrain
    refine ⟨moves, t, conn', sub', hmoves, halong, hrun, hholds, hsetup', ?_⟩
    rw [hholds.connection, Option.map_some, Option.getD_some] at hzero
    obtain ⟨o, c, b, since, -, hmatches⟩ := hholds.matches
    obtain ⟨owed, -, hdown⟩ := hmatches.down
    exact hdown.transmits.sendMsgs_of_todo (List.length_eq_zero_iff.mp hzero)
  · intro s conn sub hholds hsetup' hpos
    have hcut := TransportTCP.not_cutsEmptySize_of_whole Accept.whole_whole conn.tcp
    obtain ⟨hadmits, t, tcp, hrun, hsend, hholds'⟩ := hholds.writable hcut
    refine ⟨hadmits, t, _, _, hrun, hholds', hsetup', ?_⟩
    rw [hholds.connection, Option.map_some, Option.getD_some] at hpos ⊢
    rw [hholds'.connection, Option.map_some, Option.getD_some]
    obtain ⟨o, c, b, since, -, hmatches⟩ := hholds.matches
    obtain ⟨owed, -, hdown⟩ := hmatches.down
    exact hdown.transmits.write_shrinks (List.length_pos_iff.mp hpos) hsend

/-- A subscriber reads what its connection has sent. -/
theorem Holds.leads_received (h : Holds snappy serializer i s conn sub) (hsetup : conn.setup = true)
    (hsent : conn.tcp.sendMsgs = []) :
    Leads snappy serializer i s fun t conn _ =>
      (conn.setup = true ∧ conn.tcp.sendMsgs = []) ∧ (t.wires i).down.length = 0 := by
  apply leads_drains (e := .subscriberReadable i .whole) _ (decide_eq_true rfl) _ h ⟨hsetup, hsent⟩
  rintro s conn sub hholds ⟨hsetup', hempty⟩ hpos
  obtain ⟨o, c, b, since, -, hmatches⟩ := hholds.matches
  obtain ⟨owed, -, hdown⟩ := hmatches.down
  obtain ⟨hadmits, t, tcp, sub', hrun, hread, hwire, hholds'⟩ :=
    hholds.subscriberReadable (hdown.not_cuts_whole hempty)
  refine ⟨hadmits, t, _, _, hrun, hholds', ⟨hsetup', hempty⟩, ?_⟩
  rw [hwire]
  exact hdown.read_shrinks (List.length_pos_iff.mp hpos) hread

theorem Holds.leads (h : Holds snappy serializer i s conn sub) :
    Leads snappy serializer i s fun t conn _ =>
      (conn.setup = true ∧ conn.tcp.sendMsgs = []) ∧ (t.wires i).down.length = 0 :=
  h.leads_sent.trans fun _ _ _ hsent hempty =>
    (hsent.leads_setup hempty).trans fun _ _ _ hset hsetup =>
      (hset.leads_written hsetup).trans fun _ _ _ hwritten hdone =>
        hwritten.leads_received hdone.1 hdone.2

end

/-- **No byte is stuck.** After any such run, moving the bytes of one connection brings its options to
the publisher and hands its subscriber everything that it is to receive. -/
theorem bytes_arrive (snappy : Snappy) (serializer : OptionsSerializer) (events : List WiredEvent)
    (hadmits : Along (onEvent snappy serializer) (Admits snappy) empty events) (i : Nat)
    (o : ValidOptions) (hi : (connected (events.filterMap WiredEvent.call))[i]? = some o) :
    ∃ moves, (∀ e ∈ moves, WiredEvent.moves i e) ∧
      Along (onEvent snappy serializer) (Admits snappy) empty (events ++ moves) ∧
      ∃ s conn sub, run (onEvent snappy serializer) empty (events ++ moves) = .ok s ∧
        s.ends.publisher.connections[i]? = some conn ∧ s.ends.subscribers[i]? = some sub ∧
        conn.setup = true ∧ sub.handed = PubSub.expected i o s.trace := by
  obtain ⟨s, hrun, ⟨s', h⟩, hcalls⟩ := run_refines hadmits
  rw [← hcalls, connected_calls] at hi
  obtain ⟨conn, sub, hconn, hsub, -, -⟩ := h.receives hi
  have hholds : Holds snappy serializer i s conn sub := ⟨⟨s', h⟩, hconn, hsub⟩
  obtain ⟨moves, t, conn', sub', hmoves, halong, hmove, hholds', ⟨hsetup, hqueue⟩, hwire⟩ :=
    hholds.leads
  have hall : Along (onEvent snappy serializer) (Admits snappy) empty (events ++ moves) := by
    refine (along_append _ _ _).mpr ⟨hadmits, fun u hu => ?_⟩
    obtain rfl := Except.ok.inj (hrun.symm.trans hu)
    exact halong
  have hboth : run (onEvent snappy serializer) empty (events ++ moves) = .ok t :=
    (run_append_of_run hrun moves).trans hmove
  obtain ⟨u, hrun', ⟨u', h'⟩, hcalls'⟩ := run_refines hall
  obtain rfl := Except.ok.inj (hboth.symm.trans hrun')
  have hquiet : moves.filterMap WiredEvent.call = [] := by
    apply List.filterMap_eq_nil_iff.mpr
    intro e he
    have hmove := hmoves e he
    cases e with
    | connect o accepted connecting => cases hmove
    | publish msg => cases hmove
    | _ => rfl
  rw [List.filterMap_append, hquiet, List.append_nil, ← hcalls] at hcalls'
  rw [← connected_calls, ← hcalls', connected_calls] at hi
  obtain ⟨c, b, hc, hb, -, hreceived⟩ := h'.receives hi
  obtain rfl := Option.some.inj (hc.symm.trans hholds'.connection)
  obtain rfl := Option.some.inj (hb.symm.trans hholds'.subscriber)
  exact ⟨moves, hmoves, hall, t, c, b, hboth, hc, hb, hsetup,
    hreceived hqueue (List.length_eq_zero_iff.mp hwire)⟩

theorem bytes_arrive_early :
    ∃ moves, (∀ e ∈ moves, WiredEvent.moves 0 e) ∧
      Along (onEvent PubSub.stored PubSub.fieldwise) (Admits PubSub.stored) empty (early ++ moves) ∧
      ∃ s conn sub, run (onEvent PubSub.stored PubSub.fieldwise) empty (early ++ moves) = .ok s ∧
        s.ends.publisher.connections[0]? = some conn ∧ s.ends.subscribers[0]? = some sub ∧
        conn.setup = true ∧ sub.handed = PubSub.expected 0 plain s.trace :=
  bytes_arrive PubSub.stored PubSub.fieldwise early (by decide +kernel) 0 plain rfl

end Wired

end Ros2Proto
