import Ros2Proto.PubSub.Options

/-!
# The connections of a subscriber

`TCPSubscribe` holds one transport, `tcp_`, and is started once for every publisher of its topic. Each
`start` puts a new transport in its place and binds the callbacks of the transport to the object, so
the transports before it live on. `onDisconnect` and `shutdown` close `tcp_`, whichever transport
they are about. A transport is known by its place among those that `start` made.

A connection should be open until it is disconnected or the subscriber is shut down. It is so exactly
as long as no transport but the last is disconnected while the last is open, and none but the last is
open at a shutdown.
-/

namespace Ros2Proto

open FallibleRun

/-- The transports that `start` made, and the place of the one that `tcp_` points to. -/
structure SubscriberConnections where
  opened : List TransportTCP
  tcp : Option Nat

namespace SubscriberConnections

def empty : SubscriberConnections := ⟨[], none⟩

/-- The number of open transports, which every `close` that runs a callback makes smaller. -/
def openCount (s : SubscriberConnections) : Nat := s.opened.countP fun t => !t.closed

theorem openCount_set_lt {s : SubscriberConnections} {i : Nat} {t t' : TransportTCP}
    (hi : s.opened[i]? = some t) (hopen : ¬ t.closed = true) (hclose : t.close = .ok t') :
    openCount { s with opened := s.opened.set i t' } < s.openCount := by
  have hclosed : t'.closed = true := by
    rw [TransportTCP.close, if_neg hopen] at hclose
    split_ifs at hclose <;> exact Except.ok.inj hclose ▸ rfl
  obtain ⟨hlt, rfl⟩ := List.getElem?_eq_some_iff.mp hi
  have hpos : 0 < s.opened.countP fun t => !t.closed :=
    List.countP_pos_iff.mpr ⟨_, List.getElem_mem hlt, by simpa using hopen⟩
  rw [openCount, openCount, List.countP_set hlt]
  simp only [hclosed, Bool.eq_false_iff.mpr hopen]
  simp only [Bool.not_false, Bool.not_true, if_true, Bool.false_eq_true, if_false]
  omega

mutual

/-- `close` of the transport at place `i`, with the callback that it runs. -/
def close (s : SubscriberConnections) (i : Nat) : Except Fault SubscriberConnections :=
  match _ : s.opened[i]? with
  | none => .ok s
  | some t =>
    if _ : t.closed = true then .ok s
    else
      match _ : t.close with
      | .error f => .error f
      | .ok t' =>
        if t.disconnectCb then onDisconnect { s with opened := s.opened.set i t' }
        else .ok { s with opened := s.opened.set i t' }
termination_by (s.openCount, 0)
decreasing_by exact Prod.Lex.left _ _ (openCount_set_lt ‹_› ‹_› ‹_›)

/-- `onDisconnect`, which makes no use of its argument. -/
def onDisconnect (s : SubscriberConnections) : Except Fault SubscriberConnections :=
  match s.tcp with
  | none => .error .nullPointer
  | some j => s.close j
termination_by (s.openCount, 1)
decreasing_by exact Prod.Lex.right _ Nat.zero_lt_one

end

def shutdown (s : SubscriberConnections) : Except Fault SubscriberConnections :=
  match s.tcp with
  | none => .ok s
  | some j => s.close j

/-- `start`, with what the new transport takes from its socket. -/
def start (opts : TCPOptions) (serializer : OptionsSerializer) (s : SubscriberConnections)
    (e : Endpoint) : Except Fault SubscriberConnections := do
  let sub ← TCPSubscribe.start opts serializer e.transport
  .ok ⟨s.opened ++ [sub.tcp], some s.opened.length⟩

/-- What happens to a subscriber. A disconnect is of the transport at a place. -/
inductive Event
  | start (e : Endpoint)
  | disconnect (i : Nat)
  | shutdown

def onEvent (opts : TCPOptions) (serializer : OptionsSerializer) (s : SubscriberConnections) :
    Event → Except Fault SubscriberConnections
  | .start e => s.start opts serializer e
  | .disconnect i => s.close i
  | .shutdown => s.shutdown

/-! ### What should be open -/

def Event.isStart : Event → Bool
  | .start _ => true
  | _ => false

/-- The transport at place `i` has been started, and since then neither disconnected nor shut down. -/
def ShouldBeOpen (i : Nat) (events : List Event) : Prop :=
  ∃ before e after, events = before ++ .start e :: after ∧ before.countP Event.isStart = i ∧
    ∀ later ∈ after, later ≠ .disconnect i ∧ later ≠ .shutdown

def isOpen (s : SubscriberConnections) (i : Nat) : Prop :=
  ∃ t, s.opened[i]? = some t ∧ t.closed = false

/-- Exactly the transports that should be are open. -/
def Tracks (events : List Event) (s : SubscriberConnections) : Prop :=
  ∀ i, s.isOpen i ↔ ShouldBeOpen i events

/-- The transport that is disconnected is the last one or the last one is closed, and a shutdown finds
none open but the last one. -/
def ConcernsLast (s : SubscriberConnections) : Event → Prop
  | .start _ => True
  | .disconnect i => s.isOpen i → ∀ j, s.tcp = some j → s.isOpen j → j = i
  | .shutdown => ∀ i, s.isOpen i → s.tcp = some i

variable {i j : Nat} {events : List Event}

/-- The last event starts the transport, or leaves it open. -/
theorem shouldBeOpen_concat {e : Event} :
    ShouldBeOpen i (events ++ [e]) ↔
      ShouldBeOpen i events ∧ e ≠ .disconnect i ∧ e ≠ .shutdown ∨
        e.isStart = true ∧ i = events.countP Event.isStart := by
  constructor
  · intro h
    obtain ⟨before, e', after, heq, hcount, hsince⟩ := h
    rcases List.eq_nil_or_concat after with rfl | ⟨after, last, rfl⟩
    · obtain ⟨rfl, hlast⟩ := List.append_inj' heq rfl
      obtain rfl := List.singleton_inj.mp hlast
      exact Or.inr ⟨rfl, hcount.symm⟩
    · rw [List.concat_eq_append, ← List.cons_append, ← List.append_assoc] at heq
      obtain ⟨rfl, hlast⟩ := List.append_inj' heq rfl
      obtain rfl := List.singleton_inj.mp hlast
      have hearlier : ShouldBeOpen i (before ++ .start e' :: after) :=
        ⟨before, e', after, rfl, hcount, fun later hlater => hsince later (by simp [hlater])⟩
      exact Or.inl ⟨hearlier, hsince e (by simp)⟩
  · intro h
    rcases h with ⟨⟨before, e', after, rfl, hcount, hsince⟩, he⟩ | ⟨hstart, rfl⟩
    · refine ⟨before, e', after ++ [e], by simp, hcount, fun later hlater => ?_⟩
      rcases List.mem_append.mp hlater with hlater | hlater
      · exact hsince later hlater
      · obtain rfl := List.mem_singleton.mp hlater
        exact he
    · cases e with
      | start e => exact ⟨events, e, [], rfl, rfl, nofun⟩
      | disconnect j => cases hstart
      | shutdown => cases hstart

theorem shouldBeOpen_start (e : Endpoint) :
    ShouldBeOpen i (events ++ [.start e]) ↔
      ShouldBeOpen i events ∨ i = events.countP Event.isStart := by
  rw [shouldBeOpen_concat]
  apply or_congr
  · exact and_iff_left ⟨nofun, nofun⟩
  · exact and_iff_right rfl

theorem shouldBeOpen_end {e : Event} (he : e.isStart = false) :
    ShouldBeOpen i (events ++ [e]) ↔ ShouldBeOpen i events ∧ e ≠ .disconnect i ∧ e ≠ .shutdown := by
  rw [shouldBeOpen_concat, he]
  apply or_iff_left
  intro h
  cases h.1

/-! ### Closing -/

/-- Open transports can be closed and then call `onDisconnect`, which finds `tcp_` set. -/
structure Sound (s : SubscriberConnections) : Prop where
  bound : ∀ (i : Nat) (t : TransportTCP), s.opened[i]? = some t → t.closed = false →
    t.disconnectCb = true ∧ t.sock ≠ -1
  tcp : s.opened ≠ [] → ∃ j, s.tcp = some j

variable {s s' : SubscriberConnections}

theorem close_of_not_isOpen (h : ¬ s.isOpen i) : s.close i = .ok s := by
  rw [close]
  split
  · rfl
  · rename_i t hi
    rw [dif_pos]
    by_contra hopen
    exact h ⟨t, hi, Bool.eq_false_iff.mpr hopen⟩

/-- An open transport is closed before the callback runs. -/
theorem Sound.close_of_isOpen (h : s.Sound) (hi : s.isOpen i) :
    ∃ s' : SubscriberConnections, s.close i = s'.onDisconnect ∧ s'.Sound ∧ s'.tcp = s.tcp ∧
      s'.opened.length = s.opened.length ∧ ∀ k, s'.isOpen k ↔ s.isOpen k ∧ k ≠ i := by
  obtain ⟨t, ht, hopen⟩ := hi
  obtain ⟨hcb, hsock⟩ := h.bound i t ht hopen
  obtain ⟨t', hclose, hclosed⟩ : ∃ t', t.close = .ok t' ∧ t'.closed = true := by
    rw [TransportTCP.close, hopen, if_neg Bool.false_ne_true, if_neg hsock]
    exact ⟨_, rfl, rfl⟩
  have hlt : i < s.opened.length := (List.getElem?_eq_some_iff.mp ht).1
  have hget : ∀ k, (s.opened.set i t')[k]? = if i = k then some t' else s.opened[k]? := by
    intro k
    rw [List.getElem?_set]
    split_ifs <;> rfl
  refine ⟨{ s with opened := s.opened.set i t' }, ?_, ⟨fun k u hk hu => ?_, fun hne => ?_⟩, rfl,
    List.length_set, fun k => ?_⟩
  · rw [close]
    split
    · rename_i hnone
      rw [ht] at hnone
      cases hnone
    · rename_i u hu
      obtain rfl := Option.some.inj (ht.symm.trans hu)
      rw [dif_neg (by simp [hopen])]
      split
      · rename_i herror
        rw [hclose] at herror
        cases herror
      · rename_i hok
        obtain rfl := Except.ok.inj (hclose.symm.trans hok)
        rw [if_pos hcb]
  · rw [hget] at hk
    split_ifs at hk
    · obtain rfl := Option.some.inj hk
      rw [hclosed] at hu
      cases hu
    · exact h.bound k u hk hu
  · exact h.tcp fun hnil => hne (by rw [hnil]; rfl)
  · rw [isOpen, isOpen, hget]
    split_ifs with hik
    · constructor
      · intro hopens
        obtain ⟨u, hu, hopen'⟩ := hopens
        obtain rfl := Option.some.inj hu
        rw [hclosed] at hopen'
        cases hopen'
      · intro hopens
        exact absurd hik.symm hopens.2
    · exact ⟨fun hk => ⟨hk, fun heq => hik heq.symm⟩, fun hk => hk.1⟩

/-- Closing an open transport closes `tcp_` too. -/
theorem Sound.close (h : s.Sound) (i : Nat) :
    ∃ s' : SubscriberConnections, s.close i = .ok s' ∧ s'.Sound ∧
      s'.opened.length = s.opened.length ∧ ∀ k,
        s'.isOpen k ↔ s.isOpen k ∧ (s.isOpen i → k ≠ i ∧ s.tcp ≠ some k) := by
  by_cases hi : s.isOpen i
  · obtain ⟨s₁, hclose, hsound, htcp, hlength, hopen⟩ := h.close_of_isOpen hi
    obtain ⟨j, hj⟩ := h.tcp (by
      rintro hnil
      obtain ⟨t, ht, -⟩ := hi
      rw [hnil] at ht
      cases ht)
    have hnext : s₁.onDisconnect = s₁.close j := by
      rw [onDisconnect, htcp, hj]
    by_cases hlast : s₁.isOpen j
    · obtain ⟨s₂, hclose', hsound', htcp', hlength', hopen'⟩ := hsound.close_of_isOpen hlast
      have hagain : s₂.onDisconnect = s₂.close j := by
        rw [onDisconnect, htcp', htcp, hj]
      refine ⟨s₂, ?_, hsound', hlength'.trans hlength, fun k => ?_⟩
      · rw [hclose, hnext, hclose', hagain]
        exact close_of_not_isOpen fun hclosed => ((hopen' j).mp hclosed).2 rfl
      · rw [hopen', hopen, hj, and_assoc]
        simp only [hi, true_implies, ne_eq, Option.some.injEq, eq_comm]
    · refine ⟨s₁, ?_, hsound, hlength, fun k => ?_⟩
      · rw [hclose, hnext]
        exact close_of_not_isOpen hlast
      · rw [hopen, hj]
        constructor
        · intro ⟨hk, hne⟩
          refine ⟨hk, fun _ => ⟨hne, fun heq => hlast ?_⟩⟩
          rw [Option.some.inj heq]
          exact (hopen k).mpr ⟨hk, hne⟩
        · intro ⟨hk, hrest⟩
          exact ⟨hk, (hrest hi).1⟩
  · exact ⟨s, close_of_not_isOpen hi, h, rfl, fun k => ⟨fun hk => ⟨hk, fun hi' => absurd hi' hi⟩,
      fun hk => hk.1⟩⟩

/-! ### One event -/

/-- The state after a history that it tracks. -/
structure Inv (events : List Event) (s : SubscriberConnections) : Prop where
  sound : s.Sound
  length : s.opened.length = events.countP Event.isStart
  tracks : Tracks events s

variable {opts : TCPOptions} {serializer : OptionsSerializer}

theorem start_bound (opts : TCPOptions) (serializer : OptionsSerializer) (e : Endpoint) :
    ∃ sub, TCPSubscribe.start opts serializer e.transport = .ok sub ∧ sub.tcp.closed = false ∧
      sub.tcp.disconnectCb = true ∧ sub.tcp.sock ≠ -1 := by
  refine ⟨_, rfl, rfl, rfl, ?_⟩
  show (e.sock : Int) ≠ -1
  omega

/-- What is left of the invariant after an event, and when all of it is. -/
def Outcome (opts : TCPOptions) (serializer : OptionsSerializer) (events : List Event)
    (s : SubscriberConnections) (e : Event) : Prop :=
  ∃ s', s.onEvent opts serializer e = .ok s' ∧ s'.Sound ∧
    s'.opened.length = (events ++ [e]).countP Event.isStart ∧
    (Tracks (events ++ [e]) s' ↔ s.ConcernsLast e)

theorem Inv.start (h : Inv events s) (e : Endpoint) :
    Outcome opts serializer events s (.start e) := by
  obtain ⟨sub, hrun, hopen, hcb, hsock⟩ := start_bound opts serializer e
  have hget : ∀ k, (s.opened ++ [sub.tcp])[k]? =
      if k = s.opened.length then some sub.tcp else s.opened[k]? := by
    intro k
    split_ifs with hk
    · rw [hk, List.getElem?_concat_length]
    · rcases Nat.lt_or_gt_of_ne hk with hlt | hgt
      · exact List.getElem?_append_left hlt
      · rw [List.getElem?_eq_none (Nat.le_of_lt hgt), List.getElem?_eq_none]
        rw [List.length_append]
        exact hgt
  have hstart : s.onEvent opts serializer (.start e) =
      .ok ⟨s.opened ++ [sub.tcp], some s.opened.length⟩ := by
    rw [onEvent, SubscriberConnections.start, hrun]
    rfl
  refine ⟨_, hstart, ⟨fun k t hk ht => ?_, fun _ => ⟨_, rfl⟩⟩, ?_,
    iff_of_true (fun k => ?_) trivial⟩
  · rw [hget] at hk
    split_ifs at hk
    · obtain rfl := Option.some.inj hk
      exact ⟨hcb, hsock⟩
    · exact h.sound.bound k t hk ht
  · rw [List.countP_append, List.length_append, h.length]
    rfl
  · rw [shouldBeOpen_start, ← h.tracks, ← h.length, isOpen, hget, isOpen]
    split_ifs with hk
    · exact iff_of_true ⟨_, rfl, hopen⟩ (Or.inr hk)
    · exact (or_iff_left hk).symm

theorem Inv.disconnect (h : Inv events s) (i : Nat) :
    Outcome opts serializer events s (.disconnect i) := by
  obtain ⟨s', hrun, hsound, hlength, hopen⟩ := h.sound.close i
  refine ⟨s', hrun, hsound, ?_, ?_⟩
  · rw [hlength, h.length, List.countP_append]
    rfl
  constructor
  · intro htracks hi j hj hjopen
    by_contra hne
    -- The last transport is closed with this one, and should not be.
    have hshould : ShouldBeOpen j (events ++ [.disconnect i]) := by
      refine (shouldBeOpen_end rfl).mpr ⟨(h.tracks j).mp hjopen, fun heq => hne ?_, nofun⟩
      exact (Event.disconnect.inj heq).symm
    exact (((hopen j).mp ((htracks j).mpr hshould)).2 hi).2 hj
  · intro hlast k
    rw [hopen, shouldBeOpen_end rfl, ← h.tracks]
    constructor
    · intro ⟨hk, hrest⟩
      refine ⟨hk, fun heq => ?_, nofun⟩
      have hik : i = k := Event.disconnect.inj heq
      exact (hrest (hik ▸ hk)).1 hik.symm
    · intro hshould
      obtain ⟨hk, hne, -⟩ := hshould
      have hki : k ≠ i := fun heq => hne (by rw [heq])
      exact ⟨hk, fun hi => ⟨hki, fun htcp => hki (hlast hi k htcp hk)⟩⟩

theorem Inv.shutdown (h : Inv events s) : Outcome opts serializer events s .shutdown := by
  have hclosed : ∀ k, ¬ ShouldBeOpen k (events ++ [.shutdown]) :=
    fun k hk => ((shouldBeOpen_end rfl).mp hk).2.2 rfl
  have hcount : (events ++ [Event.shutdown]).countP Event.isStart = s.opened.length := by
    rw [h.length, List.countP_append]
    rfl
  cases htcp : s.tcp with
  | none =>
      refine ⟨s, ?_, h.sound, hcount.symm, ?_⟩
      · rw [onEvent, SubscriberConnections.shutdown, htcp]
      · constructor
        · intro htracks k hk
          exact absurd ((htracks k).mp hk) (hclosed k)
        · intro hlast k
          refine iff_of_false (fun hk => ?_) (hclosed k)
          have hnone := hlast k hk
          rw [htcp] at hnone
          cases hnone
  | some j =>
      obtain ⟨s', hrun, hsound, hlength, hopen⟩ := h.sound.close j
      refine ⟨s', ?_, hsound, hlength.trans hcount.symm, ?_⟩
      · rw [onEvent, SubscriberConnections.shutdown, htcp]
        exact hrun
      · constructor
        · intro htracks k hk
          by_contra hne
          have hkj : k ≠ j := fun heq => hne (by rw [htcp, heq])
          exact hclosed k ((htracks k).mp ((hopen k).mpr ⟨hk, fun _ => ⟨hkj, hne⟩⟩))
        · intro hlast k
          refine iff_of_false (fun hk => ?_) (hclosed k)
          obtain ⟨hkopen, hrest⟩ := (hopen k).mp hk
          have hkj : k = j := Option.some.inj ((hlast k hkopen).symm.trans htcp)
          exact (hrest (hkj ▸ hkopen)).1 hkj

theorem Inv.step (h : Inv events s) (e : Event) : Outcome opts serializer events s e := by
  cases e with
  | start e => exact h.start e
  | disconnect i => exact h.disconnect i
  | shutdown => exact h.shutdown

theorem inv_empty : Inv [] empty := by
  refine ⟨⟨by simp [empty], fun hne => absurd rfl hne⟩, rfl, fun i => ?_⟩
  refine iff_of_false (fun ⟨t, ht, _⟩ => ?_) fun ⟨before, e, after, heq, _⟩ => ?_
  · simp [empty] at ht
  · simp at heq

theorem run_inv (halong : Along (onEvent opts serializer) ConcernsLast empty events) :
    ∃ s, run (onEvent opts serializer) empty events = .ok s ∧ Inv events s := by
  apply walk_along (J := Inv) _ inv_empty halong
  intro done e rest s _ h hlast
  obtain ⟨s', hrun, hsound, hlength, htracks⟩ := h.step e
  exact ⟨s', hrun, hsound, hlength, htracks.mpr hlast⟩

/-- The first event that is not about the last transport is one after which the wrong are open. -/
theorem along_of_tracks (hall : ∀ before, before <+: events →
      ∃ s, run (onEvent opts serializer) empty before = .ok s ∧ Tracks before s) :
    Along (onEvent opts serializer) ConcernsLast empty events := by
  by_contra hnot
  obtain ⟨before, e, after, s, rfl, halong, hrun, hlast⟩ := exists_first_failure hnot
  obtain ⟨s₀, hrun₀, hinv⟩ := run_inv halong
  obtain rfl := Except.ok.inj (hrun.symm.trans hrun₀)
  have houtcome : Outcome opts serializer before s e := hinv.step e
  obtain ⟨s', hstep, -, -, htracks⟩ := houtcome
  obtain ⟨s'', hrun', htracks'⟩ := hall (before ++ [e]) ⟨after, by simp⟩
  rw [run_concat_of_run hrun, hstep] at hrun'
  obtain rfl := Except.ok.inj hrun'
  exact hlast (htracks.mp htracks')

/-! ### Main result -/

/-- **Every connection of a subscriber.** After each event exactly those transports are open that were
neither disconnected nor shut down since they were started, if and only if no transport but the last
is disconnected while the last is open, and none but the last is open at a shutdown. -/
theorem tracks_iff (opts : TCPOptions) (serializer : OptionsSerializer) (events : List Event) :
    (∀ before, before <+: events → ∃ s, run (onEvent opts serializer) empty before = .ok s ∧
      Tracks before s) ↔ Along (onEvent opts serializer) ConcernsLast empty events := by
  constructor
  · exact along_of_tracks
  · intro halong before hpre
    obtain ⟨s, hrun, hinv⟩ := run_inv (halong.of_prefix hpre)
    exact ⟨s, hrun, hinv.tracks⟩

/-- Two publishers, of which the first disconnects: the connection to the second is closed with it. -/
theorem first_disconnect_closes_second :
    ¬ ∀ before, before <+: [.start PubSub.idle, .start PubSub.idle, .disconnect 0] →
      ∃ s, run (onEvent TCPSubFactory.options PubSub.fieldwise) empty before = .ok s ∧
        Tracks before s := by
  intro hall
  have hlast := (((along_of_tracks hall).2 _ rfl).2 _ rfl).1
  exact absurd (hlast ⟨_, rfl, rfl⟩ 1 rfl ⟨_, rfl, rfl⟩) (by decide)

end SubscriberConnections

end Ros2Proto
