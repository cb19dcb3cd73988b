import Mathlib.Logic.Relation
import Ros2Proto.PubSub.Shutdown

/-!
# The callbacks of a publisher

The threads of a publisher keep its transports apart from its connections, as a thread has a transport in
its hands before it is listed and after it is erased. What they call is `TCPPublish` all the same: for every
run of the threads there is a `TCPPublish` with the same connections, on which nothing but its own functions
was called, and whose transports were closed where the threads closed them.
-/

namespace Ros2Proto

open FallibleRun

/-- A callback of a publisher, or `close` of one of its transports. -/
inductive PublisherStep (serializer : OptionsSerializer) (p : TCPPublish) : TCPPublish → Prop
  | accept {p' : TCPPublish} (t : TransportTCP) (hrun : p.onAccept t = .ok p') :
      PublisherStep serializer p p'
  | options {p' : TCPPublish} (k : Nat) (opts : TCPOptions)
      (hrun : p.onOptions serializer k [.ofBytes (serializer.write opts)] = .ok p') :
      PublisherStep serializer p p'
  | close {p' : TCPPublish} (k : Nat) (hrun : p.onTransport k TransportTCP.close = .ok p') :
      PublisherStep serializer p p'
  | disconnect (k : Nat) : PublisherStep serializer p (p.onDisconnect k)

namespace PublisherThreads

/-- The connections of `p` are the listed ones, each with its transport. -/
structure Represents (p : TCPPublish) (transports : List TransportTCP)
    (connections : List ConnectionEntry) : Prop where
  length_eq : p.connections.length = connections.length
  places : ∀ (k : Nat) (entry : ConnectionEntry), connections[k]? = some entry →
    ∃ t, transports[entry.tcp]? = some t ∧ p.connections[k]? = some ⟨t, entry.setup, entry.opts⟩

variable {serializer : OptionsSerializer} {p : TCPPublish} {s s' : PublisherThreads}
  {transports : List TransportTCP} {connections : List ConnectionEntry} {entry : ConnectionEntry}
  {t t' : TransportTCP} {i k : Nat}

/-! ### Places -/

/-- No two connections have the same transport. -/
theorem place_eq (hnodup : (connections.map ConnectionEntry.tcp).Nodup)
    {a b : ConnectionEntry} {j : Nat} (hj : connections[j]? = some a) (hk : connections[k]? = some b)
    (htcp : a.tcp = b.tcp) : j = k := by
  have hlt : j < (connections.map ConnectionEntry.tcp).length := by
    rw [List.length_map]
    exact (List.getElem?_eq_some_iff.mp hj).1
  apply (List.getElem?_inj hlt hnodup).mp
  rw [List.getElem?_map, List.getElem?_map, hj, hk]
  exact congrArg some htcp

/-- What changes the connection with a transport changes one place. -/
theorem map_eq_set (hnodup : (connections.map ConnectionEntry.tcp).Nodup) (hk : connections[k]? = some entry)
    (changed : ConnectionEntry) :
    (connections.map fun conn => if conn.tcp = entry.tcp then changed else conn) =
      connections.set k changed := by
  apply List.ext_getElem?
  intro j
  rw [List.getElem?_map, List.getElem?_set]
  by_cases hjk : k = j
  · obtain rfl := hjk
    rw [if_pos rfl, if_pos (List.getElem?_eq_some_iff.mp hk).1, hk, Option.map_some, if_pos rfl]
  · rw [if_neg hjk]
    cases hj : connections[j]? with
    | none => rfl
    | some other =>
        have hne : other.tcp ≠ entry.tcp := fun heq => hjk (place_eq hnodup hj hk heq).symm
        rw [Option.map_some, if_neg hne]

/-- A transport that is not listed may become another. -/
theorem Represents.elsewhere (h : Represents p transports connections)
    (hi : i ∉ connections.map ConnectionEntry.tcp) (t' : TransportTCP) :
    Represents p (transports.set i t') connections where
  length_eq := h.length_eq
  places k entry hk := by
    have hne : i ≠ entry.tcp := by
      rintro rfl
      exact hi (List.mem_map_of_mem (List.mem_of_getElem? hk))
    rw [List.getElem?_set_ne hne]
    exact h.places k entry hk

/-- A connection and its transport become others. -/
theorem Represents.set (h : Represents p transports connections)
    (hnodup : (connections.map ConnectionEntry.tcp).Nodup) (hk : connections[k]? = some entry)
    (t' : TransportTCP) (setup : Bool) (opts : TCPOptions) :
    Represents ⟨p.connections.set k ⟨t', setup, opts⟩⟩ (transports.set entry.tcp t')
      (connections.set k ⟨entry.tcp, setup, opts⟩) where
  length_eq := by
    rw [List.length_set, List.length_set]
    exact h.length_eq
  places j other hj := by
    obtain ⟨t, ht, hp⟩ := h.places k entry hk
    rcases Assignment.getElem?_set_cases hj with ⟨rfl, rfl⟩ | ⟨hjk, hj⟩
    · exact ⟨t', Assignment.getElem?_set_place ht t', Assignment.getElem?_set_place hp _⟩
    · have hne : entry.tcp ≠ other.tcp := fun heq => hjk (place_eq hnodup hk hj heq).symm
      rw [List.getElem?_set_ne hne]
      show ∃ t, _ ∧ (p.connections.set k _)[j]? = _
      rw [List.getElem?_set_ne (Ne.symm hjk)]
      exact h.places j other hj

/-- A listed transport is closed. -/
theorem Represents.close (h : Represents p transports connections)
    (hnodup : (connections.map ConnectionEntry.tcp).Nodup) (hi : transports[i]? = some t)
    (hclose : t.close = .ok t') : ∃ p', Relation.ReflTransGen (PublisherStep serializer) p p' ∧
      Represents p' (transports.set i t') connections := by
  by_cases hlisted : i ∈ connections.map ConnectionEntry.tcp
  · obtain ⟨entry, hentry, rfl⟩ := List.mem_map.mp hlisted
    obtain ⟨k, hk⟩ := List.getElem?_of_mem hentry
    obtain ⟨u, hu, hp⟩ := h.places k entry hk
    obtain rfl := Option.some.inj (hi.symm.trans hu)
    have hrun : p.onTransport k TransportTCP.close =
        .ok ⟨p.connections.set k ⟨t', entry.setup, entry.opts⟩⟩ := by
      rw [TCPPublish.onTransport, hp]
      show t.close.bind _ = _
      rw [hclose]
      rfl
    refine ⟨_, .single (.close k hrun), ?_⟩
    have hsame : connections.set k entry = connections := by
      obtain ⟨hlt, hget⟩ := List.getElem?_eq_some_iff.mp hk
      rw [← hget, List.set_getElem_self]
    have hset := h.set hnodup hk t' entry.setup entry.opts
    rwa [hsame] at hset
  · exact ⟨p, .refl, h.elsewhere hlisted t'⟩

/-! ### The callbacks -/

theorem Represents.onAccept (h : Represents p s.transports s.connections) (hi : s.transports[i]? = some t)
    (hnew : i ∉ s.ids) (hrun : s.onAccept i t = .ok s') : ∃ p', p.onAccept t = .ok p' ∧
      Represents p' s'.transports s'.connections := by
  obtain ⟨t', henable, hlast⟩ := bind_eq_ok_iff.mp hrun
  obtain rfl := Except.ok.inj hlast
  refine ⟨⟨p.connections ++ [⟨t'.setMsgCallback, false, ⟨false, 0, 0⟩⟩]⟩, ?_, ?_, ?_⟩
  · rw [TCPPublish.onAccept, henable]
    rfl
  · show (p.connections ++ [_]).length = (s.connections ++ [_]).length
    rw [List.length_append, List.length_append, h.length_eq]
    rfl
  · intro k entry hk
    have hold := (h.elsewhere hnew t'.setMsgCallback).places k entry
    replace hk : (s.connections ++ [_])[k]? = some entry := hk
    show ∃ u, _ ∧ (p.connections ++ [_])[k]? = _
    rcases Nat.lt_or_ge k s.connections.length with hlt | hge
    · rw [List.getElem?_append_left hlt] at hk
      rw [List.getElem?_append_left (h.length_eq ▸ hlt)]
      exact hold hk
    · rw [List.getElem?_append_right hge, List.getElem?_singleton] at hk
      split_ifs at hk with hzero
      obtain rfl := Option.some.inj hk
      rw [List.getElem?_append_right (h.length_eq ▸ hge), h.length_eq, hzero]
      exact ⟨_, Assignment.getElem?_set_place hi _, rfl⟩

/-- The connection whose options arrive is set up, or was never listed. -/
theorem Represents.onOptions (h : Represents p s.transports s.connections) (hnodup : s.ids.Nodup)
    (hi : s.transports[i]? = some t) {opts : TCPOptions} (hrun : s.onOptions i t opts = .ok s') :
    ∃ p', Relation.ReflTransGen (PublisherStep serializer) p p' ∧
      Represents p' s'.transports s'.connections := by
  obtain ⟨t₁, hdisable, hrest⟩ := bind_eq_ok_iff.mp hrun
  cases hfind : s.connections.find? fun conn => conn.tcp = i with
  | none =>
      rw [hfind] at hrest
      obtain rfl := Except.ok.inj hrest
      have hnone : i ∉ s.ids := by
        intro hlisted
        obtain ⟨entry, hentry, htcp⟩ := List.mem_map.mp hlisted
        exact List.find?_eq_none.mp hfind entry hentry (decide_eq_true htcp)
      exact ⟨p, .refl, h.elsewhere hnone t₁⟩
  | some entry =>
      rw [hfind] at hrest
      obtain rfl : entry.tcp = i := by simpa using List.find?_some hfind
      obtain ⟨k, hk⟩ := List.getElem?_of_mem (List.mem_of_find?_eq_some hfind)
      replace hrest : (if entry.setup = true then _ else _) = Except.ok s' := hrest
      split_ifs at hrest with hsetup
      obtain ⟨t₂, hfilter, hlast⟩ := bind_eq_ok_iff.mp hrest
      obtain rfl := Except.ok.inj hlast
      obtain ⟨u, hu, hp⟩ := h.places k entry hk
      obtain rfl := Option.some.inj (hi.symm.trans hu)
      have hstep : p.onOptions serializer k [.ofBytes (serializer.write opts)] =
          .ok ⟨p.connections.set k ⟨t₂, true, opts⟩⟩ := by
        rw [TCPPublish.onOptions, hp]
        refine bind_eq_ok_iff.mpr ⟨t₁, hdisable, ?_⟩
        dsimp only
        rw [if_neg hsetup]
        have hread := TCPPublish.read_ofBytes_write serializer opts
        exact bind_eq_ok_iff.mpr ⟨opts, hread, bind_eq_ok_iff.mpr ⟨t₂, hfilter, rfl⟩⟩
      refine ⟨_, .single (.options k opts hstep), ?_⟩
      show Represents _ _ (s.connections.map _)
      rw [map_eq_set hnodup hk]
      exact h.set hnodup hk t₂ true opts

theorem Represents.onDisconnect (h : Represents p s.transports s.connections) (i : Nat) :
    ∃ p', Relation.ReflTransGen (PublisherStep serializer) p p' ∧
      Represents p' s.transports (s.onDisconnect i).connections := by
  rw [PublisherThreads.onDisconnect, List.eraseP_eq_eraseIdx]
  cases s.connections.findIdx? fun conn => conn.tcp = i with
  | none => exact ⟨p, .refl, h⟩
  | some k =>
      refine ⟨_, .single (.disconnect k), ?_, ?_⟩
      · show (p.connections.eraseIdx k).length = (s.connections.eraseIdx k).length
        rw [List.length_eraseIdx, List.length_eraseIdx, h.length_eq]
      · intro j entry hj
        show ∃ t, _ ∧ (p.connections.eraseIdx k)[j]? = _
        rw [List.getElem?_eraseIdx] at hj ⊢
        split_ifs at hj ⊢ with hjk
        · exact h.places j entry hj
        · exact h.places (j + 1) entry hj

/-! ### The steps of the threads -/

/-- Some `TCPPublish` that was called the same way has the listed connections. -/
def Shares (serializer : OptionsSerializer) (s : PublisherThreads) : Prop :=
  ∃ p, Relation.ReflTransGen (PublisherStep serializer) ⟨[]⟩ p ∧
    Represents p s.transports s.connections

theorem Shares.calls (h : s.Shares serializer)
    (hstep : ∀ p, Represents p s.transports s.connections →
      ∃ p', Relation.ReflTransGen (PublisherStep serializer) p p' ∧
        Represents p' s'.transports s'.connections) : s'.Shares serializer := by
  obtain ⟨p, hsteps, hp⟩ := h
  obtain ⟨p', hmore, hp'⟩ := hstep p hp
  exact ⟨p', hsteps.trans hmore, hp'⟩

theorem Shares.onShutdown (h : s.Shares serializer) (hnodup : s.ids.Nodup)
    (hrun : s.onShutdown = .ok s') : s'.Shares serializer := by
  have hclose : ∀ i t rest, s.transports[i]? = some t → onShutdown.closeCopy s i t rest = .ok s' →
      s'.Shares serializer := by
    intro i t rest hi hrun
    obtain ⟨t', hclose, hlast⟩ := bind_eq_ok_iff.mp hrun
    obtain rfl := Except.ok.inj hlast
    exact h.calls fun p hp => hp.close hnodup hi hclose
  rw [PublisherThreads.onShutdown] at hrun
  split at hrun
  · exact Except.ok.inj hrun ▸ h
  · split at hrun <;> exact Except.ok.inj hrun ▸ h
  · split at hrun
    · cases hrun
    · rename_i t hi
      split_ifs at hrun
      · exact Except.ok.inj hrun ▸ h
      · split at hrun
        · split_ifs at hrun
          · exact Except.ok.inj hrun ▸ h
          · exact hclose _ t _ hi hrun
        · exact hclose _ t _ hi hrun
  · obtain rfl := Except.ok.inj hrun
    exact h.calls fun p hp => hp.onDisconnect _
  · exact Except.ok.inj hrun ▸ h

theorem Shares.onCallback (h : s.Shares serializer) (hinv : s.view.Inv)
    (hrun : s.onCallback = .ok s') : s'.Shares serializer := by
  rw [PublisherThreads.onCallback] at hrun
  split at hrun
  · exact Except.ok.inj hrun ▸ h
  · rename_i i hpoll
    split at hrun
    · cases hrun
    · rename_i t hi
      obtain ⟨s₁, haccept, hlast⟩ := bind_eq_ok_iff.mp hrun
      obtain rfl := Except.ok.inj hlast
      apply h.calls
      intro p hp
      obtain ⟨p', hstep, hp'⟩ := hp.onAccept hi (hinv.fresh i hpoll).1 haccept
      exact ⟨p', .single (.accept t hstep), hp'⟩
  · split at hrun
    · cases hrun
    · rename_i t hi
      obtain ⟨s₁, hoptions, hlast⟩ := bind_eq_ok_iff.mp hrun
      obtain rfl := Except.ok.inj hlast
      have hsame : s₁.Shares serializer :=
        h.calls fun p hp => hp.onOptions hinv.nodup hi hoptions
      exact hsame
  · obtain rfl := Except.ok.inj hrun
    exact h.calls fun p hp => hp.onDisconnect _

/-- A transport that `accept` adds is in no connection yet. -/
theorem Represents.append (h : Represents p transports connections) (t : TransportTCP) :
    Represents p (transports ++ [t]) connections where
  length_eq := h.length_eq
  places k entry hk := by
    obtain ⟨u, hu, hp⟩ := h.places k entry hk
    exact ⟨u, List.getElem?_append_left (List.getElem?_eq_some_iff.mp hu).1 ▸ hu, hp⟩

theorem Shares.onEvent (h : s.Shares serializer) (hinv : s.view.Inv) {e : ThreadEvent}
    (hrun : s.onEvent e = .ok s') : s'.Shares serializer := by
  cases e with
  | shutdown => exact h.onShutdown hinv.nodup hrun
  | callback => exact h.onCallback hinv hrun
  | accept e nonBlocking =>
      rw [PublisherThreads.onEvent] at hrun
      split at hrun
      · by_cases hserver : s.serverClosed = true
        · rw [if_pos hserver] at hrun
          exact Except.ok.inj hrun ▸ h
        · rw [if_neg hserver] at hrun
          obtain ⟨t, -, hlast⟩ := bind_eq_ok_iff.mp hrun
          obtain rfl := Except.ok.inj hlast
          exact h.calls fun p hp => ⟨p, .refl, hp.append t⟩
      · exact Except.ok.inj hrun ▸ h
  | options i opts =>
      rw [PublisherThreads.onEvent] at hrun
      split at hrun
      · split_ifs at hrun <;> exact Except.ok.inj hrun ▸ h
      · exact Except.ok.inj hrun ▸ h
  | drop i =>
      rw [PublisherThreads.onEvent] at hrun
      split at hrun
      · rename_i t _ hi
        split_ifs at hrun
        · exact Except.ok.inj hrun ▸ h
        · obtain ⟨t', hclose, hlast⟩ := bind_eq_ok_iff.mp hrun
          obtain rfl := Except.ok.inj hlast
          exact h.calls fun p hp => hp.close hinv.nodup hi hclose
      · exact Except.ok.inj hrun ▸ h

/-- **What the threads call is `TCPPublish`.** After any run of the threads the listed connections, each with
its transport, are those of a `TCPPublish` on which only `onAccept`, `onOptions` and `onDisconnect` were
called, and whose transports were closed by `close`. -/
theorem shares_run (serializer : OptionsSerializer) {events : List ThreadEvent}
    (hrun : run onEvent empty events = .ok s) : s.Shares serializer := by
  have hempty : empty.view.Inv ∧ empty.Bound ∧ empty.Shares serializer :=
    ⟨inv_empty.1, inv_empty.2, ⟨[]⟩, .refl, rfl, fun _ _ hk => absurd hk (by simp [empty])⟩
  have hall := run_preserves
    (I := fun s : PublisherThreads => s.view.Inv ∧ s.Bound ∧ s.Shares serializer) ?_ hempty hrun
  · exact hall.2.2
  · rintro s e s' ⟨hinv, hbound, hshares⟩ hstep
    obtain ⟨hinv', hbound'⟩ := onEvent_keeps hinv hbound hstep
    exact ⟨hinv', hbound', hshares.onEvent hinv hstep⟩

end PublisherThreads

end Ros2Proto
