import Ros2Proto.Base.Assignment
import Ros2Proto.Services.Remote

/-!
# How far a call has come

A call asks, until its request has reached the server. It takes effect at that moment, if the server is
ready for it, and is answered from then on. `Inv` says of each connection how far its call has come, and
that the effects so far explain what the clients have seen. This module has what the server does to it.
-/

namespace Ros2Proto

open FallibleRun Linearizability

namespace RemoteCalls

variable {σ κ Request Response : Type}

/-- The call comes to nothing by this event: its request reaches a server that is not ready for it, or
its client loses the connection while it waits. -/
def Loses (s : RemoteCalls σ κ Request Response) (id : κ × Nat) : RemoteEvent κ Request Response → Prop
  | .request l => ∃ link ∈ s.links[l]?, link.id = id ∧ ∃ i ∈ link.peer,
      ∃ frames ∈ link.requests.head?, ∃ method ∈ frames.head?, ¬ s.server.Ready i method.payload
  | .lose l => ∃ link ∈ s.links[l]?, link.id = id ∧ ¬ (s.clients link.client).ClosedAt link.place
  | _ => False

instance [DecidableEq κ] (s : RemoteCalls σ κ Request Response) (id : κ × Nat) :
    DecidablePred (Loses s id)
  | .request l => inferInstanceAs (Decidable (∃ link ∈ s.links[l]?, link.id = id ∧ ∃ i ∈ link.peer,
      ∃ frames ∈ link.requests.head?, ∃ method ∈ frames.head?, ¬ s.server.Ready i method.payload))
  | .lose l => inferInstanceAs (Decidable (∃ link ∈ s.links[l]?, link.id = id ∧
      ¬ (s.clients link.client).ClosedAt link.place))
  | .start | .call .. | .send _ | .accept .. | .respond _ | .response _ | .hangUp _ =>
      inferInstanceAs (Decidable False)

/-- The messages that have not reached the server. -/
def asking (s : RemoteCalls σ κ Request Response) (link : CallLink κ) : List (List Frame) :=
  link.requests ++ (s.clients link.client).queueAt link.place

/-- The messages that were queued for the client. -/
def responses (s : RemoteCalls σ κ Request Response) (link : CallLink κ) : List (List Frame) :=
  link.peer.elim [] s.server.queuedAt

/-- The effects of calls, in order. -/
abbrev Effects (κ Request Response : Type) :=
  List (Effect (κ × Nat) (ServiceCall Request Response) (Except Fault Response))

/-- How far a call has come on its connection. Only the calls in `lost` may have come to nothing. -/
inductive Stage (lost : κ × Nat → Prop) (s : RemoteCalls σ κ Request Response) (order : Effects κ Request Response)
    (link : CallLink κ) (c : ServiceCall Request Response) : Prop
  | asks (hasking : s.asking link = [c.frames]) (hresponses : s.responses link = [])
      (hnew : link.id ∉ order.map Effect.id) (htaken : link.taken = 0)
  /-- the request never arrived, or was not answered -/
  | stops (hlost : lost link.id) (hasking : s.asking link = []) (hresponses : s.responses link = [])
      (hnew : link.id ∉ order.map Effect.id) (htaken : link.taken = 0)
  | answered (resp : List UInt8) (hasking : s.asking link = [])
      (hresponses : s.responses link = [[.ofBytes resp]])
      (heffect : ⟨link.id, c, c.read (framed resp)⟩ ∈ order)
      (htaken : link.taken = 0 ∨ (s.clients link.client).ClosedAt link.place)

/-- Every client has made its calls. -/
def Callers (clients : κ → MultiServiceClient Request Response)
    (history : List (CallMark κ Request Response)) : Prop :=
  ∀ k, ∃ made, MultiServiceClient.Caller made (clients k) ∧
    ∀ (i : Nat) (c : ServiceCall Request Response),
      made[i]? = some c ↔ Mark.call (k, i) c ∈ history

/-- Each of the first `count` transports of the server has at most one connection. -/
structure Peered (links : List (CallLink κ)) (count : Nat) : Prop where
  lt : ∀ link ∈ links, ∀ i, link.peer = some i → i < count
  inj : ∀ (l l' : Nat) (link link' : CallLink κ) i, links[l]? = some link → links[l']? = some link' →
    link.peer = some i → link'.peer = some i → l = l'

structure Inv (u : StartUp σ) (s₀ : σ) (lost : κ × Nat → Prop) (order : Effects κ Request Response)
    (s : RemoteCalls σ κ Request Response) : Prop where
  server : Server.Sound u s.server
  callers : Callers s.clients s.history
  ids : (s.links.map CallLink.id).Nodup
  peered : Peered s.links s.server.peers.length
  stage : ∀ (l : Nat) (link : CallLink κ), s.links[l]? = some link →
    ∃ c, Mark.call link.id c ∈ s.history ∧ Stage lost s order link c
  linearizes : Linearizes u.Performs s₀ s.history order s.server.state
  wellFormed : WellFormed s.history
  returned : ∀ k i res, Mark.ret (k, i) res ∈ s.history → (s.clients k).ClosedAt i
  settled : ∀ k i, (s.clients k).ClosedAt i →
    lost (k, i) ∨ ∃ res, Mark.ret (k, i) res ∈ s.history

variable {u : StartUp σ} {s₀ : σ} {lost : κ × Nat → Prop} {order order' : Effects κ Request Response}
  {s s' : RemoteCalls σ κ Request Response} {l : Nat} {link link' : CallLink κ}
  {c : ServiceCall Request Response} {k : κ} {i : Nat}
  {client : MultiServiceClient Request Response}

theorem inv_start (u : StartUp σ) (s₀ : σ) (lost : κ × Nat → Prop) :
    Inv u s₀ lost [] (start u s₀ : RemoteCalls σ κ Request Response) where
  server := Server.sound_starting u s₀
  callers k := ⟨[], MultiServiceClient.caller_empty, fun i c => by simp [start]⟩
  ids := .nil
  peered :=
    { lt := fun link hlink => by cases hlink
      inj := fun l l' link link' i hl => by cases hl }
  stage l link hl := by cases hl
  linearizes := linearizes_nil u.Performs s₀
  wellFormed := wellFormed_nil
  returned k i res h := by cases h
  settled k i h := by
    obtain ⟨t, ht, -⟩ := h
    cases ht

/-! ### What leaves a connection as it is -/

theorem Stage.frame (h : Stage lost s order link c) (hid : link'.id = link.id)
    (htaken : link'.taken = link.taken) (hasking : s'.asking link' = s.asking link)
    (hresponses : s'.responses link' = s.responses link)
    (hclosed : (s.clients link.client).ClosedAt link.place →
      (s'.clients link'.client).ClosedAt link'.place)
    (hsub : order ⊆ order') (hids : link.id ∈ order'.map Effect.id → link.id ∈ order.map Effect.id) :
    Stage lost s' order' link' c := by
  cases h with
  | asks hask hresp hnew hnone =>
      refine .asks (hasking.trans hask) (hresponses.trans hresp) (fun hmem => hnew (hids ?_))
        (htaken.trans hnone)
      rwa [← hid]
  | stops hlost hask hresp hnew hnone =>
      refine .stops ?_ (hasking.trans hask) (hresponses.trans hresp) (fun hmem => hnew (hids ?_))
        (htaken.trans hnone)
      · rwa [hid]
      · rwa [← hid]
  | answered resp hask hresp heffect hsome =>
      refine .answered resp (hasking.trans hask) (hresponses.trans hresp) (hsub ?_) ?_
      · rwa [hid]
      · rw [htaken]
        exact hsome.imp_right hclosed

theorem getElem?_concat_cases {α : Type} {xs : List α} {a b : α} {j : Nat}
    (h : (xs ++ [a])[j]? = some b) : xs[j]? = some b ∨ b = a := by
  rw [List.getElem?_append, List.getElem?_singleton] at h
  split_ifs at h
  · exact Or.inl h
  · exact Or.inr (Option.some.inj h).symm

/-- Two connections have different calls. -/
theorem Inv.id_ne (h : Inv u s₀ lost order s) {l' : Nat} (hl : s.links[l]? = some link)
    (hl' : s.links[l']? = some link') (hne : l' ≠ l) : link'.id ≠ link.id := by
  intro heq
  have hlt : l' < (s.links.map CallLink.id).length := by
    rw [List.length_map]
    exact (List.getElem?_eq_some_iff.mp hl').1
  apply hne
  apply (List.getElem?_inj hlt h.ids).mp
  rw [List.getElem?_map, List.getElem?_map, hl, hl', Option.map_some, Option.map_some, heq]

theorem map_id_set (hl : s.links[l]? = some link) (hid : link'.id = link.id) :
    (s.links.set l link').map CallLink.id = s.links.map CallLink.id := by
  apply List.ext_getElem?
  intro j
  rw [List.getElem?_map, List.getElem?_map]
  by_cases hj : l = j
  · subst hj
    rw [List.getElem?_set_self (List.getElem?_eq_some_iff.mp hl).1, hl, Option.map_some,
      Option.map_some, hid]
  · rw [List.getElem?_set_ne hj]

theorem Inv.ids_set (h : Inv u s₀ lost order s) (hl : s.links[l]? = some link)
    (hid : link'.id = link.id) : ((s.links.set l link').map CallLink.id).Nodup := by
  rw [map_id_set hl hid]
  exact h.ids

theorem Callers.mono {clients : κ → MultiServiceClient Request Response}
    {history history' : List (CallMark κ Request Response)} (h : Callers clients history)
    (hiff : ∀ id c, Mark.call id c ∈ history' ↔ Mark.call id c ∈ history) :
    Callers clients history' := by
  intro k
  obtain ⟨made, hcaller, hmade⟩ := h k
  exact ⟨made, hcaller, fun i c => (hmade i c).trans (hiff (k, i) c).symm⟩

theorem Peered.set {links : List (CallLink κ)} {count : Nat} (h : Peered links count)
    (hl : links[l]? = some link) (hpeer : link'.peer = link.peer) :
    Peered (links.set l link') count := by
  have hback : ∀ {j : Nat} {x : CallLink κ}, (links.set l link')[j]? = some x →
      ∃ y : CallLink κ, links[j]? = some y ∧ y.peer = x.peer := by
    intro j x hx
    rcases Assignment.getElem?_set_cases hx with ⟨rfl, rfl⟩ | ⟨-, hx⟩
    · exact ⟨link, hl, hpeer.symm⟩
    · exact ⟨x, hx, rfl⟩
  apply Peered.mk
  case lt =>
    intro x hx i hi
    obtain ⟨j, hj⟩ := List.getElem?_of_mem hx
    obtain ⟨y, hy, hsame⟩ := hback hj
    exact h.lt y (List.mem_of_getElem? hy) i (hsame.trans hi)
  case inj =>
    intro j j' x x' i hx hx' hi hi'
    obtain ⟨y, hy, hsame⟩ := hback hx
    obtain ⟨y', hy', hsame'⟩ := hback hx'
    exact h.inj j j' y y' i hy hy' (hsame.trans hi) (hsame'.trans hi')

/-! ### What an event does -/

/-- What the server does besides answering requests. -/
theorem Inv.idles (h : Inv u s₀ lost order s) {server : Server σ} (hsound : Server.Sound u server)
    (hidles : Server.Idles s.server server) (hlength : server.peers.length = s.server.peers.length) :
    Inv u s₀ lost order { s with server := server } where
  server := hsound
  callers := h.callers
  ids := h.ids
  peered := by
    rw [hlength]
    exact h.peered
  stage l link hl := by
    obtain ⟨c, hc, hstage⟩ := h.stage l link hl
    refine ⟨c, hc, hstage.frame rfl rfl rfl ?_ id (List.Subset.refl order) id⟩
    rw [responses, responses]
    cases link.peer with
    | none => rfl
    | some i => exact hidles.queue i
  linearizes := by
    rw [hidles.state]
    exact h.linearizes
  wellFormed := h.wellFormed
  returned := h.returned
  settled := h.settled

/-- A call that is made is at a place of its own. -/
theorem Inv.call_new (h : Inv u s₀ lost order s) (k : κ) (c' : ServiceCall Request Response) :
    Mark.call (k, (s.clients k).transports.length) c' ∉ s.history := by
  obtain ⟨made, hcaller, hmade⟩ := h.callers k
  rw [hcaller.length, ← hmade, List.getElem?_eq_none (Nat.le_refl _)]
  intro hnone
  cases hnone

/-- An effect is that of a call that was made. -/
theorem Inv.not_effect (h : Inv u s₀ lost order s) {id : κ × Nat}
    (hnew : ∀ c, Mark.call id c ∉ s.history) : id ∉ order.map Effect.id := by
  intro hmem
  obtain ⟨e, he, rfl⟩ := List.mem_map.mp hmem
  exact hnew e.op (h.linearizes.called e he)

theorem written_prefix (s : RemoteCalls σ κ Request Response) (link : CallLink κ) :
    s.written link <+: s.responses link := by
  rw [written, responses]
  cases link.peer with
  | none => exact List.prefix_rfl
  | some i =>
      show (s.server.peers[i]?).elim [] Peer.written <+: (s.server.peers[i]?).elim [] Peer.queued
      cases s.server.peers[i]? with
      | none => exact List.prefix_rfl
      | some peer => exact List.prefix_append ..

/-- The message that reaches a client is the response to its call. -/
theorem Stage.response (h : Stage lost s order link c) {frames : List Frame}
    (hframes : (s.written link)[link.taken]? = some frames) :
    ∃ resp, frames = [.ofBytes resp] ∧ s.asking link = [] ∧ s.responses link = [[.ofBytes resp]] ∧
      ⟨link.id, c, c.read (framed resp)⟩ ∈ order ∧ link.taken = 0 := by
  have hresp : (s.responses link)[link.taken]? = some frames := by
    obtain ⟨rest, hrest⟩ := s.written_prefix link
    rw [← hrest, List.getElem?_append_left (List.getElem?_eq_some_iff.mp hframes).1, hframes]
  cases h with
  | asks _ hnone _ _ =>
      rw [hnone] at hresp
      cases hresp
  | stops _ _ hnone _ _ =>
      rw [hnone] at hresp
      cases hresp
  | answered resp hask hone heffect _ =>
      rw [hone, List.getElem?_singleton] at hresp
      split_ifs at hresp with htaken
      obtain rfl := Option.some.inj hresp
      exact ⟨resp, rfl, hask, hone, heffect, htaken⟩

/-- The responses are those of the server's transport. -/
theorem responses_congr (hpeer : link'.peer = link.peer)
    (hqueue : ∀ i, link.peer = some i → s'.server.queuedAt i = s.server.queuedAt i) :
    s'.responses link' = s.responses link := by
  rw [responses, responses, hpeer]
  cases hlink : link.peer with
  | none => rfl
  | some i => exact hqueue i hlink

theorem Inv.onAccept (h : Inv u s₀ lost order s) (hl : s.links[l]? = some link) (e : Endpoint) :
    ∃ s', s.onAccept u l link e = .ok s' ∧ Inv u s₀ lost order s' := by
  rw [RemoteCalls.onAccept]
  split_ifs with hcond
  · exact ⟨s, rfl, h⟩
  · obtain ⟨hnone, hlistening⟩ : link.peer = none ∧ s.server.manager.listening = true := by
      simpa using hcond
    obtain ⟨server, hrun, hsound, hidles, hlength⟩ := h.server.idles_onAccept hlistening e
    refine ⟨_, bind_eq_ok_iff.mpr ⟨_, hrun, rfl⟩, ?_⟩
    apply Inv.mk
    case server => exact hsound
    case callers => exact h.callers
    case ids => exact h.ids_set hl rfl
    case peered =>
      show Peered (s.links.set l _) server.peers.length
      rw [hlength]
      apply Peered.mk
      case lt =>
        intro x hx i hi
        rcases List.mem_or_eq_of_mem_set hx with hx | rfl
        · exact Nat.lt_succ_of_lt (h.peered.lt x hx i hi)
        · obtain rfl := Option.some.inj hi
          exact Nat.lt_succ_self _
      case inj =>
        -- The new transport is none of those before it.
        have hfresh : ∀ (j : Nat) (x : CallLink κ), s.links[j]? = some x →
            x.peer ≠ some s.server.peers.length := by
          intro j x hx hpeer
          exact Nat.lt_irrefl _ (h.peered.lt x (List.mem_of_getElem? hx) _ hpeer)
        intro j j' x x' i hx hx' hi hi'
        rcases Assignment.getElem?_set_cases hx with ⟨hj, rfl⟩ | ⟨-, hold⟩ <;>
          rcases Assignment.getElem?_set_cases hx' with ⟨hj', rfl⟩ | ⟨-, hold'⟩
        · rw [hj, hj']
        · exact absurd (hi'.trans hi.symm) (hfresh j' x' hold')
        · exact absurd (hi.trans hi'.symm) (hfresh j x hold)
        · exact h.peered.inj j j' x x' i hold hold' hi hi'
    case stage =>
      intro j other hj
      rcases Assignment.getElem?_set_cases hj with ⟨rfl, rfl⟩ | ⟨-, hj⟩
      · obtain ⟨c, hc, hstage⟩ := h.stage j link hl
        refine ⟨c, hc, hstage.frame rfl rfl rfl ?_ id (List.Subset.refl order) id⟩
        show server.queuedAt s.server.peers.length = s.responses link
        rw [hidles.queue, Server.queuedAt, List.getElem?_eq_none (Nat.le_refl _), responses, hnone]
        rfl
      · obtain ⟨c, hc, hstage⟩ := h.stage j other hj
        refine ⟨c, hc, hstage.frame rfl rfl rfl ?_ id (List.Subset.refl order) id⟩
        exact responses_congr rfl fun i _ => hidles.queue i
    case linearizes =>
      show Linearizes u.Performs s₀ s.history order server.state
      rw [hidles.state]
      exact h.linearizes
    case wellFormed => exact h.wellFormed
    case returned => exact h.returned
    case settled => exact h.settled

/-- The message that reaches the server is that of its call, which has had no effect yet. -/
theorem Stage.request (h : Stage lost s order link c) {frames : List Frame} {rest : List (List Frame)}
    (hrequests : link.requests = frames :: rest) :
    frames = c.frames ∧ rest = [] ∧ (s.clients link.client).queueAt link.place = [] ∧
      s.responses link = [] ∧ link.id ∉ order.map Effect.id ∧ link.taken = 0 := by
  cases h with
  | asks hask hresp hnew htaken =>
      rw [asking, hrequests, List.cons_append, List.cons.injEq] at hask
      obtain ⟨hrest, hqueue⟩ := List.append_eq_nil_iff.mp hask.2
      exact ⟨hask.1, hrest, hqueue, hresp, hnew, htaken⟩
  | stops _ hask _ _ _ =>
      rw [asking, hrequests] at hask
      cases hask
  | answered _ hask _ _ _ =>
      rw [asking, hrequests] at hask
      cases hask

/-- A message has reached the server, and at most the call it belongs to has had an effect. -/
theorem Inv.request_step (h : Inv u s₀ lost order s) (hl : s.links[l]? = some link) {i : Nat}
    (hi : link.peer = some i) {server : Server σ} (hsound : Server.Sound u server)
    (hlength : server.peers.length = s.server.peers.length)
    (hother : ∀ j, j ≠ i → server.queuedAt j = s.server.queuedAt j)
    {effects : Effects κ Request Response} (heffects : ∀ e ∈ effects, e.id = link.id)
    (hlinearizes : Linearizes u.Performs s₀ s.history (order ++ effects) server.state)
    (hstage : ∃ c, Mark.call link.id c ∈ s.history ∧
      Stage lost { s with links := s.links.set l { link with requests := [] }, server := server }
        (order ++ effects) { link with requests := [] } c) :
    Inv u s₀ lost (order ++ effects)
      { s with links := s.links.set l { link with requests := [] }, server := server } where
  server := hsound
  callers := h.callers
  ids := h.ids_set hl rfl
  peered := by
    show Peered (s.links.set l _) server.peers.length
    rw [hlength]
    exact h.peered.set hl rfl
  stage j other hj := by
    rcases Assignment.getElem?_set_cases hj with ⟨rfl, rfl⟩ | ⟨hne, hj⟩
    · exact hstage
    · obtain ⟨c, hc, hothers⟩ := h.stage j other hj
      refine ⟨c, hc, hothers.frame rfl rfl rfl ?_ id (List.subset_append_left ..) ?_⟩
      · apply responses_congr rfl
        intro i' hi'
        apply hother
        rintro rfl
        exact hne (h.peered.inj j l other link i' hj hl hi' hi)
      · intro hmem
        rw [List.map_append] at hmem
        rcases List.mem_append.mp hmem with hmem | hmem
        · exact hmem
        · obtain ⟨e, he, hid⟩ := List.mem_map.mp hmem
          exact absurd (hid.symm.trans (heffects e he)) (h.id_ne hl hj hne)
  linearizes := hlinearizes
  wellFormed := h.wellFormed
  returned := h.returned
  settled := h.settled

theorem Inv.onRequest (h : Inv u s₀ lost order s) (hl : s.links[l]? = some link)
    (hlost : ∀ i method req rest, link.peer = some i → link.requests = [method, req] :: rest →
      ¬ s.server.Ready i method.payload → lost link.id) :
    Ends (fun s' => ∃ order', Inv u s₀ lost order' s')
      (fun f => ∃ id c, Mark.call id c ∈ s.history ∧ u.Fails c f) (s.onRequest l link) := by
  rw [RemoteCalls.onRequest]
  split
  · rename_i i frames rest hi hrequests
    obtain ⟨c, hc, hstage⟩ := h.stage l link hl
    obtain ⟨rfl, rfl, hqueue, hresp, hnew, htaken⟩ := hstage.request hrequests
    have hnone : s.server.queuedAt i = [] := by
      rw [responses, hi] at hresp
      exact hresp
    have htreats : Ends _ (fun f => ∃ id c, Mark.call id c ∈ s.history ∧ u.Fails c f)
        (s.server.onMessage i c.frames) :=
      (h.server.treats i (.ofBytes c.method) (.ofBytes (c.write c.request))).mono_fault
        fun f hf => ⟨link.id, c, hc, Or.inl hf⟩
    apply htreats.bind
    intro server hserver
    obtain ⟨hsound, htreat, hlength⟩ := hserver
    cases htreat with
    | ignores hlate hstate hsame =>
        refine ⟨order ++ [], ?_⟩
        apply h.request_step hl hi hsound hlength (fun j _ => hsame j)
        · intro e he
          cases he
        · rw [hstate, List.append_nil]
          exact h.linearizes
        · refine ⟨c, hc, .stops (hlost i _ _ [] hi hrequests hlate) hqueue ?_ ?_ htaken⟩
          · show (link.peer).elim [] server.queuedAt = []
            rw [hi]
            exact (hsame i).trans hnone
          · rw [List.append_nil]
            exact hnew
    | answers cb resp hhandler hcb hmore =>
        refine ⟨order ++ [⟨link.id, c, c.read (framed resp)⟩], ?_⟩
        apply h.request_step hl hi hsound hlength
        · intro j hj
          rw [hmore, if_neg (Ne.symm hj), List.append_nil]
        · intro e he
          rw [List.mem_singleton.mp he]
        · exact h.linearizes.effect hc hnew ⟨cb, resp, hhandler, hcb, rfl⟩
        · refine ⟨c, hc, .answered resp hqueue ?_ (List.mem_append_right _ (List.mem_singleton_self _))
            (Or.inl htaken)⟩
          show (link.peer).elim [] server.queuedAt = _
          rw [hi]
          show server.queuedAt i = _
          rw [hmore, if_pos rfl, hnone]
          rfl
  · exact ⟨order, h⟩

theorem Inv.onServer (h : Inv u s₀ lost order s) {f : Server σ → Nat → Except Fault (Server σ)}
    (hf : ∀ i, ∃ server, f s.server i = .ok server ∧ Server.Sound u server ∧
      Server.Idles s.server server ∧ server.peers.length = s.server.peers.length) :
    ∃ s', s.onServer link f = .ok s' ∧ Inv u s₀ lost order s' := by
  rw [RemoteCalls.onServer]
  split
  · exact ⟨s, rfl, h⟩
  · rename_i i _
    obtain ⟨server, hrun, hsound, hidles, hlength⟩ := hf i
    exact ⟨_, bind_eq_ok_iff.mpr ⟨_, hrun, rfl⟩, h.idles hsound hidles hlength⟩

end RemoteCalls

end Ros2Proto
