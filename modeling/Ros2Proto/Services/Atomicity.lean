import Ros2Proto.Services.Stages

/-!
# Calls take effect one at a time

The clients of a server see it as one object: the calls that take effect do so one after another, in the
order in which their requests arrive, and every response is the one that this order gives. A call takes
effect when its request leaves the connection, which is after it was made and before its response can
return.
-/

namespace Ros2Proto

open FallibleRun Linearizability

namespace RemoteCalls

variable {σ κ Request Response : Type} [DecidableEq κ]
  {u : StartUp σ} {s₀ : σ} {lost : κ × Nat → Prop} {order order' : Effects κ Request Response}
  {s s' : RemoteCalls σ κ Request Response} {l : Nat} {link link' : CallLink κ}
  {c : ServiceCall Request Response} {k : κ} {i : Nat}
  {client : MultiServiceClient Request Response}

/-! ### The clients -/

/-- One client changes, and of its transports only the one at place `i`. -/
theorem update_at {α : Type} (f : MultiServiceClient Request Response → Nat → α)
    (hother : ∀ j, j ≠ i → f client j = f (s.clients k) j) {k' : κ} {j : Nat}
    (hid : (k', j) ≠ (k, i)) :
    f (Function.update s.clients k client k') j = f (s.clients k') j := by
  by_cases hk : k' = k
  · subst hk
    rw [Function.update_self]
    apply hother
    intro hj
    exact hid (by rw [hj])
  · rw [Function.update_of_ne hk]

theorem Callers.update (h : Callers s.clients s.history) (k : κ) :
    ∃ made, MultiServiceClient.Caller made (s.clients k) ∧
      (∀ (i : Nat) (c : ServiceCall Request Response),
        made[i]? = some c ↔ Mark.call (k, i) c ∈ s.history) ∧
      ∀ client, MultiServiceClient.Caller made client →
        Callers (Function.update s.clients k client) s.history := by
  obtain ⟨made, hcaller, hmade⟩ := h k
  refine ⟨made, hcaller, hmade, fun client hclient k' => ?_⟩
  by_cases hk : k' = k
  · subst hk
    exact ⟨made, by rwa [Function.update_self], hmade⟩
  · rw [Function.update_of_ne hk]
    exact h k'

/-- The calls of a client that makes one more. -/
theorem Callers.call (h : Callers s.clients s.history) (k : κ) (c : ServiceCall Request Response) :
    ∃ client, (s.clients k).call c = .ok client ∧
      Callers (Function.update s.clients k client)
        (s.history ++ [.call (k, (s.clients k).transports.length) c]) ∧
      (∀ j, client.queueAt j
        = if j = (s.clients k).transports.length then [c.frames] else (s.clients k).queueAt j) ∧
      ∀ j, client.ClosedAt j ↔ (s.clients k).ClosedAt j := by
  obtain ⟨made, hcaller, hmade⟩ := h k
  obtain ⟨client, hrun, hcaller', hqueue, hclosed⟩ := hcaller.call c
  rw [hcaller.length]
  refine ⟨client, hrun, fun k' => ?_, hqueue, hclosed⟩
  by_cases hk : k' = k
  · subst hk
    rw [Function.update_self]
    refine ⟨made ++ [c], hcaller', fun i c' => ?_⟩
    rw [List.mem_append, ← hmade, List.mem_singleton, Mark.call.injEq, Prod.mk.injEq]
    rcases Nat.lt_trichotomy i made.length with hlt | rfl | hgt
    · rw [List.getElem?_append_left hlt]
      simp [Nat.ne_of_lt hlt]
    · rw [List.getElem?_concat_length, List.getElem?_eq_none (Nat.le_refl _)]
      simp [eq_comm]
    · rw [List.getElem?_eq_none (by simp; omega), List.getElem?_eq_none (Nat.le_of_lt hgt)]
      simp [Nat.ne_of_gt hgt]
  · rw [Function.update_of_ne hk]
    obtain ⟨made', hcaller'', hmade'⟩ := h k'
    refine ⟨made', hcaller'', fun i c' => ?_⟩
    rw [hmade', List.mem_append, List.mem_singleton]
    simp [hk]

theorem Inv.onCall (h : Inv u s₀ lost order s) (k : κ) (c : ServiceCall Request Response) :
    ∃ s', s.onCall k c = .ok s' ∧ Inv u s₀ lost order s' := by
  obtain ⟨client, hrun, hcallers, hqueue, hclosed⟩ := h.callers.call k c
  have hnew := h.call_new k
  rw [RemoteCalls.onCall]
  refine ⟨_, bind_eq_ok_iff.mpr ⟨client, hrun, rfl⟩, ?_⟩
  have hkeeps : ∀ (k' : κ) (j : Nat),
      (Function.update s.clients k client k').ClosedAt j ↔ (s.clients k').ClosedAt j := by
    intro k' j
    by_cases hk : k' = k
    · subst hk
      rw [Function.update_self, hclosed]
    · rw [Function.update_of_ne hk]
  apply Inv.mk
  case server => exact h.server
  case callers => exact hcallers
  case ids =>
    rw [List.map_append]
    apply h.ids.append (List.nodup_singleton _)
    apply List.disjoint_singleton.mpr
    intro hmem
    obtain ⟨link, hlink, hid⟩ := List.mem_map.mp hmem
    obtain ⟨l, hl⟩ := List.getElem?_of_mem hlink
    obtain ⟨c', hc', -⟩ := h.stage l link hl
    rw [hid] at hc'
    exact hnew c' hc'
  case peered =>
    apply Peered.mk
    case lt =>
      intro link hlink i hi
      rcases List.mem_append.mp hlink with hlink | hlink
      · exact h.peered.lt link hlink i hi
      · obtain rfl := List.mem_singleton.mp hlink
        cases hi
    case inj =>
      have hold : ∀ {l : Nat} {link : CallLink κ} {i : Nat},
          (s.links ++ [⟨k, (s.clients k).transports.length, [], none, 0⟩])[l]? = some link →
          link.peer = some i → s.links[l]? = some link := by
        intro l link i hl hi
        rcases getElem?_concat_cases hl with hl | rfl
        · exact hl
        · cases hi
      intro l l' link link' i hl hl' hi hi'
      exact h.peered.inj l l' link link' i (hold hl hi) (hold hl' hi') hi hi'
  case stage =>
    intro l link hl
    rcases getElem?_concat_cases hl with hl | rfl
    · obtain ⟨c', hc', hstage⟩ := h.stage l link hl
      refine ⟨c', List.mem_append_left _ hc', hstage.frame rfl rfl ?_ rfl (hkeeps _ _).mpr
        (List.Subset.refl order) id⟩
      rw [asking, asking]
      congr 1
      apply update_at (f := MultiServiceClient.queueAt) (i := (s.clients k).transports.length)
      · intro j hj
        rw [hqueue, if_neg hj]
      · intro hid
        rw [CallLink.id, hid] at hc'
        exact hnew c' hc'
    · refine ⟨c, List.mem_append_right _ (List.mem_singleton_self _), .asks ?_ rfl ?_ rfl⟩
      · rw [asking]
        show [] ++ (Function.update s.clients k client k).queueAt _ = _
        rw [Function.update_self, hqueue, if_pos rfl]
        rfl
      · exact h.not_effect hnew
  case linearizes => exact h.linearizes.call hnew c
  case wellFormed => exact h.wellFormed.call hnew c
  case returned =>
    intro k' i res hret
    rcases List.mem_append.mp hret with hret | hret
    · exact (hkeeps k' i).mpr (h.returned k' i res hret)
    · cases List.mem_singleton.mp hret
  case settled =>
    intro k' i hclosed'
    apply (h.settled k' i ((hkeeps k' i).mp hclosed')).imp_right
    intro hret
    obtain ⟨res, hret⟩ := hret
    exact ⟨res, List.mem_append_left _ hret⟩

/-- What happens at the transport of one call, and is no call. -/
theorem Inv.client_step (h : Inv u s₀ lost order s) (hl : s.links[l]? = some link)
    {made : List (ServiceCall Request Response)}
    (hmade : ∀ (i : Nat) (c : ServiceCall Request Response),
      made[i]? = some c ↔ Mark.call (link.client, i) c ∈ s.history)
    (hcaller : MultiServiceClient.Caller made client)
    (hother : ∀ j, j ≠ link.place → client.transports[j]? = (s.clients link.client).transports[j]?)
    (hclosed : (s.clients link.client).ClosedAt link.place → client.ClosedAt link.place)
    (hs' : s'.clients = Function.update s.clients link.client client)
    (hserver : s'.server = s.server) (hlinks : s'.links = s.links.set l link')
    (hid : link'.id = link.id) (hpeer : link'.peer = link.peer)
    (hcalls : ∀ id c, Mark.call id c ∈ s'.history ↔ Mark.call id c ∈ s.history)
    (hrets : ∀ id res, Mark.ret id res ∈ s'.history →
      Mark.ret id res ∈ s.history ∨ id = link.id ∧ client.ClosedAt link.place)
    (hmore : s.history ⊆ s'.history)
    (hsettled : client.ClosedAt link.place → lost link.id ∨ ∃ res, Mark.ret link.id res ∈ s'.history)
    (hlinearizes : Linearizes u.Performs s₀ s'.history order s.server.state)
    (hwellFormed : WellFormed s'.history)
    (hstage : ∃ c, Mark.call link.id c ∈ s.history ∧ Stage lost s' order link' c) :
    Inv u s₀ lost order s' := by
  have hat : ∀ {α : Type} (f : MultiServiceClient Request Response → Nat → α),
      (∀ j, j ≠ link.place → f client j = f (s.clients link.client) j) →
      ∀ k j, (k, j) ≠ link.id → f (s'.clients k) j = f (s.clients k) j := by
    intro α f hf k j hne
    rw [hs']
    exact update_at f hf hne
  have hsame : ∀ k j, (k, j) ≠ link.id → (s'.clients k).ClosedAt j = (s.clients k).ClosedAt j :=
    hat MultiServiceClient.ClosedAt
      fun j hj => propext (MultiServiceClient.closedAt_congr (hother j hj))
  have hkeeps : ∀ k j, (s.clients k).ClosedAt j → (s'.clients k).ClosedAt j := by
    intro k j hbefore
    by_cases hkj : (k, j) = link.id
    · cases hkj
      rw [hs', Function.update_self]
      exact hclosed hbefore
    · rw [hsame k j hkj]
      exact hbefore
  apply Inv.mk
  case server => exact hserver ▸ h.server
  case callers =>
    obtain ⟨made', hcaller', hmade', hupdate⟩ := h.callers.update link.client
    have hmades : made' = made := by
      apply List.ext_getElem?
      intro i
      ext c
      rw [hmade, hmade']
    rw [hs']
    exact (hupdate client (hmades ▸ hcaller)).mono hcalls
  case ids =>
    rw [hlinks]
    exact h.ids_set hl hid
  case peered =>
    rw [hlinks, hserver]
    exact h.peered.set hl hpeer
  case stage =>
    intro j other hj
    rw [hlinks] at hj
    rcases Assignment.getElem?_set_cases hj with ⟨rfl, rfl⟩ | ⟨hne, hj⟩
    · obtain ⟨c, hc, hstage⟩ := hstage
      exact ⟨c, (hcalls _ c).mpr (hid ▸ hc), hstage⟩
    · obtain ⟨c, hc, hstage⟩ := h.stage j other hj
      have hne' := h.id_ne hl hj hne
      refine ⟨c, (hcalls _ c).mpr hc, hstage.frame rfl rfl ?_ ?_ (hkeeps _ _)
        (List.Subset.refl order) id⟩
      · rw [asking, asking]
        congr 1
        exact hat MultiServiceClient.queueAt
          (fun j hj => MultiServiceClient.queueAt_congr (hother j hj)) _ _ hne'
      · rw [responses, responses, hserver]
  case linearizes =>
    rw [hserver]
    exact hlinearizes
  case wellFormed => exact hwellFormed
  case returned =>
    intro k i res hret
    rcases hrets (k, i) res hret with hret | ⟨hki, hclosed'⟩
    · exact hkeeps k i (h.returned k i res hret)
    · cases hki
      rwa [hs', Function.update_self]
  case settled =>
    intro k i hclosed'
    by_cases hki : (k, i) = link.id
    · cases hki
      rw [hs', Function.update_self] at hclosed'
      exact hsettled hclosed'
    · rw [hsame k i hki] at hclosed'
      apply (h.settled k i hclosed').imp_right
      intro hret
      obtain ⟨res, hret⟩ := hret
      exact ⟨res, hmore hret⟩

theorem Inv.onSend (h : Inv u s₀ lost order s) (hl : s.links[l]? = some link) :
    ∃ s', s.onSend l link = .ok s' ∧ Inv u s₀ lost order s' := by
  obtain ⟨made, hcaller, hmade⟩ := h.callers link.client
  obtain ⟨frames, client, hrun, hcaller', hqueue, hclosed, hother⟩ := hcaller.onWritten link.place
  rw [RemoteCalls.onSend]
  refine ⟨_, bind_eq_ok_iff.mpr ⟨_, hrun, rfl⟩, ?_⟩
  refine h.client_step hl hmade hcaller' hother hclosed.mpr rfl rfl rfl rfl rfl
    (fun _ _ => Iff.rfl) (fun _ _ hret => Or.inl hret) (List.Subset.refl _) ?_ ?_ ?_ ?_
  · intro hclosed'
    exact h.settled link.client link.place (hclosed.mp hclosed')
  · exact h.linearizes
  · exact h.wellFormed
  · obtain ⟨c, hc, hstage⟩ := h.stage l link hl
    refine ⟨c, hc, hstage.frame rfl rfl ?_ rfl ?_ (List.Subset.refl order) id⟩
    · -- The message moves from the queue to the connection.
      show link.requests ++ frames ++
        (Function.update s.clients link.client client link.client).queueAt link.place = _
      rw [Function.update_self, List.append_assoc, hqueue, asking]
    · show _ → (Function.update s.clients link.client client link.client).ClosedAt link.place
      rw [Function.update_self]
      exact hclosed.mpr

/-- Once its transport is closed, a call asks for no more than what has left it. -/
theorem Stage.closes (h : Stage lost s order link c)
    (hclients : s'.clients = Function.update s.clients link.client client)
    (hserver : s'.server = s.server) (hclosed : client.ClosedAt link.place) (hlost : lost link.id) :
    Stage lost s' order link c := by
  have hasking : s'.asking link = link.requests := by
    rw [asking, hclients, Function.update_self, MultiServiceClient.queueAt_of_closedAt hclosed,
      List.append_nil]
  have hresponses : s'.responses link = s.responses link := by rw [responses, responses, hserver]
  cases h with
  | asks hask hresp hnew htaken =>
      rcases List.append_eq_singleton_iff.mp hask with ⟨hnone, -⟩ | ⟨hone, -⟩
      · exact .stops hlost (hasking.trans hnone) (hresponses.trans hresp) hnew htaken
      · exact .asks (hasking.trans hone) (hresponses.trans hresp) hnew htaken
  | stops _ hask hresp hnew htaken =>
      exact .stops hlost (hasking.trans (List.append_eq_nil_iff.mp hask).1) (hresponses.trans hresp)
        hnew htaken
  | answered resp hask hresp heffect htaken =>
      apply Stage.answered resp (hasking.trans (List.append_eq_nil_iff.mp hask).1)
        (hresponses.trans hresp) heffect
      right
      rw [hclients, Function.update_self]
      exact hclosed

theorem Inv.onLose (h : Inv u s₀ lost order s) (hl : s.links[l]? = some link)
    (hlost : ¬ (s.clients link.client).ClosedAt link.place → lost link.id) :
    ∃ s', s.onLose link = .ok s' ∧ Inv u s₀ lost order s' := by
  obtain ⟨made, hcaller, hmade⟩ := h.callers link.client
  obtain ⟨client, hrun, hcaller', hchanges⟩ := hcaller.close link.place
  obtain ⟨c, hc, hstage⟩ := h.stage l link hl
  rw [RemoteCalls.onLose]
  refine ⟨_, bind_eq_ok_iff.mpr ⟨_, hrun, rfl⟩, ?_⟩
  cases hchanges with
  | quiet hsame =>
      rw [hsame, Function.update_eq_self]
      exact h
  | closes hopen hclosed hother =>
      refine h.client_step hl hmade hcaller' hother (fun _ => hclosed) rfl rfl ?_ rfl rfl
        (fun _ _ => Iff.rfl) (fun _ _ hret => Or.inl hret) (List.Subset.refl _)
        (fun _ => Or.inl (hlost hopen)) ?_ ?_ ?_
      · obtain ⟨hlt, rfl⟩ := List.getElem?_eq_some_iff.mp hl
        exact (List.set_getElem_self hlt).symm
      · exact h.linearizes
      · exact h.wellFormed
      · exact ⟨c, hc, hstage.closes rfl rfl hclosed (hlost hopen)⟩

/-- A message has reached the client, whose transport is closed then. -/
theorem Stage.taken (h : Stage lost s order link c) {frames : List Frame}
    (hframes : (s.written link)[link.taken]? = some frames)
    (hclients : s'.clients = Function.update s.clients link.client client)
    (hserver : s'.server = s.server) (hclosed : client.ClosedAt link.place) :
    Stage lost s' order { link with taken := link.taken + 1 } c := by
  obtain ⟨resp, -, hask, hone, heffect, -⟩ := h.response hframes
  have hasking : s'.asking link = [] := by
    rw [asking, hclients, Function.update_self, MultiServiceClient.queueAt_of_closedAt hclosed,
      List.append_nil]
    exact (List.append_eq_nil_iff.mp hask).1
  have hresponses : s'.responses link = s.responses link := by rw [responses, responses, hserver]
  refine .answered resp hasking (hresponses.trans hone) heffect (Or.inr ?_)
  show (s'.clients link.client).ClosedAt link.place
  rw [hclients, Function.update_self]
  exact hclosed

/-- The client reads the response, or has closed the transport that it came by. -/
theorem Inv.onResponse (h : Inv u s₀ lost order s) (hl : s.links[l]? = some link) :
    Ends (Inv u s₀ lost order) (fun f => ∃ id c, Mark.call id c ∈ s.history ∧ u.Fails c f)
      (s.onResponse l link) := by
  rw [RemoteCalls.onResponse]
  cases hframes : (s.written link)[link.taken]? with
  | none => exact h
  | some frames =>
      obtain ⟨made, hcaller, hmade⟩ := h.callers link.client
      obtain ⟨c, hc, hstage⟩ := h.stage l link hl
      obtain ⟨resp, rfl, hask, hone, heffect, -⟩ := hstage.response hframes
      have hplace : link.place < (s.clients link.client).transports.length := by
        rw [hcaller.length]
        exact (List.getElem?_eq_some_iff.mp ((hmade link.place c).mpr hc)).1
      have hread : Ends _ (fun f => ∃ id c, Mark.call id c ∈ s.history ∧ u.Fails c f)
          ((s.clients link.client).onMessage link.place [.ofBytes resp]) :=
        (hcaller.onMessage link.place (.ofBytes resp)).mono_fault fun f hf => by
          obtain ⟨c', hc', hbytes⟩ := hf
          obtain ⟨i, hi⟩ := List.getElem?_of_mem hc'
          exact ⟨_, c', (hmade i c').mp hi, Or.inr hbytes⟩
      apply hread.bind
      intro client hclient
      obtain ⟨hcaller', hanswers⟩ := hclient
      obtain ⟨hclosed, hother⟩ := hanswers.closed hplace
      -- The call has not returned before, as its transport was open.
      obtain ⟨happened, hhappened, hnew⟩ : ∃ happened,
          (client.history.drop (s.clients link.client).history.length).filterMap
            (RemoteCalls.returned link.client) = happened ∧
          (happened = [] ∧ (s.clients link.client).ClosedAt link.place ∨ ∃ response, c.read (framed resp) = .ok response ∧
            (∀ res, Mark.ret link.id res ∉ s.history) ∧
            happened = [Mark.ret link.id (.ok response)]) := by
        cases hanswers with
        | unread hsame hbefore =>
            refine ⟨[], ?_, Or.inl ⟨rfl, hbefore hplace⟩⟩
            rw [hsame, List.drop_length]
            rfl
        | read c' response hc' hreads _ hopen hmore =>
            obtain rfl := Option.some.inj (hc'.symm.trans ((hmade link.place c).mpr hc))
            refine ⟨_, by rw [hmore]; rfl, Or.inr ⟨response, hreads, fun res hret => ?_, rfl⟩⟩
            exact hopen (h.returned link.client link.place res hret)
      have hgrown : Ends (Inv u s₀ lost order) (fun f => ∃ id c, Mark.call id c ∈ s.history ∧ u.Fails c f)
          (.ok { s with
            clients := Function.update s.clients link.client client
            links := s.links.set l { link with taken := link.taken + 1 }
            history := s.history ++ happened }) := by
        refine h.client_step hl hmade hcaller' hother (fun _ => hclosed) rfl rfl rfl rfl rfl
          ?_ ?_ (List.subset_append_left ..) ?_ ?_ ?_ ⟨c, hc, hstage.taken hframes rfl rfl hclosed⟩
        all_goals rcases hnew with ⟨rfl, hbefore⟩ | ⟨response, hreads, hfresh, rfl⟩
        · simp
        · simp
        · intro id res hret
          rw [List.append_nil] at hret
          exact Or.inl hret
        · intro id res hret
          rcases List.mem_append.mp hret with hret | hret
          · exact Or.inl hret
          · cases List.mem_singleton.mp hret
            exact Or.inr ⟨rfl, hclosed⟩
        · intro _
          rw [List.append_nil]
          exact h.settled link.client link.place hbefore
        · intro _
          exact Or.inr ⟨_, List.mem_append_right _ (List.mem_singleton_self _)⟩
        · rw [List.append_nil]
          exact h.linearizes
        · rw [← hreads]
          exact h.linearizes.ret heffect
        · rw [List.append_nil]
          exact h.wellFormed
        · exact h.wellFormed.ret hc hfresh (.ok response)
      rw [← hhappened] at hgrown
      exact hgrown

/-- What ends the process is a callback that fails, or a response that cannot be read. -/
theorem Inv.onEvent (h : Inv u s₀ lost order s) {e : RemoteEvent κ Request Response}
    (hlost : ∀ id, Loses s id e → lost id) :
    Ends (fun s' => ∃ order', Inv u s₀ lost order' s')
      (fun f => ∃ id c, Mark.call id c ∈ s.history ∧ u.Fails c f) (s.onEvent u e) := by
  have hlink : ∀ {l : Nat} {f : CallLink κ → Except Fault (RemoteCalls σ κ Request Response)},
      (∀ link, s.links[l]? = some link → Ends (fun s' => ∃ order', Inv u s₀ lost order' s')
        (fun f => ∃ id c, Mark.call id c ∈ s.history ∧ u.Fails c f) (f link)) →
      Ends (fun s' => ∃ order', Inv u s₀ lost order' s')
        (fun f => ∃ id c, Mark.call id c ∈ s.history ∧ u.Fails c f) (s.onLink l f) := by
    intro l f hf
    rw [onLink]
    cases hl : s.links[l]? with
    | none => exact ⟨order, h⟩
    | some link => exact hf link hl
  have hkept : ∀ {x : Except Fault (RemoteCalls σ κ Request Response)},
      (∃ s', x = .ok s' ∧ Inv u s₀ lost order s') → Ends (fun s' => ∃ order', Inv u s₀ lost order' s')
        (fun f => ∃ id c, Mark.call id c ∈ s.history ∧ u.Fails c f) x := by
    intro x hx
    obtain ⟨s', hrun, hs'⟩ := hx
    exact Ends.of_ok ⟨s', hrun, order, hs'⟩
  cases e with
  | start =>
      obtain ⟨hsound, hidles, hpeers⟩ := h.server.idles_onStart
      exact hkept ⟨_, rfl, h.idles hsound hidles (congrArg List.length hpeers)⟩
  | call k c => exact hkept (h.onCall k c)
  | send l => exact hlink fun link hl => hkept (h.onSend hl)
  | accept l e => exact hlink fun link hl => hkept (h.onAccept hl e)
  | request l =>
      apply hlink
      intro link hl
      apply h.onRequest hl
      intro i method req rest hi hrequests hlate
      exact hlost link.id ⟨link, hl, rfl, i, hi, [method, req], by rw [hrequests]; rfl, method, rfl, hlate⟩
  | respond l => exact hlink fun link _ => hkept (h.onServer h.server.idles_onWritten)
  | response l => exact hlink fun link hl => (h.onResponse hl).mono fun s' hs' => ⟨order, hs'⟩
  | hangUp l => exact hlink fun link _ => hkept (h.onServer h.server.idles_onDisconnect)
  | lose l =>
      apply hlink
      intro link hl
      exact hkept (h.onLose hl fun hopen => hlost link.id ⟨link, hl, rfl, hopen⟩)

/-- The calls in the history are those that were made. -/
theorem history_of_onEvent {e : RemoteEvent κ Request Response} (hrun : s.onEvent u e = .ok s') :
    ∃ more, s'.history = s.history ++ more ∧ ∀ id c, Mark.call id c ∈ more → e = .call id.1 c := by
  have hsame : s'.history = s.history →
      ∃ more, s'.history = s.history ++ more ∧ ∀ id c, Mark.call id c ∈ more → e = .call id.1 c :=
    fun heq => ⟨[], by rw [heq, List.append_nil], fun _ _ hmem => by cases hmem⟩
  have hlink : ∀ {l : Nat} {f : CallLink κ → Except Fault (RemoteCalls σ κ Request Response)},
      s.onLink l f = .ok s' → s'.history = s.history ∨ ∃ link, f link = .ok s' := by
    intro l f hl
    rw [onLink] at hl
    split at hl
    · cases hl
      exact Or.inl rfl
    · exact Or.inr ⟨_, hl⟩
  have hserver : ∀ {link : CallLink κ} {f : Server σ → Nat → Except Fault (Server σ)},
      s.onServer link f = .ok s' → s'.history = s.history := by
    intro link f hf
    rw [onServer] at hf
    split at hf
    · cases hf
      rfl
    · obtain ⟨server, -, hs'⟩ := bind_eq_ok_iff.mp hf
      cases hs'
      rfl
  cases e with
  | start =>
      cases hrun
      exact hsame rfl
  | call k c =>
      rw [RemoteCalls.onEvent, onCall] at hrun
      obtain ⟨client, -, hs'⟩ := bind_eq_ok_iff.mp hrun
      cases hs'
      refine ⟨_, rfl, fun id c' hmem => ?_⟩
      cases List.mem_singleton.mp hmem
      rfl
  | send l =>
      rcases hlink hrun with heq | ⟨link, hf⟩
      · exact hsame heq
      · obtain ⟨out, -, hs'⟩ := bind_eq_ok_iff.mp hf
        cases hs'
        exact hsame rfl
  | accept l e =>
      rcases hlink hrun with heq | ⟨link, hf⟩
      · exact hsame heq
      · rw [onAccept] at hf
        split_ifs at hf
        · cases hf
          exact hsame rfl
        · obtain ⟨server, -, hs'⟩ := bind_eq_ok_iff.mp hf
          cases hs'
          exact hsame rfl
  | request l =>
      rcases hlink hrun with heq | ⟨link, hf⟩
      · exact hsame heq
      · rw [onRequest] at hf
        split at hf
        · obtain ⟨server, -, hs'⟩ := bind_eq_ok_iff.mp hf
          cases hs'
          exact hsame rfl
        · cases hf
          exact hsame rfl
  | respond l =>
      rcases hlink hrun with heq | ⟨link, hf⟩
      · exact hsame heq
      · exact hsame (hserver hf)
  | response l =>
      rcases hlink hrun with heq | ⟨link, hf⟩
      · exact hsame heq
      · rw [onResponse] at hf
        split at hf
        · cases hf
          exact hsame rfl
        · obtain ⟨client, -, hs'⟩ := bind_eq_ok_iff.mp hf
          cases hs'
          refine ⟨_, rfl, fun id c hmem => ?_⟩
          -- What happens to a client is no call.
          obtain ⟨happening, -, hret⟩ := List.mem_filterMap.mp hmem
          cases happening <;> cases hret
  | hangUp l =>
      rcases hlink hrun with heq | ⟨link, hf⟩
      · exact hsame heq
      · exact hsame (hserver hf)
  | lose l =>
      rcases hlink hrun with heq | ⟨link, hf⟩
      · exact hsame heq
      · obtain ⟨client, -, hs'⟩ := bind_eq_ok_iff.mp hf
        cases hs'
        exact hsame rfl

/-! ### Every run -/

/-- **The calls on a server are linearizable.** However the calls of any number of clients, the steps of
the server's start-up, the messages on their connections and the losses of these come one after another,
the clients see a history in which every call returns at most once, after it was made. The calls that
took effect, in the order of their effects, explain it: each was performed once on the state that those
before it left, and returned, if it did, with what it was performed with, and no call took effect before
one that had returned when it was made. Only a callback that fails, or a response that the caller cannot
read, ends the process. -/
theorem linearizable (u : StartUp σ) (s₀ : σ) (events : List (RemoteEvent κ Request Response)) :
    Ends (fun s => WellFormed s.history ∧
        ∃ order, Linearizes u.Performs s₀ s.history order s.server.state)
      (fun f => ∃ k c, .call k c ∈ events ∧ u.Fails c f) (run (onEvent u) (start u s₀) events) := by
  have hends : Ends (fun s => (∃ order, Inv u s₀ (fun _ => True) order s) ∧
        ∀ id c, Mark.call id c ∈ s.history → RemoteEvent.call id.1 c ∈ events)
      (fun f => ∃ k c, .call k c ∈ events ∧ u.Fails c f)
      (run (onEvent u) (start u s₀) events) := by
    apply walk_ends (P := fun _ _ => True) (J := fun done s => (∃ order, Inv u s₀ (fun _ => True) order s) ∧
      ∀ id c, Mark.call id c ∈ s.history → RemoteEvent.call id.1 c ∈ done)
    · intro done e rest s hes h _
      obtain ⟨⟨order, hinv⟩, hmade⟩ := h
      have hstep := hinv.onEvent (e := e) fun _ _ => trivial
      cases hrun : s.onEvent u e with
      | error f =>
          rw [hrun] at hstep
          obtain ⟨id, c, hc, hfails⟩ := hstep
          exact ⟨id.1, c, hes ▸ List.mem_append_left _ (hmade id c hc), hfails⟩
      | ok s' =>
          refine ⟨hstep.of_eq_ok hrun, fun id c hc => ?_⟩
          obtain ⟨more, hhistory, hmore⟩ := history_of_onEvent hrun
          rw [hhistory] at hc
          rcases List.mem_append.mp hc with hc | hc
          · exact List.mem_append_left _ (hmade id c hc)
          · rw [hmore id c hc]
            exact List.mem_append_right _ (List.mem_singleton_self _)
    · exact ⟨⟨[], inv_start u s₀ _⟩, fun id c hc => by cases hc⟩
    · exact along_of_forall (fun _ _ _ => trivial) _
  apply hends.mono
  intro s h
  obtain ⟨⟨order, hinv⟩, -⟩ := h
  exact ⟨hinv.wellFormed, order, hinv.linearizes⟩

/-- Everything has been delivered on a connection. -/
def Delivered (s : RemoteCalls σ κ Request Response) (link : CallLink κ) : Prop :=
  s.asking link = [] ∧ s.written link = s.responses link ∧ link.taken = (s.written link).length

instance (s : RemoteCalls σ κ Request Response) (link : CallLink κ) : Decidable (s.Delivered link) :=
  inferInstanceAs (Decidable (s.asking link = [] ∧ s.written link = s.responses link ∧
    link.taken = (s.written link).length))

/-- **No call is lost on the way.** A call whose client keeps its connection, and whose request finds the
connection open at the server and its method bound, has returned once everything on its connection has
been delivered. -/
theorem returns_of_delivered (u : StartUp σ) (s₀ : σ) (events : List (RemoteEvent κ Request Response))
    {s : RemoteCalls σ κ Request Response} {link : CallLink κ} (hlink : link ∈ s.links)
    (hkeeps : Along (onEvent u) (fun s e => ¬ Loses s link.id e) (start u s₀) events)
    (hrun : run (onEvent u) (start u s₀) events = .ok s) (hdelivered : s.Delivered link) :
    ∃ res, Mark.ret link.id res ∈ s.history := by
  have hends : Ends (fun s => ∃ order, Inv u s₀ (· ≠ link.id) order s) (fun _ => True)
      (run (onEvent u) (start u s₀) events) := by
    apply run_ends _ ⟨[], inv_start u s₀ _⟩ hkeeps
    intro s e h hkeep
    obtain ⟨order, hinv⟩ := h
    apply (hinv.onEvent _).mono_fault
    · intro f _
      trivial
    · rintro id hloses rfl
      exact hkeep hloses
  obtain ⟨order, hinv⟩ := hends.of_eq_ok hrun
  obtain ⟨l, hl⟩ := List.getElem?_of_mem hlink
  obtain ⟨hask, hwritten, htaken⟩ := hdelivered
  obtain ⟨c, -, hstage⟩ := hinv.stage l link hl
  cases hstage with
  | asks hone _ _ _ =>
      rw [hask] at hone
      cases hone
  | stops hlost _ _ _ _ => exact absurd rfl hlost
  | answered resp _ hone _ hclosed =>
      rw [hwritten, hone] at htaken
      rcases hclosed with hzero | hclosed
      · rw [htaken] at hzero
        cases hzero
      · exact (hinv.settled link.client link.place hclosed).resolve_left fun hne => hne rfl

/-! ### A call on the master -/

/-- A node registers a subscription, and is told who publishes. -/
def registerChat : ServiceCall NodeRequest (List StdString) where
  endpoint := PubSub.idle
  method := literal "registerSubscription"
  request := ⟨literal "chat", literal "127.0.0.1:4000"⟩
  write req := Server.writeString req.topic ++ Server.writeString req.nodeUri
  read := Server.readUris

/-- The master listens and binds the method before the request arrives. -/
def registering : List (RemoteEvent Unit NodeRequest (List StdString)) :=
  [.start, .call () registerChat, .send 0, .accept 0 PubSub.idle, .start, .request 0, .respond 0,
    .response 0]

theorem returns_of_delivered_registering :
    ∃ s, run (onEvent Server.master) (start Server.master .empty) registering = .ok s ∧
      ∃ res, Mark.ret ((), 0) res ∈ s.history := by
  have hends : Ends (fun s => ∃ link ∈ s.links, link.id = ((), 0) ∧ s.Delivered link) (fun _ => False)
      (run (onEvent Server.master) (start Server.master .empty) registering) := by decide +kernel
  have hkeeps : Along (onEvent Server.master) (fun s e => ¬ Loses s ((), 0) e)
      (start Server.master .empty) registering := by decide +kernel
  obtain ⟨s, hrun, link, hlink, hid, hdelivered⟩ := hends.returns
  refine ⟨s, hrun, ?_⟩
  rw [← hid] at hkeeps ⊢
  exact returns_of_delivered Server.master .empty registering hlink hkeeps hrun hdelivered

end RemoteCalls

end Ros2Proto
