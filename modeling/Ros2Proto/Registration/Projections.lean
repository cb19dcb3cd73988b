import Ros2Proto.Registration.Graph

/-!
# The graph as the master sees it, and as a node does

The master sees a `Network`: a request that was lost stays under way in it. A node sees a `Discovery`
of its own: the calls that it has under way, as a request or as a reply, are the calls that wait
there. Both hold of every run, so what is known of the two is known of the graph.
-/

namespace Ros2Proto

open FallibleRun

variable {C M : Type}

/-- The request that a message makes to the master. -/
def GraphMessage.request : GraphMessage → Option MasterRequest
  | .notice request => some request
  | .call node (.registerSubscription topic _) =>
    some (.registerSubscription topic (TopicManager.myURI node))
  | _ => none

/-- The call of a node that ends with the message. -/
def GraphMessage.outgoing (node : UInt16) : GraphMessage → Option OutgoingCall
  | .notice _ => none
  | .call n c => if n = node then some c else none
  | .reply n c _ => if n = node then some c else none

/-- What was found for a node. -/
def Finding.foundFor (node : UInt16) (found : List Finding) : List (Nat × List StdString) :=
  (found.filter fun f => f.node = node).map fun f => (f.callback, f.uris)

theorem Finding.foundFor_concat (node : UInt16) (found : List Finding) (f : Finding) :
    foundFor node (found ++ [f]) =
      foundFor node found ++ if f.node = node then [(f.callback, f.uris)] else [] := by
  rw [foundFor, List.filter_append, List.map_append, foundFor, List.filter_cons, List.filter_nil]
  by_cases hnode : f.node = node
  · rw [if_pos (decide_eq_true hnode), if_pos hnode, List.map_singleton]
  · rw [if_neg (decide_eq_true_iff.not.mpr hnode), if_neg hnode, List.map_nil]

namespace Graph

/-- The master of the graph and that of the network are alike, and so are the nodes. -/
structure Networked (s : Graph C M) (n : Network C M) : Prop where
  nodes : ∀ node, n.nodes (TopicManager.myURI node) = s.nodes node
  master : n.master = s.master
  handled : n.handled = s.handled
  inFlight : n.inFlight.Perm (s.flying.filterMap GraphMessage.request)

/-- The node, the calls it waits for, and what was found for it. -/
structure Projected (node : UInt16) (s : Graph C M) (d : Discovery C M) : Prop where
  manager : d.manager = s.nodes node
  outgoingCalls : d.outgoingCalls.Perm (s.flying.filterMap (GraphMessage.outgoing node))
  found : d.found = Finding.foundFor node s.found

variable {protos : UInt16 → Publication → List PublishTransport} {s s' : Graph C M}
  {n : Network C M} {d : Discovery C M} {node : UInt16} {t : TopicManager C M}

/-! ### The master -/

theorem request_sent (node : UInt16) (c : TopicCall M) :
    (sent node c).filterMap GraphMessage.request = c.requests (TopicManager.myURI node) := by
  cases c <;> rfl

theorem request_flatMap_sent (node : UInt16) (calls : List (TopicCall M)) :
    (calls.flatMap (sent node)).filterMap GraphMessage.request =
      calls.flatMap fun c => c.requests (TopicManager.myURI node) := by
  rw [List.filterMap_flatMap]
  exact congrArg (fun f => List.flatMap f calls) (funext (request_sent node))

theorem onCalls_myURI (node : UInt16) (calls : List (TopicCall M)) :
    (MasterRegistration.mk (TopicManager.myURI node)).onCalls calls =
      .ok (calls.flatMap fun c => c.requests (TopicManager.myURI node)) := by
  have hwalk : ∀ issued, run (fun requests call => do
      let new ← (MasterRegistration.mk (TopicManager.myURI node)).onCall call
      .ok (requests ++ new)) issued calls =
        .ok (issued ++ calls.flatMap fun c => c.requests (TopicManager.myURI node)) := by
    induction calls with
    | nil => exact fun issued => congrArg Except.ok (List.append_nil issued).symm
    | cons c calls ih =>
        intro issued
        rw [run_cons, onCall_myURI]
        exact (ih _).trans (by rw [List.flatMap_cons, List.append_assoc])
  exact hwalk []

theorem Networked.operate (h : s.Networked n) {op : TopicOp C M} (hop : (s.nodes node).onOp op = .ok t) :
    ∃ fs n', run Network.onEvent n fs = .ok n' ∧ Networked { s with
      nodes := Function.update s.nodes node t
      inFlight := s.inFlight ++
        (t.calls.drop (s.nodes node).calls.length).flatMap (sent node) } n' := by
  have hnet : n.operate (TopicManager.myURI node) op = .ok { n with
      nodes := Function.update n.nodes (TopicManager.myURI node) t
      inFlight := n.inFlight ++ (t.calls.drop (s.nodes node).calls.length).flatMap
        fun c => c.requests (TopicManager.myURI node)
      issued := n.issued ++ (t.calls.drop (s.nodes node).calls.length).flatMap
        fun c => c.requests (TopicManager.myURI node) } := by
    rw [Network.operate, h.nodes, hop]
    apply bind_eq_ok_iff.mpr
    exact ⟨t, rfl, bind_eq_ok_iff.mpr ⟨_, onCalls_myURI node _, rfl⟩⟩
  refine ⟨[.operate (TopicManager.myURI node) op], _,
    (run_concat_of_run (run_nil n) _).trans hnet, ?_⟩
  apply Networked.mk
  case nodes =>
    intro other
    show Function.update n.nodes (TopicManager.myURI node) t (TopicManager.myURI other) =
      Function.update s.nodes node t other
    by_cases hother : other = node
    · rw [hother, Function.update_self, Function.update_self]
    · rw [Function.update_of_ne (TopicManager.myURI_injective.ne hother), h.nodes,
        Function.update_of_ne hother]
  case master => exact h.master
  case handled => exact h.handled
  case inFlight =>
    have hflying := (flying_send s
      ((t.calls.drop (s.nodes node).calls.length).flatMap (sent node))).filterMap GraphMessage.request
    rw [List.filterMap_append, request_flatMap_sent] at hflying
    exact (h.inFlight.append_right _).trans hflying.symm

/-- What changes no more than the messages for nodes changes nothing for the master. -/
theorem Networked.idle (h : s.Networked n) (hnodes : s'.nodes = s.nodes) (hmaster : s'.master = s.master)
    (hhandled : s'.handled = s.handled)
    (hrequests : (s'.flying.filterMap GraphMessage.request).Perm
      (s.flying.filterMap GraphMessage.request)) : s'.Networked n where
  nodes node := (h.nodes node).trans (congrFun hnodes node).symm
  master := h.master.trans hmaster.symm
  handled := h.handled.trans hhandled.symm
  inFlight := h.inFlight.trans hrequests.symm

/-- A request arrives. -/
theorem Networked.handle (h : s.Networked n) {r : MasterRequest} (hmaster : s.master.onRequest r = .ok s'.master)
    (hnodes : s'.nodes = s.nodes) (hhandled : s'.handled = s.handled ++ [r])
    (hrequests : (s.flying.filterMap GraphMessage.request).Perm
      (r :: s'.flying.filterMap GraphMessage.request)) :
    ∃ fs n', run Network.onEvent n fs = .ok n' ∧ s'.Networked n' := by
  have hperm := h.inFlight.trans hrequests
  have hmem : r ∈ n.inFlight := hperm.mem_iff.mpr List.mem_cons_self
  have hnet : n.onEvent (.handle r) = .ok { n with
      inFlight := n.inFlight.erase r
      master := s'.master
      handled := n.handled ++ [r] } := by
    rw [Network.onEvent, if_pos hmem, Network.handle, h.master, hmaster]
    rfl
  refine ⟨[.handle r], _, (run_concat_of_run (run_nil n) _).trans hnet, ?_⟩
  apply Networked.mk
  case nodes => exact fun node => (h.nodes node).trans (congrFun hnodes node).symm
  case master => rfl
  case handled => exact (congrArg (· ++ [r]) h.handled).trans hhandled.symm
  case inFlight =>
    have herase := hperm.erase r
    rwa [List.erase_cons_head] at herase

theorem request_send (s : Graph C M) {new : List GraphMessage}
    (hnew : new.filterMap GraphMessage.request = []) :
    ((flying { s with inFlight := s.inFlight ++ new }).filterMap GraphMessage.request).Perm
      (s.flying.filterMap GraphMessage.request) := by
  have hsent := (flying_send s new).filterMap GraphMessage.request
  rwa [List.filterMap_append, hnew, List.append_nil] at hsent

/-- An arrival is the handling of one request, or nothing to the master. -/
theorem arrive_requests {place : Nat} {m : GraphMessage}
    (hflying : s.flying.Perm (m :: flying { s with inFlight := s.inFlight.eraseIdx place }))
    (hrun : arrive protos { s with inFlight := s.inFlight.eraseIdx place } m = .ok s') :
    s'.nodes = s.nodes ∧
      ((∃ r, s.master.onRequest r = .ok s'.master ∧ s'.handled = s.handled ++ [r] ∧
        (s.flying.filterMap GraphMessage.request).Perm (r :: s'.flying.filterMap GraphMessage.request)) ∨
      (s'.master = s.master ∧ s'.handled = s.handled ∧
        (s'.flying.filterMap GraphMessage.request).Perm (s.flying.filterMap GraphMessage.request))) := by
  have hrequests := hflying.filterMap GraphMessage.request
  cases m with
  | notice r =>
      obtain ⟨master, hmaster, hrest⟩ := bind_eq_ok_iff.mp hrun
      obtain rfl := Except.ok.inj hrest
      exact ⟨rfl, Or.inl ⟨r, hmaster, rfl, hrequests⟩⟩
  | call node c =>
      cases c with
      | registerSubscription topic callback =>
          obtain ⟨⟨uris, master⟩, hmaster, hrest⟩ := bind_eq_ok_iff.mp hrun
          obtain rfl := Except.ok.inj hrest
          have hrequest : s.master.onRequest
              (.registerSubscription topic (TopicManager.myURI node)) = .ok master :=
            bind_eq_ok_iff.mpr ⟨_, hmaster, rfl⟩
          exact ⟨rfl, Or.inl ⟨_, hrequest, rfl,
            hrequests.trans ((request_send _ rfl).symm.cons _)⟩⟩
      | requestTopic publisher topic callback =>
          rw [arrive] at hrun
          split at hrun <;> obtain rfl := Except.ok.inj hrun
          · refine ⟨rfl, Or.inr ⟨rfl, rfl, List.Perm.trans ?_ hrequests.symm⟩⟩
            rw [flying, ← List.append_assoc, List.filterMap_append]
            exact List.Perm.of_eq (List.append_nil _)
          · exact ⟨rfl, Or.inr ⟨rfl, rfl, (request_send _ rfl).trans hrequests.symm⟩⟩
  | reply node c uris =>
      cases c with
      | registerSubscription topic callback =>
          obtain rfl := Except.ok.inj hrun
          have hnone : ((MasterRegistration.contactPublishers topic uris callback).map
              (GraphMessage.call node)).filterMap GraphMessage.request = [] := by
            rw [List.filterMap_eq_nil_iff]
            intro m hm
            obtain ⟨c, hc, rfl⟩ := List.mem_map.mp hm
            obtain ⟨uri, -, rfl⟩ := List.mem_map.mp hc
            rfl
          exact ⟨rfl, Or.inr ⟨rfl, rfl, (request_send _ hnone).trans hrequests.symm⟩⟩
      | requestTopic publisher topic callback =>
          obtain rfl := Except.ok.inj hrun
          exact ⟨rfl, Or.inr ⟨rfl, rfl, hrequests.symm⟩⟩

theorem Networked.step (h : s.Networked n) {e : GraphEvent C M} (hrun : s.onEvent protos e = .ok s') :
    ∃ fs n', run Network.onEvent n fs = .ok n' ∧ s'.Networked n' := by
  rcases onEvent_cases hrun with ⟨node, op, t, -, hop, rfl⟩ | ⟨place, m, -, -, hflying, hrun⟩ |
      ⟨inFlight, lost, hperm, rfl⟩
  · exact h.operate hop
  · obtain ⟨hnodes, ⟨r, hmaster, hhandled, hrequests⟩ | ⟨hmaster, hhandled, hrequests⟩⟩ :=
      arrive_requests hflying hrun
    · exact h.handle hmaster hnodes hhandled hrequests
    · exact ⟨[], n, rfl, h.idle hnodes hmaster hhandled hrequests⟩
  · exact ⟨[], n, rfl, h.idle rfl rfl rfl (hperm.filterMap _)⟩

/-! ### A node -/

theorem outgoing_sent (other : UInt16) (c : TopicCall M) :
    (sent other c).filterMap (GraphMessage.outgoing node) =
      if other = node then (Discovery.callFor c).toList else [] := by
  by_cases hother : other = node <;> cases c <;>
    simp [sent, Discovery.callFor, TopicCall.requests, GraphMessage.outgoing, hother]

theorem outgoing_flatMap_sent (other : UInt16) (calls : List (TopicCall M)) :
    (calls.flatMap (sent other)).filterMap (GraphMessage.outgoing node) =
      if other = node then calls.filterMap Discovery.callFor else [] := by
  induction calls with
  | nil => exact (ite_self []).symm
  | cons c calls ih =>
      rw [List.flatMap_cons, List.filterMap_append, outgoing_sent, ih, List.filterMap_cons]
      split_ifs with hother
      · cases Discovery.callFor c <;> rfl
      · rfl

theorem outgoing_send (node : UInt16) (s : Graph C M) (new : List GraphMessage) :
    ((flying { s with inFlight := s.inFlight ++ new }).filterMap (GraphMessage.outgoing node)).Perm
      (s.flying.filterMap (GraphMessage.outgoing node) ++
        new.filterMap (GraphMessage.outgoing node)) := by
  rw [← List.filterMap_append]
  exact (flying_send s new).filterMap _

theorem Projected.idle (h : s.Projected node d) (hnodes : s'.nodes node = s.nodes node)
    (hcalls : (s'.flying.filterMap (GraphMessage.outgoing node)).Perm
      (s.flying.filterMap (GraphMessage.outgoing node)))
    (hfound : Finding.foundFor node s'.found = Finding.foundFor node s.found) :
    s'.Projected node d where
  manager := h.manager.trans hnodes.symm
  outgoingCalls := h.outgoingCalls.trans hcalls.symm
  found := h.found.trans hfound.symm

theorem Projected.operate (h : s.Projected node d) {op : TopicOp C M}
    (hop : (s.nodes node).onOp op = .ok t) :
    ∃ fs d', run Discovery.onEvent d fs = .ok d' ∧ Projected node { s with
      nodes := Function.update s.nodes node t
      inFlight := s.inFlight ++
        (t.calls.drop (s.nodes node).calls.length).flatMap (sent node) } d' := by
  have hop' : d.manager.onOp op = .ok t := by
    rw [h.manager]
    exact hop
  refine ⟨[.operate op], _, (run_concat_of_run (run_nil d) _).trans
    (Discovery.operate_eq_ok_iff.mpr ⟨t, hop', rfl⟩), ?_⟩
  apply Projected.mk
  case manager => exact (Function.update_self node t s.nodes).symm
  case outgoingCalls =>
    have hsent := outgoing_send node s
      ((t.calls.drop (s.nodes node).calls.length).flatMap (sent node))
    rw [outgoing_flatMap_sent, if_pos rfl] at hsent
    rw [h.manager]
    exact (h.outgoingCalls.append_right _).trans hsent.symm
  case found => exact h.found

/-- A reply arrives at the node. -/
theorem Projected.reply (h : s.Projected node d) {c : OutgoingCall} (uris : List StdString)
    {new : List OutgoingCall} {found : List (Nat × List StdString)}
    (hreply : ∀ call, d.outgoingCalls[call]? = some c → d.onReply call uris =
      { d with outgoingCalls := d.outgoingCalls.eraseIdx call ++ new, found := d.found ++ found })
    (hnodes : s'.nodes node = s.nodes node)
    (hcalls : (s.flying.filterMap (GraphMessage.outgoing node) ++ new).Perm
      (c :: s'.flying.filterMap (GraphMessage.outgoing node)))
    (hfound : Finding.foundFor node s'.found = Finding.foundFor node s.found ++ found)
    (hmem : c ∈ s.flying.filterMap (GraphMessage.outgoing node)) :
    ∃ fs d', run Discovery.onEvent d fs = .ok d' ∧ s'.Projected node d' := by
  obtain ⟨call, hcall⟩ := List.mem_iff_getElem?.mp (h.outgoingCalls.mem_iff.mpr hmem)
  refine ⟨[.reply call uris], _, (run_concat_of_run (run_nil d) _).trans
    (congrArg Except.ok (hreply call hcall)), ?_⟩
  apply Projected.mk
  case manager => exact h.manager.trans hnodes.symm
  case outgoingCalls =>
    obtain ⟨hlt, rfl⟩ := List.getElem?_eq_some_iff.mp hcall
    have herase := List.getElem_cons_eraseIdx_perm hlt
    have hall := (herase.append_right new).trans ((h.outgoingCalls.append_right new).trans hcalls)
    exact hall.cons_inv
  case found => exact (congrArg (· ++ found) h.found).trans hfound.symm

/-- One message takes the place of another, for the same call. -/
theorem outgoing_exchange (node : UInt16) {m m' : GraphMessage} {rest : List GraphMessage}
    (hflying : s.flying.Perm (m :: flying { s with inFlight := rest }))
    (hsame : m'.outgoing node = m.outgoing node) :
    ((flying { s with inFlight := rest ++ [m'] }).filterMap (GraphMessage.outgoing node)).Perm
      (s.flying.filterMap (GraphMessage.outgoing node)) := by
  have hsent := outgoing_send node { s with inFlight := rest } [m']
  have hone : [m'].filterMap (GraphMessage.outgoing node) = [m].filterMap (GraphMessage.outgoing node) := by
    rw [List.filterMap_cons, List.filterMap_cons, hsame]
  rw [hone, ← List.filterMap_append] at hsent
  have hmoved := (List.perm_append_singleton m (flying { s with inFlight := rest })).trans hflying.symm
  exact hsent.trans (hmoved.filterMap _)

theorem outgoing_contacted (node other : UInt16) (calls : List OutgoingCall) :
    (calls.map (GraphMessage.call other)).filterMap (GraphMessage.outgoing node) =
      if other = node then calls else [] := by
  rw [List.filterMap_map]
  split_ifs with hother
  · have hsome : GraphMessage.outgoing node ∘ GraphMessage.call other = some := by
      funext c
      exact if_pos hother
    rw [hsome, List.filterMap_some]
  · rw [List.filterMap_eq_nil_iff]
    exact fun c _ => if_neg hother

theorem Projected.arrive (h : s.Projected node d) {place : Nat} {m : GraphMessage}
    (hflying : s.flying.Perm (m :: flying { s with inFlight := s.inFlight.eraseIdx place }))
    (hrun : Graph.arrive protos { s with inFlight := s.inFlight.eraseIdx place } m = .ok s') :
    ∃ fs d', run Discovery.onEvent d fs = .ok d' ∧ s'.Projected node d' := by
  have hcalls := hflying.filterMap (GraphMessage.outgoing node)
  cases m with
  | notice r =>
      obtain ⟨master, -, hrest⟩ := bind_eq_ok_iff.mp hrun
      obtain rfl := Except.ok.inj hrest
      exact ⟨[], d, rfl, h.idle rfl hcalls.symm rfl⟩
  | call other c =>
      refine ⟨[], d, rfl, ?_⟩
      cases c with
      | registerSubscription topic callback =>
          obtain ⟨⟨uris, master⟩, -, hrest⟩ := bind_eq_ok_iff.mp hrun
          obtain rfl := Except.ok.inj hrest
          exact h.idle rfl (outgoing_exchange node hflying rfl) rfl
      | requestTopic publisher topic callback =>
          rw [Graph.arrive] at hrun
          split at hrun <;> obtain rfl := Except.ok.inj hrun
          · refine h.idle rfl (List.Perm.filterMap _ ?_) rfl
            rw [flying, ← List.append_assoc]
            exact (List.perm_append_singleton _ _).trans hflying.symm
          · exact h.idle rfl (outgoing_exchange node hflying rfl) rfl
  | reply other c uris =>
      by_cases hother : other = node
      · subst hother
        have hself : (GraphMessage.reply other c uris).outgoing other = some c := if_pos rfl
        rw [List.filterMap_cons_some hself] at hcalls
        have hmem : c ∈ s.flying.filterMap (GraphMessage.outgoing other) :=
          hcalls.mem_iff.mpr List.mem_cons_self
        cases c with
        | registerSubscription topic callback =>
            obtain rfl := Except.ok.inj hrun
            have hsent := outgoing_send other { s with inFlight := s.inFlight.eraseIdx place }
              ((MasterRegistration.contactPublishers topic uris callback).map (GraphMessage.call other))
            rw [outgoing_contacted, if_pos rfl] at hsent
            refine h.reply uris ?_ rfl ((hcalls.append_right _).trans (hsent.symm.cons _))
              (List.append_nil _).symm hmem
            intro call hcall
            rw [Discovery.onReply, hcall, List.append_nil]
        | requestTopic publisher topic callback =>
            obtain rfl := Except.ok.inj hrun
            have hfound := Finding.foundFor_concat other s.found ⟨other, callback, publisher, uris⟩
            rw [if_pos rfl] at hfound
            refine h.reply uris ?_ rfl ((List.Perm.of_eq (List.append_nil _)).trans hcalls)
              hfound hmem
            intro call hcall
            rw [Discovery.onReply, hcall, List.append_nil]
      · refine ⟨[], d, rfl, ?_⟩
        have hnone : (GraphMessage.reply other c uris).outgoing node = none := if_neg hother
        rw [List.filterMap_cons_none hnone] at hcalls
        cases c with
        | registerSubscription topic callback =>
            obtain rfl := Except.ok.inj hrun
            have hsent := outgoing_send node { s with inFlight := s.inFlight.eraseIdx place }
              ((MasterRegistration.contactPublishers topic uris callback).map (GraphMessage.call other))
            rw [outgoing_contacted, if_neg hother, List.append_nil] at hsent
            exact h.idle rfl (hsent.trans hcalls.symm) rfl
        | requestTopic publisher topic callback =>
            obtain rfl := Except.ok.inj hrun
            have hfound := Finding.foundFor_concat node s.found ⟨other, callback, publisher, uris⟩
            rw [if_neg hother, List.append_nil] at hfound
            exact h.idle rfl hcalls.symm hfound

theorem Projected.step (h : s.Projected node d) {e : GraphEvent C M}
    (hrun : s.onEvent protos e = .ok s') :
    ∃ fs d', run Discovery.onEvent d fs = .ok d' ∧ s'.Projected node d' := by
  rcases onEvent_cases hrun with ⟨other, op, t, -, hop, rfl⟩ | ⟨place, m, -, -, hflying, hrun⟩ |
      ⟨inFlight, lost, hperm, rfl⟩
  · by_cases hother : other = node
    · subst hother
      exact h.operate hop
    · have hsent := outgoing_send node s
        ((t.calls.drop (s.nodes other).calls.length).flatMap (sent other))
      rw [outgoing_flatMap_sent, if_neg hother, List.append_nil] at hsent
      exact ⟨[], d, rfl, h.idle (Function.update_of_ne (Ne.symm hother) t s.nodes) hsent rfl⟩
  · exact h.arrive hflying hrun
  · exact ⟨[], d, rfl, h.idle rfl (hperm.filterMap _) rfl⟩

/-! ### Runs -/

theorem networked_empty : (empty : Graph C M).Networked Network.empty where
  nodes _ := rfl
  master := rfl
  handled := rfl
  inFlight := .refl _

theorem projected_empty (node : UInt16) : (empty : Graph C M).Projected node Discovery.empty where
  manager := rfl
  outgoingCalls := .refl _
  found := rfl

/-- **The two views of the graph.** Every run of the graph is, for the master, a run of a `Network` with
the same nodes, master and requests, and for each node a run of a `Discovery` with the same manager,
calls and findings. What was lost is under way there for ever. -/
theorem projections (protos : UInt16 → Publication → List PublishTransport)
    (events : List (GraphEvent C M)) (s : Graph C M)
    (hrun : run (onEvent protos) empty events = .ok s) :
    (∃ fs n, run Network.onEvent Network.empty fs = .ok n ∧ s.Networked n) ∧
      ∀ node, ∃ fs d, run Discovery.onEvent Discovery.empty fs = .ok d ∧ s.Projected node d := by
  constructor
  · exact run_simulates (fun _ _ _ _ h hstep => h.step hstep) networked_empty hrun
  · intro node
    exact run_simulates (fun _ _ _ _ h hstep => h.step hstep) (projected_empty node) hrun

/-- A node publishes `/a`, the master hears of it, another node subscribes and finds it. -/
def published : List (GraphEvent Unit Unit) :=
  [.operate 1 (.registerPublication [47, 97]), .deliver 0, .operate 2 (.subscribe [47, 97] ()),
    .deliver 0, .deliver 0, .deliver 0, .deliver 0]

theorem projections_published :
    ∃ s : Graph Unit Unit, run (onEvent fun _ _ => []) empty published = .ok s ∧
      (∃ fs n, run Network.onEvent Network.empty fs = .ok n ∧ s.Networked n) ∧
      ∀ node, ∃ fs d, run Discovery.onEvent Discovery.empty fs = .ok d ∧ s.Projected node d := by
  obtain ⟨s, hrun⟩ : ∃ s : Graph Unit Unit,
      run (onEvent fun _ _ => []) empty published = .ok s := ⟨_, rfl⟩
  exact ⟨s, hrun, projections _ _ s hrun⟩

end Graph

end Ros2Proto
