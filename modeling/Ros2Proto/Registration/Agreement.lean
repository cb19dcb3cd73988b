import Ros2Proto.Registration.Network
import Ros2Proto.Registration.Replies
import Ros2Proto.Topics.Stable

/-!
# What the nodes and the master agree on

A node's maps are what the requests it issued left open, the master's sets what the requests it
handled left open. With nothing in flight these are the same requests, in orders that may differ. So a
node and the master agree about a topic exactly if the last request about it to be handled asks what
the last one issued asks.
-/

namespace Ros2Proto

open Assignment FallibleRun History Std

variable {C M : Type}

/-- The topic is a key of the node's `publications_`, or `subscriptions_`. -/
def TopicManager.Uses (t : TopicManager C M) (role : Role) (topic : StdString) : Prop :=
  match role with
  | .publisher => topic ∈ t.publications
  | .subscriber => topic ∈ t.subscriptions

instance (t : TopicManager C M) (topic : StdString) : (role : Role) → Decidable (t.Uses role topic)
  | .publisher => inferInstanceAs (Decidable (topic ∈ t.publications))
  | .subscriber => inferInstanceAs (Decidable (topic ∈ t.subscriptions))

/-- The requests of a node to which a call leads. -/
def TopicCall.requests (uri : StdString) : TopicCall M → List MasterRequest
  | .registerPublication topic => [.registerPublication topic uri]
  | .unregisterPublication topic => [.unregisterPublication topic uri]
  | .registerSubscription topic _ => [.registerSubscription topic uri]
  | .unregisterSubscription topic => [.unregisterSubscription topic uri]
  | .publish _ _ | .shutdownPublication _ | .shutdownSubscription _ => []

namespace MasterRegistration

variable {g : MasterRegistration}

theorem myURI_eq_ok {uri : StdString} (h : g.myURI = .ok uri) : uri = g.myUri := by
  rw [myURI] at h
  split_ifs at h
  exact (Except.ok.inj h).symm

theorem onCall_eq_ok {c : TopicCall M} {requests : List MasterRequest}
    (h : g.onCall c = .ok requests) : requests = c.requests g.myUri := by
  cases c with
  | registerPublication topic | registerSubscription topic _ | unregisterSubscription topic =>
      obtain ⟨r, hr, hrest⟩ := bind_eq_ok_iff.mp h
      obtain ⟨uri, huri, hr⟩ := bind_eq_ok_iff.mp hr
      cases hr
      cases hrest
      rw [myURI_eq_ok huri]
      rfl
  | unregisterPublication topic => exact (Except.ok.inj h).symm
  | publish _ _ | shutdownPublication _ | shutdownSubscription _ => exact (Except.ok.inj h).symm

theorem onCalls_eq_ok {calls : List (TopicCall M)} {requests : List MasterRequest}
    (h : g.onCalls calls = .ok requests) :
    requests = calls.flatMap fun c => c.requests g.myUri := by
  have hwalk : ∀ (calls : List (TopicCall M)) issued, run (fun requests call => do
      let new ← g.onCall call
      .ok (requests ++ new)) issued calls = .ok requests →
        requests = issued ++ calls.flatMap fun c => c.requests g.myUri := by
    intro calls
    induction calls with
    | nil =>
        intro issued hrun
        cases hrun
        simp
    | cons c calls ih =>
        intro issued hrun
        rw [run_cons] at hrun
        obtain ⟨mid, hmid, hrest⟩ := bind_eq_ok_iff.mp hrun
        obtain ⟨new, hnew, hmid⟩ := bind_eq_ok_iff.mp hmid
        obtain rfl := Except.ok.inj hmid
        rw [ih _ hrest, onCall_eq_ok hnew, List.flatMap_cons, List.append_assoc]
  exact hwalk calls [] h

end MasterRegistration

namespace Network

/-- The node has the topic in use in the role. -/
def NodeUses (nodes : StdString → TopicManager C M) (about : Subject) : Prop :=
  (nodes about.uri).Uses about.role about.topic

instance (nodes : StdString → TopicManager C M) (about : Subject) :
    Decidable (NodeUses nodes about) :=
  inferInstanceAs (Decidable ((nodes about.uri).Uses about.role about.topic))

/-- The three parties agree with what was issued and handled. -/
structure Linked (s : Network C M) : Prop where
  master : s.master.Handled s.handled
  nodes : Tracks MasterRequest.subject MasterRequest.registers (NodeUses s.nodes) s.issued
  once : s.issued.Perm (s.handled ++ s.inFlight)

variable {s s' : Network C M} {uri : StdString} {t t' : TopicManager C M}

theorem linked_empty : (empty : Network C M).Linked where
  master := Master.handled_empty
  nodes about := by
    refine iff_of_false ?_ (by simp [isOpen, empty])
    cases hrole : about.role <;> simp [NodeUses, TopicManager.Uses, empty, TopicManager.empty, hrole]
  once := List.Perm.refl _

theorem nodeUses_update_self (nodes : StdString → TopicManager C M) {about : Subject}
    (h : about.uri = uri) :
    NodeUses (Function.update nodes uri t) about ↔ t.Uses about.role about.topic := by
  rw [NodeUses, h, Function.update_self]

theorem nodeUses_update_of_ne (nodes : StdString → TopicManager C M) {about : Subject}
    (h : about.uri ≠ uri) :
    NodeUses (Function.update nodes uri t) about ↔ NodeUses nodes about := by
  rw [NodeUses, Function.update_of_ne h, NodeUses]

/-- In the middle of an operation of a node, which has come to `t`: the requests it leads to so far
are those that its maps would need. -/
def Operating (s : Network C M) (uri : StdString) (t : TopicManager C M) : Prop :=
  ∃ new, t.calls = (s.nodes uri).calls ++ new ∧
    Tracks MasterRequest.subject MasterRequest.registers (NodeUses (Function.update s.nodes uri t))
      (s.issued ++ new.flatMap (TopicCall.requests uri))

/-- A step of the operation that issues one request, for what it does to the maps. -/
theorem Operating.next (h : s.Operating uri t) {calls : List (TopicCall M)} {r : MasterRequest}
    (hcalls : t'.calls = t.calls ++ calls) (hr : calls.flatMap (TopicCall.requests uri) = [r])
    (huri : r.subject.uri = uri)
    (hself : t'.Uses r.subject.role r.subject.topic ↔ r.registers = true)
    (hframe : ∀ role topic, ¬(role = r.subject.role ∧ topic = r.subject.topic) →
      (t'.Uses role topic ↔ t.Uses role topic)) : s.Operating uri t' := by
  subst huri
  obtain ⟨new, hnew, htracks⟩ := h
  refine ⟨new ++ calls, by rw [hcalls, hnew, List.append_assoc], ?_⟩
  rw [List.flatMap_append, hr, ← List.append_assoc]
  apply htracks.concat
  · rw [nodeUses_update_self _ rfl]
    exact hself
  · intro about hne
    by_cases hsame : about.uri = r.subject.uri
    · rw [nodeUses_update_self _ hsame, nodeUses_update_self _ hsame]
      apply hframe
      rintro ⟨hrole, htopic⟩
      apply hne
      rw [Subject.mk.injEq]
      exact ⟨hrole.symm, htopic.symm, hsame.symm⟩
    · rw [nodeUses_update_of_ne _ hsame, nodeUses_update_of_ne _ hsame]

/-- A step that issues no request and leaves the maps alone. -/
theorem Operating.quiet (h : s.Operating uri t) {calls : List (TopicCall M)}
    (hcalls : t'.calls = t.calls ++ calls) (hr : calls.flatMap (TopicCall.requests uri) = [])
    (hpubs : t'.publications = t.publications) (hsubs : t'.subscriptions = t.subscriptions) :
    s.Operating uri t' := by
  obtain ⟨new, hnew, htracks⟩ := h
  refine ⟨new ++ calls, by rw [hcalls, hnew, List.append_assoc], ?_⟩
  rw [List.flatMap_append, hr, List.append_nil]
  intro about
  rw [← htracks about]
  by_cases hsame : about.uri = uri
  · rw [nodeUses_update_self _ hsame, nodeUses_update_self _ hsame]
    cases about.role <;> simp only [TopicManager.Uses, hpubs, hsubs]
  · rw [nodeUses_update_of_ne _ hsame, nodeUses_update_of_ne _ hsame]

theorem stable_operating (s : Network C M) (uri : StdString) :
    TopicManager.Stable (s.Operating uri) := by
  apply TopicManager.Steady.stable
  · apply TopicManager.Steady.of_with
    case withPublication =>
      intro t u h
      refine h.next (r := .registerPublication (t.remap u) uri) rfl rfl rfl ?_ fun role topic hne => ?_
      · exact iff_of_true ((mem_insert_iff _ _).mpr (.inl rfl)) rfl
      · cases role with
        | subscriber => rfl
        | publisher => exact (mem_insert_iff _ _).trans (or_iff_right fun heq => hne ⟨rfl, heq.symm⟩)
    case withoutPublication =>
      intro t u topic pub h
      refine h.next (r := .unregisterPublication topic uri) rfl rfl rfl ?_ fun role topic' hne => ?_
      · exact iff_of_false (fun hmem => ((mem_erase_iff _).mp hmem).1 rfl) Bool.false_ne_true
      · cases role with
        | subscriber => rfl
        | publisher => exact (mem_erase_iff _).trans (and_iff_right fun heq => hne ⟨rfl, heq.symm⟩)
    case withSubscription =>
      intro t u cb h
      refine h.next (r := .registerSubscription (t.remap u) uri) rfl rfl rfl ?_ fun role topic hne => ?_
      · exact iff_of_true ((mem_insert_iff _ _).mpr (.inl rfl)) rfl
      · cases role with
        | subscriber => exact (mem_insert_iff _ _).trans (or_iff_right fun heq => hne ⟨rfl, heq.symm⟩)
        | publisher => rfl
    case withoutSubscription =>
      intro t u topic sub h
      refine h.next (r := .unregisterSubscription topic uri) rfl rfl rfl ?_ fun role topic' hne => ?_
      · exact iff_of_false (fun hmem => ((mem_erase_iff _).mp hmem).1 rfl) Bool.false_ne_true
      · cases role with
        | subscriber => exact (mem_erase_iff _).trans (and_iff_right fun heq => hne ⟨rfl, heq.symm⟩)
        | publisher => rfl
    case published =>
      intro t pub msg h
      exact h.quiet rfl rfl rfl rfl
  · intro t rules h
    exact h.quiet (List.append_nil _).symm rfl rfl rfl

/-! ### Runs -/

theorem Linked.operate (h : s.Linked) {op : TopicOp C M} (hrun : s.operate uri op = .ok s') :
    s'.Linked := by
  rw [Network.operate] at hrun
  obtain ⟨t, hop, hrun⟩ := bind_eq_ok_iff.mp hrun
  obtain ⟨requests, hissue, hrun⟩ := bind_eq_ok_iff.mp hrun
  obtain rfl := Except.ok.inj hrun
  have hstart : s.Operating uri (s.nodes uri) := by
    refine ⟨[], (List.append_nil _).symm, ?_⟩
    rw [Function.update_eq_self]
    simpa using h.nodes
  obtain ⟨new, hnew, htracks⟩ := (stable_operating s uri).onOp hstart hop
  rw [hnew, List.drop_left] at hissue
  obtain rfl := MasterRegistration.onCalls_eq_ok hissue
  refine ⟨h.master, htracks, ?_⟩
  show (s.issued ++ _).Perm (s.handled ++ (s.inFlight ++ _))
  rw [← List.append_assoc]
  exact h.once.append_right _

theorem Linked.handle (h : s.Linked) {request : MasterRequest} (hmem : request ∈ s.inFlight)
    (hrun : s.handle request = .ok s') : s'.Linked := by
  obtain ⟨m', hok, -, hhandled⟩ := h.master.onRequest request
  rw [Network.handle, hok] at hrun
  obtain rfl := Except.ok.inj hrun
  refine ⟨hhandled, h.nodes, h.once.trans ?_⟩
  show (s.handled ++ s.inFlight).Perm (s.handled ++ [request] ++ s.inFlight.erase request)
  rw [List.append_assoc]
  exact (List.perm_cons_erase hmem).append_left _

theorem Linked.onEvent (h : s.Linked) {e : NetworkEvent C M} (hrun : s.onEvent e = .ok s') :
    s'.Linked := by
  cases e with
  | operate uri op => exact h.operate hrun
  | handle request =>
      rw [Network.onEvent] at hrun
      split_ifs at hrun with hmem
      · exact h.handle hmem hrun
      · exact Except.ok.inj hrun ▸ h

theorem run_linked {events : List (NetworkEvent C M)} (hrun : run onEvent empty events = .ok s) :
    s.Linked :=
  run_preserves (fun _ _ _ h hstep => h.onEvent hstep) linked_empty hrun

/-- **Agreement.** Once nothing is in flight, every request has been handled once, and a node and the
master agree about a topic in a role exactly if the last request about it to be handled registers or
unregisters as the last one issued does. So they agree where these requests are handled in the order
in which they were issued. -/
theorem agreement_iff (events : List (NetworkEvent C M)) (s : Network C M)
    (hrun : run onEvent empty events = .ok s) (hquiet : s.inFlight = []) :
    s.issued.Perm s.handled ∧ ∀ about,
      ((s.master.Holds about ↔ NodeUses s.nodes about) ↔
        isOpen MasterRequest.subject MasterRequest.registers about s.handled =
          isOpen MasterRequest.subject MasterRequest.registers about s.issued) ∧
      ((s.handled.filter fun r => r.subject = about) = (s.issued.filter fun r => r.subject = about) →
        (s.master.Holds about ↔ NodeUses s.nodes about)) := by
  have h := run_linked hrun
  refine ⟨?_, fun about => ?_⟩
  · have honce := h.once
    rwa [hquiet, List.append_nil] at honce
  · have hagree := h.master.tracks.agree_iff h.nodes about
    exact ⟨hagree, fun hsame => hagree.mpr (isOpen_congr hsame)⟩

/-- A node publishes `/a` and at once stops. The master hears of the second first. -/
def overtaken : List (NetworkEvent Unit Unit) :=
  [.operate [110] (.registerPublication [47, 97]), .operate [110] (.unregisterPublication [47, 97]),
    .handle (.unregisterPublication [47, 97] [110]), .handle (.registerPublication [47, 97] [110])]

/-- A publisher that is gone stays registered. -/
theorem overtaken_leaves_stale_publisher :
    ∃ s : Network Unit Unit, run onEvent empty overtaken = .ok s ∧ s.inFlight = [] ∧
      s.master.Holds ⟨.publisher, [47, 97], [110]⟩ ∧ ¬ NodeUses s.nodes ⟨.publisher, [47, 97], [110]⟩ := by
  refine ⟨_, rfl, rfl, ⟨0, by decide, rfl⟩, ?_⟩
  decide

/-- A node that publishes `/a`, and the master that has heard of it. -/
theorem agreement_published :
    ∃ s : Network Unit Unit, run onEvent empty [.operate [110] (.registerPublication [47, 97]),
        .handle (.registerPublication [47, 97] [110])] = .ok s ∧
      (s.master.Holds ⟨.publisher, [47, 97], [110]⟩ ↔
        NodeUses s.nodes ⟨.publisher, [47, 97], [110]⟩) := by
  obtain ⟨s, hrun, hquiet, hsame⟩ : ∃ s : Network Unit Unit,
      run onEvent empty [.operate [110] (.registerPublication [47, 97]),
        .handle (.registerPublication [47, 97] [110])] = .ok s ∧ s.inFlight = [] ∧
      s.handled = s.issued := ⟨_, rfl, rfl, rfl⟩
  exact ⟨s, hrun, ((agreement_iff _ s hrun hquiet).2 _).2 (by rw [hsame])⟩

end Network

end Ros2Proto
