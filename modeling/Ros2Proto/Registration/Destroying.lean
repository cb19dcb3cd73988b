import Ros2Proto.Base.Iteration
import Ros2Proto.Registration.Mirror

/-!
# Destroying a node

`~NodeInfo` takes the node out of its topics, in two loops over its own sets. The topic that a loop gives to
`unsubscribe` or `unpublish` is a reference to the element the iterator stands at. The method erases that
element first, then reads the topic through the reference, and the loop moves the iterator on from it. So
neither loop gets through its first round, and only a node without topics can be destroyed.

What is modelled is the body of the destructor; the `NodeInfo` itself stays in the heap.
-/

namespace Ros2Proto

open Assignment FallibleRun Iteration Std

/-- A use of an element that has been erased: through a reference to it, or of an iterator at it. -/
inductive Dangling
  | reference
  | iterator
  deriving DecidableEq, Repr

namespace Master

def topicsOf (m : Master) (role : Role) (node : Nat) : StdSet StdString :=
  match m.heap[node]? with
  | none => ∅
  | some n => n.topics role

/-- `update` for a topic given as a reference into the node's own set: the change to the node comes first, and
the topic is read after it. -/
def updateAt (m : Master) (role : Role) (node : Nat) (topic : StdString) (onNode : NodeInfo → NodeInfo)
    (onTopic : TopicInfo → TopicInfo) : Except Dangling Master :=
  let m := { m with heap := m.heap.modify node onNode }
  if topic ∈ m.topicsOf role node then
    .ok { m with topics := m.topics.insert topic (onTopic (m.topicInfo topic)) }
  else .error .reference

/-- `unsubscribe(*it)` -/
def unsubscribeAt (m : Master) (node : Nat) (topic : StdString) : Except Dangling Master :=
  m.updateAt .subscriber node topic (fun n => { n with subscriptions := n.subscriptions.erase topic })
    fun info => { info with subscribers := info.subscribers.erase node }

/-- `unpublish(*it)` -/
def unpublishAt (m : Master) (node : Nat) (topic : StdString) : Except Dangling Master :=
  m.updateAt .publisher node topic (fun n => { n with publications := n.publications.erase topic })
    fun info => { info with publishers := info.publishers.erase node }

/-- One loop of `~NodeInfo`, with the topics it has visited. -/
def forEachTopic (m : Master) (role : Role) (node : Nat)
    (body : Master → StdString → Except Dangling Master) : Except Dangling (List StdString × Master) :=
  forEach (fun m topic => topic ∈ m.topicsOf role node) .iterator body (m.topicsOf role node).toList m

/-- The body of `~NodeInfo`, with the topics the two loops have visited. -/
def destroyNode (m : Master) (node : Nat) :
    Except Dangling (List StdString × List StdString × Master) := do
  let (subscriptions, m) ← m.forEachTopic .subscriber node fun m topic => m.unsubscribeAt node topic
  let (publications, m) ← m.forEachTopic .publisher node fun m topic => m.unpublishAt node topic
  .ok (subscriptions, publications, m)

/-- `delete it->second` -/
def deleteNode (m : Master) (entry : StdString × Nat) : Except Dangling Master := do
  let (_, _, m) ← m.destroyNode entry.2
  .ok m

/-- The body of `~Master`. -/
def destroy (m : Master) : Except Dangling Master := do
  let (_, m) ← forEach (fun m entry => entry.1 ∈ m.nodes) .iterator deleteNode m.nodes.toList m
  .ok m

/-- What destroying a node should do: visit each of its topics, and take it out of them all. -/
structure CleanedUp (m : Master) (node : Nat) (subscriptions publications : List StdString) (m' : Master) :
    Prop where
  subscriptions_visited : subscriptions = (m.topicsOf .subscriber node).toList
  publications_visited : publications = (m.topicsOf .publisher node).toList
  absent : ∀ role topic, node ∉ m'.members role topic
  others : ∀ node', node' ≠ node → ∀ role topic,
    node' ∈ m'.members role topic ↔ node' ∈ m.members role topic
  others_kept : ∀ node' : Nat, node' ≠ node → m'.heap[node']? = m.heap[node']?

/-- `~NodeInfo` gets through and does so. -/
def CleansUp (m : Master) (node : Nat) : Prop :=
  ∃ subscriptions publications m', m.destroyNode node = .ok (subscriptions, publications, m') ∧
    m.CleanedUp node subscriptions publications m'

variable {m m' : Master} {node : Nat} {topic : StdString} {role : Role} {onNode : NodeInfo → NodeInfo}
  {onTopic : TopicInfo → TopicInfo}

theorem topicsOf_eq {n : NodeInfo} (hn : m.heap[node]? = some n) (role : Role) :
    m.topicsOf role node = n.topics role := by
  rw [topicsOf, hn]

theorem topicsOf_eq_empty_iff {n : NodeInfo} (hn : m.heap[node]? = some n) :
    (∀ role, m.topicsOf role node = ∅) ↔ n.subscriptions = ∅ ∧ n.publications = ∅ := by
  simp only [topicsOf_eq hn]
  constructor
  · intro hempty
    exact ⟨hempty .subscriber, hempty .publisher⟩
  · intro hnone role
    cases role with
    | subscriber => exact hnone.1
    | publisher => exact hnone.2

theorem not_cleansUp_of_error {d : Dangling} (h : m.destroyNode node = .error d) : ¬ m.CleansUp node := by
  intro hclean
  obtain ⟨subscriptions, publications, m', hok, -⟩ := hclean
  cases h.symm.trans hok

/-! ### The loops of `~NodeInfo` -/

/-- Where the reference is still good, `updateAt` is `update`. -/
theorem updateAt_eq_ok (hrun : m.updateAt role node topic onNode onTopic = .ok m') :
    m' = m.update node topic onNode onTopic ∧ topic ∈ m'.topicsOf role node := by
  rw [updateAt] at hrun
  split_ifs at hrun with htopic
  obtain rfl := Except.ok.inj hrun
  exact ⟨rfl, htopic⟩

theorem not_mem_topicsOf_update (herases : ∀ n, topic ∉ (onNode n).topics role) :
    topic ∉ (m.update node topic onNode onTopic).topicsOf role node := by
  rw [topicsOf, update, List.getElem?_modify_eq]
  cases m.heap[node]? with
  | none => exact ExtTreeSet.not_mem_empty
  | some n => exact herases n

/-- A change that takes the topic out of the node's set takes the reference with it. -/
theorem updateAt_erasing (herases : ∀ n, topic ∉ (onNode n).topics role) :
    m.updateAt role node topic onNode onTopic ≠ .ok m' := by
  intro hrun
  obtain ⟨hupdate, hmem⟩ := updateAt_eq_ok hrun
  rw [hupdate] at hmem
  exact not_mem_topicsOf_update herases hmem

theorem unsubscribeAt_ne_ok : m.unsubscribeAt node topic ≠ .ok m' := by
  apply updateAt_erasing
  intro n hmem
  exact (ExtTreeSet.mem_erase.mp hmem).1 ReflCmp.compare_self

theorem unpublishAt_ne_ok : m.unpublishAt node topic ≠ .ok m' := by
  apply updateAt_erasing
  intro n hmem
  exact (ExtTreeSet.mem_erase.mp hmem).1 ReflCmp.compare_self

theorem forEachTopic_eq_ok_iff {body : Master → StdString → Except Dangling Master}
    (hbody : ∀ m topic m', body m topic ≠ .ok m') {r : List StdString × Master} :
    m.forEachTopic role node body = .ok r ↔ m.topicsOf role node = ∅ ∧ r = ([], m) := by
  rw [forEachTopic, forEach_erasing fun m topic m' hrun => absurd hrun (hbody m topic m'),
    ExtTreeSet.eq_empty_iff_forall_not_mem]
  apply and_congr_left'
  constructor
  · intro hgone topic hmem
    exact hgone topic (ExtTreeSet.mem_toList.mpr hmem) hmem
  · intro hempty topic _
    exact hempty topic

/-- A node without topics is left as it is, and no other can be destroyed. -/
theorem destroyNode_eq_ok_iff {r : List StdString × List StdString × Master} :
    m.destroyNode node = .ok r ↔ (∀ role, m.topicsOf role node = ∅) ∧ r = ([], [], m) := by
  constructor
  · intro hrun
    obtain ⟨r₁, hsubs, hrun⟩ := bind_eq_ok_iff.mp hrun
    obtain ⟨r₂, hpubs, hrun⟩ := bind_eq_ok_iff.mp hrun
    obtain ⟨hnoSubs, rfl⟩ := (forEachTopic_eq_ok_iff fun _ _ _ => unsubscribeAt_ne_ok).mp hsubs
    obtain ⟨hnoPubs, rfl⟩ := (forEachTopic_eq_ok_iff fun _ _ _ => unpublishAt_ne_ok).mp hpubs
    refine ⟨fun role => ?_, (Except.ok.inj hrun).symm⟩
    cases role with
    | subscriber => exact hnoSubs
    | publisher => exact hnoPubs
  · intro h
    obtain ⟨hempty, rfl⟩ := h
    apply bind_eq_ok_iff.mpr
    refine ⟨_, (forEachTopic_eq_ok_iff fun _ _ _ => unsubscribeAt_ne_ok).mpr ⟨hempty .subscriber, rfl⟩, ?_⟩
    apply bind_eq_ok_iff.mpr
    exact ⟨_, (forEachTopic_eq_ok_iff fun _ _ _ => unpublishAt_ne_ok).mpr ⟨hempty .publisher, rfl⟩, rfl⟩

/-- Where the indices mirror each other, a node without topics is in none, so that nothing is left to do. -/
theorem Mirrors.cleanedUp (h : m.Mirrors) {n : NodeInfo} (hn : m.heap[node]? = some n)
    (hempty : ∀ role, m.topicsOf role node = ∅) : m.CleanedUp node [] [] m where
  subscriptions_visited := by
    rw [hempty]
    rfl
  publications_visited := by
    rw [hempty]
    rfl
  absent role topic hmem := by
    have htopic := (h node n hn role topic).mp hmem
    rw [← topicsOf_eq hn, hempty] at htopic
    exact ExtTreeSet.not_mem_empty htopic
  others node' hne role topic := Iff.rfl
  others_kept node' hne := rfl

theorem Mirrors.cleansUp_iff (h : m.Mirrors) {n : NodeInfo} (hn : m.heap[node]? = some n) :
    m.CleansUp node ↔ n.subscriptions = ∅ ∧ n.publications = ∅ := by
  rw [← topicsOf_eq_empty_iff hn]
  constructor
  · intro hclean
    obtain ⟨subscriptions, publications, m', hrun, -⟩ := hclean
    exact (destroyNode_eq_ok_iff.mp hrun).1
  · intro hempty
    exact ⟨[], [], m, destroyNode_eq_ok_iff.mpr ⟨hempty, rfl⟩, h.cleanedUp hn hempty⟩

/-- **Only a node without topics can be destroyed.** Whatever requests the master has handled, the loops of
`~NodeInfo` clean up after a node exactly if it has no subscription and no publication. -/
theorem run_cleansUp_iff (requests : List MasterRequest) :
    ∃ m, run onRequest empty requests = .ok m ∧ ∀ (node : Nat) (n : NodeInfo), m.heap[node]? = some n →
      (m.CleansUp node ↔ n.subscriptions = ∅ ∧ n.publications = ∅) := by
  obtain ⟨m, hrun, -, hmirrors⟩ := run_mirrors requests
  exact ⟨m, hrun, fun node n hn => hmirrors.cleansUp_iff hn⟩

/-- A node with one subscription: the first round of the first loop reads the topic it has erased. -/
theorem chatter_not_cleansUp :
    ∃ m, run onRequest empty [.registerSubscription (literal "/chatter") (literal "127.0.0.1:4000")] = .ok m ∧
      m.nodes[literal "127.0.0.1:4000"]? = some 0 ∧ m.destroyNode 0 = .error .reference ∧ ¬ m.CleansUp 0 := by
  refine ⟨_, rfl, rfl, rfl, ?_⟩
  exact not_cleansUp_of_error rfl

/-! ### The loop of `~Master` -/

theorem deleteNode_eq_ok_iff {entry : StdString × Nat} :
    m.deleteNode entry = .ok m' ↔ (∀ role, m.topicsOf role entry.2 = ∅) ∧ m' = m := by
  constructor
  · intro hrun
    obtain ⟨r, hdestroy, hrun⟩ := bind_eq_ok_iff.mp hrun
    obtain ⟨hempty, rfl⟩ := destroyNode_eq_ok_iff.mp hdestroy
    exact ⟨hempty, (Except.ok.inj hrun).symm⟩
  · intro h
    apply bind_eq_ok_iff.mpr
    exact ⟨([], [], m), destroyNode_eq_ok_iff.mpr ⟨h.1, rfl⟩, congrArg Except.ok h.2.symm⟩

theorem run_deleteNode_eq_ok_iff {entries : List (StdString × Nat)} :
    run deleteNode m entries = .ok m' ↔
      (∀ entry ∈ entries, ∀ role, m.topicsOf role entry.2 = ∅) ∧ m' = m := by
  induction entries with
  | nil =>
      constructor
      · intro hrun
        exact ⟨fun entry hentry => absurd hentry List.not_mem_nil, (Except.ok.inj hrun).symm⟩
      · intro h
        exact congrArg Except.ok h.2.symm
  | cons entry entries ih =>
      rw [run_cons, bind_eq_ok_iff, List.forall_mem_cons]
      constructor
      · intro hrun
        obtain ⟨s, hfirst, hrest⟩ := hrun
        obtain ⟨hempty, rfl⟩ := deleteNode_eq_ok_iff.mp hfirst
        obtain ⟨hall, hsame⟩ := ih.mp hrest
        exact ⟨⟨hempty, hall⟩, hsame⟩
      · intro h
        obtain ⟨⟨hempty, hall⟩, hsame⟩ := h
        exact ⟨m, deleteNode_eq_ok_iff.mpr ⟨hempty, rfl⟩, ih.mpr ⟨hall, hsame⟩⟩

/-- `nodes_` stays as it is, so the loop is a run over its entries. -/
theorem destroy_eq_run (m : Master) : m.destroy = run deleteNode m m.nodes.toList := by
  have hkeeps : ∀ (m : Master) entry m', m.deleteNode entry = .ok m' →
      ∀ e : StdString × Nat, e.1 ∈ m'.nodes ↔ e.1 ∈ m.nodes := by
    intro m entry m' hrun e
    rw [(deleteNode_eq_ok_iff.mp hrun).2]
  have hall : ∀ e ∈ m.nodes.toList, e.1 ∈ m.nodes := by
    intro e he
    have hentry := ExtTreeMap.mem_toList_iff_getElem?_eq_some.mp he
    exact (mem_iff_exists_getElem? _ _).mpr ⟨e.2, hentry⟩
  rw [destroy, forEach_keeping hkeeps hall]
  cases run deleteNode m m.nodes.toList with
  | error d => rfl
  | ok m' => rfl

/-- **A master can be destroyed only with idle nodes.** `~Master` gets through exactly if no node has a
subscription or publication left. -/
theorem run_destroy_iff (requests : List MasterRequest) :
    ∃ m, run onRequest empty requests = .ok m ∧ ((∃ m', m.destroy = .ok m') ↔
      ∀ (node : Nat) (n : NodeInfo), m.heap[node]? = some n → n.subscriptions = ∅ ∧ n.publications = ∅) := by
  obtain ⟨m, hrun, hinv, -⟩ := run_mirrors requests
  refine ⟨m, hrun, ?_⟩
  rw [destroy_eq_run]
  constructor
  · intro hdestroyed node n hn
    obtain ⟨m', hok⟩ := hdestroyed
    have hnode := (hinv.identity n.uri node).mpr (nodeUri_eq_ok_iff.mpr ⟨n, hn, rfl⟩)
    have hempty := (run_deleteNode_eq_ok_iff.mp hok).1 (n.uri, node)
      (ExtTreeMap.mem_toList_iff_getElem?_eq_some.mpr hnode)
    exact (topicsOf_eq_empty_iff hn).mp hempty
  · intro hidle
    refine ⟨m, run_deleteNode_eq_ok_iff.mpr ⟨?_, rfl⟩⟩
    intro entry hentry
    have hnode := ExtTreeMap.mem_toList_iff_getElem?_eq_some.mp hentry
    obtain ⟨n, hn, -⟩ := nodeUri_eq_ok_iff.mp ((hinv.identity entry.1 entry.2).mp hnode)
    exact (topicsOf_eq_empty_iff hn).mpr (hidle entry.2 n hn)

end Master

end Ros2Proto
