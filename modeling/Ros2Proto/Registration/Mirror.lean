import Ros2Proto.Registration.Replies

/-!
# The two indices of the master

Who subscribes to what, and who publishes it, is stored with the topics and once more with the nodes. A
method of `NodeInfo` changes both: whether the topic is in the node's set, and whether the node is in the
topic's. A node is created with empty sets, and no topic can hold it before.
-/

namespace Ros2Proto

open Assignment FallibleRun Std

namespace NodeInfo

def topics (n : NodeInfo) : Role → StdSet StdString
  | .subscriber => n.subscriptions
  | .publisher => n.publications

/-- The node with the topics of one role changed. -/
def modify (role : Role) (change : StdSet StdString → StdSet StdString) (n : NodeInfo) : NodeInfo :=
  match role with
  | .subscriber => { n with subscriptions := change n.subscriptions }
  | .publisher => { n with publications := change n.publications }

theorem topics_modify (n : NodeInfo) (role role' : Role)
    (change : StdSet StdString → StdSet StdString) :
    (n.modify role change).topics role' =
      if role' = role then change (n.topics role') else n.topics role' := by
  cases role <;> cases role' <;> rfl

end NodeInfo

namespace Master

/-- The indices agree, on nodes that the master knows by their URIs. -/
structure Mirrored (m : Master) : Prop where
  reachable : ∀ (topic : StdString) (info : TopicInfo), m.topics[topic]? = some info →
    ∀ node, node ∈ info.subscribers ∨ node ∈ info.publishers → ∃ uri : StdString, m.nodes[uri]? = some node
  named : ∀ (uri : StdString) (node : Nat), m.nodes[uri]? = some node →
    ∃ n : NodeInfo, m.heap[node]? = some n ∧ n.uri = uri
  distinct : ∀ (node node' : Nat) (n n' : NodeInfo), m.heap[node]? = some n →
    m.heap[node']? = some n' → node ≠ node' → n.uri ≠ n'.uri
  subscribers : ∀ (node : Nat) (n : NodeInfo) (topic : StdString), m.heap[node]? = some n →
    (node ∈ (m.topicInfo topic).subscribers ↔ topic ∈ n.subscriptions)
  publishers : ∀ (node : Nat) (n : NodeInfo) (topic : StdString), m.heap[node]? = some n →
    (node ∈ (m.topicInfo topic).publishers ↔ topic ∈ n.publications)

/-- A topic holds a node in a role exactly if the node holds the topic. -/
def Mirrors (m : Master) : Prop :=
  ∀ (node : Nat) (n : NodeInfo), m.heap[node]? = some n →
    ∀ role topic, node ∈ m.members role topic ↔ topic ∈ n.topics role

variable {m : Master} {node : Nat} {topic uri : StdString}

theorem mirrors_empty : empty.Mirrors := by
  intro node n hn
  simp [empty] at hn

theorem nodeUri_eq_ok_iff : m.nodeUri node = .ok uri ↔ ∃ n, m.heap[node]? = some n ∧ n.uri = uri := by
  rw [nodeUri]
  cases m.heap[node]? with
  | none => simp
  | some n => simp

theorem Inv.mirrored (h : m.Inv) (hmirrors : m.Mirrors) : m.Mirrored where
  reachable topic info hinfo node hmem := by
    have htopic : m.topicInfo topic = info := by
      rw [topicInfo, ExtTreeMap.getD_eq_getD_getElem?, hinfo]
      rfl
    subst htopic
    obtain ⟨uri, huri⟩ : ∃ uri, m.nodeUri node = .ok uri := by
      rcases hmem with hmem | hmem
      · exact h.valid .subscriber topic node hmem
      · exact h.valid .publisher topic node hmem
    exact ⟨uri, (h.identity uri node).mpr huri⟩
  named uri node hnode := nodeUri_eq_ok_iff.mp ((h.identity uri node).mp hnode)
  distinct node node' n n' hn hn' hne := by
    intro huri
    exact hne (h.node_unique (nodeUri_eq_ok_iff.mpr ⟨n, hn, rfl⟩)
      (nodeUri_eq_ok_iff.mpr ⟨n', hn', huri.symm⟩))
  subscribers node n topic hn := hmirrors node n hn .subscriber topic
  publishers node n topic hn := hmirrors node n hn .publisher topic

/-! ### Requests -/

/-- A new node has no topic, and no topic has it. -/
theorem Mirrors.getOrCreateNode (h : m.Mirrors) (hinv : m.Inv) (uri : StdString) :
    (m.getOrCreateNode uri).2.Mirrors := by
  intro node n hn role topic
  rw [members_getOrCreateNode]
  rw [Master.getOrCreateNode] at hn
  cases hnode : m.nodes[uri]? with
  | some known =>
      rw [hnode] at hn
      exact h node n hn role topic
  | none =>
      rw [hnode] at hn
      replace hn : (m.heap ++ [⟨uri, ∅, ∅⟩])[node]? = some n := hn
      by_cases hlt : node < m.heap.length
      · rw [List.getElem?_append_left hlt] at hn
        exact h node n hn role topic
      · apply iff_of_false
        · intro hmem
          obtain ⟨uri', huri'⟩ := hinv.valid role topic node hmem
          obtain ⟨n', hn', -⟩ := nodeUri_eq_ok_iff.mp huri'
          exact hlt (List.getElem?_eq_some_iff.mp hn').1
        · obtain rfl : n = ⟨uri, ∅, ∅⟩ := by
            rw [List.getElem?_append_right (Nat.not_lt.mp hlt)] at hn
            exact List.mem_singleton.mp (List.mem_of_getElem? hn)
          cases role <;> simp [NodeInfo.topics]

/-- A change of both indices for one node, one topic and one role. -/
theorem Mirrors.update (h : m.Mirrors) (role : Role) (present : Prop)
    {onMembers : StdSet Nat → StdSet Nat} {onTopics : StdSet StdString → StdSet StdString}
    (hmembers : ∀ set node', node' ∈ onMembers set ↔ if node' = node then present else node' ∈ set)
    (htopics : ∀ set topic', topic' ∈ onTopics set ↔
      if topic' = topic then present else topic' ∈ set) :
    (m.update node topic (.modify role onTopics) (.modify role onMembers)).Mirrors := by
  intro node' n' hn' role' topic'
  obtain ⟨n, hn, rfl⟩ : ∃ n, m.heap[node']? = some n ∧
      (if node = node' then n.modify role onTopics else n) = n' := by
    rw [Master.update, List.getElem?_modify] at hn'
    exact Option.map_eq_some_iff.mp hn'
  have hbefore : node' ∈ (m.topicInfo topic').members role' ↔ topic' ∈ n.topics role' :=
    h node' n hn role' topic'
  rw [members, topicInfo_update]
  by_cases htopic : topic = topic'
  · subst htopic
    rw [if_pos rfl, TopicInfo.members_modify]
    by_cases hnode : node = node'
    · subst hnode
      rw [if_pos rfl, NodeInfo.topics_modify]
      by_cases hrole : role' = role
      · rw [if_pos hrole, if_pos hrole, hmembers, htopics, if_pos rfl, if_pos rfl]
      · rw [if_neg hrole, if_neg hrole]
        exact hbefore
    · rw [if_neg hnode, ← hbefore]
      by_cases hrole : role' = role
      · rw [if_pos hrole, hmembers, if_neg (Ne.symm hnode)]
      · rw [if_neg hrole]
  · rw [if_neg htopic, hbefore]
    by_cases hnode : node = node'
    · rw [if_pos hnode, NodeInfo.topics_modify]
      by_cases hrole : role' = role
      · rw [if_pos hrole, htopics, if_neg (Ne.symm htopic)]
      · rw [if_neg hrole]
    · rw [if_neg hnode]

theorem Mirrors.lookup (h : m.Mirrors) (topic : StdString) :
    Mirrors { m with topics := m.topics.insert topic (m.topicInfo topic) } := by
  intro node n hn role topic'
  rw [members, topicInfo_lookup]
  exact h node n hn role topic'

theorem Mirrors.onRequest (h : m.Mirrors) (hinv : m.Inv) {r : MasterRequest} {m' : Master}
    (hrun : m.onRequest r = .ok m') : m'.Mirrors := by
  have hfound := h.getOrCreateNode hinv r.subject.uri
  cases r with
  | registerSubscription topic uri =>
      have hmirrors : ((m.getOrCreateNode uri).2.subscribe (m.getOrCreateNode uri).1 topic).Mirrors :=
        hfound.update .subscriber _ (fun set => mem_insert_iff set _) fun set => mem_insert_iff set _
      obtain ⟨reply, hlookup, -⟩ := (hinv.serves_subscribe topic uri).inv.lookupPublishers topic
      replace hlookup : m.registerSubscription topic uri = .ok (reply, _) := hlookup
      rw [Master.onRequest, hlookup] at hrun
      cases hrun
      exact hmirrors.lookup topic
  | unregisterSubscription topic uri =>
      cases hrun
      exact hfound.update .subscriber _ (fun set => mem_erase_iff set _) fun set => mem_erase_iff set _
  | registerPublication topic uri =>
      cases hrun
      exact hfound.update .publisher _ (fun set => mem_insert_iff set _) fun set => mem_insert_iff set _
  | unregisterPublication topic uri =>
      cases hrun
      exact hfound.update .publisher _ (fun set => mem_erase_iff set _) fun set => mem_erase_iff set _

theorem run_mirrors (requests : List MasterRequest) :
    ∃ m, run onRequest empty requests = .ok m ∧ m.Inv ∧ m.Mirrors := by
  apply run_always _ ⟨inv_empty, mirrors_empty⟩ requests
  intro m r h
  obtain ⟨m', hok, hserves⟩ := h.1.onRequest r
  exact ⟨m', hok, hserves.inv, h.2.onRequest h.1 hok⟩

/-- **The two indices mirror each other.** Whatever requests the master has handled, its nodes are those of
`nodes_`, each under its own URI, and a topic holds a node exactly if the node holds the topic. -/
theorem run_mirrored (requests : List MasterRequest) :
    ∃ m, run onRequest empty requests = .ok m ∧ m.Mirrored := by
  obtain ⟨m, hrun, hinv, hmirrors⟩ := run_mirrors requests
  exact ⟨m, hrun, hinv.mirrored hmirrors⟩

end Master

end Ros2Proto
