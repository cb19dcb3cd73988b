import Ros2Proto.Base.Assignment
import Ros2Proto.Base.History
import Ros2Proto.Base.Runs
import Ros2Proto.Registration.Master

/-!
# The master's replies

What the sets of the master say about a node, a topic and a role is what the last request about the
three asked for, and a reply lists the publishers so held, each once. This rests on there being one
`NodeInfo` for each URI: a set of pointers is then as good as a set of URIs.
-/

namespace Ros2Proto

open Assignment FallibleRun History Std

inductive Role
  | subscriber
  | publisher
  deriving DecidableEq, Repr

/-- What a request is about. -/
structure Subject where
  role : Role
  topic : StdString
  uri : StdString
  deriving DecidableEq, Repr

namespace MasterRequest

def subject : MasterRequest → Subject
  | registerSubscription topic nodeUri => ⟨.subscriber, topic, nodeUri⟩
  | unregisterSubscription topic nodeUri => ⟨.subscriber, topic, nodeUri⟩
  | registerPublication topic nodeUri => ⟨.publisher, topic, nodeUri⟩
  | unregisterPublication topic nodeUri => ⟨.publisher, topic, nodeUri⟩

def registers : MasterRequest → Bool
  | registerSubscription _ _ | registerPublication _ _ => true
  | unregisterSubscription _ _ | unregisterPublication _ _ => false

end MasterRequest

def TopicInfo.members (info : TopicInfo) : Role → StdSet Nat
  | .subscriber => info.subscribers
  | .publisher => info.publishers

/-- The topic with the members of one role changed. -/
def TopicInfo.modify (role : Role) (change : StdSet Nat → StdSet Nat) (info : TopicInfo) :
    TopicInfo :=
  match role with
  | .subscriber => { info with subscribers := change info.subscribers }
  | .publisher => { info with publishers := change info.publishers }

theorem TopicInfo.members_modify (info : TopicInfo) (role role' : Role)
    (change : StdSet Nat → StdSet Nat) :
    (info.modify role change).members role' =
      if role' = role then change (info.members role') else info.members role' := by
  cases role <;> cases role' <;> rfl

namespace Master

def members (m : Master) (role : Role) (topic : StdString) : StdSet Nat :=
  (m.topicInfo topic).members role

/-- The node is among the subscribers, or publishers, of the topic. -/
def Holds (m : Master) (s : Subject) : Prop :=
  ∃ node ∈ m.members s.role s.topic, m.nodeUri node = .ok s.uri

/-- There is one node for each URI known, and the sets hold only such nodes. -/
structure Inv (m : Master) : Prop where
  identity : ∀ uri node, m.nodes[uri]? = some node ↔ m.nodeUri node = .ok uri
  valid : ∀ role topic, ∀ node ∈ m.members role topic, ∃ uri, m.nodeUri node = .ok uri

/-- What a request does. -/
structure Serves (m : Master) (r : MasterRequest) (m' : Master) : Prop where
  inv : m'.Inv
  self : m'.Holds r.subject ↔ r.registers = true
  frame : ∀ s, r.subject ≠ s → (m'.Holds s ↔ m.Holds s)
  other : ∀ role, role ≠ r.subject.role → ∀ topic, m'.members role topic = m.members role topic

variable {m : Master} {node : Nat} {topic uri : StdString} {onNode : NodeInfo → NodeInfo}
  {onTopic : TopicInfo → TopicInfo} {change : StdSet Nat → StdSet Nat}

theorem inv_empty : empty.Inv where
  identity uri node := by simp [empty, nodeUri]
  valid role topic node h := by cases role <;> simp [members, topicInfo, empty, TopicInfo.members] at h

/-- A pointer is determined by the URI of its node. -/
theorem Inv.node_unique (h : m.Inv) {node' : Nat} (hnode : m.nodeUri node = .ok uri)
    (hnode' : m.nodeUri node' = .ok uri) : node = node' := by
  have hsome := (h.identity uri node).mpr hnode
  rw [(h.identity uri node').mpr hnode'] at hsome
  exact (Option.some.inj hsome).symm

theorem nodeUri_update (hname : ∀ n, (onNode n).uri = n.uri) (node' : Nat) :
    (m.update node topic onNode onTopic).nodeUri node' = m.nodeUri node' := by
  simp only [nodeUri, update, List.getElem?_modify]
  cases m.heap[node']? with
  | none => rfl
  | some n =>
      show Except.ok (if node = node' then onNode n else n).uri = _
      split_ifs
      · rw [hname]
      · rfl

theorem topicInfo_update (topic' : StdString) :
    (m.update node topic onNode onTopic).topicInfo topic' =
      if topic = topic' then onTopic (m.topicInfo topic) else m.topicInfo topic' := by
  simp only [topicInfo, update, ExtTreeMap.getD_insert, LawfulEqCmp.compare_eq_iff_eq]

/-! ### Finding the node -/

theorem members_getOrCreateNode (role : Role) :
    (m.getOrCreateNode uri).2.members role topic = m.members role topic := by
  rw [getOrCreateNode]
  split <;> rfl

/-- A URI without a node gets the place after the last. -/
theorem nodeUri_new (nodes : StdMap Nat) (node' : Nat) :
    Master.nodeUri ⟨nodes, m.topics, m.heap ++ [⟨uri, ∅, ∅⟩]⟩ node' =
      if node' = m.heap.length then .ok uri else m.nodeUri node' := by
  simp only [nodeUri]
  split_ifs with hnew
  · rw [hnew, List.getElem?_concat_length]
  · by_cases hlt : node' < m.heap.length
    · rw [List.getElem?_append_left hlt]
    · rw [List.getElem?_eq_none (by simp; omega), List.getElem?_eq_none (by omega)]

theorem nodeUri_length : m.nodeUri m.heap.length = .error .nullPointer := by
  simp [nodeUri]

theorem nodeUri_getOrCreateNode (h : m.Inv) (uri : StdString) :
    (m.getOrCreateNode uri).2.nodeUri (m.getOrCreateNode uri).1 = .ok uri ∧
      ∀ node' uri', m.nodeUri node' = .ok uri' →
        (m.getOrCreateNode uri).2.nodeUri node' = .ok uri' := by
  rw [getOrCreateNode]
  split
  · next node hnode => exact ⟨(h.identity uri node).mp hnode, fun _ _ huri => huri⟩
  · refine ⟨(nodeUri_new _ _).trans (if_pos rfl), fun node' uri' huri => ?_⟩
    refine (nodeUri_new _ node').trans ((if_neg fun heq => ?_).trans huri)
    rw [heq, nodeUri_length] at huri
    cases huri

theorem Inv.getOrCreateNode (h : m.Inv) (uri : StdString) : (m.getOrCreateNode uri).2.Inv := by
  refine ⟨fun uri' node' => ?_, fun role topic node' hmem => ?_⟩
  · rw [Master.getOrCreateNode]
    split
    · exact h.identity uri' node'
    · next hnone =>
      rw [nodeUri_new]
      by_cases huri : uri = uri'
      · subst huri
        rw [ExtTreeMap.getElem?_insert_self]
        by_cases hnew : node' = m.heap.length
        · rw [if_pos hnew, hnew]
          exact iff_of_true rfl rfl
        · rw [if_neg hnew, ← h.identity, hnone]
          simp [eq_comm, hnew]
      · rw [getElem?_insert_of_ne _ (Ne.symm huri)]
        by_cases hnew : node' = m.heap.length
        · rw [if_pos hnew, hnew, h.identity, nodeUri_length]
          simp [huri]
        · rw [if_neg hnew]
          exact h.identity uri' node'
  · rw [members_getOrCreateNode] at hmem
    obtain ⟨uri', huri'⟩ := h.valid role topic node' hmem
    exact ⟨uri', (nodeUri_getOrCreateNode h uri).2 node' uri' huri'⟩

theorem holds_getOrCreateNode (h : m.Inv) (uri : StdString) (s : Subject) :
    (m.getOrCreateNode uri).2.Holds s ↔ m.Holds s := by
  simp only [Holds, members_getOrCreateNode]
  refine exists_congr fun node' => and_congr_right fun hmem => ?_
  obtain ⟨uri', huri'⟩ := h.valid s.role s.topic node' hmem
  rw [(nodeUri_getOrCreateNode h uri).2 node' uri' huri', huri']

/-! ### Requests -/

theorem nodeUri_inj (h : m.Inv) {node' : Nat} (hnode : m.nodeUri node = .ok uri) :
    m.nodeUri node' = .ok uri ↔ node' = node :=
  ⟨fun hnode' => h.node_unique hnode' hnode, fun heq => heq ▸ hnode⟩

/-- A change to the node of the request, and to the set the request is about, serves it. -/
theorem Inv.serves_update (h : m.Inv) {r : MasterRequest} (hnode : m.nodeUri node = .ok r.subject.uri)
    (hname : ∀ n, (onNode n).uri = n.uri)
    (hchange : ∀ set node', node' ∈ change set ↔
      if node' = node then r.registers = true else node' ∈ set) :
    m.Serves r (m.update node r.subject.topic onNode (.modify r.subject.role change)) := by
  have hmembers : ∀ role topic, (m.update node r.subject.topic onNode
      (.modify r.subject.role change)).members role topic =
        if topic = r.subject.topic ∧ role = r.subject.role then change (m.members role topic)
        else m.members role topic := by
    intro role topic
    rw [members, topicInfo_update]
    by_cases htopic : r.subject.topic = topic
    · subst htopic
      rw [if_pos rfl, TopicInfo.members_modify]
      simp [members]
    · rw [if_neg htopic]
      simp [Ne.symm htopic, members]
  refine ⟨⟨fun uri node' => ?_, fun role topic node' hmem => ?_⟩, ?_, fun s hs => ?_, ?_⟩
  · rw [nodeUri_update hname]
    exact h.identity uri node'
  · rw [nodeUri_update hname]
    rw [hmembers] at hmem
    split_ifs at hmem with hsame
    · rw [hchange] at hmem
      split_ifs at hmem with heq
      · exact ⟨r.subject.uri, heq ▸ hnode⟩
      · exact h.valid role topic node' hmem
    · exact h.valid role topic node' hmem
  · simp only [Holds, nodeUri_update hname, nodeUri_inj h hnode, hmembers]
    simp [hchange]
  · simp only [Holds, nodeUri_update hname, hmembers]
    refine exists_congr fun node' => and_congr_left fun huri => ?_
    split_ifs with hsame
    · rw [hchange, if_neg]
      intro heq
      have hsameUri : r.subject.uri = s.uri := Except.ok.inj (hnode.symm.trans (heq ▸ huri))
      apply hs
      rw [Subject.mk.injEq]
      exact ⟨hsame.2.symm, hsame.1.symm, hsameUri⟩
    · rfl
  · intro role hrole topic
    rw [hmembers, if_neg fun hsame => hrole hsame.2]

/-- Finding the node first changes nothing that the sets say. -/
theorem Inv.serves_found (h : m.Inv) (r : MasterRequest) (onNode : NodeInfo → NodeInfo)
    (change : StdSet Nat → StdSet Nat) (hname : ∀ n, (onNode n).uri = n.uri)
    (hchange : ∀ set node', node' ∈ change set ↔
      if node' = (m.getOrCreateNode r.subject.uri).1 then r.registers = true else node' ∈ set) :
    m.Serves r ((m.getOrCreateNode r.subject.uri).2.update (m.getOrCreateNode r.subject.uri).1
      r.subject.topic onNode (.modify r.subject.role change)) := by
  have hnode := (nodeUri_getOrCreateNode h r.subject.uri).1
  obtain ⟨hinv, hdone, hframe, hrest⟩ :=
    (h.getOrCreateNode r.subject.uri).serves_update hnode hname hchange
  refine ⟨hinv, hdone, fun s hs => ?_, fun role hrole topic => ?_⟩
  · rw [hframe s hs, holds_getOrCreateNode h]
  · rw [hrest role hrole, members_getOrCreateNode]

/-- `topics_[topic]` adds at most an entry without members. -/
theorem topicInfo_lookup (topic topic' : StdString) :
    Master.topicInfo { m with topics := m.topics.insert topic (m.topicInfo topic) } topic' =
      m.topicInfo topic' := by
  show (m.topics.insert topic (m.topicInfo topic)).getD topic' _ = _
  rw [ExtTreeMap.getD_insert]
  split_ifs with htopic
  · rw [LawfulEqCmp.eq_of_compare htopic]
  · rfl

theorem Serves.lookup {r : MasterRequest} {m' : Master} (h : m.Serves r m') (topic : StdString) :
    m.Serves r { m' with topics := m'.topics.insert topic (m'.topicInfo topic) } := by
  have hmembers : ∀ role topic', Master.members
      { m' with topics := m'.topics.insert topic (m'.topicInfo topic) } role topic' =
        m'.members role topic' := by
    intro role topic'
    rw [members, topicInfo_lookup]
    rfl
  refine ⟨⟨h.inv.identity, fun role topic' node hmem => ?_⟩, ?_, fun s hs => ?_, ?_⟩
  · rw [hmembers] at hmem
    exact h.inv.valid role topic' node hmem
  · rw [← h.self]
    simp only [Holds, hmembers]
    rfl
  · rw [← h.frame s hs]
    simp only [Holds, hmembers]
    rfl
  · intro role hrole topic'
    rw [hmembers, h.other role hrole]

theorem Inv.mapM_nodeUri (h : m.Inv) {nodes : List Nat} (hnodup : nodes.Nodup)
    (hvalid : ∀ node ∈ nodes, ∃ uri, m.nodeUri node = .ok uri) :
    ∃ uris, nodes.mapM m.nodeUri = .ok uris ∧ uris.Nodup ∧
      ∀ uri, uri ∈ uris ↔ ∃ node ∈ nodes, m.nodeUri node = .ok uri := by
  induction nodes with
  | nil => exact ⟨[], rfl, List.nodup_nil, by simp⟩
  | cons node nodes ih =>
      rw [List.nodup_cons] at hnodup
      obtain ⟨uri, huri⟩ := hvalid node (by simp)
      obtain ⟨uris, hrun, huris, hmem⟩ := ih hnodup.2 fun node' hnode' => hvalid node' (by simp [hnode'])
      refine ⟨uri :: uris, ?_, ?_, fun uri' => ?_⟩
      · rw [List.mapM_cons, huri, hrun]
        rfl
      · rw [List.nodup_cons, hmem]
        refine ⟨fun ⟨node', hin, hsame⟩ => hnodup.1 ?_, huris⟩
        exact h.node_unique huri hsame ▸ hin
      · rw [List.mem_cons, hmem, List.exists_mem_cons_iff, huri, Except.ok.injEq, @eq_comm _ uri]

/-- The reply lists each publisher once. -/
theorem Inv.lookupPublishers (h : m.Inv) (topic : StdString) :
    ∃ reply, m.lookupPublishers topic =
        .ok (reply, { m with topics := m.topics.insert topic (m.topicInfo topic) }) ∧
      reply.Nodup ∧ ∀ uri, uri ∈ reply ↔ m.Holds ⟨.publisher, topic, uri⟩ := by
  have hnodup : (m.topicInfo topic).publishers.toList.Nodup := by
    have hdistinct := ExtTreeSet.distinct_toList (t := (m.topicInfo topic).publishers)
    refine hdistinct.imp fun hne heq => hne ?_
    exact LawfulEqCmp.compare_eq_iff_eq.mpr heq
  have hvalid : ∀ node ∈ (m.topicInfo topic).publishers.toList, ∃ uri, m.nodeUri node = .ok uri :=
    fun node hmem => h.valid .publisher topic node (ExtTreeSet.mem_toList.mp hmem)
  obtain ⟨reply, hrun, hreply, hmem⟩ := h.mapM_nodeUri hnodup hvalid
  refine ⟨reply, ?_, hreply, fun uri => ?_⟩
  · rw [Master.lookupPublishers, hrun]
    rfl
  · simp only [hmem, ExtTreeSet.mem_toList]
    rfl

section

variable {A : Type*} [Ord A] [TransOrd A] [LawfulEqOrd A] [DecidableEq A] (set : StdSet A) (a a' : A)

theorem mem_insert_iff : a' ∈ set.insert a ↔ if a' = a then true = true else a' ∈ set := by
  rw [ExtTreeSet.mem_insert, LawfulEqCmp.compare_eq_iff_eq]
  split_ifs with heq
  · simp [heq]
  · simp [Ne.symm heq]

theorem mem_erase_iff : a' ∈ set.erase a ↔ if a' = a then false = true else a' ∈ set := by
  rw [ExtTreeSet.mem_erase, ne_eq, LawfulEqCmp.compare_eq_iff_eq]
  split_ifs with heq
  · simp [heq]
  · simp [Ne.symm heq]

end

theorem Inv.serves_subscribe (h : m.Inv) (topic uri : StdString) :
    m.Serves (.registerSubscription topic uri)
      ((m.getOrCreateNode uri).2.subscribe (m.getOrCreateNode uri).1 topic) :=
  h.serves_found (.registerSubscription topic uri)
    (fun n => { n with subscriptions := n.subscriptions.insert topic }) (fun set => set.insert _)
    (fun _ => rfl) fun set node' => mem_insert_iff set _ node'

/-- `registerSubscription` replies with the publishers there were before it. -/
theorem Inv.registerSubscription (h : m.Inv) (topic uri : StdString) :
    ∃ reply m', m.registerSubscription topic uri = .ok (reply, m') ∧
      m.Serves (.registerSubscription topic uri) m' ∧ reply.Nodup ∧
      ∀ uri', uri' ∈ reply ↔ m.Holds ⟨.publisher, topic, uri'⟩ := by
  have hserves := h.serves_subscribe topic uri
  obtain ⟨reply, hrun, hreply, hmem⟩ := hserves.inv.lookupPublishers topic
  refine ⟨reply, _, hrun, hserves.lookup topic, hreply, fun uri' => ?_⟩
  rw [hmem]
  exact hserves.frame _ (by simp [MasterRequest.subject])

theorem Inv.onRequest (h : m.Inv) (r : MasterRequest) :
    ∃ m', m.onRequest r = .ok m' ∧ m.Serves r m' := by
  cases r with
  | registerSubscription topic uri =>
      obtain ⟨reply, m', hrun, hserves, -⟩ := h.registerSubscription topic uri
      refine ⟨m', ?_, hserves⟩
      rw [Master.onRequest, hrun]
      rfl
  | unregisterSubscription topic uri =>
      exact ⟨_, rfl, h.serves_found (.unregisterSubscription topic uri)
        (fun n => { n with subscriptions := n.subscriptions.erase topic }) (fun set => set.erase _)
        (fun _ => rfl) fun set node' => mem_erase_iff set _ node'⟩
  | registerPublication topic uri =>
      exact ⟨_, rfl, h.serves_found (.registerPublication topic uri)
        (fun n => { n with publications := n.publications.insert topic }) (fun set => set.insert _)
        (fun _ => rfl) fun set node' => mem_insert_iff set _ node'⟩
  | unregisterPublication topic uri =>
      exact ⟨_, rfl, h.serves_found (.unregisterPublication topic uri)
        (fun n => { n with publications := n.publications.erase topic }) (fun set => set.erase _)
        (fun _ => rfl) fun set node' => mem_erase_iff set _ node'⟩

/-! ### Histories -/

/-- The master has handled these requests. -/
structure Handled (m : Master) (requests : List MasterRequest) : Prop where
  inv : m.Inv
  tracks : Tracks MasterRequest.subject MasterRequest.registers m.Holds requests

theorem handled_empty : empty.Handled [] where
  inv := inv_empty
  tracks s := by
    refine iff_of_false ?_ (by simp [isOpen])
    rintro ⟨node, hmem, -⟩
    cases hrole : s.role <;> simp [members, topicInfo, empty, TopicInfo.members, hrole] at hmem

theorem Handled.onRequest {requests : List MasterRequest} (h : m.Handled requests)
    (r : MasterRequest) :
    ∃ m', m.onRequest r = .ok m' ∧ m.Serves r m' ∧ m'.Handled (requests ++ [r]) := by
  obtain ⟨m', hrun, hserves⟩ := h.inv.onRequest r
  exact ⟨m', hrun, hserves, hserves.inv, h.tracks.concat hserves.self hserves.frame⟩

theorem run_handled (requests : List MasterRequest) :
    ∃ m, run onRequest empty requests = .ok m ∧ m.Handled requests := by
  refine walk_ok (J := fun done (m : Master) => m.Handled done) (C := fun _ => True) ?_
    handled_empty fun _ _ => trivial
  intro done r rest m _ h _
  obtain ⟨m', hrun, -, h'⟩ := h.onRequest r
  exact ⟨m', hrun, h'⟩

/-- A node is held if the last request about it registers it. -/
theorem Handled.holds_iff {requests : List MasterRequest} (h : m.Handled requests)
    (topic uri : StdString) :
    m.Holds ⟨.publisher, topic, uri⟩ ↔
      last MasterRequest.subject ⟨.publisher, topic, uri⟩ requests =
        some (.registerPublication topic uri) := by
  rw [h.tracks, isOpen, Option.any_eq_true]
  constructor
  · rintro ⟨r, hlast, hregisters⟩
    have hkey := key_of_last hlast
    cases r <;> simp_all [MasterRequest.subject, MasterRequest.registers]
  · intro hlast
    exact ⟨_, hlast, rfl⟩

/-- **Replies reflect the requests.** Whatever requests came before, a subscription to a topic is
answered with each publisher once, and with those whose last request about publishing on the topic
registered them. No request about one role changes the members of the other on any topic. -/
theorem replies_reflect_history (before : List MasterRequest) :
    ∃ m, run onRequest empty before = .ok m ∧
      (∀ topic uri, ∃ reply m', m.registerSubscription topic uri = .ok (reply, m') ∧ reply.Nodup ∧
        ∀ publisher, publisher ∈ reply ↔
          last MasterRequest.subject ⟨.publisher, topic, publisher⟩ before =
            some (.registerPublication topic publisher)) ∧
      ∀ r, ∃ m', m.onRequest r = .ok m' ∧
        ∀ role, role ≠ r.subject.role → ∀ topic, m'.members role topic = m.members role topic := by
  obtain ⟨m, hrun, h⟩ := run_handled before
  refine ⟨m, hrun, fun topic uri => ?_, fun r => ?_⟩
  · obtain ⟨reply, m', hreg, -, hreply, hmem⟩ := h.inv.registerSubscription topic uri
    refine ⟨reply, m', hreg, hreply, fun publisher => ?_⟩
    rw [hmem, h.holds_iff]
  · obtain ⟨m', hok, hserves⟩ := h.inv.onRequest r
    exact ⟨m', hok, hserves.other⟩

end Master

end Ros2Proto
