import Ros2Proto.Topics.Manager
import Std.Data.ExtTreeSet

/-!
# The master

`Master` of `master.cpp`: the nodes it has heard of, the topics and who publishes and subscribes to
each. A `NodeInfo*` is the place of the node in `heap`, where `new` appends, so the pointers of a set
are ordered as they were allocated. Nodes are deleted only with the master. Logging, and `printState`
with it, is not part of the model.
-/

namespace Ros2Proto

/-- A `std::set`. -/
abbrev StdSet (A : Type*) [Ord A] := Std.ExtTreeSet A compare

structure NodeInfo where
  uri : StdString
  subscriptions : StdSet StdString
  publications : StdSet StdString

structure TopicInfo where
  subscribers : StdSet Nat
  publishers : StdSet Nat

/-- A request of one of the four services, with its `topic` and `node_uri`. -/
inductive MasterRequest
  | registerSubscription (topic nodeUri : StdString)
  | unregisterSubscription (topic nodeUri : StdString)
  | registerPublication (topic nodeUri : StdString)
  | unregisterPublication (topic nodeUri : StdString)
  deriving DecidableEq, Repr

structure Master where
  nodes : StdMap Nat
  topics : StdMap TopicInfo
  heap : List NodeInfo

namespace Master

def empty : Master := ⟨∅, ∅, []⟩

/-- `topics_[topic]`, which is empty where the map has no entry. -/
def topicInfo (m : Master) (topic : StdString) : TopicInfo := m.topics.getD topic ⟨∅, ∅⟩

def getOrCreateNode (m : Master) (nodeUri : StdString) : Nat × Master :=
  match m.nodes[nodeUri]? with
  | some node => (node, m)
  | none => (m.heap.length, { m with
      nodes := m.nodes.insert nodeUri m.heap.length
      heap := m.heap ++ [⟨nodeUri, ∅, ∅⟩] })

/-! ### `NodeInfo` -/

/-- What the four methods of `NodeInfo` do: one change to the node and one to the topic. -/
def update (m : Master) (node : Nat) (topic : StdString) (onNode : NodeInfo → NodeInfo)
    (onTopic : TopicInfo → TopicInfo) : Master :=
  { m with
    heap := m.heap.modify node onNode
    topics := m.topics.insert topic (onTopic (m.topicInfo topic)) }

def subscribe (m : Master) (node : Nat) (topic : StdString) : Master :=
  m.update node topic (fun n => { n with subscriptions := n.subscriptions.insert topic })
    fun info => { info with subscribers := info.subscribers.insert node }

def unsubscribe (m : Master) (node : Nat) (topic : StdString) : Master :=
  m.update node topic (fun n => { n with subscriptions := n.subscriptions.erase topic })
    fun info => { info with subscribers := info.subscribers.erase node }

def publish (m : Master) (node : Nat) (topic : StdString) : Master :=
  m.update node topic (fun n => { n with publications := n.publications.insert topic })
    fun info => { info with publishers := info.publishers.insert node }

def unpublish (m : Master) (node : Nat) (topic : StdString) : Master :=
  m.update node topic (fun n => { n with publications := n.publications.erase topic })
    fun info => { info with publishers := info.publishers.erase node }

/-! ### The services -/

/-- `(*it)->uri_`. -/
def nodeUri (m : Master) (node : Nat) : Except Fault StdString :=
  match m.heap[node]? with
  | none => .error .nullPointer
  | some n => .ok n.uri

def lookupPublishers (m : Master) (topic : StdString) : Except Fault (List StdString × Master) := do
  let info := m.topicInfo topic
  let nodeUris ← info.publishers.toList.mapM m.nodeUri
  .ok (nodeUris, { m with topics := m.topics.insert topic info })

def registerSubscription (m : Master) (topic nodeUri : StdString) :
    Except Fault (List StdString × Master) :=
  let (node, m) := m.getOrCreateNode nodeUri
  (m.subscribe node topic).lookupPublishers topic

def unregisterSubscription (m : Master) (topic nodeUri : StdString) : Master :=
  let (node, m) := m.getOrCreateNode nodeUri
  m.unsubscribe node topic

def registerPublication (m : Master) (topic nodeUri : StdString) : Master :=
  let (node, m) := m.getOrCreateNode nodeUri
  m.publish node topic

def unregisterPublication (m : Master) (topic nodeUri : StdString) : Master :=
  let (node, m) := m.getOrCreateNode nodeUri
  m.unpublish node topic

/-- The master after a request. -/
def onRequest (m : Master) : MasterRequest → Except Fault Master
  | .registerSubscription topic nodeUri => do
    let (_, m) ← m.registerSubscription topic nodeUri
    .ok m
  | .unregisterSubscription topic nodeUri => .ok (m.unregisterSubscription topic nodeUri)
  | .registerPublication topic nodeUri => .ok (m.registerPublication topic nodeUri)
  | .unregisterPublication topic nodeUri => .ok (m.unregisterPublication topic nodeUri)

end Master

end Ros2Proto
