import Ros2Proto.Transport.Tcp
import Std.Data.ExtTreeMap

/-!
# The topic manager

`TopicManager` of `topic_manager.cpp`: the maps from the names a node uses to topics, the rule table
that `remap` reads, and the publications and subscriptions themselves. A `Publication` or
`Subscription` stands for the object its pointer refers to, with the address `new` gave it. The
transports the factories add to it are not part of the model. What the manager calls on `regp_` and
on these objects is recorded in `calls`, in order.

A failed `assert` is `Fault.assertion`. `refreshRemaps` walks copies of the maps, so each walk is a
fold over the entries the map has when it begins, in key order.
-/

namespace Ros2Proto

/-- A `std::string`: its bytes, which `<` compares as a dictionary does. -/
abbrev StdString := List UInt8

/-- A string literal. -/
def literal (s : String) : StdString := s.toUTF8.data.toList

/-- A `std::map` keyed by strings. -/
abbrev StdMap (V : Type*) := Std.ExtTreeMap StdString V compare

structure Publication where
  ptr : Nat
  topic : StdString
  deriving DecidableEq, Repr

structure Subscription (C : Type*) where
  ptr : Nat
  topic : StdString
  cb : C
  deriving DecidableEq, Repr

/-- A call the manager makes on `regp_`, or on a publication or subscription. -/
inductive TopicCall (M : Type*)
  | registerPublication (topic : StdString)
  | unregisterPublication (topic : StdString)
  | registerSubscription (topic : StdString) (subscription : Nat)
  | unregisterSubscription (topic : StdString)
  | publish (publication : Nat) (msg : M)
  | shutdownPublication (publication : Nat)
  | shutdownSubscription (subscription : Nat)
  deriving DecidableEq, Repr

/-- The manager, for message callbacks of type `C` and messages of type `M`. -/
structure TopicManager (C M : Type*) where
  pubMap : StdMap StdString
  subMap : StdMap StdString
  remaps : StdMap StdString
  publications : StdMap Publication
  subscriptions : StdMap (Subscription C)
  calls : List (TopicCall M)
  /-- the address the next `new` returns -/
  nextPtr : Nat

/-- `remap` under a rule table: the first rule, in the order of the table, whose `find` the name
starts with. -/
def remapBy (rules : StdMap StdString) (name : StdString) : StdString :=
  match rules.toList.find? fun rule => rule.1.isPrefixOf name with
  | some (start, replace) => replace ++ name.drop start.length
  | none => name

namespace TopicManager

variable {C M : Type*}

def empty : TopicManager C M := ⟨∅, ∅, ∅, ∅, ∅, [], 0⟩

def remap (t : TopicManager C M) (name : StdString) : StdString := remapBy t.remaps name

def createPublication (t : TopicManager C M) (topic : StdString) :
    Publication × TopicManager C M :=
  (⟨t.nextPtr, topic⟩, { t with nextPtr := t.nextPtr + 1 })

def createSubscription (t : TopicManager C M) (topic : StdString) (cb : C) :
    Subscription C × TopicManager C M :=
  (⟨t.nextPtr, topic, cb⟩, { t with nextPtr := t.nextPtr + 1 })

def registerPublication (t : TopicManager C M) (unmapped : StdString) :
    Except Fault (TopicManager C M) :=
  let topic := t.remap unmapped
  let t := { t with pubMap := t.pubMap.insert unmapped topic }
  if topic ∈ t.publications then .error .assertion
  else
    let (pub, t) := t.createPublication topic
    .ok { t with
      publications := t.publications.insert topic pub
      calls := t.calls ++ [.registerPublication topic] }

def unregisterPublication (t : TopicManager C M) (unmapped : StdString) :
    Except Fault (TopicManager C M) :=
  match t.pubMap[unmapped]? with
  | none => .error .assertion
  | some topic =>
    match t.publications[topic]? with
    | none => .error .assertion
    | some pub => .ok { t with
        publications := t.publications.erase topic
        calls := t.calls ++ [.shutdownPublication pub.ptr, .unregisterPublication topic]
        pubMap := t.pubMap.erase unmapped }

def subscribe (t : TopicManager C M) (unmapped : StdString) (cb : C) :
    Except Fault (TopicManager C M) :=
  let topic := t.remap unmapped
  if topic ∈ t.subMap then .error .assertion
  else
    let t := { t with subMap := t.subMap.insert unmapped topic }
    if topic ∈ t.subscriptions then .error .assertion
    else
      let (sub, t) := t.createSubscription topic cb
      .ok { t with
        subscriptions := t.subscriptions.insert topic sub
        calls := t.calls ++ [.registerSubscription topic sub.ptr] }

def unregisterSubscription (t : TopicManager C M) (unmapped : StdString) :
    Except Fault (TopicManager C M) :=
  match t.subMap[unmapped]? with
  | none => .error .assertion
  | some topic =>
    match t.subscriptions[topic]? with
    | none => .error .assertion
    | some sub => .ok { t with
        subscriptions := t.subscriptions.erase topic
        calls := t.calls ++ [.shutdownSubscription sub.ptr, .unregisterSubscription topic]
        subMap := t.subMap.erase unmapped }

/-- The last step of `publish`: `publications_[topic]->publish(msg)`. -/
def publishTo (t : TopicManager C M) (topic : StdString) (msg : M) :
    Except Fault (TopicManager C M) :=
  match t.publications[topic]? with
  | none => .error .nullPointer
  | some pub => .ok { t with calls := t.calls ++ [.publish pub.ptr msg] }

def publish (t : TopicManager C M) (unmapped : StdString) (msg : M) :
    Except Fault (TopicManager C M) := do
  let t ← if unmapped ∉ t.pubMap then t.registerPublication unmapped
    else if t.pubMap.getD unmapped [] = t.remap unmapped then .ok t
    else .error .assertion
  t.publishTo (t.pubMap.getD unmapped []) msg

def shutdown (t : TopicManager C M) : Except Fault (TopicManager C M) := do
  let t ← t.pubMap.toList.foldlM (fun t entry => t.unregisterPublication entry.1) t
  t.subMap.toList.foldlM (fun t entry => t.unregisterSubscription entry.1) t

/-! ### Remapping -/

/-- One round of the first loop of `refreshRemaps`. The entry is one of the copy, and the assertion
compares its own topic. -/
def refreshPublication (t : TopicManager C M) (entry : StdString × StdString) :
    Except Fault (TopicManager C M) :=
  let remapped := t.remap entry.1
  if remapped ≠ entry.2 then do
    let t ← t.unregisterPublication entry.1
    let t ← t.registerPublication entry.1
    if entry.2 = remapped then .ok t else .error .assertion
  else .ok t

/-- One round of the second loop. -/
def refreshSubscription (t : TopicManager C M) (entry : StdString × StdString) :
    Except Fault (TopicManager C M) :=
  let remapped := t.remap entry.1
  if remapped ≠ entry.2 then
    match t.subscriptions[entry.2]? with
    | none => .error .nullPointer
    | some sub => do
      let t ← t.unregisterSubscription entry.1
      let t ← t.subscribe entry.1 sub.cb
      if t.subMap.getD entry.1 [] = remapped then .ok t else .error .assertion
  else .ok t

def refreshRemaps (t : TopicManager C M) : Except Fault (TopicManager C M) := do
  let t ← t.pubMap.toList.foldlM refreshPublication t
  t.subMap.toList.foldlM refreshSubscription t

def setRemap (t : TopicManager C M) (find replace : StdString) : Except Fault (TopicManager C M) :=
  refreshRemaps { t with remaps := t.remaps.insert find replace }

/-- The rule table that `setRemappings` builds: of two rules with one `find`, the later stays. -/
def rulesOf (find replace : List StdString) : StdMap StdString :=
  (find.zip replace).foldl (fun rules rule => rules.insert rule.1 rule.2) ∅

def setRemappings (t : TopicManager C M) (find replace : List StdString) :
    Except Fault (TopicManager C M) :=
  if find.length ≠ replace.length then .error .assertion
  else refreshRemaps { t with remaps := rulesOf find replace }

end TopicManager

end Ros2Proto
