import Ros2Proto.Base.Assignment
import Ros2Proto.Base.Runs
import Ros2Proto.Topics.Manager

/-!
# What the topic manager keeps true

Each name in use has a topic of its own, each such topic has its publication or subscription, and
what `regp_` has been told agrees: `Booked`. The elementary operations keep it. Between two calls
each topic is moreover what `remap` makes of its name, which fails only in the middle of
`refreshRemaps`, where the rules are new and some topics still old.
-/

namespace Ros2Proto

open Assignment FallibleRun Std

variable {C M V : Type*}

namespace TopicCall

def registersPublication (topic : StdString) : TopicCall M → Bool
  | registerPublication t => t = topic
  | _ => false

def unregistersPublication (topic : StdString) : TopicCall M → Bool
  | unregisterPublication t => t = topic
  | _ => false

def registersSubscription (topic : StdString) : TopicCall M → Bool
  | registerSubscription t _ => t = topic
  | _ => false

def unregistersSubscription (topic : StdString) : TopicCall M → Bool
  | unregisterSubscription t => t = topic
  | _ => false

end TopicCall

/-- The topics with an object are those opened more often than closed, each exactly once more. -/
def Balanced (opens closes : StdString → TopicCall M → Bool) (calls : List (TopicCall M))
    (objects : StdMap V) : Prop :=
  ∀ topic, calls.countP (opens topic) =
    calls.countP (closes topic) + if topic ∈ objects then 1 else 0

namespace Balanced

variable {opens closes : StdString → TopicCall M → Bool} {calls new : List (TopicCall M)}
  {objects : StdMap V} {topic : StdString}

theorem append (h : Balanced opens closes calls objects)
    (hopens : ∀ t, new.countP (opens t) = 0) (hcloses : ∀ t, new.countP (closes t) = 0) :
    Balanced opens closes (calls ++ new) objects := by
  intro t
  rw [List.countP_append, List.countP_append, hopens, hcloses]
  exact h t

theorem insert (h : Balanced opens closes calls objects) (hfree : topic ∉ objects) (o : V)
    (hopens : ∀ t, new.countP (opens t) = if topic = t then 1 else 0)
    (hcloses : ∀ t, new.countP (closes t) = 0) :
    Balanced opens closes (calls ++ new) (objects.insert topic o) := by
  intro t
  have hmem : t ∈ objects.insert topic o ↔ topic = t ∨ t ∈ objects := mem_insert_iff objects o
  rw [List.countP_append, List.countP_append, hopens, hcloses, h t]
  by_cases ht : topic = t
  · subst ht
    simp [hfree]
  · simp only [hmem, ht, false_or, if_false, Nat.add_zero]

theorem erase (h : Balanced opens closes calls objects) (hused : topic ∈ objects)
    (hopens : ∀ t, new.countP (opens t) = 0)
    (hcloses : ∀ t, new.countP (closes t) = if topic = t then 1 else 0) :
    Balanced opens closes (calls ++ new) (objects.erase topic) := by
  intro t
  have hmem : t ∈ objects.erase topic ↔ ¬ topic = t ∧ t ∈ objects := mem_erase_iff objects
  rw [List.countP_append, List.countP_append, hopens, hcloses, h t]
  by_cases ht : topic = t
  · subst ht
    simp [hused]
  · simp only [hmem, ht, not_false_eq_true, true_and, if_false, Nat.add_zero]

end Balanced

namespace TopicManager

structure Booked (t : TopicManager C M) : Prop where
  pubs : Assigned t.pubMap t.publications
  subs : Assigned t.subMap t.subscriptions
  pubCalls : Balanced TopicCall.registersPublication TopicCall.unregistersPublication t.calls
    t.publications
  subCalls : Balanced TopicCall.registersSubscription TopicCall.unregistersSubscription t.calls
    t.subscriptions

/-- The invariant between two calls. -/
structure Inv (t : TopicManager C M) : Prop extends t.Booked where
  pub_remap : ∀ u topic, t.pubMap[u]? = some topic → t.remap u = topic
  sub_remap : ∀ u topic, t.subMap[u]? = some topic → t.remap u = topic

theorem inv_empty : (empty : TopicManager C M).Inv where
  pubs := .empty
  subs := .empty
  pubCalls _ := by simp [empty]
  subCalls _ := by simp [empty]
  pub_remap u topic h := by simp [empty] at h
  sub_remap u topic h := by simp [empty] at h

/-! ### The elementary operations -/

/-- The manager once `unmapped` is registered for publication. -/
def withPublication (t : TopicManager C M) (unmapped : StdString) : TopicManager C M :=
  { t with
    pubMap := t.pubMap.insert unmapped (t.remap unmapped)
    publications := t.publications.insert (t.remap unmapped) ⟨t.nextPtr, t.remap unmapped⟩
    calls := t.calls ++ [.registerPublication (t.remap unmapped)]
    nextPtr := t.nextPtr + 1 }

def withoutPublication (t : TopicManager C M) (unmapped topic : StdString) (pub : Publication) :
    TopicManager C M :=
  { t with
    publications := t.publications.erase topic
    calls := t.calls ++ [.shutdownPublication pub.ptr, .unregisterPublication topic]
    pubMap := t.pubMap.erase unmapped }

def withSubscription (t : TopicManager C M) (unmapped : StdString) (cb : C) : TopicManager C M :=
  { t with
    subMap := t.subMap.insert unmapped (t.remap unmapped)
    subscriptions := t.subscriptions.insert (t.remap unmapped) ⟨t.nextPtr, t.remap unmapped, cb⟩
    calls := t.calls ++ [.registerSubscription (t.remap unmapped) t.nextPtr]
    nextPtr := t.nextPtr + 1 }

def withoutSubscription (t : TopicManager C M) (unmapped topic : StdString)
    (sub : Subscription C) : TopicManager C M :=
  { t with
    subscriptions := t.subscriptions.erase topic
    calls := t.calls ++ [.shutdownSubscription sub.ptr, .unregisterSubscription topic]
    subMap := t.subMap.erase unmapped }

variable {t t' : TopicManager C M} {u topic : StdString} {cb : C}

theorem registerPublication_eq_ok_iff :
    t.registerPublication u = .ok t' ↔ t.remap u ∉ t.publications ∧ t' = t.withPublication u := by
  by_cases hused : t.remap u ∈ t.publications
  · simp [registerPublication, hused]
  · simp [registerPublication, hused, createPublication, withPublication, eq_comm]

theorem unregisterPublication_eq_ok_iff :
    t.unregisterPublication u = .ok t' ↔ ∃ topic pub, t.pubMap[u]? = some topic ∧
      t.publications[topic]? = some pub ∧ t' = t.withoutPublication u topic pub := by
  rw [unregisterPublication]
  cases hname : t.pubMap[u]? with
  | none => simp
  | some topic =>
      cases hpub : t.publications[topic]? with
      | none => simp [hpub]
      | some pub => simp [hpub, withoutPublication, eq_comm]

theorem subscribe_eq_ok_iff :
    t.subscribe u cb = .ok t' ↔ t.remap u ∉ t.subMap ∧ t.remap u ∉ t.subscriptions ∧
      t' = t.withSubscription u cb := by
  by_cases hname : t.remap u ∈ t.subMap
  · simp [subscribe, hname]
  · by_cases hused : t.remap u ∈ t.subscriptions
    · simp [subscribe, hname, hused]
    · simp [subscribe, hname, hused, createSubscription, withSubscription, eq_comm]

theorem unregisterSubscription_eq_ok_iff :
    t.unregisterSubscription u = .ok t' ↔ ∃ topic sub, t.subMap[u]? = some topic ∧
      t.subscriptions[topic]? = some sub ∧ t' = t.withoutSubscription u topic sub := by
  rw [unregisterSubscription]
  cases hname : t.subMap[u]? with
  | none => simp
  | some topic =>
      cases hsub : t.subscriptions[topic]? with
      | none => simp [hsub]
      | some sub => simp [hsub, withoutSubscription, eq_comm]

theorem publishTo_eq_ok_iff {msg : M} :
    t.publishTo topic msg = .ok t' ↔
      ∃ pub, t.publications[topic]? = some pub ∧ t' = { t with calls := t.calls ++ [.publish pub.ptr msg] } := by
  rw [publishTo]
  cases hpub : t.publications[topic]? with
  | none => simp
  | some pub => simp [eq_comm]

theorem Booked.withPublication (h : t.Booked) (hname : t.pubMap[u]? = none)
    (hfree : t.remap u ∉ t.publications) : (t.withPublication u).Booked where
  pubs := h.pubs.insert hname hfree _
  subs := h.subs
  pubCalls := h.pubCalls.insert hfree _
    (fun _ => by simp [TopicCall.registersPublication, List.countP_cons])
    (fun _ => by simp [TopicCall.unregistersPublication])
  subCalls := h.subCalls.append (fun _ => by simp [TopicCall.registersSubscription])
    (fun _ => by simp [TopicCall.unregistersSubscription])

theorem Booked.withoutPublication (h : t.Booked) {pub : Publication}
    (hname : t.pubMap[u]? = some topic) : (t.withoutPublication u topic pub).Booked where
  pubs := h.pubs.erase hname
  subs := h.subs
  pubCalls := h.pubCalls.erase ((h.pubs.image topic).mpr ⟨u, hname⟩)
    (fun _ => by simp [TopicCall.registersPublication])
    (fun _ => by simp [TopicCall.unregistersPublication, List.countP_cons])
  subCalls := h.subCalls.append (fun _ => by simp [TopicCall.registersSubscription])
    (fun _ => by simp [TopicCall.unregistersSubscription])

theorem Booked.withSubscription (h : t.Booked) (hname : t.subMap[u]? = none)
    (hfree : t.remap u ∉ t.subscriptions) : (t.withSubscription u cb).Booked where
  pubs := h.pubs
  subs := h.subs.insert hname hfree _
  pubCalls := h.pubCalls.append (fun _ => by simp [TopicCall.registersPublication])
    (fun _ => by simp [TopicCall.unregistersPublication])
  subCalls := h.subCalls.insert hfree _
    (fun _ => by simp [TopicCall.registersSubscription, List.countP_cons])
    (fun _ => by simp [TopicCall.unregistersSubscription])

theorem Booked.withoutSubscription (h : t.Booked) {sub : Subscription C}
    (hname : t.subMap[u]? = some topic) : (t.withoutSubscription u topic sub).Booked where
  pubs := h.pubs
  subs := h.subs.erase hname
  pubCalls := h.pubCalls.append (fun _ => by simp [TopicCall.registersPublication])
    (fun _ => by simp [TopicCall.unregistersPublication])
  subCalls := h.subCalls.erase ((h.subs.image topic).mpr ⟨u, hname⟩)
    (fun _ => by simp [TopicCall.registersSubscription])
    (fun _ => by simp [TopicCall.unregistersSubscription, List.countP_cons])

end TopicManager

end Ros2Proto
