import Ros2Proto.Topics.Booking

/-!
# Subscribing in any order

Names are subscribed one after another, from an empty manager with some rules. `subscribe` looks for the
new topic among the names, where it means the topics, so it fails on a name whose topic is another name
that was subscribed before. If no topic is another of the names, every order succeeds and all orders leave
the same maps. If some topic is, the order that takes the other name first fails.
-/

namespace Ros2Proto

open Assignment FallibleRun Std

variable {C M : Type*} {rules : StdMap StdString}

/-- Names with their callbacks, of which no two are equal or lead to one topic. -/
structure SeparateNames (rules : StdMap StdString) (C : Type*) where
  entries : List (StdString × C)
  names_nodup : (entries.map Prod.fst).Nodup
  topics_nodup : (entries.map fun e => remapBy rules e.1).Nodup

namespace TopicManager

/-- `subscribe` of each entry, in order. -/
def subscribeAll (rules : StdMap StdString) (entries : List (StdString × C)) :
    Except Fault (TopicManager C M) :=
  run (fun t e => t.subscribe e.1 e.2) { empty with remaps := rules } entries

/-- The managers read every name as the same topic, and every topic has the same callback. -/
def SameSubscriptions (t t' : TopicManager C M) : Prop :=
  t.subMap = t'.subMap ∧ ∀ topic : StdString,
    t.subscriptions[topic]?.map Subscription.cb = t'.subscriptions[topic]?.map Subscription.cb

/-- No order fails, and all orders lead to the same subscriptions. -/
def OrderIndependent (M : Type*) (names : SeparateNames rules C) : Prop :=
  ∀ es es', es.Perm names.entries → es'.Perm names.entries → ∃ t t' : TopicManager C M,
    subscribeAll rules es = .ok t ∧ subscribeAll rules es' = .ok t' ∧ SameSubscriptions t t'

/-- The manager has subscribed the entries. -/
structure HasSubscribed (rules : StdMap StdString) (done : List (StdString × C))
    (t : TopicManager C M) : Prop where
  remaps : t.remaps = rules
  sub_iff : ∀ u topic, t.subMap[u]? = some topic ↔ u ∈ done.map Prod.fst ∧ remapBy rules u = topic
  cb_iff : ∀ topic cb, t.subscriptions[topic]?.map Subscription.cb = some cb ↔
    ∃ u, (u, cb) ∈ done ∧ remapBy rules u = topic

variable {t t' : TopicManager C M} {done done' : List (StdString × C)} {e : StdString × C}

theorem hasSubscribed_nil : HasSubscribed rules [] ({ empty with remaps := rules } : TopicManager C M) where
  remaps := rfl
  sub_iff u topic := by simp [empty]
  cb_iff topic cb := by simp [empty]

namespace HasSubscribed

theorem remap (h : HasSubscribed rules done t) (u : StdString) : t.remap u = remapBy rules u := by
  rw [TopicManager.remap, h.remaps]

theorem mem_subMap (h : HasSubscribed rules done t) (u : StdString) :
    u ∈ t.subMap ↔ u ∈ done.map Prod.fst := by
  simp [mem_iff_exists_getElem?, h.sub_iff]

theorem mem_subscriptions (h : HasSubscribed rules done t) (topic : StdString) :
    topic ∈ t.subscriptions ↔ topic ∈ done.map fun e => remapBy rules e.1 := by
  rw [mem_iff_exists_getElem?, List.mem_map]
  constructor
  · intro hsome
    obtain ⟨sub, hsub⟩ := hsome
    obtain ⟨u, hmem, htopic⟩ := (h.cb_iff topic sub.cb).mp (by rw [hsub]; rfl)
    exact ⟨(u, sub.cb), hmem, htopic⟩
  · intro hsome
    obtain ⟨e, hmem, htopic⟩ := hsome
    obtain ⟨sub, hsub, -⟩ := Option.map_eq_some_iff.mp ((h.cb_iff topic e.2).mpr ⟨e.1, hmem, htopic⟩)
    exact ⟨sub, hsub⟩

/-- A name can be subscribed unless its topic is a name or the topic of a name. -/
theorem subscribe_ok_iff (h : HasSubscribed rules done t) (e : StdString × C) :
    (∃ t', t.subscribe e.1 e.2 = .ok t') ↔ remapBy rules e.1 ∉ done.map Prod.fst ∧
      remapBy rules e.1 ∉ done.map fun e => remapBy rules e.1 := by
  rw [← h.mem_subMap, ← h.mem_subscriptions, ← h.remap]
  constructor
  · intro hok
    obtain ⟨t', hok⟩ := hok
    obtain ⟨hname, htopic, -⟩ := subscribe_eq_ok_iff.mp hok
    exact ⟨hname, htopic⟩
  · intro hfree
    exact ⟨_, subscribe_eq_ok_iff.mpr ⟨hfree.1, hfree.2, rfl⟩⟩

theorem subscribe (h : HasSubscribed rules done t) (hok : t.subscribe e.1 e.2 = .ok t') :
    HasSubscribed rules (done ++ [e]) t' := by
  have hfree := ((h.subscribe_ok_iff e).mp ⟨t', hok⟩).2
  obtain ⟨-, -, rfl⟩ := subscribe_eq_ok_iff.mp hok
  apply HasSubscribed.mk
  case remaps => exact h.remaps
  case sub_iff =>
    intro u topic
    show (t.subMap.insert e.1 (t.remap e.1))[u]? = some topic ↔ _
    rw [h.remap, List.map_append, List.mem_append, List.map_singleton, List.mem_singleton]
    by_cases hu : u = e.1
    · rw [hu, ExtTreeMap.getElem?_insert_self]
      simp
    · rw [getElem?_insert_of_ne _ hu, h.sub_iff]
      simp [hu]
  case cb_iff =>
    intro topic cb
    show (t.subscriptions.insert (t.remap e.1) _)[topic]?.map _ = some cb ↔ _
    rw [h.remap]
    by_cases htopic : topic = remapBy rules e.1
    · rw [htopic, ExtTreeMap.getElem?_insert_self]
      constructor
      · intro hcb
        cases hcb
        exact ⟨e.1, List.mem_append_right _ (List.mem_singleton_self e), rfl⟩
      · intro hsome
        obtain ⟨u, hmem, hsame⟩ := hsome
        rcases List.mem_append.mp hmem with hmem | hmem
        · exact absurd (List.mem_map.mpr ⟨(u, cb), hmem, hsame⟩) hfree
        · rw [← List.mem_singleton.mp hmem]
          rfl
    · rw [getElem?_insert_of_ne _ htopic, h.cb_iff]
      refine exists_congr fun u => and_congr_left fun hu => ?_
      rw [List.mem_append, List.mem_singleton, or_iff_left]
      intro heq
      exact htopic (by rw [← heq, hu])

/-- The order of the entries does not matter. -/
theorem same (h : HasSubscribed rules done t) (h' : HasSubscribed rules done' t')
    (hperm : done.Perm done') : SameSubscriptions t t' := by
  constructor
  · apply ExtTreeMap.ext_getElem?
    intro u
    apply Option.ext
    intro topic
    rw [h.sub_iff, h'.sub_iff, (hperm.map Prod.fst).mem_iff]
  · intro topic
    apply Option.ext
    intro cb
    rw [h.cb_iff, h'.cb_iff]
    simp only [hperm.mem_iff]

end HasSubscribed

/-! ### Orders -/

/-- If no topic is another name, no order fails. -/
theorem subscribeAll_ok (names : SeparateNames rules C)
    (hnone : ∀ u ∈ names.entries.map Prod.fst, ∀ v ∈ names.entries.map Prod.fst,
      remapBy rules u = v → u = v)
    {es : List (StdString × C)} (hperm : es.Perm names.entries) :
    ∃ t : TopicManager C M, subscribeAll rules es = .ok t ∧ HasSubscribed rules es t := by
  have hnames : (es.map Prod.fst).Nodup := (hperm.map _).nodup_iff.mpr names.names_nodup
  have htopics : (es.map fun e => remapBy rules e.1).Nodup :=
    (hperm.map _).nodup_iff.mpr names.topics_nodup
  apply walk_ok (J := HasSubscribed rules) (C := fun _ => True) _ hasSubscribed_nil (fun _ _ => trivial)
  intro done e rest t hes h _
  rw [hes, List.map_append, List.map_cons] at hnames htopics
  have hname : e.1 ∉ done.map Prod.fst := fun hmem =>
    (List.nodup_append.mp hnames).2.2 _ hmem _ List.mem_cons_self rfl
  have htopic : remapBy rules e.1 ∉ done.map fun e => remapBy rules e.1 := fun hmem =>
    (List.nodup_append.mp htopics).2.2 _ hmem _ List.mem_cons_self rfl
  have hlisted : ∀ e' ∈ done ++ e :: rest, e'.1 ∈ names.entries.map Prod.fst := fun e' hmem =>
    List.mem_map_of_mem (hperm.mem_iff.mp (hes ▸ hmem))
  have hother : remapBy rules e.1 ∉ done.map Prod.fst := by
    intro hmem
    obtain ⟨e', he', htopic'⟩ := List.mem_map.mp hmem
    have heq := hnone e.1 (hlisted e (by simp)) e'.1 (hlisted e' (by simp [he'])) htopic'.symm
    rw [← heq] at htopic'
    exact hname (List.mem_map.mpr ⟨e', he', heq.symm⟩)
  obtain ⟨t', hok⟩ := (h.subscribe_ok_iff e).mpr ⟨hother, htopic⟩
  exact ⟨t', hok, h.subscribe hok⟩

/-- If a topic is another name, the order that begins with that name fails. -/
theorem exists_order_fails (names : SeparateNames rules C) {u v : StdString}
    (hu : u ∈ names.entries.map Prod.fst) (hv : v ∈ names.entries.map Prod.fst) (hne : u ≠ v)
    (htopic : remapBy rules u = v) :
    ∃ es, es.Perm names.entries ∧ ∀ t : TopicManager C M, subscribeAll rules es ≠ .ok t := by
  obtain ⟨eu, hmemu, rfl⟩ := List.mem_map.mp hu
  obtain ⟨ev, hmemv, rfl⟩ := List.mem_map.mp hv
  obtain ⟨before, after, hsplit⟩ := List.append_of_mem hmemv
  have hrest : eu ∈ before ++ after := by
    rw [hsplit, List.mem_append, List.mem_cons] at hmemu
    rcases hmemu with hmem | rfl | hmem
    · exact List.mem_append_left _ hmem
    · exact absurd rfl hne
    · exact List.mem_append_right _ hmem
  obtain ⟨before', after', hsplit'⟩ := List.append_of_mem hrest
  refine ⟨ev :: eu :: (before' ++ after'), ?_, fun t hrun => ?_⟩
  · rw [hsplit]
    refine List.Perm.trans ?_ List.perm_middle.symm
    rw [hsplit']
    exact List.perm_middle.symm.cons ev
  · rw [subscribeAll, run_cons] at hrun
    obtain ⟨t₁, hfirst, hrun⟩ := bind_eq_ok_iff.mp hrun
    rw [run_cons] at hrun
    obtain ⟨t₂, hsecond, -⟩ := bind_eq_ok_iff.mp hrun
    have h₁ := hasSubscribed_nil.subscribe hfirst
    have hfree := ((h₁.subscribe_ok_iff eu).mp ⟨t₂, hsecond⟩).1
    exact hfree (by simp [htopic])

/-- **The order of subscribing matters exactly if the topic of a name is another of the names.** -/
theorem subscribe_orderIndependent_iff (names : SeparateNames rules C) :
    OrderIndependent M names ↔ ∀ u ∈ names.entries.map Prod.fst,
      ∀ v ∈ names.entries.map Prod.fst, remapBy rules u = v → u = v := by
  constructor
  · intro hall u hu v hv htopic
    by_contra hne
    obtain ⟨es, hperm, hfails⟩ := exists_order_fails (M := M) names hu hv hne htopic
    obtain ⟨t, -, hrun, -⟩ := hall es es hperm hperm
    exact hfails t hrun
  · intro hnone es es' hperm hperm'
    obtain ⟨t, hrun, h⟩ := subscribeAll_ok names hnone hperm
    obtain ⟨t', hrun', h'⟩ := subscribeAll_ok names hnone hperm'
    exact ⟨t, t', hrun, hrun', h.same h' (hperm.trans hperm'.symm)⟩

/-- The names `/a` and `/b`, where `/a` is read as `/b` and `/b` as `/c`. -/
def chained : SeparateNames (rulesOf [[47, 97], [47, 98]] [[47, 98], [47, 99]]) Unit where
  entries := [([47, 97], ()), ([47, 98], ())]
  names_nodup := by decide
  topics_nodup := by decide

/-- Subscribing `/b` before `/a` fails. -/
theorem not_orderIndependent : ¬ ∀ (rules : StdMap StdString) (names : SeparateNames rules Unit),
    OrderIndependent Unit names := by
  intro hall
  obtain ⟨t, -, hrun, -⟩ := hall _ chained [([47, 98], ()), ([47, 97], ())] _
    (List.Perm.swap _ _ _) (List.Perm.refl _)
  cases hrun

end TopicManager

end Ros2Proto
