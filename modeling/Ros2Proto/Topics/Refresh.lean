import Ros2Proto.Topics.Booking

/-!
# The two loops of `refreshRemaps`

The first loop gets through only where it has nothing to do. Its assertion compares the new topic
with the topic in the copy, so it fails on the first publication that moves.

The second loop moves the subscriptions one by one, in the order of their names. `Refreshed t done s`
describes the state `s` it has reached from `t` when the entries `done` are behind it: their topics
are new, the others old. A subscription gets through exactly if it is `Movable`.
-/

namespace Ros2Proto

open Assignment FallibleRun Std

variable {C M : Type*}

/-- A subscription of the name `entry.1`, with the topic `entry.2`, can be moved under `rules`: its
new topic is not another subscribed name, and no other subscription has it when this one's turn
comes. By then the names before it have their new topics and those after it their old ones. -/
def Movable (rules subMap : StdMap StdString) (entry : StdString × StdString) : Prop :=
  remapBy rules entry.1 ≠ entry.2 →
    (∀ v ∈ subMap, v ≠ entry.1 → remapBy rules entry.1 ≠ v) ∧
    ∀ v topic, subMap[v]? = some topic → v ≠ entry.1 →
      remapBy rules entry.1 ≠ if compare v entry.1 = .lt then remapBy rules v else topic

namespace TopicCall

/-- The call concerns a subscription. -/
def onSubscription : TopicCall M → Bool
  | registerSubscription _ _ | unregisterSubscription _ | shutdownSubscription _ => true
  | _ => false

end TopicCall

namespace TopicManager

variable {t s s' : TopicManager C M} {u old : StdString}

/-! ### Publications -/

theorem refreshPublication_of_eq {entry : StdString × StdString} (h : t.remap entry.1 = entry.2) :
    t.refreshPublication entry = .ok t := by
  simp [refreshPublication, h]

theorem refreshPublication_only_if {entry : StdString × StdString}
    (hrun : t.refreshPublication entry = .ok s) : t.remap entry.1 = entry.2 := by
  by_contra hne
  simp only [refreshPublication, ne_eq, hne, not_false_eq_true, if_true, bind, Except.bind] at hrun
  split at hrun
  · cases hrun
  · split at hrun
    · cases hrun
    · rw [if_neg fun heq => hne heq.symm] at hrun
      cases hrun

/-- The first loop changes nothing, and gets through exactly if no publication moves. -/
theorem refreshPublications_eq_ok_iff :
    t.pubMap.toList.foldlM refreshPublication t = .ok s ↔
      s = t ∧ ∀ u topic, t.pubMap[u]? = some topic → t.remap u = topic := by
  have hstep : ∀ done e rest s, t.pubMap.toList = done ++ e :: rest → s = t →
      t.remap e.1 = e.2 → ∃ s', refreshPublication s e = .ok s' ∧ s' = t := by
    intro done e rest s _ hs heq
    subst hs
    exact ⟨s, refreshPublication_of_eq heq, rfl⟩
  have hentries : (∀ e ∈ t.pubMap.toList, t.remap e.1 = e.2) ↔
      ∀ u topic, t.pubMap[u]? = some topic → t.remap u = topic := by
    simp only [Prod.forall, ExtTreeMap.mem_toList_iff_getElem?_eq_some]
  rw [← hentries]
  constructor
  · intro hrun
    have hall := walk_only_if (J := fun _ s => s = t) hstep
      (fun _ _ _ s s' _ hs hround => hs ▸ refreshPublication_only_if hround) rfl hrun
    obtain ⟨s', hrun', hs'⟩ := walk_ok (J := fun _ s => s = t) hstep rfl hall
    exact ⟨(Except.ok.inj (hrun.symm.trans hrun')).trans hs', hall⟩
  · rintro ⟨rfl, hall⟩
    obtain ⟨s', hrun', rfl⟩ := walk_ok (J := fun _ s' => s' = s) hstep rfl hall
    exact hrun'

/-! ### Subscriptions -/

/-- The state reached from `t` with the entries `done` behind. -/
structure Refreshed (t : TopicManager C M) (done : List (StdString × StdString))
    (s : TopicManager C M) : Prop where
  booked : s.Booked
  remaps : s.remaps = t.remaps
  pubMap : s.pubMap = t.pubMap
  publications : s.publications = t.publications
  topics : ∀ u : StdString, s.subMap[u]? =
    t.subMap[u]?.map fun old => if (u, old) ∈ done then t.remap u else old
  callbacks : ∀ u old topic : StdString, t.subMap[u]? = some old → s.subMap[u]? = some topic →
    s.subscriptions[topic]?.map Subscription.cb = t.subscriptions[old]?.map Subscription.cb
  calls : ∃ new, s.calls = t.calls ++ new ∧ ∀ c ∈ new, c.onSubscription = true

theorem refreshed_nil (h : t.Booked) : Refreshed t [] t where
  booked := h
  remaps := rfl
  pubMap := rfl
  publications := rfl
  topics u := by simp
  callbacks u old topic hold htopic := by
    rw [Option.some.inj (hold.symm.trans htopic)]
  calls := ⟨[], by simp, by simp⟩

theorem Refreshed.remap (h : Refreshed t done s) (name : StdString) : s.remap name = t.remap name := by
  rw [TopicManager.remap, h.remaps, TopicManager.remap]

theorem refreshSubscription_of_eq (h : t.remap u = old) :
    t.refreshSubscription (u, old) = .ok t := by
  simp [refreshSubscription, h]

/-- A round that moves a subscription is `unregisterSubscription` and `subscribe`. -/
theorem refreshSubscription_of_ne {sub : Subscription C} (hname : t.subMap[u]? = some old)
    (hsub : t.subscriptions[old]? = some sub) (hne : t.remap u ≠ old) :
    t.refreshSubscription (u, old) = (t.withoutSubscription u old sub).subscribe u sub.cb := by
  have hunregister : t.unregisterSubscription u = .ok (t.withoutSubscription u old sub) :=
    unregisterSubscription_eq_ok_iff.mpr ⟨old, sub, hname, hsub, rfl⟩
  simp only [refreshSubscription, hne, ne_eq, not_false_eq_true, if_true, hsub, hunregister, bind,
    Except.bind]
  cases hsubscribe : (t.withoutSubscription u old sub).subscribe u sub.cb with
  | error f => rfl
  | ok s =>
      obtain ⟨-, -, rfl⟩ := subscribe_eq_ok_iff.mp hsubscribe
      simp [withSubscription, withoutSubscription, TopicManager.remap]

section

variable {done rest : List (StdString × StdString)}

/-- What a walk of the subscriptions has before it at the entry `(u, old)`. -/
theorem Refreshed.name (h : Refreshed t done s) (hsplit : t.subMap.toList = done ++ (u, old) :: rest) :
    t.subMap[u]? = some old ∧ s.subMap[u]? = some old := by
  have hmem : (u, old) ∈ t.subMap.toList := by simp [hsplit]
  have hname := ExtTreeMap.mem_toList_iff_getElem?_eq_some.mp hmem
  have hnot : (u, old) ∉ done := by
    rw [mem_done_iff hsplit]
    rintro ⟨-, hlt⟩
    simp at hlt
  refine ⟨hname, ?_⟩
  rw [h.topics, hname, Option.map_some, if_neg hnot]

theorem Refreshed.other (h : Refreshed t done s)
    (hsplit : t.subMap.toList = done ++ (u, old) :: rest) {v topic : StdString}
    (hv : t.subMap[v]? = some topic) :
    s.subMap[v]? = some (if compare v u = .lt then t.remap v else topic) := by
  have hdone : (v, topic) ∈ done ↔ compare v u = .lt := by
    rw [mem_done_iff hsplit, ExtTreeMap.mem_toList_iff_getElem?_eq_some]
    exact and_iff_right hv
  rw [h.topics, hv, Option.map_some]
  simp only [hdone]

theorem Refreshed.mem_subMap (h : Refreshed t done s) (v : StdString) :
    v ∈ s.subMap ↔ v ∈ t.subMap := by
  rw [ExtTreeMap.mem_iff_isSome_getElem?, ExtTreeMap.mem_iff_isSome_getElem?, h.topics,
    Option.isSome_map]

/-- Both checks of `subscribe` pass exactly if the subscription is movable. -/
theorem Refreshed.movable_iff (h : Refreshed t done s)
    (hsplit : t.subMap.toList = done ++ (u, old) :: rest) (hne : t.remap u ≠ old)
    (sub : Subscription C) :
    (t.remap u ∉ (s.withoutSubscription u old sub).subMap ∧
      t.remap u ∉ (s.withoutSubscription u old sub).subscriptions) ↔
    Movable t.remaps t.subMap (u, old) := by
  have hname : t.remap u ∉ (s.withoutSubscription u old sub).subMap ↔
      ∀ v ∈ t.subMap, v ≠ u → t.remap u ≠ v := by
    rw [withoutSubscription, ExtTreeMap.mem_erase, ne_eq, LawfulEqCmp.compare_eq_iff_eq, h.mem_subMap]
    constructor
    · intro hnot v hv hvu heq
      exact hnot ⟨fun hu => hvu (heq.symm.trans hu.symm), heq ▸ hv⟩
    · rintro hall ⟨hu, hmem⟩
      exact hall _ hmem (fun heq => hu heq.symm) rfl
  have htopic : t.remap u ∉ (s.withoutSubscription u old sub).subscriptions ↔
      ∀ v topic, t.subMap[v]? = some topic → v ≠ u →
        t.remap u ≠ if compare v u = .lt then t.remap v else topic := by
    rw [withoutSubscription, ExtTreeMap.mem_erase, ne_eq, LawfulEqCmp.compare_eq_iff_eq,
      h.booked.subs.image]
    constructor
    · intro hnot v topic hv hvu heq
      exact hnot ⟨fun hold => hne hold.symm, v, (h.other hsplit hv).trans (congrArg some heq.symm)⟩
    · rintro hall ⟨-, v, hv⟩
      have hvu : v ≠ u := by
        rintro rfl
        rw [(h.name hsplit).2] at hv
        exact hne (Option.some.inj hv).symm
      have hmem : v ∈ t.subMap := (h.mem_subMap v).mp ((mem_iff_exists_getElem? _ _).mpr ⟨_, hv⟩)
      obtain ⟨topic, htopic⟩ := (mem_iff_exists_getElem? _ _).mp hmem
      rw [h.other hsplit htopic] at hv
      exact hall v topic htopic hvu (Option.some.inj hv).symm
  rw [hname, htopic]
  exact ⟨fun hall _ => hall, fun hmovable => hmovable hne⟩

/-- A round that finds the topic unchanged. -/
theorem Refreshed.stay (h : Refreshed t done s) (heq : t.remap u = old) :
    Refreshed t (done ++ [(u, old)]) s where
  booked := h.booked
  remaps := h.remaps
  pubMap := h.pubMap
  publications := h.publications
  topics v := by
    rw [h.topics]
    cases hv : t.subMap[v]? with
    | none => rfl
    | some topic =>
        by_cases hpair : (v, topic) = (u, old)
        · cases hpair
          simp [heq]
        · rw [Option.map_some, Option.map_some]
          simp only [List.mem_append, List.mem_singleton, hpair, or_false]
  callbacks := h.callbacks
  calls := h.calls

/-- A round that moves the subscription. -/
theorem Refreshed.move (h : Refreshed t done s)
    (hsplit : t.subMap.toList = done ++ (u, old) :: rest) (hne : t.remap u ≠ old)
    {sub : Subscription C} (hsub : s.subscriptions[old]? = some sub)
    (hfree : t.remap u ∉ (s.withoutSubscription u old sub).subscriptions) :
    Refreshed t (done ++ [(u, old)])
      ((s.withoutSubscription u old sub).withSubscription u sub.cb) where
  booked := by
    apply (h.booked.withoutSubscription (h.name hsplit).2).withSubscription
    · exact ExtTreeMap.getElem?_erase_self
    · exact (h.remap u).symm ▸ hfree
  remaps := h.remaps
  pubMap := h.pubMap
  publications := h.publications
  topics v := by
    have hremap : (s.withoutSubscription u old sub).remap u = t.remap u := h.remap u
    rw [withSubscription, hremap]
    by_cases hv : v = u
    · subst hv
      simp [(h.name hsplit).1]
    · have hpair : ∀ topic, (v, topic) ∈ done ++ [(u, old)] ↔ (v, topic) ∈ done := by
        intro topic
        simp [hv]
      simp only [hpair]
      rw [getElem?_insert_of_ne _ hv, withoutSubscription, getElem?_erase_of_ne _ hv, h.topics]
  callbacks v old' topic hold htopic := by
    have hremap : (s.withoutSubscription u old sub).remap u = t.remap u := h.remap u
    rw [withSubscription, hremap] at htopic ⊢
    by_cases hv : v = u
    · subst hv
      rw [ExtTreeMap.getElem?_insert_self] at htopic
      obtain rfl := Option.some.inj htopic
      obtain rfl := Option.some.inj (hold.symm.trans (h.name hsplit).1)
      rw [ExtTreeMap.getElem?_insert_self, ← h.callbacks v _ _ hold (h.name hsplit).2, hsub]
      rfl
    · rw [getElem?_insert_of_ne _ hv, withoutSubscription, getElem?_erase_of_ne _ hv] at htopic
      have hnotOld : topic ≠ old := by
        rintro rfl
        exact hv (h.booked.subs.injective v u topic htopic (h.name hsplit).2)
      have hnotNew : topic ≠ t.remap u := by
        rintro rfl
        apply hfree
        rw [withoutSubscription, ExtTreeMap.mem_erase, h.booked.subs.image, ne_eq,
          LawfulEqCmp.compare_eq_iff_eq]
        exact ⟨fun heq => hne heq.symm, v, htopic⟩
      rw [getElem?_insert_of_ne _ hnotNew, withoutSubscription, getElem?_erase_of_ne _ hnotOld]
      exact h.callbacks v old' topic hold htopic
  calls := by
    obtain ⟨new, hcalls, hnew⟩ := h.calls
    refine ⟨new ++ [.shutdownSubscription sub.ptr, .unregisterSubscription old,
      .registerSubscription (s.remap u) s.nextPtr], ?_, ?_⟩
    · simp [withSubscription, withoutSubscription, TopicManager.remap, hcalls]
    · intro c hc
      rcases List.mem_append.mp hc with hc | hc
      · exact hnew c hc
      · simp only [List.mem_cons, List.not_mem_nil, or_false] at hc
        rcases hc with rfl | rfl | rfl <;> rfl

/-- A round succeeds exactly on a movable subscription. -/
theorem Refreshed.round_ok (h : Refreshed t done s) {e : StdString × StdString}
    (hsplit : t.subMap.toList = done ++ e :: rest) (hmovable : Movable t.remaps t.subMap e) :
    ∃ s', s.refreshSubscription e = .ok s' ∧ Refreshed t (done ++ [e]) s' := by
  obtain ⟨u, old⟩ := e
  by_cases heq : t.remap u = old
  · exact ⟨s, refreshSubscription_of_eq ((h.remap u).trans heq), h.stay heq⟩
  · obtain ⟨sub, hsub⟩ := h.booked.subs.object (h.name hsplit).2
    obtain ⟨hname, hfree⟩ := (h.movable_iff hsplit heq sub).mpr hmovable
    refine ⟨_, ?_, h.move hsplit heq hsub hfree⟩
    rw [refreshSubscription_of_ne (h.name hsplit).2 hsub ((h.remap u).symm ▸ heq)]
    apply subscribe_eq_ok_iff.mpr
    exact ⟨(h.remap u).symm ▸ hname, (h.remap u).symm ▸ hfree, rfl⟩

theorem Refreshed.round_only_if (h : Refreshed t done s) {e : StdString × StdString}
    (hsplit : t.subMap.toList = done ++ e :: rest) (hrun : s.refreshSubscription e = .ok s') :
    Movable t.remaps t.subMap e := by
  obtain ⟨u, old⟩ := e
  by_cases heq : t.remap u = old
  · exact fun hne => absurd heq hne
  · obtain ⟨sub, hsub⟩ := h.booked.subs.object (h.name hsplit).2
    rw [refreshSubscription_of_ne (h.name hsplit).2 hsub ((h.remap u).symm ▸ heq)] at hrun
    obtain ⟨hname, hfree, -⟩ := subscribe_eq_ok_iff.mp hrun
    exact (h.movable_iff hsplit heq sub).mp ⟨(h.remap u) ▸ hname, (h.remap u) ▸ hfree⟩

end

/-- **The second loop** gets through exactly if every subscription is movable. -/
theorem refreshSubscriptions_ok (h : t.Booked)
    (hmovable : ∀ e ∈ t.subMap.toList, Movable t.remaps t.subMap e) :
    ∃ s, t.subMap.toList.foldlM refreshSubscription t = .ok s ∧ Refreshed t t.subMap.toList s :=
  walk_ok (J := Refreshed t) (fun _ _ _ _ hsplit hs hmove => hs.round_ok hsplit hmove)
    (refreshed_nil h) hmovable

theorem refreshSubscriptions_only_if (h : t.Booked)
    (hrun : t.subMap.toList.foldlM refreshSubscription t = .ok s) :
    ∀ e ∈ t.subMap.toList, Movable t.remaps t.subMap e :=
  walk_only_if (J := Refreshed t) (fun _ _ _ _ hsplit hs hmove => hs.round_ok hsplit hmove)
    (fun _ _ _ _ _ hsplit hs hround => hs.round_only_if hsplit hround) (refreshed_nil h) hrun

/-! ### The whole of `refreshRemaps` -/

/-- After the second loop every subscription has its new topic. -/
theorem Refreshed.sub_remap (h : Refreshed t t.subMap.toList s) (u : StdString) :
    s.subMap[u]? = t.subMap[u]?.map fun _ => t.remap u := by
  rw [h.topics]
  cases hold : t.subMap[u]? with
  | none => rfl
  | some old =>
      have hmem := ExtTreeMap.mem_toList_iff_getElem?_eq_some.mpr hold
      rw [Option.map_some, Option.map_some, if_pos hmem]

/-- `refreshRemaps` under new rules: no publication moves, and every subscription is movable. -/
theorem refreshRemaps_ok (h : t.Booked)
    (hpub : ∀ u topic, t.pubMap[u]? = some topic → t.remap u = topic)
    (hmovable : ∀ e ∈ t.subMap.toList, Movable t.remaps t.subMap e) :
    ∃ s, t.refreshRemaps = .ok s ∧ Refreshed t t.subMap.toList s := by
  obtain ⟨s, hrun, hs⟩ := refreshSubscriptions_ok h hmovable
  refine ⟨s, ?_, hs⟩
  rw [refreshRemaps, refreshPublications_eq_ok_iff.mpr ⟨rfl, hpub⟩]
  exact hrun

theorem refreshRemaps_only_if (h : t.Booked) (hrun : t.refreshRemaps = .ok s) :
    (∀ u topic, t.pubMap[u]? = some topic → t.remap u = topic) ∧
      ∀ e ∈ t.subMap.toList, Movable t.remaps t.subMap e := by
  rw [refreshRemaps] at hrun
  cases hpubs : t.pubMap.toList.foldlM refreshPublication t with
  | error f =>
      rw [hpubs] at hrun
      cases hrun
  | ok t' =>
      obtain ⟨rfl, hpub⟩ := refreshPublications_eq_ok_iff.mp hpubs
      rw [hpubs] at hrun
      exact ⟨hpub, refreshSubscriptions_only_if h hrun⟩

end TopicManager

end Ros2Proto
