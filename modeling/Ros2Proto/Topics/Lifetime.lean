import Ros2Proto.Topics.Remapping
import Ros2Proto.Topics.Stable

/-!
# Which subscriptions a call keeps

A call on the manager keeps the subscription of a name, makes a new object for it, or removes it.
`Leaves` says from the call and the rules which of the subscriptions stay, and `Effect` that these are
the ones still held afterwards, beside new objects, and that the manager registers only objects that
it then holds. An object is known by its address: no address is used twice.
-/

namespace Ros2Proto

open Assignment FallibleRun Std

variable {C M : Type*}

namespace TopicManager

/-- The manager holds `sub` for the name `u`, under `topic`. -/
def Subscribed (t : TopicManager C M) (u topic : StdString) (sub : Subscription C) : Prop :=
  t.subMap[u]? = some topic ∧ t.subscriptions[topic]? = some sub

/-- The object at the address `ptr` is held in `subscriptions_`. -/
def Holds (t : TopicManager C M) (ptr : Nat) : Prop :=
  ∃ (topic : StdString) (sub : Subscription C), t.subscriptions[topic]? = some sub ∧ sub.ptr = ptr

/-- A call leaves the subscription of the name `u` as it is. -/
def Leaves (t : TopicManager C M) (u : StdString) : TopicOp C M → Prop
  | .unregisterSubscription v => u ≠ v
  | .setRemap find replace => remapBy (t.remaps.insert find replace) u = t.remap u
  | .setRemappings find replace => remapBy (rulesOf find replace) u = t.remap u
  | .shutdown => False
  | .publish _ _ | .registerPublication _ | .unregisterPublication _ | .subscribe _ _ => True

/-- What a call does to the subscriptions. -/
structure Effect (t : TopicManager C M) (leaves : StdString → Prop) (t' : TopicManager C M) :
    Prop where
  stays : ∀ u topic sub, t.Subscribed u topic sub → leaves u → t'.Subscribed u topic sub
  held : ∀ u topic sub, t'.Subscribed u topic sub →
    (t.Subscribed u topic sub ∧ leaves u) ∨ t.nextPtr ≤ sub.ptr
  registers : ∃ new, t'.calls = t.calls ++ new ∧ ∀ topic ptr, .registerSubscription topic ptr ∈ new →
    ∃ u sub, t'.Subscribed u topic sub ∧ sub.ptr = ptr

/-- Each object has an address of its own, which `new` has returned. -/
structure Addressed (t : TopicManager C M) : Prop where
  below : ∀ (topic : StdString) (sub : Subscription C), t.subscriptions[topic]? = some sub → sub.ptr < t.nextPtr
  distinct : ∀ (topic topic' : StdString) (sub sub' : Subscription C),
    t.subscriptions[topic]? = some sub → t.subscriptions[topic']? = some sub' →
      sub.ptr = sub'.ptr → topic = topic'

variable {t t' s : TopicManager C M} {u v topic old : StdString} {cb : C} {sub : Subscription C}

theorem Subscribed.holds (h : t.Subscribed u topic sub) : t.Holds sub.ptr :=
  ⟨topic, sub, h.2, rfl⟩

/-- Every object held is held for some name. -/
theorem Booked.exists_subscribed (h : t.Booked) (hsub : t.subscriptions[topic]? = some sub) :
    ∃ u, t.Subscribed u topic sub := by
  obtain ⟨u, hu⟩ := (h.subs.image topic).mp ((mem_iff_exists_getElem? _ _).mpr ⟨sub, hsub⟩)
  exact ⟨u, hu, hsub⟩

/-! ### Addresses -/

theorem addressed_of_subscriptions (h : t.Addressed) (hsubs : t'.subscriptions = t.subscriptions)
    (hptr : t.nextPtr ≤ t'.nextPtr) : t'.Addressed where
  below topic sub hsub := (h.below topic sub (hsubs ▸ hsub)).trans_le hptr
  distinct topic topic' sub sub' hsub hsub' :=
    h.distinct topic topic' sub sub' (hsubs ▸ hsub) (hsubs ▸ hsub')

theorem Addressed.withoutSubscription (h : t.Addressed) :
    (t.withoutSubscription u old sub).Addressed := by
  have hold : ∀ (topic : StdString) x, (t.withoutSubscription u old sub).subscriptions[topic]? = some x →
      t.subscriptions[topic]? = some x := by
    intro topic x hx
    by_cases htopic : topic = old
    · subst htopic
      simp [TopicManager.withoutSubscription] at hx
    · rwa [TopicManager.withoutSubscription, getElem?_erase_of_ne _ htopic] at hx
  constructor
  · intro topic x hx
    exact h.below topic x (hold topic x hx)
  · intro topic topic' x x' hx hx'
    exact h.distinct topic topic' x x' (hold topic x hx) (hold topic' x' hx')

theorem Addressed.withSubscription (h : t.Addressed) : (t.withSubscription u cb).Addressed := by
  have hcases : ∀ (topic : StdString) x, (t.withSubscription u cb).subscriptions[topic]? = some x →
      (topic = t.remap u ∧ x.ptr = t.nextPtr) ∨ t.subscriptions[topic]? = some x := by
    intro topic x hx
    by_cases htopic : topic = t.remap u
    · subst htopic
      rw [TopicManager.withSubscription, ExtTreeMap.getElem?_insert_self] at hx
      cases hx
      exact Or.inl ⟨rfl, rfl⟩
    · rw [TopicManager.withSubscription, getElem?_insert_of_ne _ htopic] at hx
      exact Or.inr hx
  constructor
  · intro topic x hx
    show x.ptr < t.nextPtr + 1
    rcases hcases topic x hx with ⟨-, hnew⟩ | hold
    · omega
    · have hlt := h.below topic x hold
      omega
  · intro topic topic' x x' hx hx' heq
    rcases hcases topic x hx with ⟨htopic, hnew⟩ | hold <;>
      rcases hcases topic' x' hx' with ⟨htopic', hnew'⟩ | hold'
    · exact htopic.trans htopic'.symm
    · have hlt := h.below topic' x' hold'
      omega
    · have hlt := h.below topic x hold
      omega
    · exact h.distinct topic topic' x x' hold hold' heq

theorem stable_addressed : Stable (Addressed (C := C) (M := M)) := by
  apply Steady.stable
  · apply Steady.of_with
    case withPublication =>
      intro t u h
      exact addressed_of_subscriptions h rfl (Nat.le_succ _)
    case withoutPublication =>
      intro t u topic pub h
      exact addressed_of_subscriptions h rfl le_rfl
    case withSubscription =>
      intro t u cb h
      exact h.withSubscription
    case withoutSubscription =>
      intro t u topic sub h
      exact h.withoutSubscription
    case published =>
      intro t pub msg h
      exact addressed_of_subscriptions h rfl le_rfl
  · intro t rules h
    exact addressed_of_subscriptions h rfl le_rfl

theorem Subscribed.address_unique (h : t.Addressed) (hbooked : t.Booked) {topic' : StdString}
    {sub' : Subscription C} (hsub : t.Subscribed u topic sub) (hsub' : t.Subscribed v topic' sub')
    (heq : sub.ptr = sub'.ptr) : u = v := by
  obtain rfl := h.distinct topic topic' sub sub' hsub.2 hsub'.2 heq
  exact hbooked.subs.injective u v topic hsub.1 hsub'.1

/-! ### The elementary operations -/

theorem subscribed_withoutSubscription_iff (h : t.Booked) (hname : t.subMap[v]? = some old)
    {x : Subscription C} :
    (t.withoutSubscription v old sub).Subscribed u topic x ↔ u ≠ v ∧ t.Subscribed u topic x := by
  rw [Subscribed, Subscribed, withoutSubscription]
  by_cases hu : u = v
  · subst hu
    simp
  · rw [getElem?_erase_of_ne _ hu]
    have htopic : t.subMap[u]? = some topic → topic ≠ old := by
      intro hut heq
      exact hu (h.subs.injective u v topic hut (heq ▸ hname))
    constructor
    · intro hsub
      obtain ⟨hut, hx⟩ := hsub
      rw [getElem?_erase_of_ne _ (htopic hut)] at hx
      exact ⟨hu, hut, hx⟩
    · intro hsub
      obtain ⟨-, hut, hx⟩ := hsub
      rw [getElem?_erase_of_ne _ (htopic hut)]
      exact ⟨hut, hx⟩

theorem subscribed_withSubscription_iff (h : t.Booked) (hname : t.subMap[v]? = none)
    (hfree : t.remap v ∉ t.subscriptions) {x : Subscription C} :
    (t.withSubscription v cb).Subscribed u topic x ↔ t.Subscribed u topic x ∨
      (u = v ∧ topic = t.remap v ∧ x = ⟨t.nextPtr, t.remap v, cb⟩) := by
  rw [Subscribed, Subscribed, withSubscription]
  by_cases hu : u = v
  · subst hu
    rw [ExtTreeMap.getElem?_insert_self, hname]
    constructor
    · intro hsub
      obtain ⟨htopic, hx⟩ := hsub
      obtain rfl := Option.some.inj htopic
      rw [ExtTreeMap.getElem?_insert_self] at hx
      exact Or.inr ⟨rfl, rfl, (Option.some.inj hx).symm⟩
    · intro hcases
      rcases hcases with ⟨hnone, -⟩ | ⟨-, rfl, rfl⟩
      · cases hnone
      · exact ⟨rfl, ExtTreeMap.getElem?_insert_self⟩
  · rw [getElem?_insert_of_ne _ hu]
    have htopic : t.subMap[u]? = some topic → topic ≠ t.remap v := by
      intro hut heq
      exact hfree (heq ▸ (h.subs.image topic).mpr ⟨u, hut⟩)
    constructor
    · intro hsub
      obtain ⟨hut, hx⟩ := hsub
      rw [getElem?_insert_of_ne _ (htopic hut)] at hx
      exact Or.inl ⟨hut, hx⟩
    · intro hcases
      rcases hcases with ⟨hut, hx⟩ | ⟨heq, -⟩
      · rw [getElem?_insert_of_ne _ (htopic hut)]
        exact ⟨hut, hx⟩
      · exact absurd heq hu

theorem Inv.effect_subscribe (h : t.Inv) (hrun : t.subscribe v cb = .ok t') :
    Effect t (fun _ => True) t' := by
  obtain ⟨-, hfree, rfl⟩ := subscribe_eq_ok_iff.mp hrun
  have hname : t.subMap[v]? = none := h.subs.name_eq_none h.sub_remap hfree
  constructor
  · intro u topic sub hsub _
    exact (subscribed_withSubscription_iff h.toBooked hname hfree).mpr (Or.inl hsub)
  · intro u topic sub hsub
    rcases (subscribed_withSubscription_iff h.toBooked hname hfree).mp hsub with hold | ⟨-, -, rfl⟩
    · exact Or.inl ⟨hold, trivial⟩
    · exact Or.inr le_rfl
  · refine ⟨_, rfl, ?_⟩
    intro topic ptr hmem
    obtain ⟨rfl, rfl⟩ := TopicCall.registerSubscription.inj (List.mem_singleton.mp hmem)
    exact ⟨v, _, (subscribed_withSubscription_iff h.toBooked hname hfree).mpr
      (Or.inr ⟨rfl, rfl, rfl⟩), rfl⟩

theorem Booked.effect_unregisterSubscription (h : t.Booked)
    (hrun : t.unregisterSubscription v = .ok t') : Effect t (fun u => u ≠ v) t' := by
  obtain ⟨old, gone, hname, -, rfl⟩ := unregisterSubscription_eq_ok_iff.mp hrun
  constructor
  · intro u topic sub hsub hu
    exact (subscribed_withoutSubscription_iff h hname).mpr ⟨hu, hsub⟩
  · intro u topic sub hsub
    exact Or.inl ((subscribed_withoutSubscription_iff h hname).mp hsub).symm
  · refine ⟨_, rfl, ?_⟩
    intro topic ptr hmem
    simp at hmem

/-! ### Publications -/

/-- The subscriptions are as they were, and nothing was called about them. -/
structure SubsUntouched (t t' : TopicManager C M) : Prop where
  subMap : t'.subMap = t.subMap
  subscriptions : t'.subscriptions = t.subscriptions
  calls : ∃ new, t'.calls = t.calls ++ new ∧ ∀ c ∈ new, c.onSubscription = false

theorem SubsUntouched.trans (h : SubsUntouched t s) (h' : SubsUntouched s t') :
    SubsUntouched t t' := by
  obtain ⟨new, hcalls, hnew⟩ := h.calls
  obtain ⟨new', hcalls', hnew'⟩ := h'.calls
  refine ⟨h'.subMap.trans h.subMap, h'.subscriptions.trans h.subscriptions, new ++ new', ?_, ?_⟩
  · rw [hcalls', hcalls, List.append_assoc]
  · intro c hc
    rcases List.mem_append.mp hc with hc | hc
    · exact hnew c hc
    · exact hnew' c hc

theorem SubsUntouched.effect (h : SubsUntouched t t') : Effect t (fun _ => True) t' := by
  have hsame : ∀ u topic sub, t'.Subscribed u topic sub ↔ t.Subscribed u topic sub := by
    intro u topic sub
    rw [Subscribed, Subscribed, h.subMap, h.subscriptions]
  constructor
  · intro u topic sub hsub _
    exact (hsame u topic sub).mpr hsub
  · intro u topic sub hsub
    exact Or.inl ⟨(hsame u topic sub).mp hsub, trivial⟩
  · obtain ⟨new, hcalls, hnew⟩ := h.calls
    refine ⟨new, hcalls, ?_⟩
    intro topic ptr hmem
    cases hnew _ hmem

theorem untouched_registerPublication (hrun : t.registerPublication u = .ok t') :
    SubsUntouched t t' := by
  obtain ⟨-, rfl⟩ := registerPublication_eq_ok_iff.mp hrun
  exact ⟨rfl, rfl, _, rfl, by simp [TopicCall.onSubscription]⟩

theorem untouched_unregisterPublication (hrun : t.unregisterPublication u = .ok t') :
    SubsUntouched t t' := by
  obtain ⟨topic, pub, -, -, rfl⟩ := unregisterPublication_eq_ok_iff.mp hrun
  exact ⟨rfl, rfl, _, rfl, by simp [TopicCall.onSubscription]⟩

theorem untouched_publishTo {msg : M} (hrun : t.publishTo topic msg = .ok t') :
    SubsUntouched t t' := by
  obtain ⟨pub, -, rfl⟩ := publishTo_eq_ok_iff.mp hrun
  exact ⟨rfl, rfl, _, rfl, by simp [TopicCall.onSubscription]⟩

theorem untouched_publish {msg : M} (hrun : t.publish u msg = .ok t') : SubsUntouched t t' := by
  rw [publish] at hrun
  split_ifs at hrun
  · exact untouched_publishTo hrun
  · cases hrun
  · obtain ⟨s, hregister, hpublish⟩ := bind_eq_ok_iff.mp hrun
    exact (untouched_registerPublication hregister).trans (untouched_publishTo hpublish)

/-! ### Remapping and shutting down -/

/-- What `refreshRemaps`, begun from `t`, has done to the subscriptions with the entries `done`
behind it. -/
structure Moved (t : TopicManager C M) (done : List (StdString × StdString)) (s : TopicManager C M) :
    Prop where
  stays : ∀ u topic sub, t.Subscribed u topic sub → ((u, topic) ∈ done → t.remap u = topic) →
    s.Subscribed u topic sub
  held : ∀ u topic sub, s.Subscribed u topic sub →
    (t.Subscribed u topic sub ∧ ((u, topic) ∈ done → t.remap u = topic)) ∨ t.nextPtr ≤ sub.ptr
  nextPtr : t.nextPtr ≤ s.nextPtr
  registers : ∃ new, s.calls = t.calls ++ new ∧ ∀ topic ptr, .registerSubscription topic ptr ∈ new →
    ∃ u sub, (∃ entry ∈ done, entry.1 = u) ∧ s.Subscribed u topic sub ∧ sub.ptr = ptr

theorem moved_nil : Moved t [] t where
  stays _ _ _ hsub _ := hsub
  held _ _ _ hsub := Or.inl ⟨hsub, fun hmem => absurd hmem List.not_mem_nil⟩
  nextPtr := le_rfl
  registers := ⟨[], by simp, by simp⟩

section

variable {done rest : List (StdString × StdString)}

theorem ne_of_mem_done (hsplit : t.subMap.toList = done ++ (v, old) :: rest)
    {entry : StdString × StdString} (hmem : entry ∈ done) : entry.1 ≠ v := by
  have hlt := ((mem_done_iff hsplit).mp (show (entry.1, entry.2) ∈ done from hmem)).2
  intro heq
  rw [heq] at hlt
  exact absurd (hlt.symm.trans ReflCmp.compare_self) (by decide)

theorem Moved.stay (h : Moved t done s) (heq : t.remap v = old) :
    Moved t (done ++ [(v, old)]) s where
  stays u topic sub hsub hdone :=
    h.stays u topic sub hsub fun hmem => hdone (List.mem_append_left _ hmem)
  held u topic sub hsub := by
    rcases h.held u topic sub hsub with ⟨hold, hdone⟩ | hnew
    · refine Or.inl ⟨hold, ?_⟩
      intro hmem
      rcases List.mem_append.mp hmem with hmem | hmem
      · exact hdone hmem
      · cases List.mem_singleton.mp hmem
        exact heq
    · exact Or.inr hnew
  nextPtr := h.nextPtr
  registers := by
    obtain ⟨new, hcalls, hnew⟩ := h.registers
    refine ⟨new, hcalls, ?_⟩
    intro topic ptr hmem
    obtain ⟨u, sub, ⟨entry, hentry, hu⟩, hsub⟩ := hnew topic ptr hmem
    exact ⟨u, sub, ⟨entry, List.mem_append_left _ hentry, hu⟩, hsub⟩

theorem Moved.move (h : Moved t done s) (hs : Refreshed t done s)
    (hsplit : t.subMap.toList = done ++ (v, old) :: rest) (hne : t.remap v ≠ old)
    (hfree : t.remap v ∉ (s.withoutSubscription v old sub).subscriptions) :
    Moved t (done ++ [(v, old)])
      ((s.withoutSubscription v old sub).withSubscription v sub.cb) := by
  have hname := hs.name hsplit
  have hafter : ∀ u topic x,
      ((s.withoutSubscription v old sub).withSubscription v sub.cb).Subscribed u topic x ↔
        (u ≠ v ∧ s.Subscribed u topic x) ∨
          (u = v ∧ topic = t.remap v ∧ x = ⟨s.nextPtr, t.remap v, sub.cb⟩) := by
    intro u topic x
    have hremap : (s.withoutSubscription v old sub).remap v = t.remap v := hs.remap v
    rw [subscribed_withSubscription_iff (hs.booked.withoutSubscription hname.2)
      ExtTreeMap.getElem?_erase_self (hremap.symm ▸ hfree),
      subscribed_withoutSubscription_iff hs.booked hname.2, hremap]
    rfl
  constructor
  · intro u topic x hx hdone
    have hu : u ≠ v := by
      rintro rfl
      obtain rfl := Option.some.inj (hx.1.symm.trans hname.1)
      exact hne (hdone (List.mem_append_right _ (List.mem_singleton_self _)))
    have hold := h.stays u topic x hx fun hmem => hdone (List.mem_append_left _ hmem)
    exact (hafter u topic x).mpr (Or.inl ⟨hu, hold⟩)
  · intro u topic x hx
    rcases (hafter u topic x).mp hx with ⟨hu, hold⟩ | ⟨-, -, rfl⟩
    · rcases h.held u topic x hold with ⟨hfirst, hdone⟩ | hnew
      · refine Or.inl ⟨hfirst, ?_⟩
        intro hmem
        rcases List.mem_append.mp hmem with hmem | hmem
        · exact hdone hmem
        · exact absurd (congrArg Prod.fst (List.mem_singleton.mp hmem)) hu
      · exact Or.inr hnew
    · exact Or.inr h.nextPtr
  · exact h.nextPtr.trans (Nat.le_succ _)
  · obtain ⟨new, hcalls, hnew⟩ := h.registers
    refine ⟨new ++ [.shutdownSubscription sub.ptr, .unregisterSubscription old,
      .registerSubscription (s.remap v) s.nextPtr], ?_, ?_⟩
    · simp [withSubscription, withoutSubscription, TopicManager.remap, hcalls]
    · intro topic ptr hmem
      rcases List.mem_append.mp hmem with hmem | hmem
      · obtain ⟨u, x, ⟨entry, hentry, rfl⟩, hx, hptr⟩ := hnew topic ptr hmem
        have hu := ne_of_mem_done hsplit hentry
        exact ⟨entry.1, x, ⟨entry, List.mem_append_left _ hentry, rfl⟩,
          (hafter entry.1 topic x).mpr (Or.inl ⟨hu, hx⟩), hptr⟩
      · simp only [List.mem_cons, reduceCtorEq, List.not_mem_nil, or_false, false_or,
          TopicCall.registerSubscription.injEq] at hmem
        obtain ⟨rfl, rfl⟩ := hmem
        exact ⟨v, _, ⟨(v, old), List.mem_append_right _ (List.mem_singleton_self _), rfl⟩,
          (hafter v _ _).mpr (Or.inr ⟨rfl, hs.remap v, rfl⟩), rfl⟩

theorem Moved.round_ok (h : Moved t done s) (hs : Refreshed t done s) {e : StdString × StdString}
    (hsplit : t.subMap.toList = done ++ e :: rest) (hmovable : Movable t.remaps t.subMap e) :
    ∃ s', s.refreshSubscription e = .ok s' ∧ Refreshed t (done ++ [e]) s' ∧
      Moved t (done ++ [e]) s' := by
  obtain ⟨v, old⟩ := e
  by_cases heq : t.remap v = old
  · exact ⟨s, refreshSubscription_of_eq ((hs.remap v).trans heq), hs.stay heq, h.stay heq⟩
  · obtain ⟨sub, hsub⟩ := hs.booked.subs.object (hs.name hsplit).2
    obtain ⟨hname, hfree⟩ := (hs.movable_iff hsplit heq sub).mpr hmovable
    refine ⟨_, ?_, hs.move hsplit heq hsub hfree, h.move hs hsplit heq hfree⟩
    rw [refreshSubscription_of_ne (hs.name hsplit).2 hsub ((hs.remap v).symm ▸ heq)]
    apply subscribe_eq_ok_iff.mpr
    exact ⟨(hs.remap v).symm ▸ hname, (hs.remap v).symm ▸ hfree, rfl⟩

end

/-- `refreshRemaps` under new rules leaves the subscriptions whose topics stay. -/
theorem Inv.effect_refreshRemaps (h : t.Inv) {rules : StdMap StdString}
    (hrun : refreshRemaps { t with remaps := rules } = .ok t') :
    Effect t (fun u => remapBy rules u = t.remap u) t' := by
  have hbooked := h.toBooked.withRules rules
  obtain ⟨s, hpubs, hsubs⟩ := bind_eq_ok_iff.mp hrun
  obtain ⟨rfl, -⟩ := refreshPublications_eq_ok_iff.mp hpubs
  obtain ⟨s, hrun', -, hmoved⟩ := walk_ok
    (J := fun done s => Refreshed { t with remaps := rules } done s ∧
      Moved { t with remaps := rules } done s)
    (fun _ _ _ _ hsplit hs hmovable => hs.2.round_ok hs.1 hsplit hmovable)
    ⟨refreshed_nil hbooked, moved_nil⟩ (refreshSubscriptions_only_if hbooked hsubs)
  obtain rfl := Except.ok.inj (hrun'.symm.trans hsubs)
  constructor
  · intro u topic sub hsub hleaves
    exact hmoved.stays u topic sub hsub fun _ => hleaves.trans (h.sub_remap u topic hsub.1)
  · intro u topic sub hsub
    rcases hmoved.held u topic sub hsub with ⟨hold, hdone⟩ | hnew
    · have hmem : (u, topic) ∈ t.subMap.toList :=
        ExtTreeMap.mem_toList_iff_getElem?_eq_some.mpr hold.1
      exact Or.inl ⟨hold, (hdone hmem).trans (h.sub_remap u topic hold.1).symm⟩
    · exact Or.inr hnew
  · obtain ⟨new, hcalls, hnew⟩ := hmoved.registers
    refine ⟨new, hcalls, ?_⟩
    intro topic ptr hmem
    obtain ⟨u, sub, -, hsub⟩ := hnew topic ptr hmem
    exact ⟨u, sub, hsub⟩

/-- The calls made from `t` on register no subscription. -/
def RegistersNone (t s : TopicManager C M) : Prop :=
  ∃ new, s.calls = t.calls ++ new ∧ ∀ topic ptr, .registerSubscription topic ptr ∉ new

theorem RegistersNone.append (h : RegistersNone t s) {new : List (TopicCall M)}
    (hcalls : t'.calls = s.calls ++ new) (hnew : ∀ topic ptr, .registerSubscription topic ptr ∉ new) :
    RegistersNone t t' := by
  obtain ⟨before, hbefore, hnone⟩ := h
  refine ⟨before ++ new, ?_, ?_⟩
  · rw [hcalls, hbefore, List.append_assoc]
  · intro topic ptr hmem
    rcases List.mem_append.mp hmem with hmem | hmem
    · exact hnone topic ptr hmem
    · exact hnew topic ptr hmem

theorem Inv.effect_shutdown (h : t.Inv) (hrun : t.shutdown = .ok t') :
    Effect t (fun _ => False) t' := by
  have hunregister : ∀ (s : TopicManager C M) u s', RegistersNone t s →
      s.unregisterPublication u = .ok s' → RegistersNone t s' := by
    intro s u s' hs hround
    obtain ⟨topic, pub, -, -, rfl⟩ := unregisterPublication_eq_ok_iff.mp hround
    exact hs.append rfl (by simp)
  have hunregister' : ∀ (s : TopicManager C M) u s', RegistersNone t s →
      s.unregisterSubscription u = .ok s' → RegistersNone t s' := by
    intro s u s' hs hround
    obtain ⟨topic, sub, -, -, rfl⟩ := unregisterSubscription_eq_ok_iff.mp hround
    exact hs.append rfl (by simp)
  obtain ⟨s, hpubs, hsubs⟩ := bind_eq_ok_iff.mp hrun
  have hmid : RegistersNone t s := run_preserves
    (fun s (e : StdString × StdString) s' => hunregister s e.1 s') ⟨[], by simp, by simp⟩ hpubs
  obtain ⟨new, hcalls, hnone⟩ : RegistersNone t t' := run_preserves
    (fun s (e : StdString × StdString) s' => hunregister' s e.1 s') hmid hsubs
  obtain ⟨s', hrun', -, -, -, -, hempty⟩ := h.toBooked.shutdown
  obtain rfl := Except.ok.inj (hrun'.symm.trans hrun)
  constructor
  · intro u topic sub _ hleaves
    exact hleaves.elim
  · intro u topic sub hsub
    have hnothing := hsub.2
    simp [hempty] at hnothing
  · exact ⟨new, hcalls, fun topic ptr hmem => absurd hmem (hnone topic ptr)⟩

/-- **What every call does to the subscriptions.** -/
theorem Inv.effect (h : t.Inv) {op : TopicOp C M} (hrun : t.onOp op = .ok t') :
    Effect t (fun u => t.Leaves u op) t' := by
  cases op with
  | publish unmapped msg => exact (untouched_publish hrun).effect
  | registerPublication unmapped => exact (untouched_registerPublication hrun).effect
  | unregisterPublication unmapped => exact (untouched_unregisterPublication hrun).effect
  | subscribe unmapped cb => exact h.effect_subscribe hrun
  | unregisterSubscription unmapped => exact h.toBooked.effect_unregisterSubscription hrun
  | setRemap find replace => exact h.effect_refreshRemaps hrun
  | setRemappings find replace =>
      rw [onOp, TopicManager.setRemappings] at hrun
      split_ifs at hrun
      exact h.effect_refreshRemaps hrun
  | shutdown => exact h.effect_shutdown hrun

end TopicManager

end Ros2Proto
