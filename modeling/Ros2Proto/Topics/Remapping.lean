import Ros2Proto.Topics.Invariant

/-!
# Remapping a live node

What `setRemap` and `setRemappings` do to the publications and subscriptions a node already has, from
any state its calls can reach.

A request gets through only if it moves no publication, as the first loop's assertion is about the
copy. And it gets through only if every subscription is `Movable`: `subscribe` looks the new topic up
among the subscribed names, where the subscribed name was meant, and the subscriptions not yet moved
still have their old topics. Where a request does get through, it does what it should.
-/

namespace Ros2Proto

open Assignment FallibleRun Std

variable {C M : Type*}

/-- A remapping request, with `find` and `replace` of one length. -/
inductive RemapRequest
  | setRemap (find replace : StdString)
  | setRemappings (find replace : List StdString) (hlength : find.length = replace.length)

/-- The rule table a request leaves. -/
def RemapRequest.rules (remaps : StdMap StdString) : RemapRequest → StdMap StdString
  | setRemap find replace => remaps.insert find replace
  | setRemappings find replace _ => TopicManager.rulesOf find replace

theorem RemapRequest.rules_rules (remaps : StdMap StdString) (r : RemapRequest) :
    r.rules (r.rules remaps) = r.rules remaps := by
  cases r with
  | setRemap find replace =>
      apply ExtTreeMap.ext_getElem?
      intro name
      simp only [rules, ExtTreeMap.getElem?_insert]
      split_ifs <;> rfl
  | setRemappings find replace hlength => rfl

/-- The call registers or unregisters a publication. -/
def TopicCall.registration : TopicCall M → Bool
  | registerPublication _ | unregisterPublication _ => true
  | _ => false

namespace TopicManager

def onRemap (t : TopicManager C M) : RemapRequest → Except Fault (TopicManager C M)
  | .setRemap find replace => t.setRemap find replace
  | .setRemappings find replace _ => t.setRemappings find replace

/-- The topic that the rules of a request give to a name. -/
def newTopic (t : TopicManager C M) (r : RemapRequest) (name : StdString) : StdString :=
  remapBy (r.rules t.remaps) name

/-- The publications that a request moves, with their old topics. -/
def movedPublications (t : TopicManager C M) (r : RemapRequest) : List (StdString × StdString) :=
  t.pubMap.toList.filter fun entry => t.newTopic r entry.1 ≠ entry.2

/-- A request gives these names pairwise distinct topics. -/
def Separates (t : TopicManager C M) (names : StdMap StdString) (r : RemapRequest) : Prop :=
  ∀ u ∈ names.keys, ∀ v ∈ names.keys, t.newTopic r u = t.newTopic r v → u = v

instance (t : TopicManager C M) (names : StdMap StdString) (r : RemapRequest) :
    Decidable (t.Separates names r) :=
  inferInstanceAs (Decidable (∀ u ∈ names.keys, ∀ v ∈ names.keys,
    t.newTopic r u = t.newTopic r v → u = v))

/-- What a request should do to the publications. -/
structure MovesPublications (t : TopicManager C M) (r : RemapRequest) (t' : TopicManager C M) :
    Prop where
  remaps : t'.remaps = r.rules t.remaps
  topics : ∀ u ∈ t.pubMap, t'.pubMap[u]? = some (t.newTopic r u) ∧ t.newTopic r u ∈ t'.publications
  unmoved : ∀ u topic, t.pubMap[u]? = some topic → t.newTopic r u = topic →
    t'.publications[topic]? = t.publications[topic]?
  traffic : ∃ new, t'.calls = t.calls ++ new ∧ (new.filter TopicCall.registration).Perm
    ((t.movedPublications r).flatMap fun entry =>
      [.unregisterPublication entry.2, .registerPublication (t.newTopic r entry.1)])

/-- What a request should do to the subscriptions. -/
structure MovesSubscriptions (t : TopicManager C M) (r : RemapRequest) (t' : TopicManager C M) :
    Prop where
  remaps : t'.remaps = r.rules t.remaps
  topics : ∀ u : StdString, t'.subMap[u]? = t.subMap[u]?.map fun _ => t.newTopic r u
  once : ∀ u ∈ t.subMap, t'.calls.countP (TopicCall.registersSubscription (t.newTopic r u)) =
    t'.calls.countP (TopicCall.unregistersSubscription (t.newTopic r u)) + 1
  callbacks : ∀ u old sub, t.subMap[u]? = some old → t.subscriptions[old]? = some sub →
    ∃ sub', t'.subscriptions[t.newTopic r u]? = some sub' ∧ sub'.cb = sub.cb
  again : t'.onRemap r = .ok t'

variable {t t' : TopicManager C M} {r : RemapRequest}

theorem onRemap_eq (t : TopicManager C M) (r : RemapRequest) :
    t.onRemap r = refreshRemaps { t with remaps := r.rules t.remaps } := by
  cases r with
  | setRemap find replace => rfl
  | setRemappings find replace hlength => simp [onRemap, setRemappings, hlength, RemapRequest.rules]

/-- A request gets through exactly if it moves no publication and every subscription is movable. -/
theorem onRemap_ok_iff (h : t.Inv) :
    (∃ t', t.onRemap r = .ok t') ↔
      (∀ u topic, t.pubMap[u]? = some topic → t.newTopic r u = topic) ∧
        ∀ u topic, t.subMap[u]? = some topic →
          Movable (r.rules t.remaps) t.subMap (u, topic) := by
  have hbooked := h.toBooked.withRules (r.rules t.remaps)
  have hentries : (∀ e ∈ t.subMap.toList, Movable (r.rules t.remaps) t.subMap e) ↔
      ∀ u topic, t.subMap[u]? = some topic → Movable (r.rules t.remaps) t.subMap (u, topic) := by
    simp only [Prod.forall, ExtTreeMap.mem_toList_iff_getElem?_eq_some]
  rw [onRemap_eq, ← hentries]
  constructor
  · intro ⟨t', hrun⟩
    exact refreshRemaps_only_if hbooked hrun
  · intro ⟨hpub, hmovable⟩
    obtain ⟨s, hrun, -⟩ := refreshRemaps_ok hbooked hpub hmovable
    exact ⟨s, hrun⟩

/-- Where every topic is as the rules have it, `refreshRemaps` does nothing. -/
theorem Inv.refreshRemaps_eq (h : t.Inv) : t.refreshRemaps = .ok t := by
  have hround : ∀ done e rest s, t.subMap.toList = done ++ e :: rest → s = t →
      t.remap e.1 = e.2 → ∃ s', refreshSubscription s e = .ok s' ∧ s' = t := by
    intro done e rest s _ hs heq
    subst hs
    exact ⟨s, refreshSubscription_of_eq heq, rfl⟩
  have hall : ∀ e ∈ t.subMap.toList, t.remap e.1 = e.2 := fun e he =>
    h.sub_remap e.1 e.2 (ExtTreeMap.mem_toList_iff_getElem?_eq_some.mp he)
  obtain ⟨s, hrun, rfl⟩ := walk_ok (J := fun _ s => s = t) hround rfl hall
  rw [refreshRemaps, refreshPublications_eq_ok_iff.mpr ⟨rfl, h.pub_remap⟩]
  exact hrun

/-- The state a successful request leaves. -/
theorem onRemap_refreshed (h : t.Inv) (hrun : t.onRemap r = .ok t') :
    t'.Inv ∧ Refreshed { t with remaps := r.rules t.remaps } t.subMap.toList t' := by
  have hbooked := h.toBooked.withRules (r.rules t.remaps)
  rw [onRemap_eq] at hrun
  obtain ⟨hpub, hmovable⟩ := refreshRemaps_only_if hbooked hrun
  obtain ⟨s, hrun', hs⟩ := refreshRemaps_ok hbooked hpub hmovable
  obtain rfl := Except.ok.inj (hrun'.symm.trans hrun)
  exact ⟨hbooked.refreshRemaps hrun, hs⟩

/-- A request that gets through does to the publications what it should. -/
theorem movesPublications_of_ok (h : t.Inv) (hrun : t.onRemap r = .ok t') :
    t.MovesPublications r t' := by
  obtain ⟨hinv, hs⟩ := onRemap_refreshed h hrun
  obtain ⟨hpub, -⟩ := (onRemap_ok_iff h).mp ⟨t', hrun⟩
  refine ⟨hs.remaps, fun u hu => ?_, fun u topic hname _ => ?_, ?_⟩
  · obtain ⟨topic, hname⟩ := (mem_iff_exists_getElem? _ _).mp hu
    rw [hpub u topic hname, hs.pubMap, hs.publications]
    exact ⟨hname, (h.pubs.image topic).mpr ⟨u, hname⟩⟩
  · rw [hs.publications]
  · obtain ⟨new, hcalls, hnew⟩ := hs.calls
    refine ⟨new, hcalls, ?_⟩
    have hnone : t.movedPublications r = [] := by
      apply List.filter_eq_nil_iff.mpr
      intro e he
      have hname := ExtTreeMap.mem_toList_iff_getElem?_eq_some.mp he
      simp [hpub e.1 e.2 hname]
    have hquiet : new.filter TopicCall.registration = [] := by
      apply List.filter_eq_nil_iff.mpr
      intro c hc
      have hsub := hnew c hc
      cases c <;> simp_all [TopicCall.registration, TopicCall.onSubscription]
    rw [hnone, hquiet]
    exact List.Perm.refl _

theorem movesSubscriptions_of_ok (h : t.Inv) (hrun : t.onRemap r = .ok t') :
    t.MovesSubscriptions r t' := by
  obtain ⟨hinv, hs⟩ := onRemap_refreshed h hrun
  have htopics := hs.sub_remap
  refine ⟨hs.remaps, htopics, fun u hu => ?_, fun u old sub hold hsub => ?_, ?_⟩
  · obtain ⟨old, hold⟩ := (mem_iff_exists_getElem? _ _).mp hu
    have hname : t'.subMap[u]? = some (t.newTopic r u) := by
      rw [htopics, hold]
      rfl
    have hmem := (hinv.subs.image _).mpr ⟨u, hname⟩
    rw [hinv.subCalls, if_pos hmem]
  · have hname : t'.subMap[u]? = some (t.newTopic r u) := by
      rw [htopics, hold]
      rfl
    have hcb := hs.callbacks u old _ hold hname
    rw [hsub] at hcb
    exact Option.map_eq_some_iff.mp hcb
  · have hremaps : t'.remaps = r.rules t.remaps := hs.remaps
    have hrules : { t' with remaps := r.rules t'.remaps } = t' := by
      rw [hremaps, RemapRequest.rules_rules, ← hremaps]
    rw [onRemap_eq, hrules]
    exact hinv.refreshRemaps_eq

/-- **Remapping live publications** works exactly where none of them moves and the subscriptions are
movable. -/
theorem remap_publications_iff (ops : List (TopicOp C M)) (t : TopicManager C M)
    (hrun : run onOp empty ops = .ok t) (r : RemapRequest) :
    (∃ t', t.onRemap r = .ok t' ∧ t.MovesPublications r t') ↔
      (∀ u topic, t.pubMap[u]? = some topic → t.newTopic r u = topic) ∧
        ∀ u topic, t.subMap[u]? = some topic →
          Movable (r.rules t.remaps) t.subMap (u, topic) := by
  have hinv := run_inv hrun
  rw [← onRemap_ok_iff hinv]
  constructor
  · intro ⟨t', hok, _⟩
    exact ⟨t', hok⟩
  · intro ⟨t', hok⟩
    exact ⟨t', hok, movesPublications_of_ok hinv hok⟩

/-- A node that publishes `/a` without rules cannot be told to publish it as `/b`. -/
theorem moved_publication_asserts :
    ∃ t : TopicManager Unit Unit, run onOp empty [.publish [47, 97] ()] = .ok t ∧
      t.Separates t.pubMap (.setRemap [47, 97] [47, 98]) ∧
      ¬ ∃ t', t.onRemap (.setRemap [47, 97] [47, 98]) = .ok t' ∧
        t.MovesPublications (.setRemap [47, 97] [47, 98]) t' := by
  refine ⟨_, rfl, by decide, ?_⟩
  rintro ⟨t', hok, -⟩
  cases hok

/-- That node, told to read `/b` as `/c`, goes on publishing `/a`. -/
theorem remap_publications_unmoved :
    ∃ t t' : TopicManager Unit Unit, run onOp empty [.publish [47, 97] ()] = .ok t ∧
      t.onRemap (.setRemap [47, 98] [47, 99]) = .ok t' ∧
      t.MovesPublications (.setRemap [47, 98] [47, 99]) t' := by
  obtain ⟨t, hrun, hpub, hsub⟩ : ∃ t : TopicManager Unit Unit,
      run onOp empty [.publish [47, 97] ()] = .ok t ∧
      (∀ e ∈ t.pubMap.toList, t.newTopic (.setRemap [47, 98] [47, 99]) e.1 = e.2) ∧
      t.subMap = ∅ := ⟨_, rfl, by decide, rfl⟩
  obtain ⟨t', hmoved⟩ := (remap_publications_iff _ t hrun (.setRemap [47, 98] [47, 99])).mpr
    ⟨fun u topic hu => hpub (u, topic) (ExtTreeMap.mem_toList_iff_getElem?_eq_some.mpr hu),
      fun u topic hu => by simp [hsub] at hu⟩
  exact ⟨t, t', hrun, hmoved⟩

/-- **Remapping live subscriptions** works exactly where they are all movable. -/
theorem remap_subscriptions_iff (ops : List (TopicOp C M)) (t : TopicManager C M)
    (hrun : run onOp empty ops = .ok t) (honly : t.pubMap = ∅) (r : RemapRequest) :
    (∃ t', t.onRemap r = .ok t' ∧ t.MovesSubscriptions r t') ↔
      ∀ u topic, t.subMap[u]? = some topic →
        Movable (r.rules t.remaps) t.subMap (u, topic) := by
  have hinv := run_inv hrun
  have hpub : ∀ u topic, t.pubMap[u]? = some topic → t.newTopic r u = topic := by
    intro u topic hname
    rw [honly, ExtTreeMap.getElem?_empty] at hname
    cases hname
  have hok := onRemap_ok_iff (r := r) hinv
  rw [and_iff_right hpub] at hok
  rw [← hok]
  constructor
  · intro ⟨t', hok, _⟩
    exact ⟨t', hok⟩
  · intro ⟨t', hok⟩
    exact ⟨t', hok, movesSubscriptions_of_ok hinv hok⟩

/-- A node that subscribes to `/a`, and to `/b` read as `/x`, cannot be told to read `/a` as `/b`. -/
theorem subscribed_name_asserts :
    ∃ t : TopicManager Unit Unit, run onOp empty
        [.setRemap [47, 98] [47, 120], .subscribe [47, 97] (), .subscribe [47, 98] ()] = .ok t ∧
      t.pubMap = ∅ ∧ t.Separates t.subMap (.setRemap [47, 97] [47, 98]) ∧
      ¬ ∃ t', t.onRemap (.setRemap [47, 97] [47, 98]) = .ok t' ∧
        t.MovesSubscriptions (.setRemap [47, 97] [47, 98]) t' := by
  refine ⟨_, rfl, rfl, by decide, ?_⟩
  rintro ⟨t', hok, -⟩
  cases hok

/-- A node that subscribes to `/a` can be told to read it as `/b`. -/
theorem remap_subscriptions_moved :
    ∃ t t' : TopicManager Unit Unit, run onOp empty [.subscribe [47, 97] ()] = .ok t ∧
      t.onRemap (.setRemap [47, 97] [47, 98]) = .ok t' ∧
      t.MovesSubscriptions (.setRemap [47, 97] [47, 98]) t' := by
  obtain ⟨t, hrun, honly, hlist⟩ : ∃ t : TopicManager Unit Unit,
      run onOp empty [.subscribe [47, 97] ()] = .ok t ∧ t.pubMap = ∅ ∧
      t.subMap.toList = [([47, 97], [47, 97])] := ⟨_, rfl, rfl, rfl⟩
  have hname : ∀ (u topic : StdString), t.subMap[u]? = some topic → u = [47, 97] := by
    intro u topic hu
    have hmem := ExtTreeMap.mem_toList_iff_getElem?_eq_some.mpr hu
    rw [hlist, List.mem_singleton] at hmem
    exact congrArg Prod.fst hmem
  obtain ⟨t', hmoved⟩ := (remap_subscriptions_iff _ t hrun honly (.setRemap [47, 97] [47, 98])).mpr
    fun u topic hu _ => ⟨fun v hv hvu => by
        obtain ⟨topic', hv⟩ := (mem_iff_exists_getElem? _ _).mp hv
        exact absurd ((hname v topic' hv).trans (hname u topic hu).symm) hvu,
      fun v topic' hv hvu => absurd ((hname v topic' hv).trans (hname u topic hu).symm) hvu⟩
  exact ⟨t, t', hrun, hmoved⟩

end TopicManager

end Ros2Proto
