import Ros2Proto.Topics.Refresh

/-!
# The invariant over all runs

Every sequence of calls that fails no assertion keeps `Inv`. A call that registers or subscribes keeps
it because its own assertions rule out a name or a topic in use. A call that changes the rules keeps
it because `refreshRemaps` gets through only where it leaves every topic as the new rules have it.
`shutdown` always gets through, and leaves nothing.
-/

namespace Ros2Proto

open Assignment FallibleRun Std

variable {C M : Type*}

inductive TopicOp (C M : Type*)
  | publish (unmapped : StdString) (msg : M)
  | registerPublication (unmapped : StdString)
  | unregisterPublication (unmapped : StdString)
  | subscribe (unmapped : StdString) (cb : C)
  | unregisterSubscription (unmapped : StdString)
  | setRemap (find replace : StdString)
  | setRemappings (find replace : List StdString)
  | shutdown

namespace TopicManager

def onOp (t : TopicManager C M) : TopicOp C M → Except Fault (TopicManager C M)
  | .publish unmapped msg => t.publish unmapped msg
  | .registerPublication unmapped => t.registerPublication unmapped
  | .unregisterPublication unmapped => t.unregisterPublication unmapped
  | .subscribe unmapped cb => t.subscribe unmapped cb
  | .unregisterSubscription unmapped => t.unregisterSubscription unmapped
  | .setRemap find replace => t.setRemap find replace
  | .setRemappings find replace => t.setRemappings find replace
  | .shutdown => t.shutdown

variable {t t' : TopicManager C M} {u : StdString}

/-! ### Registering and publishing -/

theorem Inv.registerPublication (h : t.Inv) (hrun : t.registerPublication u = .ok t') : t'.Inv := by
  obtain ⟨hfree, rfl⟩ := registerPublication_eq_ok_iff.mp hrun
  have hname : t.pubMap[u]? = none := h.pubs.name_eq_none h.pub_remap hfree
  exact ⟨h.toBooked.withPublication hname hfree, follows_insert h.pub_remap u, h.sub_remap⟩

theorem Inv.unregisterPublication (h : t.Inv) (hrun : t.unregisterPublication u = .ok t') :
    t'.Inv := by
  obtain ⟨topic, pub, hname, -, rfl⟩ := unregisterPublication_eq_ok_iff.mp hrun
  exact ⟨h.toBooked.withoutPublication hname, follows_erase h.pub_remap u, h.sub_remap⟩

theorem Inv.subscribe (h : t.Inv) {cb : C} (hrun : t.subscribe u cb = .ok t') : t'.Inv := by
  obtain ⟨-, hfree, rfl⟩ := subscribe_eq_ok_iff.mp hrun
  have hname : t.subMap[u]? = none := h.subs.name_eq_none h.sub_remap hfree
  exact ⟨h.toBooked.withSubscription hname hfree, h.pub_remap, follows_insert h.sub_remap u⟩

theorem Inv.unregisterSubscription (h : t.Inv) (hrun : t.unregisterSubscription u = .ok t') :
    t'.Inv := by
  obtain ⟨topic, sub, hname, -, rfl⟩ := unregisterSubscription_eq_ok_iff.mp hrun
  exact ⟨h.toBooked.withoutSubscription hname, h.pub_remap, follows_erase h.sub_remap u⟩

theorem Inv.publishTo (h : t.Inv) {topic : StdString} {msg : M}
    (hrun : t.publishTo topic msg = .ok t') : t'.Inv := by
  obtain ⟨pub, -, rfl⟩ := publishTo_eq_ok_iff.mp hrun
  exact ⟨⟨h.pubs, h.subs,
    h.pubCalls.append (fun _ => by simp [TopicCall.registersPublication])
      (fun _ => by simp [TopicCall.unregistersPublication]),
    h.subCalls.append (fun _ => by simp [TopicCall.registersSubscription])
      (fun _ => by simp [TopicCall.unregistersSubscription])⟩, h.pub_remap, h.sub_remap⟩

theorem Inv.publish (h : t.Inv) {msg : M} (hrun : t.publish u msg = .ok t') : t'.Inv := by
  simp only [TopicManager.publish, bind, Except.bind] at hrun
  split_ifs at hrun
  · exact h.publishTo hrun
  · cases hregister : t.registerPublication u with
    | error f =>
        rw [hregister] at hrun
        cases hrun
    | ok t₁ =>
        rw [hregister] at hrun
        exact (h.registerPublication hregister).publishTo hrun

/-- The assertion in `publish` holds of every published name. -/
theorem Inv.publish_ok (h : t.Inv) (hu : u ∈ t.pubMap) (msg : M) : ∃ t', t.publish u msg = .ok t' := by
  obtain ⟨topic, hname⟩ := (mem_iff_exists_getElem? _ _).mp hu
  obtain ⟨pub, hpub⟩ := h.pubs.object hname
  have hget : t.pubMap.getD u [] = topic := by
    rw [ExtTreeMap.getD_eq_getD_getElem?, hname, Option.getD_some]
  have hnew : ¬ u ∉ t.pubMap := not_not.mpr hu
  refine ⟨{ t with calls := t.calls ++ [.publish pub.ptr msg] }, ?_⟩
  simp only [TopicManager.publish, hnew, if_false, hget, h.pub_remap u topic hname, if_true, bind,
    Except.bind]
  exact publishTo_eq_ok_iff.mpr ⟨pub, hpub, rfl⟩

/-! ### Remapping -/

/-- `refreshRemaps`, begun with new rules, ends with every topic as they have it. -/
theorem Booked.refreshRemaps (h : t.Booked) (hrun : t.refreshRemaps = .ok t') : t'.Inv := by
  obtain ⟨hpub, hmovable⟩ := refreshRemaps_only_if h hrun
  obtain ⟨s, hrun', hs⟩ := refreshRemaps_ok h hpub hmovable
  obtain rfl := Except.ok.inj (hrun'.symm.trans hrun)
  refine ⟨hs.booked, fun v topic hv => ?_, fun v topic hv => ?_⟩
  · rw [hs.pubMap] at hv
    exact (hs.remap v).trans (hpub v topic hv)
  · rw [hs.sub_remap] at hv
    obtain ⟨old, -, rfl⟩ := Option.map_eq_some_iff.mp hv
    exact hs.remap v

theorem Booked.withRules (h : t.Booked) (rules : StdMap StdString) :
    Booked { t with remaps := rules } :=
  ⟨h.pubs, h.subs, h.pubCalls, h.subCalls⟩

theorem Inv.setRemap (h : t.Inv) {find replace : StdString}
    (hrun : t.setRemap find replace = .ok t') : t'.Inv :=
  (h.toBooked.withRules _).refreshRemaps hrun

theorem Inv.setRemappings (h : t.Inv) {find replace : List StdString}
    (hrun : t.setRemappings find replace = .ok t') : t'.Inv := by
  rw [TopicManager.setRemappings] at hrun
  split_ifs at hrun
  exact (h.toBooked.withRules _).refreshRemaps hrun

/-! ### Shutting down -/

theorem shutdown_publications (h : t.Booked) :
    ∃ s, t.pubMap.toList.foldlM (fun t entry => t.unregisterPublication entry.1) t = .ok s ∧
      (s.Booked ∧ s.subMap = t.subMap) ∧ s.pubMap = ∅ := by
  apply walk_empties (I := fun s : TopicManager C M => s.Booked ∧ s.subMap = t.subMap) _ ⟨h, rfl⟩
  intro s u topic hs hname
  obtain ⟨pub, hpub⟩ := hs.1.pubs.object hname
  exact ⟨_, unregisterPublication_eq_ok_iff.mpr ⟨topic, pub, hname, hpub, rfl⟩,
    ⟨hs.1.withoutPublication hname, hs.2⟩, rfl⟩

theorem shutdown_subscriptions (h : t.Booked) :
    ∃ s, t.subMap.toList.foldlM (fun t entry => t.unregisterSubscription entry.1) t = .ok s ∧
      (s.Booked ∧ s.pubMap = t.pubMap) ∧ s.subMap = ∅ := by
  apply walk_empties (I := fun s : TopicManager C M => s.Booked ∧ s.pubMap = t.pubMap) _ ⟨h, rfl⟩
  intro s u topic hs hname
  obtain ⟨sub, hsub⟩ := hs.1.subs.object hname
  exact ⟨_, unregisterSubscription_eq_ok_iff.mpr ⟨topic, sub, hname, hsub, rfl⟩,
    ⟨hs.1.withoutSubscription hname, hs.2⟩, rfl⟩

/-- `shutdown` fails no assertion and empties the four maps. -/
theorem Booked.shutdown (h : t.Booked) :
    ∃ s, t.shutdown = .ok s ∧ s.Booked ∧ s.pubMap = ∅ ∧ s.subMap = ∅ ∧
      s.publications = ∅ ∧ s.subscriptions = ∅ := by
  obtain ⟨s₁, hrun₁, ⟨hs₁, -⟩, hpubs⟩ := shutdown_publications h
  obtain ⟨s₂, hrun₂, ⟨hs₂, hsame⟩, hsubs⟩ := shutdown_subscriptions hs₁
  have hpubs₂ : s₂.pubMap = ∅ := hsame.trans hpubs
  refine ⟨s₂, ?_, hs₂, hpubs₂, hsubs, ?_, ?_⟩
  · rw [TopicManager.shutdown, hrun₁]
    exact hrun₂
  · have hassigned := hs₂.pubs
    rw [hpubs₂] at hassigned
    exact hassigned.objects_eq_empty
  · have hassigned := hs₂.subs
    rw [hsubs] at hassigned
    exact hassigned.objects_eq_empty

theorem Inv.shutdown (h : t.Inv) (hrun : t.shutdown = .ok t') : t'.Inv := by
  obtain ⟨s, hrun', hs, hpubs, hsubs, -⟩ := h.toBooked.shutdown
  obtain rfl := Except.ok.inj (hrun'.symm.trans hrun)
  refine ⟨hs, fun v topic hv => ?_, fun v topic hv => ?_⟩
  · simp [hpubs] at hv
  · simp [hsubs] at hv

/-! ### Runs -/

theorem Inv.step {op : TopicOp C M} (h : t.Inv) (hrun : t.onOp op = .ok t') : t'.Inv := by
  cases op with
  | publish unmapped msg => exact h.publish hrun
  | registerPublication unmapped => exact h.registerPublication hrun
  | unregisterPublication unmapped => exact h.unregisterPublication hrun
  | subscribe unmapped cb => exact h.subscribe hrun
  | unregisterSubscription unmapped => exact h.unregisterSubscription hrun
  | setRemap find replace => exact h.setRemap hrun
  | setRemappings find replace => exact h.setRemappings hrun
  | shutdown => exact h.shutdown hrun

theorem run_inv {ops : List (TopicOp C M)} (hrun : run onOp empty ops = .ok t) : t.Inv :=
  run_preserves (fun _ _ _ h hstep => h.step hstep) inv_empty hrun

/-- **The representation invariant.** After any calls that fail no assertion, the names and topics of
the publications, and those of the subscriptions, are in one-to-one correspondence, each topic is what
`remap` makes of its name, and `regp_` was told exactly the topics in use, each once more than it was
told to forget it. So the assertion in `publish` holds of every published name, and `shutdown` succeeds
and leaves the four maps empty. -/
theorem manager_invariant (ops : List (TopicOp C M)) (t : TopicManager C M)
    (hrun : run onOp empty ops = .ok t) :
    t.Inv ∧ (∀ u ∈ t.pubMap, ∀ msg, ∃ t', t.publish u msg = .ok t') ∧
      ∃ t', t.shutdown = .ok t' ∧ t'.pubMap = ∅ ∧ t'.subMap = ∅ ∧ t'.publications = ∅ ∧
        t'.subscriptions = ∅ := by
  have hinv := run_inv hrun
  obtain ⟨t', hshutdown, -, hempty⟩ := hinv.toBooked.shutdown
  exact ⟨hinv, fun u hu msg => hinv.publish_ok hu msg, t', hshutdown, hempty⟩

/-- A node that publishes `/a`, subscribes to `/b` and is told to read `/b` as `/c`. -/
theorem manager_invariant_remapped :
    ∃ t : TopicManager Unit Unit, run onOp empty
        [.publish [47, 97] (), .subscribe [47, 98] (), .setRemap [47, 98] [47, 99]] = .ok t ∧
      t.Inv ∧ (∀ u ∈ t.pubMap, ∀ msg, ∃ t', t.publish u msg = .ok t') ∧
      ∃ t', t.shutdown = .ok t' ∧ t'.pubMap = ∅ ∧ t'.subMap = ∅ ∧ t'.publications = ∅ ∧
        t'.subscriptions = ∅ := by
  obtain ⟨t, hrun⟩ : ∃ t : TopicManager Unit Unit, run onOp empty
      [.publish [47, 97] (), .subscribe [47, 98] (), .setRemap [47, 98] [47, 99]] = .ok t := ⟨_, rfl⟩
  exact ⟨t, hrun, manager_invariant _ t hrun⟩

end TopicManager

end Ros2Proto
