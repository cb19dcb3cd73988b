import Ros2Proto.Topics.Invariant

/-!
# What the elementary operations keep, every call keeps

The calls on a `TopicManager` do what they do by registering and unregistering, by publishing on a
publication and by changing the rules. A property that each of these keeps is kept by every call that
returns, from any state. What only a change of the rules can break is kept by the other calls, and by
`refreshRemaps`.
-/

namespace Ros2Proto

open FallibleRun

variable {C M : Type*}

namespace TopicManager

/-- The elementary operations that leave the rules alone keep `I`. -/
structure Steady (I : TopicManager C M → Prop) : Prop where
  registerPublication : ∀ t t' u, I t → t.registerPublication u = .ok t' → I t'
  unregisterPublication : ∀ t t' u, I t → t.unregisterPublication u = .ok t' → I t'
  subscribe : ∀ t t' u cb, I t → t.subscribe u cb = .ok t' → I t'
  unregisterSubscription : ∀ t t' u, I t → t.unregisterSubscription u = .ok t' → I t'
  publishTo : ∀ t t' topic msg, I t → t.publishTo topic msg = .ok t' → I t'

/-- The elementary operations keep `I`. -/
structure Stable (I : TopicManager C M → Prop) : Prop where
  rules : ∀ t rules, I t → I { t with remaps := rules }
  registerPublication : ∀ t t' u, I t → t.registerPublication u = .ok t' → I t'
  unregisterPublication : ∀ t t' u, I t → t.unregisterPublication u = .ok t' → I t'
  subscribe : ∀ t t' u cb, I t → t.subscribe u cb = .ok t' → I t'
  unregisterSubscription : ∀ t t' u, I t → t.unregisterSubscription u = .ok t' → I t'
  publishTo : ∀ t t' topic msg, I t → t.publishTo topic msg = .ok t' → I t'

variable {I : TopicManager C M → Prop} {t t' : TopicManager C M}

/-- The elementary operations make no more than these changes. -/
theorem Steady.of_with (withPublication : ∀ t u, I t → I (t.withPublication u))
    (withoutPublication : ∀ t u topic pub, I t → I (t.withoutPublication u topic pub))
    (withSubscription : ∀ t u cb, I t → I (t.withSubscription u cb))
    (withoutSubscription : ∀ t u topic sub, I t → I (t.withoutSubscription u topic sub))
    (published : ∀ t pub msg, I t → I { t with calls := t.calls ++ [.publish pub msg] }) : Steady I where
  registerPublication t t' u ht hrun := by
    obtain ⟨-, rfl⟩ := registerPublication_eq_ok_iff.mp hrun
    exact withPublication t u ht
  unregisterPublication t t' u ht hrun := by
    obtain ⟨topic, pub, -, -, rfl⟩ := unregisterPublication_eq_ok_iff.mp hrun
    exact withoutPublication t u topic pub ht
  subscribe t t' u cb ht hrun := by
    obtain ⟨-, -, rfl⟩ := subscribe_eq_ok_iff.mp hrun
    exact withSubscription t u cb ht
  unregisterSubscription t t' u ht hrun := by
    obtain ⟨topic, sub, -, -, rfl⟩ := unregisterSubscription_eq_ok_iff.mp hrun
    exact withoutSubscription t u topic sub ht
  publishTo t t' topic msg ht hrun := by
    obtain ⟨pub, -, rfl⟩ := publishTo_eq_ok_iff.mp hrun
    exact published t pub.ptr msg ht

theorem Steady.publish (h : Steady I) (ht : I t) {u : StdString} {msg : M}
    (hrun : t.publish u msg = .ok t') : I t' := by
  rw [TopicManager.publish] at hrun
  split_ifs at hrun
  · exact h.publishTo t t' _ msg ht hrun
  · cases hrun
  · obtain ⟨s, hregister, hpublish⟩ := bind_eq_ok_iff.mp hrun
    have hs := h.registerPublication t s u ht hregister
    exact h.publishTo s t' _ msg hs hpublish

theorem Steady.refreshPublication (h : Steady I) (ht : I t) {entry : StdString × StdString}
    (hrun : t.refreshPublication entry = .ok t') : I t' := by
  rw [TopicManager.refreshPublication] at hrun
  by_cases hmoved : t.remap entry.1 ≠ entry.2
  · rw [if_pos hmoved] at hrun
    obtain ⟨s, hunregister, hrest⟩ := bind_eq_ok_iff.mp hrun
    obtain ⟨s', hregister, hlast⟩ := bind_eq_ok_iff.mp hrest
    split_ifs at hlast
    obtain rfl := Except.ok.inj hlast
    have hs := h.unregisterPublication t s _ ht hunregister
    exact h.registerPublication s s' _ hs hregister
  · rw [if_neg hmoved] at hrun
    exact Except.ok.inj hrun ▸ ht

theorem Steady.refreshSubscription (h : Steady I) (ht : I t) {entry : StdString × StdString}
    (hrun : t.refreshSubscription entry = .ok t') : I t' := by
  rw [TopicManager.refreshSubscription] at hrun
  by_cases hmoved : t.remap entry.1 ≠ entry.2
  · rw [if_pos hmoved] at hrun
    split at hrun
    · cases hrun
    · obtain ⟨s, hunregister, hrest⟩ := bind_eq_ok_iff.mp hrun
      obtain ⟨s', hsubscribe, hlast⟩ := bind_eq_ok_iff.mp hrest
      split_ifs at hlast
      obtain rfl := Except.ok.inj hlast
      have hs := h.unregisterSubscription t s _ ht hunregister
      exact h.subscribe s s' _ _ hs hsubscribe
  · rw [if_neg hmoved] at hrun
    exact Except.ok.inj hrun ▸ ht

theorem Steady.refreshRemaps (h : Steady I) (ht : I t) (hrun : t.refreshRemaps = .ok t') :
    I t' := by
  rw [TopicManager.refreshRemaps] at hrun
  obtain ⟨s, hpubs, hsubs⟩ := bind_eq_ok_iff.mp hrun
  have hs : I s := run_preserves (fun _ _ _ hI hround => h.refreshPublication hI hround) ht hpubs
  exact run_preserves (fun _ _ _ hI hround => h.refreshSubscription hI hround) hs hsubs

theorem Steady.shutdown (h : Steady I) (ht : I t) (hrun : t.shutdown = .ok t') : I t' := by
  rw [TopicManager.shutdown] at hrun
  obtain ⟨s, hpubs, hsubs⟩ := bind_eq_ok_iff.mp hrun
  have hpub : ∀ s (e : StdString × StdString) s', I s → s.unregisterPublication e.1 = .ok s' → I s' :=
    fun s e s' hI hround => h.unregisterPublication s s' e.1 hI hround
  have hsub : ∀ s (e : StdString × StdString) s', I s → s.unregisterSubscription e.1 = .ok s' → I s' :=
    fun s e s' hI hround => h.unregisterSubscription s s' e.1 hI hround
  exact run_preserves hsub (run_preserves hpub ht hpubs) hsubs

theorem Steady.stable (h : Steady I) (rules : ∀ t rules, I t → I { t with remaps := rules }) : Stable I :=
  ⟨rules, h.registerPublication, h.unregisterPublication, h.subscribe, h.unregisterSubscription, h.publishTo⟩

theorem Stable.steady (h : Stable I) : Steady I :=
  ⟨h.registerPublication, h.unregisterPublication, h.subscribe, h.unregisterSubscription, h.publishTo⟩

theorem Stable.onOp (h : Stable I) (ht : I t) {op : TopicOp C M} (hrun : t.onOp op = .ok t') :
    I t' := by
  cases op with
  | publish unmapped msg => exact h.steady.publish ht hrun
  | registerPublication unmapped => exact h.registerPublication t t' unmapped ht hrun
  | unregisterPublication unmapped => exact h.unregisterPublication t t' unmapped ht hrun
  | subscribe unmapped cb => exact h.subscribe t t' unmapped cb ht hrun
  | unregisterSubscription unmapped => exact h.unregisterSubscription t t' unmapped ht hrun
  | setRemap find replace => exact h.steady.refreshRemaps (h.rules t _ ht) hrun
  | setRemappings find replace =>
      rw [TopicManager.onOp, TopicManager.setRemappings] at hrun
      split_ifs at hrun
      exact h.steady.refreshRemaps (h.rules t _ ht) hrun
  | shutdown => exact h.steady.shutdown ht hrun

end TopicManager

end Ros2Proto
