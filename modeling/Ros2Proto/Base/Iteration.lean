import Ros2Proto.Base.Runs

/-!
# Loops over a container that their body changes

An iterator is good for as long as the entry it stands at is in the container. A loop from the first entry
to the last, whose body runs at an entry and which then moves on, ends with a fault if the entry is gone
by then. The bodies here put nothing into the container, so the loop comes to the entries of the start that
are still there at their turn.
-/

namespace Iteration

open FallibleRun

variable {σ A φ : Type*}

/-- The loop from the entries `l` on, with those it has visited. `holds s a` says that the container still has
the entry `a` in the state `s`. -/
def forEach (holds : σ → A → Prop) [∀ s, DecidablePred (holds s)] (dangling : φ)
    (body : σ → A → Except φ σ) : List A → σ → Except φ (List A × σ)
  | [], s => .ok ([], s)
  | a :: rest, s =>
    if holds s a then
      match body s a with
      | .error e => .error e
      | .ok s' =>
        if holds s' a then (forEach holds dangling body rest s').map fun r => (a :: r.1, r.2)
        else .error dangling
    else forEach holds dangling body rest s

variable {holds : σ → A → Prop} [∀ s, DecidablePred (holds s)] {dangling : φ} {body : σ → A → Except φ σ}
  {l : List A} {s : σ} {r : List A × σ}

theorem forEach_of_gone (h : ∀ a ∈ l, ¬ holds s a) : forEach holds dangling body l s = .ok ([], s) := by
  induction l with
  | nil => rfl
  | cons a rest ih =>
      rw [forEach, if_neg (h a List.mem_cons_self)]
      apply ih
      intro b hb
      exact h b (List.mem_cons_of_mem a hb)

/-- If the body never leaves the entry it runs at, the loop fails at the first entry it comes to. -/
theorem gone_of_forEach (hbody : ∀ s a s', body s a = .ok s' → ¬ holds s' a)
    (hrun : forEach holds dangling body l s = .ok r) : ∀ a ∈ l, ¬ holds s a := by
  induction l with
  | nil =>
      intro a ha
      cases ha
  | cons a rest ih =>
      rw [forEach] at hrun
      by_cases hholds : holds s a
      · rw [if_pos hholds] at hrun
        cases hstep : body s a with
        | error e =>
            rw [hstep] at hrun
            cases hrun
        | ok s' =>
            simp only [hstep, if_neg (hbody s a s' hstep)] at hrun
            cases hrun
      · rw [if_neg hholds] at hrun
        exact List.forall_mem_cons.mpr ⟨hholds, ih hrun⟩

/-- **A loop that erases where it stands** gets through only where it has nothing to visit. -/
theorem forEach_erasing (hbody : ∀ s a s', body s a = .ok s' → ¬ holds s' a) :
    forEach holds dangling body l s = .ok r ↔ (∀ a ∈ l, ¬ holds s a) ∧ r = ([], s) := by
  constructor
  · intro hrun
    have hgone := gone_of_forEach hbody hrun
    rw [forEach_of_gone hgone] at hrun
    exact ⟨hgone, (Except.ok.inj hrun).symm⟩
  · intro h
    rw [h.2]
    exact forEach_of_gone h.1

/-- **A loop that leaves the container alone** visits every entry, in a run of its body. -/
theorem forEach_keeping (hbody : ∀ s a s', body s a = .ok s' → ∀ b, holds s' b ↔ holds s b)
    (hall : ∀ a ∈ l, holds s a) :
    forEach holds dangling body l s = (run body s l).map fun s' => (l, s') := by
  induction l generalizing s with
  | nil => rfl
  | cons a rest ih =>
      have hholds := hall a List.mem_cons_self
      rw [forEach, if_pos hholds, run_cons]
      cases hstep : body s a with
      | error e => rfl
      | ok s' =>
          have hrest : ∀ b ∈ rest, holds s' b := by
            intro b hb
            exact (hbody s a s' hstep b).mpr (hall b (List.mem_cons_of_mem a hb))
          show (if holds s' a then _ else _) = ((run body s' rest).map fun s'' => (a :: rest, s''))
          rw [if_pos ((hbody s a s' hstep a).mpr hholds), ih hrest]
          cases run body s' rest with
          | error e => rfl
          | ok s'' => rfl

end Iteration
