import Mathlib.Data.List.Induction

/-!
# Runs of a fallible step function

A program that serves events one at a time is a function `σ → ε → Except φ σ`: an event either
leads to the next state or ends the program with a fault. A run folds that function over a list of
events. What a run preserves follows from what one step preserves, so the rules below are stated
once for every such function.

Some results hold only of the runs that avoid a given step. `Along step P s es` says that every
step of the run of `es` from `s` meets `P` in the state where it is taken.
-/

namespace FallibleRun

variable {σ ε φ : Type*} {step : σ → ε → Except φ σ} {P Q : σ → ε → Prop} {I : σ → Prop}

theorem bind_eq_ok_iff {α β : Type*} {x : Except φ α} {f : α → Except φ β} {b : β} :
    x.bind f = .ok b ↔ ∃ a, x = .ok a ∧ f a = .ok b := by
  cases x with
  | error e => exact ⟨nofun, fun ⟨a, hx, _⟩ => nomatch hx⟩
  | ok a => exact ⟨fun h => ⟨a, rfl, h⟩, fun ⟨a', hx, h⟩ => Except.ok.inj hx ▸ h⟩

theorem map_eq_ok_iff {α β : Type*} {x : Except φ α} {f : α → β} {b : β} :
    x.map f = .ok b ↔ ∃ a, x = .ok a ∧ f a = b := by
  cases x with
  | error e =>
      apply iff_of_false
      · intro h
        cases h
      · intro h
        obtain ⟨a, hx, -⟩ := h
        cases hx
  | ok a =>
      constructor
      · intro h
        exact ⟨a, rfl, Except.ok.inj h⟩
      · intro h
        obtain ⟨a', hx, hb⟩ := h
        exact congrArg Except.ok ((Except.ok.inj hx) ▸ hb)

theorem mapError_eq_ok_iff {α φ' : Type*} {x : Except φ α} {f : φ → φ'} {a : α} :
    x.mapError f = .ok a ↔ x = .ok a := by
  cases x with
  | error e => exact iff_of_false (fun h => by cases h) fun h => by cases h
  | ok b =>
      constructor
      · exact fun h => congrArg Except.ok (Except.ok.inj h)
      · exact fun h => congrArg Except.ok (Except.ok.inj h)

theorem bind_eq_error_iff {α β : Type*} {x : Except φ α} {f : α → Except φ β} {e : φ} :
    x.bind f = .error e ↔ x = .error e ∨ ∃ a, x = .ok a ∧ f a = .error e := by
  cases x with
  | error e' =>
      constructor
      · intro h
        exact Or.inl (congrArg Except.error (Except.error.inj h))
      · intro h
        rcases h with hx | ⟨a, hx, -⟩
        · exact congrArg Except.error (Except.error.inj hx)
        · cases hx
  | ok a =>
      constructor
      · intro h
        exact Or.inr ⟨a, rfl, h⟩
      · intro h
        rcases h with hx | ⟨a', hx, h⟩
        · cases hx
        · exact Except.ok.inj hx ▸ h

/-- The run of `events` from `s`, up to the first fault. -/
def run (step : σ → ε → Except φ σ) (s : σ) (events : List ε) : Except φ σ :=
  events.foldlM step s

@[simp] theorem run_nil (s : σ) : run step s [] = .ok s := rfl

theorem run_cons (s : σ) (e : ε) (es : List ε) :
    run step s (e :: es) = (step s e).bind fun s' => run step s' es := by
  simp only [run, List.foldlM_cons]
  rfl

theorem run_append (s : σ) (es fs : List ε) :
    run step s (es ++ fs) = (run step s es).bind fun s' => run step s' fs := by
  simp only [run, List.foldlM_append]
  rfl

theorem run_cons_of_step {s s' : σ} {e : ε} (h : step s e = .ok s') (es : List ε) :
    run step s (e :: es) = run step s' es := by
  rw [run_cons, h]
  rfl

theorem run_append_of_run {s s' : σ} {es : List ε} (h : run step s es = .ok s') (fs : List ε) :
    run step s (es ++ fs) = run step s' fs := by
  rw [run_append, h]
  rfl

theorem run_concat_of_run {s s' : σ} {es : List ε} (h : run step s es = .ok s') (e : ε) :
    run step s (es ++ [e]) = step s' e := by
  rw [run_append_of_run h, run_cons]
  cases step s' e <;> rfl

/-- Every step of the run of `es` from `s` meets `P` in the state where it is taken. -/
def Along (step : σ → ε → Except φ σ) (P : σ → ε → Prop) : σ → List ε → Prop
  | _, [] => True
  | s, e :: es => P s e ∧ ∀ s', step s e = .ok s' → Along step P s' es

instance decidableAlong [∀ s e, Decidable (P s e)] :
    ∀ s es, Decidable (Along step P s es)
  | _, [] => isTrue trivial
  | s, e :: es =>
    match h : step s e with
    | .error _ => decidable_of_iff (P s e)
        ⟨fun hP => ⟨hP, fun _ hok => nomatch h.symm.trans hok⟩, fun hall => hall.1⟩
    | .ok s' =>
      have := decidableAlong s' es
      decidable_of_iff (P s e ∧ Along step P s' es)
        ⟨fun hall => ⟨hall.1, fun _ hok => Except.ok.inj (h.symm.trans hok) ▸ hall.2⟩,
          fun hall => ⟨hall.1, hall.2 s' h⟩⟩

@[simp] theorem along_nil (s : σ) : Along step P s [] := trivial

theorem Along.cons {s s' : σ} {e : ε} {es : List ε} (hstep : step s e = .ok s') (hP : P s e)
    (hrest : Along step P s' es) : Along step P s (e :: es) := by
  refine ⟨hP, fun t ht => ?_⟩
  obtain rfl := Except.ok.inj (hstep.symm.trans ht)
  exact hrest

theorem along_append (s : σ) (es fs : List ε) :
    Along step P s (es ++ fs) ↔
      Along step P s es ∧ ∀ s', run step s es = .ok s' → Along step P s' fs := by
  induction es generalizing s with
  | nil => simp
  | cons e es ih =>
      simp only [List.cons_append, Along, ih, run_cons]
      constructor
      · rintro ⟨hstep, hrest⟩
        refine ⟨⟨hstep, fun s' hs' => (hrest s' hs').1⟩, fun s' hs' => ?_⟩
        cases hmid : step s e with
        | error f => rw [hmid] at hs'; cases hs'
        | ok mid => rw [hmid] at hs'; exact (hrest mid hmid).2 s' hs'
      · rintro ⟨⟨hstep, hrest⟩, htail⟩
        refine ⟨hstep, fun s' hs' => ⟨hrest s' hs', fun t ht => htail t ?_⟩⟩
        rw [hs']
        exact ht

theorem Along.of_prefix {s : σ} {es fs : List ε} (h : Along step P s fs) (hpre : es <+: fs) :
    Along step P s es := by
  obtain ⟨rest, rfl⟩ := hpre
  exact ((along_append s es rest).mp h).1

/-- What every step allows, every run allows. -/
theorem along_of_forall {es : List ε} (h : ∀ s, ∀ e ∈ es, P s e) (s : σ) :
    Along step P s es := by
  induction es generalizing s with
  | nil => trivial
  | cons e es ih =>
      exact ⟨h s e (by simp), fun s' _ => ih (fun t e' he' => h t e' (by simp [he'])) s'⟩

/-- Two conditions that agree at the invariant allow the same runs, if a step that meets them keeps the
invariant. -/
theorem along_congr (hstep : ∀ s e s', I s → P s e → step s e = .ok s' → I s')
    (hiff : ∀ s e, I s → (Q s e ↔ P s e)) {s : σ} (hs : I s) (es : List ε) :
    Along step Q s es ↔ Along step P s es := by
  induction es generalizing s with
  | nil => exact Iff.rfl
  | cons e es ih =>
      have hrest : P s e → ((∀ s', step s e = .ok s' → Along step Q s' es) ↔
          ∀ s', step s e = .ok s' → Along step P s' es) := fun hP =>
        forall_congr' fun s' => forall_congr' fun hok => ih (hstep s e s' hs hP hok)
      exact and_congr (hiff s e hs) (Iff.rfl) |>.trans (and_congr_right hrest)

/-! ### How a computation ends -/

section

variable {α β : Type*} {A : α → Prop} {B : β → Prop} {F : φ → Prop}

/-- A computation ends in a state that meets `A`, or in a fault that meets `F`. -/
def Ends (A : α → Prop) (F : φ → Prop) : Except φ α → Prop
  | .ok a => A a
  | .error f => F f

instance decidableEnds [DecidablePred A] [DecidablePred F] : DecidablePred (Ends A F)
  | .ok a => inferInstanceAs (Decidable (A a))
  | .error f => inferInstanceAs (Decidable (F f))

theorem Ends.of_ok {x : Except φ α} (h : ∃ a, x = .ok a ∧ A a) : Ends A F x := by
  obtain ⟨a, rfl, ha⟩ := h
  exact ha

theorem Ends.mono {A' : α → Prop} {x : Except φ α} (hx : Ends A F x) (h : ∀ a, A a → A' a) :
    Ends A' F x := by
  cases x with
  | ok a => exact h a hx
  | error e => exact hx

theorem Ends.mono_fault {F' : φ → Prop} {x : Except φ α} (hx : Ends A F x) (h : ∀ f, F f → F' f) :
    Ends A F' x := by
  cases x with
  | ok a => exact hx
  | error e => exact h e hx

theorem Ends.bind {x : Except φ α} {f : α → Except φ β} (hx : Ends A F x)
    (hf : ∀ a, A a → Ends B F (f a)) : Ends B F (x.bind f) := by
  cases x with
  | ok a => exact hf a hx
  | error e => exact hx

theorem Ends.map {x : Except φ α} {f : α → β} (hx : Ends A F x) (hf : ∀ a, A a → B (f a)) :
    Ends B F (x.map f) := by
  cases x with
  | ok a => exact hf a hx
  | error e => exact hx

theorem Ends.of_eq_ok {x : Except φ α} {a : α} (hx : Ends A F x) (ha : x = .ok a) : A a := by
  rw [ha] at hx
  exact hx

/-- Where no fault is possible, the computation returns. -/
theorem Ends.returns {x : Except φ α} (hx : Ends A (fun _ => False) x) : ∃ a, x = .ok a ∧ A a := by
  cases x with
  | ok a => exact ⟨a, rfl, hx⟩
  | error f => exact absurd hx not_false

end

/-! ### Walks

A loop over a list is a run whose events are the entries. What it has done so far is the list of
entries behind it. -/

section

variable {J : List ε → σ → Prop} {C : ε → Prop} {es : List ε} {F : φ → Prop}

/-- **The history rule.** If every step from the invariant under `P` ends in it, for a history that is one
event longer, or in a fault that meets `F`, so does every run along which `P` holds. -/
theorem walk_ends
    (hstep : ∀ done e rest s, es = done ++ e :: rest → J done s → P s e →
      Ends (J (done ++ [e])) F (step s e))
    {s : σ} (hs : J [] s) (hP : Along step P s es) : Ends (J es) F (run step s es) := by
  have hwalk : ∀ rest done s, es = done ++ rest → J done s → Along step P s rest →
      Ends (J es) F (run step s rest) := by
    intro rest
    induction rest with
    | nil =>
        intro done s hes hJ _
        rw [List.append_nil] at hes
        exact hes ▸ hJ
    | cons e rest ih =>
        intro done s hes hJ hP
        rw [run_cons]
        have hfirst := hstep done e rest s hes hJ hP.1
        cases hmid : step s e with
        | error f =>
            rw [hmid] at hfirst
            exact hfirst
        | ok mid =>
            rw [hmid] at hfirst
            exact ih (done ++ [e]) mid (by simp [hes]) hfirst (hP.2 mid hmid)
  exact hwalk es [] s rfl hs hP

/-- If every step from the invariant under `P` succeeds and keeps the invariant, for a history that is one
event longer, so does every run along which `P` holds. -/
theorem walk_along
    (hstep : ∀ done e rest s, es = done ++ e :: rest → J done s → P s e →
      ∃ s', step s e = .ok s' ∧ J (done ++ [e]) s')
    {s : σ} (hs : J [] s) (hP : Along step P s es) : ∃ s', run step s es = .ok s' ∧ J es s' := by
  apply Ends.returns
  apply walk_ends _ hs hP
  intro done e rest s hes hJ hP
  exact Ends.of_ok (hstep done e rest s hes hJ hP)

/-- **The walk rule.** If every round from the invariant succeeds on an entry that meets `C` and puts
the entry among those done, a walk over entries that all meet `C` succeeds. -/
theorem walk_ok
    (hstep : ∀ done e rest s, es = done ++ e :: rest → J done s → C e →
      ∃ s', step s e = .ok s' ∧ J (done ++ [e]) s')
    {s : σ} (hs : J [] s) (hC : ∀ e ∈ es, C e) : ∃ s', run step s es = .ok s' ∧ J es s' :=
  walk_along hstep hs (along_of_forall (fun _ => hC) s)

/-- A walk that fails on every other entry succeeds only if all entries meet `C`. -/
theorem walk_only_if
    (hstep : ∀ done e rest s, es = done ++ e :: rest → J done s → C e →
      ∃ s', step s e = .ok s' ∧ J (done ++ [e]) s')
    (hfail : ∀ done e rest s s', es = done ++ e :: rest → J done s → step s e = .ok s' → C e)
    {s s' : σ} (hs : J [] s) (hrun : run step s es = .ok s') : ∀ e ∈ es, C e := by
  have hround : ∀ done e rest s, es = done ++ e :: rest → (J done s ∧ ∀ e ∈ done, C e) → True →
      Ends (fun s' => J (done ++ [e]) s' ∧ ∀ e' ∈ done ++ [e], C e') (fun _ => True) (step s e) := by
    intro done e rest s hes hdone _
    cases hmid : step s e with
    | error f => trivial
    | ok mid =>
        have hCe := hfail done e rest s mid hes hdone.1 hmid
        obtain ⟨mid', hmid', hJ⟩ := hstep done e rest s hes hdone.1 hCe
        cases hmid.symm.trans hmid'
        exact ⟨hJ, List.forall_mem_append.mpr ⟨hdone.2, List.forall_mem_singleton.mpr hCe⟩⟩
  have hends := walk_ends (J := fun done s => J done s ∧ ∀ e ∈ done, C e) (P := fun _ _ => True) hround
    ⟨hs, List.forall_mem_nil C⟩ (along_of_forall (fun _ _ _ => trivial) s)
  exact (hends.of_eq_ok hrun).2

end

/-! ### Runs -/

/-- If every step from the invariant under `P` ends in it or in a fault that meets `F`, so does every
run along which `P` holds. -/
theorem run_ends {F : φ → Prop} (hstep : ∀ s e, I s → P s e → Ends I F (step s e)) {s : σ} {es : List ε}
    (hs : I s) (hP : Along step P s es) : Ends I F (run step s es) :=
  walk_ends (J := fun _ => I) (fun _ e _ s _ => hstep s e) hs hP

/-- If every step from the invariant ends in it or in a fault that meets `F`, so does every run. -/
theorem run_always_ends {F : φ → Prop} (hstep : ∀ s e, I s → Ends I F (step s e)) {s : σ} (hs : I s)
    (es : List ε) : Ends I F (run step s es) :=
  run_ends (fun s e hI _ => hstep s e hI) hs
    (along_of_forall (P := fun _ _ => True) (fun _ _ _ => trivial) s)

/-- **The run rule.** If a step taken from the invariant under `P` succeeds and keeps the
invariant, so does every run along which `P` holds. -/
theorem run_invariant (hstep : ∀ s e, I s → P s e → ∃ s', step s e = .ok s' ∧ I s')
    {s : σ} {es : List ε} (hs : I s) (hP : Along step P s es) :
    ∃ s', run step s es = .ok s' ∧ I s' :=
  walk_along (J := fun _ => I) (fun _ e _ s _ => hstep s e) hs hP

/-- If every step from the invariant succeeds and keeps it, so does every run. -/
theorem run_always (hstep : ∀ s e, I s → ∃ s', step s e = .ok s' ∧ I s') {s : σ} (hs : I s)
    (es : List ε) : ∃ s', run step s es = .ok s' ∧ I s' :=
  run_invariant (fun s e hI _ => hstep s e hI) hs
    (along_of_forall (P := fun _ _ => True) (fun _ _ _ => trivial) s)

/-- The partial form of the run rule: what successful steps preserve, a successful run preserves. -/
theorem run_preserves (hstep : ∀ s e s', I s → step s e = .ok s' → I s')
    {s s' : σ} {es : List ε} (hs : I s) (hrun : run step s es = .ok s') : I s' := by
  have hends : Ends I (fun _ => True) (run step s es) := by
    apply run_always_ends _ hs
    intro s e hI
    cases hmid : step s e with
    | error f => trivial
    | ok mid => exact hstep s e mid hI hmid
  exact hends.of_eq_ok hrun

/-- What a run keeps may speak of the events so far, and of the state that they led to. -/
theorem run_traced {J : List ε → σ → Prop} {s : σ} (hnil : J [] s)
    (hstep : ∀ done e t t', run step s done = .ok t → J done t → step t e = .ok t' → J (done ++ [e]) t')
    {s' : σ} {es : List ε} (hrun : run step s es = .ok s') : J es s' := by
  induction es using List.reverseRecOn generalizing s' with
  | nil => exact Except.ok.inj hrun ▸ hnil
  | append_singleton done e ih =>
      rw [run_append] at hrun
      obtain ⟨t, hdone, hlast⟩ := bind_eq_ok_iff.mp hrun
      rw [run_cons] at hlast
      obtain ⟨t', hok, hnil⟩ := bind_eq_ok_iff.mp hlast
      obtain rfl := Except.ok.inj hnil
      exact hstep done e t t' hdone (ih hdone) hok

/-- **The simulation rule.** If each step from related states is matched by a run of another system to
related states, so is each run. -/
theorem run_simulates {σ' ε' φ' : Type*} {step' : σ' → ε' → Except φ' σ'} {R : σ → σ' → Prop}
    (hstep : ∀ s e s' a, R s a → step s e = .ok s' → ∃ fs b, run step' a fs = .ok b ∧ R s' b)
    {s s' : σ} {a : σ'} {es : List ε} (hR : R s a) (hrun : run step s es = .ok s') :
    ∃ fs b, run step' a fs = .ok b ∧ R s' b := by
  apply run_preserves (I := fun s' => ∃ fs b, run step' a fs = .ok b ∧ R s' b) _ ⟨[], a, rfl, hR⟩ hrun
  intro s e s' hs hok
  obtain ⟨fs, b, hfs, hb⟩ := hs
  obtain ⟨gs, c, hgs, hc⟩ := hstep s e s' b hb hok
  exact ⟨fs ++ gs, c, (run_append_of_run hfs gs).trans hgs, hc⟩

/-- **The ledger rule.** If each step from the invariant under `P` appends to a ledger what its event
is worth, a run appends what its events are worth. -/
theorem run_ledger {β : Type*} (ledger : σ → List β) {worth : ε → List β}
    (hstep : ∀ s e, I s → P s e →
      ∃ s', step s e = .ok s' ∧ I s' ∧ ledger s' = ledger s ++ worth e)
    {s : σ} {es : List ε} (hs : I s) (hP : Along step P s es) :
    ∃ s', run step s es = .ok s' ∧ I s' ∧ ledger s' = ledger s ++ es.flatMap worth := by
  apply walk_along (J := fun done s' => I s' ∧ ledger s' = ledger s ++ done.flatMap worth) _ _ hP
  · intro done e rest mid _ hmid hPe
    obtain ⟨s', hok, hI, hworth⟩ := hstep mid e hmid.1 hPe
    refine ⟨s', hok, hI, ?_⟩
    rw [hworth, hmid.2, List.flatMap_append, List.flatMap_singleton, List.append_assoc]
  · exact ⟨hs, (List.append_nil _).symm⟩

/-- **The draining rule.** An event that keeps the invariant and makes a measure less, while there is
some of it left, leads to where nothing is. -/
theorem run_drains (measure : σ → Nat) {e : ε}
    (hstep : ∀ s, I s → 0 < measure s → P s e ∧ ∃ t, step s e = .ok t ∧ I t ∧ measure t < measure s)
    {s : σ} (hs : I s) :
    ∃ k t, Along step P s (List.replicate k e) ∧ run step s (List.replicate k e) = .ok t ∧ I t ∧
      measure t = 0 := by
  induction hn : measure s using Nat.strongRecOn generalizing s with
  | ind n ih =>
      obtain hzero | hpos := Nat.eq_zero_or_pos (measure s)
      · exact ⟨0, s, trivial, rfl, hs, hzero⟩
      · obtain ⟨hP, t, hrun, ht, hless⟩ := hstep s hs hpos
        obtain ⟨k, u, hall, hrest, hu, hend⟩ := ih (measure t) (hn ▸ hless) ht rfl
        refine ⟨k + 1, u, Along.cons hrun hP hall, ?_, hu, hend⟩
        rw [List.replicate_succ, run_cons_of_step hrun, hrest]

/-- A run that leaves `P` does so at a first step. -/
theorem exists_first_failure {s : σ} {es : List ε} (h : ¬ Along step P s es) :
    ∃ before e after s', es = before ++ e :: after ∧ Along step P s before ∧
      run step s before = .ok s' ∧ ¬ P s' e := by
  induction es generalizing s with
  | nil => exact absurd trivial h
  | cons e es ih =>
      by_cases hP : P s e
      · obtain ⟨mid, hmid, hrest⟩ : ∃ mid, step s e = .ok mid ∧ ¬ Along step P mid es := by
          by_contra hnone
          push Not at hnone
          exact h ⟨hP, hnone⟩
        obtain ⟨before, e', after, s', rfl, halong, hrun, hfail⟩ := ih hrest
        refine ⟨e :: before, e', after, s', rfl, ⟨hP, fun t ht => ?_⟩, ?_, hfail⟩
        · cases hmid.symm.trans ht
          exact halong
        · exact (run_cons_of_step hmid before).trans hrun
      · exact ⟨[], e, es, s, rfl, trivial, rfl, hP⟩

end FallibleRun
