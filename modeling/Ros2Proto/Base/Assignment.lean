import Ros2Proto.Base.Runs
import Mathlib.Data.List.Nodup
import Std.Data.ExtTreeMap

/-!
# Names assigned to slots

A table from names to slots, and a table with one object in each slot in use. `Assigned` says that no
two names share a slot and that the slots in use are those some name is assigned to. It is kept when a
name without a slot takes an empty one, and when a name gives its slot up.
-/

namespace Assignment

open Std

variable {α β γ : Type*} {cmp : α → α → Ordering} {cmp' : β → β → Ordering}

/-! ### Places of a list -/

section

variable {l : List α} {i j : Nat} {a a' b : α}

theorem getElem?_set_place (hi : l[i]? = some a) (a' : α) : (l.set i a')[i]? = some a' :=
  List.getElem?_set_self (List.getElem?_eq_some_iff.mp hi).1

/-- After a change at `i`, a place holds the new entry or what it held. -/
theorem getElem?_set_cases (hj : (l.set i a')[j]? = some b) :
    j = i ∧ b = a' ∨ j ≠ i ∧ l[j]? = some b := by
  rw [List.getElem?_set] at hj
  by_cases hij : i = j
  · rw [if_pos hij] at hj
    split_ifs at hj
    exact Or.inl ⟨hij.symm, (Option.some.inj hj).symm⟩
  · rw [if_neg hij] at hj
    exact Or.inr ⟨Ne.symm hij, hj⟩

end

variable [TransCmp cmp] [TransCmp cmp']

/-! ### Tables -/

theorem mem_iff_exists_getElem? (m : ExtTreeMap α β cmp) (a : α) : a ∈ m ↔ ∃ b, m[a]? = some b := by
  rw [ExtTreeMap.mem_iff_isSome_getElem?, Option.isSome_iff_exists]

section

variable [LawfulEqCmp cmp]

theorem getElem?_insert_of_ne (m : ExtTreeMap α β cmp) {a a' : α} (h : a' ≠ a) (b : β) :
    (m.insert a b)[a']? = m[a']? := by
  rw [ExtTreeMap.getElem?_insert, if_neg]
  rw [LawfulEqCmp.compare_eq_iff_eq]
  exact h.symm

theorem getElem?_erase_of_ne (m : ExtTreeMap α β cmp) {a a' : α} (h : a' ≠ a) :
    (m.erase a)[a']? = m[a']? := by
  rw [ExtTreeMap.getElem?_erase, if_neg]
  rw [LawfulEqCmp.compare_eq_iff_eq]
  exact h.symm

theorem mem_insert_iff (m : ExtTreeMap α β cmp) {a a' : α} (b : β) :
    a' ∈ m.insert a b ↔ a = a' ∨ a' ∈ m := by
  rw [ExtTreeMap.mem_insert, LawfulEqCmp.compare_eq_iff_eq]

theorem mem_erase_iff (m : ExtTreeMap α β cmp) {a a' : α} :
    a' ∈ m.erase a ↔ a ≠ a' ∧ a' ∈ m := by
  rw [ExtTreeMap.mem_erase, ne_eq, LawfulEqCmp.compare_eq_iff_eq]

theorem insert_eq_self {m : ExtTreeMap α β cmp} {a : α} {b : β} (h : m[a]? = some b) :
    m.insert a b = m := by
  apply ExtTreeMap.ext_getElem?
  intro a'
  by_cases ha : a' = a
  · subst ha
    rw [ExtTreeMap.getElem?_insert_self, h]
  · rw [getElem?_insert_of_ne m ha]

/-- Entries for two names can be put in in either order. -/
theorem insert_comm (m : ExtTreeMap α β cmp) {a a' : α} (h : a ≠ a') (b b' : β) :
    (m.insert a b).insert a' b' = (m.insert a' b').insert a b := by
  apply ExtTreeMap.ext_getElem?
  intro c
  by_cases hc : c = a
  · subst hc
    rw [getElem?_insert_of_ne _ h, ExtTreeMap.getElem?_insert_self, ExtTreeMap.getElem?_insert_self]
  · rw [getElem?_insert_of_ne (m.insert a' b') hc]
    by_cases hc' : c = a'
    · subst hc'
      rw [ExtTreeMap.getElem?_insert_self, ExtTreeMap.getElem?_insert_self]
    · rw [getElem?_insert_of_ne _ hc', getElem?_insert_of_ne _ hc', getElem?_insert_of_ne _ hc]

/-- Entries put in one after another, with a name each: their order does not matter. -/
theorem foldl_insert_perm {entries entries' : List (α × β)} (hperm : entries.Perm entries')
    (hdistinct : (entries.map Prod.fst).Nodup) (m : ExtTreeMap α β cmp) :
    entries.foldl (fun m e => m.insert e.1 e.2) m = entries'.foldl (fun m e => m.insert e.1 e.2) m := by
  apply hperm.foldl_eq'
  intro x hx y hy z
  by_cases hxy : x = y
  · rw [hxy]
  · exact insert_comm z (fun heq => hxy (List.inj_on_of_nodup_map hdistinct hx hy heq)) x.2 y.2

/-- A table that follows `f` still does with a name that `f` assigns. -/
theorem follows_insert {m : ExtTreeMap α β cmp} {f : α → β} (h : ∀ a b, m[a]? = some b → f a = b)
    (a : α) : ∀ a' b, (m.insert a (f a))[a']? = some b → f a' = b := by
  intro a' b hb
  by_cases ha : a' = a
  · subst ha
    rw [ExtTreeMap.getElem?_insert_self] at hb
    exact Option.some.inj hb
  · rw [getElem?_insert_of_ne m ha] at hb
    exact h a' b hb

theorem follows_erase {m : ExtTreeMap α β cmp} {f : α → β} (h : ∀ a b, m[a]? = some b → f a = b)
    (a : α) : ∀ a' b, (m.erase a)[a']? = some b → f a' = b := by
  intro a' b hb
  by_cases ha : a' = a
  · subst ha
    rw [ExtTreeMap.getElem?_erase_self] at hb
    cases hb
  · rw [getElem?_erase_of_ne m ha] at hb
    exact h a' b hb

end

/-! ### Walking a copy -/

section

variable {m : ExtTreeMap α β cmp} {done rest : List (α × β)} {a : α} {b : β}

/-- Of the entries of a table, those walked before `a` are those with a smaller key. -/
theorem mem_done_iff (hsplit : m.toList = done ++ (a, b) :: rest) {a' : α} {b' : β} :
    (a', b') ∈ done ↔ (a', b') ∈ m.toList ∧ cmp a' a = .lt := by
  have hordered := ExtTreeMap.ordered_keys_toList (t := m)
  rw [hsplit, List.pairwise_append, List.pairwise_cons] at hordered
  obtain ⟨-, ⟨hrest, -⟩, hdone⟩ := hordered
  constructor
  · intro hmem
    exact ⟨by simp [hsplit, hmem], hdone _ hmem (a, b) (by simp)⟩
  · rintro ⟨hmem, hlt⟩
    rw [hsplit, List.mem_append, List.mem_cons] at hmem
    rcases hmem with hmem | heq | hmem
    · exact hmem
    · cases heq
      have heq : cmp a a = .eq := ReflCmp.compare_self
      rw [heq] at hlt
      cases hlt
    · have hgt := hrest _ hmem
      have hswap : cmp a' a = (cmp a a').swap := OrientedCmp.eq_swap
      rw [hswap, hgt] at hlt
      cases hlt

/-- `m'` is what is left of `m` once the entries `done` have been erased. -/
def Erased (m : ExtTreeMap α β cmp) (done : List (α × β)) (m' : ExtTreeMap α β cmp) : Prop :=
  ∀ a : α, (∀ b, (a, b) ∉ done) ∧ m'[a]? = m[a]? ∨ (∃ b, (a, b) ∈ done) ∧ m'[a]? = none

theorem erased_nil : Erased m [] m := fun _ => Or.inl ⟨by simp, rfl⟩

variable [LawfulEqCmp cmp]

theorem Erased.next {m' : ExtTreeMap α β cmp} (h : Erased m done m')
    (hsplit : m.toList = done ++ (a, b) :: rest) :
    m'[a]? = some b ∧ Erased m (done ++ [(a, b)]) (m'.erase a) := by
  have hmem : m[a]? = some b :=
    ExtTreeMap.mem_toList_iff_getElem?_eq_some.mp (by simp [hsplit])
  refine ⟨?_, fun a' => ?_⟩
  · rcases h a with ⟨-, hsame⟩ | ⟨⟨b', hdone⟩, -⟩
    · rw [hsame, hmem]
    · have heq : cmp a a = .eq := ReflCmp.compare_self
      rw [mem_done_iff hsplit, heq] at hdone
      cases hdone.2
  · by_cases ha : a' = a
    · subst ha
      exact Or.inr ⟨⟨b, by simp⟩, ExtTreeMap.getElem?_erase_self⟩
    · have hdone : ∀ b', (a', b') ∈ done ++ [(a, b)] ↔ (a', b') ∈ done := by
        intro b'
        simp [ha]
      simp only [hdone, getElem?_erase_of_ne m' ha]
      exact h a'

theorem Erased.eq_empty {m' : ExtTreeMap α β cmp} (h : Erased m m.toList m') : m' = ∅ := by
  apply ExtTreeMap.ext_getElem?
  intro a
  rw [ExtTreeMap.getElem?_empty]
  rcases h a with ⟨hnone, hsame⟩ | ⟨-, hnone⟩
  · rw [hsame]
    cases ha : m[a]? with
    | none => rfl
    | some b => exact absurd (ExtTreeMap.mem_toList_iff_getElem?_eq_some.mpr ha) (hnone b)
  · exact hnone

/-- **The emptying walk.** If a round takes the name of its entry out of the table and keeps `I`, a walk of a
copy of the table empties it. -/
theorem walk_empties {σ φ : Type*} {step : σ → α × β → Except φ σ} {table : σ → ExtTreeMap α β cmp}
    {I : σ → Prop}
    (hstep : ∀ (s : σ) (a : α) (b : β), I s → (table s)[a]? = some b →
      ∃ s', step s (a, b) = .ok s' ∧ I s' ∧ table s' = (table s).erase a)
    {s : σ} (hs : I s) :
    ∃ s', FallibleRun.run step s (table s).toList = .ok s' ∧ I s' ∧ table s' = ∅ := by
  have hround : ∀ done e rest s', (table s).toList = done ++ e :: rest →
      (I s' ∧ Erased (table s) done (table s')) → True →
      ∃ s'', step s' e = .ok s'' ∧ I s'' ∧ Erased (table s) (done ++ [e]) (table s'') := by
    intro done e rest s' hsplit h _
    obtain ⟨hname, hnext⟩ := h.2.next hsplit
    obtain ⟨s'', hok, hI, htable⟩ := hstep s' e.1 e.2 h.1 hname
    exact ⟨s'', hok, hI, htable ▸ hnext⟩
  obtain ⟨s', hrun, hI, herased⟩ := FallibleRun.walk_ok
    (J := fun done s' => I s' ∧ Erased (table s) done (table s')) (C := fun _ => True) hround
    ⟨hs, erased_nil⟩ fun _ _ => trivial
  exact ⟨s', hrun, hI, herased.eq_empty⟩

end

structure Assigned (names : ExtTreeMap α β cmp) (objects : ExtTreeMap β γ cmp') : Prop where
  injective : ∀ (a a' : α) (b : β), names[a]? = some b → names[a']? = some b → a = a'
  image : ∀ b : β, b ∈ objects ↔ ∃ a : α, names[a]? = some b

namespace Assigned

variable {names : ExtTreeMap α β cmp} {objects : ExtTreeMap β γ cmp'} {a : α} {b : β}

theorem empty : Assigned (∅ : ExtTreeMap α β cmp) (∅ : ExtTreeMap β γ cmp') where
  injective a a' b h := by simp at h
  image b := by simp

theorem objects_eq_empty (h : Assigned (∅ : ExtTreeMap α β cmp) objects) : objects = ∅ := by
  apply ExtTreeMap.eq_empty_iff_forall_not_mem.mpr
  intro b hb
  obtain ⟨a, ha⟩ := (h.image b).mp hb
  rw [ExtTreeMap.getElem?_empty] at ha
  cases ha

theorem object (h : Assigned names objects) (ha : names[a]? = some b) :
    ∃ o, objects[b]? = some o :=
  (mem_iff_exists_getElem? objects b).mp ((h.image b).mpr ⟨a, ha⟩)

/-- A name whose slot by `f` is not in use has no slot, in a table that follows `f`. -/
theorem name_eq_none (h : Assigned names objects) {f : α → β} (hf : ∀ a b, names[a]? = some b → f a = b)
    (hfree : f a ∉ objects) : names[a]? = none := by
  cases ha : names[a]? with
  | none => rfl
  | some b =>
      rw [hf a b ha] at hfree
      exact absurd ((h.image b).mpr ⟨a, ha⟩) hfree

variable [LawfulEqCmp cmp] [LawfulEqCmp cmp']

theorem insert (h : Assigned names objects) (ha : names[a]? = none) (hb : b ∉ objects) (o : γ) :
    Assigned (names.insert a b) (objects.insert b o) where
  injective a₁ a₂ b' h₁ h₂ := by
    have hunused : ∀ a' : α, names[a']? ≠ some b := fun a' ha' => hb ((h.image b).mpr ⟨a', ha'⟩)
    by_cases hne₁ : a₁ = a <;> by_cases hne₂ : a₂ = a
    · rw [hne₁, hne₂]
    · subst hne₁
      rw [ExtTreeMap.getElem?_insert_self] at h₁
      cases h₁
      rw [getElem?_insert_of_ne names hne₂] at h₂
      exact absurd h₂ (hunused a₂)
    · subst hne₂
      rw [ExtTreeMap.getElem?_insert_self] at h₂
      cases h₂
      rw [getElem?_insert_of_ne names hne₁] at h₁
      exact absurd h₁ (hunused a₁)
    · rw [getElem?_insert_of_ne names hne₁] at h₁
      rw [getElem?_insert_of_ne names hne₂] at h₂
      exact h.injective a₁ a₂ b' h₁ h₂
  image b' := by
    rw [ExtTreeMap.mem_insert, LawfulEqCmp.compare_eq_iff_eq, h.image]
    constructor
    · intro hmem
      rcases hmem with rfl | ⟨a', ha'⟩
      · exact ⟨a, ExtTreeMap.getElem?_insert_self⟩
      · have hne : a' ≠ a := by
          intro heq
          rw [heq, ha] at ha'
          cases ha'
        exact ⟨a', (getElem?_insert_of_ne names hne b).trans ha'⟩
    · intro ⟨a', ha'⟩
      by_cases hne : a' = a
      · subst hne
        rw [ExtTreeMap.getElem?_insert_self] at ha'
        exact Or.inl (Option.some.inj ha')
      · rw [getElem?_insert_of_ne names hne] at ha'
        exact Or.inr ⟨a', ha'⟩

theorem erase (h : Assigned names objects) (ha : names[a]? = some b) :
    Assigned (names.erase a) (objects.erase b) where
  injective a₁ a₂ b' h₁ h₂ := by
    have hne : ∀ a' : α, (names.erase a)[a']? = some b' → a' ≠ a := by
      intro a' ha' heq
      subst heq
      rw [ExtTreeMap.getElem?_erase_self] at ha'
      cases ha'
    rw [getElem?_erase_of_ne names (hne a₁ h₁)] at h₁
    rw [getElem?_erase_of_ne names (hne a₂ h₂)] at h₂
    exact h.injective a₁ a₂ b' h₁ h₂
  image b' := by
    rw [ExtTreeMap.mem_erase, ne_eq, LawfulEqCmp.compare_eq_iff_eq, h.image]
    constructor
    · intro ⟨hne, a', ha'⟩
      have hname : a' ≠ a := by
        intro heq
        rw [heq, ha] at ha'
        exact hne (Option.some.inj ha')
      exact ⟨a', (getElem?_erase_of_ne names hname).trans ha'⟩
    · intro ⟨a', ha'⟩
      have hname : a' ≠ a := by
        intro heq
        rw [heq, ExtTreeMap.getElem?_erase_self] at ha'
        cases ha'
      rw [getElem?_erase_of_ne names hname] at ha'
      refine ⟨fun heq => hname ?_, a', ha'⟩
      exact h.injective a' a b' ha' (heq ▸ ha)

end Assigned

end Assignment
