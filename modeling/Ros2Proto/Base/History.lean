import Mathlib.Data.List.Induction
import Ros2Proto.Base.Assignment

/-!
# What a history says last

Events that are each about one key, and that each open the key or close it. A key is open after a
history if the last event about it opens it. `Tracks` relates a table to the history that made it,
and two tables agree on a key exactly if their histories leave it the same way.
-/

namespace History

variable {ε κ : Type*} [DecidableEq κ] {key : ε → κ} {opens : ε → Bool}

/-- The last event about `k`. -/
def last (key : ε → κ) (k : κ) (events : List ε) : Option ε :=
  (events.filter fun e => key e = k).getLast?

/-- The last event about `k` opens it. -/
def isOpen (key : ε → κ) (opens : ε → Bool) (k : κ) (events : List ε) : Bool :=
  (last key k events).any opens

@[simp] theorem last_nil (k : κ) : last key k [] = none := rfl

theorem last_concat (k : κ) (events : List ε) (e : ε) :
    last key k (events ++ [e]) = if key e = k then some e else last key k events := by
  rw [last, List.filter_append, List.getLast?_append]
  by_cases hk : key e = k
  · simp [hk]
  · simp [hk, last]

/-- An event that is last about `k` is about `k`. -/
theorem key_of_last {k : κ} {events : List ε} {e : ε} (h : last key k events = some e) :
    key e = k := by
  have hmem := List.mem_of_getLast? h
  rw [List.mem_filter, decide_eq_true_eq] at hmem
  exact hmem.2

/-- Histories that say the same of `k` in the same order leave it the same way. -/
theorem isOpen_congr {k : κ} {es fs : List ε}
    (h : (es.filter fun e => key e = k) = fs.filter fun e => key e = k) :
    isOpen key opens k es = isOpen key opens k fs := by
  rw [isOpen, isOpen, last, last, h]

theorem isOpen_concat (k : κ) (events : List ε) (e : ε) :
    isOpen key opens k (events ++ [e]) =
      if key e = k then opens e else isOpen key opens k events := by
  rw [isOpen, last_concat]
  split_ifs <;> rfl

/-- Entries put into a table, one after another: each key is left with the last. -/
theorem getElem?_foldl_insert_or {β : Type*} {cmp : κ → κ → Ordering} [Std.TransCmp cmp]
    [Std.LawfulEqCmp cmp] (value : ε → β) (events : List ε) (table : Std.ExtTreeMap κ β cmp) (k : κ) :
    (events.foldl (fun table e => table.insert (key e) (value e)) table)[k]? =
      ((last key k events).map value).or table[k]? := by
  induction events using List.reverseRecOn with
  | nil => rfl
  | append_singleton events e ih =>
      rw [List.foldl_concat, last_concat]
      by_cases hk : key e = k
      · subst hk
        rw [Std.ExtTreeMap.getElem?_insert_self, if_pos rfl]
        rfl
      · rw [Assignment.getElem?_insert_of_ne _ (Ne.symm hk), ih, if_neg hk]

theorem getElem?_foldl_insert {β : Type*} {cmp : κ → κ → Ordering} [Std.TransCmp cmp]
    [Std.LawfulEqCmp cmp] (value : ε → β) (events : List ε) (k : κ) :
    (events.foldl (fun table e => table.insert (key e) (value e))
      (∅ : Std.ExtTreeMap κ β cmp))[k]? = (last key k events).map value := by
  rw [getElem?_foldl_insert_or, Std.ExtTreeMap.getElem?_empty, Option.or_none]

/-- Of events about `k` there is a last. -/
theorem exists_last {k : κ} {events : List ε} {e : ε} (h : e ∈ events) (hk : key e = k) :
    ∃ e', last key k events = some e' := by
  cases hlast : last key k events with
  | some e' => exact ⟨e', rfl⟩
  | none =>
      rw [last, List.getLast?_eq_none_iff, List.filter_eq_nil_iff] at hlast
      exact absurd (decide_eq_true hk) (hlast e h)

/-- A table is what its entries make of an empty one. -/
theorem foldl_insert_toList {β : Type*} {cmp : κ → κ → Ordering} [Std.TransCmp cmp]
    [Std.LawfulEqCmp cmp] (table : Std.ExtTreeMap κ β cmp) :
    table.toList.foldl (fun table e => table.insert e.1 e.2) ∅ = table := by
  apply Std.ExtTreeMap.ext_getElem?
  intro k
  rw [getElem?_foldl_insert]
  cases hlast : last Prod.fst k table.toList with
  | some e =>
      have hmem := List.mem_of_getLast? hlast
      have hk := key_of_last hlast
      subst hk
      exact (Std.ExtTreeMap.mem_toList_iff_getElem?_eq_some.mp (List.mem_filter.mp hmem).1).symm
  | none =>
      cases hk : table[k]? with
      | none => rfl
      | some b =>
          obtain ⟨e, he⟩ : ∃ e, last Prod.fst k table.toList = some e :=
            exists_last (Std.ExtTreeMap.mem_toList_iff_getElem?_eq_some.mpr hk) rfl
          rw [hlast] at he
          cases he

/-- The table holds the keys that the history leaves open. -/
def Tracks (key : ε → κ) (opens : ε → Bool) (table : κ → Prop) (events : List ε) : Prop :=
  ∀ k, table k ↔ isOpen key opens k events = true

namespace Tracks

variable {table table' : κ → Prop} {es fs : List ε}

/-- An event carried out on its own key, and on no other, is tracked. -/
theorem concat (h : Tracks key opens table es) {e : ε} (hself : table' (key e) ↔ opens e = true)
    (hframe : ∀ k, key e ≠ k → (table' k ↔ table k)) :
    Tracks key opens table' (es ++ [e]) := by
  intro k
  rw [isOpen_concat]
  by_cases hk : key e = k
  · subst hk
    rw [if_pos rfl]
    exact hself
  · rw [if_neg hk]
    exact (hframe k hk).trans (h k)

/-- Two tables agree on a key exactly if their histories do. -/
theorem agree_iff (h : Tracks key opens table es) (h' : Tracks key opens table' fs) (k : κ) :
    (table k ↔ table' k) ↔ isOpen key opens k es = isOpen key opens k fs := by
  rw [h k, h' k]
  exact Bool.eq_iff_iff.symm

end Tracks

end History
