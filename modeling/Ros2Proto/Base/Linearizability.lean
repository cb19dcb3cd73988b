import Mathlib.Data.List.Nodup

/-!
# Linearizable histories

An object is called by many parties at once. Its history is the list of the calls and returns, in the
order in which they happened. A history is linearizable if the calls that returned, and some of those
that did not, could have been made one after another: each with the result it has, and none before a
call that had returned when it was made.

If every call takes effect in one step of the system, at some time between its call and its return, the
order of these steps is such an order. `Linearizes` has one rule for each of the three kinds of step.
-/

namespace Linearizability

open List

variable {τ Op Res σ : Type*}

inductive Mark (τ Op Res : Type*)
  | call (id : τ) (op : Op)
  | ret (id : τ) (res : Res)

/-- A call, with the result that it has once it took effect. -/
structure Effect (τ Op Res : Type*) where
  id : τ
  op : Op
  res : Res

/-- The calls whose effects are `order`, made one after another from `s₀`, lead to `s`. -/
inductive Legal (spec : σ → Op → Res → σ → Prop) (s₀ : σ) : List (Effect τ Op Res) → σ → Prop
  | nil : Legal spec s₀ [] s₀
  | concat {order : List (Effect τ Op Res)} {s s' : σ} {e : Effect τ Op Res}
      (h : Legal spec s₀ order s) (hspec : spec s e.op e.res s') : Legal spec s₀ (order ++ [e]) s'

/-- What a caller sees: each call is made once and returns at most once, after it was made. -/
structure WellFormed (history : List (Mark τ Op Res)) : Prop where
  calls : ∀ id op op', ¬ [Mark.call id op, Mark.call id op'] <+ history
  rets : ∀ id res res', ¬ [Mark.ret id res, Mark.ret id res'] <+ history
  called : ∀ id res, Mark.ret id res ∈ history → ∃ op, [Mark.call id op, Mark.ret id res] <+ history

/-- The calls in `order` explain the history, and lead to `s`. -/
structure Linearizes (spec : σ → Op → Res → σ → Prop) (s₀ : σ) (history : List (Mark τ Op Res))
    (order : List (Effect τ Op Res)) (s : σ) : Prop where
  legal : Legal spec s₀ order s
  nodup : (order.map Effect.id).Nodup
  called : ∀ e ∈ order, Mark.call e.id e.op ∈ history
  returned : ∀ id res, Mark.ret id res ∈ history → ∃ op, ⟨id, op, res⟩ ∈ order
  realTime : ∀ id res id' op, [Mark.ret id res, Mark.call id' op] <+ history →
    id' ∈ order.map Effect.id → [id, id'] <+ order.map Effect.id

/-! ### Pairs in a list that grows -/

section

variable {α : Type*} {a b c : α} {l : List α}

theorem pair_sublist_concat : [a, b] <+ l ++ [c] ↔ [a, b] <+ l ∨ a ∈ l ∧ b = c := by
  constructor
  · intro h
    obtain ⟨l₁, l₂, hsplit, hleft, hright⟩ := List.sublist_append_iff.mp h
    match l₁, hsplit with
    | [], hsplit =>
        obtain rfl : [a, b] = l₂ := hsplit
        have hlength := hright.length_le
        simp at hlength
    | [x], hsplit =>
        obtain ⟨rfl, rfl⟩ : x = a ∧ l₂ = [b] := by simpa [eq_comm] using hsplit
        exact Or.inr ⟨List.singleton_sublist.mp hleft,
          List.mem_singleton.mp (List.singleton_sublist.mp hright)⟩
    | x :: y :: rest, hsplit =>
        obtain ⟨rfl, rfl, hrest⟩ : a = x ∧ b = y ∧ rest ++ l₂ = [] := by simpa using hsplit
        obtain ⟨rfl, -⟩ := List.append_eq_nil_iff.mp hrest
        exact Or.inl hleft
  · intro h
    rcases h with h | ⟨ha, rfl⟩
    · exact h.trans (List.sublist_append_left l [c])
    · exact (List.singleton_sublist.mpr ha).append (List.Sublist.refl [b])

theorem mem_of_pair_sublist_left (h : [a, b] <+ l) : a ∈ l :=
  h.subset (List.mem_cons_self ..)

end

/-! ### The three rules -/

section

variable {spec : σ → Op → Res → σ → Prop} {s₀ s s' : σ} {history : List (Mark τ Op Res)}
  {order : List (Effect τ Op Res)} {id : τ} {op : Op} {res : Res}

theorem wellFormed_nil : WellFormed ([] : List (Mark τ Op Res)) where
  calls _ _ _ h := by simpa using h.length_le
  rets _ _ _ h := by simpa using h.length_le
  called _ _ h := by cases h

theorem linearizes_nil (spec : σ → Op → Res → σ → Prop) (s₀ : σ) :
    Linearizes spec s₀ ([] : List (Mark τ Op Res)) [] s₀ where
  legal := .nil
  nodup := .nil
  called _ h := by cases h
  returned _ _ h := by cases h
  realTime _ _ _ _ _ h := by cases h

/-- A call is made, under an id of its own. -/
theorem WellFormed.call (h : WellFormed history) (hnew : ∀ op', Mark.call id op' ∉ history) (op : Op) :
    WellFormed (history ++ [Mark.call id op]) := by
  apply WellFormed.mk
  case calls =>
    intro id' op₁ op₂ hpair
    rcases pair_sublist_concat.mp hpair with hpair | ⟨hmem, heq⟩
    · exact h.calls id' op₁ op₂ hpair
    · cases heq
      exact hnew op₁ hmem
  case rets =>
    intro id' res₁ res₂ hpair
    rcases pair_sublist_concat.mp hpair with hpair | ⟨-, heq⟩
    · exact h.rets id' res₁ res₂ hpair
    · cases heq
  case called =>
    intro id' res hret
    rcases List.mem_append.mp hret with hret | hret
    · obtain ⟨op', hpair⟩ := h.called id' res hret
      exact ⟨op', hpair.trans (List.sublist_append_left ..)⟩
    · cases List.mem_singleton.mp hret

theorem Linearizes.call (h : Linearizes spec s₀ history order s)
    (hnew : ∀ op', Mark.call id op' ∉ history) (op : Op) :
    Linearizes spec s₀ (history ++ [Mark.call id op]) order s := by
  apply Linearizes.mk h.legal h.nodup
  case called =>
    intro e he
    exact List.mem_append_left _ (h.called e he)
  case returned =>
    intro id' res hret
    rcases List.mem_append.mp hret with hret | hret
    · exact h.returned id' res hret
    · cases List.mem_singleton.mp hret
  case realTime =>
    intro id₁ res id₂ op₂ hpair hid
    rcases pair_sublist_concat.mp hpair with hpair | ⟨-, heq⟩
    · exact h.realTime id₁ res id₂ op₂ hpair hid
    · -- A call that was only just made has had no effect.
      obtain ⟨e, he, rfl⟩ := List.mem_map.mp hid
      cases heq
      exact absurd (h.called e he) (hnew e.op)

/-- A call that was made takes effect. -/
theorem Linearizes.effect (h : Linearizes spec s₀ history order s) (hcall : Mark.call id op ∈ history)
    (hnew : id ∉ order.map Effect.id) (hspec : spec s op res s') :
    Linearizes spec s₀ history (order ++ [⟨id, op, res⟩]) s' := by
  apply Linearizes.mk
  case legal => exact h.legal.concat hspec
  case nodup =>
    rw [List.map_append]
    exact h.nodup.append (List.nodup_singleton id) (List.disjoint_singleton.mpr hnew)
  case called =>
    intro e he
    rcases List.mem_append.mp he with he | he
    · exact h.called e he
    · obtain rfl := List.mem_singleton.mp he
      exact hcall
  case returned =>
    intro id' res' hret
    obtain ⟨op', hmem⟩ := h.returned id' res' hret
    exact ⟨op', List.mem_append_left _ hmem⟩
  case realTime =>
    intro id₁ res₁ id₂ op₂ hpair hid
    rw [List.map_append] at hid ⊢
    apply pair_sublist_concat.mpr
    rcases List.mem_append.mp hid with hid | hid
    · exact Or.inl (h.realTime id₁ res₁ id₂ op₂ hpair hid)
    · -- Every call that has returned took effect before.
      obtain ⟨op₁, hmem⟩ := h.returned id₁ res₁ (mem_of_pair_sublist_left hpair)
      exact Or.inr ⟨List.mem_map_of_mem hmem, List.mem_singleton.mp hid⟩

/-- A call returns, once, with the result of its effect. -/
theorem WellFormed.ret (h : WellFormed history) (hcall : Mark.call id op ∈ history)
    (hnew : ∀ res', Mark.ret id res' ∉ history) (res : Res) :
    WellFormed (history ++ [Mark.ret id res]) := by
  apply WellFormed.mk
  case calls =>
    intro id' op₁ op₂ hpair
    rcases pair_sublist_concat.mp hpair with hpair | ⟨-, heq⟩
    · exact h.calls id' op₁ op₂ hpair
    · cases heq
  case rets =>
    intro id' res₁ res₂ hpair
    rcases pair_sublist_concat.mp hpair with hpair | ⟨hmem, heq⟩
    · exact h.rets id' res₁ res₂ hpair
    · cases heq
      exact hnew res₁ hmem
  case called =>
    intro id' res' hret
    rcases List.mem_append.mp hret with hret | hret
    · obtain ⟨op', hpair⟩ := h.called id' res' hret
      exact ⟨op', hpair.trans (List.sublist_append_left ..)⟩
    · cases List.mem_singleton.mp hret
      exact ⟨op, pair_sublist_concat.mpr (Or.inr ⟨hcall, rfl⟩)⟩

theorem Linearizes.ret (h : Linearizes spec s₀ history order s) (hmem : ⟨id, op, res⟩ ∈ order) :
    Linearizes spec s₀ (history ++ [Mark.ret id res]) order s := by
  apply Linearizes.mk h.legal h.nodup
  case called =>
    intro e he
    exact List.mem_append_left _ (h.called e he)
  case returned =>
    intro id' res' hret
    rcases List.mem_append.mp hret with hret | hret
    · exact h.returned id' res' hret
    · cases List.mem_singleton.mp hret
      exact ⟨op, hmem⟩
  case realTime =>
    intro id₁ res₁ id₂ op₂ hpair hid
    rcases pair_sublist_concat.mp hpair with hpair | ⟨-, heq⟩
    · exact h.realTime id₁ res₁ id₂ op₂ hpair hid
    · cases heq

end

end Linearizability
