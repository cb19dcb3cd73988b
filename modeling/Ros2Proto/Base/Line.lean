import Mathlib.Data.List.Basic

/-!
# Standing in line

Entries that come at the end of a line and leave from its front, in one way or another. The line keeps
a book of those that left, from which each entry that ever came can be accounted for: it waits, or it
left in one way. The entries of either kind are in the order in which they came.
-/

/-- Those that left the line, each with the way it left, and those that wait. -/
structure Line (A W : Type*) where
  gone : List (A × W)
  waiting : List A

namespace Line

variable {A W : Type*}

def empty : Line A W := ⟨[], []⟩

/-- All entries, in the order in which they came. -/
def entered (l : Line A W) : List A := l.gone.map Prod.fst ++ l.waiting

def enter (l : Line A W) (a : A) : Line A W := { l with waiting := l.waiting ++ [a] }

/-- The first entry `a` leaves, and `rest` waits on. -/
def leave (l : Line A W) (a : A) (rest : List A) (w : W) : Line A W := ⟨l.gone ++ [(a, w)], rest⟩

/-- What became of each entry, in the order in which they came: `none` if it waits. -/
def account (l : Line A W) : List (A × Option W) :=
  l.gone.map (fun e => (e.1, some e.2)) ++ l.waiting.map fun a => (a, none)

variable {l : Line A W} {a : A} {rest : List A}

theorem entered_enter (l : Line A W) (a : A) : (l.enter a).entered = l.entered ++ [a] :=
  (List.append_assoc _ _ _).symm

theorem entered_leave (h : l.waiting = a :: rest) (w : W) : (l.leave a rest w).entered = l.entered := by
  rw [entered, entered, leave, h, List.map_append, List.append_assoc]
  rfl

/-- Those that wait came last. -/
theorem waiting_suffix (l : Line A W) : l.waiting <:+ l.entered :=
  List.suffix_append _ _

theorem account_fst (l : Line A W) : l.account.map Prod.fst = l.entered := by
  rw [account, entered, List.map_append, List.map_map, List.map_map]
  congr 1
  exact List.map_id _

theorem account_none (l : Line A W) :
    (l.account.filter fun e => e.2 = none).map Prod.fst = l.waiting := by
  have hgone : (l.gone.map fun e => (e.1, some e.2)).filter (fun e => e.2 = none) = [] := by
    rw [List.filter_map, List.map_eq_nil_iff, List.filter_eq_nil_iff]
    simp
  rw [account, List.filter_append, hgone, List.nil_append, List.filter_map, List.map_map]
  simp [Function.comp_def]

/-! ### By the way they left -/

section

variable [DecidableEq W]

/-- The entries that left in one way, in the order in which they came. -/
def leftBy (l : Line A W) (w : W) : List A := (l.gone.filter fun e => e.2 = w).map Prod.fst

theorem leftBy_leave (w w' : W) :
    (l.leave a rest w).leftBy w' = if w = w' then l.leftBy w' ++ [a] else l.leftBy w' := by
  rw [leftBy, leftBy, leave, List.filter_append, List.map_append]
  split_ifs with hw
  · simp [hw]
  · simp [hw]

theorem leftBy_sublist (l : Line A W) (w : W) : (l.leftBy w).Sublist l.entered := by
  have hgone : (l.leftBy w).Sublist (l.gone.map Prod.fst) := List.filter_sublist.map Prod.fst
  exact hgone.trans (List.sublist_append_left _ _)

/-- If all left in one way, those that wait come after them. -/
theorem entered_of_leftBy {w : W} (h : ∀ e ∈ l.gone, e.2 = w) : l.entered = l.leftBy w ++ l.waiting := by
  rw [entered, leftBy, List.filter_eq_self.mpr fun e he => decide_eq_true (h e he)]

theorem account_some (l : Line A W) (w : W) :
    (l.account.filter fun e => e.2 = some w).map Prod.fst = l.leftBy w := by
  have hwaiting : (l.waiting.map fun a => (a, (none : Option W))).filter (fun e => e.2 = some w) = [] := by
    simp
  rw [account, List.filter_append, hwaiting, List.append_nil, List.filter_map, List.map_map, leftBy]
  simp [Function.comp_def]

end

end Line
