import Ros2Proto.Base.Assignment

/-!
# Rules for words by how they start

A table of rules, each for the words that start with its key, of which the first in the order of the keys
applies. Keys are ordered as in a dictionary. Of two keys that start the same word one starts the other,
and so comes before it: the rule that applies is the one with the shortest key, whatever other keys stand in
between.
-/

namespace Prefixes

open Std

variable {α V : Type*} [Ord α] [TransOrd α]

/-- The rule with the shortest key that starts the word. -/
structure Shortest (table : ExtTreeMap (List α) V compare) (word key : List α) (value : V) : Prop where
  rule : table[key]? = some value
  starts : key <+: word
  shortest : ∀ key' ∈ table, key' <+: word → key' ≠ key → key.length < key'.length

/-- The first rule whose key starts the word. -/
def firstMatch [BEq α] (table : ExtTreeMap (List α) V compare) (word : List α) : Option (List α × V) :=
  table.toList.find? fun rule => rule.1.isPrefixOf word

/-- No rule for words that start with `key` concerns the word: it does not start so, or a shorter key
applies. -/
def Idle (table : ExtTreeMap (List α) V compare) (word key : List α) : Prop :=
  ¬ key <+: word ∨ ∃ key' value, Shortest table word key' value ∧ key'.length < key.length

variable {table : ExtTreeMap (List α) V compare} {word key key' : List α} {value value' : V}

/-! ### The order of keys -/

/-- What starts a word comes before it. -/
theorem compare_of_prefix (h : key <+: word) (hne : key ≠ word) : compare key word = .lt := by
  induction key generalizing word with
  | nil =>
      cases word with
      | nil => exact absurd rfl hne
      | cons a word => exact List.compare_nil_cons
  | cons a key ih =>
      obtain ⟨rest, rfl⟩ := h
      have hrest : key ≠ key ++ rest := by
        intro heq
        exact hne (congrArg (a :: ·) heq)
      have hsame : compare a a = .eq := ReflCmp.compare_self
      rw [List.cons_append, List.compare_cons_cons, ih (List.prefix_append key rest) hrest, hsame]
      rfl

/-- Of two keys that start one word, the earlier one is shorter. -/
theorem length_lt_of_compare (h : key <+: word) (h' : key' <+: word)
    (horder : compare key key' = .lt) : key.length < key'.length := by
  have hne : key ≠ key' := by
    intro heq
    have hsame : compare key' key' = .eq := ReflCmp.compare_self
    rw [heq, hsame] at horder
    cases horder
  rcases List.prefix_or_prefix_of_prefix h h' with hpre | hpre
  · exact Nat.lt_of_le_of_ne hpre.length_le fun heq => hne (hpre.eq_of_length heq)
  · have hbefore := compare_of_prefix hpre hne.symm
    have hswap : compare key' key = (compare key key').swap := OrientedCmp.eq_swap
    rw [hbefore, horder] at hswap
    cases hswap

/-! ### The rule that applies -/

theorem Shortest.mem (h : Shortest table word key value) : key ∈ table :=
  (Assignment.mem_iff_exists_getElem? table key).mpr ⟨value, h.rule⟩

theorem Shortest.unique (h : Shortest table word key value) (h' : Shortest table word key' value') :
    key = key' ∧ value = value' := by
  have hkey : key = key' := by
    by_contra hne
    have hlt := h.shortest key' h'.mem h'.starts (Ne.symm hne)
    have hgt := h'.shortest key h.mem h.starts hne
    omega
  subst hkey
  exact ⟨rfl, Option.some.inj (h.rule.symm.trans h'.rule)⟩

/-- The rule that applies is not idle. -/
theorem Shortest.idle_ne (h : Shortest table word key value) (hidle : Idle table word key') :
    key' ≠ key := by
  intro heq
  subst heq
  rcases hidle with hnot | ⟨key'', value'', hshort, hlt⟩
  · exact hnot h.starts
  · rw [(h.unique hshort).1] at hlt
    exact Nat.lt_irrefl _ hlt

section

variable [LawfulEqOrd α] [BEq α] [LawfulBEq α]

theorem firstMatch_eq_none_iff : firstMatch table word = none ↔ ∀ key ∈ table, ¬ key <+: word := by
  rw [firstMatch, List.find?_eq_none]
  constructor
  · intro hnone key hkey hstarts
    obtain ⟨value, hrule⟩ := (Assignment.mem_iff_exists_getElem? _ _).mp hkey
    have hmem := ExtTreeMap.mem_toList_iff_getElem?_eq_some.mpr hrule
    exact hnone (key, value) hmem (List.isPrefixOf_iff_prefix.mpr hstarts)
  · intro hnone rule hmem hstarts
    have hrule := ExtTreeMap.mem_toList_iff_getElem?_eq_some.mp hmem
    exact hnone rule.1 ((Assignment.mem_iff_exists_getElem? _ _).mpr ⟨_, hrule⟩)
      (List.isPrefixOf_iff_prefix.mp hstarts)

/-- The keys behind the first match are later in the order, so those that start the word are longer. -/
theorem shortest_of_firstMatch (h : firstMatch table word = some (key, value)) :
    Shortest table word key value := by
  obtain ⟨hstarts, before, after, hsplit, hbefore⟩ := List.find?_eq_some_iff_append.mp h
  replace hstarts : key <+: word := List.isPrefixOf_iff_prefix.mp hstarts
  have horder := ExtTreeMap.ordered_keys_toList (t := table)
  rw [hsplit, List.pairwise_append, List.pairwise_cons] at horder
  refine ⟨?_, hstarts, ?_⟩
  · rw [← ExtTreeMap.mem_toList_iff_getElem?_eq_some, hsplit]
    exact List.mem_append_right _ List.mem_cons_self
  · intro key' hkey' hstarts' hne
    obtain ⟨value', hrule'⟩ := (Assignment.mem_iff_exists_getElem? _ _).mp hkey'
    have hmem := ExtTreeMap.mem_toList_iff_getElem?_eq_some.mpr hrule'
    rw [hsplit] at hmem
    rcases List.mem_append.mp hmem with hmem | hmem
    · have hnot := hbefore _ hmem
      rw [List.isPrefixOf_iff_prefix.mpr hstarts'] at hnot
      cases hnot
    · rcases List.mem_cons.mp hmem with heq | hmem
      · exact absurd (congrArg Prod.fst heq) hne
      · exact length_lt_of_compare hstarts hstarts' (horder.2.1.1 _ hmem)

theorem firstMatch_eq_some_iff :
    firstMatch table word = some (key, value) ↔ Shortest table word key value := by
  constructor
  · exact shortest_of_firstMatch
  · intro h
    cases hmatch : firstMatch table word with
    | none => exact absurd h.starts (firstMatch_eq_none_iff.mp hmatch key h.mem)
    | some rule =>
        obtain ⟨hkey, hvalue⟩ := h.unique (shortest_of_firstMatch hmatch)
        rw [hkey, hvalue]

/-! ### Changes of the table -/

/-- A change of a rule that is idle changes nothing for the word. -/
theorem firstMatch_congr (hidle : Idle table word key') {table' : ExtTreeMap (List α) V compare}
    (hagree : ∀ k, k ≠ key' → table'[k]? = table[k]?) :
    firstMatch table' word = firstMatch table word := by
  have hothers : ∀ k ∈ table', k ≠ key' → k ∈ table := by
    intro k hk hne
    rw [Assignment.mem_iff_exists_getElem?, hagree k hne] at hk
    exact (Assignment.mem_iff_exists_getElem? _ _).mpr hk
  cases hmatch : firstMatch table word with
  | none =>
      have hnone := firstMatch_eq_none_iff.mp hmatch
      apply firstMatch_eq_none_iff.mpr
      intro k hk hstarts
      by_cases hchanged : k = key'
      · subst hchanged
        rcases hidle with hnot | ⟨key, value, hshortest, -⟩
        · exact hnot hstarts
        · cases hmatch.symm.trans (firstMatch_eq_some_iff.mpr hshortest)
      · exact hnone k (hothers k hk hchanged) hstarts
  | some rule =>
      have hshortest : Shortest table word rule.1 rule.2 := firstMatch_eq_some_iff.mp hmatch
      apply firstMatch_eq_some_iff.mpr
      refine ⟨?_, hshortest.starts, ?_⟩
      · rw [hagree rule.1 (hshortest.idle_ne hidle).symm]
        exact hshortest.rule
      · intro k hk hstarts hne
        by_cases hchanged : k = key'
        · subst hchanged
          rcases hidle with hnot | ⟨key, value, hother, hlt⟩
          · exact absurd hstarts hnot
          · rwa [(hshortest.unique hother).1]
        · exact hshortest.shortest k (hothers k hk hchanged) hstarts hne

theorem firstMatch_insert (hidle : Idle table word key') (value : V) :
    firstMatch (table.insert key' value) word = firstMatch table word :=
  firstMatch_congr hidle fun _ hne => Assignment.getElem?_insert_of_ne table hne value

theorem firstMatch_erase (hidle : Idle table word key') :
    firstMatch (table.erase key') word = firstMatch table word :=
  firstMatch_congr hidle fun _ hne => Assignment.getElem?_erase_of_ne table hne

end

end Prefixes
