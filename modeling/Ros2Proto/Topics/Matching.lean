import Ros2Proto.Base.Prefixes
import Ros2Proto.Topics.Stable

/-!
# Which rule applies

`remap` takes the first rule of `remaps_` that the name starts with. As the map orders its keys that is the
one with the shortest `find`. So only the rules matter, not how they came into the map, and of the rules only
the shortest that matches.
-/

namespace Ros2Proto

open Assignment FallibleRun Prefixes Std

variable {C M : Type*}

/-- What remapping a name should give: the name itself if it starts with no `find`, and else the name with
the shortest such `find` replaced. -/
inductive Remaps (rules : StdMap StdString) (name : StdString) : StdString → Prop
  | unchanged (hnone : ∀ find ∈ rules, ¬ find <+: name) : Remaps rules name name
  | replaced {find replace rest : StdString} (hshortest : Shortest rules name find replace)
      (hrest : name = find ++ rest) : Remaps rules name (replace ++ rest)

/-- The rules after some insertions, of keys and replacements. -/
def insertRules (rules : StdMap StdString) (inserted : List (StdString × StdString)) : StdMap StdString :=
  inserted.foldl (fun rules rule => rules.insert rule.1 rule.2) rules

/-- The rule that a call inserts. -/
def TopicOp.insertedRule : TopicOp C M → Option (StdString × StdString)
  | setRemap find replace => some (find, replace)
  | _ => none

/-- The rules after a call. -/
def TopicOp.rulesAfter (rules : StdMap StdString) : TopicOp C M → StdMap StdString
  | setRemap find replace => rules.insert find replace
  | setRemappings find replace => TopicManager.rulesOf find replace
  | _ => rules

variable {rules : StdMap StdString} {name result find : StdString}

/-! ### `remap` -/

theorem remapBy_remaps (rules : StdMap StdString) (name : StdString) :
    Remaps rules name (remapBy rules name) := by
  rw [remapBy]
  cases hmatch : rules.toList.find? fun rule => rule.1.isPrefixOf name with
  | none => exact .unchanged (firstMatch_eq_none_iff.mp hmatch)
  | some rule =>
      have hshortest : Shortest rules name rule.1 rule.2 := shortest_of_firstMatch hmatch
      exact .replaced hshortest (List.prefix_iff_eq_append.mp hshortest.starts).symm

theorem Remaps.unique {result' : StdString} (h : Remaps rules name result) (h' : Remaps rules name result') :
    result = result' := by
  cases h with
  | unchanged hnone =>
      cases h' with
      | unchanged => rfl
      | replaced hshortest => exact absurd hshortest.starts (hnone _ hshortest.mem)
  | replaced hshortest hrest =>
      cases h' with
      | unchanged hnone => exact absurd hshortest.starts (hnone _ hshortest.mem)
      | replaced hshortest' hrest' =>
          obtain ⟨hfind, hreplace⟩ := hshortest.unique hshortest'
          rw [hrest, hfind] at hrest'
          rw [hreplace, List.append_cancel_left hrest']

theorem remapBy_eq_iff : remapBy rules name = result ↔ Remaps rules name result := by
  constructor
  · intro h
    exact h ▸ remapBy_remaps rules name
  · intro h
    exact (remapBy_remaps rules name).unique h

theorem remapBy_congr {rules' : StdMap StdString} (hmatch : firstMatch rules' name = firstMatch rules name) :
    remapBy rules' name = remapBy rules name := by
  unfold firstMatch at hmatch
  rw [remapBy, remapBy, hmatch]

theorem remapBy_insert (hidle : Idle rules name find) (replace : StdString) :
    remapBy (rules.insert find replace) name = remapBy rules name :=
  remapBy_congr (firstMatch_insert hidle replace)

theorem remapBy_erase (hidle : Idle rules name find) :
    remapBy (rules.erase find) name = remapBy rules name :=
  remapBy_congr (firstMatch_erase hidle)

theorem insertRules_perm {inserted inserted' : List (StdString × StdString)}
    (hperm : inserted.Perm inserted') (hdistinct : (inserted.map Prod.fst).Nodup)
    (rules : StdMap StdString) : insertRules rules inserted = insertRules rules inserted' :=
  foldl_insert_perm hperm hdistinct rules

namespace TopicManager

variable {t t' : TopicManager C M}

/-! ### The rules after a call -/

theorem steady_remaps (rules : StdMap StdString) : Steady fun t : TopicManager C M => t.remaps = rules :=
  .of_with (fun _ _ h => h) (fun _ _ _ _ h => h) (fun _ _ _ h => h) (fun _ _ _ _ h => h) (fun _ _ _ h => h)

/-- Only the two remapping calls change the rules, and `refreshRemaps` leaves them as they are. -/
theorem onOp_remaps {op : TopicOp C M} (hrun : t.onOp op = .ok t') : t'.remaps = op.rulesAfter t.remaps := by
  cases op with
  | publish unmapped msg => exact (steady_remaps _).publish rfl hrun
  | registerPublication unmapped => exact (steady_remaps _).registerPublication t t' unmapped rfl hrun
  | unregisterPublication unmapped => exact (steady_remaps _).unregisterPublication t t' unmapped rfl hrun
  | subscribe unmapped cb => exact (steady_remaps _).subscribe t t' unmapped cb rfl hrun
  | unregisterSubscription unmapped => exact (steady_remaps _).unregisterSubscription t t' unmapped rfl hrun
  | setRemap find replace => exact (steady_remaps (t.remaps.insert find replace)).refreshRemaps rfl hrun
  | setRemappings find replace =>
      rw [onOp, setRemappings] at hrun
      split_ifs at hrun
      exact (steady_remaps (rulesOf find replace)).refreshRemaps rfl hrun
  | shutdown => exact (steady_remaps _).shutdown rfl hrun

theorem run_remaps {ops : List (TopicOp C M)} (hrun : run onOp t ops = .ok t') :
    t'.remaps = ops.foldl TopicOp.rulesAfter t.remaps := by
  induction ops generalizing t with
  | nil =>
      cases hrun
      rfl
  | cons op ops ih =>
      rw [run_cons] at hrun
      obtain ⟨s, hstep, hrest⟩ := bind_eq_ok_iff.mp hrun
      rw [List.foldl_cons, ← onOp_remaps hstep]
      exact ih hrest

/-- Without `setRemappings`, the rules are the old ones and those inserted. -/
theorem foldl_rulesAfter {ops : List (TopicOp C M)} (hops : ∀ find replace, .setRemappings find replace ∉ ops)
    (rules : StdMap StdString) :
    ops.foldl TopicOp.rulesAfter rules =
      insertRules rules (ops.filterMap TopicOp.insertedRule) := by
  induction ops generalizing rules with
  | nil => rfl
  | cons op ops ih =>
      have hrest : ∀ find replace, .setRemappings find replace ∉ ops := by
        intro find replace hmem
        exact hops find replace (List.mem_cons_of_mem op hmem)
      rw [List.foldl_cons, ih hrest]
      cases op with
      | setRemappings find replace => exact absurd List.mem_cons_self (hops find replace)
      | publish | registerPublication | unregisterPublication | subscribe | unregisterSubscription
      | setRemap | shutdown => rfl

/-- Runs that insert the same rules, with a key each, remap alike. -/
theorem run_remap_eq {ops ops' : List (TopicOp C M)} (hops : ∀ find replace, .setRemappings find replace ∉ ops)
    (hops' : ∀ find replace, .setRemappings find replace ∉ ops')
    (hperm : (ops.filterMap TopicOp.insertedRule).Perm (ops'.filterMap TopicOp.insertedRule))
    (hdistinct : ((ops.filterMap TopicOp.insertedRule).map Prod.fst).Nodup) {t₁ t₂ : TopicManager C M}
    (hrun : run onOp t ops = .ok t₁) (hrun' : run onOp t ops' = .ok t₂) (name : StdString) :
    t₁.remap name = t₂.remap name := by
  have hrules : t₁.remaps = t₂.remaps := by
    rw [run_remaps hrun, run_remaps hrun', foldl_rulesAfter hops, foldl_rulesAfter hops']
    exact insertRules_perm hperm hdistinct t.remaps
  rw [remap, remap, hrules]

/-- **The shortest match applies.** `remap` replaces the shortest `find` that the name starts with, and keeps
the rest of the name. A rule that does not match, or is longer than the one that applies, can be put in or
taken out without effect. The order in which rules were inserted does not matter, whatever calls came in
between. -/
theorem remap_shortest (t : TopicManager C M) (name : StdString) :
    (∀ result, t.remap name = result ↔ Remaps t.remaps name result) ∧
      (∀ find, Idle t.remaps name find →
        remapBy (t.remaps.erase find) name = t.remap name ∧
        ∀ replace, remapBy (t.remaps.insert find replace) name = t.remap name ∧
          ∀ t', t.setRemap find replace = .ok t' → t'.remap name = t.remap name) ∧
      (∀ inserted inserted', inserted.Perm inserted' → (inserted.map Prod.fst).Nodup →
        remapBy (insertRules t.remaps inserted) name = remapBy (insertRules t.remaps inserted') name) ∧
      ∀ ops ops' : List (TopicOp C M),
        (∀ find replace, .setRemappings find replace ∉ ops) →
        (∀ find replace, .setRemappings find replace ∉ ops') →
        (ops.filterMap TopicOp.insertedRule).Perm (ops'.filterMap TopicOp.insertedRule) →
        ((ops.filterMap TopicOp.insertedRule).map Prod.fst).Nodup →
        ∀ t₁ t₂, run onOp t ops = .ok t₁ → run onOp t ops' = .ok t₂ → t₁.remap name = t₂.remap name := by
  refine ⟨fun result => remapBy_eq_iff, ?_, ?_, ?_⟩
  · intro find hidle
    refine ⟨remapBy_erase hidle, fun replace => ⟨remapBy_insert hidle replace, fun t' hrun => ?_⟩⟩
    have hstep : t.onOp (.setRemap find replace) = .ok t' := hrun
    rw [remap, onOp_remaps hstep]
    exact remapBy_insert hidle replace
  · intro inserted inserted' hperm hdistinct
    rw [insertRules_perm hperm hdistinct]
  · intro ops ops' hops hops' hperm hdistinct t₁ t₂ hrun hrun'
    exact run_remap_eq hops hops' hperm hdistinct hrun hrun' name

example :
    let rules := insertRules ∅ [(literal "/a/b", literal "/y"), (literal "/a", literal "/x")]
    remapBy rules (literal "/a/b/c") = literal "/x/b/c" ∧ remapBy rules (literal "/b") = literal "/b" := by
  decide

end TopicManager

end Ros2Proto
