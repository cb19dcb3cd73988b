import Mathlib.Data.List.Basic
import Mathlib.Logic.Function.Basic

/-!
# Threads and recursive mutexes

A thread is the list of steps it has still to take: take a mutex, give one back, or act on the data
the threads share. An act may put further steps in front of the rest, so a branch on shared data is
taken when it is reached. A thread whose next mutex another thread holds waits; any interleaving is
a list of threads to advance.

A discipline says which steps a thread may take with what it holds. `Disciplined` checks a list of
steps against one, and `Disciplined.advance` keeps the check along a run. Where two threads take
their mutexes in the same order, they never wait for each other.
-/

namespace Locks

variable {τ μ α δ : Type*}

/-! ### One mutex -/

/-- A recursive mutex: free, or taken by its owner once and `more` times. -/
inductive Mutex (τ : Type*)
  | free
  | taken (owner : τ) (more : Nat)
  deriving DecidableEq

namespace Mutex

variable [DecidableEq τ]

/-- How often `t` holds the mutex. -/
def depth : Mutex τ → τ → Nat
  | free, _ => 0
  | taken owner more, t => if t = owner then more + 1 else 0

/-- The mutex once `t` has taken it, unless `t` has to wait. -/
def acquire : Mutex τ → τ → Option (Mutex τ)
  | free, t => some (taken t 0)
  | taken owner more, t => if t = owner then some (taken owner (more + 1)) else none

/-- The mutex once `t` has given it back, unless `t` does not hold it. -/
def release : Mutex τ → τ → Option (Mutex τ)
  | free, _ => none
  | taken owner 0, t => if t = owner then some free else none
  | taken owner (more + 1), t => if t = owner then some (taken owner more) else none

theorem depth_unique {l : Mutex τ} {t u : τ} (ht : 0 < l.depth t) (hu : 0 < l.depth u) : t = u := by
  cases l with
  | free => exact absurd ht (Nat.lt_irrefl 0)
  | taken owner more =>
      simp only [depth] at ht hu
      split_ifs at ht hu with htaken htaken'
      · exact htaken.trans htaken'.symm
      all_goals omega

theorem acquire_eq_none {l : Mutex τ} {t : τ} (h : l.acquire t = none) :
    ∃ u, u ≠ t ∧ 0 < l.depth u := by
  cases l with
  | free => cases h
  | taken owner more =>
      refine ⟨owner, fun heq => ?_, by simp [depth]⟩
      simp [acquire, heq] at h

theorem depth_acquire {l l' : Mutex τ} {t : τ} (h : l.acquire t = some l') (u : τ) :
    l'.depth u = if u = t then l.depth t + 1 else l.depth u := by
  cases l with
  | free =>
      cases h
      rfl
  | taken owner more =>
      simp only [acquire] at h
      split_ifs at h with howner
      cases h
      subst howner
      by_cases hu : u = t <;> simp [depth, hu]

theorem release_of_held {l : Mutex τ} {t : τ} (h : 0 < l.depth t) :
    ∃ l', l.release t = some l' ∧ ∀ u, l'.depth u = if u = t then l.depth t - 1 else l.depth u := by
  cases l with
  | free => exact absurd h (Nat.lt_irrefl 0)
  | taken owner more =>
      obtain rfl : t = owner := by
        by_contra hne
        simp [depth, hne] at h
      cases more with
      | zero =>
          refine ⟨free, by simp [release], fun u => ?_⟩
          by_cases hu : u = t <;> simp [depth, hu]
      | succ more =>
          refine ⟨taken t more, by simp [release], fun u => ?_⟩
          by_cases hu : u = t <;> simp [depth, hu]

end Mutex

/-! ### Threads -/

/-- A step of a thread. -/
inductive Op (μ α : Type*)
  | acquire (m : μ)
  | release (m : μ)
  | act (a : α)
  deriving DecidableEq

/-- What a thread holds once it has taken the step. -/
def Op.after [DecidableEq μ] (held : μ → Nat) : Op μ α → μ → Nat
  | acquire m => Function.update held m (held m + 1)
  | release m => Function.update held m (held m - 1)
  | act _ => held

theorem Op.act_ne_acquire (a : α) (m : μ) : (Op.act a : Op μ α) ≠ .acquire m := by
  intro h
  cases h

@[simp] theorem Op.after_acquire_self [DecidableEq μ] (held : μ → Nat) (m : μ) :
    (Op.acquire m : Op μ α).after held m = held m + 1 :=
  Function.update_self ..

theorem Op.after_acquire_of_ne [DecidableEq μ] (held : μ → Nat) {m n : μ} (h : n ≠ m) :
    (Op.acquire m : Op μ α).after held n = held n :=
  Function.update_of_ne h ..

theorem Op.after_release_of_ne [DecidableEq μ] (held : μ → Nat) {m n : μ} (h : n ≠ m) :
    (Op.release m : Op μ α).after held n = held n :=
  Function.update_of_ne h ..

structure State (τ μ α δ : Type*) where
  mutexes : μ → Mutex τ
  data : δ
  /-- the steps each thread has still to take -/
  code : τ → List (Op μ α)

namespace State

variable [DecidableEq τ]

/-- How often `t` holds each mutex. -/
def held (s : State τ μ α δ) (t : τ) (m : μ) : Nat := (s.mutexes m).depth t

def Holds (s : State τ μ α δ) (t : τ) (m : μ) : Prop := 0 < s.held t m

instance (s : State τ μ α δ) (t : τ) (m : μ) : Decidable (s.Holds t m) :=
  inferInstanceAs (Decidable (0 < s.held t m))

/-- The next step of `t` takes `m`. -/
def Wants (s : State τ μ α δ) (t : τ) (m : μ) : Prop := ∃ rest, s.code t = .acquire m :: rest

/-- Two threads each hold a mutex and wait for the one the other holds. -/
def CrossWait (s : State τ μ α δ) : Prop :=
  ∃ t u m n, s.Holds t m ∧ s.Wants t n ∧ ¬ s.Holds t n ∧
    s.Holds u n ∧ s.Wants u m ∧ ¬ s.Holds u m

/-- Every mutex free and every thread at rest. -/
def idle (data : δ) : State τ μ α δ := ⟨fun _ => .free, data, fun _ => []⟩

/-- `t`, if at rest, begins `ops`. -/
def start (s : State τ μ α δ) (t : τ) (ops : List (Op μ α)) : State τ μ α δ :=
  if s.code t = [] then { s with code := Function.update s.code t ops } else s

theorem holds_unique {s : State τ μ α δ} {t u : τ} {m : μ} (ht : s.Holds t m) (hu : s.Holds u m) :
    t = u :=
  Mutex.depth_unique ht hu

@[simp] theorem held_start (s : State τ μ α δ) (t u : τ) (ops : List (Op μ α)) :
    (s.start t ops).held u = s.held u := by
  rw [start]
  split_ifs <;> rfl

@[simp] theorem holds_start (s : State τ μ α δ) (t u : τ) (ops : List (Op μ α)) (m : μ) :
    (s.start t ops).Holds u m ↔ s.Holds u m := by
  rw [Holds, Holds, held_start]

theorem code_start_of_ne (s : State τ μ α δ) {t u : τ} (hne : u ≠ t) (ops : List (Op μ α)) :
    (s.start t ops).code u = s.code u := by
  rw [start]
  split_ifs
  · exact Function.update_of_ne hne ..
  · rfl

theorem code_start_self (s : State τ μ α δ) (t : τ) (ops : List (Op μ α)) :
    (s.start t ops).code t = if s.code t = [] then ops else s.code t := by
  rw [start]
  split_ifs
  · exact Function.update_self ..
  · rfl

variable [DecidableEq μ]

/-- `t` leaves the mutex `m` as `l` and goes on with `rest`. -/
def setMutex (s : State τ μ α δ) (t : τ) (m : μ) (l : Mutex τ) (rest : List (Op μ α)) :
    State τ μ α δ :=
  { s with
    mutexes := Function.update s.mutexes m l
    code := Function.update s.code t rest }

/-- `t`, if not at rest, takes its next step, or waits. The error is a mutex given back by a thread
that does not hold it. -/
def advance (exec : δ → α → δ × List (Op μ α)) (s : State τ μ α δ) (t : τ) :
    Except (τ × μ) (State τ μ α δ) :=
  match s.code t with
  | [] => .ok s
  | .acquire m :: rest =>
    match (s.mutexes m).acquire t with
    | none => .ok s
    | some l => .ok (s.setMutex t m l rest)
  | .release m :: rest =>
    match (s.mutexes m).release t with
    | none => .error (t, m)
    | some l => .ok (s.setMutex t m l rest)
  | .act a :: rest => .ok { s with
      data := (exec s.data a).1
      code := Function.update s.code t ((exec s.data a).2 ++ rest) }

/-- The steps an act puts in front of the rest. -/
def expansion (exec : δ → α → δ × List (Op μ α)) (s : State τ μ α δ) : Op μ α → List (Op μ α)
  | .act a => (exec s.data a).2
  | _ => []

/-- From `s` to `s'`, `t` takes the step `op` and has `rest` behind it. -/
structure Took (exec : δ → α → δ × List (Op μ α)) (s : State τ μ α δ) (t : τ) (op : Op μ α)
    (rest : List (Op μ α)) (s' : State τ μ α δ) : Prop where
  code : s.code t = op :: rest
  code_self : s'.code t = s.expansion exec op ++ rest
  code_other : ∀ u, u ≠ t → s'.code u = s.code u
  held_self : s'.held t = op.after (s.held t)
  held_other : ∀ u, u ≠ t → s'.held u = s.held u

section

variable {exec : δ → α → δ × List (Op μ α)} {s s' : State τ μ α δ} {t u : τ} {m : μ} {op : Op μ α}
  {rest : List (Op μ α)}

theorem Took.holds_other (h : s.Took exec t op rest s') (hu : u ≠ t) : s'.Holds u m ↔ s.Holds u m := by
  rw [Holds, Holds, h.held_other u hu]

theorem Took.wants_other (h : s.Took exec t op rest s') (hu : u ≠ t) : s'.Wants u m ↔ s.Wants u m := by
  rw [Wants, Wants, h.code_other u hu]

/-- An act that puts the taking of a mutex in front leaves its thread about to take it. -/
theorem Took.wants_self (h : s.Took exec t op rest s') {more : List (Op μ α)}
    (hfront : s.expansion exec op = .acquire m :: more) : s'.Wants t m :=
  ⟨more ++ rest, by rw [h.code_self, hfront, List.cons_append]⟩

end

/-- From `s` to `s'` nothing happens: `t` is at rest or waits. -/
def Stays (s : State τ μ α δ) (t : τ) (s' : State τ μ α δ) : Prop :=
  s' = s ∧ (s.code t = [] ∨ ∃ m u, s.Wants t m ∧ u ≠ t ∧ s.Holds u m)

omit [DecidableEq μ] in
/-- A step that takes no mutex never waits. -/
theorem not_stays {s s' : State τ μ α δ} {t : τ} {op : Op μ α} {rest : List (Op μ α)}
    (hcode : s.code t = op :: rest) (hop : ∀ m, op ≠ .acquire m) : ¬ s.Stays t s' := by
  intro h
  rcases h.2 with hnil | ⟨m, u, ⟨rest', hnext⟩, -⟩
  · rw [hcode] at hnil
    cases hnil
  · rw [hcode] at hnext
    exact hop m (List.cons.inj hnext).1

theorem took_setMutex (exec : δ → α → δ × List (Op μ α)) {s : State τ μ α δ} {t : τ} {op : Op μ α}
    {m : μ} {l : Mutex τ} {rest : List (Op μ α)} {depth : Nat} (hcode : s.code t = op :: rest)
    (hnone : s.expansion exec op = []) (hafter : op.after (s.held t) = Function.update (s.held t) m depth)
    (hdepth : ∀ u, l.depth u = if u = t then depth else s.held u m) :
    s.Took exec t op rest (s.setMutex t m l rest) where
  code := hcode
  code_self := by
    rw [hnone, List.nil_append]
    exact Function.update_self ..
  code_other u hu := Function.update_of_ne hu ..
  held_self := by
    rw [hafter]
    funext n
    by_cases hn : n = m
    · subst hn
      simp [held, setMutex, hdepth]
    · simp [held, setMutex, Function.update_of_ne hn]
  held_other u hu := by
    funext n
    by_cases hn : n = m
    · subst hn
      simp [held, setMutex, hdepth, hu]
    · simp [held, setMutex, Function.update_of_ne hn]

/-- What an advance does, where the next step gives back only what is held. -/
theorem advance_cases (exec : δ → α → δ × List (Op μ α)) {s : State τ μ α δ} {t : τ}
    (hheld : ∀ m rest, s.code t = .release m :: rest → s.Holds t m) :
    ∃ s', s.advance exec t = .ok s' ∧
      (s.Stays t s' ∨ ∃ op rest, s.Took exec t op rest s') := by
  cases hcode : s.code t with
  | nil => exact ⟨s, by simp only [advance, hcode], .inl ⟨rfl, .inl hcode⟩⟩
  | cons op rest =>
      cases op with
      | acquire m =>
          cases hacquire : (s.mutexes m).acquire t with
          | none =>
              obtain ⟨u, hne, hholds⟩ := Mutex.acquire_eq_none hacquire
              exact ⟨s, by simp only [advance, hcode, hacquire],
                .inl ⟨rfl, .inr ⟨m, u, ⟨rest, hcode⟩, hne, hholds⟩⟩⟩
          | some l =>
              exact ⟨s.setMutex t m l rest, by simp only [advance, hcode, hacquire],
                .inr ⟨_, _, took_setMutex exec hcode rfl rfl (Mutex.depth_acquire hacquire)⟩⟩
      | release m =>
          obtain ⟨l, hrelease, hdepth⟩ := Mutex.release_of_held (hheld m rest hcode)
          exact ⟨s.setMutex t m l rest, by simp only [advance, hcode, hrelease],
            .inr ⟨_, _, took_setMutex exec hcode rfl rfl hdepth⟩⟩
      | act a =>
          exact ⟨⟨s.mutexes, (exec s.data a).1,
              Function.update s.code t ((exec s.data a).2 ++ rest)⟩,
            by simp only [advance, hcode], .inr ⟨_, _, hcode, Function.update_self ..,
              fun u hu => Function.update_of_ne hu .., rfl, fun _ _ => rfl⟩⟩

/-- An act changes the data as it says. -/
theorem data_of_act {exec : δ → α → δ × List (Op μ α)} {s s' : State τ μ α δ} {t : τ} {a : α}
    {rest : List (Op μ α)} (hcode : s.code t = .act a :: rest) (h : s.advance exec t = .ok s') :
    s'.data = (exec s.data a).1 := by
  rw [advance, hcode] at h
  cases h
  rfl

/-- Only an act changes the data. -/
theorem data_of_not_act {exec : δ → α → δ × List (Op μ α)} {s s' : State τ μ α δ} {t : τ}
    (hcode : ∀ a rest, s.code t ≠ .act a :: rest) (h : s.advance exec t = .ok s') :
    s'.data = s.data := by
  rw [advance] at h
  split at h
  · cases h
    rfl
  · split at h <;> cases h <;> rfl
  · split at h <;> cases h
    rfl
  · rename_i a rest heq
    exact absurd heq (hcode a rest)

end State

/-! ### Disciplines -/

/-- The steps `ops`, begun with `held`, are each allowed where they are reached, and end with nothing
held. -/
def Disciplined [DecidableEq μ] (allowed : Op μ α → (μ → Nat) → Prop) :
    List (Op μ α) → (μ → Nat) → Prop
  | [], held => ∀ m, held m = 0
  | op :: ops, held => allowed op held ∧ Disciplined allowed ops (op.after held)

/-- `ops` may be taken with `held` and leave it as it was. -/
def Neutral [DecidableEq μ] (allowed : Op μ α → (μ → Nat) → Prop) (held : μ → Nat)
    (ops : List (Op μ α)) : Prop :=
  ∀ rest, Disciplined allowed rest held → Disciplined allowed (ops ++ rest) held

namespace Neutral

variable [DecidableEq μ] {allowed : Op μ α → (μ → Nat) → Prop} {held : μ → Nat}

theorem nil : Neutral allowed held [] := fun _ h => h

theorem append {ops ops' : List (Op μ α)} (h : Neutral allowed held ops)
    (h' : Neutral allowed held ops') : Neutral allowed held (ops ++ ops') := by
  intro rest hrest
  rw [List.append_assoc]
  exact h _ (h' _ hrest)

theorem act {a : α} (h : allowed (.act a) held) : Neutral allowed held [.act a] :=
  fun _ hrest => ⟨h, hrest⟩

theorem flatMap {β : Type*} {f : β → List (Op μ α)} {bs : List β}
    (h : ∀ b ∈ bs, Neutral allowed held (f b)) : Neutral allowed held (bs.flatMap f) := by
  induction bs with
  | nil => exact nil
  | cons b bs ih =>
      rw [List.flatMap_cons]
      exact (h b (by simp)).append (ih fun b' hb' => h b' (by simp [hb']))

theorem after_release (held : μ → Nat) (m : μ) :
    (Op.release m : Op μ α).after ((Op.acquire m : Op μ α).after held) = held := by
  simp [Op.after]

/-- A mutex taken and given back around neutral steps. -/
theorem bracket {m : μ} {ops : List (Op μ α)} (hacquire : allowed (.acquire m) held)
    (hops : Neutral allowed ((Op.acquire m : Op μ α).after held) ops)
    (hrelease : allowed (.release m) ((Op.acquire m : Op μ α).after held)) :
    Neutral allowed held (.acquire m :: ops ++ [.release m]) := by
  intro rest hrest
  refine ⟨hacquire, ?_⟩
  rw [List.append_eq, List.append_eq, List.append_assoc]
  refine hops _ ⟨hrelease, ?_⟩
  rwa [after_release]

theorem pair {m : μ} (hacquire : allowed (.acquire m) held)
    (hrelease : allowed (.release m) ((Op.acquire m : Op μ α).after held)) :
    Neutral allowed held [.acquire m, .release m] :=
  bracket hacquire nil hrelease

theorem disciplined {ops : List (Op μ α)} (h : Neutral allowed (fun _ => 0) ops) :
    Disciplined allowed ops (fun _ => 0) := by
  rw [← List.append_nil ops]
  exact h [] fun _ => rfl

end Neutral

namespace State

variable [DecidableEq τ] [DecidableEq μ] {allowed : τ → Op μ α → (μ → Nat) → Prop}
  {s : State τ μ α δ} {t : τ}

/-- Every thread has only allowed steps before it. -/
def Keeps (allowed : τ → Op μ α → (μ → Nat) → Prop) (s : State τ μ α δ) : Prop :=
  ∀ t, Disciplined (allowed t) (s.code t) (s.held t)

theorem keeps_idle (data : δ) : (idle data).Keeps allowed := fun _ _ => rfl

theorem Keeps.allowed_next (h : s.Keeps allowed) {op : Op μ α} {rest : List (Op μ α)}
    (hcode : s.code t = op :: rest) : allowed t op (s.held t) := by
  have ht := h t
  rw [hcode] at ht
  exact ht.1

/-- A thread at rest holds nothing. -/
theorem Keeps.held_of_rest (h : s.Keeps allowed) (hcode : s.code t = []) (m : μ) :
    s.held t m = 0 := by
  have ht := h t
  rw [hcode] at ht
  exact ht m

theorem Keeps.not_holds_of_rest (h : s.Keeps allowed) (hcode : s.code t = []) (m : μ) :
    ¬ s.Holds t m := by
  rw [Holds, h.held_of_rest hcode]
  exact Nat.lt_irrefl 0

theorem Keeps.start (h : s.Keeps allowed) {ops : List (Op μ α)}
    (hops : Disciplined (allowed t) ops fun _ => 0) : (s.start t ops).Keeps allowed := by
  intro u
  rw [held_start]
  by_cases hu : u = t
  · subst hu
    rw [code_start_self]
    split_ifs with hrest
    · have hheld : s.held u = fun _ => 0 := funext (h.held_of_rest hrest)
      rwa [hheld]
    · exact h u
  · rw [code_start_of_ne s hu]
    exact h u

/-- **A discipline is kept by every advance**, where it allows only what is held to be given back and
the steps an act puts in front are neutral. -/
theorem Keeps.advance (exec : δ → α → δ × List (Op μ α))
    (hrelease : ∀ t m held, allowed t (.release m) held → 0 < held m)
    (hact : ∀ t a held data, allowed t (.act a) held → Neutral (allowed t) held (exec data a).2)
    (h : s.Keeps allowed) (t : τ) :
    ∃ s', s.advance exec t = .ok s' ∧ s'.Keeps allowed ∧
      (s.Stays t s' ∨ ∃ op rest, s.Took exec t op rest s') := by
  obtain ⟨s', hrun, hcases⟩ := advance_cases (t := t) exec fun m rest hcode =>
    hrelease t m _ (h.allowed_next hcode)
  refine ⟨s', hrun, ?_, hcases⟩
  obtain ⟨rfl, -⟩ | ⟨op, rest, htook⟩ := hcases
  · exact h
  · intro u
    by_cases hu : u = t
    · subst hu
      have hself := h u
      rw [htook.code] at hself
      rw [htook.code_self, htook.held_self]
      cases op with
      | acquire m => exact hself.2
      | release m => exact hself.2
      | act a => exact hact u a _ _ hself.1 rest hself.2
    · rw [htook.code_other u hu, htook.held_other u hu]
      exact h u

/-- A thread that takes its mutexes in an order waits only for mutexes above those it holds. -/
theorem Keeps.lt_of_waits {lt : μ → μ → Prop}
    (horder : ∀ m held, allowed t (.acquire m) held → held m = 0 → ∀ n, 0 < held n → lt n m)
    (h : s.Keeps allowed) {m n : μ} (hholds : s.Holds t m) (hwants : s.Wants t n)
    (hwaits : ¬ s.Holds t n) : lt m n := by
  obtain ⟨rest, hcode⟩ := hwants
  exact horder n _ (h.allowed_next hcode) (Nat.eq_zero_of_not_pos hwaits) m hholds

end State

end Locks
