import Mathlib.Data.List.TakeWhile
import Mathlib.Data.Nat.Digits.Defs
import Mathlib.Tactic.IntervalCases

/-!
# Cutting strings and reading numbers

The parts of `std::string` and of the C library that hand-written parsers use: the first occurrence of
a pattern, the substrings before and after it, and `atoi`. `find` returns `npos`, here `none`, where
the pattern does not occur; as `npos` is the greatest `size_t`, adding to it wraps round.

A string whose front part lacks the first letter of a separator is cut at the separator that follows
that part, whatever comes after. An integer of 32 bits survives being printed in decimal and read by
`atoi`.
-/

namespace Strings

section

variable {α : Type*} [DecidableEq α]

/-- The first place where `pat` occurs. -/
def find (pat : List α) : List α → Option Nat
  | [] => if pat = [] then some 0 else none
  | a :: s => if pat.isPrefixOf (a :: s) then some 0 else (find pat s).map (· + 1)

/-- `s.substr(0, n)` -/
def upTo (s : List α) : Option Nat → List α
  | some n => s.take n
  | none => s

/-- `s.substr(n + k)` for a positive `k`, which throws where the sum is beyond the end. -/
def past (s : List α) (n : Option Nat) (k : Nat) : Option (List α) :=
  let pos := n.elim (k - 1) (· + k)
  if pos ≤ s.length then some (s.drop pos) else none

variable {c : α} {p cs t : List α}

theorem find_append (h : c ∉ p) : find (c :: cs) (p ++ (c :: cs ++ t)) = some p.length := by
  induction p with
  | nil => simp [find]
  | cons a p ih =>
      obtain ⟨ha, hp⟩ := not_or.mp (List.mem_cons.not.mp h)
      have hhead : (c :: cs).isPrefixOf (a :: (p ++ (c :: cs ++ t))) = false := by
        simp [List.isPrefixOf, ha]
      rw [List.cons_append, find, hhead, ih hp]
      rfl

theorem upTo_find (h : c ∉ p) :
    upTo (p ++ (c :: cs ++ t)) (find (c :: cs) (p ++ (c :: cs ++ t))) = p := by
  rw [find_append h, upTo, List.take_left]

theorem past_find (h : c ∉ p) :
    past (p ++ (c :: cs ++ t)) (find (c :: cs) (p ++ (c :: cs ++ t))) (c :: cs).length = some t := by
  have hlength : p.length + (c :: cs).length ≤ (p ++ (c :: cs ++ t)).length := by
    rw [List.length_append, List.length_append]
    omega
  have hdrop : (p ++ (c :: cs ++ t)).drop (p.length + (c :: cs).length) = t := by
    rw [← List.append_assoc, ← List.length_append, List.drop_left]
  rw [find_append h, past]
  simp only [Option.elim_some, hlength, if_true, hdrop]

/-- A pattern that is found cuts the string in three. -/
theorem find_eq_some {pat s : List α} {n : Nat} (h : find pat s = some n) :
    s = s.take n ++ pat ++ s.drop (n + pat.length) := by
  induction s generalizing n with
  | nil =>
      rw [find] at h
      split_ifs at h with hpat
      simp [hpat]
  | cons a s ih =>
      rw [find] at h
      split_ifs at h with hpre
      · cases h
        obtain ⟨t, ht⟩ := List.isPrefixOf_iff_prefix.mp hpre
        rw [← ht]
        simp
      · obtain ⟨m, hm, rfl⟩ := Option.map_eq_some_iff.mp h
        rw [List.take_succ_cons, List.cons_append, List.cons_append, Nat.add_right_comm,
          List.drop_succ_cons, ← ih hm]

/-- A letter does not occur before it is found. -/
theorem not_mem_upTo_find (c : α) (s : List α) : c ∉ upTo s (find [c] s) := by
  induction s with
  | nil => simp [find, upTo]
  | cons a s ih =>
      rw [find]
      split_ifs with hpre
      · simp [upTo]
      · have hne : c ≠ a := by
          intro heq
          simp [List.isPrefixOf, heq] at hpre
        cases hfind : find [c] s with
        | none =>
            rw [hfind] at ih
            exact fun hmem => (List.mem_cons.mp hmem).elim hne ih
        | some n =>
            rw [hfind] at ih
            exact fun hmem => (List.mem_cons.mp hmem).elim hne ih

end

/-! ### Numbers -/

def isSpace (b : UInt8) : Bool := b = 32 ∨ 9 ≤ b ∧ b ≤ 13

def isDigit (b : UInt8) : Bool := 48 ≤ b ∧ b ≤ 57

/-- The number that decimal digits stand for, the most significant first. -/
def number (digits : List UInt8) : Nat := digits.foldl (fun n b => 10 * n + (b.toNat - 48)) 0

/-- `strtol` in base ten, for a `long` of 64 bits: the longest number after white space, cut to the
range of the type. -/
def strtol (s : List UInt8) : Int :=
  match s.dropWhile isSpace with
  | 45 :: s => max (-number (s.takeWhile isDigit)) (-2 ^ 63)
  | 43 :: s => min (number (s.takeWhile isDigit)) (2 ^ 63 - 1)
  | s => min (number (s.takeWhile isDigit)) (2 ^ 63 - 1)

/-- `atoi`: what `strtol` returns, converted to an `int` of 32 bits. -/
def atoi (s : List UInt8) : Int := (strtol s).bmod (2 ^ 32)

/-- The decimal digits of a number, as a stream prints them. -/
def digits (n : Nat) : List UInt8 :=
  if n = 0 then [48] else (Nat.digits 10 n).reverse.map fun d => UInt8.ofNat (48 + d)

def decimal (z : Int) : List UInt8 :=
  if z < 0 then 45 :: digits z.natAbs else digits z.natAbs

theorem isDigit_ofNat {d : Nat} (h : d < 10) : isDigit (UInt8.ofNat (48 + d)) = true := by
  interval_cases d <;> rfl

theorem toNat_ofNat_digit {d : Nat} (h : d < 10) : (UInt8.ofNat (48 + d)).toNat - 48 = d := by
  interval_cases d <;> rfl

theorem isDigit_of_mem {n : Nat} {b : UInt8} (h : b ∈ digits n) : isDigit b = true := by
  rw [digits] at h
  split_ifs at h with hzero
  · rw [List.mem_singleton.mp h]
    rfl
  · obtain ⟨d, hd, rfl⟩ := List.mem_map.mp h
    exact isDigit_ofNat (Nat.digits_lt_base (by omega) (List.mem_reverse.mp hd))

theorem number_digits (n : Nat) : number (digits n) = n := by
  have hfold : ∀ ds : List Nat, (∀ d ∈ ds, d < 10) →
      number (ds.reverse.map fun d => UInt8.ofNat (48 + d)) = Nat.ofDigits 10 ds := by
    intro ds
    induction ds with
    | nil => intro _; rfl
    | cons d ds ih =>
        intro hlt
        have hrest := ih fun x hx => hlt x (List.mem_cons_of_mem _ hx)
        rw [number] at hrest
        rw [number, List.reverse_cons, List.map_append, List.foldl_append, hrest, Nat.ofDigits_cons]
        show 10 * Nat.ofDigits 10 ds + ((UInt8.ofNat (48 + d)).toNat - 48) = d + 10 * Nat.ofDigits 10 ds
        rw [toNat_ofNat_digit (hlt d List.mem_cons_self)]
        omega
  rw [digits]
  split_ifs with hzero
  · rw [hzero]
    rfl
  · rw [hfold _ fun d hd => Nat.digits_lt_base (by omega) hd, Nat.ofDigits_digits]

theorem not_space_of_digit {b : UInt8} (h : isDigit b = true) : isSpace b = false := by
  simp only [isDigit, decide_eq_true_eq, UInt8.le_iff_toNat_le] at h
  have hrange : 48 ≤ b.toNat := h.1
  have hspace : ¬ (b = 32 ∨ 9 ≤ b ∧ b ≤ 13) := by
    rintro (rfl | ⟨-, hle⟩)
    · exact absurd hrange (by decide)
    · exact absurd (hrange.trans (UInt8.le_iff_toNat_le.mp hle)) (by decide)
  exact decide_eq_false hspace

theorem takeWhile_digits (n : Nat) : (digits n).takeWhile isDigit = digits n := by
  rw [List.takeWhile_eq_self_iff]
  exact fun b hb => isDigit_of_mem hb

theorem exists_digits_cons (n : Nat) : ∃ b ds, digits n = b :: ds := by
  have hne : digits n ≠ [] := by
    rw [digits]
    split_ifs with hzero
    · exact List.cons_ne_nil _ _
    · simpa using Nat.digits_ne_nil_iff_ne_zero.mpr hzero
  exact List.exists_cons_of_ne_nil hne

theorem strtol_digits (n : Nat) : strtol (digits n) = min (n : Int) (2 ^ 63 - 1) := by
  obtain ⟨b, ds, hcons⟩ := exists_digits_cons n
  have hdigit : isDigit b = true := isDigit_of_mem (hcons ▸ List.mem_cons_self)
  have hdrop : (digits n).dropWhile isSpace = digits n := by
    rw [hcons, List.dropWhile_cons_of_neg]
    rw [not_space_of_digit hdigit]
    exact Bool.false_ne_true
  have htake := takeWhile_digits n
  have hvalue := number_digits n
  rw [strtol, hdrop]
  rw [hcons] at htake hvalue ⊢
  split
  · rename_i heq
    cases heq
    cases hdigit
  · rename_i heq
    cases heq
    cases hdigit
  · rw [htake, hvalue]

theorem strtol_minus (n : Nat) : strtol (45 :: digits n) = max (-(n : Int)) (-2 ^ 63) := by
  show max (-(number ((digits n).takeWhile isDigit) : Int)) (-2 ^ 63) = _
  rw [takeWhile_digits, number_digits]

/-- **Reading back what was printed.** -/
theorem atoi_decimal {z : Int} (hmin : -2 ^ 31 ≤ z) (hmax : z < 2 ^ 31) : atoi (decimal z) = z := by
  have hstrtol : strtol (decimal z) = z := by
    rw [decimal]
    split_ifs with hneg
    · rw [strtol_minus]
      omega
    · rw [strtol_digits]
      omega
  rw [atoi, hstrtol, Int.bmod_eq_of_le_mul_two] <;> omega

end Strings
