import Mathlib.Data.List.Basic

/-!
# Self-delimiting codes

A code is self-delimiting when an encoding at the front of a stream determines both the value and
where the encoding ends. Such codes are closed under the two constructions wire formats are built
from: a blob preceded by its length, and a list preceded by its count.

A stream of encodings that may be cut anywhere splits in exactly one way into the values it
completes and a tail that no encoding starts. `Completes c w ms` is that relation, and
`Completes.unique` says that the stream alone determines the values.
-/

variable {α β : Type*}

/-- A self-delimiting code for the values that are `Valid`. -/
structure PrefixCode (α β : Type*) where
  Valid : α → Prop
  encode : α → List β
  encode_ne_nil : ∀ a, Valid a → encode a ≠ []
  determined : ∀ a b x y, Valid a → Valid b → encode a ++ x = encode b ++ y → a = b ∧ x = y

namespace PrefixCode

/-- Encodings of one fixed positive length, from an injective encoder. -/
def fixed (Valid : α → Prop) (encode : α → List β) (width : Nat) (hwidth : 0 < width)
    (hlength : ∀ a, (encode a).length = width)
    (hinj : ∀ a b, Valid a → Valid b → encode a = encode b → a = b) : PrefixCode α β where
  Valid := Valid
  encode := encode
  encode_ne_nil a _ hnil := by
    have := hlength a
    rw [hnil, List.length_nil] at this
    omega
  determined a b x y ha hb h := by
    obtain ⟨henc, hrest⟩ := List.append_inj h ((hlength a).trans (hlength b).symm)
    exact ⟨hinj a b ha hb henc, hrest⟩

/-- The same code for fewer values. -/
def restrict (c : PrefixCode α β) (P : α → Prop) : PrefixCode α β where
  Valid a := c.Valid a ∧ P a
  encode := c.encode
  encode_ne_nil a ha := c.encode_ne_nil a ha.1
  determined a b x y ha hb h := c.determined a b x y ha.1 hb.1 h

@[simp] theorem restrict_encode (c : PrefixCode α β) (P : α → Prop) (a : α) :
    (c.restrict P).encode a = c.encode a := rfl

@[simp] theorem restrict_valid (c : PrefixCode α β) (P : α → Prop) (a : α) :
    (c.restrict P).Valid a ↔ c.Valid a ∧ P a := Iff.rfl

/-- A blob behind its length. -/
def blob (size : PrefixCode Nat β) : PrefixCode (List β) β where
  Valid l := size.Valid l.length
  encode l := size.encode l.length ++ l
  encode_ne_nil l hl hnil := size.encode_ne_nil l.length hl (List.append_eq_nil_iff.mp hnil).1
  determined a b x y ha hb h := by
    rw [List.append_assoc, List.append_assoc] at h
    obtain ⟨hlength, hrest⟩ := size.determined _ _ _ _ ha hb h
    exact List.append_inj hrest hlength

@[simp] theorem blob_encode (size : PrefixCode Nat β) (l : List β) :
    (blob size).encode l = size.encode l.length ++ l := rfl

@[simp] theorem blob_valid (size : PrefixCode Nat β) (l : List β) :
    (blob size).Valid l ↔ size.Valid l.length := Iff.rfl

/-- Lists of equal length are determined by their encodings laid end to end. -/
theorem flatMap_determined (item : PrefixCode α β) (as bs : List α) (x y : List β)
    (has : ∀ a ∈ as, item.Valid a) (hbs : ∀ b ∈ bs, item.Valid b)
    (hlength : as.length = bs.length)
    (h : as.flatMap item.encode ++ x = bs.flatMap item.encode ++ y) : as = bs ∧ x = y := by
  induction as generalizing bs with
  | nil =>
      obtain rfl := List.length_eq_zero_iff.mp hlength.symm
      exact ⟨rfl, h⟩
  | cons a as ih =>
      obtain _ | ⟨b, bs⟩ := bs
      · simp at hlength
      · simp only [List.flatMap_cons, List.append_assoc] at h
        obtain ⟨rfl, hrest⟩ :=
          item.determined a b _ _ (has a (by simp)) (hbs b (by simp)) h
        obtain ⟨rfl, hxy⟩ := ih bs (fun a' ha' => has a' (by simp [ha']))
          (fun b' hb' => hbs b' (by simp [hb'])) (by simpa using hlength) hrest
        exact ⟨rfl, hxy⟩

/-- A list behind its count. -/
def counted (count : PrefixCode Nat β) (item : PrefixCode α β) : PrefixCode (List α) β where
  Valid l := count.Valid l.length ∧ ∀ a ∈ l, item.Valid a
  encode l := count.encode l.length ++ l.flatMap item.encode
  encode_ne_nil l hl hnil := count.encode_ne_nil l.length hl.1 (List.append_eq_nil_iff.mp hnil).1
  determined a b x y ha hb h := by
    rw [List.append_assoc, List.append_assoc] at h
    obtain ⟨hlength, hrest⟩ := count.determined _ _ _ _ ha.1 hb.1 h
    exact flatMap_determined item a b x y ha.2 hb.2 hlength hrest

@[simp] theorem counted_encode (count : PrefixCode Nat β) (item : PrefixCode α β) (l : List α) :
    (counted count item).encode l = count.encode l.length ++ l.flatMap item.encode := rfl

@[simp] theorem counted_valid (count : PrefixCode Nat β) (item : PrefixCode α β) (l : List α) :
    (counted count item).Valid l ↔ count.Valid l.length ∧ ∀ a ∈ l, item.Valid a := Iff.rfl

/-! ### Streams cut anywhere -/

variable (c : PrefixCode α β)

/-- No encoding of a valid value starts `tail`. -/
def NoneComplete (tail : List β) : Prop := ∀ m rest, c.Valid m → tail ≠ c.encode m ++ rest

/-- The stream `w` completes exactly the values `ms`, in this order. -/
def Completes (w : List β) (ms : List α) : Prop :=
  (∀ m ∈ ms, c.Valid m) ∧ ∃ tail, w = ms.flatMap c.encode ++ tail ∧ c.NoneComplete tail

variable {c}

theorem noneComplete_nil : c.NoneComplete [] := by
  intro m rest hm h
  exact c.encode_ne_nil m hm (List.append_eq_nil_iff.mp h.symm).1

/-- A proper prefix of one encoding starts with no complete encoding. -/
theorem noneComplete_of_extends {m : α} (hm : c.Valid m) {tail ext : List β} (hext : ext ≠ [])
    (h : tail ++ ext = c.encode m) : c.NoneComplete tail := by
  rintro m' rest hm' rfl
  rw [List.append_assoc, ← List.append_nil (c.encode m)] at h
  obtain ⟨-, hnil⟩ := c.determined m' m _ _ hm' hm h
  exact hext (List.append_eq_nil_iff.mp hnil).2

theorem completes_flatMap {ms : List α} (hms : ∀ m ∈ ms, c.Valid m) :
    c.Completes (ms.flatMap c.encode) ms :=
  ⟨hms, [], (List.append_nil _).symm, noneComplete_nil⟩

/-- Every stream completes some values. -/
theorem exists_completes (c : PrefixCode α β) (w : List β) : ∃ ms, c.Completes w ms := by
  induction hlength : w.length using Nat.strongRecOn generalizing w with
  | ind n ih =>
      by_cases htail : c.NoneComplete w
      · exact ⟨[], by simp, w, by simp, htail⟩
      · rw [NoneComplete] at htail
        push Not at htail
        obtain ⟨m, rest, hm, rfl⟩ := htail
        have hpos := List.length_pos_iff.mpr (c.encode_ne_nil m hm)
        have hlt : rest.length < n := by
          rw [← hlength, List.length_append]
          omega
        obtain ⟨ms, hms, tail, hrest, htail⟩ := ih rest.length hlt rest rfl
        refine ⟨m :: ms, List.forall_mem_cons.mpr ⟨hm, hms⟩, tail, ?_, htail⟩
        rw [List.flatMap_cons, List.append_assoc, ← hrest]

/-- What a stream completes, a longer stream of encodings starts with. -/
theorem Completes.prefix_of_append {w ext : List β} {ms ns : List α} (h : c.Completes w ms)
    (hns : ∀ n ∈ ns, c.Valid n) (hext : w ++ ext = ns.flatMap c.encode) : ms <+: ns := by
  obtain ⟨hms, tail, rfl, -⟩ := h
  induction ms generalizing ns with
  | nil => exact List.nil_prefix
  | cons m ms ih =>
      have hm := hms m (by simp)
      obtain _ | ⟨n, ns⟩ := ns
      · simp only [List.flatMap_cons, List.flatMap_nil, List.append_assoc] at hext
        exact absurd (List.append_eq_nil_iff.mp hext).1 (c.encode_ne_nil m hm)
      · simp only [List.flatMap_cons, List.append_assoc] at hext
        obtain ⟨rfl, hrest⟩ := c.determined m n _ _ hm (hns n (by simp)) hext
        rw [List.prefix_cons_inj]
        exact ih (fun n' hn' => hns n' (by simp [hn'])) (fun m' hm' => hms m' (by simp [hm']))
          (by simpa using hrest)

/-- **The stream determines the values it completes.** -/
theorem Completes.unique {w : List β} {ms ns : List α} (hms : c.Completes w ms)
    (hns : c.Completes w ns) : ms = ns := by
  obtain ⟨hvm, tail, rfl, htail⟩ := hms
  obtain ⟨hvn, tail', h, htail'⟩ := hns
  induction ms generalizing ns with
  | nil =>
      obtain _ | ⟨n, ns⟩ := ns
      · rfl
      · refine absurd ?_ (htail n (ns.flatMap c.encode ++ tail') (hvn n (by simp)))
        simpa using h
  | cons m ms ih =>
      have hm := hvm m (by simp)
      obtain _ | ⟨n, ns⟩ := ns
      · refine absurd ?_ (htail' m (ms.flatMap c.encode ++ tail) hm)
        simpa using h.symm
      · simp only [List.flatMap_cons, List.append_assoc] at h
        obtain ⟨rfl, hrest⟩ := c.determined m n _ _ hm (hvn n (by simp)) h
        rw [ih (fun m' hm' => hvm m' (by simp [hm'])) (fun n' hn' => hvn n' (by simp [hn'])) hrest]

/-- A stream that is all encodings completes all of them. -/
theorem Completes.eq_of_flatMap {ms ns : List α} (h : c.Completes (ns.flatMap c.encode) ms)
    (hns : ∀ n ∈ ns, c.Valid n) : ms = ns :=
  h.unique (completes_flatMap hns)

end PrefixCode
