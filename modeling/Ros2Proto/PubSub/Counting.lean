import Ros2Proto.Base.Runs
import Ros2Proto.PubSub.Tcp

/-!
# Counting the messages on a transport

`sendFrames` counts the messages it is given and queues those whose number is a multiple of the filter.
`setFilter` primes the counter, so the first of them is queued.
-/

namespace Ros2Proto

open FallibleRun

/-! ### Every `n`-th of a list -/

section

variable {α : Type*}

/-- The elements at the positions `0`, `n`, `2 * n` and so on. -/
def everyNth (n : Nat) (l : List α) : List α :=
  (l.zipIdx.filter fun entry => entry.2 % n = 0).map Prod.fst

theorem everyNth_concat (n : Nat) (l : List α) (a : α) :
    everyNth n (l ++ [a]) = everyNth n l ++ if l.length % n = 0 then [a] else [] := by
  simp only [everyNth, List.zipIdx_append, List.filter_append, List.map_append]
  split_ifs with hpos <;> simp [hpos]

end

/-! ### Counting -/

namespace TransportTCP

/-- An open transport that passes messages. -/
structure Live (t : TransportTCP) : Prop where
  opened : t.closed = false
  asynchronous : t.synchronous = false
  messages : t.messages = true

/-- It was given `k` messages since its filter was set to `f`. -/
structure Counting (f k : Nat) (t : TransportTCP) : Prop extends t.Live where
  filter : t.filter = f
  counter : t.msgCounter = ((k + f - 1) % f : Nat)

/-- What the poll set is told changes none of this. -/
structure Alike (t t' : TransportTCP) : Prop where
  live : t'.Live
  sendMsgs : t'.sendMsgs = t.sendMsgs
  filter : t'.filter = t.filter
  msgCounter : t'.msgCounter = t.msgCounter

variable {t t' : TransportTCP} {f k : Nat}

theorem Live.alike (h : t.Live) : t.Alike t := ⟨h, rfl, rfl, rfl⟩

theorem Live.enableWrite (h : t.Live) : ∃ t', t.enableWrite = .ok t' ∧ t.Alike t' := by
  rw [TransportTCP.enableWrite, if_neg (by simp [h.asynchronous]), if_neg (by simp [h.opened])]
  split_ifs
  · exact ⟨_, rfl, ⟨h.opened, h.asynchronous, h.messages⟩, rfl, rfl, rfl⟩
  · exact ⟨t, rfl, h.alike⟩

theorem Live.disableWrite (h : t.Live) : ∃ t', t.disableWrite = .ok t' ∧ t.Alike t' := by
  rw [TransportTCP.disableWrite, if_neg (by simp [h.asynchronous]), if_neg (by simp [h.opened])]
  split_ifs
  · exact ⟨_, rfl, ⟨h.opened, h.asynchronous, h.messages⟩, rfl, rfl, rfl⟩
  · exact ⟨t, rfl, h.alike⟩

theorem Live.disableRead (h : t.Live) : ∃ t', t.disableRead = .ok t' ∧ t.Alike t' := by
  rw [TransportTCP.disableRead, if_neg (by simp [h.asynchronous]), if_neg (by simp [h.opened])]
  split_ifs
  · exact ⟨_, rfl, ⟨h.opened, h.asynchronous, h.messages⟩, rfl, rfl, rfl⟩
  · exact ⟨t, rfl, h.alike⟩

theorem next_counter (hf : 0 < f) (k : Nat) :
    ((((k + f - 1) % f : Nat) : Int) + 1).tmod f = (k % f : Nat) := by
  have hnat : ((k + f - 1) % f + 1) % f = k % f := by
    rw [Nat.mod_add_mod, Nat.sub_add_cancel (by omega), Nat.add_mod_right]
  rw [← hnat]
  exact (Int.natCast_mod _ _).symm

/-- The `k`-th message is queued if `k` is a multiple of the filter. -/
theorem Counting.sendMessage (h : t.Counting f k) (hf : 0 < f) (data : List UInt8) (size : UInt32) :
    ∃ t' added, t.sendMessage data size = .ok t' ∧ t'.Counting f (k + 1) ∧
      t'.sendMsgs = t.sendMsgs ++ added ∧
      added.map Message.frames = if k % f = 0 then [[⟨data, size⟩]] else [] := by
  have hnext : (k + 1 + f - 1) % f = k % f := by
    rw [show k + 1 + f - 1 = k + f by omega, Nat.add_mod_right]
  have hcounter : (t.msgCounter + 1).tmod t.filter = (k % f : Nat) := by
    rw [h.counter, h.filter, next_counter hf]
  have hzero : t.filter ≠ 0 := by
    rw [h.filter]
    omega
  have hcounted : { t with msgCounter := (k % f : Nat) }.Live := ⟨h.opened, h.asynchronous, h.messages⟩
  rw [TransportTCP.sendMessage, sendFrames, if_neg (by simp [h.messages]), if_neg hzero]
  simp only [hcounter]
  by_cases hk : k % f = 0
  · rw [if_neg (not_not.mpr (Nat.cast_eq_zero.mpr hk)), if_pos hk]
    have hpush : ∀ t₁ : TransportTCP, Alike { t with msgCounter := (k % f : Nat) } t₁ → ∀ msg,
        Counting f (k + 1) { t₁ with sendMsgs := t₁.sendMsgs ++ [msg] } ∧
          t₁.sendMsgs ++ [msg] = t.sendMsgs ++ [msg] := by
      intro t₁ halike msg
      refine ⟨⟨⟨halike.live.opened, halike.live.asynchronous, halike.live.messages⟩,
        halike.filter.trans h.filter, ?_⟩, by rw [halike.sendMsgs]⟩
      rw [hnext]
      exact halike.msgCounter
    by_cases hempty : t.sendMsgs.isEmpty = true
    · obtain ⟨t₁, hwrite, halike⟩ := hcounted.enableWrite
      simp only [List.getElem?_cons_zero, hempty, if_true, hwrite, bind, Except.bind]
      exact ⟨_, [_], rfl, (hpush t₁ halike _).1, (hpush t₁ halike _).2, rfl⟩
    · simp only [List.getElem?_cons_zero, hempty, bind, Except.bind]
      exact ⟨_, [_], rfl, (hpush _ hcounted.alike _).1, (hpush _ hcounted.alike _).2, rfl⟩
  · refine ⟨_, [], if_pos (Nat.cast_ne_zero.mpr hk), ?_, (List.append_nil _).symm, (if_neg hk).symm⟩
    exact ⟨hcounted, h.filter, by rw [hnext]⟩

/-- `setFilter` primes the counter so that the next message is queued. -/
theorem Live.setFilter (h : t.Live) (hf : 0 < f) :
    ∃ t', t.setFilter f = .ok t' ∧ t'.Counting f 0 ∧ t'.sendMsgs = t.sendMsgs := by
  refine ⟨_, if_pos (by exact_mod_cast hf), ⟨⟨h.opened, h.asynchronous, h.messages⟩, rfl, ?_⟩, rfl⟩
  rw [Nat.zero_add, Nat.mod_eq_of_lt (Nat.sub_lt hf Nat.one_pos)]
  show (f : Int) - 1 = ((f - 1 : Nat) : Int)
  omega

theorem intOfU32_eq {x : UInt32} (h : x.toNat ≤ intMax) : intOfU32 x = x.toNat := by
  rw [intMax] at h
  apply Int.bmod_eq_of_le <;> omega

/-- Taking the front message leaves the rest of the queue. -/
theorem Live.takeMessage (h : t.Live) {msg : Message} {rest : List Message}
    (hq : t.sendMsgs = msg :: rest) :
    ∃ t', t.takeMessage = .ok (some msg.frames, t') ∧ TransportTCP.Alike { t with sendMsgs := rest } t' := by
  have hrest : { t with sendMsgs := rest }.Live := ⟨h.opened, h.asynchronous, h.messages⟩
  rw [TransportTCP.takeMessage, hq]
  by_cases hempty : rest.length = 0
  · obtain ⟨t', hwrite, halike⟩ := hrest.disableWrite
    simp only [hempty, if_true, hwrite, bind, Except.bind]
    exact ⟨t', rfl, halike⟩
  · simp only [hempty, if_false, bind, Except.bind]
    exact ⟨_, rfl, hrest.alike⟩

theorem takeMessage_nil (hq : t.sendMsgs = []) : t.takeMessage = .ok (none, t) := by
  rw [TransportTCP.takeMessage, hq]

end TransportTCP

/-! ### Open or closed -/

namespace TransportTCP

/-- A transport that passes messages and counts them below its filter. It may be closed. -/
structure Counted (t : TransportTCP) : Prop where
  asynchronous : t.synchronous = false
  messages : t.messages = true
  sock : t.closed = false → t.sock ≠ -1
  filter_pos : 0 < t.filter
  counter_nonneg : 0 ≤ t.msgCounter
  counter_lt : t.msgCounter < t.filter

/-- Nothing is read from it. -/
def Quiet (t : TransportTCP) : Prop := t.closed ∨ !t.expectingRead

/-- What an operation that does not make it read again leaves. -/
structure Follows (t t' : TransportTCP) : Prop where
  counted : t'.Counted
  quiet : t.Quiet → t'.Quiet

variable {t : TransportTCP}

theorem Counted.follows (h : t.Counted) : t.Follows t := ⟨h, id⟩

theorem Counted.enableWrite (h : t.Counted) : ∃ t', t.enableWrite = .ok t' ∧ t.Follows t' := by
  rw [TransportTCP.enableWrite, if_neg (by simp [h.asynchronous])]
  split_ifs
  · exact ⟨t, rfl, h.follows⟩
  · exact ⟨_, rfl, ⟨h.asynchronous, h.messages, h.sock, h.filter_pos, h.counter_nonneg,
      h.counter_lt⟩, id⟩
  · exact ⟨t, rfl, h.follows⟩

theorem Counted.disableWrite (h : t.Counted) : ∃ t', t.disableWrite = .ok t' ∧ t.Follows t' := by
  rw [TransportTCP.disableWrite, if_neg (by simp [h.asynchronous])]
  split_ifs
  · exact ⟨t, rfl, h.follows⟩
  · exact ⟨_, rfl, ⟨h.asynchronous, h.messages, h.sock, h.filter_pos, h.counter_nonneg,
      h.counter_lt⟩, id⟩
  · exact ⟨t, rfl, h.follows⟩

theorem Counted.disableRead (h : t.Counted) :
    ∃ t', t.disableRead = .ok t' ∧ t'.Counted ∧ t'.Quiet := by
  rw [TransportTCP.disableRead, if_neg (by simp [h.asynchronous])]
  split_ifs with hclosed hreading
  · exact ⟨t, rfl, h, Or.inl hclosed⟩
  · exact ⟨_, rfl, ⟨h.asynchronous, h.messages, h.sock, h.filter_pos, h.counter_nonneg,
      h.counter_lt⟩, Or.inr rfl⟩
  · exact ⟨t, rfl, h, Or.inr (by simpa using hreading)⟩

theorem Counted.close (h : t.Counted) : ∃ t', t.close = .ok t' ∧ t.Follows t' := by
  by_cases hclosed : t.closed = true
  · exact ⟨t, if_pos hclosed, h.follows⟩
  · have hsock := h.sock (Bool.eq_false_iff.mpr hclosed)
    rw [TransportTCP.close, if_neg hclosed, if_neg hsock]
    have hgone : true = false → (-1 : Int) ≠ -1 := fun hopen => absurd hopen.symm Bool.false_ne_true
    exact ⟨_, rfl, ⟨h.asynchronous, h.messages, hgone, h.filter_pos, h.counter_nonneg,
      h.counter_lt⟩, fun _ => Or.inl rfl⟩

theorem Counted.setFilter (h : t.Counted) {f : Int} (hf : 0 < f) :
    ∃ t', t.setFilter f = .ok t' ∧ t.Follows t' := by
  refine ⟨_, if_pos hf, ⟨h.asynchronous, h.messages, h.sock, hf, ?_, ?_⟩, id⟩
  · show 0 ≤ f - 1
    omega
  · show f - 1 < f
    omega

theorem Counted.takeMessage (h : t.Counted) :
    ∃ t', t.takeMessage.map Prod.snd = .ok t' ∧ t.Follows t' := by
  rw [TransportTCP.takeMessage]
  cases hq : t.sendMsgs with
  | nil => exact ⟨t, rfl, h.follows⟩
  | cons msg rest =>
      have hrest : Counted { t with sendMsgs := rest } := ⟨h.asynchronous, h.messages, h.sock,
        h.filter_pos, h.counter_nonneg, h.counter_lt⟩
      by_cases hempty : rest.length = 0
      · obtain ⟨t', hwrite, hfollows⟩ := hrest.disableWrite
        simp only [hempty, if_true, hwrite, bind, Except.bind]
        exact ⟨t', rfl, hfollows.counted, hfollows.quiet⟩
      · simp only [hempty, if_false, bind, Except.bind]
        exact ⟨_, rfl, hrest, id⟩

/-- The counter is incremented modulo the filter, so it stays below it. -/
theorem Counted.sendMessage (h : t.Counted) (data : List UInt8) (size : UInt32) :
    ∃ t', t.sendMessage data size = .ok t' ∧ t.Follows t' := by
  have hcounted : Counted { t with msgCounter := (t.msgCounter + 1).tmod t.filter } :=
    ⟨h.asynchronous, h.messages, h.sock, h.filter_pos,
      Int.tmod_nonneg _ (Int.add_nonneg h.counter_nonneg Int.one_nonneg),
      Int.tmod_lt_of_pos _ h.filter_pos⟩
  rw [TransportTCP.sendMessage, sendFrames, if_neg (by simp [h.messages]),
    if_neg h.filter_pos.ne']
  dsimp only
  split_ifs with hskip hempty
  · exact ⟨_, rfl, hcounted, id⟩
  · obtain ⟨t₁, hwrite, hfollows⟩ := hcounted.enableWrite
    have hpush : Counted { t₁ with sendMsgs := t₁.sendMsgs ++
        [⟨[⟨data, size⟩], UInt32.ofNat 1, 0, 0, 0, size, 0⟩] } :=
      ⟨hfollows.counted.asynchronous, hfollows.counted.messages, hfollows.counted.sock,
        hfollows.counted.filter_pos, hfollows.counted.counter_nonneg, hfollows.counted.counter_lt⟩
    exact ⟨_, bind_eq_ok_iff.mpr ⟨t₁, hwrite, rfl⟩, hpush, hfollows.quiet⟩
  · exact ⟨_, rfl, ⟨h.asynchronous, h.messages, h.sock, h.filter_pos, hcounted.counter_nonneg,
      hcounted.counter_lt⟩, id⟩

end TransportTCP

end Ros2Proto
