import Mathlib.Data.List.Induction
import Ros2Proto.Base.Assignment
import Ros2Proto.Transport.Readiness

/-!
# Handing out what `poll` reported

`PollSet::update`, with the descriptors that `delSocket` remembers as just deleted. `poll` reports on an
array of descriptors, and the loop over the array looks each of them up again, while the functions it
calls may delete sockets and add others. A registration is known by a number of its own, as its
descriptor may be used again. What holds of each descriptor, and the calls that each function makes on
the set, are parameters.

A descriptor that was deleted is only recognized where an error is reported with it. So a result goes
astray exactly if a number that is ready without an error was registered anew before its turn, for an
event that was reported.
-/

namespace Ros2Proto

open Assignment Std

/-- A `PollSet`, with the number of calls that were made on it. The registration that a call makes is
known by the number of calls before. -/
structure Poller where
  pollSet : PollSet
  justDeleted : List Int
  calls : Nat

/-- A call of an update function, with the `SocketInfo` that it comes from. -/
structure Invocation where
  info : SocketInfo
  events : PollEvents
  deriving DecidableEq, Repr

/-- What `poll` comes to: an error, or what holds of each descriptor. -/
inductive PollAnswer
  | failed
  | ready (conditions : Int → PollEvents)

/-- Whether or not they are requested, these are reported. -/
def pollErrors : PollEvents := POLLERR ||| POLLHUP ||| POLLNVAL

/-- The `revents` of an entry: of what holds of the descriptor, what is requested, and the errors. -/
def PollAnswer.revents (answer : PollAnswer) (ufd : PollFd) : PollEvents :=
  match answer with
  | .failed => 0
  | .ready conditions => conditions ufd.fd &&& (ufd.events ||| pollErrors)

/-- The loop of `update`, with the calls it has made so far. -/
structure Pass where
  poller : Poller
  invoked : List Invocation

/-- Something happens to the set: a call from outside, or a round of `update` in which each function
makes the given calls. -/
inductive PollerEvent
  | call (call : PollCall)
  | update (answer : PollAnswer) (acts : Nat → List PollCall)

namespace Poller

def create (signalPipe : Nat) : Poller := ⟨.create signalPipe, [], 0⟩

def onCall (s : Poller) (call : PollCall) : Poller where
  pollSet := s.pollSet.onCall s.calls call
  justDeleted :=
    match call with
    | .delSocket fd =>
      if fd < 0 then s.justDeleted
      else if fd ∈ s.pollSet.socketInfo then s.justDeleted ++ [fd]
      else s.justDeleted
    | _ => s.justDeleted
  calls := s.calls + 1

/-- One turn of the loop. -/
def dispatch (answer : PollAnswer) (acts : Nat → List PollCall) (p : Pass) (ufd : PollFd) : Pass :=
  let revents := answer.revents ufd
  if revents = 0 then p
  else
    match p.poller.pollSet.socketInfo[ufd.fd]? with
    | none => p
    | some info =>
      if info.events &&& revents ≠ 0 ∨ revents &&& pollErrors ≠ 0 then
        if revents &&& pollErrors ≠ 0 ∧ ufd.fd ∈ p.poller.justDeleted then p
        else
          { poller := (acts p.invoked.length).foldl onCall p.poller
            invoked := p.invoked ++ [⟨info, revents &&& (info.events ||| pollErrors)⟩] }
      else p

def createNativePollset (s : Poller) : Poller :=
  { s with pollSet := s.pollSet.createNativePollset }

def update (s : Poller) (answer : PollAnswer) (acts : Nat → List PollCall) : Pass :=
  let s := s.createNativePollset
  match answer with
  | .failed => ⟨s, []⟩
  | .ready _ =>
    if ∀ ufd ∈ s.pollSet.ufds, answer.revents ufd = 0 then ⟨s, []⟩
    else
      let p := s.pollSet.ufds.foldl (dispatch answer acts) ⟨s, []⟩
      { p with poller := { p.poller with justDeleted := [] } }

def onEvent (s : Poller) : PollerEvent → Poller
  | .call call => s.onCall call
  | .update answer acts => (s.update answer acts).poller

/-- The first events are among the second. -/
def Within (events events' : PollEvents) : Prop := events &&& events' = events

/-- Every call of a round goes to a socket that was tracked when `poll` was called, with events that
were reported for it and that it requests, but for errors. -/
def Faithful (s : Poller) (answer : PollAnswer) (invoked : List Invocation) : Prop :=
  ∀ i ∈ invoked, ∃ info, s.pollSet.socketInfo[i.info.fd]? = some info ∧
    info.transport = i.info.transport ∧ Within i.events (answer.revents ⟨info.fd, info.events⟩) ∧
    Within i.events (info.events ||| pollErrors) ∧ Within i.events (i.info.events ||| pollErrors)

/-- At its turn, the number of an entry that is ready without an error belongs to a socket that was
added since `poll` was called and requests what was reported. -/
def Reused (s : Poller) (answer : PollAnswer) (p : Pass) (ufd : PollFd) : Prop :=
  answer.revents ufd &&& pollErrors = 0 ∧ ∃ info n, p.poller.pollSet.socketInfo[ufd.fd]? = some info ∧
    info.transport = some n ∧ s.calls ≤ n ∧ info.events &&& answer.revents ufd ≠ 0

/-- The array that `poll` is given next, and the loop over its first entries. -/
def ufds (s : Poller) : List PollFd := s.createNativePollset.pollSet.ufds

def pass (s : Poller) (answer : PollAnswer) (acts : Nat → List PollCall) (done : List PollFd) : Pass :=
  done.foldl (dispatch answer acts) ⟨s.createNativePollset, []⟩

/-! ### Registrations -/

variable {s s' : Poller} {answer : PollAnswer} {acts : Nat → List PollCall} {p p' : Pass}
  {ufd : PollFd} {fd : Int} {info : SocketInfo}

/-- What holds of the set between rounds: an entry knows its key, a registration was made by a call
before, and `sockets_changed_` stays set. -/
structure Inv (s : Poller) : Prop where
  keyed : ∀ (fd : Int) (info : SocketInfo), s.pollSet.socketInfo[fd]? = some info → info.fd = fd
  numbered : ∀ (fd : Int) (info : SocketInfo) (n : Nat), s.pollSet.socketInfo[fd]? = some info →
    info.transport = some n → n < s.calls
  changed : s.pollSet.socketsChanged = true

/-- An entry whose requested events are set stays the same registration. -/
theorem entry_of_insert {m : ExtTreeMap Int SocketInfo compare} {sock : Int} {old : SocketInfo}
    (hold : m[sock]? = some old) (events : PollEvents)
    (hentry : (m.insert sock { old with events := events })[fd]? = some info) :
    ∃ old : SocketInfo, m[fd]? = some old ∧ info.fd = old.fd ∧ info.transport = old.transport := by
  by_cases hfd : fd = sock
  · subst hfd
    rw [ExtTreeMap.getElem?_insert_self] at hentry
    obtain rfl := Option.some.inj hentry
    exact ⟨old, hold, rfl, rfl⟩
  · rw [getElem?_insert_of_ne _ hfd] at hentry
    exact ⟨info, hentry, rfl, rfl⟩

/-- What a call makes of the entry at `fd`: it changes the requested events at most, or the entry is
new where there was none. -/
theorem onCall_entry (s : Poller) (call : PollCall)
    (hentry : (s.onCall call).pollSet.socketInfo[fd]? = some info) :
    (∃ old : SocketInfo, s.pollSet.socketInfo[fd]? = some old ∧ info.fd = old.fd ∧
      info.transport = old.transport) ∨
    (fd ∉ s.pollSet.socketInfo ∧ info.fd = fd ∧ info.transport = some s.calls) := by
  have hsame : s.pollSet.socketInfo[fd]? = some info → ∃ old : SocketInfo,
      s.pollSet.socketInfo[fd]? = some old ∧ info.fd = old.fd ∧ info.transport = old.transport :=
    fun h => ⟨info, h, rfl, rfl⟩
  cases call with
  | addSocket sock =>
      simp only [onCall, PollSet.onCall, PollSet.addSocket] at hentry
      split_ifs at hentry with htracked
      · exact Or.inl (hsame hentry)
      · by_cases hfd : fd = sock
        · subst hfd
          rw [ExtTreeMap.getElem?_insert_self] at hentry
          obtain rfl := Option.some.inj hentry
          exact Or.inr ⟨htracked, rfl, rfl⟩
        · rw [getElem?_insert_of_ne _ hfd] at hentry
          exact Or.inl (hsame hentry)
  | delSocket sock =>
      simp only [onCall, PollSet.onCall, PollSet.delSocket] at hentry
      split_ifs at hentry with hneg htracked
      · exact Or.inl (hsame hentry)
      · by_cases hfd : fd = sock
        · subst hfd
          rw [ExtTreeMap.getElem?_erase_self] at hentry
          cases hentry
        · rw [getElem?_erase_of_ne _ hfd] at hentry
          exact Or.inl (hsame hentry)
      · exact Or.inl (hsame hentry)
  | addEvents sock events =>
      simp only [onCall, PollSet.onCall, PollSet.addEvents] at hentry
      split at hentry
      · exact Or.inl (hsame hentry)
      · rename_i old hold
        exact Or.inl (entry_of_insert hold _ hentry)
  | delEvents sock events =>
      simp only [onCall, PollSet.onCall, PollSet.delEvents] at hentry
      split at hentry
      · exact Or.inl (hsame hentry)
      · rename_i old hold
        exact Or.inl (entry_of_insert hold _ hentry)

theorem subset_onCall_justDeleted (s : Poller) (call : PollCall) :
    s.justDeleted ⊆ (s.onCall call).justDeleted := by
  cases call with
  | delSocket sock =>
      simp only [onCall]
      split_ifs
      · exact List.Subset.refl _
      · exact List.subset_append_left _ _
      · exact List.Subset.refl _
  | addSocket _ | addEvents _ _ | delEvents _ _ => exact List.Subset.refl _

/-- An entry that a call removes is remembered. -/
theorem onCall_removed (s : Poller) (call : PollCall) (hmem : fd ∈ s.pollSet.socketInfo)
    (hgone : fd ∉ (s.onCall call).pollSet.socketInfo) : fd ∈ (s.onCall call).justDeleted := by
  cases call with
  | delSocket sock =>
      simp only [onCall, PollSet.onCall, PollSet.delSocket] at hgone ⊢
      split_ifs at hgone ⊢ with hneg htracked
      · exact absurd hmem hgone
      · rw [mem_erase_iff, not_and] at hgone
        have hsock : sock = fd := by
          by_contra hne
          exact hgone hne hmem
        exact List.mem_append_right _ (List.mem_singleton.mpr hsock.symm)
      · exact absurd hmem hgone
  | addSocket sock =>
      simp only [onCall, PollSet.onCall, PollSet.addSocket] at hgone
      split_ifs at hgone
      · exact absurd hmem hgone
      · exact absurd ((mem_insert_iff _ _).mpr (Or.inr hmem)) hgone
  | addEvents sock events =>
      simp only [onCall, PollSet.onCall, PollSet.addEvents] at hgone
      split at hgone
      · exact absurd hmem hgone
      · exact absurd ((mem_insert_iff _ _).mpr (Or.inr hmem)) hgone
  | delEvents sock events =>
      simp only [onCall, PollSet.onCall, PollSet.delEvents] at hgone
      split at hgone
      · exact absurd hmem hgone
      · exact absurd ((mem_insert_iff _ _).mpr (Or.inr hmem)) hgone

theorem onCall_changed (s : Poller) (call : PollCall) (h : s.pollSet.socketsChanged = true) :
    (s.onCall call).pollSet.socketsChanged = true := by
  cases call with
  | addSocket sock =>
      simp only [onCall, PollSet.onCall, PollSet.addSocket]
      split_ifs
      · exact h
      · rfl
  | delSocket sock =>
      simp only [onCall, PollSet.onCall, PollSet.delSocket]
      split_ifs
      · exact h
      · rfl
      · exact h
  | addEvents sock events =>
      simp only [onCall, PollSet.onCall, PollSet.addEvents]
      split <;> exact h
  | delEvents sock events =>
      simp only [onCall, PollSet.onCall, PollSet.delEvents]
      split <;> exact h

theorem Inv.onCall (h : Inv s) (call : PollCall) : Inv (s.onCall call) where
  keyed fd info hentry := by
    rcases onCall_entry s call hentry with ⟨old, hold, hfd, -⟩ | ⟨-, hfd, -⟩
    · rw [hfd, h.keyed fd old hold]
    · exact hfd
  numbered fd info n hentry hn := by
    show n < s.calls + 1
    rcases onCall_entry s call hentry with ⟨old, hold, -, htransport⟩ | ⟨-, -, htransport⟩
    · have hlt := h.numbered fd old n hold (htransport ▸ hn)
      omega
    · rw [htransport] at hn
      obtain rfl := Option.some.inj hn
      omega
  changed := onCall_changed s call h.changed

/-! ### What the functions change -/

/-- How the set stands after calls that were made since it was `s`. An entry is one that `s` had, or was
made by one of the calls, and then the old entry of its descriptor is remembered as deleted. -/
structure Since (s s' : Poller) : Prop where
  inv : Inv s'
  origin : ∀ (fd : Int) (info : SocketInfo), s'.pollSet.socketInfo[fd]? = some info →
    (∃ old : SocketInfo, s.pollSet.socketInfo[fd]? = some old ∧ old.transport = info.transport) ∨
    ∃ n, info.transport = some n ∧ s.calls ≤ n ∧
      (fd ∈ s.pollSet.socketInfo → fd ∈ s'.justDeleted)
  removed : ∀ fd ∈ s.pollSet.socketInfo, fd ∉ s'.pollSet.socketInfo → fd ∈ s'.justDeleted
  calls_le : s.calls ≤ s'.calls

theorem Since.refl (h : Inv s) : Since s s where
  inv := h
  origin _ info hentry := Or.inl ⟨info, hentry, rfl⟩
  removed _ hmem hgone := absurd hmem hgone
  calls_le := Nat.le_refl _

theorem Since.onCall (h : Since s s') (call : PollCall) : Since s (s'.onCall call) where
  inv := h.inv.onCall call
  origin fd info hentry := by
    have hsubset := subset_onCall_justDeleted s' call
    rcases onCall_entry s' call hentry with ⟨mid, hmid, -, htransport⟩ | ⟨hfree, -, htransport⟩
    · rcases h.origin fd mid hmid with ⟨old, hold, hsame⟩ | ⟨n, hn, hle, hdeleted⟩
      · exact Or.inl ⟨old, hold, hsame.trans htransport.symm⟩
      · exact Or.inr ⟨n, htransport.trans hn, hle, fun hmem => hsubset (hdeleted hmem)⟩
    · exact Or.inr ⟨s'.calls, htransport, h.calls_le, fun hmem => hsubset (h.removed fd hmem hfree)⟩
  removed fd hmem hgone := by
    by_cases hmid : fd ∈ s'.pollSet.socketInfo
    · exact onCall_removed s' call hmid hgone
    · exact subset_onCall_justDeleted s' call (h.removed fd hmem hmid)
  calls_le := h.calls_le.trans (Nat.le_succ _)

theorem Since.onCalls (h : Since s s') (calls : List PollCall) :
    Since s (calls.foldl Poller.onCall s') := by
  induction calls generalizing s' with
  | nil => exact h
  | cons call calls ih => exact ih (h.onCall call)

/-! ### One turn -/

/-- A turn calls no function, or that of the entry found. -/
theorem dispatch_cases (answer : PollAnswer) (acts : Nat → List PollCall) (p : Pass) (ufd : PollFd) :
    dispatch answer acts p ufd = p ∨
    ∃ info : SocketInfo, p.poller.pollSet.socketInfo[ufd.fd]? = some info ∧
      (info.events &&& answer.revents ufd ≠ 0 ∨ answer.revents ufd &&& pollErrors ≠ 0) ∧
      (answer.revents ufd &&& pollErrors ≠ 0 → ufd.fd ∉ p.poller.justDeleted) ∧
      dispatch answer acts p ufd =
        { poller := (acts p.invoked.length).foldl Poller.onCall p.poller
          invoked := p.invoked ++ [⟨info, answer.revents ufd &&& (info.events ||| pollErrors)⟩] } := by
  by_cases hquiet : answer.revents ufd = 0
  · exact Or.inl (if_pos hquiet)
  cases hinfo : p.poller.pollSet.socketInfo[ufd.fd]? with
  | none =>
      simp only [dispatch, hinfo]
      rw [if_neg hquiet]
      exact Or.inl rfl
  | some info =>
      simp only [dispatch, hinfo]
      rw [if_neg hquiet]
      split_ifs with hready hskip
      · exact Or.inl rfl
      · exact Or.inr ⟨info, rfl, hready, fun herror hmem => hskip ⟨herror, hmem⟩, rfl⟩
      · exact Or.inl rfl

theorem dispatch_of_reused (h : Reused s answer p ufd) (acts : Nat → List PollCall) :
    ∃ info n, info.transport = some n ∧ s.calls ≤ n ∧ dispatch answer acts p ufd =
      { poller := (acts p.invoked.length).foldl Poller.onCall p.poller
        invoked := p.invoked ++ [⟨info, answer.revents ufd &&& (info.events ||| pollErrors)⟩] } := by
  obtain ⟨hnone, info, n, hinfo, hn, hle, hready⟩ := h
  refine ⟨info, n, hn, hle, ?_⟩
  have hrevents : answer.revents ufd ≠ 0 := by
    intro hzero
    rw [hzero] at hready
    exact hready (UInt32.and_zero)
  simp only [dispatch, hinfo]
  rw [if_neg hrevents, if_pos (Or.inl hready), if_neg (fun hskip => hskip.1 hnone)]

theorem within_and_left (a b : PollEvents) : Within (a &&& b) a := by
  rw [Within, UInt32.and_comm a b, UInt32.and_assoc, UInt32.and_self]

theorem within_and_right (a b : PollEvents) : Within (a &&& b) b := by
  rw [Within, UInt32.and_assoc, UInt32.and_self]

theorem Within.trans {a b c : PollEvents} (h : Within a b) (h' : Within b c) : Within a c := by
  rw [Within] at h h' ⊢
  rw [← h, UInt32.and_assoc, h']

theorem within_revents (answer : PollAnswer) (ufd : PollFd) :
    Within (answer.revents ufd) (ufd.events ||| pollErrors) := by
  cases answer with
  | failed => exact UInt32.zero_and
  | ready conditions => exact within_and_right _ _

/-- A turn that finds no number reused calls a function it may call. -/
theorem Since.faithful_dispatch (h : Since s p.poller) (hs : Inv s) {old : SocketInfo}
    (hold : s.pollSet.socketInfo[ufd.fd]? = some old) (hevents : old.events = ufd.events)
    (hfaithful : Faithful s answer p.invoked) (hreused : ¬ Reused s answer p ufd) :
    Faithful s answer (dispatch answer acts p ufd).invoked := by
  rcases dispatch_cases answer acts p ufd with hsame | ⟨info, hinfo, hready, hskip, hrun⟩
  · rw [hsame]
    exact hfaithful
  rw [hrun]
  intro i hi
  rcases List.mem_append.mp hi with hi | hi
  · exact hfaithful i hi
  obtain rfl := List.mem_singleton.mp hi
  have hfd : info.fd = ufd.fd := h.inv.keyed _ _ hinfo
  have hufd : (⟨old.fd, old.events⟩ : PollFd) = ufd := by rw [hs.keyed _ _ hold, hevents]
  rcases h.origin _ _ hinfo with ⟨old', hold', htransport⟩ | ⟨n, hn, hle, hdeleted⟩
  · cases hold.symm.trans hold'
    refine ⟨old, hfd.symm ▸ hold, htransport, ?_, ?_, within_and_right _ _⟩
    · rw [hufd]
      exact within_and_left _ _
    · rw [hevents]
      exact (within_and_left _ _).trans (within_revents answer ufd)
  · have hmem : ufd.fd ∈ s.pollSet.socketInfo := (mem_iff_exists_getElem? _ _).mpr ⟨old, hold⟩
    have hnone : answer.revents ufd &&& pollErrors = 0 := by
      by_contra herror
      exact hskip herror (hdeleted hmem)
    rcases hready with hready | herror
    · exact absurd ⟨hnone, info, n, hinfo, hn, hle, hready⟩ hreused
    · exact absurd hnone herror

/-! ### The whole loop -/

theorem createNativePollset_eq (h : Inv s) : s.createNativePollset = { s with pollSet :=
    { s.pollSet with ufds := s.pollSet.socketInfo.toList.map fun entry =>
      ⟨entry.2.fd, entry.2.events⟩ } } := by
  rw [Poller.createNativePollset, PollSet.createNativePollset, if_pos h.changed]

theorem Inv.since_start (h : Inv s) : Since s s.createNativePollset := by
  rw [createNativePollset_eq h]
  exact { Since.refl h with inv := ⟨h.keyed, h.numbered, h.changed⟩ }

/-- An entry of the array is one of the sockets tracked. -/
theorem Inv.tracked_of_mem_ufds (h : Inv s) (hmem : ufd ∈ s.ufds) :
    ∃ old : SocketInfo, s.pollSet.socketInfo[ufd.fd]? = some old ∧ old.events = ufd.events := by
  rw [ufds, createNativePollset_eq h] at hmem
  obtain ⟨entry, hentry, rfl⟩ := List.mem_map.mp hmem
  have hold := ExtTreeMap.mem_toList_iff_getElem?_eq_some.mp hentry
  refine ⟨entry.2, ?_, rfl⟩
  show s.pollSet.socketInfo[entry.2.fd]? = _
  rw [h.keyed entry.1 entry.2 hold, hold]

theorem pass_concat (s : Poller) (answer : PollAnswer) (acts : Nat → List PollCall)
    (done : List PollFd) (ufd : PollFd) :
    s.pass answer acts (done ++ [ufd]) = dispatch answer acts (s.pass answer acts done) ufd := by
  rw [pass, List.foldl_append]
  rfl

theorem Since.dispatch (h : Since s p.poller) (answer : PollAnswer) (acts : Nat → List PollCall)
    (ufd : PollFd) : Since s (Poller.dispatch answer acts p ufd).poller := by
  rcases dispatch_cases answer acts p ufd with hsame | ⟨info, -, -, -, hrun⟩
  · rw [hsame]
    exact h
  · rw [hrun]
    exact h.onCalls _

theorem Inv.since_pass (h : Inv s) (answer : PollAnswer) (acts : Nat → List PollCall)
    (done : List PollFd) : Since s (s.pass answer acts done).poller := by
  induction done using List.reverseRecOn with
  | nil => exact h.since_start
  | append_singleton done ufd ih =>
      rw [pass_concat]
      exact ih.dispatch answer acts ufd

/-- As long as no number is found reused, every call made is one that may be made. -/
theorem Inv.faithful_pass (h : Inv s) (done : List PollFd) (hmem : ∀ ufd ∈ done, ufd ∈ s.ufds)
    (hreused : ∀ before ufd after, done = before ++ ufd :: after →
      ¬ Reused s answer (s.pass answer acts before) ufd) :
    Faithful s answer (s.pass answer acts done).invoked := by
  induction done using List.reverseRecOn with
  | nil => exact fun i hi => absurd hi List.not_mem_nil
  | append_singleton done ufd ih =>
      obtain ⟨old, hold, hevents⟩ := h.tracked_of_mem_ufds (hmem ufd (by simp))
      rw [pass_concat]
      apply (h.since_pass answer acts done).faithful_dispatch h hold hevents
      · apply ih
        · exact fun ufd' hufd' => hmem ufd' (by simp [hufd'])
        · intro before ufd' after hdone
          exact hreused before ufd' (after ++ [ufd]) (by simp [hdone])
      · exact hreused done ufd [] rfl

theorem prefix_dispatch (answer : PollAnswer) (acts : Nat → List PollCall) (p : Pass)
    (ufd : PollFd) : p.invoked <+: (dispatch answer acts p ufd).invoked := by
  rcases dispatch_cases answer acts p ufd with hsame | ⟨info, -, -, -, hrun⟩
  · exact ⟨[], by rw [List.append_nil, hsame]⟩
  · rw [hrun]
    exact List.prefix_append _ _

theorem prefix_pass (answer : PollAnswer) (acts : Nat → List PollCall) (p : Pass)
    (rest : List PollFd) : p.invoked <+: (rest.foldl (dispatch answer acts) p).invoked := by
  induction rest generalizing p with
  | nil => exact List.prefix_rfl
  | cons ufd rest ih => exact (prefix_dispatch answer acts p ufd).trans (ih _)

/-- A number that is found reused makes the loop call a function that it may not call. -/
theorem Inv.not_faithful_of_reused (h : Inv s) {before after : List PollFd}
    (hreused : Reused s answer (s.pass answer acts before) ufd) :
    ¬ Faithful s answer (s.pass answer acts (before ++ ufd :: after)).invoked := by
  intro hfaithful
  obtain ⟨info, n, hn, hle, hrun⟩ := dispatch_of_reused hreused acts
  have hsplit : s.pass answer acts (before ++ ufd :: after) =
      after.foldl (Poller.dispatch answer acts) (s.pass answer acts (before ++ [ufd])) := by
    rw [pass, pass, ← List.foldl_append, List.append_assoc]
    rfl
  have hpre := prefix_pass answer acts (s.pass answer acts (before ++ [ufd])) after
  rw [pass_concat, hrun] at hpre
  rw [hsplit, pass_concat, hrun] at hfaithful
  obtain ⟨old, hold, htransport, -⟩ := hfaithful _ (hpre.subset (List.mem_append_right _
    (List.mem_singleton_self _)))
  have hlt := h.numbered _ old n hold (htransport.trans hn)
  omega

/-- `update` calls the functions that the loop calls, also where nothing is reported. -/
theorem update_invoked (s : Poller) (answer : PollAnswer) (acts : Nat → List PollCall) :
    (s.update answer acts).invoked = (s.pass answer acts s.ufds).invoked := by
  have hquiet : (∀ ufd ∈ s.ufds, answer.revents ufd = 0) →
      s.pass answer acts s.ufds = ⟨s.createNativePollset, []⟩ := by
    intro hall
    rw [pass]
    generalize s.ufds = entries at hall
    induction entries with
    | nil => rfl
    | cons ufd rest ih =>
        rw [List.foldl_cons]
        have hturn : dispatch answer acts ⟨s.createNativePollset, []⟩ ufd =
            ⟨s.createNativePollset, []⟩ := if_pos (hall ufd (by simp))
        rw [hturn]
        exact ih fun ufd' hufd' => hall ufd' (by simp [hufd'])
  cases answer with
  | failed => rw [hquiet fun _ _ => rfl, update]
  | ready conditions =>
      simp only [update]
      split_ifs with hall
      · rw [hquiet hall]
      · rfl

theorem inv_create (signalPipe : Nat) : Inv (create signalPipe) := by
  have hentry : ∀ (fd : Int) (info : SocketInfo),
      (PollSet.create signalPipe).socketInfo[fd]? = some info → info = ⟨fd, 0 ||| POLLIN, none⟩ := by
    intro fd info hinfo
    rw [PollSet.create_eq] at hinfo
    by_cases heq : fd = signalPipe
    · subst heq
      rw [ExtTreeMap.getElem?_insert_self] at hinfo
      exact (Option.some.inj hinfo).symm
    · rw [getElem?_insert_of_ne _ heq, getElem?_insert_of_ne _ heq, ExtTreeMap.getElem?_empty] at hinfo
      cases hinfo
  apply Inv.mk
  case keyed =>
    intro fd info hinfo
    rw [hentry fd info hinfo]
  case numbered =>
    intro fd info n hinfo hn
    rw [hentry fd info hinfo] at hn
    cases hn
  case changed =>
    show (PollSet.create signalPipe).socketsChanged = true
    rw [PollSet.create_eq]

theorem Inv.update (h : Inv s) (answer : PollAnswer) (acts : Nat → List PollCall) :
    Inv (s.update answer acts).poller := by
  cases answer with
  | failed => exact h.since_start.inv
  | ready conditions =>
      simp only [Poller.update]
      split_ifs
      · exact h.since_start.inv
      · have hpass := (h.since_pass (.ready conditions) acts s.ufds).inv
        exact ⟨hpass.keyed, hpass.numbered, hpass.changed⟩

theorem Inv.onEvent (h : Inv s) (e : PollerEvent) : Inv (s.onEvent e) := by
  cases e with
  | call call => exact h.onCall call
  | update answer acts => exact h.update answer acts

theorem Inv.onEvents (h : Inv s) (events : List PollerEvent) : Inv (events.foldl Poller.onEvent s) := by
  induction events generalizing s with
  | nil => exact h
  | cons e events ih => exact ih (h.onEvent e)

/-- **In every state that the set can reach, a round calls only the functions it may call, each with
events that were reported for it, exactly if at no turn the number of the entry is found reused.** -/
theorem update_faithful_iff (signalPipe : Nat) (events : List PollerEvent) (answer : PollAnswer)
    (acts : Nat → List PollCall) :
    let s := events.foldl onEvent (create signalPipe)
    Faithful s answer (s.update answer acts).invoked ↔
      ∀ before ufd after, s.ufds = before ++ ufd :: after →
        ¬ Reused s answer (s.pass answer acts before) ufd := by
  intro s
  have h : Inv s := (inv_create signalPipe).onEvents events
  rw [update_invoked]
  constructor
  · intro hfaithful before ufd after hufds hreused
    rw [hufds] at hfaithful
    exact h.not_faithful_of_reused hreused hfaithful
  · intro hreused
    exact h.faithful_pass s.ufds (fun _ hufd => hufd) hreused

/-- The sockets 5 and 6 are ready to be read. The function of the first closes the second and opens
another, which gets the number 6 and is read from as well. -/
theorem not_faithful : ¬ ∀ (signalPipe : Nat) (events : List PollerEvent) (answer : PollAnswer)
    (acts : Nat → List PollCall),
    let s := events.foldl onEvent (create signalPipe)
    Faithful s answer (s.update answer acts).invoked := by
  intro hall
  have hfaithful := hall 3 [.call (.addSocket 5), .call (.addEvents 5 POLLIN), .call (.addSocket 6),
    .call (.addEvents 6 POLLIN)] (.ready fun fd => if fd = 3 then 0 else POLLIN)
    fun i => if i = 0 then [.delSocket 6, .addSocket 6, .addEvents 6 POLLIN] else []
  have hcalled : (⟨⟨6, POLLIN, some 5⟩, POLLIN⟩ : Invocation) ∈
      [⟨⟨5, POLLIN, some 0⟩, POLLIN⟩, ⟨⟨6, POLLIN, some 5⟩, POLLIN⟩] := by decide
  obtain ⟨old, hold, htransport, -⟩ := hfaithful _ hcalled
  have hsecond : some (⟨6, POLLIN, some 2⟩ : SocketInfo) = some old := hold
  obtain rfl := Option.some.inj hsecond
  cases htransport

end Poller

end Ros2Proto
