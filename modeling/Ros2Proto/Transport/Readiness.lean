import Ros2Proto.Base.Runs
import Ros2Proto.Transport.PollSet

/-!
# Waiting to write exactly while there is something to write

The queue, the flag `expecting_write_` and the requested events of a transport say the same thing in
every state that its poll set and its owners can reach, and the next array handed to `poll` has it.
What an operation does to the three is its `WriteEffect`; the array is up to date because
`sockets_changed_` is set by the first socket and stays so.
-/

namespace Ros2Proto

open Assignment FallibleRun Std

namespace TransportTCP

/-- An open transport that waits to write exactly while messages are queued. -/
structure Armed (t : TransportTCP) : Prop where
  opened : t.closed = false
  asynchronous : t.synchronous = false
  sock : 0 ≤ t.sock
  queued : t.sendMsgs ≠ [] ↔ t.expectingWrite = true

/-- What an operation on an open transport asks of the poll set, and why. -/
inductive WriteEffect (t t' : TransportTCP) : Prop
  | quiet (armed : t'.Armed) (sock : t'.sock = t.sock) (calls : t'.pollCalls = t.pollCalls)
      (flag : t'.expectingWrite = t.expectingWrite)
  | arms (armed : t'.Armed) (sock : t'.sock = t.sock)
      (calls : t'.pollCalls = t.pollCalls ++ [.addEvents t.sock POLLOUT])
      (flag : t'.expectingWrite = true)
  | disarms (armed : t'.Armed) (sock : t'.sock = t.sock)
      (calls : t'.pollCalls = t.pollCalls ++ [.delEvents t.sock POLLOUT])
      (flag : t'.expectingWrite = false)
  | closes (closed : t'.closed = true) (calls : t'.pollCalls = t.pollCalls ++ [.delSocket t.sock])

/-- An operation that leaves a closed transport and its poll set alone. -/
def KeepsClosed (f : TransportTCP → Except Fault TransportTCP) : Prop :=
  ∀ t t', t.closed = true → f t = .ok t' → t'.closed = true ∧ t'.pollCalls = t.pollCalls

variable {t t' : TransportTCP} {msg : Message} {frame : Frame} {rest : List Message}

theorem Armed.close (h : t.Armed) (hrun : t.close = .ok t') : WriteEffect t t' := by
  rw [TransportTCP.close, h.opened, if_neg Bool.false_ne_true] at hrun
  split_ifs at hrun <;>
    exact Except.ok.inj hrun ▸ .closes rfl rfl

theorem keepsClosed_close : KeepsClosed close := by
  intro t t' hclosed hrun
  rw [close, if_pos hclosed] at hrun
  exact Except.ok.inj hrun ▸ ⟨hclosed, rfl⟩

theorem Armed.setFilter (h : t.Armed) {n : Int} (hrun : t.setFilter n = .ok t') :
    WriteEffect t t' := by
  rw [TransportTCP.setFilter] at hrun
  split_ifs at hrun
  obtain rfl := Except.ok.inj hrun
  exact .quiet ⟨h.opened, h.asynchronous, h.sock, h.queued⟩ rfl rfl rfl

theorem keepsClosed_setFilter (n : Int) : KeepsClosed fun t => t.setFilter n := by
  intro t t' hclosed hrun
  change t.setFilter n = .ok t' at hrun
  rw [TransportTCP.setFilter] at hrun
  split_ifs at hrun
  exact Except.ok.inj hrun ▸ ⟨hclosed, rfl⟩

theorem enableWrite_of_idle (h : t.Armed) (hidle : t.expectingWrite = false) :
    t.enableWrite = .ok { t with
      pollCalls := t.pollCalls ++ [.addEvents t.sock POLLOUT], expectingWrite := true } := by
  simp [enableWrite, h.asynchronous, h.opened, hidle]

theorem disableWrite_of_waiting (hopen : t.closed = false) (hasync : t.synchronous = false)
    (hwaiting : t.expectingWrite = true) : t.disableWrite = .ok { t with
      pollCalls := t.pollCalls ++ [.delEvents t.sock POLLOUT], expectingWrite := false } := by
  simp [disableWrite, hasync, hopen, hwaiting]

theorem keepsClosed_enableWrite : KeepsClosed enableWrite := by
  intro t t' hclosed hrun
  rw [enableWrite, if_pos hclosed] at hrun
  split_ifs at hrun
  exact Except.ok.inj hrun ▸ ⟨hclosed, rfl⟩

theorem keepsClosed_disableWrite : KeepsClosed disableWrite := by
  intro t t' hclosed hrun
  rw [disableWrite, if_pos hclosed] at hrun
  split_ifs at hrun
  exact Except.ok.inj hrun ▸ ⟨hclosed, rfl⟩

/-! ### Sending -/

/-- A call of `sendFrames` that returns has counted the message, and queued it or not. -/
theorem sendFrames_cases {frames : List Frame} (hrun : t.sendFrames frames = .ok t') :
    ∃ counter, t' = { t with msgCounter := counter } ∨ ∃ t₁ msg,
      (if t.sendMsgs.isEmpty then enableWrite { t with msgCounter := counter }
        else .ok { t with msgCounter := counter }) = .ok t₁ ∧
      t' = { t₁ with sendMsgs := t₁.sendMsgs ++ [msg] } := by
  refine ⟨(t.msgCounter + 1).tmod t.filter, ?_⟩
  rw [TransportTCP.sendFrames] at hrun
  by_cases hmessages : (!t.messages) = true
  · rw [if_pos hmessages] at hrun
    cases hrun
  by_cases hfilter : t.filter = 0
  · rw [if_neg hmessages, if_pos hfilter] at hrun
    cases hrun
  rw [if_neg hmessages, if_neg hfilter] at hrun
  by_cases hskip : (t.msgCounter + 1).tmod t.filter ≠ 0
  · simp only [if_pos hskip] at hrun
    exact Or.inl (Except.ok.inj hrun).symm
  · simp only [if_neg hskip] at hrun
    split at hrun
    · cases hrun
    · split_ifs at hrun ⊢
      · obtain ⟨t₁, henable, hlast⟩ := bind_eq_ok_iff.mp hrun
        exact Or.inr ⟨t₁, _, henable, (Except.ok.inj hlast).symm⟩
      · obtain ⟨t₁, henable, hlast⟩ := bind_eq_ok_iff.mp hrun
        exact Or.inr ⟨t₁, _, henable, (Except.ok.inj hlast).symm⟩

theorem Armed.sendFrames (h : t.Armed) {frames : List Frame} (hrun : t.sendFrames frames = .ok t') :
    WriteEffect t t' := by
  obtain ⟨counter, rfl | ⟨t₁, msg, henable, rfl⟩⟩ := sendFrames_cases hrun
  · exact .quiet ⟨h.opened, h.asynchronous, h.sock, h.queued⟩ rfl rfl rfl
  · by_cases hempty : t.sendMsgs = []
    · have hidle : t.expectingWrite = false := by
        rw [← Bool.not_eq_true, ← h.queued, not_not]
        exact hempty
      have hcounted : Armed { t with msgCounter := counter } :=
        ⟨h.opened, h.asynchronous, h.sock, h.queued⟩
      rw [if_pos (List.isEmpty_iff.mpr hempty), enableWrite_of_idle hcounted hidle] at henable
      obtain rfl := Except.ok.inj henable
      exact .arms ⟨h.opened, h.asynchronous, h.sock, iff_of_true (by simp) rfl⟩ rfl rfl rfl
    · rw [if_neg (mt List.isEmpty_iff.mp hempty)] at henable
      obtain rfl := Except.ok.inj henable
      exact .quiet ⟨h.opened, h.asynchronous, h.sock,
        iff_of_true (by simp) (h.queued.mp hempty)⟩ rfl rfl rfl

theorem keepsClosed_sendFrames (frames : List Frame) : KeepsClosed fun t => t.sendFrames frames := by
  intro t t' hclosed hrun
  obtain ⟨counter, rfl | ⟨t₁, msg, henable, rfl⟩⟩ := sendFrames_cases hrun
  · exact ⟨hclosed, rfl⟩
  · split_ifs at henable
    · exact keepsClosed_enableWrite { t with msgCounter := counter } t₁ hclosed henable
    · obtain rfl := Except.ok.inj henable
      exact ⟨hclosed, rfl⟩

/-! ### Writing -/

/-- A `write` that returns has failed and closed, or is accepted in part. -/
theorem write_cases {send : Send} {buffer : List UInt8} {size : UInt32} {n : Int}
    (hrun : t.write send buffer size = .ok (n, t')) :
    (n = -1 ∧ t.close = .ok t') ∨ (0 ≤ n ∧ ∃ sent, t' = { t with sent := sent }) := by
  rw [write] at hrun
  split_ifs at hrun with hclosed
  · cases hrun
    exact Or.inl ⟨rfl, if_pos hclosed⟩
  · split at hrun
    · cases hrun
      exact Or.inr ⟨Int.natCast_nonneg _, _, rfl⟩
    · obtain ⟨t₁, hclose, heq⟩ := map_eq_ok_iff.mp hrun
      cases heq
      exact Or.inl ⟨rfl, hclose⟩

/-- A `write` on an open transport is accepted in part, or it fails and closes. -/
theorem Armed.write_cases (h : t.Armed) {send : Send} {buffer : List UInt8} {size : UInt32} {n : Int}
    (hrun : t.write send buffer size = .ok (n, t')) :
    (0 ≤ n ∧ ∃ sent, t' = { t with sent := sent }) ∨ (n = -1 ∧ t'.closed = true ∧
      t'.pollCalls = t.pollCalls ++ [.delSocket t.sock]) := by
  rcases TransportTCP.write_cases hrun with ⟨hn, hclose⟩ | haccepted
  · have hopen : ¬ t.closed = true := Bool.eq_false_iff.mp h.opened
    rw [TransportTCP.close, if_neg hopen] at hclose
    split_ifs at hclose <;> exact Or.inr (Except.ok.inj hclose ▸ ⟨hn, rfl, rfl⟩)
  · exact Or.inl haccepted

/-- The end of a frame, where no write has failed. -/
theorem Armed.finishFrame (h : t.Armed) (hwaiting : t.expectingWrite = true)
    (hrun : t.finishFrame msg frame rest = .ok t') : WriteEffect t t' := by
  have hqueue : ∀ msg : Message, WriteEffect t { t with sendMsgs := msg :: rest } := fun msg =>
    .quiet ⟨h.opened, h.asynchronous, h.sock, iff_of_true (List.cons_ne_nil _ _) hwaiting⟩ rfl rfl rfl
  rw [TransportTCP.finishFrame] at hrun
  dsimp only at hrun
  split_ifs at hrun with hfilled hframes hlast
  · split at hrun
    · cases hrun
    · exact Except.ok.inj hrun ▸ hqueue _
  · rw [disableWrite_of_waiting (t := { t with sendMsgs := rest }) h.opened h.asynchronous hwaiting]
      at hrun
    obtain rfl := Except.ok.inj hrun
    have hempty : rest = [] := List.length_eq_zero_iff.mp hlast
    exact .disarms ⟨h.opened, h.asynchronous, h.sock,
      iff_of_false (not_not.mpr hempty) Bool.false_ne_true⟩ rfl rfl rfl
  · obtain rfl := Except.ok.inj hrun
    have hmore : rest ≠ [] := fun hempty => hlast (List.length_eq_zero_iff.mpr hempty)
    exact .quiet ⟨h.opened, h.asynchronous, h.sock, iff_of_true hmore hwaiting⟩ rfl rfl rfl
  · exact Except.ok.inj hrun ▸ hqueue _

/-- The end of a frame behind a write that failed: the transport is closed already. -/
theorem keepsClosed_finishFrame : KeepsClosed fun t => t.finishFrame msg frame rest := by
  intro t t' hclosed hrun
  change t.finishFrame msg frame rest = .ok t' at hrun
  rw [TransportTCP.finishFrame] at hrun
  dsimp only at hrun
  split_ifs at hrun
  · split at hrun
    · cases hrun
    · exact Except.ok.inj hrun ▸ ⟨hclosed, rfl⟩
  · exact keepsClosed_disableWrite { t with sendMsgs := rest } t' hclosed hrun
  · exact Except.ok.inj hrun ▸ ⟨hclosed, rfl⟩
  · exact Except.ok.inj hrun ▸ ⟨hclosed, rfl⟩

/-- The end of a frame behind a `write` that returned. -/
theorem Armed.finishFrame_of_write (h : t.Armed) (hwaiting : t.expectingWrite = true)
    {send : Send} {buffer : List UInt8} {size : UInt32} {n : Int} {t₁ : TransportTCP}
    (hwrite : t.write send buffer size = .ok (n, t₁))
    (hrun : t₁.finishFrame msg frame rest = .ok t') : WriteEffect t t' := by
  rcases h.write_cases hwrite with ⟨-, sent, rfl⟩ | ⟨-, hclosed, hcalls⟩
  · have harmed : Armed { t with sent := sent } := ⟨h.opened, h.asynchronous, h.sock, h.queued⟩
    cases harmed.finishFrame hwaiting hrun with
    | quiet armed sock calls flag => exact .quiet armed sock calls flag
    | arms armed sock calls flag => exact .arms armed sock calls flag
    | disarms armed sock calls flag => exact .disarms armed sock calls flag
    | closes closed calls => exact .closes closed calls
  · obtain ⟨hclosed', hcalls'⟩ := keepsClosed_finishFrame _ _ hclosed hrun
    exact .closes hclosed' (hcalls'.trans hcalls)

theorem closes_of_close {t₁ : TransportTCP} (hclosed : t₁.closed = true)
    (hcalls : t₁.pollCalls = t.pollCalls ++ [.delSocket t.sock]) (hrun : t₁.close = .ok t') :
    WriteEffect t t' := by
  obtain ⟨hclosed', hcalls'⟩ := keepsClosed_close _ _ hclosed hrun
  exact .closes hclosed' (hcalls'.trans hcalls)

/-- What a `writeFrame` that returns has done: the frame was complete but for its end, or a `write` returned,
and then the frame may end or, if it failed, the transport closes. -/
theorem writeFrame_cases {send : Send} (hrun : t.writeFrame send msg rest = .ok t') :
    (∃ frame, t.finishFrame msg frame rest = .ok t') ∨
      ∃ buffer size n t₁, t.write send buffer size = .ok (n, t₁) ∧
        ((∃ msg' frame, t₁.finishFrame msg' frame rest = .ok t') ∨ n < 0 ∧ t₁.close = .ok t') := by
  rw [TransportTCP.writeFrame] at hrun
  split at hrun
  · cases hrun
  · rename_i frame _
    dsimp only at hrun
    split_ifs at hrun
    · obtain ⟨⟨n, t₁⟩, hwrite, hrest⟩ := bind_eq_ok_iff.mp hrun
      refine Or.inr ⟨_, _, n, t₁, hwrite, ?_⟩
      by_cases hsent : 0 ≤ n
      · exact Or.inl ⟨_, frame, (if_pos hsent).symm.trans hrest⟩
      · exact Or.inr ⟨Int.not_le.mp hsent, (if_neg hsent).symm.trans hrest⟩
    · obtain ⟨⟨n, t₁⟩, hwrite, hrest⟩ := bind_eq_ok_iff.mp hrun
      have hsent : 0 ≤ wrapU32 n := UInt32.le_iff_toNat_le.mpr (Nat.zero_le _)
      exact Or.inr ⟨_, _, n, t₁, hwrite, Or.inl ⟨_, frame, (if_pos hsent).symm.trans hrest⟩⟩
    · exact Or.inl ⟨frame, hrun⟩

theorem writeMessage_cases {send : Send} (hrun : t.writeMessage send = .ok t') :
    ∃ msg rest, t.sendMsgs = msg :: rest ∧ (t.writeFrame send msg rest = .ok t' ∨
      ∃ buffer size n t₁, t.write send buffer size = .ok (n, t₁) ∧
        (0 ≤ n ∧ (∃ msg', t' = { t₁ with sendMsgs := msg' :: rest }) ∨ n < 0 ∧ t₁.close = .ok t')) := by
  rw [TransportTCP.writeMessage] at hrun
  split at hrun
  · cases hrun
  · rename_i msg rest hqueue
    refine ⟨msg, rest, hqueue, ?_⟩
    split_ifs at hrun
    · obtain ⟨⟨n, t₁⟩, hwrite, hrest⟩ := bind_eq_ok_iff.mp hrun
      refine Or.inr ⟨_, _, n, t₁, hwrite, ?_⟩
      by_cases hsent : 0 ≤ n
      · exact Or.inl ⟨hsent, _, (Except.ok.inj ((if_pos hsent).symm.trans hrest)).symm⟩
      · exact Or.inr ⟨Int.not_le.mp hsent, (if_neg hsent).symm.trans hrest⟩
    · exact Or.inl hrun

/-- A `write` that failed has closed the transport before the caller does. -/
theorem Armed.closes_of_write (h : t.Armed) {send : Send} {buffer : List UInt8} {size : UInt32} {n : Int}
    {t₁ : TransportTCP} (hwrite : t.write send buffer size = .ok (n, t₁)) (hfail : n < 0)
    (hrun : t₁.close = .ok t') : WriteEffect t t' := by
  rcases h.write_cases hwrite with ⟨hn, -⟩ | ⟨-, hclosed, hcalls⟩
  · omega
  · exact closes_of_close hclosed hcalls hrun

theorem Armed.writeFrame (h : t.Armed) (hwaiting : t.expectingWrite = true) {send : Send}
    (hrun : t.writeFrame send msg rest = .ok t') : WriteEffect t t' := by
  rcases writeFrame_cases hrun with ⟨frame, hend⟩ | ⟨buffer, size, n, t₁, hwrite, hrest⟩
  · exact h.finishFrame hwaiting hend
  · rcases hrest with ⟨msg', frame, hend⟩ | ⟨hfail, hclose⟩
    · exact h.finishFrame_of_write hwaiting hwrite hend
    · exact h.closes_of_write hwrite hfail hclose

theorem Armed.writeMessage (h : t.Armed) {send : Send} (hrun : t.writeMessage send = .ok t') :
    WriteEffect t t' := by
  obtain ⟨msg, rest, hqueue, hframe | ⟨buffer, size, n, t₁, hwrite, hrest⟩⟩ := writeMessage_cases hrun
  all_goals have hwaiting : t.expectingWrite = true := h.queued.mp (hqueue ▸ List.cons_ne_nil _ _)
  · exact h.writeFrame hwaiting hframe
  · rcases hrest with ⟨hn, msg', rfl⟩ | ⟨hfail, hclose⟩
    · rcases h.write_cases hwrite with ⟨-, sent, rfl⟩ | ⟨hfail, -⟩
      · exact .quiet ⟨h.opened, h.asynchronous, h.sock,
          iff_of_true (List.cons_ne_nil _ _) hwaiting⟩ rfl rfl rfl
      · omega
    · exact h.closes_of_write hwrite hfail hclose

/-- A writability event: `writeMessage` if the transport waits to write, else nothing. -/
theorem socketUpdate_writable (send : Send) : t.socketUpdate POLLOUT (.give []) send =
    if t.closed then .ok t
    else if t.expectingWrite ∧ t.writeCb then t.writeMessage send else .ok t := by
  have hin : ¬ POLLOUT &&& POLLIN ≠ 0 := by decide
  have hout : POLLOUT &&& POLLOUT ≠ 0 := by decide
  have herr : ¬ (POLLOUT &&& POLLERR ≠ 0 ∨ POLLOUT &&& POLLHUP ≠ 0 ∨ POLLOUT &&& POLLNVAL ≠ 0) := by
    decide
  rw [socketUpdate]
  simp only [hin, hout, herr, false_and, ne_eq, not_false_eq_true, true_and, if_false, bind,
    Except.bind]
  split_ifs
  · rfl
  · cases t.writeMessage send <;> rfl
  · rfl

theorem Armed.writable (h : t.Armed) {send : Send}
    (hrun : t.socketUpdate POLLOUT (.give []) send = .ok t') : WriteEffect t t' := by
  rw [socketUpdate_writable, h.opened, if_neg Bool.false_ne_true] at hrun
  split_ifs at hrun
  · exact h.writeMessage hrun
  · obtain rfl := Except.ok.inj hrun
    exact .quiet h rfl rfl rfl

theorem keepsClosed_writable (send : Send) :
    KeepsClosed fun t => t.socketUpdate POLLOUT (.give []) send := by
  intro t t' hclosed hrun
  change t.socketUpdate POLLOUT (.give []) send = .ok t' at hrun
  rw [socketUpdate_writable, if_pos hclosed] at hrun
  exact Except.ok.inj hrun ▸ ⟨hclosed, rfl⟩

/-! ### The `ROS_BREAK` of `writeMessage` -/

theorem close_ne_rosBreak : t.close ≠ .error .rosBreak := by
  rw [close]
  split_ifs <;>
    · intro hrun
      cases hrun

theorem disableWrite_ne_rosBreak : t.disableWrite ≠ .error .rosBreak := by
  rw [disableWrite]
  split_ifs <;> exact nofun

theorem write_ne_rosBreak {send : Send} {buffer : List UInt8} {size : UInt32} :
    t.write send buffer size ≠ .error .rosBreak := by
  have hclose : t.close.map (fun t => ((-1 : Int), t)) ≠ .error .rosBreak := by
    intro hmap
    cases hrun : t.close with
    | error f =>
        rw [hrun] at hmap
        exact close_ne_rosBreak (hrun.trans (congrArg Except.error (Except.error.inj hmap)))
    | ok t₁ =>
        rw [hrun] at hmap
        cases hmap
  rw [write]
  split_ifs
  · exact nofun
  · exact nofun
  · exact nofun
  · split
    · exact nofun
    · exact hclose

theorem finishFrame_ne_rosBreak : t.finishFrame msg frame rest ≠ .error .rosBreak := by
  rw [finishFrame]
  dsimp only
  split_ifs
  · split <;> exact nofun
  · exact disableWrite_ne_rosBreak
  · exact nofun
  · exact nofun

/-- With a message queued, `writeMessage` passes its check. -/
theorem writeMessage_ne_rosBreak (h : t.sendMsgs ≠ []) (send : Send) :
    t.writeMessage send ≠ .error .rosBreak := by
  intro hrun
  rw [writeMessage] at hrun
  split at hrun
  · rename_i hempty
    exact h hempty
  · split_ifs at hrun
    · rcases bind_eq_error_iff.mp hrun with hwrite | ⟨⟨n, t₁⟩, -, hrest⟩
      · exact write_ne_rosBreak hwrite
      · dsimp only at hrest
        split_ifs at hrest
        exact close_ne_rosBreak hrest
    · rw [writeFrame] at hrun
      split at hrun
      · cases hrun
      · dsimp only at hrun
        split_ifs at hrun
        · rcases bind_eq_error_iff.mp hrun with hwrite | ⟨⟨n, t₁⟩, -, hrest⟩
          · exact write_ne_rosBreak hwrite
          · dsimp only at hrest
            split_ifs at hrest
            · exact finishFrame_ne_rosBreak hrest
            · exact close_ne_rosBreak hrest
        · rcases bind_eq_error_iff.mp hrun with hwrite | ⟨⟨n, t₁⟩, -, hrest⟩
          · exact write_ne_rosBreak hwrite
          · dsimp only at hrest
            split_ifs at hrest
            · exact finishFrame_ne_rosBreak hrest
            · exact close_ne_rosBreak hrest
        · exact finishFrame_ne_rosBreak hrun

end TransportTCP

namespace PollSet

variable {p : PollSet} {fd sock : Int} {info : SocketInfo}

/-! ### One call on the poll set -/

theorem addSocket_of_new (h : p.socketInfo[fd]? = none) (transport : Option Nat) :
    p.addSocket fd transport = { p with
      socketInfo := p.socketInfo.insert fd ⟨fd, 0, transport⟩, socketsChanged := true } := by
  rw [addSocket, if_neg]
  rw [mem_iff_exists_getElem?, h]
  exact nofun

theorem delSocket_of_tracked (hfd : 0 ≤ fd) (h : p.socketInfo[fd]? = some info) :
    p.delSocket fd = { p with
      socketInfo := p.socketInfo.erase fd, socketsChanged := true } := by
  rw [delSocket, if_neg (by omega), if_pos]
  rw [mem_iff_exists_getElem?]
  exact ⟨info, h⟩

theorem addEvents_of_tracked (h : p.socketInfo[fd]? = some info) (events : PollEvents) :
    p.addEvents fd events = { p with
      socketInfo := p.socketInfo.insert fd { info with events := info.events ||| events } } := by
  rw [addEvents, h]

theorem delEvents_of_tracked (h : p.socketInfo[fd]? = some info) (events : PollEvents) :
    p.delEvents fd events = { p with
      socketInfo := p.socketInfo.insert fd { info with events := info.events &&& ~~~events } } := by
  rw [delEvents, h]

theorem create_eq (signalPipe : Nat) : create signalPipe =
    { socketInfo := ((∅ : ExtTreeMap Int SocketInfo compare).insert (signalPipe : Int)
        ⟨signalPipe, 0, none⟩).insert (signalPipe : Int) ⟨signalPipe, 0 ||| POLLIN, none⟩
      socketsChanged := true
      ufds := []
      signalPipe := signalPipe } := by
  have hentry : ((∅ : ExtTreeMap Int SocketInfo compare).insert (signalPipe : Int)
      ⟨signalPipe, 0, none⟩)[(signalPipe : Int)]? = some ⟨signalPipe, 0, none⟩ :=
    ExtTreeMap.getElem?_insert_self
  rw [create, addSocket_of_new ExtTreeMap.getElem?_empty, addEvents_of_tracked hentry]

end PollSet

namespace Polling

/-! ### The poll set and its transports -/

/-- Every tracked socket but the set's own pipe is that of an open transport, and each open transport
is tracked for itself and asks for `POLLOUT` as its flag says. -/
structure Inv (s : Polling) : Prop where
  changed : s.pollSet.socketsChanged = true
  tracked : ∀ fd info, s.pollSet.socketInfo[fd]? = some info → info.fd = fd ∧
    (fd ≠ s.pollSet.signalPipe →
      ∃ (i : Nat) (t : TransportTCP), s.transports[i]? = some t ∧ t.closed = false ∧ t.sock = fd)
  armed : ∀ (i : Nat) (t : TransportTCP), s.transports[i]? = some t → t.closed = false → t.Armed ∧
    t.sock ≠ s.pollSet.signalPipe ∧ ∃ info, s.pollSet.socketInfo[t.sock]? = some info ∧
      info.transport = some i ∧ (info.events &&& POLLOUT = POLLOUT ↔ t.expectingWrite = true)

variable {s s' : Polling} {i : Nat} {t t' : TransportTCP} {info : SocketInfo}

/-- No two open transports have one socket. -/
theorem Inv.sock_unique (h : s.Inv) {j : Nat} {u : TransportTCP} (hi : s.transports[i]? = some t)
    (hopen : t.closed = false) (hj : s.transports[j]? = some u) (hopen' : u.closed = false)
    (hsock : t.sock = u.sock) : i = j := by
  obtain ⟨-, -, info, hinfo, howner, -⟩ := h.armed i t hi hopen
  obtain ⟨-, -, info', hinfo', howner', -⟩ := h.armed j u hj hopen'
  rw [← hsock, hinfo] at hinfo'
  obtain rfl := Option.some.inj hinfo'
  exact Option.some.inj (howner.symm.trans howner')

/-- The transport at `i` and the entry of its socket change, and nothing else. -/
theorem Inv.set (h : s.Inv) (hi : s.transports[i]? = some t) {p : PollSet}
    (hchanged : p.socketsChanged = true) (hpipe : p.signalPipe = s.pollSet.signalPipe)
    (hothers : ∀ fd, ¬ (t.closed = false ∧ fd = t.sock) →
      p.socketInfo[fd]? = s.pollSet.socketInfo[fd]?)
    (hopens : t'.closed = false → t.closed = false ∧ t'.Armed ∧ t'.sock = t.sock ∧
      ∃ info, p.socketInfo[t.sock]? = some info ∧ info.fd = t.sock ∧ info.transport = some i ∧
        (info.events &&& POLLOUT = POLLOUT ↔ t'.expectingWrite = true))
    (hcloses : t.closed = false → t'.closed = true → p.socketInfo[t.sock]? = none) :
    Inv { transports := s.transports.set i t', pollSet := p } := by
  constructor
  · exact hchanged
  · intro fd info hfd
    change p.socketInfo[fd]? = some info at hfd
    by_cases hown : t.closed = false ∧ fd = t.sock
    · obtain ⟨hopen, rfl⟩ := hown
      cases hclosed' : t'.closed with
      | true =>
          rw [hcloses hopen hclosed'] at hfd
          cases hfd
      | false =>
          obtain ⟨-, -, hsock, info', hinfo', hsame, -⟩ := hopens hclosed'
          obtain rfl := Option.some.inj (hinfo'.symm.trans hfd)
          exact ⟨hsame, fun _ => ⟨i, t', getElem?_set_place hi t', hclosed', hsock⟩⟩
    · rw [hothers fd hown] at hfd
      obtain ⟨hsame, howned⟩ := h.tracked fd info hfd
      refine ⟨hsame, fun hne => ?_⟩
      obtain ⟨j, u, hj, hopen, hu⟩ := howned (hpipe ▸ hne)
      have hij : i ≠ j := by
        rintro rfl
        obtain rfl := Option.some.inj (hi.symm.trans hj)
        exact hown ⟨hopen, hu.symm⟩
      exact ⟨j, u, (List.getElem?_set_ne hij).trans hj, hopen, hu⟩
  · intro j u hj hopen
    change (s.transports.set i t')[j]? = some u at hj
    show u.Armed ∧ u.sock ≠ p.signalPipe ∧ _
    rw [hpipe]
    rcases getElem?_set_cases hj with ⟨rfl, rfl⟩ | ⟨hji, hj⟩
    · obtain ⟨hopen', harmed, hsock, info, hinfo, -, howner, hevents⟩ := hopens hopen
      obtain ⟨-, hne, -⟩ := h.armed _ t hi hopen'
      rw [hsock]
      exact ⟨harmed, hne, info, hinfo, howner, hevents⟩
    · obtain ⟨harmed, hne, info, hinfo, hrest⟩ := h.armed j u hj hopen
      refine ⟨harmed, hne, info, ?_, hrest⟩
      rw [← hinfo]
      exact hothers u.sock fun hown => hji (h.sock_unique hi hown.1 hj hopen hown.2.symm).symm

/-- An open transport goes on, with `events` requested for its socket. -/
theorem Inv.replace (h : s.Inv) (hi : s.transports[i]? = some t) (hopen : t.closed = false)
    (hinfo : s.pollSet.socketInfo[t.sock]? = some info) (harmed : t'.Armed)
    (hsock : t'.sock = t.sock) {events : PollEvents}
    (hevents : events &&& POLLOUT = POLLOUT ↔ t'.expectingWrite = true) :
    Inv { transports := s.transports.set i t'
          pollSet := { s.pollSet with
            socketInfo := s.pollSet.socketInfo.insert t.sock { info with events := events } } } := by
  obtain ⟨-, -, info', hinfo', howner, -⟩ := h.armed i t hi hopen
  obtain rfl := Option.some.inj (hinfo.symm.trans hinfo')
  apply h.set hi
  · exact h.changed
  · rfl
  · intro fd hother
    exact getElem?_insert_of_ne _ (fun heq => hother ⟨hopen, heq⟩) _
  · intro _
    exact ⟨hopen, harmed, hsock, { info with events := events }, ExtTreeMap.getElem?_insert_self,
      (h.tracked _ _ hinfo).1, howner, hevents⟩
  · intro _ hclosed
    rw [harmed.opened] at hclosed
    cases hclosed

/-! ### Steps -/

/-- The operation keeps closed transports closed, and of an open one it has a `WriteEffect`. -/
structure Behaves (f : TransportTCP → Except Fault TransportTCP) : Prop where
  closed : TransportTCP.KeepsClosed f
  armed : ∀ t t', t.Armed → f t = .ok t' → t.WriteEffect t'

theorem Inv.update (h : s.Inv) {f : TransportTCP → Except Fault TransportTCP} (hf : Behaves f)
    (hrun : s.update i f = .ok s') : s'.Inv := by
  rw [Polling.update] at hrun
  split at hrun
  · exact Except.ok.inj hrun ▸ h
  rename_i t hi
  obtain ⟨t', hstep, hlast⟩ := bind_eq_ok_iff.mp hrun
  obtain rfl := Except.ok.inj hlast
  cases hclosed : t.closed with
  | true =>
      obtain ⟨hclosed', hcalls⟩ := hf.closed t t' hclosed hstep
      rw [hcalls, List.drop_length]
      apply h.set hi
      · exact h.changed
      · rfl
      · intro fd _
        rfl
      · intro hopen'
        rw [hclosed'] at hopen'
        cases hopen'
      · intro hopen
        rw [hclosed] at hopen
        cases hopen
  | false =>
      obtain ⟨harmed, hpipe, info, hinfo, howner, hevents⟩ := h.armed i t hi hclosed
      cases hf.armed t t' harmed hstep with
      | quiet harmed' hsock hcalls hflag =>
          have hsame := h.replace hi hclosed hinfo harmed' hsock (hflag ▸ hevents)
          rw [insert_eq_self hinfo] at hsame
          rw [hcalls, List.drop_length]
          exact hsame
      | arms harmed' hsock hcalls hflag =>
          rw [hcalls, List.drop_left]
          show Inv ⟨s.pollSet.addEvents t.sock POLLOUT, _⟩
          rw [PollSet.addEvents_of_tracked hinfo]
          apply h.replace hi hclosed hinfo harmed' hsock
          exact iff_of_true (PollSet.or_and_right_self _ _) hflag
      | disarms harmed' hsock hcalls hflag =>
          rw [hcalls, List.drop_left]
          show Inv ⟨s.pollSet.delEvents t.sock POLLOUT, _⟩
          rw [PollSet.delEvents_of_tracked hinfo]
          apply h.replace hi hclosed hinfo harmed' hsock
          rw [PollSet.and_not_and_self, hflag]
          exact iff_of_false (by decide) Bool.false_ne_true
      | closes hclosed' hcalls =>
          rw [hcalls, List.drop_left]
          show Inv ⟨s.pollSet.delSocket t.sock, _⟩
          rw [PollSet.delSocket_of_tracked harmed.sock hinfo]
          apply h.set hi
          · rfl
          · rfl
          · intro fd hother
            exact getElem?_erase_of_ne _ fun heq => hother ⟨hclosed, heq⟩
          · intro hopen'
            rw [hclosed'] at hopen'
            cases hopen'
          · intro _ _
            exact ExtTreeMap.getElem?_erase_self

theorem armed_passing (sock : Nat) (uninit : Message) (heap : Nat → UInt8) :
    (TransportTCP.passing sock uninit heap).Armed :=
  ⟨rfl, rfl, Int.natCast_nonneg sock, iff_of_false (fun hne => hne rfl) Bool.false_ne_true⟩

theorem Inv.connect (h : s.Inv) {sock : Nat} (hunused : s.Unused sock) (uninit : Message)
    (heap : Nat → UInt8) : (s.connect (.passing sock uninit heap)).Inv := by
  have hnew : s.pollSet.socketInfo[(sock : Int)]? = none := by
    cases hfd : s.pollSet.socketInfo[(sock : Int)]? with
    | none => rfl
    | some info =>
        obtain ⟨j, u, hj, hopen, hu⟩ := (h.tracked _ _ hfd).2 hunused.1
        exact absurd hu (hunused.2 u (List.mem_of_getElem? hj) hopen)
  have hpolls : (s.connect (.passing sock uninit heap)).pollSet = { s.pollSet with
      socketInfo := (s.pollSet.socketInfo.insert (sock : Int) ⟨sock, 0, some s.transports.length⟩).insert
        (sock : Int) ⟨sock, 0 ||| POLLIN, some s.transports.length⟩
      socketsChanged := true } := by
    show (s.pollSet.addSocket sock (some s.transports.length)).addEvents sock POLLIN = _
    have hentry : (s.pollSet.socketInfo.insert (sock : Int) ⟨sock, 0, some s.transports.length⟩)[
        (sock : Int)]? = some ⟨sock, 0, some s.transports.length⟩ := ExtTreeMap.getElem?_insert_self
    rw [PollSet.addSocket_of_new hnew, PollSet.addEvents_of_tracked hentry]
  have hother : ∀ fd, fd ≠ (sock : Int) →
      (s.connect (.passing sock uninit heap)).pollSet.socketInfo[fd]? = s.pollSet.socketInfo[fd]? := by
    intro fd hne
    rw [hpolls]
    exact (getElem?_insert_of_ne _ hne _).trans (getElem?_insert_of_ne _ hne _)
  have hself : (s.connect (.passing sock uninit heap)).pollSet.socketInfo[(sock : Int)]? =
      some ⟨sock, 0 ||| POLLIN, some s.transports.length⟩ := by
    rw [hpolls]
    exact ExtTreeMap.getElem?_insert_self
  have hpipe : (s.connect (.passing sock uninit heap)).pollSet.signalPipe = s.pollSet.signalPipe := by
    rw [hpolls]
  have hold : ∀ (j : Nat) (u : TransportTCP), s.transports[j]? = some u →
      (s.connect (.passing sock uninit heap)).transports[j]? = some u := by
    intro j u hj
    obtain ⟨hlt, -⟩ := List.getElem?_eq_some_iff.mp hj
    exact (List.getElem?_append_left hlt).trans hj
  constructor
  · rw [hpolls]
  · intro fd info hfd
    rw [hpipe]
    by_cases heq : fd = sock
    · subst heq
      obtain rfl := Option.some.inj (hself.symm.trans hfd)
      exact ⟨rfl, fun _ => ⟨s.transports.length, _, List.getElem?_concat_length, rfl, rfl⟩⟩
    · rw [hother fd heq] at hfd
      obtain ⟨hsame, howned⟩ := h.tracked fd info hfd
      refine ⟨hsame, fun hne => ?_⟩
      obtain ⟨j, u, hj, hopen, hu⟩ := howned hne
      exact ⟨j, u, hold j u hj, hopen, hu⟩
  · intro j u hj hopen
    rw [hpipe]
    rcases lt_or_ge j s.transports.length with hlt | hge
    · have hj' : s.transports[j]? = some u := (List.getElem?_append_left hlt).symm.trans hj
      obtain ⟨harmed, hne, info, hinfo, hrest⟩ := h.armed j u hj' hopen
      have hsock := hunused.2 u (List.mem_of_getElem? hj') hopen
      exact ⟨harmed, hne, info, (hother _ hsock).trans hinfo, hrest⟩
    · obtain ⟨hlt, -⟩ := List.getElem?_eq_some_iff.mp hj
      have hindex : j = s.transports.length := by
        have hlength : (s.connect (.passing sock uninit heap)).transports.length =
            s.transports.length + 1 := List.length_append
        omega
      subst hindex
      obtain rfl := Option.some.inj (List.getElem?_concat_length.symm.trans hj)
      have hread : ¬ (0 ||| POLLIN) &&& POLLOUT = POLLOUT := by decide
      exact ⟨armed_passing sock uninit heap, hunused.1, _, hself, rfl,
        iff_of_false hread Bool.false_ne_true⟩

theorem inv_create (signalPipe : Nat) : (create signalPipe).Inv := by
  rw [create, PollSet.create_eq]
  constructor
  · rfl
  · intro fd info hfd
    by_cases heq : fd = signalPipe
    · subst heq
      rw [ExtTreeMap.getElem?_insert_self] at hfd
      obtain rfl := Option.some.inj hfd
      exact ⟨rfl, fun hne => absurd rfl hne⟩
    · rw [getElem?_insert_of_ne _ heq, getElem?_insert_of_ne _ heq, ExtTreeMap.getElem?_empty] at hfd
      cases hfd
  · intro i t hi
    cases hi

theorem Inv.poll (h : s.Inv) : Inv { s with pollSet := s.pollSet.createNativePollset } := by
  rw [PollSet.createNativePollset, if_pos h.changed]
  exact ⟨h.changed, h.tracked, h.armed⟩

theorem Inv.step (h : s.Inv) {e : PollingEvent} (hrun : s.onEvent e = .ok s') : s'.Inv := by
  cases e with
  | connect sock uninit heap =>
      rw [onEvent] at hrun
      split_ifs at hrun with hunused
      · exact Except.ok.inj hrun ▸ h.connect hunused uninit heap
      · exact Except.ok.inj hrun ▸ h
  | setFilter i filterNum =>
      exact h.update ⟨TransportTCP.keepsClosed_setFilter filterNum,
        fun t t' harmed hstep => harmed.setFilter hstep⟩ hrun
  | sendFrames i frames =>
      exact h.update ⟨TransportTCP.keepsClosed_sendFrames frames,
        fun t t' harmed hstep => harmed.sendFrames hstep⟩ hrun
  | writable i send =>
      exact h.update ⟨TransportTCP.keepsClosed_writable send,
        fun t t' harmed hstep => harmed.writable hstep⟩ hrun
  | close i =>
      exact h.update ⟨TransportTCP.keepsClosed_close,
        fun t t' harmed hstep => harmed.close hstep⟩ hrun
  | poll => exact Except.ok.inj hrun ▸ h.poll

/-- What waiting to write exactly while there is something to write means. -/
structure WriteReady (s : Polling) : Prop where
  armed : ∀ (i : Nat) (t : TransportTCP), s.transports[i]? = some t → t.closed = false →
    (t.sendMsgs ≠ [] ↔ t.expectingWrite = true) ∧
      (t.expectingWrite = true ↔ s.pollSet.Requests t.sock POLLOUT)
  array : s.pollSet.createNativePollset.ufds =
    s.pollSet.socketInfo.toList.map fun entry => ⟨entry.1, entry.2.events⟩
  tracked : ∀ (i : Nat) (t : TransportTCP), s.transports[i]? = some t → t.closed = false →
    ∃ info, s.pollSet.socketInfo[t.sock]? = some info ∧ info.transport = some i
  noBreak : ∀ i send, s.onEvent (.writable i send) ≠ .error .rosBreak

theorem Inv.noBreak (h : s.Inv) (i : Nat) (send : Send) :
    s.onEvent (.writable i send) ≠ .error .rosBreak := by
  intro hrun
  change s.update i _ = _ at hrun
  rw [Polling.update] at hrun
  split at hrun
  · cases hrun
  rename_i t hi
  rcases bind_eq_error_iff.mp hrun with hstep | ⟨t', -, hlast⟩
  · rw [TransportTCP.socketUpdate_writable] at hstep
    split_ifs at hstep with hclosed hwaiting
    obtain ⟨harmed, -⟩ := h.armed i t hi (Bool.eq_false_iff.mpr hclosed)
    exact TransportTCP.writeMessage_ne_rosBreak (harmed.queued.mpr hwaiting.1) send hstep
  · cases hlast

theorem Inv.writeReady (h : s.Inv) : s.WriteReady where
  armed i t hi hopen := by
    obtain ⟨harmed, -, info, hinfo, -, hevents⟩ := h.armed i t hi hopen
    refine ⟨harmed.queued, ?_⟩
    rw [← hevents]
    constructor
    · intro hrequested
      exact ⟨info, hinfo, hrequested⟩
    · intro hrequests
      obtain ⟨info', hinfo', hrequested⟩ := hrequests
      obtain rfl := Option.some.inj (hinfo.symm.trans hinfo')
      exact hrequested
  array := by
    rw [PollSet.createNativePollset, if_pos h.changed]
    apply List.map_congr_left
    intro entry hentry
    rw [(h.tracked entry.1 entry.2 (ExtTreeMap.mem_toList_iff_getElem?_eq_some.mp hentry)).1]
  tracked i t hi hopen := by
    obtain ⟨-, -, info, hinfo, howner, -⟩ := h.armed i t hi hopen
    exact ⟨info, hinfo, howner⟩
  noBreak := h.noBreak

/-- **Write readiness.** In every state reached, an open transport has messages queued exactly while
it waits to write and exactly while its socket's events have `POLLOUT`; the next array for `poll` has
one entry for each tracked socket, with its present events; and `writeMessage` never finds its queue
empty. -/
theorem write_readiness (signalPipe : Nat) (events : List PollingEvent) (s : Polling)
    (hrun : run onEvent (create signalPipe) events = .ok s) : s.WriteReady := by
  have hinv : s.Inv := run_preserves (fun _ _ _ h hstep => h.step hstep) (inv_create signalPipe) hrun
  exact hinv.writeReady

/-- A message is queued, polled for and sent in part. -/
theorem write_readiness_queued : ∃ s, run onEvent (create 3)
    [.connect 4 ⟨[], 0, 0, 0, 0, 0, 0⟩ (fun _ => 0), .sendFrames 0 [⟨[7], 1⟩], .poll,
      .writable 0 (.take 3)] = .ok s ∧ s.WriteReady := by
  obtain ⟨s, hrun⟩ : ∃ s, run onEvent (create 3)
    [.connect 4 ⟨[], 0, 0, 0, 0, 0, 0⟩ (fun _ => 0), .sendFrames 0 [⟨[7], 1⟩], .poll,
      .writable 0 (.take 3)] = .ok s := ⟨_, rfl⟩
  exact ⟨s, hrun, write_readiness 3 _ s hrun⟩

end Polling

end Ros2Proto
