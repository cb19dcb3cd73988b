import Ros2Proto.Base.Runs
import Ros2Proto.Transport.Messages

/-!
# What poll events make of a transport

`readMessage`, `writeMessage` and `close` as the owner of a transport sees them. They leave the transport
open with its callbacks, or they close it, once, and then its disconnect callback has run if it was set.
-/

namespace Ros2Proto.TransportTCP

open FallibleRun

/-- The later transport is open or closed as the earlier one was, or it was closed in between. -/
structure Ages (t t' : TransportTCP) : Prop where
  readmsgCb : t'.readmsgCb = t.readmsgCb
  life : (t'.closed = t.closed ∧ t'.disconnectCb = t.disconnectCb ∧
      t'.disconnects = t.disconnects ∧ t'.sock = t.sock) ∨
    (t.closed = false ∧ t'.closed = true ∧
      t'.disconnects = t.disconnects + if t.disconnectCb then 1 else 0)

variable {t t' t'' : TransportTCP}

theorem Ages.same (hmsg : t'.readmsgCb = t.readmsgCb) (hclosed : t'.closed = t.closed)
    (hcb : t'.disconnectCb = t.disconnectCb) (hcount : t'.disconnects = t.disconnects)
    (hsock : t'.sock = t.sock) : Ages t t' :=
  ⟨hmsg, Or.inl ⟨hclosed, hcb, hcount, hsock⟩⟩

theorem Ages.refl (t : TransportTCP) : Ages t t := .same rfl rfl rfl rfl rfl

theorem Ages.trans (h : Ages t t') (h' : Ages t' t'') : Ages t t'' := by
  apply Ages.mk (h'.readmsgCb.trans h.readmsgCb)
  rcases h.life with ⟨hclosed, hcb, hcount, hsock⟩ | ⟨hopen, hclosed, hcount⟩
  · rw [← hclosed, ← hcb, ← hcount, ← hsock]
    exact h'.life
  · right
    rcases h'.life with ⟨hclosed', -, hcount', -⟩ | ⟨hopen', -⟩
    · exact ⟨hopen, hclosed'.trans hclosed, hcount'.trans hcount⟩
    · rw [hclosed] at hopen'
      cases hopen'

/-- A step ends in a transport that has aged, or in a fault. -/
abbrev Survives (t : TransportTCP) (x : Except Fault TransportTCP) : Prop :=
  Ends (Ages t) (fun _ => True) x

theorem Survives.of_ages {x : Except Fault TransportTCP} (h : Survives t' x) (hages : Ages t t') :
    Survives t x :=
  h.mono fun _ h' => hages.trans h'

/-- A step that is taken on some condition. -/
theorem Survives.guarded {x : Except Fault TransportTCP} (h : Survives t x) (c : Prop) [Decidable c] :
    Survives t (if c then x else .ok t) := by
  split_ifs
  · exact h
  · exact Ages.refl t

theorem survives_close (t : TransportTCP) : Survives t t.close := by
  rw [close]
  split_ifs with hclosed hsock hcb
  · exact Ages.refl t
  · trivial
  · refine ⟨rfl, Or.inr ⟨Bool.not_eq_true _ ▸ hclosed, rfl, ?_⟩⟩
    rw [if_pos hcb]
  · refine ⟨rfl, Or.inr ⟨Bool.not_eq_true _ ▸ hclosed, rfl, ?_⟩⟩
    rw [if_neg hcb]
    rfl

theorem ends_read (t : TransportTCP) (recv : Recv) (size : UInt32) :
    Ends (fun r => Ages t r.2.2) (fun _ => True) (t.read recv size) := by
  rw [read]
  split_ifs
  · exact Ages.refl t
  · trivial
  · cases recv.result (min size.toNat intMax) with
    | bytes bs => exact Ages.same rfl rfl rfl rfl rfl
    | eof => exact (survives_close t).map fun _ h => h
    | error => exact (survives_close t).map fun _ h => h

theorem ends_write (t : TransportTCP) (send : Send) (buffer : List UInt8) (size : UInt32) :
    Ends (fun r => Ages t r.2) (fun _ => True) (t.write send buffer size) := by
  rw [write]
  split_ifs
  · exact Ages.refl t
  · trivial
  · trivial
  · cases send.result (min size.toNat intMax) with
    | some k => exact Ages.same rfl rfl rfl rfl rfl
    | none => exact (survives_close t).map fun _ h => h

/-! ### The four that switch poll events -/

theorem survives_enableWrite (t : TransportTCP) : Survives t t.enableWrite := by
  rw [enableWrite]
  split_ifs
  · trivial
  · exact Ages.refl t
  · exact Ages.same rfl rfl rfl rfl rfl
  · exact Ages.refl t

theorem survives_disableWrite (t : TransportTCP) : Survives t t.disableWrite := by
  rw [disableWrite]
  split_ifs
  · trivial
  · exact Ages.refl t
  · exact Ages.same rfl rfl rfl rfl rfl
  · exact Ages.refl t

/-! ### Reading -/

theorem survives_readNumframes (t : TransportTCP) (recv : Recv) :
    Survives t (t.readNumframes recv) := by
  apply (ends_read t recv _).bind
  intro r hr
  dsimp only
  split_ifs
  · exact hr
  · have hset : ∀ m, Ages t { r.2.2 with readMsg := m } := fun m =>
      hr.trans (Ages.same rfl rfl rfl rfl rfl)
    apply ((survives_close _).of_ages (hset _)).bind
    intro t' ht'
    exact ht'.trans (Ages.same rfl rfl rfl rfl rfl)
  · exact hr.trans (Ages.same rfl rfl rfl rfl rfl)
  · exact hr.trans (Ages.same rfl rfl rfl rfl rfl)

theorem survives_endFrame (t : TransportTCP) (frame : Frame) : Survives t (t.endFrame frame) := by
  rw [endFrame]
  dsimp only
  split_ifs
  · exact Ages.same rfl rfl rfl rfl rfl
  · trivial
  · exact Ages.same rfl rfl rfl rfl rfl
  · exact Ages.refl t

theorem survives_readFrame (t : TransportTCP) (recv : Recv) : Survives t (t.readFrame recv) := by
  rw [readFrame]
  cases t.readMsg.frames[t.readMsg.frameInd.toNat]? with
  | none => trivial
  | some frame =>
      dsimp only
      split_ifs
      · apply (ends_read t recv _).bind
        intro r hr
        split_ifs
        · exact hr
        · exact (survives_endFrame _ _).of_ages (hr.trans (Ages.same rfl rfl rfl rfl rfl))
        · exact (survives_endFrame _ _).of_ages (hr.trans (Ages.same rfl rfl rfl rfl rfl))
      · trivial
      · apply (ends_read t recv _).bind
        intro r hr
        split_ifs
        · exact hr
        · exact (survives_endFrame _ _).of_ages (hr.trans (Ages.same rfl rfl rfl rfl rfl))
      · exact survives_endFrame t frame

theorem survives_readMessage (t : TransportTCP) (recv : Recv) : Survives t (t.readMessage recv) := by
  have hstart : Ages t t.startReading := by
    rw [startReading]
    split_ifs
    · exact Ages.refl t
    · exact Ages.same rfl rfl rfl rfl rfl
  rw [readMessage]
  dsimp only
  split_ifs
  · trivial
  · exact (survives_readNumframes _ recv).of_ages hstart
  · exact (survives_readFrame _ recv).of_ages hstart

/-! ### Writing -/

theorem survives_finishFrame (t : TransportTCP) (msg : Message) (frame : Frame)
    (rest : List Message) : Survives t (t.finishFrame msg frame rest) := by
  rw [finishFrame]
  dsimp only
  split_ifs
  · cases msg.frames[(msg.frameInd + 1).toNat]? with
    | none => trivial
    | some next => exact Ages.same rfl rfl rfl rfl rfl
  · exact (survives_disableWrite _).of_ages (Ages.same rfl rfl rfl rfl rfl)
  · exact Ages.same rfl rfl rfl rfl rfl
  · exact Ages.same rfl rfl rfl rfl rfl

theorem survives_writeFrame (t : TransportTCP) (send : Send) (msg : Message) (rest : List Message) :
    Survives t (t.writeFrame send msg rest) := by
  rw [writeFrame]
  cases msg.frames[msg.frameInd.toNat]? with
  | none => trivial
  | some frame =>
      dsimp only
      split_ifs
      · apply (ends_write t send _ _).bind
        intro r hr
        split_ifs
        · exact (survives_finishFrame _ _ _ _).of_ages hr
        · exact (survives_close _).of_ages hr
      · apply (ends_write t send _ _).bind
        intro r hr
        split_ifs
        · exact (survives_finishFrame _ _ _ _).of_ages hr
        · exact (survives_close _).of_ages hr
      · exact survives_finishFrame t msg frame rest

theorem survives_writeMessage (t : TransportTCP) (send : Send) :
    Survives t (t.writeMessage send) := by
  rw [writeMessage]
  cases t.sendMsgs with
  | nil => trivial
  | cons msg rest =>
      dsimp only
      split_ifs
      · apply (ends_write t send _ _).bind
        intro r hr
        split_ifs
        · exact hr.trans (Ages.same rfl rfl rfl rfl rfl)
        · exact (survives_close _).of_ages hr
      · exact survives_writeFrame t send msg rest

theorem survives_sendFrames (t : TransportTCP) (frames : List Frame) :
    Survives t (t.sendFrames frames) := by
  have hcount : Ages t { t with msgCounter := (t.msgCounter + 1).tmod t.filter } :=
    .same rfl rfl rfl rfl rfl
  rw [sendFrames]
  dsimp only
  split_ifs
  · trivial
  · trivial
  · exact hcount
  all_goals cases frames[0]? with
    | none => trivial
    | some first => ?_
  · apply ((survives_enableWrite _).of_ages hcount).bind
    intro t' ht'
    exact ht'.trans (Ages.same rfl rfl rfl rfl rfl)
  · exact hcount.trans (Ages.same rfl rfl rfl rfl rfl)

theorem survives_socketUpdate (t : TransportTCP) (events : PollEvents) (recv : Recv) (send : Send) :
    Survives t (t.socketUpdate events recv send) := by
  have hlast : ∀ t₁ : TransportTCP, Ages t t₁ → Survives t (do
      let t ← if events &&& POLLOUT ≠ 0 ∧ t₁.expectingWrite ∧ t₁.writeCb then t₁.writeMessage send
        else .ok t₁
      if events &&& POLLERR ≠ 0 ∨ events &&& POLLHUP ≠ 0 ∨ events &&& POLLNVAL ≠ 0 then t.close
      else .ok t) := by
    intro t₁ h₁
    by_cases hwrites : events &&& POLLOUT ≠ 0 ∧ t₁.expectingWrite ∧ t₁.writeCb
    · rw [if_pos hwrites]
      apply ((survives_writeMessage t₁ send).of_ages h₁).bind
      intro t₂ h₂
      exact ((survives_close t₂).guarded _).of_ages h₂
    · rw [if_neg hwrites]
      exact ((survives_close t₁).guarded _).of_ages h₁
  rw [socketUpdate]
  by_cases hclosed : t.closed = true
  · rw [if_pos hclosed]
    exact Ages.refl t
  · rw [if_neg hclosed]
    by_cases hreads : events &&& POLLIN ≠ 0 ∧ t.expectingRead ∧ t.readCb
    · rw [if_pos hreads]
      exact (survives_readMessage t recv).bind hlast
    · rw [if_neg hreads]
      exact hlast t (Ages.refl t)

end Ros2Proto.TransportTCP
