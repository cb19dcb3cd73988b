import Ros2Proto.Base.Runs
import Ros2Proto.Transport.Wire

/-!
# A call that blocks

`ServiceClient` of `service.hpp` with one caller and the poll thread. A call sends its request, and only
then takes `mutex_` and sets `req_rep_` and `done_`; the poll thread runs `onResponse` whenever an
answer is there. What a thread does under `mutex_`, up to `wait` or the release, is one step, and a wait
may end without a notification. The server answers every request in turn with a message of one frame.

The response is read into the object of the call it answers exactly if the caller is in `wait` by the
time its answer is handled. Before that `done_` is still true, from the constructor or from the call
before, and `onResponse` breaks.
-/

namespace Ros2Proto

open FallibleRun

variable {Request Response : Type}

/-- Where the caller is. -/
inductive CallerAt
  /-- outside `call` -/
  | outside
  /-- the request is sent, and `mutex_` not taken yet -/
  | sent
  | waiting
  /-- `mutex_` is released again, and `req_rep_` not reset yet -/
  | leaving
  deriving DecidableEq, Repr

/-- The argument `req_rep` of a call. -/
structure ReqRep (Request Response : Type) where
  request : Request
  response : Option Response
  deriving DecidableEq, Repr

/-- A `ServiceClient`, the arguments of its calls in order, and the answers to their requests. The
first `handled` of these went to `onResponse`. -/
structure ServiceClient (Request Response : Type) where
  reqRep : Option Nat
  done : Bool
  caller : CallerAt
  reqReps : List (ReqRep Request Response)
  answers : List Frame
  handled : Nat
  deriving DecidableEq, Repr

/-- A step of the caller, of the server or of the poll thread. -/
inductive BlockingEvent (Request : Type)
  | send (request : Request)
  | enter
  | wake
  | leave
  | answer (frame : Frame)
  | respond
  deriving DecidableEq, Repr

namespace ServiceClient

def idle : ServiceClient Request Response := ⟨none, true, .outside, [], [], 0⟩

/-- `call` up to `sendMessage`. -/
def send (s : ServiceClient Request Response) (request : Request) : ServiceClient Request Response :=
  { s with caller := .sent, reqReps := s.reqReps ++ [⟨request, none⟩] }

/-- `call` from taking `mutex_` to the first `wait`. -/
def enter (s : ServiceClient Request Response) : ServiceClient Request Response :=
  { s with reqRep := some (s.reqReps.length - 1), done := false, caller := .waiting }

/-- The test of the loop, after a `wait` that returned. -/
def wake (s : ServiceClient Request Response) : ServiceClient Request Response :=
  if s.done = false then s else { s with caller := .leaving }

/-- `call` after the release of `mutex_`. -/
def leave (s : ServiceClient Request Response) : ServiceClient Request Response :=
  { s with reqRep := none, caller := .outside }

/-- `read` is the generated code of the response, which throws where it does not accept the bytes. -/
def onResponse (read : List UInt8 → Option Response) (s : ServiceClient Request Response)
    (frames : List Frame) : Except Fault (ServiceClient Request Response) :=
  match frames with
  | [frame] =>
    if s.done ≠ false then .error .rosBreak
    else
      match s.reqRep with
      | none => .error .nullPointer
      | some reqRep =>
        match read frame.payload with
        | none => .error .outOfRange
        | some response => .ok { s with
            done := true
            reqReps := s.reqReps.modify reqRep fun r => { r with response := some response } }
  | _ => .error .rosBreak

/-- A step that is not due does nothing. -/
def onEvent (read : List UInt8 → Option Response) (s : ServiceClient Request Response) :
    BlockingEvent Request → Except Fault (ServiceClient Request Response)
  | .send request => .ok (if s.caller = .outside then s.send request else s)
  | .enter => .ok (if s.caller = .sent then s.enter else s)
  | .wake => .ok (if s.caller = .waiting then s.wake else s)
  | .leave => .ok (if s.caller = .leaving then s.leave else s)
  | .answer frame =>
    .ok (if s.answers.length < s.reqReps.length then { s with answers := s.answers ++ [frame] } else s)
  | .respond =>
    match s.answers[s.handled]? with
    | none => .ok s
    | some frame => onResponse read { s with handled := s.handled + 1 } [frame]

/-- The calls that returned. -/
def returned (s : ServiceClient Request Response) : Nat :=
  if s.caller = .outside then s.reqReps.length else s.reqReps.length - 1

/-- The first `n` answers were read into the objects of the calls they answer. -/
def Stored (read : List UInt8 → Option Response) (s : ServiceClient Request Response) (n : Nat) :
    Prop :=
  ∀ k < n, ∃ reqRep frame response, s.reqReps[k]? = some reqRep ∧
    reqRep.response = some response ∧ s.answers[k]? = some frame ∧ read frame.payload = some response

/-- Every call that returned has the response to its own request. -/
def Answered (read : List UInt8 → Option Response) (s : ServiceClient Request Response) : Prop :=
  Stored read s s.returned

/-- No answer is handled between the sending of a request and the `wait` for it. -/
def InTime (s : ServiceClient Request Response) : BlockingEvent Request → Prop
  | .respond => s.caller = .sent → s.answers.length = s.handled
  | _ => True

/-! ### The invariant -/

/-- How far the call under way has come. -/
inductive Stage (s : ServiceClient Request Response) : Prop
  | outside (hcaller : s.caller = .outside) (hdone : s.done = true)
      (hhandled : s.handled = s.reqReps.length)
  | sent (hcaller : s.caller = .sent) (hdone : s.done = true)
      (hhandled : s.handled + 1 = s.reqReps.length)
  | waiting (hcaller : s.caller = .waiting) (hdone : s.done = false)
      (hhandled : s.handled + 1 = s.reqReps.length) (hreqRep : s.reqRep = some s.handled)
  | responded (hcaller : s.caller = .waiting) (hdone : s.done = true)
      (hhandled : s.handled = s.reqReps.length)
  | leaving (hcaller : s.caller = .leaving) (hdone : s.done = true)
      (hhandled : s.handled = s.reqReps.length)

structure Inv (read : List UInt8 → Option Response) (s : ServiceClient Request Response) : Prop where
  stage : Stage s
  handled_le : s.handled ≤ s.answers.length
  answers_le : s.answers.length ≤ s.reqReps.length
  stored : Stored read s s.handled

variable {read : List UInt8 → Option Response} {s s' : ServiceClient Request Response}

theorem inv_idle : Inv read (idle : ServiceClient Request Response) where
  stage := .outside rfl rfl rfl
  handled_le := Nat.le_refl 0
  answers_le := Nat.le_refl 0
  stored k hk := absurd hk (Nat.not_lt_zero k)

theorem Stage.returned_le (h : Stage s) : s.returned ≤ s.handled := by
  rw [returned]
  cases h with
  | outside hcaller hdone hhandled => rw [if_pos hcaller, hhandled]
  | sent hcaller hdone hhandled | waiting hcaller hdone hhandled hreqRep
  | responded hcaller hdone hhandled | leaving hcaller hdone hhandled =>
      rw [if_neg (by rw [hcaller]; decide)]
      omega

theorem Inv.answered (h : Inv read s) : Answered read s :=
  fun k hk => h.stored k (Nat.lt_of_lt_of_le hk h.stage.returned_le)

/-! ### What a step does -/

/-- More calls and more answers leave what was stored as it is. -/
theorem Stored.append {n : Nat} (h : Stored read s n)
    (hreqReps : s.reqReps <+: s'.reqReps) (hanswers : s.answers <+: s'.answers) :
    Stored read s' n := by
  obtain ⟨calls, hcalls⟩ := hreqReps
  obtain ⟨frames, hframes⟩ := hanswers
  intro k hk
  obtain ⟨reqRep, frame, response, hreqRep, hresponse, hframe, hread⟩ := h k hk
  refine ⟨reqRep, frame, response, ?_, hresponse, ?_, hread⟩
  · rw [← hcalls, List.getElem?_append_left (List.getElem?_eq_some_iff.mp hreqRep).1, hreqRep]
  · rw [← hframes, List.getElem?_append_left (List.getElem?_eq_some_iff.mp hframe).1, hframe]

theorem Inv.send (h : Inv read s) (hcaller : s.caller = .outside) (request : Request) :
    Inv read (s.send request) := by
  have hlength : (s.send request).reqReps.length = s.reqReps.length + 1 := by
    rw [ServiceClient.send, List.length_append, List.length_singleton]
  have hstored : Stored read (s.send request) s.handled :=
    h.stored.append (List.prefix_append _ _) List.prefix_rfl
  cases h.stage with
  | outside _ hdone hhandled =>
      refine ⟨.sent rfl hdone ?_, h.handled_le, ?_, hstored⟩
      · rw [hlength]
        exact congrArg (· + 1) hhandled
      · rw [hlength]
        exact h.answers_le.trans (Nat.le_succ _)
  | sent hcaller' | waiting hcaller' | responded hcaller' | leaving hcaller' =>
      rw [hcaller'] at hcaller
      cases hcaller

theorem Inv.enter (h : Inv read s) (hcaller : s.caller = .sent) : Inv read s.enter := by
  cases h.stage with
  | sent _ hdone hhandled =>
      refine ⟨.waiting rfl rfl hhandled ?_, h.handled_le, h.answers_le, h.stored⟩
      show some (s.reqReps.length - 1) = some s.handled
      rw [← hhandled]
      rfl
  | outside hcaller' | waiting hcaller' | responded hcaller' | leaving hcaller' =>
      rw [hcaller'] at hcaller
      cases hcaller

theorem Inv.wake (h : Inv read s) (hcaller : s.caller = .waiting) : Inv read s.wake := by
  cases h.stage with
  | waiting _ hdone hhandled hreqRep =>
      rw [ServiceClient.wake, if_pos hdone]
      exact h
  | responded _ hdone hhandled =>
      rw [ServiceClient.wake, if_neg (by simp [hdone])]
      exact ⟨.leaving rfl hdone hhandled, h.handled_le, h.answers_le, h.stored⟩
  | outside hcaller' | sent hcaller' | leaving hcaller' =>
      rw [hcaller'] at hcaller
      cases hcaller

theorem Inv.leave (h : Inv read s) (hcaller : s.caller = .leaving) : Inv read s.leave := by
  cases h.stage with
  | leaving _ hdone hhandled =>
      exact ⟨.outside rfl hdone hhandled, h.handled_le, h.answers_le, h.stored⟩
  | outside hcaller' | sent hcaller' | waiting hcaller' | responded hcaller' =>
      rw [hcaller'] at hcaller
      cases hcaller

theorem Inv.answer (h : Inv read s) (hdue : s.answers.length < s.reqReps.length) (frame : Frame) :
    Inv read { s with answers := s.answers ++ [frame] } := by
  have hlength : (s.answers ++ [frame]).length = s.answers.length + 1 := by
    rw [List.length_append, List.length_singleton]
  apply Inv.mk
  case stage =>
    cases h.stage with
    | outside hcaller hdone hhandled => exact .outside hcaller hdone hhandled
    | sent hcaller hdone hhandled => exact .sent hcaller hdone hhandled
    | waiting hcaller hdone hhandled hreqRep => exact .waiting hcaller hdone hhandled hreqRep
    | responded hcaller hdone hhandled => exact .responded hcaller hdone hhandled
    | leaving hcaller hdone hhandled => exact .leaving hcaller hdone hhandled
  case handled_le =>
    show s.handled ≤ (s.answers ++ [frame]).length
    rw [hlength]
    exact h.handled_le.trans (Nat.le_succ _)
  case answers_le =>
    show (s.answers ++ [frame]).length ≤ s.reqReps.length
    rw [hlength]
    exact hdue
  case stored => exact h.stored.append List.prefix_rfl (List.prefix_append _ _)

/-- An answer is only ever there while its call has not been responded to. -/
theorem Inv.handled_lt_of_answer (h : Inv read s) {frame : Frame}
    (hframe : s.answers[s.handled]? = some frame) : s.handled < s.reqReps.length :=
  Nat.lt_of_lt_of_le (List.getElem?_eq_some_iff.mp hframe).1 h.answers_le

/-- The answer that is handled is stored where it belongs. -/
theorem Stored.store (h : Stored read s s.handled) (hlt : s.handled < s.reqReps.length) {frame : Frame}
    {response : Response} (hframe : s.answers[s.handled]? = some frame)
    (hread : read frame.payload = some response)
    (hreqReps : s'.reqReps =
      s.reqReps.modify s.handled fun r => { r with response := some response })
    (hanswers : s'.answers = s.answers) : Stored read s' (s.handled + 1) := by
  intro k hk
  rw [hreqReps, hanswers]
  by_cases hlast : k = s.handled
  · subst hlast
    refine ⟨{ s.reqReps[s.handled] with response := some response }, frame, response, ?_, rfl, hframe,
      hread⟩
    rw [List.getElem?_modify, List.getElem?_eq_getElem hlt]
    simp
  · obtain ⟨reqRep, frame', response', hreqRep, hresponse, hframe', hread'⟩ := h k (by omega)
    refine ⟨reqRep, frame', response', ?_, hresponse, hframe', hread'⟩
    rw [List.getElem?_modify, hreqRep]
    simp [Ne.symm hlast]

/-- The poll thread reads the response to the call that waits. -/
theorem Inv.respond (h : Inv read s) {frame : Frame} (hframe : s.answers[s.handled]? = some frame)
    (hcaller : s.caller ≠ .sent) :
    Ends (Inv read) (· = .outOfRange)
      (onResponse read { s with handled := s.handled + 1 } [frame]) := by
  have hlt := h.handled_lt_of_answer hframe
  cases h.stage with
  | waiting hwaiting hdone hhandled hreqRep =>
      simp only [onResponse, hdone, hreqRep]
      cases hread : read frame.payload with
      | none => rfl
      | some response =>
          apply Inv.mk
          case stage =>
            refine .responded hwaiting rfl ?_
            show s.handled + 1 = (s.reqReps.modify _ _).length
            rw [List.length_modify, hhandled]
          case handled_le => exact (List.getElem?_eq_some_iff.mp hframe).1
          case answers_le =>
            show s.answers.length ≤ (s.reqReps.modify _ _).length
            rw [List.length_modify]
            exact h.answers_le
          case stored => exact h.stored.store hlt hframe hread rfl rfl
  | sent hcaller' => exact absurd hcaller' hcaller
  | outside _ _ hhandled | responded _ _ hhandled | leaving _ _ hhandled => omega

/-- A step in time keeps the invariant, or the response is one that the generated code rejects. -/
theorem Inv.onEvent (h : Inv read s) {e : BlockingEvent Request} (htime : InTime s e) :
    Ends (Inv read) (· = .outOfRange) (s.onEvent read e) := by
  cases e with
  | send request =>
      rw [ServiceClient.onEvent]
      split_ifs with hcaller
      · exact h.send hcaller request
      · exact h
  | enter =>
      rw [ServiceClient.onEvent]
      split_ifs with hcaller
      · exact h.enter hcaller
      · exact h
  | wake =>
      rw [ServiceClient.onEvent]
      split_ifs with hcaller
      · exact h.wake hcaller
      · exact h
  | leave =>
      rw [ServiceClient.onEvent]
      split_ifs with hcaller
      · exact h.leave hcaller
      · exact h
  | answer frame =>
      rw [ServiceClient.onEvent]
      split_ifs with hdue
      · exact h.answer hdue frame
      · exact h
  | respond =>
      cases hframe : s.answers[s.handled]? with
      | none =>
          simp only [ServiceClient.onEvent, hframe]
          exact h
      | some frame =>
          simp only [ServiceClient.onEvent, hframe]
          apply h.respond hframe
          intro hsent
          have hnone := htime hsent
          have hlt := (List.getElem?_eq_some_iff.mp hframe).1
          omega

/-- An answer that is handled too early finds `done_` as the call before left it. -/
theorem Inv.break_of_not_inTime (h : Inv read s) {e : BlockingEvent Request} (hearly : ¬ InTime s e) :
    s.onEvent read e = .error .rosBreak := by
  cases e with
  | respond =>
      obtain ⟨hsent, hthere⟩ := Classical.not_imp.mp hearly
      have hlt : s.handled < s.answers.length := by
        have hle := h.handled_le
        omega
      cases h.stage with
      | sent _ hdone hhandled =>
          simp only [ServiceClient.onEvent, List.getElem?_eq_getElem hlt, onResponse, hdone]
          rfl
      | outside hcaller | waiting hcaller | responded hcaller | leaving hcaller =>
          rw [hcaller] at hsent
          cases hsent
  | send _ | enter | wake | leave | answer _ => exact absurd trivial hearly

/-- **A run goes well exactly if no answer is handled between the sending of its request and the
`wait` for it**: then the test of `done_` never fails, `req_rep_` is never null when a response is read
through it, and every call that returns has its own response. -/
theorem run_answered_iff (read : List UInt8 → Option Response) (events : List (BlockingEvent Request)) :
    Ends (Answered read) (· = .outOfRange) (run (onEvent read) idle events) ↔
      Along (onEvent read) InTime idle events := by
  constructor
  · intro hends
    by_contra hearly
    obtain ⟨before, e, after, s, rfl, halong, hrun, hfail⟩ := exists_first_failure hearly
    have hinv : Ends (Inv read) (· = .outOfRange) (run (onEvent read) idle before) :=
      run_ends (fun s e h htime => h.onEvent htime) inv_idle halong
    rw [hrun] at hinv
    rw [run_append_of_run hrun, run_cons, Inv.break_of_not_inTime hinv hfail] at hends
    cases hends
  · intro htime
    apply (run_ends (fun s e h htime => Inv.onEvent h htime) inv_idle htime).mono
    intro s h
    exact h.answered

/-- The answer to the first request is there before the caller has `mutex_`, and `done_` is still true
from the constructor. -/
theorem not_answered : ¬ ∀ (read : List UInt8 → Option Unit) (events : List (BlockingEvent Unit)),
    Ends (Answered read) (· = .outOfRange) (run (onEvent read) idle events) := by
  intro hall
  have hends := hall (fun _ => some ()) [.send (), .answer ⟨[], 0⟩, .respond]
  have hrun : run (onEvent fun _ => some ()) (idle : ServiceClient Unit Unit)
      [.send (), .answer ⟨[], 0⟩, .respond] = .error .rosBreak := rfl
  rw [hrun] at hends
  cases hends

end ServiceClient

end Ros2Proto
