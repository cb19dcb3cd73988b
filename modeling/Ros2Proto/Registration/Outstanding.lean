import Ros2Proto.Registration.Discovery
import Ros2Proto.Registration.Master
import Ros2Proto.Services.Client
import Ros2Proto.Transport.Connecting

/-!
# The calls a registration waits for

`MasterRegistration` as the owner of `msc_`: every call on the master or on a publisher creates a
transport, connects it and hands it to `MultiServiceClient::call`, and the reply to
`registerSubscription` makes the calls on the publishers from within its callback. What `connect`
returns is not looked at. The messages are the services' own, and their generated code is a parameter.

A transport that `connect` has closed has lost the chance to call back, and one that is not in the poll
set never closes. The call on either stays in `outgoing_calls_`, and every other call leaves it with its
transport. So the list holds no such call exactly if nothing stopped any `connect` so far.
-/

namespace Ros2Proto

open FallibleRun MultiServiceClient

/-- The request of a call on the master, or on a publisher. -/
inductive RegistrationRequest
  | master (request : MasterRequest)
  | requestTopic (topic : StdString)

def MasterRequest.method : MasterRequest → StdString
  | registerSubscription _ _ => literal "registerSubscription"
  | unregisterSubscription _ _ => literal "unregisterSubscription"
  | registerPublication _ _ => literal "registerPublication"
  | unregisterPublication _ _ => literal "unregisterPublication"

def RegistrationRequest.method : RegistrationRequest → StdString
  | master request => request.method
  | requestTopic _ => literal "requestTopic"

/-- The generated code of the five services. A response is the URIs it lists, if any. -/
structure RegistrationCode where
  write : RegistrationRequest → List UInt8
  read : RegistrationRequest → List UInt8 → Except Fault (List StdString)

/-- The answers of the network to a `connect` to any address. -/
abbrev Dialer := NodeAddress → Dial

/-- A `MasterRegistration`, with the answers to each `connect` so far. -/
structure Registrar where
  master : NodeAddress
  msc : MultiServiceClient RegistrationRequest (List StdString)
  dials : List Dial

inductive RegistrarEvent
  | callMaster (request : MasterRequest) (dialer : Dialer)
  | contactPublishers (topic : StdString) (nodeUris : List StdString) (dialers : Nat → Dialer)
  /-- a message arrives, whose callback may connect to publishers -/
  | reply (i : Nat) (frames : List Frame) (dialers : Nat → Dialer)
  | disconnect (i : Nat)

namespace Registrar

def empty (master : NodeAddress) : Registrar := ⟨master, .empty, []⟩

/-- A new transport, connected and handed to `msc_`. -/
def connectAndCall (r : Registrar) (code : RegistrationCode) (address : NodeAddress)
    (request : RegistrationRequest) (dialer : Dialer) : Except Fault Registrar := do
  let d := dialer address
  let (_, tcp) ← (TransportTCP.create d.uninit d.heap).connect d
  let msc ← r.msc.callOn tcp request.method request code.write (code.read request)
  .ok { r with msc := msc, dials := r.dials ++ [d] }

def callMaster (r : Registrar) (code : RegistrationCode) (request : MasterRequest)
    (dialer : Dialer) : Except Fault Registrar :=
  r.connectAndCall code r.master (.master request) dialer

def contactPublishers (r : Registrar) (code : RegistrationCode) (topic : StdString)
    (nodeUris : List StdString) (dialers : Nat → Dialer) : Except Fault Registrar :=
  nodeUris.zipIdx.foldlM (fun r (endpoint, i) =>
    r.connectAndCall code (.ofUri endpoint) (.requestTopic topic) (dialers i)) r

/-- The callback a call was made with. Those of the other calls do not use `msc_`. -/
def callback (r : Registrar) (code : RegistrationCode) (request : RegistrationRequest)
    (uris : List StdString) (dialers : Nat → Dialer) : Except Fault Registrar :=
  match request with
  | .master (.registerSubscription topic _) => r.contactPublishers code topic uris dialers
  | _ => .ok r

/-- `ServiceResponseT::call` of the object at a place. -/
def onResponse (r : Registrar) (code : RegistrationCode) (object : Nat) (frames : List Frame)
    (dialers : Nat → Dialer) : Except Fault Registrar :=
  match r.msc.heap[object]? with
  | some (some this) =>
    match frames with
    | [frame] => do
      let uris ← this.read frame.payload
      let msc := { r.msc with history := r.msc.history ++ [.invoked object this.request uris] }
      let r ← { r with msc := msc }.callback code this.request uris dialers
      let msc ← r.msc.close this.tcp
      .ok { r with msc := msc }
    | _ => .error .rosBreak
  | _ => .error .nullPointer

/-- A message is read while its transport is in the poll set and reads. -/
def onMessage (r : Registrar) (code : RegistrationCode) (i : Nat) (frames : List Frame)
    (dialers : Nat → Dialer) : Except Fault Registrar :=
  match r.msc.transports[i]? with
  | none => .ok r
  | some t =>
    if ¬ t.tcp.Polled ∨ !t.tcp.expectingRead ∨ !t.tcp.readCb then .ok r
    else
      let tcp := { t.tcp with delivered := t.tcp.delivered ++ [frames] }
      let msc := { r.msc with transports := r.msc.transports.set i { t with tcp := tcp } }
      onResponse { r with msc := msc } code t.readmsgCb frames dialers

/-- The poll set reports the loss of a connection. -/
def onDisconnect (r : Registrar) (i : Nat) : Except Fault Registrar :=
  match r.msc.transports[i]? with
  | none => .ok r
  | some t =>
    if ¬ t.tcp.Polled then .ok r
    else do
      let msc ← r.msc.close i
      .ok { r with msc := msc }

def onEvent (code : RegistrationCode) (r : Registrar) : RegistrarEvent → Except Fault Registrar
  | .callMaster request dialer => r.callMaster code request dialer
  | .contactPublishers topic nodeUris dialers => r.contactPublishers code topic nodeUris dialers
  | .reply i frames dialers => r.onMessage code i frames dialers
  | .disconnect i => r.onDisconnect i

/-- Every call in the list waits on a transport that is open and has its disconnect callback, and the
loss of the connection removes the call. -/
def NoneDangles (r : Registrar) : Prop :=
  ∀ it ∈ r.msc.outgoingCalls, ∃ (o : ServiceResponseT RegistrationRequest (List StdString))
      (t : ClientTransport), r.msc.heap[it]? = some (some o) ∧ r.msc.transports[o.tcp]? = some t ∧
    t.tcp.closed = false ∧ t.tcp.disconnectCb = true ∧
    ∃ r', r.onDisconnect o.tcp = .ok r' ∧ it ∉ r'.msc.outgoingCalls

/-! ### A call on a new transport -/

section

open TransportTCP

/-- What `call` does to a transport leaves it in the poll set, or outside. -/
theorem used_of_dialed {d : Dial} {t : TransportTCP} (h : Dialed d t) (first : Frame)
    (rest : List Frame) :
    ∃ t₁ t₂, t.enableMessagePass.enableRead = .ok t₁ ∧
      t₁.setMsgCallback.setDisconnectCallback.sendFrames (first :: rest) = .ok t₂ ∧
      (t₂.Polled ↔ d.GetsThrough) ∧ t₂.disconnectCb = true := by
  rw [← h.polled_iff]
  cases hclosed : t.closed with
  | true =>
      simp [enableMessagePass, enableRead, setMsgCallback, setDisconnectCallback, sendFrames,
        enableWrite, h.synchronous, h.sendMsgs, h.msgCounter, h.filter, hclosed, Polled, bind,
        Except.bind]
  | false =>
      simp [enableMessagePass, enableRead, setMsgCallback, setDisconnectCallback, sendFrames,
        enableWrite, h.synchronous, h.expectingRead, h.expectingWrite, h.sendMsgs, h.msgCounter,
        h.filter, hclosed, Polled, bind, Except.bind]

theorem callOn_of_dialed {Request Response : Type} (s : MultiServiceClient Request Response)
    {d : Dial} {t : TransportTCP} (h : Dialed d t) (method : StdString) (request : Request)
    (write : Request → List UInt8) (read : List UInt8 → Except Fault Response) :
    ∃ tcp : TransportTCP, (tcp.Polled ↔ d.GetsThrough) ∧ tcp.disconnectCb = true ∧
      s.callOn t method request write read = .ok
        { transports := s.transports ++ [⟨tcp, s.heap.length⟩]
          heap := s.heap ++ [some ⟨request, read, s.transports.length⟩]
          outgoingCalls := s.outgoingCalls ++ [s.heap.length]
          history := s.history } := by
  obtain ⟨t₁, t₂, hread, hsend, hpolled, hcb⟩ :=
    used_of_dialed h ⟨method, UInt32.ofNat method.length⟩
      [⟨write request, UInt32.ofNat (write request).length⟩]
  refine ⟨t₂, hpolled, hcb, ?_⟩
  rw [callOn, hread]
  show (do
    let tcp ← t₁.setMsgCallback.setDisconnectCallback.sendFrames _
    _) = _
  rw [hsend]
  rfl

end

/-! ### The invariant -/

/-- The call at place `i` waits on its transport. -/
structure Waits (code : RegistrationCode) (d : Dial) (i : Nat) (t : ClientTransport)
    (r : Registrar) : Prop where
  listed : i ∈ r.msc.outgoingCalls
  object : ∃ request, r.msc.heap[i]? = some (some ⟨request, code.read request, i⟩)
  readmsgCb : t.readmsgCb = i
  polled_iff : t.tcp.Polled ↔ d.GetsThrough
  disconnectCb : t.tcp.disconnectCb = true

/-- The call at place `i` was answered, or its connection was lost. -/
structure Over (d : Dial) (i : Nat) (t : ClientTransport) (r : Registrar) : Prop where
  not_listed : i ∉ r.msc.outgoingCalls
  getsThrough : d.GetsThrough
  not_polled : ¬ t.tcp.Polled

structure Inv (code : RegistrationCode) (r : Registrar) : Prop where
  length_transports : r.msc.transports.length = r.dials.length
  length_heap : r.msc.heap.length = r.dials.length
  listed_lt : ∀ i ∈ r.msc.outgoingCalls, i < r.dials.length
  nodup : r.msc.outgoingCalls.Nodup
  stands : ∀ i d, r.dials[i]? = some d →
    ∃ t, r.msc.transports[i]? = some t ∧ (Waits code d i t r ∨ Over d i t r)

/-- More calls leave the transports of the earlier ones as they are. -/
def Grows (r r' : Registrar) : Prop := r.msc.transports <+: r'.msc.transports

variable {r r' r'' : Registrar} {i : Nat} {d : Dial} {t : ClientTransport} {code : RegistrationCode}

theorem Grows.transport (h : Grows r r') (ht : r.msc.transports[i]? = some t) :
    r'.msc.transports[i]? = some t := by
  obtain ⟨more, hmore⟩ := h
  rw [← hmore, List.getElem?_append_left (List.getElem?_eq_some_iff.mp ht).1, ht]

theorem inv_empty (code : RegistrationCode) (master : NodeAddress) : Inv code (empty master) where
  length_transports := rfl
  length_heap := rfl
  listed_lt := by simp [empty, MultiServiceClient.empty]
  nodup := .nil
  stands i d hd := by simp [empty] at hd

theorem Inv.dials_of_transport (h : Inv code r) (ht : r.msc.transports[i]? = some t) :
    ∃ d, r.dials[i]? = some d ∧ (Waits code d i t r ∨ Over d i t r) := by
  have hi : i < r.dials.length := h.length_transports ▸ (List.getElem?_eq_some_iff.mp ht).1
  have hd := List.getElem?_eq_getElem hi
  obtain ⟨u, hu, hstands⟩ := h.stands i _ hd
  cases ht.symm.trans hu
  exact ⟨_, hd, hstands⟩

/-- A transport in the poll set has a call that waits on it. -/
theorem Inv.waits_of_polled (h : Inv code r) (ht : r.msc.transports[i]? = some t)
    (hpolled : t.tcp.Polled) : ∃ d, r.dials[i]? = some d ∧ Waits code d i t r := by
  obtain ⟨d, hd, hwaits | hover⟩ := h.dials_of_transport ht
  · exact ⟨d, hd, hwaits⟩
  · exact absurd hpolled hover.not_polled

theorem Inv.lists (h : Inv code r) : Lists r.msc.heap r.msc.outgoingCalls := by
  intro j hj
  have hd := List.getElem?_eq_getElem (h.listed_lt j hj)
  obtain ⟨t, -, hwaits | hover⟩ := h.stands j _ hd
  · obtain ⟨request, ho⟩ := hwaits.object
    exact ⟨_, ho, rfl⟩
  · exact absurd hj hover.not_listed

/-! ### What an event does -/

/-- What is not about a call leaves it as it stands. -/
theorem stands_frame (hlisted : i ∈ r'.msc.outgoingCalls ↔ i ∈ r.msc.outgoingCalls)
    (hheap : r'.msc.heap[i]? = r.msc.heap[i]?) (h : Waits code d i t r ∨ Over d i t r) :
    Waits code d i t r' ∨ Over d i t r' := by
  rcases h with hwaits | hover
  · exact Or.inl { hwaits with
      listed := hlisted.mpr hwaits.listed
      object := hheap ▸ hwaits.object }
  · exact Or.inr { hover with not_listed := hlisted.not.mpr hover.not_listed }

/-- A call on a new transport waits there. -/
theorem Inv.append (h : Inv code r) {tcp : TransportTCP} (hpolled : tcp.Polled ↔ d.GetsThrough)
    (hcb : tcp.disconnectCb = true) (request : RegistrationRequest) :
    Inv code { r with
      msc := { r.msc with
        transports := r.msc.transports ++ [⟨tcp, r.msc.heap.length⟩]
        heap := r.msc.heap ++ [some ⟨request, code.read request, r.msc.transports.length⟩]
        outgoingCalls := r.msc.outgoingCalls ++ [r.msc.heap.length] }
      dials := r.dials ++ [d] } := by
  have hnew : r.dials.length ∉ r.msc.outgoingCalls := fun hmem =>
    Nat.lt_irrefl _ (h.listed_lt _ hmem)
  apply Inv.mk
  case length_transports =>
    show (r.msc.transports ++ [_]).length = (r.dials ++ [d]).length
    rw [List.length_append, List.length_append, h.length_transports]
    rfl
  case length_heap =>
    show (r.msc.heap ++ [_]).length = (r.dials ++ [d]).length
    rw [List.length_append, List.length_append, h.length_heap]
    rfl
  case listed_lt =>
    intro j hj
    show j < (r.dials ++ [d]).length
    rw [List.length_append, List.length_singleton]
    rcases List.mem_append.mp hj with hj | hj
    · have := h.listed_lt j hj
      omega
    · rw [List.mem_singleton.mp hj, h.length_heap]
      omega
  case nodup =>
    show (r.msc.outgoingCalls ++ [r.msc.heap.length]).Nodup
    rw [h.length_heap, ← List.concat_eq_append]
    exact h.nodup.concat hnew
  case stands =>
    intro j e he
    by_cases hj : j < r.dials.length
    · replace he : (r.dials ++ [d])[j]? = some e := he
      rw [List.getElem?_append_left hj] at he
      obtain ⟨u, hu, hstands⟩ := h.stands j e he
      refine ⟨u, ?_, stands_frame ?_ ?_ hstands⟩
      · exact (List.getElem?_append_left (h.length_transports ▸ hj)).trans hu
      · simp [h.length_heap, Nat.ne_of_lt hj]
      · exact List.getElem?_append_left (h.length_heap ▸ hj)
    · have hend : j = r.dials.length := by
        have hlt := (List.getElem?_eq_some_iff.mp he).1
        rw [List.length_append, List.length_singleton] at hlt
        omega
      subst hend
      replace he : (r.dials ++ [d])[r.dials.length]? = some e := he
      rw [List.getElem?_concat_length] at he
      cases he
      refine ⟨⟨tcp, r.msc.heap.length⟩, ?_, Or.inl ⟨?_, ?_, h.length_heap, hpolled, hcb⟩⟩
      · rw [← h.length_transports]
        exact List.getElem?_concat_length
      · rw [← h.length_heap]
        exact List.mem_append_right _ (List.mem_singleton_self _)
      · refine ⟨request, ?_⟩
        show (r.msc.heap ++ [some ⟨request, code.read request, r.msc.transports.length⟩])[_]? = _
        rw [← h.length_heap, List.getElem?_concat_length, h.length_transports, h.length_heap]

/-- A `connect` and the call after it add one call, whatever the answers. -/
theorem Inv.connectAndCall (h : Inv code r) (address : NodeAddress)
    (request : RegistrationRequest) (dialer : Dialer) :
    Ends (fun r' => Inv code r' ∧ Grows r r') (· = .assertion)
      (r.connectAndCall code address request dialer) := by
  rw [Registrar.connectAndCall]
  apply (TransportTCP.connect_ends (dialer address)).bind
  intro connected hdialed
  obtain ⟨tcp, hpolled, hcb, hrun⟩ := callOn_of_dialed r.msc hdialed request.method request code.write
    (code.read request)
  apply Ends.of_ok
  refine ⟨_, by simp only [hrun]; rfl, h.append hpolled hcb request, ?_⟩
  exact List.prefix_append _ _

theorem Inv.contactPublishers (h : Inv code r) (topic : StdString)
    (nodeUris : List StdString) (dialers : Nat → Dialer) :
    Ends (fun r' => Inv code r' ∧ Grows r r') (· = .assertion)
      (r.contactPublishers code topic nodeUris dialers) := by
  apply run_always_ends (I := fun r' => Inv code r' ∧ Grows r r') _ ⟨h, List.prefix_rfl⟩
  intro mid entry hmid
  apply (hmid.1.connectAndCall (.ofUri entry.1) (.requestTopic topic) (dialers entry.2)).mono
  intro r' hr'
  exact ⟨hr'.1, List.IsPrefix.trans hmid.2 hr'.2⟩

theorem Inv.callback (h : Inv code r) (request : RegistrationRequest)
    (uris : List StdString) (dialers : Nat → Dialer) :
    Ends (fun r' => Inv code r' ∧ Grows r r') (· = .assertion)
      (r.callback code request uris dialers) := by
  cases request with
  | master request =>
      cases request with
      | registerSubscription topic nodeUri => exact h.contactPublishers topic uris dialers
      | unregisterSubscription _ _ | registerPublication _ _ | unregisterPublication _ _ =>
          exact ⟨h, List.prefix_rfl⟩
  | requestTopic topic => exact ⟨h, List.prefix_rfl⟩

/-- The close of a transport in the poll set removes its call. -/
theorem Inv.close (h : Inv code r) (ht : r.msc.transports[i]? = some t) (hpolled : t.tcp.Polled) :
    ∃ msc : MultiServiceClient RegistrationRequest (List StdString), r.msc.close i = .ok msc ∧
      Inv code { r with msc := msc } ∧ i ∉ msc.outgoingCalls := by
  obtain ⟨d, hd, hwaits⟩ := h.waits_of_polled ht hpolled
  obtain ⟨tcp, hclosed, hrun⟩ := close_of_open ht hpolled.1 hpolled.2.1 hwaits.disconnectCb h.lists
    hwaits.listed
  have hi := (List.getElem?_eq_some_iff.mp ht).1
  have hgone : i ∉ r.msc.outgoingCalls.erase i := by simp [h.nodup.mem_erase_iff]
  refine ⟨_, hrun, ?_, hgone⟩
  apply Inv.mk
  case length_transports =>
    show (r.msc.transports.set i _).length = r.dials.length
    rw [List.length_set, h.length_transports]
  case length_heap =>
    show (r.msc.heap.set i _).length = r.dials.length
    rw [List.length_set, h.length_heap]
  case listed_lt => exact fun j hj => h.listed_lt j (List.mem_of_mem_erase hj)
  case nodup => exact h.nodup.erase i
  case stands =>
    intro j e he
    obtain ⟨u, hu, hstands⟩ := h.stands j e he
    by_cases hj : j = i
    · subst hj
      cases hd.symm.trans he
      refine ⟨{ t with tcp := tcp }, List.getElem?_set_self hi, Or.inr ⟨hgone, ?_, ?_⟩⟩
      · exact hwaits.polled_iff.mp hpolled
      · intro hopen
        rw [hopen.1] at hclosed
        cases hclosed
    · refine ⟨u, (List.getElem?_set_ne (Ne.symm hj)).trans hu, stands_frame ?_ ?_ hstands⟩
      · simp [h.nodup.mem_erase_iff, hj]
      · exact List.getElem?_set_ne (Ne.symm hj)

/-- A message that is read changes nothing of a call but the record of its transport. -/
theorem Inv.deliver (h : Inv code r) (ht : r.msc.transports[i]? = some t)
    (delivered : List (List Frame))
    (history : List (Happening RegistrationRequest (List StdString))) :
    Inv code { r with msc := { r.msc with
      transports := r.msc.transports.set i { t with tcp := { t.tcp with delivered := delivered } }
      history := history } } := by
  apply Inv.mk
  case length_transports =>
    show (r.msc.transports.set i _).length = r.dials.length
    rw [List.length_set, h.length_transports]
  case length_heap => exact h.length_heap
  case listed_lt => exact h.listed_lt
  case nodup => exact h.nodup
  case stands =>
    intro j e he
    obtain ⟨u, hu, hstands⟩ := h.stands j e he
    by_cases hj : j = i
    · subst hj
      cases ht.symm.trans hu
      refine ⟨_, List.getElem?_set_self (List.getElem?_eq_some_iff.mp ht).1, ?_⟩
      rcases hstands with hwaits | hover
      · exact Or.inl ⟨hwaits.listed, hwaits.object, hwaits.readmsgCb, hwaits.polled_iff,
          hwaits.disconnectCb⟩
      · exact Or.inr ⟨hover.not_listed, hover.getsThrough, hover.not_polled⟩
    · exact ⟨u, (List.getElem?_set_ne (Ne.symm hj)).trans hu,
        stands_frame (r := r) Iff.rfl rfl hstands⟩

/-- What may end the process: a `connect` that succeeds at once, a message that is not of one frame, or
a response that the generated code does not accept. -/
def Ending (code : RegistrationCode) (f : Fault) : Prop :=
  f = .assertion ∨ f = .rosBreak ∨ ∃ request bytes, code.read request bytes = .error f

/-- A response runs its callback, closes its transport and with it removes its call. -/
theorem Inv.respond (h : Inv code r) (ht : r.msc.transports[i]? = some t) (hpolled : t.tcp.Polled)
    (frames : List Frame) (dialers : Nat → Dialer) (delivered : List (List Frame)) :
    Ends (Inv code) (Ending code)
      (onResponse { r with msc := { r.msc with
        transports := r.msc.transports.set i { t with tcp := { t.tcp with delivered := delivered } } } }
        code t.readmsgCb frames dialers) := by
  obtain ⟨d, hd, hwaits⟩ := h.waits_of_polled ht hpolled
  obtain ⟨request, ho⟩ := hwaits.object
  have hi := (List.getElem?_eq_some_iff.mp ht).1
  have hobject : r.msc.heap[t.readmsgCb]? = some (some ⟨request, code.read request, i⟩) := by
    rw [hwaits.readmsgCb, ho]
  simp only [onResponse, hobject]
  rcases frames with _ | ⟨frame, _ | ⟨frame₂, frames⟩⟩
  · exact Or.inr (Or.inl rfl)
  · show Ends _ _ ((code.read request frame.payload).bind _)
    cases hread : code.read request frame.payload with
    | error f => exact Or.inr (Or.inr ⟨request, frame.payload, hread⟩)
    | ok uris =>
        have hrun := (h.deliver ht delivered
          (r.msc.history ++ [.invoked t.readmsgCb request uris])).callback request uris dialers
        apply (hrun.mono_fault fun f hf => Or.inl hf).bind
        intro r' hr'
        have ht' := hr'.2.transport (List.getElem?_set_self hi)
        obtain ⟨msc, hclose, hinv, -⟩ := hr'.1.close ht' hpolled
        rw [hclose]
        exact hinv
  · exact Or.inr (Or.inl rfl)

theorem Inv.onMessage (h : Inv code r) (i : Nat) (frames : List Frame) (dialers : Nat → Dialer) :
    Ends (Inv code) (Ending code)
      (r.onMessage code i frames dialers) := by
  rw [Registrar.onMessage]
  cases ht : r.msc.transports[i]? with
  | none => exact h
  | some t =>
      show Ends _ _ (if _ then _ else _)
      split_ifs with hskip
      · exact h
      · exact h.respond ht (not_not.mp (not_or.mp hskip).1) frames dialers _

theorem onDisconnect_of_not_polled (ht : r.msc.transports[i]? = some t) (hpolled : ¬ t.tcp.Polled) :
    r.onDisconnect i = .ok r := by
  simp only [Registrar.onDisconnect, ht]
  rw [if_pos hpolled]

theorem Inv.onDisconnect_of_polled (h : Inv code r) (ht : r.msc.transports[i]? = some t)
    (hpolled : t.tcp.Polled) :
    ∃ r', r.onDisconnect i = .ok r' ∧ Inv code r' ∧ r'.dials = r.dials ∧ i ∉ r'.msc.outgoingCalls := by
  obtain ⟨msc, hclose, hinv, hgone⟩ := h.close ht hpolled
  refine ⟨{ r with msc := msc }, ?_, hinv, rfl, hgone⟩
  simp only [Registrar.onDisconnect, ht, hclose]
  rw [if_neg (not_not.mpr hpolled)]
  rfl

theorem Inv.onEvent (h : Inv code r) (e : RegistrarEvent) :
    Ends (Inv code) (Ending code) (r.onEvent code e) := by
  cases e with
  | callMaster request dialer =>
      apply ((h.connectAndCall r.master (.master request) dialer).mono_fault fun f hf => Or.inl hf).mono
      exact fun r' hr' => hr'.1
  | contactPublishers topic nodeUris dialers =>
      apply ((h.contactPublishers topic nodeUris dialers).mono_fault fun f hf => Or.inl hf).mono
      exact fun r' hr' => hr'.1
  | reply i frames dialers => exact h.onMessage i frames dialers
  | disconnect i =>
      apply Ends.of_ok
      cases ht : r.msc.transports[i]? with
      | none => exact ⟨r, by simp only [Registrar.onEvent, Registrar.onDisconnect, ht], h⟩
      | some t =>
          by_cases hpolled : t.tcp.Polled
          · obtain ⟨r', hrun, hinv, -⟩ := h.onDisconnect_of_polled ht hpolled
            exact ⟨r', hrun, hinv⟩
          · exact ⟨r, onDisconnect_of_not_polled ht hpolled, h⟩

/-- A call dangles exactly if something stopped its `connect`. -/
theorem Inv.noneDangles_iff (h : Inv code r) :
    r.NoneDangles ↔ ∀ d ∈ r.dials, d.GetsThrough := by
  constructor
  · intro hnone d hmem
    obtain ⟨i, hd⟩ := List.getElem?_of_mem hmem
    obtain ⟨t, ht, hwaits | hover⟩ := h.stands i d hd
    · obtain ⟨request, ho⟩ := hwaits.object
      obtain ⟨o, u, hobject, -, -, -, r', hrun, hgone⟩ := hnone i hwaits.listed
      cases ho.symm.trans hobject
      by_contra hstopped
      have hstay := onDisconnect_of_not_polled ht (hwaits.polled_iff.not.mpr hstopped)
      cases hstay.symm.trans hrun
      exact hgone hwaits.listed
    · exact hover.getsThrough
  · intro hall i hmem
    have hd := List.getElem?_eq_getElem (h.listed_lt i hmem)
    obtain ⟨t, ht, hwaits | hover⟩ := h.stands i _ hd
    · obtain ⟨request, ho⟩ := hwaits.object
      have hpolled := hwaits.polled_iff.mpr (hall _ (List.getElem_mem _))
      obtain ⟨r', hrun, -, -, hgone⟩ := h.onDisconnect_of_polled ht hpolled
      exact ⟨_, t, ho, ht, hpolled.1, hwaits.disconnectCb, r', hrun, hgone⟩
    · exact absurd hmem hover.not_listed

/-- **After any calls, replies and lost connections, no call in the list dangles exactly if nothing
stopped a `connect` so far.** -/
theorem run_noneDangles_iff (code : RegistrationCode) (master : NodeAddress)
    (events : List RegistrarEvent) :
    Ends (fun r => r.NoneDangles ↔ ∀ d ∈ r.dials, d.GetsThrough) (Ending code)
      (run (onEvent code) (empty master) events) := by
  have hrun : Ends (Inv code) (Ending code) (run (onEvent code) (empty master) events) :=
    run_always_ends (fun r e h => h.onEvent e) (inv_empty code master) events
  exact hrun.mono fun r h => h.noneDangles_iff

/-- Generated code for messages without content, and the answers for a host name that is not known. -/
def blank : RegistrationCode := ⟨fun _ => [], fun _ _ => .ok []⟩

def unknownHost : Dialer := fun _ =>
  ⟨some 7, .unresolved, .inProgress, true, true, ⟨[], 0, 0, 0, 0, 0, 0⟩, fun _ => 0⟩

/-- The name of the master's host does not resolve. `connect` closes the transport, the call is put in
the list all the same, and it waits there on a closed transport. -/
theorem not_noneDangles : ¬ ∀ code master events,
    Ends NoneDangles (Ending code) (run (onEvent code) (empty master) events) := by
  intro hall
  have hnone : Ends NoneDangles (Ending blank) _ :=
    hall blank ⟨literal "master", 11311⟩
      [.callMaster (.registerPublication (literal "/chatter") (literal "talker:4000")) unknownHost]
  obtain ⟨o, t, ho, ht, hopen, -⟩ := hnone 0 (List.mem_singleton_self 0)
  cases ho
  cases ht
  cases hopen

end Registrar

end Ros2Proto
