import Mathlib.Data.List.Count
import Mathlib.Data.Set.List
import Ros2Proto.Registration.Projections

/-!
# Finding the publishers of a topic

What becomes of the one request that a subscription leads to. First it is under way to the master,
then the master's list is under way to the node, and from then on each publisher of the list is asked,
or answers, or was found: once each, in any order, unless a connection is lost on the way. Who
registers with the master after the subscription has been handled is on no list, and is never found.
-/

namespace Ros2Proto

open FallibleRun

variable {C M : Type}

/-! ### The calls for a subscription -/

/-- The topic that the call registers for the object, if it does. -/
def TopicCall.registered (ptr : Nat) : TopicCall M → Option StdString
  | .registerSubscription topic p => if p = ptr then some topic else none
  | _ => none

namespace TopicManager

/-- The topics that were registered for the object at an address. -/
def registrations (t : TopicManager C M) (ptr : Nat) : List StdString :=
  t.calls.filterMap (TopicCall.registered ptr)

/-- An address is registered once, and only after `new` has returned it. -/
structure RegistersOnce (t : TopicManager C M) : Prop where
  below : ∀ ptr, t.nextPtr ≤ ptr → t.registrations ptr = []
  once : ∀ ptr, (t.registrations ptr).length ≤ 1

variable {t t' : TopicManager C M}

/-- A call that registers nothing. -/
theorem RegistersOnce.quiet (h : t.RegistersOnce) {new : List (TopicCall M)}
    (hcalls : t'.calls = t.calls ++ new) (hptr : t.nextPtr ≤ t'.nextPtr)
    (hnew : ∀ ptr, new.filterMap (TopicCall.registered ptr) = []) : t'.RegistersOnce := by
  have hsame : ∀ ptr, t'.registrations ptr = t.registrations ptr := by
    intro ptr
    rw [registrations, hcalls, List.filterMap_append, hnew, List.append_nil, registrations]
  constructor
  · intro ptr hle
    rw [hsame]
    exact h.below ptr (by omega)
  · intro ptr
    rw [hsame]
    exact h.once ptr

theorem stable_registersOnce : Stable (RegistersOnce (C := C) (M := M)) := by
  apply Steady.stable
  · apply Steady.of_with
    case withPublication =>
      intro t u h
      exact h.quiet rfl (Nat.le_succ _) fun _ => rfl
    case withoutPublication =>
      intro t u topic pub h
      exact h.quiet rfl le_rfl fun _ => rfl
    case withSubscription =>
      intro t u cb h
      have hcalls : ∀ ptr, (t.withSubscription u cb).registrations ptr =
          t.registrations ptr ++ if t.nextPtr = ptr then [t.remap u] else [] := by
        intro ptr
        rw [registrations, withSubscription, List.filterMap_append, registrations]
        by_cases hptr : t.nextPtr = ptr <;> simp [TopicCall.registered, hptr]
      constructor
      · intro ptr hle
        have hlt : t.nextPtr < ptr := hle
        rw [hcalls, if_neg (by omega), List.append_nil]
        exact h.below ptr (by omega)
      · intro ptr
        rw [hcalls]
        split_ifs with hptr
        · rw [h.below ptr (by omega)]
          simp
        · rw [List.append_nil]
          exact h.once ptr
    case withoutSubscription =>
      intro t u topic sub h
      exact h.quiet rfl le_rfl fun _ => rfl
    case published =>
      intro t pub msg h
      exact h.quiet rfl le_rfl fun _ => rfl
  · intro t rules h
    exact h.quiet (List.append_nil _).symm le_rfl fun _ => rfl

theorem registersOnce_empty : (empty : TopicManager C M).RegistersOnce :=
  ⟨fun _ _ => rfl, fun _ => Nat.zero_le _⟩

/-- No call of the manager forgets what it has called. -/
theorem stable_calls (calls : List (TopicCall M)) :
    Stable fun t : TopicManager C M => calls <+: t.calls := by
  apply Steady.stable
  · apply Steady.of_with <;> intros <;> exact List.IsPrefix.trans ‹_› (List.prefix_append _ _)
  · intro t rules h
    exact h

theorem calls_of_onOp {op : TopicOp C M} (hrun : t.onOp op = .ok t') :
    t'.calls = t.calls ++ t'.calls.drop t.calls.length := by
  obtain ⟨new, hnew⟩ := (stable_calls t.calls).onOp (List.prefix_refl _) hrun
  rw [← hnew, List.drop_left]

end TopicManager

/-! ### The course of a subscription's request -/

/-- The message belongs to a call that the node has made for the object. -/
def GraphMessage.isFor (node : UInt16) (callback : Nat) : GraphMessage → Prop
  | .notice _ => False
  | .call n c => n = node ∧ c.callback = callback
  | .reply n c _ => n = node ∧ c.callback = callback

instance (node : UInt16) (callback : Nat) : (m : GraphMessage) → Decidable (m.isFor node callback)
  | .notice _ => inferInstanceAs (Decidable False)
  | .call _ _ => inferInstanceAs (Decidable (_ ∧ _))
  | .reply _ _ _ => inferInstanceAs (Decidable (_ ∧ _))

@[simp] theorem GraphMessage.isFor_notice {node : UInt16} {ptr : Nat} {r : MasterRequest} :
    ¬ (GraphMessage.notice r).isFor node ptr := not_false

@[simp] theorem GraphMessage.isFor_call {node n : UInt16} {ptr : Nat} {c : OutgoingCall} :
    (GraphMessage.call n c).isFor node ptr ↔ n = node ∧ c.callback = ptr := Iff.rfl

@[simp] theorem GraphMessage.isFor_reply {node n : UInt16} {ptr : Nat} {c : OutgoingCall}
    {uris : List StdString} :
    (GraphMessage.reply n c uris).isFor node ptr ↔ n = node ∧ c.callback = ptr := Iff.rfl

/-- The publisher that is asked, or answers. -/
def GraphMessage.publisher : GraphMessage → Option NodeAddress
  | .call _ (.requestTopic publisher _ _) => some publisher
  | .reply _ (.requestTopic publisher _ _) _ => some publisher
  | _ => none

namespace Graph

/-- What there is of calls that the node has made for the object. -/
def about (s : Graph C M) (node : UInt16) (ptr : Nat) : List GraphMessage :=
  s.flying.filter fun m => m.isFor node ptr

/-- The calls of `foundPublisher` on the object. -/
def told (s : Graph C M) (node : UInt16) (ptr : Nat) : List Finding :=
  s.found.filter fun f => f.node = node ∧ f.callback = ptr

section

variable (protos : UInt16 → Publication → List PublishTransport) (events : List (GraphEvent C M))

/-- At some point of the run the message arrived, in a state that met `P`. -/
def Delivered (m : GraphMessage) (P : Graph C M → Prop) : Prop :=
  ∃ before place after s, events = before ++ .deliver place :: after ∧
    run (onEvent protos) empty before = .ok s ∧ s.inFlight[place]? = some m ∧ P s

/-- The master has listed `uris` for the object: they are the nodes that it then knew to publish the
topic. -/
def Listed (node : UInt16) (ptr : Nat) (topic : StdString) (uris : List StdString) : Prop :=
  Delivered protos events (.call node (.registerSubscription topic ptr)) fun s => uris.Nodup ∧
    ∀ uri, uri ∈ uris ↔ History.last MasterRequest.subject ⟨.publisher, topic, uri⟩ s.handled =
      some (.registerPublication topic uri)

/-- The publisher was asked, and answered with the transports that it then had for the topic. -/
def Answered (node : UInt16) (ptr : Nat) (topic : StdString) (publisher : NodeAddress)
    (uris : List StdString) : Prop :=
  ∃ server, publisher.listener = some server ∧
    Delivered protos events (.call node (.requestTopic publisher topic ptr)) fun s =>
      uris = (s.nodes server).publicationURIs (protos server) topic

/-- A message of the second round. -/
def Contacts (node : UInt16) (ptr : Nat) (topic : StdString) (m : GraphMessage) : Prop :=
  ∃ publisher, m = .call node (.requestTopic publisher topic ptr) ∨
    ∃ uris, m = .reply node (.requestTopic publisher topic ptr) uris ∧
      Answered protos events node ptr topic publisher uris

/-- How far the discovery for an object has come. -/
inductive Progress (s : Graph C M) (node : UInt16) (ptr : Nat) (topic : StdString) : Prop
  /-- The request is under way to the master. -/
  | asking (hmessages : (s.about node ptr).Perm [.call node (.registerSubscription topic ptr)])
      (hfound : s.told node ptr = [])
  /-- The master's list is under way to the node. -/
  | listed (uris : List StdString) (hlisted : Listed protos events node ptr topic uris)
      (hmessages : (s.about node ptr).Perm [.reply node (.registerSubscription topic ptr) uris])
      (hfound : s.told node ptr = [])
  /-- Each publisher of the list is being asked, is answering, or was found. -/
  | contacting (uris : List StdString) (hlisted : Listed protos events node ptr topic uris)
      (hmessages : ∀ m ∈ s.about node ptr, Contacts protos events node ptr topic m)
      (hfound : ∀ f ∈ s.told node ptr, Answered protos events node ptr topic f.publisher f.uris)
      (haccount : ((s.told node ptr).map Finding.publisher ++
        (s.about node ptr).filterMap GraphMessage.publisher).Perm (uris.map NodeAddress.ofUri))

/-- An object that was not registered has no calls, and one that was has made some progress. -/
def Course (s : Graph C M) (node : UInt16) (ptr : Nat) : Prop :=
  ((s.nodes node).registrations ptr = [] ∧ s.about node ptr = [] ∧ s.told node ptr = []) ∨
    ∃ topic, (s.nodes node).registrations ptr = [topic] ∧ Progress protos events s node ptr topic

end

variable {protos : UInt16 → Publication → List PublishTransport} {events : List (GraphEvent C M)}
  {s s' : Graph C M} {node : UInt16} {ptr : Nat} {topic : StdString} {m : GraphMessage}

/-! ### What stays as it is -/

theorem Delivered.concat {P : Graph C M → Prop} (h : Delivered protos events m P)
    (e : GraphEvent C M) : Delivered protos (events ++ [e]) m P := by
  obtain ⟨before, place, after, t, rfl, hrest⟩ := h
  exact ⟨before, place, after ++ [e], t, by simp, hrest⟩

/-- The message that arrives last. -/
theorem delivered_last {P : Graph C M → Prop} {place : Nat}
    (hrun : run (onEvent protos) empty events = .ok s) (hm : s.inFlight[place]? = some m) (hP : P s) :
    Delivered protos (events ++ [.deliver place]) m P :=
  ⟨events, place, [], s, rfl, hrun, hm, hP⟩

theorem Answered.concat {publisher : NodeAddress} {uris : List StdString}
    (h : Answered protos events node ptr topic publisher uris) (e : GraphEvent C M) :
    Answered protos (events ++ [e]) node ptr topic publisher uris := by
  obtain ⟨server, hserver, hdelivered⟩ := h
  exact ⟨server, hserver, hdelivered.concat e⟩

theorem Contacts.concat (h : Contacts protos events node ptr topic m) (e : GraphEvent C M) :
    Contacts protos (events ++ [e]) node ptr topic m := by
  obtain ⟨publisher, hcall | ⟨uris, hreply, hanswered⟩⟩ := h
  · exact ⟨publisher, Or.inl hcall⟩
  · exact ⟨publisher, Or.inr ⟨uris, hreply, hanswered.concat e⟩⟩

/-- An event that has nothing to do with the object. -/
theorem Progress.idle (h : Progress protos events s node ptr topic) (e : GraphEvent C M)
    (hmessages : (s'.about node ptr).Perm (s.about node ptr)) (hfound : s'.told node ptr = s.told node ptr) :
    Progress protos (events ++ [e]) s' node ptr topic := by
  cases h with
  | asking hm hf => exact .asking (hmessages.trans hm) (hfound.trans hf)
  | listed uris hl hm hf => exact .listed uris (hl.concat e) (hmessages.trans hm) (hfound.trans hf)
  | contacting uris hl hm hf ha =>
      apply Progress.contacting uris (hl.concat e)
      · exact fun m' hm' => (hm m' (hmessages.mem_iff.mp hm')).concat e
      · rw [hfound]
        exact fun f hmem => (hf f hmem).concat e
      · rw [hfound]
        exact ((hmessages.filterMap _).append_left _).trans ha

theorem Course.idle (h : Course protos events s node ptr) (e : GraphEvent C M)
    (hregistrations : (s'.nodes node).registrations ptr = (s.nodes node).registrations ptr)
    (hmessages : (s'.about node ptr).Perm (s.about node ptr)) (hfound : s'.told node ptr = s.told node ptr) :
    Course protos (events ++ [e]) s' node ptr := by
  rcases h with ⟨hnone, habout, htold⟩ | ⟨topic, hone, hprogress⟩
  · rw [habout] at hmessages
    exact Or.inl ⟨hregistrations.trans hnone, hmessages.eq_nil, hfound.trans htold⟩
  · exact Or.inr ⟨topic, hregistrations.trans hone, hprogress.idle e hmessages hfound⟩

/-! ### Operations -/

theorem filter_sent (node other : UInt16) (ptr : Nat) (c : TopicCall M) :
    ((sent other c).filter fun m => m.isFor node ptr) =
      if other = node then (TopicCall.registered ptr c).toList.map
        fun topic => .call node (.registerSubscription topic ptr) else [] := by
  cases c with
  | registerSubscription topic p =>
      by_cases hother : other = node <;> by_cases hptr : p = ptr <;>
        simp [sent, Discovery.callFor, TopicCall.registered, OutgoingCall.callback, hother, hptr]
  | registerPublication | unregisterPublication | unregisterSubscription | publish
  | shutdownPublication | shutdownSubscription =>
      simp [sent, Discovery.callFor, TopicCall.requests, TopicCall.registered]

theorem filter_flatMap_sent (node other : UInt16) (ptr : Nat) (calls : List (TopicCall M)) :
    ((calls.flatMap (sent other)).filter fun m => m.isFor node ptr) =
      if other = node then (calls.filterMap (TopicCall.registered ptr)).map
        fun topic => .call node (.registerSubscription topic ptr) else [] := by
  induction calls with
  | nil => exact (ite_self []).symm
  | cons c calls ih =>
      rw [List.flatMap_cons, List.filter_append, filter_sent, ih, List.filterMap_cons]
      split_ifs with hother
      · cases TopicCall.registered ptr c <;> rfl
      · rfl

theorem about_send (s : Graph C M) (node : UInt16) (ptr : Nat) (new : List GraphMessage) :
    (about { s with inFlight := s.inFlight ++ new } node ptr).Perm
      (s.about node ptr ++ new.filter fun m => m.isFor node ptr) := by
  rw [about, about, ← List.filter_append]
  exact (flying_send s new).filter _

theorem Course.operate (h : Course protos events s node ptr) {other : UInt16} {op : TopicOp C M}
    {t : TopicManager C M} (hop : (s.nodes other).onOp op = .ok t) (hnew : t.RegistersOnce)
    (e : GraphEvent C M) : Course protos (events ++ [e]) { s with
      nodes := Function.update s.nodes other t
      inFlight := s.inFlight ++
        (t.calls.drop (s.nodes other).calls.length).flatMap (sent other) } node ptr := by
  have hmessages := about_send s node ptr
    ((t.calls.drop (s.nodes other).calls.length).flatMap (sent other))
  rw [filter_flatMap_sent] at hmessages
  by_cases hother : other = node
  · subst hother
    have hcalls : t.registrations ptr = (s.nodes other).registrations ptr ++
        (t.calls.drop (s.nodes other).calls.length).filterMap (TopicCall.registered ptr) := by
      rw [TopicManager.registrations, TopicManager.registrations, ← List.filterMap_append,
        ← TopicManager.calls_of_onOp hop]
    have hself : Function.update s.nodes other t other = t := Function.update_self ..
    have honce := hnew.once ptr
    rw [if_pos rfl] at hmessages
    generalize (t.calls.drop (s.nodes other).calls.length).filterMap (TopicCall.registered ptr) =
      topics at hcalls hmessages
    cases topics with
    | nil =>
        refine h.idle e ?_ (hmessages.trans (List.Perm.of_eq (List.append_nil _))) rfl
        show (Function.update s.nodes other t other).registrations ptr = _
        rw [hself, hcalls, List.append_nil]
    | cons topic topics =>
        -- the object was not registered before, and is registered once
        rw [hcalls] at honce
        rcases h with ⟨hnone, habout, htold⟩ | ⟨topic', hone, -⟩
        · rw [hnone, List.nil_append, List.length_cons] at honce
          obtain rfl := List.length_eq_zero_iff.mp (show topics.length = 0 by omega)
          refine Or.inr ⟨topic, ?_, ?_⟩
          · show (Function.update s.nodes other t other).registrations ptr = _
            rw [hself, hcalls, hnone, List.nil_append]
          · rw [habout] at hmessages
            exact .asking hmessages htold
        · rw [hone, List.length_append, List.length_cons, List.length_cons] at honce
          omega
  · rw [if_neg hother, List.append_nil] at hmessages
    refine h.idle e ?_ hmessages rfl
    exact congrArg (TopicManager.registrations · ptr) (Function.update_of_ne (Ne.symm hother) t s.nodes)

/-! ### Arrivals -/

/-- What an arrival adds belongs to the same call as what arrived. -/
theorem arrive_frame (hrun : arrive protos s m = .ok s') (hm : ¬ m.isFor node ptr) :
    (s'.about node ptr).Perm (s.about node ptr) ∧ s'.told node ptr = s.told node ptr := by
  have hsend : ∀ new : List GraphMessage, (∀ m ∈ new, ¬ m.isFor node ptr) →
      (about { s with inFlight := s.inFlight ++ new } node ptr).Perm (s.about node ptr) := by
    intro new hnew
    have hmessages := about_send s node ptr new
    rwa [List.filter_eq_nil_iff.mpr fun m' hm' => by simpa using hnew m' hm', List.append_nil]
      at hmessages
  cases m with
  | notice r =>
      obtain ⟨master, -, hrest⟩ := bind_eq_ok_iff.mp hrun
      obtain rfl := Except.ok.inj hrest
      exact ⟨.refl _, rfl⟩
  | call n c =>
      cases c with
      | registerSubscription topic callback =>
          obtain ⟨⟨uris, master⟩, -, hrest⟩ := bind_eq_ok_iff.mp hrun
          obtain rfl := Except.ok.inj hrest
          exact ⟨hsend _ (by simpa using hm), rfl⟩
      | requestTopic publisher topic callback =>
          rw [arrive] at hrun
          split at hrun <;> obtain rfl := Except.ok.inj hrun
          · refine ⟨List.Perm.of_eq ?_, rfl⟩
            rw [about, flying, ← List.append_assoc, List.filter_append,
              List.filter_cons_of_neg (by simpa using hm)]
            exact List.append_nil _
          · exact ⟨hsend _ (by simpa using hm), rfl⟩
  | reply n c uris =>
      cases c with
      | registerSubscription topic callback =>
          obtain rfl := Except.ok.inj hrun
          refine ⟨hsend _ ?_, rfl⟩
          intro m' hm'
          obtain ⟨c, hc, rfl⟩ := List.mem_map.mp hm'
          obtain ⟨uri, -, rfl⟩ := List.mem_map.mp hc
          exact hm
      | requestTopic publisher topic callback =>
          obtain rfl := Except.ok.inj hrun
          refine ⟨.refl _, ?_⟩
          rw [told, List.filter_append, List.filter_cons_of_neg (by simpa [OutgoingCall.callback] using hm)]
          exact List.append_nil _

theorem about_append_self (s : Graph C M) (node : UInt16) (ptr : Nat) (new : List GraphMessage)
    (hnew : ∀ m ∈ new, m.isFor node ptr) :
    (about { s with inFlight := s.inFlight ++ new } node ptr).Perm (s.about node ptr ++ new) := by
  have hmessages := about_send s node ptr new
  rwa [List.filter_eq_self.mpr fun m hm => decide_eq_true (hnew m hm)] at hmessages

/-- The master handles the request for the object. -/
theorem Progress.list {place : Nat} (hrun : run (onEvent protos) empty events = .ok s)
    (hmaster : s.master.Handled s.handled)
    (hm : s.inFlight[place]? = some (.call node (.registerSubscription topic ptr)))
    (hrest : about { s with inFlight := s.inFlight.eraseIdx place } node ptr = [])
    (hfound : s.told node ptr = [])
    (harrive : arrive protos { s with inFlight := s.inFlight.eraseIdx place }
      (.call node (.registerSubscription topic ptr)) = .ok s') :
    Progress protos (events ++ [.deliver place]) s' node ptr topic := by
  obtain ⟨⟨uris, master⟩, hreply, hlast⟩ := bind_eq_ok_iff.mp harrive
  obtain rfl := Except.ok.inj hlast
  obtain ⟨reply, m', hreply', -, hnodup, hmem⟩ :=
    hmaster.inv.registerSubscription topic (TopicManager.myURI node)
  obtain ⟨rfl, rfl⟩ := Prod.mk.inj (Except.ok.inj (hreply.symm.trans hreply'))
  apply Progress.listed uris
  · apply delivered_last hrun hm
    refine ⟨hnodup, fun uri => ?_⟩
    rw [hmem, hmaster.holds_iff]
  · have hmessages := about_append_self { s with inFlight := s.inFlight.eraseIdx place } node ptr
      [.reply node (.registerSubscription topic ptr) uris] (by simp [OutgoingCall.callback])
    rwa [hrest] at hmessages
  · exact hfound

/-- The list arrives, and the node asks each publisher on it. -/
theorem Progress.contact {place : Nat} {uris : List StdString}
    (hlisted : Listed protos events node ptr topic uris)
    (hrest : about { s with inFlight := s.inFlight.eraseIdx place } node ptr = [])
    (hfound : s.told node ptr = [])
    (harrive : arrive protos { s with inFlight := s.inFlight.eraseIdx place }
      (.reply node (.registerSubscription topic ptr) uris) = .ok s') (e : GraphEvent C M) :
    Progress protos (events ++ [e]) s' node ptr topic := by
  obtain rfl := Except.ok.inj harrive
  have hcalls : (MasterRegistration.contactPublishers topic uris ptr).map (GraphMessage.call node) =
      uris.map fun uri => .call node (.requestTopic (.ofUri uri) topic ptr) := by
    rw [MasterRegistration.contactPublishers, List.map_map]
    rfl
  have hmessages := about_append_self { s with inFlight := s.inFlight.eraseIdx place } node ptr
    (uris.map fun uri => .call node (.requestTopic (.ofUri uri) topic ptr))
    (by simp [OutgoingCall.callback])
  rw [hrest, List.nil_append, ← hcalls] at hmessages
  apply Progress.contacting uris (hlisted.concat e)
  · intro m hm
    have hmem := hmessages.mem_iff.mp hm
    rw [hcalls] at hmem
    obtain ⟨uri, -, rfl⟩ := List.mem_map.mp hmem
    exact ⟨.ofUri uri, Or.inl rfl⟩
  · intro f hf
    have hnone : f ∈ s.told node ptr := hf
    rw [hfound] at hnone
    exact absurd hnone List.not_mem_nil
  · show ((s.told node ptr).map Finding.publisher ++ _).Perm _
    rw [hfound, List.map_nil, List.nil_append]
    refine (hmessages.filterMap _).trans (List.Perm.of_eq ?_)
    rw [hcalls, List.filterMap_map]
    exact congrFun (List.filterMap_eq_map (f := NodeAddress.ofUri)) uris

theorem told_concat (s : Graph C M) (f : Finding) :
    told { s with found := s.found ++ [f] } f.node f.callback = s.told f.node f.callback ++ [f] := by
  rw [told, List.filter_append, List.filter_cons_of_pos (by simp), List.filter_nil, told]

/-- A call of the second round arrives, or its reply does: another message takes its place, or a finding. -/
theorem Progress.answer {place : Nat} {uris : List StdString}
    (hrun : run (onEvent protos) empty events = .ok s)
    (hlisted : Listed protos events node ptr topic uris)
    (hmessages : ∀ m ∈ s.about node ptr, Contacts protos events node ptr topic m)
    (hfound : ∀ f ∈ s.told node ptr, Answered protos events node ptr topic f.publisher f.uris)
    (haccount : ((s.told node ptr).map Finding.publisher ++
      (s.about node ptr).filterMap GraphMessage.publisher).Perm (uris.map NodeAddress.ofUri))
    (hm : s.inFlight[place]? = some m)
    (habout : (s.about node ptr).Perm
      (m :: about { s with inFlight := s.inFlight.eraseIdx place } node ptr))
    (harrive : arrive protos { s with inFlight := s.inFlight.eraseIdx place } m = .ok s') :
    Progress protos (events ++ [.deliver place]) s' node ptr topic := by
  have hsame : ∀ (t : Graph C M) m', (t.about node ptr).Perm
      (about { s with inFlight := s.inFlight.eraseIdx place } node ptr ++ [m']) →
      t.told node ptr = s.told node ptr → m'.publisher = m.publisher →
      Contacts protos (events ++ [.deliver place]) node ptr topic m' →
      Progress protos (events ++ [.deliver place]) t node ptr topic := by
    intro t m' ht htold hpublisher hcontacts
    apply Progress.contacting uris (hlisted.concat _)
    · intro m'' hm''
      rcases List.mem_append.mp (ht.mem_iff.mp hm'') with hold | hnew
      · exact (hmessages m'' (habout.mem_iff.mpr (List.mem_cons_of_mem _ hold))).concat _
      · rw [List.mem_singleton.mp hnew]
        exact hcontacts
    · rw [htold]
      exact fun f hf => (hfound f hf).concat _
    · rw [htold]
      refine ((List.Perm.append_left _ ?_).trans haccount)
      have hcons : (t.about node ptr).Perm
          (m' :: about { s with inFlight := s.inFlight.eraseIdx place } node ptr) :=
        ht.trans (List.perm_append_singleton _ _)
      have hswap := habout.filterMap GraphMessage.publisher
      rw [List.filterMap_cons, ← hpublisher, ← List.filterMap_cons] at hswap
      exact (hcons.filterMap _).trans hswap.symm
  obtain ⟨publisher, rfl | ⟨answer, rfl, hanswered⟩⟩ :=
    hmessages m (habout.mem_iff.mpr List.mem_cons_self)
  · rw [arrive] at harrive
    split at harrive <;> obtain rfl := Except.ok.inj harrive
    · -- nobody listens
      refine hsame _ (.call node (.requestTopic publisher topic ptr)) ?_ rfl rfl
        ⟨publisher, Or.inl rfl⟩
      rw [about, flying, ← List.append_assoc, List.filter_append, List.filter_cons_of_pos
        (by simp [OutgoingCall.callback])]
      exact .refl _
    · rename_i server hserver
      refine hsame _ (.reply node (.requestTopic publisher topic ptr)
        ((s.nodes server).publicationURIs (protos server) topic)) ?_ rfl rfl ?_
      · exact about_append_self _ node ptr _ (by simp [OutgoingCall.callback])
      · exact ⟨publisher, Or.inr ⟨_, rfl, server, hserver, delivered_last hrun hm rfl⟩⟩
  · obtain rfl := Except.ok.inj harrive
    have htold := told_concat s ⟨node, ptr, publisher, answer⟩
    apply Progress.contacting uris (hlisted.concat _)
    · intro m' hm'
      exact (hmessages m' (habout.mem_iff.mpr (List.mem_cons_of_mem _ hm'))).concat _
    · intro f hf
      have hmem : f ∈ s.told node ptr ++ [⟨node, ptr, publisher, answer⟩] := htold ▸ hf
      rcases List.mem_append.mp hmem with hold | hnew
      · exact (hfound f hold).concat _
      · rw [List.mem_singleton.mp hnew]
        exact hanswered.concat _
    · have hpublishers := congrArg (List.map Finding.publisher) htold
      rw [List.map_append] at hpublishers
      refine (List.Perm.append_right _ (List.Perm.of_eq hpublishers)).trans ?_
      rw [List.append_assoc]
      refine (List.Perm.append_left _ ?_).trans haccount
      exact (habout.filterMap GraphMessage.publisher).symm

theorem Course.arrive {place : Nat} (h : Course protos events s node ptr)
    (hrun : run (onEvent protos) empty events = .ok s) (hmaster : s.master.Handled s.handled)
    (hm : s.inFlight[place]? = some m)
    (hflying : s.flying.Perm (m :: flying { s with inFlight := s.inFlight.eraseIdx place }))
    (harrive : arrive protos { s with inFlight := s.inFlight.eraseIdx place } m = .ok s') :
    Course protos (events ++ [.deliver place]) s' node ptr := by
  have hkept : (s'.nodes node).registrations ptr = (s.nodes node).registrations ptr := by
    rw [(arrive_requests hflying harrive).1]
  have habout := hflying.filter fun m => m.isFor node ptr
  by_cases hfor : m.isFor node ptr
  · rw [List.filter_cons_of_pos (by simpa using hfor)] at habout
    rcases h with ⟨hnone, hempty, -⟩ | ⟨topic, hone, hprogress⟩
    · have hmem : m ∈ s.about node ptr := habout.mem_iff.mpr List.mem_cons_self
      rw [hempty] at hmem
      exact absurd hmem List.not_mem_nil
    · refine Or.inr ⟨topic, hkept.trans hone, ?_⟩
      cases hprogress with
      | asking hmessages hfound =>
          obtain ⟨rfl, hrest⟩ := List.cons.inj (List.singleton_perm.mp (hmessages.symm.trans habout))
          exact .list hrun hmaster hm hrest.symm hfound harrive
      | listed uris hlisted hmessages hfound =>
          obtain ⟨rfl, hrest⟩ := List.cons.inj (List.singleton_perm.mp (hmessages.symm.trans habout))
          exact .contact hlisted hrest.symm hfound harrive _
      | contacting uris hlisted hmessages hfound haccount =>
          exact .answer hrun hlisted hmessages hfound haccount hm habout harrive
  · rw [List.filter_cons_of_neg (by simpa using hfor)] at habout
    obtain ⟨hmessages, hfound⟩ := arrive_frame harrive hfor
    exact h.idle _ hkept (hmessages.trans habout.symm) hfound

/-! ### Runs -/

/-- The requests are made by nodes, and the master holds what they ask for. -/
structure Served (s : Graph C M) : Prop where
  master : s.master.Handled s.handled
  nodes : ∀ node, (s.nodes node).RegistersOnce
  genuine : ∀ r ∈ s.handled ++ s.flying.filterMap GraphMessage.request,
    ∃ node, r.subject.uri = TopicManager.myURI node

theorem uri_of_mem_requests {uri : StdString} {c : TopicCall M} {r : MasterRequest}
    (h : r ∈ c.requests uri) : r.subject.uri = uri := by
  cases c with
  | registerPublication | unregisterPublication | registerSubscription | unregisterSubscription =>
      rw [List.mem_singleton.mp h]
      rfl
  | publish | shutdownPublication | shutdownSubscription => exact absurd h List.not_mem_nil

theorem served_empty : (empty : Graph C M).Served where
  master := Master.handled_empty
  nodes _ := TopicManager.registersOnce_empty
  genuine _ h := absurd h List.not_mem_nil

theorem Served.step (h : s.Served) {e : GraphEvent C M} (hrun : s.onEvent protos e = .ok s') :
    s'.Served := by
  rcases onEvent_cases hrun with ⟨node, op, t, -, hop, rfl⟩ | ⟨place, m, -, -, hflying, hrun⟩ |
      ⟨inFlight, lost, hperm, rfl⟩
  · apply Served.mk
    case master => exact h.master
    case nodes =>
      intro other
      show (Function.update s.nodes node t other).RegistersOnce
      by_cases hother : other = node
      · rw [hother, Function.update_self]
        exact TopicManager.stable_registersOnce.onOp (h.nodes node) hop
      · rw [Function.update_of_ne hother]
        exact h.nodes other
    case genuine =>
      intro r hr
      have hsent := (flying_send s
        ((t.calls.drop (s.nodes node).calls.length).flatMap (sent node))).filterMap GraphMessage.request
      rw [List.filterMap_append, request_flatMap_sent] at hsent
      have hmem := (hsent.append_left s.handled).mem_iff.mp hr
      rw [← List.append_assoc] at hmem
      rcases List.mem_append.mp hmem with hold | hnew
      · exact h.genuine r hold
      · obtain ⟨c, -, hc⟩ := List.mem_flatMap.mp hnew
        exact ⟨node, uri_of_mem_requests hc⟩
  · obtain ⟨hnodes, ⟨r, hmaster, hhandled, hrequests⟩ | ⟨hmaster, hhandled, hrequests⟩⟩ :=
      arrive_requests hflying hrun
    · obtain ⟨m', hmaster', -, hhandled'⟩ := h.master.onRequest r
      obtain rfl := Except.ok.inj (hmaster.symm.trans hmaster')
      apply Served.mk (hhandled ▸ hhandled') (hnodes ▸ h.nodes)
      intro r' hr'
      apply h.genuine
      rw [hhandled, List.append_assoc] at hr'
      exact (hrequests.append_left s.handled).mem_iff.mpr hr'
    · apply Served.mk (hmaster ▸ hhandled ▸ h.master) (hnodes ▸ h.nodes)
      intro r hr
      rw [hhandled] at hr
      exact h.genuine r ((hrequests.append_left s.handled).mem_iff.mp hr)
  · exact ⟨h.master, h.nodes, fun r hr =>
      h.genuine r (((hperm.filterMap _).append_left s.handled).mem_iff.mp hr)⟩

theorem run_served (hrun : run (onEvent protos) empty events = .ok s) : s.Served :=
  run_preserves (fun _ _ _ h hstep => h.step hstep) served_empty hrun

theorem run_course (hrun : run (onEvent protos) empty events = .ok s) (node : UInt16) (ptr : Nat) :
    Course protos events s node ptr := by
  apply run_traced (J := fun events s => Course protos events s node ptr) _ _ hrun
  · exact Or.inl ⟨rfl, rfl, rfl⟩
  · intro done e t t' hdone h hstep
    have hserved := run_served hdone
    rcases onEvent_cases hstep with ⟨other, op, u, rfl, hop, rfl⟩ |
        ⟨place, m, rfl, hm, hflying, harrive⟩ | ⟨inFlight, lost, hperm, rfl⟩
    · exact h.operate hop (TopicManager.stable_registersOnce.onOp (hserved.nodes other) hop) _
    · exact h.arrive hdone hserved.master hm hflying harrive
    · exact h.idle e rfl (hperm.filter _) rfl

/-! ### Who is found -/

/-- A list of nodes without repetition has the address of a node once, or not at all. -/
theorem count_address {uris : List StdString} (hnodup : uris.Nodup)
    (hnodes : ∀ uri ∈ uris, ∃ node, uri = TopicManager.myURI node) (server : UInt16) :
    (uris.map NodeAddress.ofUri).count (.ofUri (TopicManager.myURI server)) =
      if TopicManager.myURI server ∈ uris then 1 else 0 := by
  obtain ⟨nodes, rfl⟩ : ∃ nodes : List UInt16, nodes.map TopicManager.myURI = uris := by
    have hrange : uris ∈ Set.range (List.map TopicManager.myURI) := by
      rw [Set.range_list_map]
      intro uri huri
      obtain ⟨node, rfl⟩ := hnodes uri huri
      exact ⟨node, rfl⟩
    exact hrange
  have hinjective : Function.Injective (NodeAddress.ofUri ∘ TopicManager.myURI) :=
    fun _ _ h => NodeAddress.ofUri_myURI_inj h
  have hcount := List.count_map_of_injective nodes _ hinjective server
  rw [← List.map_map] at hcount
  have hmem := List.mem_map_of_injective TopicManager.myURI_injective (a := server) (l := nodes)
  refine hcount.trans ?_
  split_ifs with hserver
  · exact List.count_eq_one_of_mem hnodup.of_map (hmem.mp hserver)
  · exact List.count_eq_zero_of_not_mem (hserver ∘ hmem.mpr)

/-- **Discovery.** At any point of any run, the request for an object is under way to the master; or the
master has listed the publishers that it then knew, and the list is under way to the node; or each of
them is being asked, is answering, was lost or was found, once each. So once nothing for the object is
under way and nothing was lost, `foundPublisher` has been called exactly once for each node that was
registered when the master handled the subscription, with what that node offered when it was asked, and
for no other: a node that registers later is never found. -/
theorem discovery (protos : UInt16 → Publication → List PublishTransport)
    (events : List (GraphEvent C M)) (s : Graph C M) (hrun : run (onEvent protos) empty events = .ok s)
    (node : UInt16) (ptr : Nat) : Course protos events s node ptr ∧
      ∀ topic, (s.nodes node).registrations ptr = [topic] → s.about node ptr = [] →
        Delivered protos events (.call node (.registerSubscription topic ptr)) (fun t => ∀ server,
          ((s.told node ptr).map Finding.publisher).count (.ofUri (TopicManager.myURI server)) =
            if History.last MasterRequest.subject ⟨.publisher, topic, TopicManager.myURI server⟩
              t.handled = some (.registerPublication topic (TopicManager.myURI server)) then 1 else 0) ∧
        ∀ f ∈ s.told node ptr, (∃ server, f.publisher = .ofUri (TopicManager.myURI server)) ∧
          Answered protos events node ptr topic f.publisher f.uris := by
  have hcourse := run_course hrun node ptr
  refine ⟨hcourse, ?_⟩
  intro topic hone hempty
  rcases hcourse with ⟨hnone, -, -⟩ | ⟨topic', hone', hprogress⟩
  · rw [hnone] at hone
    cases hone
  · obtain rfl := List.singleton_inj.mp (hone'.symm.trans hone)
    cases hprogress with
    | asking hmessages _ =>
        rw [hempty] at hmessages
        exact absurd hmessages.symm.eq_nil (List.cons_ne_nil _ _)
    | listed uris _ hmessages _ =>
        rw [hempty] at hmessages
        exact absurd hmessages.symm.eq_nil (List.cons_ne_nil _ _)
    | contacting uris hlisted _ hfound haccount =>
        rw [hempty, List.filterMap_nil, List.append_nil] at haccount
        obtain ⟨before, place, after, t, hevents, ht, hm, hnodup, hmem⟩ := hlisted
        have hnodes : ∀ uri ∈ uris, ∃ node, uri = TopicManager.myURI node := by
          intro uri huri
          have hlast := List.mem_of_getLast? ((hmem uri).mp huri)
          exact (run_served ht).genuine _ (List.mem_append_left _ (List.mem_filter.mp hlast).1)
        refine ⟨⟨before, place, after, t, hevents, ht, hm, fun server => ?_⟩, fun f hf => ⟨?_, hfound f hf⟩⟩
        · rw [haccount.count_eq, count_address hnodup hnodes]
          exact if_congr (hmem _) rfl rfl
        · have hpublisher := haccount.mem_iff.mp (List.mem_map_of_mem hf)
          obtain ⟨uri, huri, heq⟩ := List.mem_map.mp hpublisher
          obtain ⟨server, rfl⟩ := hnodes uri huri
          exact ⟨server, heq.symm⟩

/-- The node that was registered is the one that is found. -/
theorem discovery_published :
    ∃ s : Graph Unit Unit, run (onEvent fun _ _ => []) empty published = .ok s ∧
      s.told 2 0 = [⟨2, 0, ⟨literal "127.0.0.1", 1⟩, []⟩] ∧ Course (fun _ _ => []) published s 2 0 ∧
      Delivered (fun _ _ => []) published (.call 2 (.registerSubscription [47, 97] 0)) (fun t => ∀ server,
        ((s.told 2 0).map Finding.publisher).count (.ofUri (TopicManager.myURI server)) =
          if History.last MasterRequest.subject ⟨.publisher, [47, 97], TopicManager.myURI server⟩
            t.handled = some (.registerPublication [47, 97] (TopicManager.myURI server)) then 1 else 0) := by
  obtain ⟨s, hrun, hone, hempty, htold⟩ : ∃ s : Graph Unit Unit,
      run (onEvent fun _ _ => []) empty published = .ok s ∧
        (s.nodes 2).registrations 0 = [[47, 97]] ∧ s.about 2 0 = [] ∧
        s.told 2 0 = [⟨2, 0, ⟨literal "127.0.0.1", 1⟩, []⟩] := ⟨_, rfl, rfl, rfl, by decide⟩
  have hfound := discovery _ _ s hrun 2 0
  exact ⟨s, hrun, htold, hfound.1, (hfound.2 [47, 97] hone hempty).1⟩

end Graph

end Ros2Proto
