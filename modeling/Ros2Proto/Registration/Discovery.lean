import Ros2Proto.Base.Strings
import Ros2Proto.Topics.Lifetime

/-!
# Finding publishers

`MasterRegistration` on behalf of one `TopicManager`: `subscribe` hands `registerSubscription` a
callback that holds the address of the new `Subscription`, the master's reply makes
`contactPublishers` ask every publisher for its transports with that same callback, and a publisher's
reply calls `foundPublisher` on the address. Each call has a connection of its own and waits for
nothing, so replies come in any order, at any time, or never. The other calls on the master are bound
to `emptyCallback` and are not part of the model.

Nothing cancels a call when its subscription goes. So the address is good in every order of replies
exactly if no call on the manager removes a subscription that a reply is still to come for.
-/

namespace Ros2Proto

open FallibleRun Strings

variable {C M : Type*}

structure NodeAddress where
  addr : StdString
  port : Int
  deriving DecidableEq, Repr

/-- A call of `MultiServiceClient` that waits for its reply, with the address of the subscription
that its callback was bound to. -/
inductive OutgoingCall
  | registerSubscription (topic : StdString) (callback : Nat)
  | requestTopic (publisher : NodeAddress) (topic : StdString) (callback : Nat)
  deriving DecidableEq, Repr

def OutgoingCall.callback : OutgoingCall → Nat
  | registerSubscription _ callback => callback
  | requestTopic _ _ callback => callback

/-- The address in a node's URI, `addr:port`. Without a colon `find` returns `npos`, so the port is
read from the start. -/
def NodeAddress.ofUri (endpoint : StdString) : NodeAddress where
  addr := upTo endpoint (find [58] endpoint)
  port := atoi (endpoint.drop ((find [58] endpoint).elim 0 (· + 1)))

namespace MasterRegistration

def contactPublishers (topic : StdString) (nodeUris : List StdString) (callback : Nat) :
    List OutgoingCall :=
  nodeUris.map fun endpoint => .requestTopic (.ofUri endpoint) topic callback

end MasterRegistration

structure Discovery (C M : Type*) where
  manager : TopicManager C M
  outgoingCalls : List OutgoingCall
  /-- the calls of `foundPublisher`: the object each was made on, and its argument -/
  found : List (Nat × List StdString)

/-- A call on the topic manager, or the reply to one of the calls that wait, with the URIs it
carries. -/
inductive DiscoveryEvent (C M : Type*)
  | operate (op : TopicOp C M)
  | reply (call : Nat) (uris : List StdString)

namespace Discovery

open TopicManager

def empty : Discovery C M := ⟨.empty, [], []⟩

/-- What a call on `regp_` has to wait for. -/
def callFor : TopicCall M → Option OutgoingCall
  | .registerSubscription topic subscription => some (.registerSubscription topic subscription)
  | _ => none

def onReply (d : Discovery C M) (call : Nat) (uris : List StdString) : Discovery C M :=
  match d.outgoingCalls[call]? with
  | none => d
  | some (.registerSubscription topic callback) => { d with
      outgoingCalls := d.outgoingCalls.eraseIdx call ++
        MasterRegistration.contactPublishers topic uris callback }
  | some (.requestTopic _ _ callback) => { d with
      outgoingCalls := d.outgoingCalls.eraseIdx call
      found := d.found ++ [(callback, uris)] }

def onEvent (d : Discovery C M) : DiscoveryEvent C M → Except Fault (Discovery C M)
  | .operate op => do
    let t ← d.manager.onOp op
    .ok { d with
      manager := t
      outgoingCalls := d.outgoingCalls ++
        (t.calls.drop d.manager.calls.length).filterMap callFor }
  | .reply call uris => .ok (d.onReply call uris)

/-- Where the event is a publisher's reply, the subscription it is for is still held. -/
def InvokesHeld (d : Discovery C M) : DiscoveryEvent C M → Prop
  | .operate _ => True
  | .reply call _ => ∀ publisher topic callback,
      d.outgoingCalls[call]? = some (.requestTopic publisher topic callback) →
        d.manager.Holds callback

/-- The event removes no subscription that a call still waits for. -/
def SparesAwaited (d : Discovery C M) : DiscoveryEvent C M → Prop
  | .operate op => ∀ u topic sub, d.manager.Subscribed u topic sub →
      (∃ call ∈ d.outgoingCalls, call.callback = sub.ptr) → d.manager.Leaves u op
  | .reply _ _ => True

/-- Every call waits for a subscription that is held. -/
def Awaits (d : Discovery C M) : Prop :=
  ∀ call ∈ d.outgoingCalls, ∃ u topic sub, d.manager.Subscribed u topic sub ∧
    sub.ptr = call.callback

/-- What the manager of a reachable state keeps, whatever is removed. -/
structure Sound (d : Discovery C M) : Prop where
  inv : d.manager.Inv
  addressed : d.manager.Addressed

variable {d d' : Discovery C M}

theorem sound_empty : (empty : Discovery C M).Sound where
  inv := inv_empty
  addressed := ⟨by simp [empty, TopicManager.empty], by simp [empty, TopicManager.empty]⟩

theorem operate_eq_ok_iff {op : TopicOp C M} : d.onEvent (.operate op) = .ok d' ↔
    ∃ t, d.manager.onOp op = .ok t ∧ d' = { d with
      manager := t
      outgoingCalls := d.outgoingCalls ++
        (t.calls.drop d.manager.calls.length).filterMap callFor } := by
  constructor
  · intro hrun
    obtain ⟨t, hop, hrest⟩ := bind_eq_ok_iff.mp hrun
    exact ⟨t, hop, (Except.ok.inj hrest).symm⟩
  · rintro ⟨t, hop, rfl⟩
    exact bind_eq_ok_iff.mpr ⟨t, hop, rfl⟩

@[simp] theorem onReply_manager (call : Nat) (uris : List StdString) :
    (d.onReply call uris).manager = d.manager := by
  rw [onReply]
  split <;> rfl

theorem Sound.step (h : d.Sound) {e : DiscoveryEvent C M} (hrun : d.onEvent e = .ok d') :
    d'.Sound := by
  cases e with
  | operate op =>
      obtain ⟨t, hop, rfl⟩ := operate_eq_ok_iff.mp hrun
      exact ⟨h.inv.step hop, stable_addressed.onOp h.addressed hop⟩
  | reply call uris =>
      obtain rfl := Except.ok.inj hrun
      exact ⟨(onReply_manager call uris).symm ▸ h.inv, (onReply_manager call uris).symm ▸ h.addressed⟩

/-- The calls that an operation starts are for subscriptions it leaves. -/
theorem callback_of_mem_started {t t' : TopicManager C M} {leaves : StdString → Prop}
    (heffect : Effect t leaves t') {call : OutgoingCall}
    (hmem : call ∈ (t'.calls.drop t.calls.length).filterMap callFor) :
    ∃ u topic sub, t'.Subscribed u topic sub ∧ sub.ptr = call.callback := by
  obtain ⟨new, hcalls, hnew⟩ := heffect.registers
  rw [hcalls, List.drop_left] at hmem
  obtain ⟨c, hc, hcall⟩ := List.mem_filterMap.mp hmem
  cases c with
  | registerSubscription topic ptr =>
      obtain rfl := Option.some.inj hcall
      obtain ⟨u, sub, hsub, hptr⟩ := hnew topic ptr hc
      exact ⟨u, topic, sub, hsub, hptr⟩
  | registerPublication | unregisterPublication | unregisterSubscription | publish
  | shutdownPublication | shutdownSubscription => cases hcall

theorem mem_onReply {call : Nat} {uris : List StdString} {c : OutgoingCall}
    (hmem : c ∈ (d.onReply call uris).outgoingCalls) :
    ∃ c' ∈ d.outgoingCalls, c'.callback = c.callback := by
  rw [onReply] at hmem
  split at hmem
  · exact ⟨c, hmem, rfl⟩
  · rename_i topic callback hcall
    rcases List.mem_append.mp hmem with hmem | hmem
    · exact ⟨c, List.mem_of_mem_eraseIdx hmem, rfl⟩
    · obtain ⟨endpoint, -, rfl⟩ := List.mem_map.mp hmem
      exact ⟨_, List.mem_of_getElem? hcall, rfl⟩
  · exact ⟨c, List.mem_of_mem_eraseIdx hmem, rfl⟩

theorem Awaits.step (h : d.Awaits) (hd : d.Sound) {e : DiscoveryEvent C M}
    (hspares : d.SparesAwaited e) (hrun : d.onEvent e = .ok d') : d'.Awaits := by
  intro c hmem
  cases e with
  | operate op =>
      obtain ⟨t, hop, rfl⟩ := operate_eq_ok_iff.mp hrun
      have heffect := hd.inv.effect hop
      rcases List.mem_append.mp hmem with hmem | hmem
      · obtain ⟨u, topic, sub, hsub, hptr⟩ := h c hmem
        have hleaves := hspares u topic sub hsub ⟨c, hmem, hptr.symm⟩
        exact ⟨u, topic, sub, heffect.stays u topic sub hsub hleaves, hptr⟩
      · exact callback_of_mem_started heffect hmem
  | reply call uris =>
      obtain rfl := Except.ok.inj hrun
      obtain ⟨c', hmem', hcallback⟩ := mem_onReply hmem
      obtain ⟨u, topic, sub, hsub, hptr⟩ := h c' hmem'
      exact ⟨u, topic, sub, (onReply_manager call uris).symm ▸ hsub, hptr.trans hcallback⟩

theorem Awaits.invokesHeld (h : d.Awaits) (e : DiscoveryEvent C M) : d.InvokesHeld e := by
  cases e with
  | operate op => trivial
  | reply call uris =>
      intro publisher topic callback hcall
      obtain ⟨u, topic', sub, hsub, hptr⟩ := h _ (List.mem_of_getElem? hcall)
      have hholds := hsub.holds
      rw [hptr] at hholds
      exact hholds

/-- Where no awaited subscription is removed, every callback is on a subscription still held. -/
theorem along_invokesHeld {events : List (DiscoveryEvent C M)} (hd : d.Sound) (h : d.Awaits)
    (hspares : Along onEvent SparesAwaited d events) : Along onEvent InvokesHeld d events := by
  induction events generalizing d with
  | nil => trivial
  | cons e events ih =>
      refine ⟨h.invokesHeld e, ?_⟩
      intro d' hstep
      exact ih (hd.step hstep) (h.step hd hspares.1 hstep) (hspares.2 d' hstep)

/-! ### When a subscription is removed too early -/

/-- A reply to a publisher's call calls back on the address, held or not. -/
theorem not_invokesHeld_of_requestTopic {call : Nat} {publisher : NodeAddress} {topic : StdString}
    {callback : Nat} (hcall : d.outgoingCalls[call]? = some (.requestTopic publisher topic callback))
    (hgone : ¬ d.manager.Holds callback) (uris : List StdString) :
    ¬ Along onEvent InvokesHeld d [.reply call uris] := by
  intro halong
  exact hgone (halong.1 publisher topic callback hcall)

/-- For every call whose subscription is gone there are replies that call back on it. -/
theorem exists_replies_of_gone {c : OutgoingCall} (hmem : c ∈ d.outgoingCalls)
    (hgone : ¬ d.manager.Holds c.callback) : ∃ replies : List (Nat × List StdString),
      ¬ Along onEvent InvokesHeld d (replies.map fun r => .reply r.1 r.2) := by
  obtain ⟨call, hcall⟩ := List.mem_iff_getElem?.mp hmem
  cases c with
  | requestTopic publisher topic callback =>
      exact ⟨[(call, [])], not_invokesHeld_of_requestTopic hcall hgone []⟩
  | registerSubscription topic callback =>
      -- one publisher is enough, and its call is the last one
      refine ⟨[(call, [[]]), ((d.outgoingCalls.eraseIdx call).length, [])], ?_⟩
      intro halong
      have hnext := halong.2 _ rfl
      have hasked : (d.onReply call [[]]).outgoingCalls[(d.outgoingCalls.eraseIdx call).length]? =
          some (.requestTopic (.ofUri []) topic callback) := by
        rw [onReply, hcall]
        exact List.getElem?_concat_length
      have hgone' : ¬ (d.onReply call [[]]).manager.Holds callback := by
        rw [onReply_manager]
        exact hgone
      exact not_invokesHeld_of_requestTopic hasked hgone' [] hnext

/-- A call that removes an awaited subscription leaves its callback with nothing to be called on. -/
theorem exists_gone_of_removed (hd : d.Sound) {op : TopicOp C M}
    (hremoves : ¬ d.SparesAwaited (.operate op)) (hrun : d.onEvent (.operate op) = .ok d') :
    ∃ c ∈ d'.outgoingCalls, ¬ d'.manager.Holds c.callback := by
  obtain ⟨t, hop, rfl⟩ := operate_eq_ok_iff.mp hrun
  obtain ⟨u, topic, sub, hsub, ⟨c, hmem, hcallback⟩, hleaves⟩ : ∃ u topic sub,
      d.manager.Subscribed u topic sub ∧ (∃ c ∈ d.outgoingCalls, c.callback = sub.ptr) ∧
        ¬ d.manager.Leaves u op := by
    by_contra hall
    apply hremoves
    intro u topic sub hsub hawaited
    by_contra hleaves
    exact hall ⟨u, topic, sub, hsub, hawaited, hleaves⟩
  refine ⟨c, List.mem_append_left _ hmem, ?_⟩
  rintro ⟨topic', sub', hsub', hptr⟩
  have hinv' := hd.inv.step hop
  obtain ⟨v, hv⟩ := hinv'.toBooked.exists_subscribed hsub'
  have hsame : sub'.ptr = sub.ptr := hptr.trans hcallback
  rcases (hd.inv.effect hop).held v topic' sub' hv with ⟨hold, hstays⟩ | hnew
  · obtain rfl := hold.address_unique hd.addressed hd.inv.toBooked hsub hsame
    exact hleaves hstays
  · have hlt := hd.addressed.below topic sub hsub.2
    omega

theorem run_sound {events : List (DiscoveryEvent C M)} (hrun : run onEvent empty events = .ok d) :
    d.Sound :=
  run_preserves (fun _ _ _ h hstep => h.step hstep) sound_empty hrun

/-- **Callbacks on live subscriptions.** While no call on the manager removes a subscription that a
reply is still to come for, `foundPublisher` is only called on subscriptions that are held. And where
the calls get through, that is exactly the condition for it to be so at every point of the run,
whatever replies follow there. -/
theorem foundPublisher_on_held (events : List (DiscoveryEvent C M)) :
    (Along onEvent SparesAwaited empty events → Along onEvent InvokesHeld empty events) ∧
      ((∃ d, run onEvent empty events = .ok d) →
        (Along onEvent SparesAwaited empty events ↔
          ∀ before, before <+: events → ∀ replies : List (Nat × List StdString),
            Along onEvent InvokesHeld empty
              (before ++ replies.map fun r => .reply r.1 r.2))) := by
  have hheld : ∀ es : List (DiscoveryEvent C M), Along onEvent SparesAwaited empty es →
      Along onEvent InvokesHeld empty es := fun es hspares =>
    along_invokesHeld sound_empty (fun _ hmem => absurd hmem List.not_mem_nil) hspares
  refine ⟨hheld events, ?_⟩
  intro ⟨d, hrun⟩
  constructor
  · intro hspares before hprefix replies
    apply hheld
    apply (along_append _ _ _).mpr
    refine ⟨hspares.of_prefix hprefix, fun d' _ => ?_⟩
    apply along_of_forall
    intro d' e hmem
    obtain ⟨r, -, rfl⟩ := List.mem_map.mp hmem
    trivial
  · intro hall
    by_contra hspares
    obtain ⟨before, e, after, d', rfl, -, hbefore, hremoves⟩ := exists_first_failure hspares
    have hd' := run_sound hbefore
    rw [run_append_of_run hbefore, run_cons] at hrun
    obtain ⟨d'', hstep, -⟩ := bind_eq_ok_iff.mp hrun
    cases e with
    | reply call uris => exact hremoves trivial
    | operate op =>
        obtain ⟨c, hmem, hgone⟩ := exists_gone_of_removed hd' hremoves hstep
        obtain ⟨replies, hdead⟩ := exists_replies_of_gone hmem hgone
        have hprefix : before ++ [.operate op] <+: before ++ .operate op :: after :=
          ⟨after, by simp⟩
        have halong := ((along_append _ _ _).mp (hall _ hprefix replies)).2 d'' <| by
          rw [run_concat_of_run hbefore]
          exact hstep
        exact hdead halong

/-- The order that goes wrong: a subscriber asks, learns of a publisher and unsubscribes, and then the
publisher replies. -/
theorem unsubscribed_called_back : ¬ ∀ events : List (DiscoveryEvent Unit Unit),
    Along onEvent InvokesHeld empty events := by
  intro hall
  have halong := hall [.operate (.subscribe [97] ()), .reply 0 [[104, 58, 49]],
    .operate (.unregisterSubscription [97]), .reply 0 []]
  have hcall := (((halong.2 _ rfl).2 _ rfl).2 _ rfl).1 ⟨[104], 1⟩ [97] 0 rfl
  obtain ⟨topic, sub, hsub, -⟩ := hcall
  have hempty : (∅ : StdMap (Subscription Unit))[topic]? = some sub := hsub
  simp at hempty

/-- A subscriber that has its publisher's reply before it unsubscribes. -/
theorem foundPublisher_on_held_in_order :
    Along onEvent InvokesHeld (empty : Discovery Unit Unit)
        [.operate (.subscribe [97] ()), .reply 0 [[104, 58, 49]], .reply 0 [],
          .operate (.unregisterSubscription [97])] ∧
      (Along onEvent SparesAwaited (empty : Discovery Unit Unit) [.operate (.subscribe [97] ())] ↔
        ∀ before : List (DiscoveryEvent Unit Unit), before <+: [.operate (.subscribe [97] ())] →
          ∀ replies : List (Nat × List StdString),
            Along onEvent InvokesHeld empty
              (before ++ replies.map fun r => .reply r.1 r.2)) := by
  constructor
  · apply (foundPublisher_on_held _).1
    refine ⟨fun _ _ _ _ ⟨c, hmem, _⟩ => absurd hmem List.not_mem_nil, fun d₁ h₁ => ⟨trivial, ?_⟩⟩
    obtain rfl := Except.ok.inj h₁
    intro d₂ h₂
    obtain rfl := Except.ok.inj h₂
    refine ⟨trivial, fun d₃ h₃ => ⟨?_, fun _ _ => trivial⟩⟩
    obtain rfl := Except.ok.inj h₃
    exact fun _ _ _ _ ⟨c, hmem, _⟩ => absurd hmem List.not_mem_nil
  · exact (foundPublisher_on_held _).2 ⟨_, rfl⟩

end Discovery

end Ros2Proto
