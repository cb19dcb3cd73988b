import Mathlib.Data.List.Perm.Basic
import Ros2Proto.Registration.Agreement
import Ros2Proto.Registration.Discovery
import Ros2Proto.Topics.Negotiation

/-!
# The whole graph

All nodes, the master and the calls between them. A node is known by the port of its
`MultiServiceManager`, which is on this host, and its URI is what `myURI` prints. A call is under way
twice, as a request and as a reply, on a connection of its own: so any message may be the next to
arrive, or may be lost with its connection. Replies to calls that are bound to `emptyCallback` change
nothing and are not part of the model.

For the master, the graph is a `Network`, and for each node it is a `Discovery`: what is lost here is
under way there for ever.
-/

namespace Ros2Proto

open FallibleRun Strings

variable {C M : Type}

/-- `myURI` of a node whose server listens at the port. -/
def TopicManager.myURI (serverPort : UInt16) : StdString :=
  literal "127.0.0.1:" ++ decimal serverPort.toNat

/-- The node that a connection to the address reaches. A port is cut to 16 bits. -/
def NodeAddress.listener (a : NodeAddress) : Option UInt16 :=
  if a.addr = literal "127.0.0.1" then some (.ofNat (a.port % 2 ^ 16).toNat) else none

/-- What is under way between the parties. -/
inductive GraphMessage
  /-- a request to the master that is bound to `emptyCallback` -/
  | notice (request : MasterRequest)
  | call (node : UInt16) (call : OutgoingCall)
  | reply (node : UInt16) (call : OutgoingCall) (uris : List StdString)
  deriving DecidableEq, Repr

/-- A call of `foundPublisher`: the node and the object it is made on, the publisher that replied, and
the argument. -/
structure Finding where
  node : UInt16
  callback : Nat
  publisher : NodeAddress
  uris : List StdString
  deriving DecidableEq, Repr

structure Graph (C M : Type) where
  nodes : UInt16 → TopicManager C M
  master : Master
  inFlight : List GraphMessage
  /-- what was lost with its connection -/
  lost : List GraphMessage
  /-- the requests that the master has handled -/
  handled : List MasterRequest
  found : List Finding

/-- A call on a node's topic manager, or the end of the message at a place in `inFlight`. -/
inductive GraphEvent (C M : Type)
  | operate (node : UInt16) (op : TopicOp C M)
  | deliver (place : Nat)
  | lose (place : Nat)

namespace Graph

def empty : Graph C M := ⟨fun _ => .empty, .empty, [], [], [], []⟩

/-- What a node sends on behalf of a call of its topic manager. -/
def messages (node : UInt16) (c : TopicCall M) : Except Fault (List GraphMessage) := do
  let requests ← (MasterRegistration.mk (TopicManager.myURI node)).onCall c
  .ok (match Discovery.callFor c with
    | some call => [.call node call]
    | none => requests.map .notice)

def operate (s : Graph C M) (node : UInt16) (op : TopicOp C M) : Except Fault (Graph C M) := do
  let t ← (s.nodes node).onOp op
  let sent ← (t.calls.drop (s.nodes node).calls.length).mapM (messages node)
  .ok { s with
    nodes := Function.update s.nodes node t
    inFlight := s.inFlight ++ sent.flatten }

/-- The arrival of a message that is under way no more. A connection that nobody listens for fails. -/
def arrive (protos : UInt16 → Publication → List PublishTransport) (s : Graph C M) :
    GraphMessage → Except Fault (Graph C M)
  | .notice request => do
    let master ← s.master.onRequest request
    .ok { s with master := master, handled := s.handled ++ [request] }
  | .call node (.registerSubscription topic callback) => do
    let (uris, master) ← s.master.registerSubscription topic (TopicManager.myURI node)
    .ok { s with
      master := master
      handled := s.handled ++ [.registerSubscription topic (TopicManager.myURI node)]
      inFlight := s.inFlight ++ [.reply node (.registerSubscription topic callback) uris] }
  | .call node (.requestTopic publisher topic callback) =>
    match publisher.listener with
    | none => .ok { s with lost := s.lost ++ [.call node (.requestTopic publisher topic callback)] }
    | some server => .ok { s with
        inFlight := s.inFlight ++ [.reply node (.requestTopic publisher topic callback)
          ((s.nodes server).publicationURIs (protos server) topic)] }
  | .reply node (.registerSubscription topic callback) uris =>
    .ok { s with inFlight := s.inFlight ++
      (MasterRegistration.contactPublishers topic uris callback).map (.call node) }
  | .reply node (.requestTopic publisher _ callback) uris =>
    .ok { s with found := s.found ++ [⟨node, callback, publisher, uris⟩] }

def onEvent (protos : UInt16 → Publication → List PublishTransport) (s : Graph C M) :
    GraphEvent C M → Except Fault (Graph C M)
  | .operate node op => s.operate node op
  | .deliver place =>
    match s.inFlight[place]? with
    | none => .ok s
    | some m => arrive protos { s with inFlight := s.inFlight.eraseIdx place } m
  | .lose place =>
    match s.inFlight[place]? with
    | none => .ok s
    | some m => .ok { s with inFlight := s.inFlight.eraseIdx place, lost := s.lost ++ [m] }

end Graph

/-! ### Addresses -/

theorem NodeAddress.ofUri_myURI (node : UInt16) :
    NodeAddress.ofUri (TopicManager.myURI node) = ⟨literal "127.0.0.1", node.toNat⟩ := by
  have hcolon : 58 ∉ literal "127.0.0.1" := by decide
  have huri : TopicManager.myURI node = literal "127.0.0.1" ++ (58 :: [] ++ decimal node.toNat) := rfl
  have hfind : find [58] (TopicManager.myURI node) = some (literal "127.0.0.1").length := by
    rw [huri]
    exact find_append hcolon
  have hupTo : upTo (TopicManager.myURI node) (find [58] (TopicManager.myURI node)) =
      literal "127.0.0.1" := by
    rw [huri]
    exact upTo_find hcolon
  have hdrop : (TopicManager.myURI node).drop ((literal "127.0.0.1").length + 1) =
      decimal node.toNat := rfl
  have hlt := node.toNat_lt
  have hport : atoi (decimal node.toNat) = node.toNat := atoi_decimal (by omega) (by omega)
  rw [NodeAddress.ofUri, hupTo, hfind, Option.elim_some, hdrop, hport]

/-- The URI of a node leads to the node. -/
@[simp] theorem NodeAddress.listener_ofUri_myURI (node : UInt16) :
    (NodeAddress.ofUri (TopicManager.myURI node)).listener = some node := by
  have hlt := node.toNat_lt
  have hcut : ((node.toNat : Int) % 2 ^ 16).toNat = node.toNat := by omega
  rw [ofUri_myURI, listener, if_pos rfl, hcut, UInt16.ofNat_toNat]

theorem NodeAddress.ofUri_myURI_inj {node node' : UInt16}
    (h : NodeAddress.ofUri (TopicManager.myURI node) = NodeAddress.ofUri (TopicManager.myURI node')) :
    node = node' := by
  have hlistener := congrArg NodeAddress.listener h
  rw [listener_ofUri_myURI, listener_ofUri_myURI] at hlistener
  exact Option.some.inj hlistener

theorem TopicManager.myURI_injective : Function.Injective TopicManager.myURI := by
  intro node node' h
  exact NodeAddress.ofUri_myURI_inj (congrArg NodeAddress.ofUri h)

namespace Graph

/-! ### What an event does -/

/-- All messages, those that were lost among them. -/
def flying (s : Graph C M) : List GraphMessage := s.inFlight ++ s.lost

/-- New messages are behind the old ones, wherever those are kept. -/
theorem flying_send (s : Graph C M) (new : List GraphMessage) :
    (flying { s with inFlight := s.inFlight ++ new }).Perm (s.flying ++ new) := by
  rw [flying, flying, List.append_assoc, List.append_assoc]
  exact List.perm_append_comm.append_left _

/-- What a call of the topic manager makes a node send. Its URI is never empty. -/
def sent (node : UInt16) (c : TopicCall M) : List GraphMessage :=
  match Discovery.callFor c with
  | some call => [.call node call]
  | none => (c.requests (TopicManager.myURI node)).map .notice

theorem onCall_myURI (node : UInt16) (c : TopicCall M) :
    (MasterRegistration.mk (TopicManager.myURI node)).onCall c =
      .ok (c.requests (TopicManager.myURI node)) := by
  cases c <;> rfl

theorem messages_eq_ok (node : UInt16) (c : TopicCall M) : messages node c = .ok (sent node c) := by
  rw [messages, onCall_myURI]
  rfl

theorem mapM_messages (node : UInt16) (calls : List (TopicCall M)) :
    calls.mapM (messages node) = .ok (calls.map (sent node)) := by
  induction calls with
  | nil => rfl
  | cons c calls ih =>
      rw [List.mapM_cons, messages_eq_ok, ih]
      rfl

variable {protos : UInt16 → Publication → List PublishTransport} {s s' : Graph C M}
  {node : UInt16} {op : TopicOp C M}

theorem operate_eq_ok_iff : s.operate node op = .ok s' ↔
    ∃ t, (s.nodes node).onOp op = .ok t ∧ s' = { s with
      nodes := Function.update s.nodes node t
      inFlight := s.inFlight ++
        (t.calls.drop (s.nodes node).calls.length).flatMap (sent node) } := by
  rw [operate]
  constructor
  · intro hrun
    obtain ⟨t, hop, hrun⟩ := bind_eq_ok_iff.mp hrun
    rw [mapM_messages] at hrun
    exact ⟨t, hop, (Except.ok.inj hrun).symm⟩
  · intro ⟨t, hop, hs'⟩
    apply bind_eq_ok_iff.mpr
    refine ⟨t, hop, ?_⟩
    rw [mapM_messages, hs']
    rfl

/-- An event is an operation, an arrival, or changes at most where a message is. -/
theorem onEvent_cases {e : GraphEvent C M} (hrun : s.onEvent protos e = .ok s') :
    (∃ node op t, e = .operate node op ∧ (s.nodes node).onOp op = .ok t ∧ s' = { s with
      nodes := Function.update s.nodes node t
      inFlight := s.inFlight ++
        (t.calls.drop (s.nodes node).calls.length).flatMap (sent node) }) ∨
    (∃ place m, e = .deliver place ∧ s.inFlight[place]? = some m ∧
      s.flying.Perm (m :: flying { s with inFlight := s.inFlight.eraseIdx place }) ∧
      arrive protos { s with inFlight := s.inFlight.eraseIdx place } m = .ok s') ∨
    ∃ inFlight lost, (inFlight ++ lost).Perm s.flying ∧
      s' = { s with inFlight := inFlight, lost := lost } := by
  have herase : ∀ {place m}, s.inFlight[place]? = some m →
      s.inFlight.Perm (m :: s.inFlight.eraseIdx place) := by
    intro place m hm
    obtain ⟨hlt, rfl⟩ := List.getElem?_eq_some_iff.mp hm
    exact (List.getElem_cons_eraseIdx_perm hlt).symm
  cases e with
  | operate node op =>
      obtain ⟨t, hop, hs'⟩ := operate_eq_ok_iff.mp hrun
      exact Or.inl ⟨node, op, t, rfl, hop, hs'⟩
  | deliver place =>
      cases hm : s.inFlight[place]? with
      | none =>
          rw [onEvent, hm] at hrun
          exact Or.inr (Or.inr ⟨s.inFlight, s.lost, .refl _, (Except.ok.inj hrun).symm⟩)
      | some m =>
          rw [onEvent, hm] at hrun
          exact Or.inr (Or.inl ⟨place, m, rfl, hm, (herase hm).append_right _, hrun⟩)
  | lose place =>
      cases hm : s.inFlight[place]? with
      | none =>
          rw [onEvent, hm] at hrun
          exact Or.inr (Or.inr ⟨s.inFlight, s.lost, .refl _, (Except.ok.inj hrun).symm⟩)
      | some m =>
          rw [onEvent, hm] at hrun
          refine Or.inr (Or.inr ⟨_, _, ?_, (Except.ok.inj hrun).symm⟩)
          have hlost : (s.lost ++ [m]).Perm (m :: s.lost) := List.perm_append_singleton m s.lost
          exact ((hlost.append_left _).trans List.perm_middle).trans ((herase hm).symm.append_right _)

end Graph

end Ros2Proto
