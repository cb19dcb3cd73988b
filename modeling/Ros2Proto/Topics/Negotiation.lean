import Ros2Proto.Base.History
import Ros2Proto.Base.Runs
import Ros2Proto.Base.Strings
import Ros2Proto.PubSub.Tcp
import Ros2Proto.Topics.Manager

/-!
# Agreeing on a transport

A publisher lists its transports as URIs, `protocol://endpoint`, and a subscriber takes them apart
again: `publicationURIs` of `topic_manager.cpp`, `foundPublisher` of `pubsub.hpp`, and the endpoints
that TCP transports print and parse. The `protos_` of a `Publication` or `Subscription` stand beside
it. What is called on a transport of a subscription is recorded with it.

An endpoint may hold colons and slashes of its own, as it is what follows the first separator. Of the
offers for one protocol the last counts, and of the subscriber's transports the first that is offered.
-/

namespace Ros2Proto

open FallibleRun Strings

variable {C C' M : Type}

/-! ### The publisher -/

/-- A `PublishTransport`. No protocol has a colon in its name. -/
structure PublishTransport where
  protocol : StdString
  endpoint : StdString
  colon_free : 58 ∉ protocol

/-- A transport as a publisher lists it. -/
def PublishTransport.uri (proto : PublishTransport) : StdString :=
  proto.protocol ++ literal "://" ++ proto.endpoint

namespace TopicManager

/-- The transports of the publication on a topic, if there is one. -/
def offers (t : TopicManager C M) (protos : Publication → List PublishTransport)
    (topic : StdString) : List PublishTransport :=
  match t.publications[topic]? with
  | none => []
  | some pub => protos pub

def publicationURIs (t : TopicManager C M) (protos : Publication → List PublishTransport)
    (topic : StdString) : List StdString :=
  (t.offers protos topic).map PublishTransport.uri

end TopicManager

/-- `endpoint`, with what `getServerPort` returns. -/
def TCPPublish.endpoint (serverPort : Int32) : StdString :=
  literal "localhost:" ++ decimal serverPort.toInt

/-! ### The subscriber -/

/-- A call on a transport of a subscription. -/
inductive SubscribeCall (C : Type)
  | onReceive (cb : C)
  | start (endpoint : StdString)
  deriving DecidableEq, Repr

structure SubscribeTransport (C : Type) where
  protocol : StdString
  calls : List (SubscribeCall C)

namespace SubscribeTransport

def onReceive (proto : SubscribeTransport C) (cb : C) : SubscribeTransport C :=
  { proto with calls := proto.calls ++ [.onReceive cb] }

def start (proto : SubscribeTransport C) (endpoint : StdString) : SubscribeTransport C :=
  { proto with calls := proto.calls ++ [.start endpoint] }

end SubscribeTransport

namespace Subscription

/-- The protocol and the endpoint of a URI. -/
def splitUri (uri : StdString) : Except Fault (StdString × StdString) :=
  match past uri (find (literal "://") uri) 3 with
  | none => .error .outOfRange
  | some endpoint => .ok (upTo uri (find (literal ":") uri), endpoint)

/-- The first loop of `foundPublisher`. -/
def remoteProtoEndpoint (uris : List StdString) : Except Fault (StdMap StdString) :=
  uris.foldlM (fun remote uri => do
    let (protocol, endpoint) ← splitUri uri
    .ok (remote.insert protocol endpoint)) ∅

/-- The second loop, which returns at the first match. -/
def startFirst (cb : C) (remote : StdMap StdString) :
    List (SubscribeTransport C) → List (SubscribeTransport C)
  | [] => []
  | proto :: rest =>
    match remote[proto.protocol]? with
    | some endpoint => (proto.onReceive cb).start endpoint :: rest
    | none => proto :: startFirst cb remote rest

def foundPublisher (sub : Subscription C) (protos : List (SubscribeTransport C))
    (uris : List StdString) : Except Fault (List (SubscribeTransport C)) := do
  let remote ← remoteProtoEndpoint uris
  .ok (startFirst sub.cb remote protos)

end Subscription

/-- What `start` passes to `connect`. -/
def TCPSubscribe.connectArgs (endpoint : StdString) : Except Fault (StdString × Int) :=
  let n := find (literal ":") endpoint
  let host := upTo endpoint n
  match past endpoint n 1 with
  | none => .error .outOfRange
  | some rest => .ok (if host = literal "localhost" then literal "127.0.0.1" else host, atoi rest)

/-! ### Taking URIs apart -/

namespace Subscription

theorem splitUri_uri (proto : PublishTransport) :
    splitUri proto.uri = .ok (proto.protocol, proto.endpoint) := by
  have huri : proto.uri = proto.protocol ++ (58 :: [47, 47] ++ proto.endpoint) := by
    rw [PublishTransport.uri, List.append_assoc]
    rfl
  have hpast : past proto.uri (find (literal "://") proto.uri) 3 = some proto.endpoint := by
    rw [huri]
    exact past_find proto.colon_free
  have hupTo : upTo proto.uri (find (literal ":") proto.uri) = proto.protocol := by
    rw [huri]
    have hcut : ∀ rest, upTo (proto.protocol ++ ([58] ++ rest))
        (find [58] (proto.protocol ++ ([58] ++ rest))) = proto.protocol :=
      fun rest => upTo_find proto.colon_free
    exact hcut ([47, 47] ++ proto.endpoint)
  rw [splitUri, hpast, hupTo]

/-- Each protocol is left with the endpoint of its last offer. -/
theorem remoteProtoEndpoint_uris (offered : List PublishTransport) :
    ∃ remote, remoteProtoEndpoint (offered.map PublishTransport.uri) = .ok remote ∧
      ∀ protocol, remote[protocol]? =
        (History.last PublishTransport.protocol protocol offered).map PublishTransport.endpoint := by
  have hfold : ∀ (offered : List PublishTransport) (remote : StdMap StdString),
      (offered.map PublishTransport.uri).foldlM (fun remote uri => do
        let (protocol, endpoint) ← splitUri uri
        .ok (remote.insert protocol endpoint)) remote =
      (.ok (offered.foldl (fun remote proto => remote.insert proto.protocol proto.endpoint) remote) :
        Except Fault (StdMap StdString)) := by
    intro offered
    induction offered with
    | nil => exact fun _ => rfl
    | cons proto offered ih =>
        intro remote
        rw [List.map_cons, List.foldlM_cons, splitUri_uri]
        exact ih _
  exact ⟨_, hfold offered ∅, fun protocol => History.getElem?_foldl_insert _ offered protocol⟩

/-! ### Choosing -/

/-- No transport of the subscription is offered. -/
def NoneShared (offered : List PublishTransport) (protos : List (SubscribeTransport C)) : Prop :=
  ∀ proto ∈ protos, ∀ offer ∈ offered, offer.protocol ≠ proto.protocol

/-- The transport at place `i` is the first that is offered, and `offer` the last offer for it. -/
structure Chosen (offered : List PublishTransport) (protos : List (SubscribeTransport C)) (i : Nat)
    (proto : SubscribeTransport C) (offer : PublishTransport) : Prop where
  place : protos[i]? = some proto
  first : NoneShared offered (protos.take i)
  last : History.last PublishTransport.protocol proto.protocol offered = some offer

/-- The transport is given the callback and then started. -/
def started (proto : SubscribeTransport C) (cb : C) (endpoint : StdString) : SubscribeTransport C :=
  { proto with calls := proto.calls ++ [.onReceive cb, .start endpoint] }

theorem onReceive_start (proto : SubscribeTransport C) (cb : C) (endpoint : StdString) :
    (proto.onReceive cb).start endpoint = started proto cb endpoint := by
  rw [SubscribeTransport.start, SubscribeTransport.onReceive, started, List.append_assoc]
  rfl

variable {offered : List PublishTransport} {remote : StdMap StdString}

theorem startFirst_cases
    (hremote : ∀ protocol, remote[protocol]? =
      (History.last PublishTransport.protocol protocol offered).map PublishTransport.endpoint)
    (cb : C) (protos : List (SubscribeTransport C)) :
    (NoneShared offered protos ∧ startFirst cb remote protos = protos) ∨
      ∃ i proto offer, Chosen offered protos i proto offer ∧
        startFirst cb remote protos = protos.set i (started proto cb offer.endpoint) := by
  induction protos with
  | nil => exact Or.inl ⟨by simp [NoneShared], rfl⟩
  | cons proto rest ih =>
      rw [startFirst, hremote]
      cases hlast : History.last PublishTransport.protocol proto.protocol offered with
      | some offer =>
          refine Or.inr ⟨0, proto, offer, ⟨rfl, by simp [NoneShared], hlast⟩, ?_⟩
          rw [Option.map_some, List.set_cons_zero, ← onReceive_start]
      | none =>
          have hmissing : ∀ offer ∈ offered, offer.protocol ≠ proto.protocol := by
            intro offer hoffer hprotocol
            obtain ⟨offer', hsome⟩ := History.exists_last hoffer hprotocol
            rw [hlast] at hsome
            cases hsome
          rcases ih with ⟨hnone, hrest⟩ | ⟨i, proto', offer, hchosen, hrest⟩
          · refine Or.inl ⟨fun p hp => ?_, by rw [Option.map_none]; exact congrArg _ hrest⟩
            rcases List.mem_cons.mp hp with rfl | hp
            · exact hmissing
            · exact hnone p hp
          · refine Or.inr ⟨i + 1, proto', offer, ⟨hchosen.place, fun p hp => ?_, hchosen.last⟩, ?_⟩
            · rw [List.take_succ_cons] at hp
              rcases List.mem_cons.mp hp with rfl | hp
              · exact hmissing
              · exact hchosen.first p hp
            · rw [Option.map_none, List.set_cons_succ]
              exact congrArg _ hrest

end Subscription

theorem connectArgs_endpoint (serverPort : Int32) :
    TCPSubscribe.connectArgs (TCPPublish.endpoint serverPort) =
      .ok (literal "127.0.0.1", serverPort.toInt) := by
  have hcolon : 58 ∉ literal "localhost" := by decide
  have hendpoint : TCPPublish.endpoint serverPort =
      literal "localhost" ++ (58 :: [] ++ decimal serverPort.toInt) := rfl
  have hpast : past (TCPPublish.endpoint serverPort)
      (find (literal ":") (TCPPublish.endpoint serverPort)) 1 = some (decimal serverPort.toInt) := by
    rw [hendpoint]
    exact past_find hcolon
  have hupTo : upTo (TCPPublish.endpoint serverPort)
      (find (literal ":") (TCPPublish.endpoint serverPort)) = literal "localhost" := by
    rw [hendpoint]
    exact upTo_find hcolon
  have hport : atoi (decimal serverPort.toInt) = serverPort.toInt :=
    atoi_decimal serverPort.le_toInt serverPort.toInt_lt
  simp only [TCPSubscribe.connectArgs, hpast, hupTo, hport, if_true]

/-! ### Main result -/

namespace Subscription

/-- **Agreeing on a transport.** What a topic manager lists for a topic makes a subscription start the
first of its transports whose protocol is offered, with its callback received before and with the
endpoint of the last offer for that protocol, and no other; it starts none if none is offered. The
endpoint of a `TCPPublish` makes a `TCPSubscribe` connect to the port on the local host. -/
theorem foundPublisher_publicationURIs (t : TopicManager C' M)
    (offers : Publication → List PublishTransport) (topic : StdString) (sub : Subscription C)
    (protos : List (SubscribeTransport C)) :
    (∃ protos', sub.foundPublisher protos (t.publicationURIs offers topic) = .ok protos' ∧
      ((NoneShared (t.offers offers topic) protos ∧ protos' = protos) ∨
        ∃ i proto offer, Chosen (t.offers offers topic) protos i proto offer ∧
          protos' = protos.set i (started proto sub.cb offer.endpoint))) ∧
      ∀ serverPort : Int32, TCPSubscribe.connectArgs (TCPPublish.endpoint serverPort) =
        .ok (literal "127.0.0.1", serverPort.toInt) := by
  obtain ⟨remote, hfold, hremote⟩ := remoteProtoEndpoint_uris (t.offers offers topic)
  refine ⟨⟨startFirst sub.cb remote protos, ?_, startFirst_cases hremote sub.cb protos⟩,
    connectArgs_endpoint⟩
  exact bind_eq_ok_iff.mpr ⟨remote, hfold, rfl⟩

end Subscription

end Ros2Proto
