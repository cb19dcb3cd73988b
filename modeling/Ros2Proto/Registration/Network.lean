import Mathlib.Logic.Function.Basic
import Ros2Proto.Registration.Master
import Ros2Proto.Topics.Invariant

/-!
# Nodes, the master and the requests between them

Any number of nodes, each with its `TopicManager` and a `MasterRegistration`, and one master. A node
is known by its URI. `callMaster` opens a connection of its own for each request and waits for no
reply, so a request may be handled at any time after it was issued, whatever else is in flight. A reply
makes a node contact publishers, which changes none of the maps here.

What was issued and what was handled is recorded, each in its order.
-/

namespace Ros2Proto

variable {C M : Type}

structure MasterRegistration where
  myUri : StdString

namespace MasterRegistration

def myURI (g : MasterRegistration) : Except Fault StdString :=
  if g.myUri = [] then .error .rosBreak else .ok g.myUri

def registerSubscription (g : MasterRegistration) (topic : StdString) :
    Except Fault MasterRequest := do
  let uri ← g.myURI
  .ok (.registerSubscription topic uri)

def unregisterSubscription (g : MasterRegistration) (topic : StdString) :
    Except Fault MasterRequest := do
  let uri ← g.myURI
  .ok (.unregisterSubscription topic uri)

def registerPublication (g : MasterRegistration) (topic : StdString) :
    Except Fault MasterRequest := do
  let uri ← g.myURI
  .ok (.registerPublication topic uri)

/-- The one request that is not checked to have a URI. -/
def unregisterPublication (g : MasterRegistration) (topic : StdString) :
    Except Fault MasterRequest :=
  .ok (.unregisterPublication topic g.myUri)

/-- The requests that one call of the topic manager issues. -/
def onCall (g : MasterRegistration) : TopicCall M → Except Fault (List MasterRequest)
  | .registerPublication topic => do
    let request ← g.registerPublication topic
    .ok [request]
  | .unregisterPublication topic => do
    let request ← g.unregisterPublication topic
    .ok [request]
  | .registerSubscription topic _ => do
    let request ← g.registerSubscription topic
    .ok [request]
  | .unregisterSubscription topic => do
    let request ← g.unregisterSubscription topic
    .ok [request]
  | .publish _ _ | .shutdownPublication _ | .shutdownSubscription _ => .ok []

def onCalls (g : MasterRegistration) (calls : List (TopicCall M)) :
    Except Fault (List MasterRequest) :=
  calls.foldlM (fun requests call => do
    let new ← g.onCall call
    .ok (requests ++ new)) []

end MasterRegistration

structure Network (C M : Type) where
  nodes : StdString → TopicManager C M
  inFlight : List MasterRequest
  master : Master
  /-- the requests issued so far -/
  issued : List MasterRequest
  /-- the requests handled so far -/
  handled : List MasterRequest

/-- A call on a node's topic manager, or the arrival of a request at the master. -/
inductive NetworkEvent (C M : Type)
  | operate (uri : StdString) (op : TopicOp C M)
  | handle (request : MasterRequest)

namespace Network

def empty : Network C M := ⟨fun _ => .empty, [], .empty, [], []⟩

def operate (s : Network C M) (uri : StdString) (op : TopicOp C M) : Except Fault (Network C M) := do
  let t ← (s.nodes uri).onOp op
  let requests ← (MasterRegistration.mk uri).onCalls (t.calls.drop (s.nodes uri).calls.length)
  .ok { s with
    nodes := Function.update s.nodes uri t
    inFlight := s.inFlight ++ requests
    issued := s.issued ++ requests }

def handle (s : Network C M) (request : MasterRequest) : Except Fault (Network C M) := do
  let master ← s.master.onRequest request
  .ok { s with
    inFlight := s.inFlight.erase request
    master := master
    handled := s.handled ++ [request] }

/-- Only a request in flight can arrive. -/
def onEvent (s : Network C M) : NetworkEvent C M → Except Fault (Network C M)
  | .operate uri op => s.operate uri op
  | .handle request => if request ∈ s.inFlight then s.handle request else .ok s

end Network

end Ros2Proto
