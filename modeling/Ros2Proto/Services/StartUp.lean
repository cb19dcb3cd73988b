import Ros2Proto.Base.Runs
import Ros2Proto.PubSub.Delivery
import Ros2Proto.Services.Manager

/-!
# Requests that arrive while a server starts

A server should answer as one that had bound all of its methods before it listened: each request by one
call of its method's callback, in the order in which they arrived, with one response queued on the
connection it came by. As a request for a method that is not bound yet gets no response, a server does so
exactly if every request finds its method bound, and the callback returns.
-/

namespace Ros2Proto

open FallibleRun

variable {σ : Type}

/-! ### What a server should answer -/

namespace StartUp

/-- The callback a method is bound to. -/
def handler (u : StartUp σ) (method : StdString) : Option (ServiceCallback σ) :=
  (u.bindings.find? fun binding => binding.1 = method).map Prod.snd

/-- The responses so far, each with its connection, and the state the callbacks left. -/
abbrev Log (σ : Type) := List (Nat × List UInt8) × σ

/-- A request is answered by the callback of its method. -/
def answer (u : StartUp σ) (log : Log σ) (a : Arrival) : Except Fault (Log σ) :=
  match u.handler a.method with
  | none => .error .badFunctionCall
  | some cb => do
    let (resp, s) ← cb log.2 a.body
    .ok (log.1 ++ [(a.connection, resp)], s)

/-- The messages that carry the responses to a connection. -/
def responses (i : Nat) (log : Log σ) : List (List Frame) :=
  (log.1.filter fun entry => entry.1 = i).map fun entry => [.ofBytes entry.2]

theorem handler_eq (u : StartUp σ) {method : StdString} {cb : ServiceCallback σ}
    (h : (method, cb) ∈ u.bindings) : u.handler method = some cb := by
  have hfind : ∀ bindings : List (StdString × ServiceCallback σ), (bindings.map Prod.fst).Nodup →
      (method, cb) ∈ bindings →
      bindings.find? (fun binding => binding.1 = method) = some (method, cb) := by
    intro bindings
    induction bindings with
    | nil => exact fun _ hmem => nomatch hmem
    | cons binding rest ih =>
        intro hdistinct hmem
        rw [List.map_cons, List.nodup_cons] at hdistinct
        rcases List.mem_cons.mp hmem with rfl | hrest
        · exact List.find?_cons_of_pos (by simp)
        · have hne : binding.1 ≠ method := fun heq =>
            hdistinct.1 (heq ▸ List.mem_map_of_mem hrest)
          rw [List.find?_cons_of_neg (by simpa using hne)]
          exact ih hdistinct.2 hrest
  rw [handler, hfind u.bindings u.distinct h]
  rfl

/-- Every arrival that was answered has one response. -/
theorem connections_of_answers {u : StartUp σ} {log : Log σ} (arrived : List Arrival) {log' : Log σ}
    (hrun : run u.answer log arrived = .ok log') :
    log'.1.map Prod.fst = log.1.map Prod.fst ++ arrived.map Arrival.connection := by
  induction arrived generalizing log with
  | nil =>
      cases hrun
      exact (List.append_nil _).symm
  | cons a arrived ih =>
      rw [run_cons] at hrun
      obtain ⟨mid, hfirst, hrest⟩ := bind_eq_ok_iff.mp hrun
      rw [answer] at hfirst
      cases hcb : u.handler a.method with
      | none =>
          rw [hcb] at hfirst
          cases hfirst
      | some cb =>
          rw [hcb] at hfirst
          obtain ⟨⟨resp, s⟩, -, hmid⟩ := bind_eq_ok_iff.mp hfirst
          obtain rfl := Except.ok.inj hmid
          rw [ih hrest, List.map_append, List.append_assoc]
          rfl

end StartUp

/-! ### Transports that respond -/

namespace TransportTCP

/-- A transport that queues every message while it is open. -/
structure Responds (t : TransportTCP) : Prop where
  counted : t.Counted
  counting : t.closed = false → t.Counting 1 0

variable {t : TransportTCP}

theorem Counting.restart {k : Nat} (h : t.Counting 1 k) : t.Counting 1 0 :=
  ⟨h.toLive, h.filter, by rw [h.counter, Nat.mod_one, Nat.mod_one]⟩

theorem Responds.sendMessage (h : t.Responds) (hopen : t.closed = false) (data : List UInt8)
    (size : UInt32) :
    ∃ t', t.sendMessage data size = .ok t' ∧ t'.Responds ∧
      t'.sendMsgs.map Message.frames = t.sendMsgs.map Message.frames ++ [[⟨data, size⟩]] := by
  obtain ⟨t', added, hsend, hcounting, hqueue, hadded⟩ :=
    (h.counting hopen).sendMessage Nat.one_pos data size
  obtain ⟨t'', hsend', hfollows⟩ := h.counted.sendMessage data size
  obtain rfl := Except.ok.inj (hsend.symm.trans hsend')
  refine ⟨t', hsend, ⟨hfollows.counted, fun _ => hcounting.restart⟩, ?_⟩
  rw [hqueue, List.map_append, hadded]
  rfl

theorem Responds.takeMessage (h : t.Responds) (hopen : t.closed = false) :
    ∃ frames t', t.takeMessage = .ok (frames, t') ∧ t'.Responds ∧
      frames.toList ++ t'.sendMsgs.map Message.frames = t.sendMsgs.map Message.frames := by
  cases hq : t.sendMsgs with
  | nil => exact ⟨none, t, takeMessage_nil hq, h, by rw [hq]; rfl⟩
  | cons msg rest =>
      have hcounting := h.counting hopen
      obtain ⟨t', htake, halike⟩ := hcounting.toLive.takeMessage hq
      obtain ⟨t'', htake', hfollows⟩ := h.counted.takeMessage
      rw [htake] at htake'
      obtain rfl := Except.ok.inj htake'
      refine ⟨_, t', htake, ⟨hfollows.counted, fun _ => ⟨halike.live, ?_, ?_⟩⟩, ?_⟩
      · exact halike.filter.trans hcounting.filter
      · exact halike.msgCounter.trans hcounting.counter
      · rw [halike.sendMsgs]
        rfl

theorem Responds.close (h : t.Responds) (hopen : t.closed = false) :
    ∃ t', t.close = .ok t' ∧ t'.Responds ∧ t'.sendMsgs = t.sendMsgs := by
  obtain ⟨t', hclose, hfollows⟩ := h.counted.close
  have hclosed := hclose
  rw [TransportTCP.close, hopen, if_neg Bool.false_ne_true,
    if_neg (h.counted.sock hopen)] at hclosed
  obtain rfl := Except.ok.inj hclosed
  refine ⟨_, hclose, ⟨hfollows.counted, ?_⟩, rfl⟩
  intro hopens
  cases hopens

theorem responds_accepted (e : Endpoint) :
    ∃ t, e.transport.enableMessagePass.enableRead = .ok t ∧
      t.setMsgCallback.setDisconnectCallback.Responds ∧
      t.setMsgCallback.setDisconnectCallback.sendMsgs = [] := by
  refine ⟨_, rfl, ⟨⟨rfl, rfl, fun _ => ?_, Int.one_pos, Int.le_refl 0, Int.one_pos⟩,
    fun _ => ⟨⟨rfl, rfl, rfl⟩, rfl, rfl⟩⟩, rfl⟩
  show (e.sock : Int) ≠ -1
  omega

end TransportTCP

/-! ### One event -/

namespace Server

variable {u : StartUp σ} {s s' : Server σ}

/-- What was queued on a connection, nothing if there is none at this place. -/
def queuedAt (s : Server σ) (i : Nat) : List (List Frame) := (s.peers[i]?).elim [] Peer.queued

/-- A request that reaches the manager finds its method bound, and the callback returns. -/
def InTime (s : Server σ) : ServerEvent u → Prop
  | .request i method req _ => ∀ peer, s.peers[i]? = some peer → peer.tcp.closed = false →
      ∃ cb out, s.manager.cbs[method.payload]? = some cb ∧ cb s.state req.payload = .ok out
  | _ => True

structure Sound (u : StartUp σ) (s : Server σ) : Prop where
  responds : ∀ peer ∈ s.peers, peer.tcp.Responds
  cbs : ∀ (method : StdString) cb, s.manager.cbs[method]? = some cb → (method, cb) ∈ u.bindings
  startUp : ∀ method cb, StartStep.bind method cb ∈ s.startUp → (method, cb) ∈ u.bindings

/-- Nothing arrived, or one request that was answered. -/
inductive Serves (u : StartUp σ) (s s' : Server σ) : Prop
  | quiet (hstate : s'.state = s.state) (harrived : s'.arrived = s.arrived)
      (hqueue : ∀ j, s'.queuedAt j = s.queuedAt j)
  | answers (a : Arrival) (cb : ServiceCallback σ) (resp : List UInt8)
      (hhandler : u.handler a.method = some cb) (hcb : cb s.state a.body = .ok (resp, s'.state))
      (harrived : s'.arrived = s.arrived ++ [a])
      (hqueue : ∀ j, s'.queuedAt j =
        s.queuedAt j ++ if a.connection = j then [[.ofBytes resp]] else [])

/-- One request arrived that was not answered. -/
structure Drops (s s' : Server σ) (a : Arrival) : Prop where
  arrived : s'.arrived = s.arrived ++ [a]
  queue : ∀ j, s'.queuedAt j = s.queuedAt j

theorem queuedAt_set {peer : Peer} {i : Nat} (hi : s.peers[i]? = some peer) (peer' : Peer) (j : Nat) :
    ((s.peers.set i peer')[j]?).elim [] Peer.queued =
      if i = j then peer'.queued else s.queuedAt j := by
  have hlt : i < s.peers.length := (List.getElem?_eq_some_iff.mp hi).1
  rw [List.getElem?_set]
  split_ifs with hij
  · rfl
  · rfl

theorem queuedAt_of_getElem? {peer : Peer} {i : Nat} (hi : s.peers[i]? = some peer) :
    s.queuedAt i = peer.queued := by
  rw [queuedAt, hi]
  rfl

/-- A new connection has nothing queued. -/
theorem queuedAt_concat {peer : Peer} (hpeer : peer.queued = []) (j : Nat) :
    ((s.peers ++ [peer])[j]?).elim [] Peer.queued = s.queuedAt j := by
  rw [queuedAt]
  rcases Nat.lt_trichotomy j s.peers.length with hlt | rfl | hgt
  · rw [List.getElem?_append_left hlt]
  · rw [List.getElem?_concat_length, List.getElem?_eq_none (Nat.le_refl _)]
    exact hpeer
  · rw [List.getElem?_eq_none (Nat.le_of_lt hgt), List.getElem?_eq_none]
    rw [List.length_append]
    exact hgt

theorem Sound.onStart (h : Sound u s) : Sound u s.onStart ∧ Serves u s s.onStart := by
  have hrest : ∀ (step : StartStep σ) rest, s.startUp = step :: rest →
      ∀ method cb, StartStep.bind method cb ∈ rest → (method, cb) ∈ u.bindings :=
    fun step rest hstart method cb hmem => h.startUp method cb (hstart ▸ List.mem_cons_of_mem _ hmem)
  rw [Server.onStart]
  split
  · exact ⟨h, .quiet rfl rfl fun _ => rfl⟩
  · rename_i rest hstart
    exact ⟨⟨h.responds, h.cbs, hrest _ rest hstart⟩, .quiet rfl rfl fun _ => rfl⟩
  · rename_i method cb rest hstart
    refine ⟨⟨h.responds, fun method' cb' hbound => ?_, hrest _ rest hstart⟩,
      .quiet rfl rfl fun _ => rfl⟩
    have hmem : (method, cb) ∈ u.bindings := h.startUp method cb (hstart ▸ List.mem_cons_self)
    by_cases hmethod : method' = method
    · subst hmethod
      rw [MultiServiceManager.bind, Std.ExtTreeMap.getElem?_insert_self] at hbound
      exact Option.some.inj hbound ▸ hmem
    · rw [MultiServiceManager.bind, Assignment.getElem?_insert_of_ne _ hmethod] at hbound
      exact h.cbs method' cb' hbound

/-- One connection changes, but not what was queued on it. -/
theorem Sound.setPeer (h : Sound u s) {peer : Peer} {i : Nat} (hi : s.peers[i]? = some peer)
    {peer' : Peer} (hresponds : peer'.tcp.Responds) (hqueue : peer'.queued = peer.queued)
    (manager : MultiServiceManager σ) (hcbs : manager.cbs = s.manager.cbs) :
    Sound u { s with peers := s.peers.set i peer', manager := manager } ∧
      Serves u s { s with peers := s.peers.set i peer', manager := manager } := by
  refine ⟨⟨fun p hp => ?_, fun method cb hbound => h.cbs method cb (hcbs ▸ hbound), h.startUp⟩,
    .quiet rfl rfl fun j => ?_⟩
  · rcases List.mem_or_eq_of_mem_set hp with hp | rfl
    · exact h.responds p hp
    · exact hresponds
  · show ((s.peers.set i peer')[j]?).elim [] Peer.queued = s.queuedAt j
    rw [queuedAt_set hi]
    split_ifs with hij
    · rw [hqueue, ← hij, queuedAt_of_getElem? hi]
    · rfl

theorem Sound.onAccept (h : Sound u s) (e : Endpoint) :
    ∃ s', s.onEvent (u := u) (.accept e) = .ok s' ∧ Sound u s' ∧ Serves u s s' := by
  rw [onEvent]
  split_ifs
  · obtain ⟨tcp, henable, hresponds, hempty⟩ := TransportTCP.responds_accepted e
    have haccept : s.manager.onAccept s.peers.length e.transport =
        .ok (tcp.setMsgCallback.setDisconnectCallback,
          { s.manager with connections := s.manager.connections ++ [s.peers.length] }) := by
      rw [MultiServiceManager.onAccept, henable]
      rfl
    refine ⟨_, bind_eq_ok_iff.mpr ⟨_, haccept, rfl⟩, ⟨fun p hp => ?_, h.cbs, h.startUp⟩,
      .quiet rfl rfl fun j => ?_⟩
    · rcases List.mem_append.mp hp with hp | hp
      · exact h.responds p hp
      · obtain rfl := List.mem_singleton.mp hp
        exact hresponds
    · apply queuedAt_concat
      rw [Peer.queued, hempty]
      rfl
  · exact ⟨s, rfl, h, .quiet rfl rfl fun _ => rfl⟩

theorem Sound.onWritten (h : Sound u s) (i : Nat) :
    ∃ s', s.onWritten i = .ok s' ∧ Sound u s' ∧ Serves u s s' := by
  rw [Server.onWritten]
  cases hi : s.peers[i]? with
  | none => exact ⟨s, rfl, h, .quiet rfl rfl fun _ => rfl⟩
  | some peer =>
      dsimp only
      split_ifs with hclosed
      · exact ⟨s, rfl, h, .quiet rfl rfl fun _ => rfl⟩
      · obtain ⟨frames, tcp, htake, hresponds, hqueue⟩ :=
          (h.responds peer (List.mem_of_getElem? hi)).takeMessage (Bool.eq_false_iff.mpr hclosed)
        refine ⟨_, bind_eq_ok_iff.mpr ⟨_, htake, rfl⟩, ?_⟩
        apply h.setPeer hi hresponds _ s.manager rfl
        rw [Peer.queued, Peer.queued, List.append_assoc, hqueue]

theorem Sound.onDisconnect (h : Sound u s) (i : Nat) :
    ∃ s', s.onDisconnect i = .ok s' ∧ Sound u s' ∧ Serves u s s' := by
  rw [Server.onDisconnect]
  cases hi : s.peers[i]? with
  | none => exact ⟨s, rfl, h, .quiet rfl rfl fun _ => rfl⟩
  | some peer =>
      dsimp only
      split_ifs with hclosed
      · exact ⟨s, rfl, h, .quiet rfl rfl fun _ => rfl⟩
      · obtain ⟨tcp, hclose, hresponds, hqueue⟩ :=
          (h.responds peer (List.mem_of_getElem? hi)).close (Bool.eq_false_iff.mpr hclosed)
        refine ⟨_, bind_eq_ok_iff.mpr ⟨tcp, hclose, rfl⟩, ?_⟩
        apply h.setPeer hi hresponds _ (s.manager.onDisconnect i) rfl
        rw [Peer.queued, Peer.queued, hqueue]

/-- What an event can do: it is in time and served, or a request is not and goes without a response,
or its callback fails. -/
def Outcome (u : StartUp σ) (s : Server σ) (e : ServerEvent u) : Prop :=
  (∃ s', s.onEvent e = .ok s' ∧ Sound u s' ∧
    (InTime s e ∧ Serves u s s' ∨ ¬ InTime s e ∧ ∃ a, Drops s s' a)) ∨
    ¬ InTime s e ∧ ∃ f, s.onEvent e = .error f

theorem Outcome.served {e : ServerEvent u} (hin : InTime s e)
    (h : ∃ s', s.onEvent e = .ok s' ∧ Sound u s' ∧ Serves u s s') : Outcome u s e := by
  obtain ⟨s', hrun, hsound, hserves⟩ := h
  exact Or.inl ⟨s', hrun, hsound, Or.inl ⟨hin, hserves⟩⟩

section

variable {peer : Peer} {i : Nat} {method req : Frame}
  {known : method.payload ∈ u.bindings.map Prod.fst}

theorem onRequest_eq (hi : s.peers[i]? = some peer) (hopen : peer.tcp.closed = false)
    (method req : Frame) :
    s.onRequest i method req =
      (s.manager.onReceive s.state peer.tcp [method, req]).bind fun out => .ok { s with
        peers := s.peers.set i { peer with tcp := out.1 }
        state := out.2
        arrived := s.arrived ++ [⟨i, method.payload, req.payload⟩] } := by
  simp only [onRequest, hi, hopen, Bool.false_eq_true, if_false]
  rfl

/-- A request on an open connection whose method is not bound. -/
theorem Sound.onReceive_unbound (h : Sound u s) (hi : s.peers[i]? = some peer)
    (hopen : peer.tcp.closed = false) (hcb : s.manager.cbs[method.payload]? = none) :
    Outcome u s (.request i method req known) := by
  have hlate : ¬ InTime s (.request i method req known) := by
    intro hin
    obtain ⟨cb, _, hcb', -⟩ := hin peer hi hopen
    rw [hcb] at hcb'
    cases hcb'
  have hreceive : s.manager.onReceive s.state peer.tcp [method, req] = .ok (peer.tcp, s.state) := by
    simp only [MultiServiceManager.onReceive, hcb]
  have hset : s.peers.set i peer = s.peers := by
    obtain ⟨hlt, rfl⟩ := List.getElem?_eq_some_iff.mp hi
    exact List.set_getElem_self hlt
  refine Or.inl ⟨_, (onRequest_eq hi hopen method req).trans (bind_eq_ok_iff.mpr ⟨_, hreceive, rfl⟩),
    ?_, Or.inr ⟨hlate, ⟨i, method.payload, req.payload⟩, rfl, fun j => ?_⟩⟩
  · refine ⟨fun p hp => h.responds p ?_, h.cbs, h.startUp⟩
    exact hset ▸ hp
  · show ((s.peers.set i peer)[j]?).elim [] Peer.queued = _
    rw [hset, queuedAt]

/-- A request on an open connection whose callback fails. -/
theorem onReceive_fails (hi : s.peers[i]? = some peer) (hopen : peer.tcp.closed = false)
    {cb : ServiceCallback σ} (hcb : s.manager.cbs[method.payload]? = some cb) {f : Fault}
    (hout : cb s.state req.payload = .error f) : Outcome u s (.request i method req known) := by
  have hlate : ¬ InTime s (.request i method req known) := by
    intro hin
    obtain ⟨cb', out, hcb', hout'⟩ := hin peer hi hopen
    obtain rfl := Option.some.inj (hcb.symm.trans hcb')
    rw [hout] at hout'
    cases hout'
  have hreceive : s.manager.onReceive s.state peer.tcp [method, req] = .error f := by
    simp only [MultiServiceManager.onReceive, hcb, hout]
    rfl
  exact Or.inr ⟨hlate, f,
    (onRequest_eq hi hopen method req).trans (bind_eq_error_iff.mpr (Or.inl hreceive))⟩

/-- A request on an open connection whose callback returns. -/
theorem Sound.onReceive_answers (h : Sound u s) (hi : s.peers[i]? = some peer)
    (hopen : peer.tcp.closed = false) {cb : ServiceCallback σ}
    (hcb : s.manager.cbs[method.payload]? = some cb) {resp : List UInt8} {state : σ}
    (hout : cb s.state req.payload = .ok (resp, state)) :
    Outcome u s (.request i method req known) := by
  have hin : InTime s (.request i method req known) := by
    intro peer' hi' _
    exact ⟨cb, _, hcb, hout⟩
  obtain ⟨tcp, hsend, hresponds, hqueue⟩ :=
    (h.responds peer (List.mem_of_getElem? hi)).sendMessage hopen resp (UInt32.ofNat resp.length)
  have hreceive : s.manager.onReceive s.state peer.tcp [method, req] = .ok (tcp, state) := by
    simp only [MultiServiceManager.onReceive, hcb, hout]
    exact bind_eq_ok_iff.mpr ⟨_, rfl, bind_eq_ok_iff.mpr ⟨tcp, hsend, rfl⟩⟩
  refine Outcome.served hin ⟨_,
    (onRequest_eq hi hopen method req).trans (bind_eq_ok_iff.mpr ⟨_, hreceive, rfl⟩),
    ⟨fun p hp => ?_, h.cbs, h.startUp⟩, ?_⟩
  · rcases List.mem_or_eq_of_mem_set hp with hp | rfl
    · exact h.responds p hp
    · exact hresponds
  · apply Serves.answers ⟨i, method.payload, req.payload⟩ cb resp
    · exact u.handler_eq (h.cbs _ _ hcb)
    · exact hout
    · rfl
    · intro j
      show ((s.peers.set i _)[j]?).elim [] Peer.queued = _
      rw [queuedAt_set hi]
      split_ifs with hij
      · rw [Peer.queued, hqueue, ← hij, queuedAt_of_getElem? hi, Peer.queued, List.append_assoc]
        rfl
      · rw [List.append_nil]

theorem Sound.onReceive (h : Sound u s) (hi : s.peers[i]? = some peer)
    (hopen : peer.tcp.closed = false) : Outcome u s (.request i method req known) := by
  cases hcb : s.manager.cbs[method.payload]? with
  | none => exact h.onReceive_unbound hi hopen hcb
  | some cb =>
      cases hout : cb s.state req.payload with
      | error f => exact onReceive_fails hi hopen hcb hout
      | ok out => exact h.onReceive_answers hi hopen hcb hout

end

theorem Sound.onEvent (h : Sound u s) (e : ServerEvent u) : Outcome u s e := by
  cases e with
  | start => exact .served trivial ⟨_, rfl, h.onStart⟩
  | accept e => exact .served trivial (h.onAccept e)
  | written i => exact .served trivial (h.onWritten i)
  | disconnect i => exact .served trivial (h.onDisconnect i)
  | request i method req known =>
      cases hi : s.peers[i]? with
      | none =>
          have hin : InTime s (.request i method req known) := by
            intro peer hi'
            rw [hi] at hi'
            cases hi'
          apply Outcome.served hin
          refine ⟨s, ?_, h, .quiet rfl rfl fun _ => rfl⟩
          rw [Server.onEvent, onRequest, hi]
      | some peer =>
          by_cases hclosed : peer.tcp.closed = true
          · have hin : InTime s (.request i method req known) := by
              intro peer' hi' hopen
              obtain rfl := Option.some.inj (hi.symm.trans hi')
              rw [hclosed] at hopen
              cases hopen
            apply Outcome.served hin
            refine ⟨s, ?_, h, .quiet rfl rfl fun _ => rfl⟩
            rw [Server.onEvent, onRequest, hi]
            exact if_pos hclosed
          · exact h.onReceive hi (Bool.eq_false_iff.mpr hclosed)

/-! ### Every run -/

/-- The requests that arrived have been answered by a server that had bound all methods from the
start, and its responses have been queued on their connections. -/
def Answered (u : StartUp σ) (s₀ : σ) (s : Server σ) : Prop :=
  ∃ log, run u.answer ([], s₀) s.arrived = .ok (log, s.state) ∧
    ∀ i, s.queuedAt i = StartUp.responses i (log, s.state)

theorem Answered.serves {s₀ : σ} (h : Answered u s₀ s) (hserves : Serves u s s') :
    Answered u s₀ s' := by
  obtain ⟨log, hrun, hqueue⟩ := h
  rcases hserves with ⟨hstate, harrived, hsame⟩ | ⟨a, cb, resp, hhandler, hcb, harrived, hmore⟩
  · refine ⟨log, by rw [harrived, hstate, hrun], fun i => ?_⟩
    rw [hsame, hqueue, hstate]
  · refine ⟨log ++ [(a.connection, resp)], ?_, fun i => ?_⟩
    · rw [harrived, run_concat_of_run hrun]
      simp only [StartUp.answer, hhandler]
      exact bind_eq_ok_iff.mpr ⟨_, hcb, rfl⟩
    · rw [hmore, hqueue, StartUp.responses, StartUp.responses]
      simp only [List.filter_append, List.map_append]
      split_ifs with hi <;> simp [hi]

/-- Fewer responses were queued on a connection than requests arrived by it. -/
def Short (i : Nat) (s : Server σ) : Prop :=
  (s.queuedAt i).length < (s.arrived.filter fun a => a.connection = i).length

theorem Answered.length {s₀ : σ} (h : Answered u s₀ s) (i : Nat) :
    (s.queuedAt i).length = (s.arrived.filter fun a => a.connection = i).length := by
  obtain ⟨log, hrun, hqueue⟩ := h
  have hconnections := StartUp.connections_of_answers s.arrived hrun
  rw [List.map_nil, List.nil_append] at hconnections
  have hcount := congrArg (fun l : List Nat => (l.filter (· = i)).length) hconnections
  simp only [List.filter_map, List.length_map] at hcount
  rw [hqueue, StartUp.responses, List.length_map]
  exact hcount

/-- A response that is missing stays so. -/
theorem Sound.keepShort {i : Nat} (hsound : Sound u s) (h : Short i s) {e : ServerEvent u}
    (hrun : s.onEvent e = .ok s') : Sound u s' ∧ Short i s' := by
  rw [Short] at h
  rcases hsound.onEvent e with ⟨s₁, hrun', hsound', hcases⟩ | ⟨-, f, herror⟩
  · obtain rfl := Except.ok.inj (hrun.symm.trans hrun')
    refine ⟨hsound', ?_⟩
    rw [Short]
    rcases hcases with ⟨-, ⟨-, harrived, hqueue⟩ | ⟨a, -, resp, -, -, harrived, hqueue⟩⟩ |
      ⟨-, a, harrived, hqueue⟩
    · rw [hqueue, harrived]
      exact h
    · rw [hqueue, harrived, List.filter_append, List.length_append, List.length_append]
      by_cases ha : a.connection = i
      · simp only [ha, if_true, decide_true, List.filter_cons_of_pos, List.length_singleton,
          List.filter_nil]
        omega
      · simp only [ha, if_false, List.length_nil]
        omega
    · rw [hqueue, harrived, List.filter_append, List.length_append]
      omega
  · rw [hrun] at herror
    cases herror

theorem Short.drops {s₀ : σ} (h : Answered u s₀ s) {a : Arrival} (hdrops : Drops s s' a) :
    Short a.connection s' := by
  rw [Short, hdrops.queue, hdrops.arrived, h.length, List.filter_append, List.length_append]
  simp

theorem sound_starting (u : StartUp σ) (s₀ : σ) : Sound u (starting u s₀) := by
  refine ⟨by simp [starting], by simp [starting, MultiServiceManager.empty], fun method cb hmem => ?_⟩
  rcases List.mem_cons.mp hmem with hinit | hbind
  · cases hinit
  · obtain ⟨binding, hbinding, heq⟩ := List.mem_map.mp hbind
    cases heq
    exact hbinding

theorem answered_starting (u : StartUp σ) (s₀ : σ) : Answered u s₀ (starting u s₀) :=
  ⟨[], rfl, fun _ => rfl⟩

theorem Sound.serves {s₀ : σ} (h : Sound u s) (hanswered : Answered u s₀ s) {e : ServerEvent u}
    (hin : InTime s e) : ∃ s', s.onEvent e = .ok s' ∧ Sound u s' ∧ Answered u s₀ s' := by
  rcases h.onEvent e with ⟨s', hrun, hsound, ⟨-, hserves⟩ | ⟨hlate, -⟩⟩ | ⟨hlate, -⟩
  · exact ⟨s', hrun, hsound, hanswered.serves hserves⟩
  · exact absurd hin hlate
  · exact absurd hin hlate

/-- A run up to its end in time. -/
theorem run_inTime {s₀ : σ} {events : List (ServerEvent u)}
    (h : Along onEvent InTime (starting u s₀) events) :
    ∃ s, run onEvent (starting u s₀) events = .ok s ∧ Sound u s ∧ Answered u s₀ s :=
  run_invariant (fun _ _ h hin => h.1.serves h.2 hin)
    (And.intro (sound_starting u s₀) (answered_starting u s₀)) h

/-- The first request that is late leaves its connection short to the end. -/
theorem inTime_of_answered {s₀ : σ} {events : List (ServerEvent u)}
    (hrun : run onEvent (starting u s₀) events = .ok s) (hanswered : Answered u s₀ s) :
    Along onEvent InTime (starting u s₀) events := by
  by_contra hnot
  obtain ⟨before, e, after, mid, rfl, halong, hmid, hlate⟩ := exists_first_failure hnot
  obtain ⟨mid', hmid', hsound, hanswered'⟩ := run_inTime halong
  obtain rfl := Except.ok.inj (hmid.symm.trans hmid')
  rw [run_append_of_run hmid, run_cons] at hrun
  obtain ⟨next, hnext, hrest⟩ := bind_eq_ok_iff.mp hrun
  rcases hsound.onEvent e with ⟨next', hnext', hsound', ⟨hin, -⟩ | ⟨-, a, hdrops⟩⟩ | ⟨-, f, herror⟩
  · exact hlate hin
  · obtain rfl := Except.ok.inj (hnext.symm.trans hnext')
    have hshort := run_preserves (I := fun s => Sound u s ∧ Short a.connection s)
      (fun s e s' h hrun => h.1.keepShort h.2 hrun) ⟨hsound', Short.drops hanswered' hdrops⟩ hrest
    exact absurd (hanswered.length a.connection) hshort.2.ne
  · rw [hnext] at herror
    cases herror

/-! ### Main result -/

/-- **Requests during start-up.** Whatever the order in which a server listens, binds its methods and
accepts connections and requests, every request that arrived has been answered, by one call of its
method's callback and one response on its connection, all in the order of arrival, if and only if each
found its method bound and its callback returned. -/
theorem answered_iff_inTime (u : StartUp σ) (s₀ : σ) (events : List (ServerEvent u)) :
    (∃ s, run onEvent (starting u s₀) events = .ok s ∧ Answered u s₀ s) ↔
      Along onEvent InTime (starting u s₀) events := by
  constructor
  · intro ⟨s, hrun, hanswered⟩
    exact inTime_of_answered hrun hanswered
  · intro halong
    obtain ⟨s, hrun, -, hanswered⟩ := run_inTime halong
    exact ⟨s, hrun, hanswered⟩

/-! ### A request that comes early -/

/-- Strings as the generated code writes them: four bytes of length, then the bytes. -/
def readString (bytes : List UInt8) : Except Fault (StdString × List UInt8) :=
  let size := (LittleEndian.ofBytes (bytes.take 4)).toNat
  if bytes.length < 4 + size then .error .outOfRange
  else .ok ((bytes.drop 4).take size, bytes.drop (4 + size))

def writeString (s : StdString) : List UInt8 := LittleEndian.encode 4 s.length ++ s

def readNodeRequest (bytes : List UInt8) : Except Fault NodeRequest := do
  let (topic, bytes) ← readString bytes
  let (nodeUri, _) ← readString bytes
  .ok ⟨topic, nodeUri⟩

def uriList : ServiceType NodeRequest (List StdString) where
  read := readNodeRequest
  write uris := LittleEndian.encode 4 uris.length ++ uris.flatMap writeString

def readStrings : Nat → List UInt8 → Except Fault (List StdString)
  | 0, _ => .ok []
  | count + 1, bytes => do
    let (s, bytes) ← readString bytes
    let rest ← readStrings count bytes
    .ok (s :: rest)

/-- What the caller makes of the response. -/
def readUris (bytes : List UInt8) : Except Fault (List StdString) :=
  if bytes.length < 4 then .error .outOfRange
  else readStrings (LittleEndian.ofBytes (bytes.take 4)).toNat (bytes.drop 4)

theorem toNat_ofBytes_encode {n : Nat} (h : n < 2 ^ 32) :
    (LittleEndian.ofBytes (LittleEndian.encode 4 n)).toNat = n := by
  rw [LittleEndian.toNat_ofBytes (LittleEndian.length_encode 4 n), LittleEndian.decode_encode h]

theorem readString_writeString {s : StdString} (h : s.length < 2 ^ 32) (rest : List UInt8) :
    readString (writeString s ++ rest) = .ok (s, rest) := by
  have hsize : (LittleEndian.encode 4 s.length).length = 4 := LittleEndian.length_encode 4 _
  have hdrop : (LittleEndian.encode 4 s.length ++ (s ++ rest)).drop 4 = s ++ rest :=
    List.drop_left' hsize
  have hall : (LittleEndian.encode 4 s.length ++ (s ++ rest)).drop (4 + s.length) = rest := by
    rw [← List.drop_drop, hdrop, List.drop_left]
  rw [readString, writeString, List.append_assoc, List.take_left' hsize, toNat_ofBytes_encode h]
  rw [hdrop, hall, List.take_left, if_neg]
  rw [List.length_append, hsize, List.length_append]
  omega

theorem readStrings_flatMap {uris : List StdString} (h : ∀ uri ∈ uris, uri.length < 2 ^ 32) :
    readStrings uris.length (uris.flatMap writeString) = .ok uris := by
  induction uris with
  | nil => rfl
  | cons uri uris ih =>
      have hrest := ih fun other hother => h other (List.mem_cons_of_mem _ hother)
      rw [List.length_cons, List.flatMap_cons, readStrings,
        readString_writeString (h uri List.mem_cons_self)]
      show (readStrings uris.length (uris.flatMap writeString)).bind _ = _
      rw [hrest]
      rfl

/-- The caller reads the list that the server wrote. -/
theorem readUris_write {uris : List StdString} (hcount : uris.length < 2 ^ 32)
    (h : ∀ uri ∈ uris, uri.length < 2 ^ 32) : readUris (uriList.write uris) = .ok uris := by
  have hsize : (LittleEndian.encode 4 uris.length).length = 4 := LittleEndian.length_encode 4 _
  have hlong : ¬ (LittleEndian.encode 4 uris.length ++ uris.flatMap writeString).length < 4 := by
    rw [List.length_append, hsize]
    omega
  rw [uriList, readUris, if_neg hlong, List.take_left' hsize, List.drop_left' hsize,
    toNat_ofBytes_encode hcount, readStrings_flatMap h]

def noResponse : ServiceType NodeRequest Unit where
  read := readNodeRequest
  write _ := []

/-- The master of `master.cpp`, as it starts. -/
def master : StartUp Master := Master.start uriList noResponse uriList noResponse

/-- A node registers a subscription between `init` and the first `bind`. -/
def early : List (ServerEvent master) :=
  [.start, .accept PubSub.idle,
    .request 0 (.ofBytes (literal "registerSubscription"))
      (.ofBytes (writeString (literal "chat") ++ writeString (literal "127.0.0.1:4000"))) (by decide),
    .start, .start, .start, .start]

/-- A request that comes before its method is bound is never answered. -/
theorem early_unanswered :
    ¬ ∃ s, run onEvent (starting master .empty) early = .ok s ∧ Answered master .empty s := by
  intro ⟨s, hrun, hanswered⟩
  have halong := inTime_of_answered hrun hanswered
  obtain ⟨cb, _, hbound, -⟩ := ((halong.2 _ rfl).2 _ rfl).1 _ rfl rfl
  cases hbound

end Server

end Ros2Proto
