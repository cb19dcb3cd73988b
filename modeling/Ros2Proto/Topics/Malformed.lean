import Ros2Proto.Topics.Negotiation

/-!
# Offers that are no URIs

`foundPublisher` on any strings. A string is taken for the protocol before its first colon, or all of it
where there is none, and for the endpoint behind its first `://`, or from the third character on where there
is none. So a string without the separator is not ignored: it is an offer too, it may take the place of a
proper one, and it ends in an exception if it has less than two characters.
-/

namespace Ros2Proto

open FallibleRun Strings

variable {C : Type}

namespace Subscription

def hasSeparator (uri : StdString) : Bool := (find (literal "://") uri).isSome

/-- What a string is taken for. -/
def asOffer (uri : StdString) : Option PublishTransport :=
  (past uri (find (literal "://") uri) 3).map fun endpoint =>
    ⟨upTo uri (find (literal ":") uri), endpoint, not_mem_upTo_find 58 uri⟩

/-- The strings without a separator are ignored, without an exception, and what is started is given the
endpoint of a URI with its protocol. -/
def Tolerates (sub : Subscription C) (protos : List (SubscribeTransport C))
    (uris : List StdString) : Prop :=
  ∃ protos', sub.foundPublisher protos uris = .ok protos' ∧
    sub.foundPublisher protos (uris.filter hasSeparator) = .ok protos' ∧
    ∀ (i : Nat) (proto proto' : SubscribeTransport C) (endpoint : StdString),
      protos[i]? = some proto → protos'[i]? = some proto' →
      .start endpoint ∈ proto'.calls.drop proto.calls.length →
      ∃ uri ∈ uris, ∃ n, find (literal "://") uri = some n ∧ uri.take n = proto.protocol ∧
        uri.drop (n + 3) = endpoint

/-- No string is too short, and if a transport is chosen, then its protocol and endpoint are a URI of the
list, and the last offer for the protocol that has a separator has this endpoint too. -/
def NoneMisleads (protos : List (SubscribeTransport C)) (uris : List StdString) : Prop :=
  (∀ uri ∈ uris, hasSeparator uri = true ∨ 2 ≤ uri.length) ∧
    ∀ (i : Nat) (proto : SubscribeTransport C) (offer : PublishTransport),
      Chosen (uris.filterMap asOffer) protos i proto offer →
      offer.uri ∈ uris ∧ ∃ offer', History.last PublishTransport.protocol proto.protocol
        ((uris.filter hasSeparator).filterMap asOffer) = some offer' ∧
          offer'.endpoint = offer.endpoint

variable {protos : List (SubscribeTransport C)} {uri : StdString} {uris : List StdString}

/-! ### Taking any string apart -/

theorem splitUri_eq (uri : StdString) : splitUri uri =
    match asOffer uri with
    | some offer => .ok (offer.protocol, offer.endpoint)
    | none => .error .outOfRange := by
  rw [splitUri, asOffer]
  cases past uri (find (literal "://") uri) 3 <;> rfl

/-- A string is too short to be cut only without a separator. -/
theorem asOffer_eq_none_iff : asOffer uri = none ↔ ¬ (hasSeparator uri = true ∨ 2 ≤ uri.length) := by
  rw [asOffer, Option.map_eq_none_iff, hasSeparator, past]
  cases hfind : find (literal "://") uri with
  | some n =>
      have hcut := congrArg List.length (find_eq_some hfind)
      have hpat : (literal "://").length = 3 := rfl
      rw [List.length_append, List.length_append, List.length_take, List.length_drop, hpat] at hcut
      have hfits : n + 3 ≤ uri.length := by omega
      simp [hfits]
  | none =>
      show (if 2 ≤ uri.length then _ else _) = none ↔ _
      split_ifs with hlong <;> simp [hlong]

/-- The map holds the last offer for each protocol, or a string was too short. -/
theorem remoteProtoEndpoint_cases (uris : List StdString) :
    (∃ uri ∈ uris, asOffer uri = none) ∧ remoteProtoEndpoint uris = .error .outOfRange ∨
      (∀ uri ∈ uris, asOffer uri ≠ none) ∧ ∃ remote, remoteProtoEndpoint uris = .ok remote ∧
        ∀ protocol, remote[protocol]? =
          (History.last PublishTransport.protocol protocol (uris.filterMap asOffer)).map
            PublishTransport.endpoint := by
  have hfold : ∀ (uris : List StdString) (remote : StdMap StdString),
      let loop := uris.foldlM (fun remote uri =>
        (splitUri uri).bind fun pair => .ok (remote.insert pair.1 pair.2)) remote
      (∃ uri ∈ uris, asOffer uri = none) ∧ loop = (.error .outOfRange : Except Fault _) ∨
        (∀ uri ∈ uris, asOffer uri ≠ none) ∧ loop = .ok ((uris.filterMap asOffer).foldl
          (fun remote proto => remote.insert proto.protocol proto.endpoint) remote) := by
    intro uris
    induction uris with
    | nil => exact fun _ => Or.inr ⟨by simp, rfl⟩
    | cons uri uris ih =>
        intro remote
        dsimp only
        rw [List.foldlM_cons, splitUri_eq]
        cases hoffer : asOffer uri with
        | none => exact Or.inl ⟨⟨uri, List.mem_cons_self, hoffer⟩, rfl⟩
        | some offer =>
            rw [List.filterMap_cons_some hoffer]
            rcases ih (remote.insert offer.protocol offer.endpoint) with
              ⟨⟨short, hmem, hshort⟩, hloop⟩ | ⟨hall, hloop⟩
            · exact Or.inl ⟨⟨short, List.mem_cons_of_mem _ hmem, hshort⟩, hloop⟩
            · refine Or.inr ⟨fun u hu => ?_, hloop⟩
              rcases List.mem_cons.mp hu with rfl | hu
              · simp [hoffer]
              · exact hall u hu
  rcases hfold uris ∅ with hshort | ⟨hall, hloop⟩
  · exact Or.inl hshort
  · exact Or.inr ⟨hall, _, hloop, fun protocol => History.getElem?_foldl_insert _ _ protocol⟩

theorem foundPublisher_of_remote (sub : Subscription C) (protos : List (SubscribeTransport C))
    {remote : StdMap StdString} (h : remoteProtoEndpoint uris = .ok remote) :
    sub.foundPublisher protos uris = .ok (startFirst sub.cb remote protos) := by
  rw [foundPublisher, h]
  rfl

/-- What is left without the strings that have no separator. -/
theorem remoteProtoEndpoint_filter (uris : List StdString) :
    ∃ remote, remoteProtoEndpoint (uris.filter hasSeparator) = .ok remote ∧
      ∀ protocol, remote[protocol]? = (History.last PublishTransport.protocol protocol
        ((uris.filter hasSeparator).filterMap asOffer)).map PublishTransport.endpoint := by
  rcases remoteProtoEndpoint_cases (uris.filter hasSeparator) with ⟨⟨uri, hmem, hshort⟩, -⟩ | ⟨-, h⟩
  · exact absurd (Or.inl (List.mem_filter.mp hmem).2) (asOffer_eq_none_iff.mp hshort)
  · exact h

/-! ### The transport that is chosen -/

section

variable {offered fewer : List PublishTransport} {i j : Nat} {proto proto' : SubscribeTransport C}
  {offer offer' : PublishTransport}

theorem mem_of_last {protocol : StdString}
    (h : History.last PublishTransport.protocol protocol offered = some offer) :
    offer ∈ offered ∧ offer.protocol = protocol :=
  ⟨(List.mem_filter.mp (List.mem_of_getLast? h)).1, History.key_of_last h⟩

theorem Chosen.not_noneShared (h : Chosen offered protos i proto offer) :
    ¬ NoneShared offered protos := fun hnone =>
  let ⟨hmem, hprotocol⟩ := mem_of_last h.last
  hnone proto (List.mem_of_getElem? h.place) offer hmem hprotocol

theorem Chosen.not_lt (h : Chosen offered protos i proto offer)
    (h' : Chosen offered protos j proto' offer') : ¬ i < j := by
  intro hlt
  obtain ⟨hmem, hprotocol⟩ := mem_of_last h.last
  have htake : proto ∈ protos.take j := by
    apply List.mem_of_getElem? (i := i)
    rw [List.getElem?_take_of_lt hlt, h.place]
  exact h'.first proto htake offer hmem hprotocol

/-- Only one transport is chosen. -/
theorem Chosen.unique (h : Chosen offered protos i proto offer)
    (h' : Chosen offered protos j proto' offer') : i = j ∧ proto = proto' ∧ offer = offer' := by
  have hij : i = j := Nat.le_antisymm (Nat.not_lt.mp (h'.not_lt h)) (Nat.not_lt.mp (h.not_lt h'))
  subst hij
  obtain rfl := Option.some.inj (h.place.symm.trans h'.place)
  exact ⟨rfl, rfl, Option.some.inj (h.last.symm.trans h'.last)⟩

theorem NoneShared.mono (h : NoneShared offered protos) (hfewer : ∀ o ∈ fewer, o ∈ offered) :
    NoneShared fewer protos := fun p hp o ho => h p hp o (hfewer o ho)

end

/-- A proper URI is cut back into its parts. -/
theorem uri_mem_iff (offer : PublishTransport) : offer.uri ∈ uris ↔
    ∃ uri ∈ uris, ∃ n, find (literal "://") uri = some n ∧ uri.take n = offer.protocol ∧
      uri.drop (n + 3) = offer.endpoint := by
  have huri : offer.uri = offer.protocol ++ (58 :: [47, 47] ++ offer.endpoint) := by
    rw [PublishTransport.uri, List.append_assoc]
    rfl
  constructor
  · intro hmem
    have hfind : find (literal "://") offer.uri = some offer.protocol.length := by
      rw [huri]
      exact find_append offer.colon_free
    refine ⟨offer.uri, hmem, _, hfind, ?_, ?_⟩
    · rw [huri, List.take_left]
    · rw [PublishTransport.uri]
      exact List.drop_left' (by rw [List.length_append]; rfl)
  · intro hsome
    obtain ⟨uri, hmem, n, hfind, hprotocol, hendpoint⟩ := hsome
    have hcut := find_eq_some hfind
    rw [hprotocol, show n + (literal "://").length = n + 3 from rfl, hendpoint] at hcut
    rw [PublishTransport.uri, ← hcut]
    exact hmem

/-! ### Starting -/

section

variable {cb : C} {i j : Nat} {proto proto' : SubscribeTransport C} {endpoint endpoint' : StdString}

theorem started_ne : started proto cb endpoint ≠ proto := by
  intro heq
  have hlength := congrArg (fun p => p.calls.length) heq
  simp [started] at hlength

theorem set_started_ne (h : protos[i]? = some proto) :
    protos.set i (started proto cb endpoint) ≠ protos := by
  intro heq
  have hset := Assignment.getElem?_set_place h (started proto cb endpoint)
  rw [heq, h] at hset
  exact started_ne (Option.some.inj hset).symm

/-- Which transport was started, and with what, can be seen. -/
theorem set_started_inj (h : protos[i]? = some proto) (h' : protos[j]? = some proto')
    (heq : protos.set i (started proto cb endpoint) = protos.set j (started proto' cb endpoint')) :
    i = j ∧ endpoint = endpoint' := by
  have hset := Assignment.getElem?_set_place h (started proto cb endpoint)
  rw [heq] at hset
  rcases Assignment.getElem?_set_cases hset with ⟨rfl, hstarted⟩ | ⟨-, hsame⟩
  · obtain rfl := Option.some.inj (h.symm.trans h')
    have hcalls := congrArg SubscribeTransport.calls hstarted
    have hlast := List.append_cancel_left hcalls
    simp only [List.cons.injEq, SubscribeCall.start.injEq, true_and, and_true] at hlast
    exact ⟨rfl, hlast⟩
  · exact absurd (Option.some.inj (hsame.symm.trans h)) started_ne

/-- What is started is the one transport that was set. -/
theorem start_mem_iff (h : protos[i]? = some proto) {k : Nat} {p p' : SubscribeTransport C}
    {e : StdString} (hp : protos[k]? = some p)
    (hp' : (protos.set i (started proto cb endpoint))[k]? = some p') :
    .start e ∈ p'.calls.drop p.calls.length ↔ k = i ∧ e = endpoint := by
  rcases Assignment.getElem?_set_cases hp' with ⟨rfl, rfl⟩ | ⟨hki, hsame⟩
  · obtain rfl := Option.some.inj (h.symm.trans hp)
    simp [started]
  · obtain rfl := Option.some.inj (hp.symm.trans hsame)
    simp [hki]

end

/-! ### Main result -/

/-- The offers with a separator are among all offers. -/
theorem mem_offers_of_filter : ∀ o ∈ (uris.filter hasSeparator).filterMap asOffer,
    o ∈ uris.filterMap asOffer := by
  intro o ho
  obtain ⟨uri, hmem, hoffer⟩ := List.mem_filterMap.mp ho
  exact List.mem_filterMap.mpr ⟨uri, (List.mem_filter.mp hmem).1, hoffer⟩

/-- Where no transport is chosen there is nothing to mislead. -/
theorem tolerates_of_noneShared (sub : Subscription C)
    (hnone : NoneShared (uris.filterMap asOffer) protos)
    (hrun : sub.foundPublisher protos uris = .ok protos) : sub.Tolerates protos uris := by
  obtain ⟨remote, hremote, hlast⟩ := remoteProtoEndpoint_filter uris
  refine ⟨protos, hrun, ?_, fun k p p' e hp hp' hstart => ?_⟩
  · rw [foundPublisher_of_remote sub _ hremote]
    rcases startFirst_cases hlast sub.cb protos with ⟨-, hsame⟩ | ⟨i, proto, offer, hchosen, -⟩
    · rw [hsame]
    · exact absurd (hnone.mono mem_offers_of_filter) hchosen.not_noneShared
  · obtain rfl := Option.some.inj (hp.symm.trans hp')
    simp at hstart

theorem tolerates_iff_of_chosen (sub : Subscription C) {i : Nat} {proto : SubscribeTransport C}
    {offer : PublishTransport} (hchosen : Chosen (uris.filterMap asOffer) protos i proto offer)
    (hrun : sub.foundPublisher protos uris =
      .ok (protos.set i (started proto sub.cb offer.endpoint))) :
    sub.Tolerates protos uris ↔
      offer.uri ∈ uris ∧ ∃ offer', History.last PublishTransport.protocol proto.protocol
        ((uris.filter hasSeparator).filterMap asOffer) = some offer' ∧
          offer'.endpoint = offer.endpoint := by
  obtain ⟨remote, hremote, hlast⟩ := remoteProtoEndpoint_filter uris
  have hrun' := foundPublisher_of_remote sub protos hremote
  have hprotocol := (mem_of_last hchosen.last).2
  have hstart := startFirst_cases hlast sub.cb protos
  constructor
  · intro htolerates
    obtain ⟨protos', hfound, hfound', hstarts⟩ := htolerates
    obtain rfl := Except.ok.inj (hrun.symm.trans hfound)
    have hset := Assignment.getElem?_set_place hchosen.place (started proto sub.cb offer.endpoint)
    constructor
    · rw [uri_mem_iff, hprotocol]
      exact hstarts i proto _ offer.endpoint hchosen.place hset
        ((start_mem_iff hchosen.place hchosen.place hset).mpr ⟨rfl, rfl⟩)
    · have hsame := Except.ok.inj (hrun'.symm.trans hfound')
      rcases hstart with ⟨-, hunchanged⟩ | ⟨j, proto', offer', hchosen', hset'⟩
      · exact absurd (hsame.symm.trans hunchanged) (set_started_ne hchosen.place)
      · obtain ⟨rfl, hendpoint⟩ :=
          set_started_inj hchosen'.place hchosen.place (hset'.symm.trans hsame)
        obtain rfl := Option.some.inj (hchosen'.place.symm.trans hchosen.place)
        exact ⟨offer', hchosen'.last, hendpoint⟩
  · intro hgood
    obtain ⟨hlisted, offer', hlast', hendpoint⟩ := hgood
    have hchosen' : Chosen ((uris.filter hasSeparator).filterMap asOffer) protos i proto offer' :=
      ⟨hchosen.place, hchosen.first.mono mem_offers_of_filter, hlast'⟩
    refine ⟨_, hrun, ?_, fun k p p' e hp hp' hnew => ?_⟩
    · rcases hstart with ⟨hnone, -⟩ | ⟨j, proto', other, hother, hset'⟩
      · exact absurd hnone hchosen'.not_noneShared
      · obtain ⟨rfl, rfl, rfl⟩ := hchosen'.unique hother
        rw [hrun', hset', hendpoint]
    · obtain ⟨rfl, rfl⟩ := (start_mem_iff hchosen.place hp hp').mp hnew
      obtain rfl := Option.some.inj (hchosen.place.symm.trans hp)
      rw [← hprotocol]
      exact (uri_mem_iff offer).mp hlisted

/-- **Any list of strings is tolerated exactly if none misleads.** -/
theorem foundPublisher_tolerates_iff (sub : Subscription C) (protos : List (SubscribeTransport C))
    (uris : List StdString) : sub.Tolerates protos uris ↔ NoneMisleads protos uris := by
  rcases remoteProtoEndpoint_cases uris with
    ⟨⟨short, hmem, hshort⟩, herror⟩ | ⟨hall, remote, hremote, hlast⟩
  · apply iff_of_false
    · intro htolerates
      obtain ⟨protos', hfound, -⟩ := htolerates
      rw [foundPublisher, herror] at hfound
      cases hfound
    · intro hnone
      exact asOffer_eq_none_iff.mp hshort (hnone.1 short hmem)
  · have hlong : ∀ uri ∈ uris, hasSeparator uri = true ∨ 2 ≤ uri.length := fun uri hmem =>
      not_not.mp (asOffer_eq_none_iff.not.mp (hall uri hmem))
    have hrun := foundPublisher_of_remote sub protos hremote
    rcases startFirst_cases hlast sub.cb protos with ⟨hnone, hsame⟩ | ⟨i, proto, offer, hchosen, hset⟩
    · apply iff_of_true
      · exact tolerates_of_noneShared sub hnone (hrun.trans (congrArg _ hsame))
      · exact ⟨hlong, fun i proto offer hchosen => absurd hnone hchosen.not_noneShared⟩
    · rw [tolerates_iff_of_chosen sub hchosen (hrun.trans (congrArg _ hset))]
      constructor
      · intro hgood
        refine ⟨hlong, fun j proto' offer' hchosen' => ?_⟩
        obtain ⟨-, rfl, rfl⟩ := hchosen.unique hchosen'
        exact hgood
      · exact fun hnone => hnone.2 i proto offer hchosen

/-- The one offer is an empty string. -/
theorem not_tolerates : ¬ ∀ (sub : Subscription Unit) (protos : List (SubscribeTransport Unit))
    (uris : List StdString), sub.Tolerates protos uris := by
  intro hall
  obtain ⟨protos', hfound, -⟩ := hall ⟨0, literal "/chatter", ()⟩ [] [[]]
  cases hfound

end Subscription

end Ros2Proto
