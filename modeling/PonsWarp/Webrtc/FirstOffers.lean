import PonsWarp.Webrtc.SignalingBridge

set_option autoImplicit false

/-!
What a bridge does for its peers when each of them takes part in one offer only, and when
not.
-/

namespace PonsWarp.Webrtc

open PonsWarp.Core PonsWarp.Data

variable {D C : Type} {s : SignalingBridge D C} {p : PeerId}

/-- The local candidates that have been relayed to a peer. -/
def candidatesTo (p : PeerId) (relayed : List (RelayEnvelope D C)) : List C :=
  relayed.filterMap fun envelope =>
    match envelope.payload with
    | .candidate candidate => if envelope.toPeerId = p then some candidate else none
    | .sdp _ => none

/-- The local candidates of a connection. -/
def candidatesOf (connection : Nat) (found : List (Nat × C)) : List C :=
  found.filterMap fun x => if x.1 = connection then some x.2 else none

namespace SignalingBridge

/-- Everything has been done to the connection of the peer it was done for, and the local
candidates of each such connection have been relayed to its peer once. -/
structure ActsOnRegistered (s : SignalingBridge D C) : Prop where
  invocations : ∀ x ∈ s.invocations, x.registered = some x.connection
  candidates : ∀ p connection, s.registered p = some connection →
    candidatesTo p s.relayed = candidatesOf connection s.localCandidates

structure Bridged (s : SignalingBridge D C) : Prop where
  acts : s.ActsOnRegistered
  listens : ∀ p peer, s.peers.get? p = some peer →
    s.connections[peer.connection]? = some (some p) ∧ peer.forwarders = [p]
  heard : ∀ connection p, s.connections[connection]? = some (some p) →
    s.registered p = some connection
  continuations : ∀ k ∈ s.continuations, s.registered k.remotePeerId = some k.connection
  strangers : ∀ p, s.registered p = none → candidatesTo p s.relayed = []
  found : ∀ x ∈ s.localCandidates, x.1 < s.connections.length

theorem registered_eq_some {connection : Nat} :
    s.registered p = some connection ↔
      ∃ peer, s.peers.get? p = some peer ∧ peer.connection = connection := by
  simp [registered]

theorem Bridged.await (h : s.Bridged) (operation : Operation) (argument : Option (RelayPayload D C))
    {k : Continuation D} (hk : s.registered k.remotePeerId = some k.connection) :
    (s.await operation argument k).Bridged := by
  refine ⟨⟨?_, h.acts.candidates⟩, h.listens, h.heard, ?_, h.strangers, h.found⟩
  · intro x hx
    rcases List.mem_append.1 hx with hold | hnew
    · exact h.acts.invocations x hold
    · rw [List.mem_singleton.1 hnew]
      exact hk
  · intro k' hk'
    rcases List.mem_append.1 hk' with hold | hnew
    · exact h.continuations k' hold
    · rw [List.mem_singleton.1 hnew]
      exact hk

theorem Bridged.invoke (h : s.Bridged) (operation : Operation)
    (argument : Option (RelayPayload D C)) {connection : Nat}
    (hp : s.registered p = some connection) :
    (s.invoke operation argument p connection).Bridged := by
  refine ⟨⟨?_, h.acts.candidates⟩, h.listens, h.heard, h.continuations, h.strangers, h.found⟩
  intro x hx
  rcases List.mem_append.1 hx with hold | hnew
  · exact h.acts.invocations x hold
  · rw [List.mem_singleton.1 hnew]
    exact hp

theorem Bridged.sendRelay_sdp (h : s.Bridged) (type : String) (p : PeerId) (sdp : D) :
    (s.sendRelay type p (.sdp sdp)).Bridged := by
  have hsame : ∀ q, candidatesTo q (s.sendRelay type p (.sdp sdp)).relayed =
      candidatesTo q s.relayed := by
    intro q
    simp [sendRelay, candidatesTo]
  refine ⟨⟨h.acts.invocations, ?_⟩, h.listens, h.heard, h.continuations, ?_, h.found⟩
  · intro q connection hq
    rw [hsame]
    exact h.acts.candidates q connection hq
  · intro q hq
    rw [hsame]
    exact h.strangers q hq

/-- A new connection for a peer that has none. -/
def join (s : SignalingBridge D C) (p : PeerId) : SignalingBridge D C :=
  { s with
    peers := s.peers.set p ⟨s.connections.length, [p]⟩
    connections := s.connections ++ [some p] }

theorem join_eq (h : s.registered p = none) :
    (s.createPeerConnection.ensurePeer p s.connections.length).forwardIceCandidates p =
      s.join p := by
  have hnone : s.peers.get? p = none := by simpa [registered] using h
  simp [createPeerConnection, ensurePeer, hnone, forwardIceCandidates, join, OrderedMap.set_set]

theorem registered_join (s : SignalingBridge D C) (p q : PeerId) :
    (s.join p).registered q = if q = p then some s.connections.length else s.registered q := by
  simp only [registered, join, OrderedMap.get?_set]
  split <;> rfl

theorem Bridged.join (h : s.Bridged) (hp : s.registered p = none) : (s.join p).Bridged := by
  have hkeep : ∀ q connection, s.registered q = some connection →
      (s.join p).registered q = some connection := by
    intro q connection hq
    have hne : q ≠ p := by
      rintro rfl
      rw [hp] at hq
      cases hq
    rw [registered_join, if_neg hne, hq]
  refine ⟨⟨h.acts.invocations, ?_⟩, ?_, ?_, fun k hk => hkeep _ _ (h.continuations k hk), ?_, ?_⟩
  · intro q connection hq
    rw [registered_join] at hq
    by_cases hqp : q = p
    · rw [if_pos hqp] at hq
      cases hq
      -- no candidate of the new connection has been found yet
      have hnone : candidatesOf s.connections.length s.localCandidates = [] := by
        rw [candidatesOf, List.filterMap_eq_nil_iff]
        intro x hx
        have hlt := h.found x hx
        simp
        omega
      have hempty : candidatesTo q s.relayed = [] := h.strangers q (by rw [hqp, hp])
      exact hempty.trans hnone.symm
    · rw [if_neg hqp] at hq
      exact h.acts.candidates q connection hq
  · intro q peer hq
    simp only [SignalingBridge.join, OrderedMap.get?_set] at hq
    by_cases hqp : q = p
    · rw [if_pos hqp] at hq
      cases hq
      simp [SignalingBridge.join, hqp]
    · rw [if_neg hqp] at hq
      obtain ⟨hlistens, hforwarders⟩ := h.listens q peer hq
      have hlt := (List.getElem?_eq_some_iff.1 hlistens).1
      refine ⟨?_, hforwarders⟩
      rw [SignalingBridge.join, List.getElem?_append_left hlt, hlistens]
  · intro connection q hq
    simp only [SignalingBridge.join] at hq
    by_cases hlt : connection < s.connections.length
    · rw [List.getElem?_append_left hlt] at hq
      exact hkeep q connection (h.heard connection q hq)
    · rw [List.getElem?_append_right (by omega)] at hq
      have hzero : connection - s.connections.length = 0 := by
        by_contra hne
        obtain ⟨n, hn⟩ := Nat.exists_eq_succ_of_ne_zero hne
        simp [hn] at hq
      have hq' : p = q := by simpa [hzero] using hq
      rw [registered_join, if_pos hq'.symm]
      congr 1
      omega
  · intro q hq
    rw [registered_join] at hq
    by_cases hqp : q = p
    · simp [hqp] at hq
    · rw [if_neg hqp] at hq
      exact h.strangers q hq
  · intro x hx
    have hlt := h.found x hx
    simp only [SignalingBridge.join, List.length_append, List.length_singleton]
    omega

theorem Bridged.initiateOffer (h : s.Bridged) (hp : s.registered p = none) :
    (s.initiateOffer p).Bridged := by
  have hjoined : (s.join p).registered p = some s.connections.length := by
    rw [registered_join, if_pos rfl]
  unfold SignalingBridge.initiateOffer
  simp only [join_eq hp, hjoined]
  exact ((h.join hp).invoke .createDataChannel none hjoined).await .createOffer none hjoined

theorem Bridged.handleSignal (h : s.Bridged) (signal : Signal D C)
    (hp : s.FirstOffer (.signal p signal)) : (s.handleSignal p signal).Bridged := by
  unfold SignalingBridge.handleSignal
  split
  · exact h
  · rename_i hself
    cases signal with
    | iceCandidate candidate =>
      simp only
      split
      · rename_i hregistered
        exact h.await .addIceCandidate _ hregistered
      · exact h
    | offer sdp =>
      have hnone : s.registered p = none := hp.resolve_left hself
      have hjoined : (s.join p).registered p = some s.connections.length := by
        rw [registered_join, if_pos rfl]
      simp only [join_eq hnone]
      exact (h.join hnone).await .setRemoteDescription _ hjoined
    | answer sdp =>
      simp only
      split
      · rename_i hregistered
        exact h.await .setRemoteDescription _ hregistered
      · exact h
    | other type => exact h

theorem Bridged.resume (h : s.Bridged) (i : Nat) (result : Settled D) :
    (s.resume i result).Bridged := by
  unfold SignalingBridge.resume
  split
  · exact h
  · rename_i k hk
    have hregistered := h.continuations k (List.mem_of_getElem? hk)
    have hrest : ({ s with continuations := s.continuations.eraseIdx i } :
        SignalingBridge D C).Bridged :=
      ⟨⟨h.acts.invocations, h.acts.candidates⟩, h.listens, h.heard,
        fun k' hk' => h.continuations k' (List.mem_of_mem_eraseIdx hk'), h.strangers, h.found⟩
    have hreport : ∀ p error, (reportError { s with continuations := s.continuations.eraseIdx i } p
        error : SignalingBridge D C).Bridged := fun _ _ =>
      ⟨⟨hrest.acts.invocations, hrest.acts.candidates⟩, hrest.listens, hrest.heard,
        hrest.continuations, hrest.strangers, hrest.found⟩
    simp only
    split
    · exact hrest.await .setLocalDescription _ hregistered
    · exact hrest.sendRelay_sdp _ _ _
    · exact hrest.await .createAnswer _ hregistered
    · exact hrest.await .setLocalDescription _ hregistered
    · exact hrest.sendRelay_sdp _ _ _
    · exact hrest
    · exact hrest
    · exact hrest
    · exact hrest
    · exact hreport _ _
    · exact h

theorem candidatesTo_snoc (q : PeerId) (relayed : List (RelayEnvelope D C)) (type sessionId : String)
    (self : PeerId) (candidate : C) :
    candidatesTo q (relayed ++ [⟨type, sessionId, self, p, .candidate candidate⟩]) =
      candidatesTo q relayed ++ if p = q then [candidate] else [] := by
  by_cases hq : p = q <;> simp [candidatesTo, hq]

theorem candidatesOf_snoc (c connection : Nat) (found : List (Nat × C)) (candidate : C) :
    candidatesOf c (found ++ [(connection, candidate)]) =
      candidatesOf c found ++ if connection = c then [candidate] else [] := by
  by_cases hc : connection = c <;> simp [candidatesOf, hc]

/-- A local candidate is relayed to the peer whose connection found it. -/
theorem handleIceCandidate_eq (h : s.Bridged) {connection : Nat} {listener : Option PeerId}
    (hlistener : s.connections[connection]? = some listener) (candidate : C) :
    s.handleIceCandidate connection (some candidate) =
      { s with
        localCandidates := s.localCandidates ++ [(connection, candidate)]
        relayed := s.relayed ++ match listener with
          | some p => [⟨"ICE_CANDIDATE", s.sessionId, s.selfPeerId, p, .candidate candidate⟩]
          | none => [] } := by
  cases listener with
  | none => simp [handleIceCandidate, hlistener]
  | some p =>
    obtain ⟨peer, hpeer, rfl⟩ := registered_eq_some.1 (h.heard connection p hlistener)
    have hforwarders := (h.listens p peer hpeer).2
    simp [handleIceCandidate, hlistener, hpeer, hforwarders, sendRelay]

theorem Bridged.handleIceCandidate (h : s.Bridged) (connection : Nat) (candidate : Option C) :
    (s.handleIceCandidate connection candidate).Bridged := by
  cases hlistener : s.connections[connection]? with
  | none => simpa [SignalingBridge.handleIceCandidate, hlistener] using h
  | some listener =>
    cases candidate with
    | none => simpa [SignalingBridge.handleIceCandidate, hlistener] using h
    | some candidate =>
      rw [handleIceCandidate_eq h hlistener]
      have hlt := (List.getElem?_eq_some_iff.1 hlistener).1
      have hfound : ∀ x ∈ s.localCandidates ++ [(connection, candidate)],
          x.1 < s.connections.length := by
        intro x hx
        rcases List.mem_append.1 hx with hold | hnew
        · exact h.found x hold
        · rw [List.mem_singleton.1 hnew]
          exact hlt
      cases listener with
      | none =>
        refine ⟨⟨h.acts.invocations, ?_⟩, h.listens, h.heard, h.continuations, ?_, hfound⟩
        · intro q c hq
          obtain ⟨peer, hpeer, rfl⟩ := registered_eq_some.1 hq
          have hne : connection ≠ peer.connection := by
            rintro rfl
            rw [(h.listens q peer hpeer).1] at hlistener
            cases hlistener
          simp only [List.append_nil, candidatesOf_snoc, if_neg hne]
          exact h.acts.candidates q _ hq
        · intro q hq
          rw [List.append_nil]
          exact h.strangers q hq
      | some p =>
        have hp := h.heard connection p hlistener
        refine ⟨⟨h.acts.invocations, ?_⟩, h.listens, h.heard, h.continuations, ?_, hfound⟩
        · intro q c hq
          simp only [candidatesTo_snoc, candidatesOf_snoc]
          have hold := h.acts.candidates q c hq
          by_cases hqp : p = q
          · have hc : connection = c := by
              rw [hqp] at hp
              exact Option.some.inj (hp.symm.trans hq)
            rw [hold, if_pos hqp, if_pos hc]
          · have hc : connection ≠ c := by
              rintro rfl
              obtain ⟨peer, hpeer, rfl⟩ := registered_eq_some.1 hq
              rw [(h.listens q peer hpeer).1] at hlistener
              cases hlistener
              exact hqp rfl
            rw [hold, if_neg hqp, if_neg hc]
        · intro q hq
          have hne : p ≠ q := by
            rintro rfl
            have hp' := hp.symm.trans hq
            cases hp'
          simp only [candidatesTo_snoc, if_neg hne, List.append_nil]
          exact h.strangers q hq

theorem step_bridged (h : s.Bridged) {a : Action D C} (ha : s.FirstOffer a) :
    (s.step a).Bridged := by
  cases a with
  | initiateOffer remotePeerId => exact h.initiateOffer ha
  | signal fromPeerId signal => exact h.handleSignal signal ha
  | settle i result => exact h.resume i result
  | iceCandidate connection candidate => exact h.handleIceCandidate connection candidate

theorem invocations_grow (s : SignalingBridge D C) (a : Action D C) :
    s.invocations <+: (s.step a).invocations := by
  have hjoined : ∀ p connection, ((s.createPeerConnection.ensurePeer p
      connection).forwardIceCandidates p).invocations = s.invocations := by
    intro p connection
    unfold forwardIceCandidates ensurePeer createPeerConnection
    simp only
    split <;> split <;> simp_all
  cases a with
  | initiateOffer p =>
    simp only [step, SignalingBridge.initiateOffer]
    split
    · simp only [SignalingBridge.await, SignalingBridge.invoke, hjoined, List.append_assoc]
      exact List.prefix_append _ _
    · simp only [SignalingBridge.await, SignalingBridge.invoke, hjoined]
      exact List.prefix_append _ _
  | signal fromPeerId signal =>
    simp only [step, SignalingBridge.handleSignal]
    split
    · exact List.prefix_refl _
    · cases signal with
      | iceCandidate candidate =>
        simp only
        split
        · exact List.prefix_append _ _
        · exact List.prefix_refl _
      | offer sdp =>
        simp only [SignalingBridge.await, SignalingBridge.invoke, hjoined]
        exact List.prefix_append _ _
      | answer sdp =>
        simp only
        split
        · exact List.prefix_append _ _
        · exact List.prefix_refl _
      | other type => exact List.prefix_refl _
  | settle i result =>
    simp only [step, SignalingBridge.resume]
    split
    · exact List.prefix_refl _
    · split <;> first
        | exact List.prefix_append _ _
        | exact List.prefix_refl _
  | iceCandidate connection candidate =>
    have hfold : ∀ (forwarders : List PeerId) (s' : SignalingBridge D C) (x : C),
        (forwarders.foldl (fun s' p => s'.sendRelay "ICE_CANDIDATE" p (.candidate x)) s').invocations
          = s'.invocations := by
      intro forwarders
      induction forwarders with
      | nil => exact fun _ _ => rfl
      | cons p rest ih => exact fun s' x => (ih _ x).trans rfl
    simp only [step, SignalingBridge.handleIceCandidate]
    split
    · exact ⟨[], by rw [List.append_nil, hfold]⟩
    · exact List.prefix_refl _

theorem registered_lt (h : s.Bridged) {connection : Nat}
    (hp : s.registered p = some connection) : connection < s.connections.length := by
  obtain ⟨peer, hpeer, rfl⟩ := registered_eq_some.1 hp
  exact (List.getElem?_eq_some_iff.1 (h.listens p peer hpeer).1).1

/-- A further offer is made, or answered, with a connection that nobody has registered. -/
theorem strays_of_not_firstOffer (h : s.Bridged) {a : Action D C} (ha : ¬ s.FirstOffer a) :
    ∃ x ∈ (s.step a).invocations, x.registered ≠ some x.connection := by
  have hjoined : ∀ p connection, s.registered p = some connection →
      ((s.createPeerConnection.ensurePeer p s.connections.length).forwardIceCandidates p).registered
        p = some connection := by
    intro p connection hp
    obtain ⟨peer, hpeer, rfl⟩ := registered_eq_some.1 hp
    simp [createPeerConnection, ensurePeer, hpeer, forwardIceCandidates, registered]
  cases a with
  | initiateOffer p =>
    obtain ⟨connection, hp⟩ := Option.ne_none_iff_exists'.1 ha
    have hlt := registered_lt h hp
    refine ⟨⟨.createOffer, none, p, s.connections.length, some connection⟩, ?_, ?_⟩
    · simp only [step, SignalingBridge.initiateOffer, hjoined p connection hp]
      refine List.mem_append_right _ (List.mem_singleton.2 ?_)
      have hsame : (SignalingBridge.invoke ((s.createPeerConnection.ensurePeer p
          s.connections.length).forwardIceCandidates p) .createDataChannel none p
            connection).registered p = some connection := hjoined p connection hp
      rw [hsame]
    · simp only [ne_eq, Option.some.injEq]
      omega
  | signal fromPeerId signal =>
    cases signal with
    | offer sdp =>
      obtain ⟨hself, hsome⟩ := not_or.1 ha
      obtain ⟨connection, hp⟩ := Option.ne_none_iff_exists'.1 hsome
      have hlt := registered_lt h hp
      refine ⟨⟨.setRemoteDescription, some (.sdp sdp), fromPeerId, s.connections.length,
        some connection⟩, ?_, ?_⟩
      · simp only [step, SignalingBridge.handleSignal, if_neg hself]
        refine List.mem_append_right _ (List.mem_singleton.2 ?_)
        rw [hjoined fromPeerId connection hp]
      · simp only [ne_eq, Option.some.injEq]
        omega
    | _ => exact absurd trivial ha
  | _ => exact absurd trivial ha

theorem invocations_steps (s : SignalingBridge D C) (actions : List (Action D C)) :
    s.invocations <+: (steps step s actions).invocations := by
  induction actions generalizing s with
  | nil => exact List.prefix_refl _
  | cons a rest ih => exact (invocations_grow s a).trans (ih (s.step a))

def new (sessionId : String) (selfPeerId : PeerId) : SignalingBridge D C :=
  { sessionId := sessionId, selfPeerId := selfPeerId }

theorem new_bridged (sessionId : String) (selfPeerId : PeerId) :
    (new sessionId selfPeerId : SignalingBridge D C).Bridged := by
  refine ⟨⟨?_, ?_⟩, ?_, ?_, ?_, ?_, ?_⟩ <;> simp [new, registered, candidatesTo]

/-- In every run in which each offer is the first one between its two peers, everything is done to
registered connections and each local candidate is relayed once, whatever the order of events;
and in no other run. -/
theorem acts_on_registered_iff (sessionId : String) (selfPeerId : PeerId)
    (actions : List (Action D C)) :
    (steps step (new sessionId selfPeerId) actions).ActsOnRegistered ↔
      Allowed step FirstOffer (new sessionId selfPeerId) actions := by
  have hstart : (new sessionId selfPeerId : SignalingBridge D C).Bridged :=
    new_bridged sessionId selfPeerId
  generalize (new sessionId selfPeerId : SignalingBridge D C) = start at hstart ⊢
  constructor
  · intro hacts
    induction actions generalizing start with
    | nil => trivial
    | cons a rest ih =>
      have hfirst : start.FirstOffer a := by
        by_contra hnot
        obtain ⟨x, hx, hstray⟩ := strays_of_not_firstOffer hstart hnot
        exact hstray (hacts.invocations x ((invocations_steps (start.step a) rest).subset hx))
      exact ⟨hfirst, ih (start.step a) (step_bridged hstart hfirst) hacts⟩
  · intro hallowed
    have hrun : (steps step start actions).Bridged :=
      (run_of_allowed hallowed).invariant (fun _ _ hs ha => step_bridged hs ha) hstart
    exact hrun.acts

/-- Two peers offer to each other at the same time. -/
theorem crossing_offers_stray :
    ¬ (steps step (new "session" "a" : SignalingBridge Nat Nat)
      [.initiateOffer "b", .signal "b" (.offer 1)]).ActsOnRegistered := by
  intro h
  have hstray := h.invocations ⟨.setRemoteDescription, some (.sdp 1), "b", 1, some 0⟩ (by decide)
  revert hstray
  decide

-- a candidate of the registered connection is then relayed twice
example :
    candidatesTo "b" (steps step (new "session" "a" : SignalingBridge Nat Nat)
      [.initiateOffer "b", .signal "b" (.offer 1), .iceCandidate 0 (some 7)]).relayed = [7, 7] := by
  decide

end SignalingBridge

end PonsWarp.Webrtc
