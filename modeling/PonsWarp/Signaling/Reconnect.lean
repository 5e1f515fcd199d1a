import PonsWarp.Signaling.Gateway

set_option autoImplicit false

/-!
A peer that comes back on a new connection. Membership is kept by peer id, and
the connections of a peer are not told apart, so what the old connection does
to the membership depends on what it is still bound to when it goes.
-/

namespace PonsWarp.Signaling

open PonsWarp.Data PonsWarp.Core

variable {F : Type}

/-- The effect makes known that the peer has left the session. -/
def Effect.TellsLeft (s : SessionId) (p : PeerId) : Effect F → Prop
  | .send _ envelope => envelope.type = .PEER_LEFT ∧ envelope.sessionId = some s ∧
      envelope.fromPeerId = some p
  | .close _ _ _ => False
  | .emit event => event = .peerLeft s p

namespace RoomManager

/-- The peer is in the room, which has this owner and ends at this time. -/
def Houses (m : RoomManager F) (s : SessionId) (p owner : PeerId) (ends : Number) : Prop :=
  ∃ room, m.rooms.get? s = some room ∧ room.peers.has p = true ∧
    room.ownerPeerId = owner ∧ room.expiresAt = ends

instance decidableHouses (m : RoomManager F) (s : SessionId) (p owner : PeerId) (ends : Number) :
    Decidable (m.Houses s p owner ends) :=
  decidable_of_iff ((m.rooms.get? s).any (fun room => room.peers.has p &&
    room.ownerPeerId = owner && room.expiresAt = ends) = true) (by
      simp [Houses, Option.any_eq_true, and_assoc])

variable {m m' : RoomManager F} {s s' : SessionId} {p p' owner : PeerId} {ends now : Number}

theorem Houses.member (h : m.Houses s p owner ends) : m.Member s p := by
  obtain ⟨room, hroom, hp, -, -⟩ := h
  exact ⟨room, hroom, hp⟩

theorem Member.of_leaveSession (h : (m.leaveSession s' p').1.Member s p) : m.Member s p := by
  obtain ⟨left, hleft, hhas⟩ := h
  by_cases hs : s = s'
  · subst hs
    cases hroom : m.rooms.get? s with
    | none => simp [leaveSession, hroom] at hleft
    | some room =>
      rw [leaveSession_room hroom] at hleft
      split at hleft
      · cases hleft
      · cases hleft
        obtain ⟨summary, hget⟩ := OrderedMap.has_iff.1 hhas
        exact ⟨room, hroom, OrderedMap.has_iff.2
          ⟨summary, (OrderedMap.get?_delete_eq_some.1 hget).2⟩⟩
  · rw [leaveSession_of_ne m p' hs] at hleft
    exact ⟨left, hleft, hhas⟩

theorem Houses.leaveSession (h : m.Houses s p owner ends)
    (hother : s' = s → p' ≠ p ∧ p' ≠ owner) : (m.leaveSession s' p').1.Houses s p owner ends := by
  obtain ⟨room, hroom, hp, rfl, rfl⟩ := h
  by_cases hs : s' = s
  · obtain ⟨hself, hown⟩ := hother hs
    subst hs
    obtain ⟨hleft, hhas⟩ := leaveSession_keeps hroom hp hself hown
    exact ⟨_, hleft, hhas, rfl, rfl⟩
  · exact ⟨room, (leaveSession_of_ne m p' (Ne.symm hs)).trans hroom, hp, rfl, rfl⟩

theorem Houses.createSession {files : List F} {ttl : Number} {room : RoomSnapshot F}
    (h : m.Houses s p owner ends)
    (hok : m.createSession now s' p' files ttl = .ok (m', room)) : m'.Houses s p owner ends := by
  obtain ⟨found, hfound, hrest⟩ := h
  unfold RoomManager.createSession at hok
  split at hok
  · cases hok
  · rename_i hnew
    cases hok
    have hs : s ≠ s' := by
      rintro rfl
      exact hnew (OrderedMap.has_iff.2 ⟨found, hfound⟩)
    exact ⟨found, (OrderedMap.get?_set_of_ne _ _ hs).trans hfound, hrest⟩

/-- A look-up keeps a room that has not expired; it answers with the room itself. -/
theorem Houses.getMutableLiveRoom (h : m.Houses s p owner ends) (hlive : s' = s → now < ends) :
    (m.getMutableLiveRoom now s').1.Houses s p owner ends := by
  obtain ⟨found, hfound, hp, rfl, rfl⟩ := h
  unfold RoomManager.getMutableLiveRoom
  split
  · exact ⟨found, hfound, hp, rfl, rfl⟩
  · rename_i room hroom
    split
    · rename_i hexp
      have hs : s ≠ s' := by
        rintro rfl
        cases hfound.symm.trans hroom
        exact absurd (hlive rfl) (not_lt.2 hexp)
      exact ⟨found, (OrderedMap.get?_delete_of_ne _ hs).trans hfound, hp, rfl, rfl⟩
    · exact ⟨found, hfound, hp, rfl, rfl⟩

theorem Houses.joinSession (h : m.Houses s p owner ends) (hlive : s' = s → now < ends) :
    (m.joinSession now s' p').1.Houses s p owner ends := by
  have hlook := h.getMutableLiveRoom hlive
  unfold RoomManager.joinSession
  split
  · rename_i heq
    rw [heq] at hlook
    exact hlook
  · rename_i heq
    rw [heq] at hlook
    obtain ⟨rfl, hroom, -⟩ := getMutableLiveRoom_ok.1 heq
    obtain ⟨found, hfound, hp, rfl, rfl⟩ := hlook
    by_cases hs : s = s'
    · subst hs
      cases hfound.symm.trans hroom
      refine ⟨_, OrderedMap.get?_set_self _ _ _, ?_, rfl, rfl⟩
      obtain ⟨summary, hsummary⟩ := OrderedMap.has_iff.1 hp
      rw [OrderedMap.has_iff]
      simp only [OrderedMap.get?_set]
      split
      · exact ⟨_, rfl⟩
      · exact ⟨summary, hsummary⟩
    · exact ⟨found, (OrderedMap.get?_set_of_ne _ _ hs).trans hfound, hp, rfl, rfl⟩

theorem Houses.relayWebRtc {envelope : SignalingEnvelope F} (h : m.Houses s p owner ends)
    (hlive : envelope.sessionId = some s → now < ends) :
    (m.relayWebRtc now envelope).1.Houses s p owner ends := by
  unfold RoomManager.relayWebRtc
  split
  · rename_i session _ _ hsession _ _
    split
    · exact h
    · have hlook : (m.getMutableLiveRoom now session).1.Houses s p owner ends :=
        h.getMutableLiveRoom fun hs => hlive (hs ▸ (Option.filter_eq_some_iff.1 hsession).1)
      split
      · rename_i heq
        rw [heq] at hlook
        exact hlook
      · rename_i heq
        rw [heq] at hlook
        split
        · exact hlook
        · split <;> exact hlook
  · exact h

theorem Houses.cleanupExpired (h : m.Houses s p owner ends) (hlive : now < ends) :
    (m.cleanupExpired now).1.Houses s p owner ends := by
  obtain ⟨room, hroom, hp, rfl, rfl⟩ := h
  exact ⟨room, get?_cleanupExpired.2 ⟨hroom, hlive⟩, hp, rfl, rfl⟩

theorem Houses.lt_of_cleanupExpired (h : m.Houses s p owner ends)
    (hm : (m.cleanupExpired now).1.Member s p) : now < ends := by
  obtain ⟨room, hroom, -, -, rfl⟩ := h
  obtain ⟨left, hleft, -⟩ := hm
  obtain ⟨hfound, hlive⟩ := get?_cleanupExpired.1 hleft
  cases hroom.symm.trans hfound
  exact hlive

theorem Member.of_cleanupExpired (h : (m.cleanupExpired now).1.Member s p) : m.Member s p := by
  obtain ⟨room, hroom, hp⟩ := h
  exact ⟨room, (get?_cleanupExpired.1 hroom).1, hp⟩

end RoomManager

namespace SignalingGateway

/-- The peer is still in its room and nobody was told that it left. -/
structure Spared (g g' : SignalingGateway F) (s : SessionId) (p : PeerId) : Prop where
  member : g'.roomManager.Member s p
  silent : ∀ x ∈ g'.log.drop g.log.length, ¬ x.TellsLeft s p

/-- The connection is bound to the peer, or to the owner of its room. -/
def Harms (g : SignalingGateway F) (s : SessionId) (p owner : PeerId) (c : ConnectionId) : Prop :=
  g.binding c = some (s, p) ∨ g.binding c = some (s, owner)

/-- The connection that took on an identity last. -/
def latest (g : SignalingGateway F) (s : SessionId) (p : PeerId) : Option ConnectionId :=
  (g.bound.reverse.find? fun b => b.2.1 = s ∧ b.2.2 = p).map (·.1)

/-- The first attached connection that stands for the peer. -/
def First (g : SignalingGateway F) (s : SessionId) (p : PeerId) (c : ConnectionId) : Prop :=
  ∃ before after, g.peers = before ++ c :: after ∧ g.standsFor s p c = true ∧
    ∀ other ∈ before, g.standsFor s p other = false

theorem send_eq (g : SignalingGateway F) (c : ConnectionId) (envelope : SignalingEnvelope F) :
    ∃ l, g.send c envelope = { g with log := g.log ++ l } ∧ ∀ x ∈ l, x = .send c envelope := by
  unfold send
  split
  · exact ⟨[], by simp, by simp⟩
  · exact ⟨[.send c envelope], rfl, by simp⟩

theorem sendAll_eq (g : SignalingGateway F) (envelope : SignalingEnvelope F)
    (targets : List ConnectionId) :
    ∃ l, targets.foldl (fun g c => g.send c envelope) g = { g with log := g.log ++ l } ∧
      ∀ x ∈ l, ∃ c ∈ targets, x = .send c envelope := by
  induction targets generalizing g with
  | nil => exact ⟨[], by simp, by simp⟩
  | cons c rest ih =>
    obtain ⟨l, hl, hsent⟩ := g.send_eq c envelope
    obtain ⟨more, hmore, hrest⟩ := ih (g.send c envelope)
    refine ⟨l ++ more, ?_, fun x hx => ?_⟩
    · rw [List.foldl_cons, hmore, hl]
      simp
    · obtain h | h := List.mem_append.1 hx
      · exact ⟨c, by simp, hsent x h⟩
      · obtain ⟨d, hd, rfl⟩ := hrest x h
        exact ⟨d, by simp [hd], rfl⟩

/-- A broadcast adds envelopes to the log and does nothing else. -/
theorem broadcast_eq (g : SignalingGateway F) (s : SessionId) (envelope : SignalingEnvelope F)
    (p : PeerId) : ∃ l, g.broadcast s envelope p = { g with log := g.log ++ l } ∧
      ∀ x ∈ l, ∃ c, x = .send c envelope ∧ c ∈ g.peers ∧
        (g.connection c).sessionId = some s ∧ (g.connection c).peerId ≠ some p := by
  obtain ⟨l, hl, hsent⟩ := g.sendAll_eq envelope (g.peers.filter fun c =>
    (g.connection c).sessionId = some s ∧ (g.connection c).peerId ≠ some p)
  refine ⟨l, hl, fun x hx => ?_⟩
  obtain ⟨c, hc, rfl⟩ := hsent x hx
  exact ⟨c, rfl, by simpa using hc⟩

theorem binding_congr {g g' : SignalingGateway F} {c : ConnectionId}
    (hs : (g'.connection c).sessionId = (g.connection c).sessionId)
    (hp : (g'.connection c).peerId = (g.connection c).peerId) : g'.binding c = g.binding c := by
  simp only [binding, hs, hp]

/-- The room of the peer stays and nobody is told that the peer left. -/
structure Keeps (s : SessionId) (p owner : PeerId) (ends : Number)
    (g g' : SignalingGateway F) : Prop where
  room : g.roomManager.Houses s p owner ends → g'.roomManager.Houses s p owner ends
  log : ∃ l, g'.log = g.log ++ l ∧ ∀ x ∈ l, ¬ x.TellsLeft s p

variable {s : SessionId} {p owner : PeerId} {ends : Number}

theorem Keeps.refl (g : SignalingGateway F) : Keeps s p owner ends g g :=
  ⟨id, [], by simp, by simp⟩

theorem Keeps.trans {g g' g'' : SignalingGateway F} (h : Keeps s p owner ends g g')
    (h' : Keeps s p owner ends g' g'') : Keeps s p owner ends g g'' := by
  obtain ⟨l, hl, hquiet⟩ := h.log
  obtain ⟨l', hl', hquiet'⟩ := h'.log
  refine ⟨h'.room ∘ h.room, l ++ l', by rw [hl', hl, List.append_assoc], fun x hx => ?_⟩
  exact (List.mem_append.1 hx).elim (hquiet x) (hquiet' x)

theorem Keeps.spared {g g' : SignalingGateway F} (h : Keeps s p owner ends g g')
    (hh : g.roomManager.Houses s p owner ends) : Spared g g' s p := by
  obtain ⟨l, hl, hquiet⟩ := h.log
  refine ⟨(h.room hh).member, ?_⟩
  rw [hl, List.drop_left]
  exact hquiet

/-- What happens when the given connection goes: whoever it is bound to leaves. -/
structure Goes (c : ConnectionId) (g g' : SignalingGateway F) : Prop where
  binding : ∀ d, g'.binding d = g.binding d
  seen : ∀ d, (g'.connection d).lastSeenAt = (g.connection d).lastSeenAt
  member : ∀ s p, g'.roomManager.Member s p → g.roomManager.Member s p
  keeps : ∀ s p owner ends, ¬ g.Harms s p owner c → Keeps s p owner ends g g'
  loses : ∀ s p owner ends, g.roomManager.Houses s p owner ends → g.Harms s p owner c →
    ¬ g'.roomManager.Member s p

theorem Goes.trans {c : ConnectionId} {g g' g'' : SignalingGateway F} (h : Goes c g g')
    (h' : Goes c g' g'') : Goes c g g'' := by
  refine ⟨fun d => (h'.binding d).trans (h.binding d), fun d => (h'.seen d).trans (h.seen d),
    fun s p hm => h.member s p (h'.member s p hm), fun s p owner ends hn => ?_,
    fun s p owner ends hh hn hm => h.loses s p owner ends hh hn (h'.member s p hm)⟩
  refine (h.keeps s p owner ends hn).trans (h'.keeps s p owner ends ?_)
  simpa only [Harms, h.binding c] using hn

/-- Nothing but flags and effects that concern no peer may come before. -/
theorem Goes.before {c : ConnectionId} {g g' g'' : SignalingGateway F} (h : Goes c g' g'')
    (hbinding : ∀ d, g'.binding d = g.binding d)
    (hseen : ∀ d, (g'.connection d).lastSeenAt = (g.connection d).lastSeenAt)
    (hrooms : g'.roomManager = g.roomManager)
    (hkeeps : ∀ s p owner ends, Keeps s p owner ends g g') : Goes c g g'' := by
  refine ⟨fun d => (h.binding d).trans (hbinding d), fun d => (h.seen d).trans (hseen d),
    hrooms ▸ h.member, fun s p owner ends hn => ?_, fun s p owner ends hh hn => ?_⟩
  · refine (hkeeps s p owner ends).trans (h.keeps s p owner ends ?_)
    simpa only [Harms, hbinding c] using hn
  · refine h.loses s p owner ends (hrooms ▸ hh) ?_
    simpa only [Harms, hbinding c] using hn

theorem goes_detach (g : SignalingGateway F) (m : Moment) (c : ConnectionId) :
    Goes c g (g.detach m c) := by
  unfold detach
  simp only
  have hsame : { g with peers := g.peers.filter (· ≠ c) }.binding c = g.binding c := rfl
  rw [hsame]
  cases hb : g.binding c with
  | none =>
    refine ⟨fun _ => rfl, fun _ => rfl, fun _ _ h => h, fun _ _ _ _ _ => ⟨id, [], by simp, by simp⟩,
      fun s p owner ends _ hharms => ?_⟩
    simp [Harms, hb] at hharms
  | some identity =>
    obtain ⟨s', p'⟩ := identity
    simp only [leave, broadcastPeerLeft]
    obtain ⟨l, hl, hsent⟩ := broadcast_eq
      ({ g with peers := g.peers.filter (· ≠ c)
                roomManager := (g.roomManager.leaveSession s' p').1 } : SignalingGateway F) s'
      ⟨"msg_" ++ m.broadcastUuid, .PEER_LEFT, some s', some p', none, m.now, .peer p' none⟩ p'
    rw [hl]
    refine ⟨fun _ => rfl, fun _ => rfl, fun _ _ h => h.of_leaveSession,
      fun s p owner ends hn => ⟨fun hh => ?_, l ++ [.emit (.peerLeft s' p')], by simp [emit],
        fun x hx ht => hn (.inl ?_)⟩, ?_⟩
    · refine hh.leaveSession fun hs => ⟨fun he => hn (.inl ?_), fun he => hn (.inr ?_)⟩
      · rw [hb, hs, he]
      · rw [hb, hs, he]
    · obtain hx | hx := List.mem_append.1 hx
      · obtain ⟨d, rfl, -⟩ := hsent x hx
        obtain ⟨-, hs, hp⟩ := ht
        cases hs
        cases hp
        exact hb
      · obtain rfl := List.mem_singleton.1 hx
        cases (show SignalingGatewayEvent.peerLeft s' p' = .peerLeft s p from ht)
        exact hb
    · rintro s p owner ends ⟨room, hroom, hp, rfl, rfl⟩ (h | h)
      · cases hb.symm.trans h
        exact RoomManager.not_member_leaveSession hroom (.inl rfl)
      · cases hb.symm.trans h
        exact RoomManager.not_member_leaveSession hroom (.inr rfl)

theorem connection_putConnection (g : SignalingGateway F) (c d : ConnectionId) (v : Connection) :
    (g.putConnection c v).connection d = if d = c then v else g.connection d := by
  simp only [connection, putConnection, OrderedMap.get?_set]
  split <;> rfl

theorem goes_handleClose (g : SignalingGateway F) (m : Moment) {c : ConnectionId}
    (hopen : (g.connection c).closed = false) : Goes c g (g.handleClose m c) := by
  unfold handleClose
  rw [if_neg (by simp [hopen])]
  refine (goes_detach _ m c).before (fun d => ?_) (fun d => ?_) rfl
    fun _ _ _ _ => ⟨id, [], by simp [putConnection], by simp⟩
  · apply binding_congr <;> rw [connection_putConnection] <;> split <;> simp_all
  · rw [connection_putConnection]
    split <;> simp_all

/-- A connection that is closed already is detached all the same. -/
theorem goes_drop (g : SignalingGateway F) (m : Moment) (c : ConnectionId) (code : Nat)
    (reason : String) : Goes c g ((g.close m c code reason).detach m c) := by
  unfold close
  split
  · exact goes_detach g m c
  · rename_i hopen
    have h := goes_handleClose { g with log := g.log ++ [Effect.close c code reason] } m
      (c := c) (by simpa [connection] using hopen)
    have hclose : Goes c g _ := h.before (fun _ => rfl) (fun _ => rfl) rfl fun _ _ _ _ =>
      ⟨id, [.close c code reason], rfl, fun x hx => by simp_all [Effect.TellsLeft]⟩
    exact hclose.trans (goes_detach _ m c)

/-- The connection has not been heard of since the cutoff. -/
def Stale (g : SignalingGateway F) (cutoff : Number) (c : ConnectionId) : Prop :=
  (g.connection c).lastSeenAt ≤ cutoff

/-- Dropping the stale connections of a list takes a peer out of its room exactly if one
of them is bound to it or to the owner. -/
theorem dropStale_spec (s : SessionId) (p owner : PeerId) (ends : Number) (m : Moment)
    (cutoff : Number) (l : List ConnectionId) (n : Nat) (g : SignalingGateway F) :
    (∀ s p, (dropStale m cutoff l n g).1.roomManager.Member s p → g.roomManager.Member s p) ∧
    ((∀ c ∈ l, g.Stale cutoff c → ¬ g.Harms s p owner c) →
      Keeps s p owner ends g (dropStale m cutoff l n g).1) ∧
    (g.roomManager.Houses s p owner ends → (∃ c ∈ l, g.Stale cutoff c ∧ g.Harms s p owner c) →
      ¬ (dropStale m cutoff l n g).1.roomManager.Member s p) := by
  induction l generalizing n g with
  | nil => exact ⟨fun _ _ h => h, fun _ => .refl g, fun _ ⟨_, hc, _⟩ => absurd hc (by simp)⟩
  | cons c rest ih =>
    unfold dropStale
    split
    · rename_i hstale
      have hgo := goes_drop g m c 4000 "stale peer"
      set g' := (g.close m c 4000 "stale peer").detach m c
      obtain ⟨hmem, hkeep, hlose⟩ := ih (n + 1) g'
      have hsame : ∀ d, (g'.Stale cutoff d ↔ g.Stale cutoff d) ∧
          (g'.Harms s p owner d ↔ g.Harms s p owner d) := by
        intro d
        simp only [Stale, Harms, hgo.binding d, hgo.seen d, and_self]
      refine ⟨fun s p h => hgo.member s p (hmem s p h), fun hall => ?_, fun hh => ?_⟩
      · refine (hgo.keeps s p owner ends (hall c (by simp) hstale)).trans (hkeep fun d hd => ?_)
        rw [(hsame d).1, (hsame d).2]
        exact hall d (by simp [hd])
      · rintro ⟨d, hd, hds, hdh⟩ hafter
        by_cases hc : g.Harms s p owner c
        · exact hgo.loses s p owner ends hh hc (hmem s p hafter)
        · obtain rfl | hd := List.mem_cons.1 hd
          · exact hc hdh
          · exact hlose ((hgo.keeps s p owner ends hc).room hh)
              ⟨d, hd, (hsame d).1.2 hds, (hsame d).2.2 hdh⟩ hafter
    · rename_i hfresh
      obtain ⟨hmem, hkeep, hlose⟩ := ih n g
      refine ⟨hmem, fun hall => hkeep fun d hd => hall d (by simp [hd]), fun hh => ?_⟩
      rintro ⟨d, hd, hds, hdh⟩
      obtain rfl | hd := List.mem_cons.1 hd
      · exact absurd hds hfresh
      · exact hlose hh ⟨d, hd, hds, hdh⟩

/-- A connection that closes spares the peer exactly if it is bound to somebody else. -/
theorem spared_closed_iff {g : SignalingGateway F} (hh : g.roomManager.Houses s p owner ends)
    (m : Moment) (c : ConnectionId) :
    Spared g (g.handleClose m c) s p ↔ (g.connection c).closed = true ∨ ¬ g.Harms s p owner c := by
  by_cases hopen : (g.connection c).closed = false
  · have hgo := goes_handleClose g m hopen
    simp only [hopen, Bool.false_eq_true, false_or]
    constructor
    · intro hsp hharms
      exact hgo.loses s p owner ends hh hharms hsp.member
    · intro hn
      exact (hgo.keeps s p owner ends hn).spared hh
  · have hclosed : (g.connection c).closed = true := by simpa using hopen
    have hnone : g.handleClose m c = g := by simp [handleClose, hclosed]
    simp only [hclosed, true_or, iff_true, hnone]
    exact (Keeps.refl g).spared hh

theorem spared_cleanup_iff {cfg : SignalingServerConfig} {g : SignalingGateway F}
    (hh : g.roomManager.Houses s p owner ends) (m : Moment) :
    Spared g (g.cleanupStalePeers cfg m).1 s p ↔ m.roomNow < ends ∧
      ∀ c ∈ g.peers, g.Stale (m.now - cfg.stalePeerTimeoutMs) c → ¬ g.Harms s p owner c := by
  obtain ⟨-, hkeep, hlose⟩ := dropStale_spec s p owner ends m
    (m.now - cfg.stalePeerTimeoutMs) g.peers 0 g
  unfold cleanupStalePeers
  simp only
  set dropped := (dropStale m (m.now - cfg.stalePeerTimeoutMs) g.peers 0 g).1
  constructor
  · intro hsp
    have hin : dropped.roomManager.Member s p := RoomManager.Member.of_cleanupExpired hsp.member
    have hall : ∀ c ∈ g.peers, g.Stale (m.now - cfg.stalePeerTimeoutMs) c →
        ¬ g.Harms s p owner c := fun c hc hs hn => hlose hh ⟨c, hc, hs, hn⟩ hin
    exact ⟨((hkeep hall).room hh).lt_of_cleanupExpired hsp.member, hall⟩
  · rintro ⟨hlive, hall⟩
    obtain ⟨hroom, l, hl, hquiet⟩ := hkeep hall
    refine Keeps.spared ⟨fun hh => (hroom hh).cleanupExpired hlive, l, hl, hquiet⟩ hh

theorem keeps_of_rooms {g : SignalingGateway F} {rooms : RoomManager F}
    (h : g.roomManager.Houses s p owner ends → rooms.Houses s p owner ends) :
    Keeps s p owner ends g { g with roomManager := rooms } :=
  ⟨h, [], by simp, by simp⟩

theorem keeps_send (g : SignalingGateway F) (c : ConnectionId) {envelope : SignalingEnvelope F}
    (h : envelope.type ≠ .PEER_LEFT) : Keeps s p owner ends g (g.send c envelope) := by
  obtain ⟨l, hl, hsent⟩ := g.send_eq c envelope
  rw [hl]
  refine ⟨id, l, rfl, fun x hx ht => ?_⟩
  rw [hsent x hx] at ht
  exact h ht.1

theorem keeps_sendError (g : SignalingGateway F) (m : Moment) (c : ConnectionId)
    (session : Option SessionId) (peer : Option PeerId) (message code : String) :
    Keeps s p owner ends g (g.sendError m c session peer message code) :=
  keeps_send g c (by simp)

theorem keeps_emit (g : SignalingGateway F) {event : SignalingGatewayEvent F}
    (h : event ≠ .peerLeft s p) : Keeps s p owner ends g (g.emit event) := by
  refine ⟨id, [.emit event], rfl, fun x hx ht => ?_⟩
  rw [List.mem_singleton.1 hx] at ht
  exact h ht

theorem keeps_bind (g : SignalingGateway F) (c : ConnectionId) (s' : SessionId) (p' : PeerId) :
    Keeps s p owner ends g (g.bind c s' p') :=
  ⟨id, [], by simp [bind, putConnection], by simp⟩

theorem keeps_putConnection (g : SignalingGateway F) (c : ConnectionId) (v : Connection) :
    Keeps s p owner ends g (g.putConnection c v) :=
  ⟨id, [], by simp [putConnection], by simp⟩

/-- What a client says in the room keeps the peer there unless it makes the peer or the owner
leave, or finds the room expired, or has one of the two join a room that is full. -/
def Tolerable (cfg : SignalingServerConfig) (g : SignalingGateway F) (s : SessionId)
    (p owner : PeerId) (ends : Number) (m : Moment) (envelope : SignalingEnvelope F) : Prop :=
  envelope.sessionId = some s → m.roomNow < ends ∧
    ∀ p', envelope.fromPeerId = some p' → p' = p ∨ p' = owner →
      envelope.type ≠ .PEER_LEFT ∧ (envelope.type = .JOIN_SESSION → ∀ room,
        g.roomManager.rooms.get? s = some room →
        (room.peers.set p' ⟨p', .receiver⟩).size ≤ cfg.maxPeersPerSession)

theorem truthy_eq_some {field : Option String} {v : String} (h : truthy field = some v) :
    field = some v :=
  (Option.filter_eq_some_iff.1 h).1

theorem keeps_handleCreateSession {cfg : SignalingServerConfig} (g : SignalingGateway F)
    (m : Moment) (c : ConnectionId) (envelope : SignalingEnvelope F) (p' : PeerId)
    (files : List F) :
    Keeps s p owner ends g (g.handleCreateSession cfg m c envelope p' files).1 := by
  unfold handleCreateSession
  simp only
  split
  · exact .refl g
  · rename_i rooms session hok
    refine Keeps.trans ?_ (keeps_emit _ (by simp))
    refine Keeps.trans ?_ (keeps_send _ c (by simp))
    exact (keeps_of_rooms fun hh => hh.createSession hok).trans (keeps_bind _ c _ p')

theorem keeps_broadcast (g : SignalingGateway F) (s' : SessionId) (p' : PeerId)
    {envelope : SignalingEnvelope F} (h : ∀ c, ¬ (Effect.send c envelope).TellsLeft s p) :
    Keeps s p owner ends g (g.broadcast s' envelope p') := by
  obtain ⟨l, hl, hsent⟩ := g.broadcast_eq s' envelope p'
  rw [hl]
  refine ⟨id, l, rfl, fun x hx ht => ?_⟩
  obtain ⟨c, rfl, -⟩ := hsent x hx
  exact h c ht

theorem keeps_handleJoinSession {cfg : SignalingServerConfig} {g : SignalingGateway F}
    {m : Moment} {envelope : SignalingEnvelope F} (c : ConnectionId)
    (htype : envelope.type = .JOIN_SESSION) (h : g.Tolerable cfg s p owner ends m envelope) :
    Keeps s p owner ends g (g.handleJoinSession cfg m c envelope).1 := by
  unfold handleJoinSession
  split
  · rename_i s' p' hs' hp'
    have hin : s' = s → envelope.sessionId = some s := fun he => he ▸ truthy_eq_some hs'
    have hjoin : g.roomManager.Houses s p owner ends →
        (g.roomManager.joinSession m.roomNow s' p').1.Houses s p owner ends :=
      fun hh => hh.joinSession fun he => (h (hin he)).1
    split
    · rename_i heq
      rw [heq] at hjoin
      exact keeps_of_rooms hjoin
    · rename_i rooms session heq
      rw [heq] at hjoin
      split
      · rename_i hfull
        refine keeps_of_rooms fun hh => (hjoin hh).leaveSession fun hs => ?_
        obtain ⟨room, hroom, -, hsize⟩ := RoomManager.joinSession_ok heq
        have hfit : ¬ (p' = p ∨ p' = owner) := by
          intro hwho
          have hle := ((h (hin hs)).2 p' (truthy_eq_some hp') hwho).2 htype room (hs ▸ hroom)
          rw [hsize] at hfull
          exact absurd hle (not_le.2 hfull)
        exact not_or.1 hfit
      · refine Keeps.trans ?_ (keeps_emit _ (by simp))
        refine Keeps.trans ?_ (keeps_broadcast _ s' p' fun c ht => by simp [Effect.TellsLeft] at ht)
        refine Keeps.trans ?_ (keeps_send _ c (by simp))
        exact (keeps_of_rooms hjoin).trans (keeps_bind _ c s' p')
  · exact .refl g

theorem keeps_handleRelay {cfg : SignalingServerConfig} {g : SignalingGateway F} {m : Moment}
    {envelope : SignalingEnvelope F} (h : g.Tolerable cfg s p owner ends m envelope) :
    Keeps s p owner ends g (g.handleRelay m envelope).1 := by
  have hlook : g.roomManager.Houses s p owner ends →
      (g.roomManager.relayWebRtc m.roomNow envelope).1.Houses s p owner ends :=
    fun hh => hh.relayWebRtc fun hs => (h hs).1
  unfold handleRelay
  split
  · rename_i heq
    rw [heq] at hlook
    exact keeps_of_rooms hlook
  · rename_i heq
    rw [heq] at hlook
    obtain ⟨-, rfl, htype, -⟩ := RoomManager.relayWebRtc_ok.1 heq
    simp only
    split
    · exact keeps_of_rooms hlook
    · refine Keeps.trans ?_ (keeps_emit _ (by simp))
      refine (keeps_of_rooms hlook).trans (keeps_send _ _ fun hleft => ?_)
      simp [hleft] at htype

theorem keeps_handleLeave (g : SignalingGateway F) (m : Moment) (c : ConnectionId)
    (s' : SessionId) (p' : PeerId) (h : s' = s → p' ≠ p ∧ p' ≠ owner) :
    Keeps s p owner ends g (g.handleLeave m c s' p') := by
  unfold handleLeave leave broadcastPeerLeft
  have hother : ¬ (s' = s ∧ p' = p) := fun he => (h he.1).1 he.2
  refine Keeps.trans ?_ (keeps_emit _ (by simpa using hother))
  refine Keeps.trans ?_ (keeps_putConnection _ c _)
  refine (keeps_of_rooms fun hh => hh.leaveSession h).trans (keeps_broadcast _ s' p' fun c ht => ?_)
  simp [Effect.TellsLeft] at ht
  exact hother ht

theorem keeps_handleEnvelope {cfg : SignalingServerConfig} {g : SignalingGateway F} {m : Moment}
    {envelope : SignalingEnvelope F} (c : ConnectionId)
    (h : g.Tolerable cfg s p owner ends m envelope) :
    Keeps s p owner ends g (g.handleEnvelope cfg m c envelope).1 := by
  unfold handleEnvelope
  split
  · exact keeps_handleCreateSession g m c envelope _ _
  · rename_i htype
    exact keeps_handleJoinSession c htype h
  · exact keeps_handleRelay h
  · exact keeps_handleRelay h
  · exact keeps_handleRelay h
  · rename_i htype
    split
    · rename_i s' p' hs' hp'
      refine keeps_handleLeave g m c s' p' fun hs => not_or.1 fun hwho => ?_
      have hin : envelope.sessionId = some s := hs ▸ truthy_eq_some hs'
      exact ((h hin).2 p' (truthy_eq_some hp') hwho).1 htype
    · exact .refl g
  · exact keeps_sendError g m c _ _ _ _

/-- What an action may not do if the peer is to stay. -/
def Allows (cfg : SignalingServerConfig) (s : SessionId) (p owner : PeerId) (ends : Number)
    (g : SignalingGateway F) : Moment × Action F → Prop
  | (_, .attach _) => True
  | (m, .text _ (.ok envelope)) => g.Tolerable cfg s p owner ends m envelope
  | (_, .text _ (.error _)) => True
  | (_, .closed c) => (g.connection c).closed = true ∨ ¬ g.Harms s p owner c
  | (m, .cleanup) => m.roomNow < ends ∧
      ∀ c ∈ g.peers, g.Stale (m.now - cfg.stalePeerTimeoutMs) c → ¬ g.Harms s p owner c

theorem keeps_step {cfg : SignalingServerConfig} {g : SignalingGateway F}
    {a : Moment × Action F} (h : g.Allows cfg s p owner ends a) :
    Keeps s p owner ends g (g.step cfg a) := by
  obtain ⟨m, a⟩ := a
  cases a with
  | attach c => exact ⟨id, [], by simp [step, attach, putConnection], by simp⟩
  | text c decoded =>
    have hseen : Keeps s p owner ends g
        (g.putConnection c { g.connection c with lastSeenAt := m.now }) :=
      keeps_putConnection g c _
    cases decoded with
    | error err => exact hseen.trans (keeps_sendError _ m c none none err _)
    | ok envelope =>
      have henv := hseen.trans (keeps_handleEnvelope c h)
      simp only [step, handleText]
      split
      · rename_i heq
        rw [heq] at henv
        exact henv.trans (keeps_sendError _ m c none none _ _)
      · rename_i heq
        rw [heq] at henv
        exact henv
  | closed c =>
    obtain hclosed | hn := h
    · have hnone : g.step cfg (m, .closed c) = g := by simp [step, handleClose, hclosed]
      rw [hnone]
      exact .refl g
    · by_cases hopen : (g.connection c).closed = false
      · exact (goes_handleClose g m hopen).keeps s p owner ends hn
      · have hnone : g.step cfg (m, .closed c) = g := by simp [step, handleClose, hopen]
        rw [hnone]
        exact .refl g
  | cleanup =>
    obtain ⟨hlive, hall⟩ := h
    obtain ⟨-, hkeep, -⟩ := dropStale_spec s p owner ends m
      (m.now - cfg.stalePeerTimeoutMs) g.peers 0 g
    obtain ⟨hroom, hlog⟩ := hkeep hall
    exact ⟨fun hh => (hroom hh).cleanupExpired hlive, hlog⟩

theorem find?_standsFor {g : SignalingGateway F} {c : ConnectionId} :
    g.peers.find? (g.standsFor s p) = some c ↔ g.First s p c := by
  rw [List.find?_eq_some_iff_append]
  simp only [First, Bool.not_eq_true']
  constructor
  · rintro ⟨hc, before, after, hpeers, hall⟩
    exact ⟨before, after, hpeers, hc, hall⟩
  · rintro ⟨before, after, hpeers, hc, hall⟩
    exact ⟨hc, before, after, hpeers, hall⟩

theorem handleText_relay {cfg : SignalingServerConfig} {g : SignalingGateway F} {m : Moment}
    {envelope : SignalingEnvelope F} {relay : RelayResult F} {rooms : RoomManager F}
    (h : g.roomManager.relayWebRtc m.roomNow envelope = (rooms, .ok relay)) (c : ConnectionId) :
    g.handleText cfg m c (.ok envelope) =
      let g := g.putConnection c { g.connection c with lastSeenAt := m.now }
      match g.peers.find? (g.standsFor relay.sessionId relay.toPeerId) with
      | none => g.sendError m c none none ("Target peer is not connected: " ++ relay.toPeerId)
          "bad_request"
      | some target => (g.send target envelope).emit (.relayed envelope) := by
  obtain ⟨rfl, rfl, htype, -⟩ := RoomManager.relayWebRtc_ok.1 h
  have henvelope : ∀ g : SignalingGateway F,
      g.handleEnvelope cfg m c relay.envelope = g.handleRelay m relay.envelope := by
    intro g
    unfold handleEnvelope
    split <;> simp_all
  simp only [handleText, henvelope, handleRelay, putConnection, h]
  generalize List.find? _ g.peers = target
  cases target <;> rfl

/-- A relayed envelope goes to the first attached connection that stands for its target. -/
theorem relayed_iff {cfg : SignalingServerConfig} {g : SignalingGateway F} {m : Moment}
    {envelope : SignalingEnvelope F} {relay : RelayResult F} {rooms : RoomManager F}
    (h : g.roomManager.relayWebRtc m.roomNow envelope = (rooms, .ok relay))
    (c target : ConnectionId) :
    Effect.send target envelope ∈ (g.handleText cfg m c (.ok envelope)).log.drop g.log.length ↔
      (g.connection target).closed = false ∧ g.First relay.sessionId relay.toPeerId target := by
  rw [handleText_relay h, ← find?_standsFor]
  have hrelay := RoomManager.relayWebRtc_ok.1 h
  set seen := g.putConnection c { g.connection c with lastSeenAt := m.now }
  have hlog : seen.log = g.log := rfl
  have hconn : ∀ d, (seen.connection d).closed = (g.connection d).closed ∧
      seen.standsFor relay.sessionId relay.toPeerId d =
        g.standsFor relay.sessionId relay.toPeerId d := by
    intro d
    simp only [standsFor, seen, connection_putConnection]
    split <;> simp_all
  have hstands : seen.standsFor relay.sessionId relay.toPeerId =
      g.standsFor relay.sessionId relay.toPeerId := funext fun d => (hconn d).2
  rw [← (hconn target).1, ← hstands, ← hlog, show g.peers = seen.peers from rfl]
  simp only
  split
  · rename_i hnone
    refine iff_of_false ?_ (by simp [hnone])
    obtain ⟨l, hl, hsent⟩ := seen.send_eq c ⟨"msg_" ++ m.replyUuid, .ERROR, none, none, none, m.now,
      .error "bad_request" ("Target peer is not connected: " ++ relay.toPeerId)⟩
    rw [sendError, hl]
    simp only [List.drop_left]
    intro hin
    cases hsent _ hin
    simp at hrelay
  · rename_i first hfirst
    rw [hfirst, send]
    split <;> rename_i hclosed
    · refine iff_of_false (by simp [emit]) ?_
      rintro ⟨hopen, heq⟩
      cases heq
      simp [hclosed] at hopen
    · simp only [emit, List.append_assoc, List.drop_left]
      constructor
      · intro hin
        have htarget : target = first := by simpa using hin
        subst htarget
        exact ⟨by simpa using hclosed, rfl⟩
      · rintro ⟨-, heq⟩
        cases heq
        simp

end SignalingGateway

open SignalingGateway

/-- A peer stays in its room, and nobody is told that it left, along every run of allowed
actions. In each state reached a connection that goes spares the peer, and a relay reaches
the connection that took on the identity last, exactly when the bindings allow it. -/
theorem reconnect_safety {cfg : SignalingServerConfig} {g g' : SignalingGateway F} {s : SessionId}
    {p owner : PeerId} {ends : Number} (hh : g.roomManager.Houses s p owner ends)
    (hrun : Run (SignalingGateway.step cfg) (Allows cfg s p owner ends) g g') :
    Spared g g' s p ∧
    (∀ m old, Spared g' (g'.step cfg (m, .closed old)) s p ↔
      (g'.connection old).closed = true ∨ ¬ g'.Harms s p owner old) ∧
    (∀ m, Spared g' (g'.step cfg (m, .cleanup)) s p ↔ m.roomNow < ends ∧
      ∀ old ∈ g'.peers, g'.Stale (m.now - cfg.stalePeerTimeoutMs) old → ¬ g'.Harms s p owner old) ∧
    ∀ m c envelope rooms relay recent,
      g'.roomManager.relayWebRtc m.roomNow envelope = (rooms, .ok relay) →
      relay.sessionId = s → relay.toPeerId = p → g'.latest s p = some recent →
      (Effect.send recent envelope ∈
          (g'.step cfg (m, .text c (.ok envelope))).log.drop g'.log.length ↔
        (g'.connection recent).closed = false ∧ g'.First s p recent) := by
  have hkeeps : Keeps s p owner ends g g' := by
    induction hrun with
    | refl => exact .refl g
    | tail a _ ha ih => exact ih.trans (keeps_step ha)
  have hh' := hkeeps.room hh
  refine ⟨hkeeps.spared hh, spared_closed_iff hh', spared_cleanup_iff hh', ?_⟩
  rintro m c envelope rooms relay recent hrelay rfl rfl -
  exact relayed_iff hrelay c recent

namespace Sample

def config : SignalingServerConfig := ⟨"http://localhost", 1000, 8, 10, 60⟩

def moment : Moment := ⟨10, 10, "u", "r", "b"⟩

def message (type : SignalingMessageType) (sender target : Option PeerId)
    (payload : Payload Unit) : Except String (SignalingEnvelope Unit) :=
  .ok ⟨"m", type, some "s", sender, target, 10, payload⟩

/-- The owner opens session `s`; peer `p` joins on connection 1 and again on connection 2. -/
def rejoin : List (Moment × Action Unit) :=
  [.attach 0, .text 0 (message .CREATE_SESSION none none (.create "o" [])),
    .attach 1, .text 1 (message .JOIN_SESSION (some "p") none (.other "")),
    .attach 2, .text 2 (message .JOIN_SESSION (some "p") none (.other ""))].map (moment, ·)

def offer : SignalingEnvelope Unit :=
  ⟨"m", .WEBRTC_OFFER, some "s", some "o", some "p", 10, .other ""⟩

def rejoined : SignalingGateway Unit := steps (SignalingGateway.step config) .new rejoin

/-- The same peer turns to another session on its first connection. -/
def moved : List (Moment × Action Unit) :=
  [.text 1 (.ok ⟨"m", .CREATE_SESSION, some "t", none, none, 10, .create "p" []⟩), .closed 1].map
    (moment, ·)

end Sample

/-- The offer goes to the first connection of the peer, and when that one closes the peer is
out of the room. When the owner rejoins, its old connection takes the room along. -/
theorem old_connection_removes_peer :
    Sample.rejoined.peers = [0, 1, 2] ∧ Sample.rejoined.latest "s" "p" = some 2 ∧
    Sample.rejoined.roomManager.Member "s" "p" ∧
    Effect.send 2 Sample.offer ∉ (Sample.rejoined.step Sample.config
      (Sample.moment, .text 0 (.ok Sample.offer))).log ∧
    ¬ (Sample.rejoined.step Sample.config (Sample.moment, .closed 1)).roomManager.Member "s" "p" ∧
    Effect.emit (.peerLeft "s" "p") ∈
      (Sample.rejoined.step Sample.config (Sample.moment, .closed 1)).log ∧
    (steps (SignalingGateway.step Sample.config) Sample.rejoined
      [(Sample.moment, .attach 3),
        (Sample.moment, .text 3 (Sample.message .JOIN_SESSION (some "o") none (.other ""))),
        (Sample.moment, .closed 0)]).roomManager.rooms.has "s" = false := by
  decide +kernel

theorem reconnect_safety_sample :
    let g := steps (SignalingGateway.step Sample.config) Sample.rejoined Sample.moved
    Spared Sample.rejoined g "s" "p" ∧
    ¬ Spared g (g.step Sample.config (Sample.moment, .closed 0)) "s" "p" ∧
    Effect.send 2 Sample.offer ∈ (g.step Sample.config
      (Sample.moment, .text 0 (.ok Sample.offer))).log.drop g.log.length := by
  have hrun : Run (SignalingGateway.step Sample.config)
      (Allows Sample.config "s" "p" "o" 1010) Sample.rejoined
      (steps (SignalingGateway.step Sample.config) Sample.rejoined Sample.moved) := by
    refine run_of_allowed ⟨fun h => absurd h (by decide), .inr ?_, trivial⟩
    unfold Harms
    decide +kernel
  obtain ⟨hspared, hclosed, -, hrelay⟩ := reconnect_safety (by decide +kernel) hrun
  obtain ⟨room, hroom, hp, -, hends⟩ : (steps (SignalingGateway.step Sample.config) Sample.rejoined
    Sample.moved).roomManager.Houses "s" "p" "o" 1010 := by decide +kernel
  obtain ⟨same, hsame, ho, -, -⟩ : (steps (SignalingGateway.step Sample.config) Sample.rejoined
    Sample.moved).roomManager.Houses "s" "o" "o" 1010 := by decide +kernel
  cases hroom.symm.trans hsame
  have hlive : Sample.moment.roomNow < room.expiresAt := by
    rw [hends]
    decide +kernel
  refine ⟨hspared, mt (hclosed _ 0).1 ?_, (hrelay Sample.moment 0 Sample.offer _
    ⟨"s", "o", "p", Sample.offer⟩ 2 (RoomManager.relayWebRtc_ok.2 ⟨rfl, rfl, by decide, rfl, rfl, rfl,
      room, hroom, hlive, ho, hp⟩) rfl rfl ?_).2 ⟨?_, [0], [], ?_, ?_, ?_⟩⟩
  · unfold Harms
    decide +kernel
  all_goals decide +kernel

end PonsWarp.Signaling
