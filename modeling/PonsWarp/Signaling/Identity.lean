import PonsWarp.Signaling.Moves

set_option autoImplicit false

/-!
Whose name a message goes under. The handlers of relays and of leaving take the
sender from the envelope; only a connection that goes is taken by its binding.
-/

namespace PonsWarp.Signaling

open PonsWarp.Data PonsWarp.Core

variable {F : Type}

/-- The envelope is one that the gateway relays. -/
def SignalingEnvelope.WebRtc (envelope : SignalingEnvelope F) : Prop :=
  envelope.type ∈ [SignalingMessageType.WEBRTC_OFFER, .WEBRTC_ANSWER, .ICE_CANDIDATE]

/-- The room is live, and both peers are in it. -/
def RoomManager.Shares (m : RoomManager F) (now : Number) (s : SessionId) (p p' : PeerId) : Prop :=
  ∃ room, m.rooms.get? s = some room ∧ now < room.expiresAt ∧ room.peers.has p = true ∧
    room.peers.has p' = true

instance decidableShares (m : RoomManager F) (now : Number) (s : SessionId) (p p' : PeerId) :
    Decidable (m.Shares now s p p') :=
  decidable_of_iff ((m.rooms.get? s).any (fun room => now < room.expiresAt &&
    (room.peers.has p && room.peers.has p')) = true) (by
      simp [RoomManager.Shares, Option.any_eq_true])

namespace SignalingGateway

/-- A connection that is bound is bound to what it took on last. -/
def Binds (g : SignalingGateway F) : Prop :=
  ∀ c s p, g.binding c = some (s, p) → g.taken c = some (s, p)

theorem binding_eq_some {g : SignalingGateway F} {c : ConnectionId} {s : SessionId} {p : PeerId} :
    g.binding c = some (s, p) ↔ truthy (g.identity c).1 = some s ∧
      truthy (g.identity c).2 = some p := by
  unfold binding identity
  split
  · rename_i hs hp
    simp [hs, hp]
  · rename_i hnone
    exact iff_of_false (by simp) fun h => hnone _ _ h.1 h.2

/-- No connection changes what it stands for. -/
structure Steady (g g' : SignalingGateway F) : Prop where
  identity : ∀ d, g'.identity d = g.identity d
  bound : g'.bound = g.bound

theorem Binds.took {g g' : SignalingGateway F} {c : ConnectionId} {s : SessionId} {p : PeerId}
    (hb : g.Binds) (h : Took c s p g g') : g'.Binds := by
  intro d s' p' hbound
  have htaken : g'.taken d = if d = c then some (s, p) else g.taken d := by
    simp only [taken, h.bound, List.reverse_append, List.reverse_singleton,
      List.singleton_append, List.find?_cons]
    by_cases hd : d = c
    · simp [hd]
    · simp [hd, Ne.symm hd]
  obtain ⟨hs, hp⟩ := binding_eq_some.1 hbound
  rw [htaken]
  split
  · rename_i hd
    rw [h.identity, if_pos hd] at hs hp
    cases truthy_eq_some hs
    cases truthy_eq_some hp
    rfl
  · rename_i hd
    rw [h.identity, if_neg hd] at hs hp
    exact hb d s' p' (binding_eq_some.2 ⟨hs, hp⟩)

theorem Binds.left {g g' : SignalingGateway F} {c : ConnectionId} {s : SessionId} {p : PeerId}
    (hb : g.Binds) (h : Left c s p g g') : g'.Binds := by
  intro d s' p' hbound
  have htaken : g'.taken d = g.taken d := by simp only [taken, h.bound]
  obtain ⟨hs, hp⟩ := binding_eq_some.1 hbound
  rw [h.identity] at hs hp
  split at hs
  · cases truthy_eq_some hs
  · rename_i hd
    rw [if_neg hd] at hp
    exact htaken.trans (hb d s' p' (binding_eq_some.2 ⟨hs, hp⟩))

/-- A refused relay is answered on the connection it came on. -/
theorem handleText_refused {cfg : SignalingServerConfig} {g : SignalingGateway F} {m : Moment}
    {envelope : SignalingEnvelope F} {err : String} {rooms : RoomManager F}
    (htype : envelope.WebRtc)
    (h : g.roomManager.relayWebRtc m.roomNow envelope = (rooms, .error err)) (c : ConnectionId) :
    g.handleText cfg m c (.ok envelope) =
      { g.putConnection c { g.connection c with lastSeenAt := m.now } with
        roomManager := rooms }.sendError m c none none err "bad_request" := by
  have henvelope : ∀ g : SignalingGateway F,
      g.handleEnvelope cfg m c envelope = g.handleRelay m envelope := by
    intro g
    unfold handleEnvelope
    unfold SignalingEnvelope.WebRtc at htype
    split <;> simp_all
  simp only [handleText, henvelope, handleRelay, putConnection, h]

end SignalingGateway

open SignalingGateway

end PonsWarp.Signaling
