import PonsWarp.Signaling.Reconnect

set_option autoImplicit false

/-!
What one action does to the attached connections, the identities they have taken
on and the memberships of the rooms.
-/

namespace PonsWarp.Signaling

open PonsWarp.Data PonsWarp.Core

variable {F : Type}

/-- The session and the sender that an envelope names. -/
def SignalingEnvelope.claims (envelope : SignalingEnvelope F) : Option (SessionId × PeerId) :=
  match truthy envelope.sessionId, truthy envelope.fromPeerId with
  | some sessionId, some peerId => some (sessionId, peerId)
  | _, _ => none

theorem claims_eq_some {envelope : SignalingEnvelope F} {s : SessionId} {p : PeerId} :
    envelope.claims = some (s, p) ↔ truthy envelope.sessionId = some s ∧
      truthy envelope.fromPeerId = some p := by
  unfold SignalingEnvelope.claims
  split
  · rename_i hs hp
    simp [hs, hp]
  · rename_i hnone
    exact iff_of_false (by simp) fun h => hnone _ _ h.1 h.2

namespace RoomManager

variable {m : RoomManager F} {s s' : SessionId} {p p' : PeerId} {now : Number}

/-- The rooms are as before, except that expired ones may be gone. -/
def Settles (now : Number) (m m' : RoomManager F) : Prop :=
  (∀ s room, m'.rooms.get? s = some room → m.rooms.get? s = some room) ∧
  ∀ s room, m.rooms.get? s = some room → now < room.expiresAt → m'.rooms.get? s = some room

theorem settles_getMutableLiveRoom (m : RoomManager F) (now : Number) (s : SessionId) :
    Settles now m (m.getMutableLiveRoom now s).1 := by
  unfold getMutableLiveRoom
  split
  · exact ⟨fun _ _ h => h, fun _ _ h _ => h⟩
  · rename_i room hroom
    split
    · rename_i hexp
      refine ⟨fun a found h => (OrderedMap.get?_delete_eq_some.1 h).2, fun a found h hlive => ?_⟩
      refine OrderedMap.get?_delete_eq_some.2 ⟨?_, h⟩
      rintro rfl
      cases hroom.symm.trans h
      exact absurd hlive (not_lt.2 hexp)
    · exact ⟨fun _ _ h => h, fun _ _ h _ => h⟩

theorem settles_relayWebRtc (m : RoomManager F) (now : Number) (envelope : SignalingEnvelope F) :
    Settles now m (m.relayWebRtc now envelope).1 := by
  unfold relayWebRtc
  split
  · rename_i s _ _ _ _ _
    split
    · exact ⟨fun _ _ h => h, fun _ _ h _ => h⟩
    · have hlook := settles_getMutableLiveRoom m now s
      split
      · rename_i heq
        rw [heq] at hlook
        exact hlook
      · rename_i heq
        rw [heq] at hlook
        split
        · exact hlook
        · split <;> exact hlook
  · exact ⟨fun _ _ h => h, fun _ _ h _ => h⟩

/-- Leaving takes a membership away only from the peer, or from all of a room it owns. -/
theorem member_leaveSession_iff :
    (m.leaveSession s p).1.Member s' p' ↔ m.Member s' p' ∧
      ¬ (s' = s ∧ (p' = p ∨ ∃ room, m.rooms.get? s = some room ∧ room.ownerPeerId = p)) := by
  constructor
  · intro h
    refine ⟨h.of_leaveSession, ?_⟩
    rintro ⟨rfl, hwho⟩
    obtain ⟨room, hroom, -⟩ := h.of_leaveSession
    refine not_member_leaveSession hroom ?_ h
    obtain rfl | ⟨same, hsame, rfl⟩ := hwho
    · exact .inl rfl
    · cases hroom.symm.trans hsame
      exact .inr rfl
  · rintro ⟨⟨room, hroom, hp⟩, hother⟩
    have hh : m.Houses s' p' room.ownerPeerId room.expiresAt := ⟨room, hroom, hp, rfl, rfl⟩
    refine (hh.leaveSession fun hs => ⟨fun he => ?_, fun he => ?_⟩).member
    · exact hother ⟨hs.symm, .inl he.symm⟩
    · exact hother ⟨hs.symm, .inr ⟨room, hs ▸ hroom, he.symm⟩⟩

theorem Settles.member {m' : RoomManager F} (h : Settles now m m') (hm : m'.Member s p) :
    m.Member s p := by
  obtain ⟨room, hroom, hp⟩ := hm
  exact ⟨room, h.1 s room hroom, hp⟩

theorem member_set {room : MutableRoomRecord F} :
    (⟨m.rooms.set s room⟩ : RoomManager F).Member s' p' ↔
      if s' = s then room.peers.has p' = true else m.Member s' p' := by
  simp only [Member, OrderedMap.get?_set]
  split <;> simp

theorem member_createSession {m' : RoomManager F} {files : List F} {ttl : Number}
    {room : RoomSnapshot F} (h : m.createSession now s p files ttl = .ok (m', room)) :
    m'.Member s' p' ↔ m.Member s' p' ∨ (s' = s ∧ p' = p) := by
  unfold createSession at h
  split at h
  · cases h
  · rename_i hnew
    cases h
    rw [member_set]
    split
    · rename_i hs
      subst hs
      have hno : ¬ m.Member s' p' := by
        rintro ⟨room, hroom, -⟩
        exact hnew (OrderedMap.has_iff.2 ⟨room, hroom⟩)
      simp [hno, OrderedMap.has, OrderedMap.get?_set, apply_ite]
    · rename_i hs
      simp [hs]

theorem member_joinSession {m' : RoomManager F} {session : RoomSnapshot F}
    (h : m.joinSession now s p = (m', .ok session)) :
    m'.Member s' p' ↔ m.Member s' p' ∨ (s' = s ∧ p' = p) := by
  unfold joinSession at h
  split at h
  · cases h
  · rename_i found room heq
    obtain ⟨rfl, hroom, -⟩ := getMutableLiveRoom_ok.1 heq
    cases h
    rw [member_set]
    split
    · rename_i hs
      subst hs
      have hmem : found.Member s' p' ↔ room.peers.has p' = true := by
        simp [Member, hroom]
      rw [hmem]
      simp only [OrderedMap.has, OrderedMap.get?_set]
      split <;> simp_all
    · rename_i hs
      simp [hs]

theorem settles_joinSession_error {m' : RoomManager F} {err : String}
    (h : m.joinSession now s p = (m', .error err)) : Settles now m m' := by
  have hlook := settles_getMutableLiveRoom m now s
  unfold joinSession at h
  split at h
  · rename_i heq
    cases h
    rw [heq] at hlook
    exact hlook
  · cases h

end RoomManager

namespace SignalingGateway

/-- The fields that say whom a connection stands for. -/
def identity (g : SignalingGateway F) (c : ConnectionId) : Option SessionId × Option PeerId :=
  ((g.connection c).sessionId, (g.connection c).peerId)

/-- What a connection took on last. -/
def taken (g : SignalingGateway F) (c : ConnectionId) : Option (SessionId × PeerId) :=
  (g.bound.reverse.find? fun b => b.1 = c).map (·.2)

/-- Nothing happens to connections and their identities; members may go. -/
structure Same (g g' : SignalingGateway F) : Prop where
  identity : ∀ d, g'.identity d = g.identity d
  bound : g'.bound = g.bound
  peers : g'.peers = g.peers
  member : ∀ s p, g'.roomManager.Member s p → g.roomManager.Member s p

/-- A connection takes on the identity of a peer that is now in the room. -/
structure Took (c : ConnectionId) (s : SessionId) (p : PeerId) (g g' : SignalingGateway F) :
    Prop where
  identity : ∀ d, g'.identity d = if d = c then (some s, some p) else g.identity d
  bound : g'.bound = g.bound ++ [(c, s, p)]
  peers : g'.peers = g.peers
  member : ∀ s' p', g'.roomManager.Member s' p' ↔ g.roomManager.Member s' p' ∨ (s' = s ∧ p' = p)

/-- A peer leaves by message, and the connection the message came on stands for nobody. -/
structure Left (c : ConnectionId) (s : SessionId) (p : PeerId) (g g' : SignalingGateway F) :
    Prop where
  identity : ∀ d, g'.identity d = if d = c then (none, none) else g.identity d
  bound : g'.bound = g.bound
  peers : g'.peers = g.peers
  rooms : g'.roomManager = (g.roomManager.leaveSession s p).1

/-- A connection is detached and whoever it is bound to leaves. -/
structure Went (c : ConnectionId) (g g' : SignalingGateway F) : Prop where
  identity : ∀ d, g'.identity d = g.identity d
  bound : g'.bound = g.bound
  peers : g'.peers = g.peers.filter (· ≠ c)
  member : ∀ s p, g'.roomManager.Member s p → g.roomManager.Member s p ∧ g.binding c ≠ some (s, p)

theorem Same.refl (g : SignalingGateway F) : Same g g :=
  ⟨fun _ => rfl, rfl, rfl, fun _ _ h => h⟩

theorem Same.trans {g g' g'' : SignalingGateway F} (h : Same g g') (h' : Same g' g'') :
    Same g g'' :=
  ⟨fun d => (h'.identity d).trans (h.identity d), h'.bound.trans h.bound, h'.peers.trans h.peers,
    fun s p hm => h.member s p (h'.member s p hm)⟩

theorem same_log (g : SignalingGateway F) (log : List (Effect F)) : Same g { g with log := log } :=
  ⟨fun _ => rfl, rfl, rfl, fun _ _ h => h⟩

theorem same_send (g : SignalingGateway F) (c : ConnectionId) (envelope : SignalingEnvelope F) :
    Same g (g.send c envelope) := by
  obtain ⟨l, hl, -⟩ := g.send_eq c envelope
  rw [hl]
  exact same_log g _

theorem same_broadcast (g : SignalingGateway F) (s : SessionId) (envelope : SignalingEnvelope F)
    (p : PeerId) : Same g (g.broadcast s envelope p) := by
  obtain ⟨l, hl, -⟩ := g.broadcast_eq s envelope p
  rw [hl]
  exact same_log g _

theorem same_rooms {g : SignalingGateway F} {rooms : RoomManager F}
    (h : ∀ s p, rooms.Member s p → g.roomManager.Member s p) :
    Same g { g with roomManager := rooms } :=
  ⟨fun _ => rfl, rfl, rfl, h⟩

theorem identity_putConnection (g : SignalingGateway F) (c d : ConnectionId) (v : Connection) :
    (g.putConnection c v).identity d =
      if d = c then (v.sessionId, v.peerId) else g.identity d := by
  simp only [identity, connection_putConnection]
  split <;> rfl

/-- A flag or a clock of a connection may change. -/
theorem same_putConnection {g : SignalingGateway F} {c : ConnectionId} {v : Connection}
    (hs : v.sessionId = (g.connection c).sessionId) (hp : v.peerId = (g.connection c).peerId) :
    Same g (g.putConnection c v) := by
  refine ⟨fun d => ?_, rfl, rfl, fun _ _ h => h⟩
  rw [identity_putConnection]
  split
  · rename_i hd
    rw [hd, hs, hp]
    rfl
  · rfl

theorem Took.of_same {c : ConnectionId} {s : SessionId} {p : PeerId} {g g' g'' : SignalingGateway F}
    (h : Took c s p g g') (hs : Same g' g'') (hm : g''.roomManager = g'.roomManager) :
    Took c s p g g'' :=
  ⟨fun d => (hs.identity d).trans (h.identity d), hs.bound.trans h.bound, hs.peers.trans h.peers,
    hm ▸ h.member⟩

theorem Took.before {c : ConnectionId} {s : SessionId} {p : PeerId} {g g' g'' : SignalingGateway F}
    (h : Took c s p g' g'') (hs : Same g g') (hm : g'.roomManager = g.roomManager) :
    Took c s p g g'' :=
  ⟨fun d => by rw [h.identity, hs.identity], by rw [h.bound, hs.bound], h.peers.trans hs.peers,
    hm ▸ h.member⟩

theorem Left.before {c : ConnectionId} {s : SessionId} {p : PeerId} {g g' g'' : SignalingGateway F}
    (h : Left c s p g' g'') (hs : Same g g') (hm : g'.roomManager = g.roomManager) :
    Left c s p g g'' :=
  ⟨fun d => by rw [h.identity, hs.identity], by rw [h.bound, hs.bound], h.peers.trans hs.peers,
    hm ▸ h.rooms⟩

theorem Left.of_same {c : ConnectionId} {s : SessionId} {p : PeerId} {g g' g'' : SignalingGateway F}
    (h : Left c s p g g') (hs : Same g' g'') (hm : g''.roomManager = g'.roomManager) :
    Left c s p g g'' :=
  ⟨fun d => (hs.identity d).trans (h.identity d), hs.bound.trans h.bound, hs.peers.trans h.peers,
    hm.trans h.rooms⟩

theorem Went.before {c : ConnectionId} {g g' g'' : SignalingGateway F} (h : Went c g' g'')
    (hs : Same g g') (hb : g'.binding c = g.binding c) : Went c g g'' :=
  ⟨fun d => by rw [h.identity, hs.identity], by rw [h.bound, hs.bound], by rw [h.peers, hs.peers],
    fun s p hm => ⟨hs.member s p (h.member s p hm).1, hb ▸ (h.member s p hm).2⟩⟩

@[simp] theorem send_roomManager (g : SignalingGateway F) (c : ConnectionId)
    (envelope : SignalingEnvelope F) : (g.send c envelope).roomManager = g.roomManager := by
  unfold send
  split <;> rfl

@[simp] theorem broadcast_roomManager (g : SignalingGateway F) (s : SessionId)
    (envelope : SignalingEnvelope F) (p : PeerId) :
    (g.broadcast s envelope p).roomManager = g.roomManager := by
  obtain ⟨l, hl, -⟩ := g.broadcast_eq s envelope p
  rw [hl]

theorem took_bind {g : SignalingGateway F} {rooms : RoomManager F} {s : SessionId} {p : PeerId}
    (c : ConnectionId) (h : ∀ s' p', rooms.Member s' p' ↔
      g.roomManager.Member s' p' ∨ (s' = s ∧ p' = p)) :
    Took c s p g ({ g with roomManager := rooms }.bind c s p) := by
  refine ⟨fun d => ?_, rfl, rfl, h⟩
  exact identity_putConnection _ c d _

/-- The room that a peer would be added to is live and has space. -/
def Admits (cfg : SignalingServerConfig) (g : SignalingGateway F) (m : Moment) (s : SessionId)
    (p : PeerId) : Prop :=
  ∃ room, g.roomManager.rooms.get? s = some room ∧ m.roomNow < room.expiresAt ∧
    ((room.peers.set p ⟨p, .receiver⟩).size : Number) ≤ cfg.maxPeersPerSession

/-- The envelope makes the connection it comes on stand for the peer. -/
def Registers (cfg : SignalingServerConfig) (g : SignalingGateway F) (m : Moment)
    (envelope : SignalingEnvelope F) (s : SessionId) (p : PeerId) : Prop :=
  (envelope.type = .CREATE_SESSION ∧ (∃ files, envelope.payload = .create p files) ∧
    s = envelope.sessionId.getD ("sess_" ++ m.sessionUuid) ∧
    g.roomManager.rooms.has s = false) ∨
  (envelope.type = .JOIN_SESSION ∧ envelope.claims = some (s, p) ∧ g.Admits cfg m s p)

/-- The envelope makes a peer leave. -/
def Releases (envelope : SignalingEnvelope F) (s : SessionId) (p : PeerId) : Prop :=
  envelope.type = .PEER_LEFT ∧ envelope.claims = some (s, p)

theorem handleCreateSession_spec {cfg : SignalingServerConfig} (g : SignalingGateway F)
    (m : Moment) (c : ConnectionId) {envelope : SignalingEnvelope F} {p : PeerId}
    {files : List F} (htype : envelope.type = .CREATE_SESSION)
    (hpayload : envelope.payload = .create p files) :
    Same g (g.handleCreateSession cfg m c envelope p files).1 ∨
    ∃ s p', g.Registers cfg m envelope s p' ∧
      Took c s p' g (g.handleCreateSession cfg m c envelope p files).1 := by
  unfold handleCreateSession
  simp only
  split
  · exact .inl (.refl g)
  · rename_i rooms session hok
    refine .inr ⟨_, p, .inl ⟨htype, ⟨files, hpayload⟩, rfl, ?_⟩, ?_⟩
    · unfold RoomManager.createSession at hok
      split at hok
      · cases hok
      · rename_i hnew
        simpa using hnew
    · refine (took_bind c fun _ _ => RoomManager.member_createSession hok).of_same
        ((same_send _ c _).trans (same_log _ _)) (by simp [emit])

theorem handleJoinSession_spec {cfg : SignalingServerConfig} (g : SignalingGateway F)
    (m : Moment) (c : ConnectionId) {envelope : SignalingEnvelope F}
    (htype : envelope.type = .JOIN_SESSION) :
    Same g (g.handleJoinSession cfg m c envelope).1 ∨
    ∃ s p, g.Registers cfg m envelope s p ∧
      Took c s p g (g.handleJoinSession cfg m c envelope).1 := by
  unfold handleJoinSession
  split
  · rename_i s p hs hp
    split
    · rename_i rooms err heq
      exact .inl (same_rooms fun _ _ h => (RoomManager.settles_joinSession_error heq).member h)
    · rename_i rooms session heq
      obtain ⟨room, hroom, hlive, hsize⟩ := RoomManager.joinSession_ok heq
      have hmem : ∀ s' p', rooms.Member s' p' ↔
          g.roomManager.Member s' p' ∨ (s' = s ∧ p' = p) :=
        fun _ _ => RoomManager.member_joinSession heq
      rw [hsize]
      split
      · refine .inl (same_rooms fun s' p' h => ?_)
        obtain ⟨hin, hother⟩ := RoomManager.member_leaveSession_iff.1 h
        obtain hold | ⟨rfl, rfl⟩ := (hmem s' p').1 hin
        · exact hold
        · exact absurd ⟨rfl, .inl rfl⟩ hother
      · rename_i hfits
        refine .inr ⟨s, p, .inr ⟨htype, claims_eq_some.2 ⟨hs, hp⟩,
          room, hroom, hlive, not_lt.1 hfits⟩, ?_⟩
        refine (took_bind c hmem).of_same ?_ (by simp [emit, broadcastPeerJoined])
        exact (same_send _ c _).trans ((same_broadcast _ s _ p).trans (same_log _ _))
  · exact .inl (.refl g)

theorem handleRelay_spec (g : SignalingGateway F) (m : Moment) (envelope : SignalingEnvelope F) :
    Same g (g.handleRelay m envelope).1 := by
  have hsettles := RoomManager.settles_relayWebRtc g.roomManager m.roomNow envelope
  unfold handleRelay
  split
  · rename_i heq
    rw [heq] at hsettles
    exact same_rooms fun _ _ h => hsettles.member h
  · rename_i heq
    rw [heq] at hsettles
    simp only
    split
    · exact same_rooms fun _ _ h => hsettles.member h
    · exact (same_rooms fun _ _ h => hsettles.member h).trans
        ((same_send _ _ _).trans (same_log _ _))

theorem left_handleLeave (g : SignalingGateway F) (m : Moment) (c : ConnectionId) (s : SessionId)
    (p : PeerId) : Left c s p g (g.handleLeave m c s p) := by
  unfold handleLeave leave broadcastPeerLeft
  simp only
  obtain ⟨l, hl, -⟩ := broadcast_eq
    ({ g with roomManager := (g.roomManager.leaveSession s p).1 } : SignalingGateway F) s
    ⟨"msg_" ++ m.broadcastUuid, .PEER_LEFT, some s, some p, none, m.now, .peer p none⟩ p
  rw [hl]
  exact ⟨fun d => identity_putConnection _ c d _, rfl, rfl, rfl⟩

theorem handleEnvelope_spec {cfg : SignalingServerConfig} (g : SignalingGateway F) (m : Moment)
    (c : ConnectionId) (envelope : SignalingEnvelope F) :
    Same g (g.handleEnvelope cfg m c envelope).1 ∨
    (∃ s p, g.Registers cfg m envelope s p ∧ Took c s p g (g.handleEnvelope cfg m c envelope).1) ∨
    ∃ s p, Releases envelope s p ∧ Left c s p g (g.handleEnvelope cfg m c envelope).1 := by
  unfold handleEnvelope
  split
  · rename_i htype hpayload
    obtain h | h := g.handleCreateSession_spec m c htype hpayload
    · exact .inl h
    · exact .inr (.inl h)
  · rename_i htype
    obtain h | h := g.handleJoinSession_spec m c htype
    · exact .inl h
    · exact .inr (.inl h)
  · exact .inl (g.handleRelay_spec m envelope)
  · exact .inl (g.handleRelay_spec m envelope)
  · exact .inl (g.handleRelay_spec m envelope)
  · rename_i htype
    split
    · rename_i s p hs hp
      exact .inr (.inr ⟨s, p, ⟨htype, claims_eq_some.2 ⟨hs, hp⟩⟩, left_handleLeave g m c s p⟩)
    · exact .inl (.refl g)
  · exact .inl (same_send g c _)

/-- A text is heard and answered; an identity is taken on or given up at most. -/
theorem handleText_spec {cfg : SignalingServerConfig} (g : SignalingGateway F) (m : Moment)
    (c : ConnectionId) (decoded : Except String (SignalingEnvelope F)) :
    Same g (g.handleText cfg m c decoded) ∨ ∃ envelope, decoded = .ok envelope ∧
      ((∃ s p, g.Registers cfg m envelope s p ∧ Took c s p g (g.handleText cfg m c decoded)) ∨
        ∃ s p, Releases envelope s p ∧ Left c s p g (g.handleText cfg m c decoded)) := by
  have hseen : Same g (g.putConnection c { g.connection c with lastSeenAt := m.now }) :=
    same_putConnection rfl rfl
  unfold handleText
  cases decoded with
  | error err => exact .inl (hseen.trans (same_send _ c _))
  | ok envelope =>
    simp only
    have hspec := @handleEnvelope_spec F cfg
      (g.putConnection c { g.connection c with lastSeenAt := m.now }) m c envelope
    split
    · rename_i after err heq
      rw [heq] at hspec
      have herr : Same after (after.sendError m c none none err "bad_request") := same_send _ c _
      obtain h | ⟨s, p, hr, h⟩ | ⟨s, p, hr, h⟩ := hspec
      · exact .inl (hseen.trans (h.trans herr))
      · exact .inr ⟨envelope, rfl, .inl ⟨s, p, hr, (h.before hseen rfl).of_same herr (by
          simp [sendError])⟩⟩
      · exact .inr ⟨envelope, rfl, .inr ⟨s, p, hr, (h.before hseen rfl).of_same herr (by
          simp [sendError])⟩⟩
    · rename_i after heq
      rw [heq] at hspec
      obtain h | ⟨s, p, hr, h⟩ | ⟨s, p, hr, h⟩ := hspec
      · exact .inl (hseen.trans h)
      · exact .inr ⟨envelope, rfl, .inl ⟨s, p, hr, h.before hseen rfl⟩⟩
      · exact .inr ⟨envelope, rfl, .inr ⟨s, p, hr, h.before hseen rfl⟩⟩

theorem went_detach (g : SignalingGateway F) (m : Moment) (c : ConnectionId) :
    Went c g (g.detach m c) := by
  unfold detach
  simp only
  have hsame : { g with peers := g.peers.filter (· ≠ c) }.binding c = g.binding c := rfl
  rw [hsame]
  cases hb : g.binding c with
  | none => exact ⟨fun _ => rfl, rfl, rfl, fun _ _ h => ⟨h, by simp [hb]⟩⟩
  | some identity =>
    obtain ⟨s, p⟩ := identity
    simp only [leave, broadcastPeerLeft]
    obtain ⟨l, hl, -⟩ := broadcast_eq
      ({ g with peers := g.peers.filter (· ≠ c)
                roomManager := (g.roomManager.leaveSession s p).1 } : SignalingGateway F) s
      ⟨"msg_" ++ m.broadcastUuid, .PEER_LEFT, some s, some p, none, m.now, .peer p none⟩ p
    rw [hl]
    refine ⟨fun _ => rfl, rfl, rfl, fun s' p' h => ?_⟩
    obtain ⟨hin, hother⟩ := RoomManager.member_leaveSession_iff.1 h
    refine ⟨hin, fun he => ?_⟩
    rw [hb] at he
    cases he
    exact hother ⟨rfl, .inl rfl⟩

theorem same_flag (g : SignalingGateway F) (c : ConnectionId) :
    Same g (g.putConnection c { g.connection c with closed := true }) :=
  same_putConnection rfl rfl

theorem binding_of_identity {g g' : SignalingGateway F} {c : ConnectionId}
    (h : g'.identity c = g.identity c) : g'.binding c = g.binding c :=
  binding_congr (congrArg Prod.fst h) (congrArg Prod.snd h)

theorem went_handleClose (g : SignalingGateway F) (m : Moment) {c : ConnectionId}
    (hopen : (g.connection c).closed = false) : Went c g (g.handleClose m c) := by
  unfold handleClose
  rw [if_neg (by simp [hopen])]
  exact (went_detach _ m c).before (same_flag g c) (binding_of_identity ((same_flag g c).identity c))

/-- A second detach of the same connection does not add to the first. -/
theorem Went.again {c : ConnectionId} {g g' g'' : SignalingGateway F} (h : Went c g g')
    (h' : Went c g' g'') : Went c g g'' := by
  refine ⟨fun d => (h'.identity d).trans (h.identity d), h'.bound.trans h.bound, ?_,
    fun s p hm => h.member s p (h'.member s p hm).1⟩
  rw [h'.peers, h.peers, List.filter_filter]
  simp

theorem went_drop (g : SignalingGateway F) (m : Moment) (c : ConnectionId) (code : Nat)
    (reason : String) : Went c g ((g.close m c code reason).detach m c) := by
  unfold close
  split
  · exact went_detach g m c
  · rename_i hopen
    have h := went_handleClose { g with log := g.log ++ [Effect.close c code reason] } m
      (c := c) (by simpa [connection] using hopen)
    have hclose : Went c g _ := h.before (same_log g _) rfl
    exact hclose.again (went_detach _ m c)

end SignalingGateway

end PonsWarp.Signaling
