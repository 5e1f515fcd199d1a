import PonsWarp.Signaling.Rooms

set_option autoImplicit false

/-!
How many rooms the gateway keeps, and how many peers it lets into one.
-/

namespace PonsWarp.Signaling

open PonsWarp.Data PonsWarp.Core

variable {F : Type}

namespace RoomManager

variable {m m' : RoomManager F} {now : Number} {s : SessionId} {p : PeerId}

theorem createSession_ok {files : List F} {ttl : Number} {session : RoomSnapshot F}
    (h : m.createSession now s p files ttl = .ok (m', session)) :
    m.rooms.get? s = none ∧ m' = ⟨m.rooms.set s ⟨s, p, files,
      OrderedMap.empty.set p ⟨p, .owner⟩, now, now + ttl⟩⟩ := by
  unfold createSession at h
  split at h
  · cases h
  · rename_i hnew
    cases h
    exact ⟨OrderedMap.has_eq_false_iff.1 (by simpa using hnew), rfl⟩

/-- What is in the rooms after a peer has joined. -/
theorem rooms_joinSession {session : RoomSnapshot F}
    (h : m.joinSession now s p = (m', .ok session)) :
    ∃ room, m.rooms.get? s = some room ∧ now < room.expiresAt ∧
      session = toRoomSnapshot { room with peers := room.peers.set p ⟨p, .receiver⟩ } ∧
      m' = ⟨m.rooms.set s { room with peers := room.peers.set p ⟨p, .receiver⟩ }⟩ := by
  unfold joinSession at h
  split at h
  · cases h
  · rename_i heq
    obtain ⟨rfl, hroom, hlive⟩ := getMutableLiveRoom_ok.1 heq
    cases h
    exact ⟨_, hroom, hlive, rfl, rfl⟩

/-- What the gateway does to the rooms on one message. A session is created only if the message
opens it. -/
inductive Turned (cfg : SignalingServerConfig) (now : Number) (opens : SessionId → PeerId → Prop)
    (m : RoomManager F) : RoomManager F → Prop
  | settled {m' : RoomManager F} (h : Settles now m m') : Turned cfg now opens m m'
  | created (s : SessionId) (owner : PeerId) (files : List F) (ttl : Number)
      (hopens : opens s owner) (hnew : m.rooms.get? s = none) :
      Turned cfg now opens m ⟨m.rooms.set s ⟨s, owner, files,
        OrderedMap.empty.set owner ⟨owner, .owner⟩, now, now + ttl⟩⟩
  | joined (s : SessionId) (p : PeerId) (room : MutableRoomRecord F)
      (hroom : m.rooms.get? s = some room) (hlive : now < room.expiresAt)
      (hfits : ((room.peers.set p ⟨p, .receiver⟩).size : Number) ≤ cfg.maxPeersPerSession) :
      Turned cfg now opens m ⟨m.rooms.set s { room with peers := room.peers.set p ⟨p, .receiver⟩ }⟩
  | refused (s : SessionId) (p : PeerId) (room : MutableRoomRecord F)
      (hroom : m.rooms.get? s = some room)
      (hfull : cfg.maxPeersPerSession < ((room.peers.set p ⟨p, .receiver⟩).size : Number)) :
      Turned cfg now opens m (leaveSession
        ⟨m.rooms.set s { room with peers := room.peers.set p ⟨p, .receiver⟩ }⟩ s p).1
  | left (s : SessionId) (p : PeerId) : Turned cfg now opens m (m.leaveSession s p).1

/-- The rooms are as before, except that some may be gone. -/
def Shrinks (m m' : RoomManager F) : Prop :=
  ∀ s room, m'.rooms.get? s = some room → m.rooms.get? s = some room

end RoomManager

/-- The owner is in its room, with nobody else if that were too many, and peers are listed under
their own ids. -/
structure MutableRoomRecord.Sound (cfg : SignalingServerConfig) (room : MutableRoomRecord F) :
    Prop where
  owner : room.peers.has room.ownerPeerId = true
  size : (room.peers.size : Number) ≤ max 1 cfg.maxPeersPerSession
  named : ∀ p x, room.peers.get? p = some x → x.peerId = p

namespace RoomManager

variable {m m' : RoomManager F} {now : Number} {s : SessionId} {p : PeerId}
  {cfg : SignalingServerConfig} {opens : SessionId → PeerId → Prop}

def Fits (cfg : SignalingServerConfig) (m : RoomManager F) : Prop :=
  ∀ s room, m.rooms.get? s = some room → room.Sound cfg

theorem Fits.owned (hf : m.Fits cfg) : m.Owned := fun s room hroom => (hf s room hroom).owner

theorem Shrinks.has (h : Shrinks m m') (hs : m'.rooms.has s = true) : m.rooms.has s = true := by
  obtain ⟨room, hroom⟩ := OrderedMap.has_iff.1 hs
  exact OrderedMap.has_iff.2 ⟨room, h s room hroom⟩

theorem Shrinks.fits (h : Shrinks m m') (hf : m.Fits cfg) : m'.Fits cfg :=
  fun s room hroom => hf s room (h s room hroom)

/-- A room that is there after a peer has left was there before. -/
theorem room_leaveSession {s' : SessionId} {room' : MutableRoomRecord F}
    (h : (m.leaveSession s p).1.rooms.get? s' = some room') :
    ∃ room, m.rooms.get? s' = some room ∧ ((s' ≠ s ∧ room' = room) ∨
      (s' = s ∧ p ≠ room.ownerPeerId ∧ room' = { room with peers := room.peers.delete p })) := by
  by_cases hs : s' = s
  · subst hs
    cases hold : m.rooms.get? s' with
    | none =>
      simp only [leaveSession, hold] at h
      cases h
    | some old =>
      rw [leaveSession_room hold] at h
      split at h
      · cases h
      · rename_i hstays
        cases h
        exact ⟨old, rfl, .inr ⟨rfl, fun he => hstays (.inl he), rfl⟩⟩
  · rw [leaveSession_of_ne m p hs] at h
    exact ⟨room', h, .inl ⟨hs, rfl⟩⟩

theorem Fits.leaveSession (hf : m.Fits cfg) (s : SessionId) (p : PeerId) :
    (m.leaveSession s p).1.Fits cfg := by
  intro s' room' hroom'
  obtain ⟨room, hroom, ⟨-, rfl⟩ | ⟨-, hne, rfl⟩⟩ := room_leaveSession hroom'
  · exact hf s' room' hroom
  · obtain ⟨howner, hsize, hnamed⟩ := hf s' room hroom
    obtain ⟨x, hx⟩ := OrderedMap.has_iff.1 howner
    have hless : (room.peers.delete p).size ≤ room.peers.size := by
      refine OrderedMap.size_le_of_has fun k hk => ?_
      obtain ⟨y, hy⟩ := OrderedMap.has_iff.1 hk
      exact OrderedMap.has_iff.2 ⟨y, (OrderedMap.get?_delete_eq_some.1 hy).2⟩
    refine ⟨OrderedMap.has_iff.2 ⟨x, ?_⟩, ?_, fun q y hy => ?_⟩
    · exact OrderedMap.get?_delete_eq_some.2 ⟨hne.symm, hx⟩
    · exact ((Nat.cast_le (α := Number)).2 hless).trans hsize
    · exact hnamed q y (OrderedMap.get?_delete_eq_some.1 hy).2

theorem has_leaveSession {s' : SessionId}
    (h : (m.leaveSession s p).1.rooms.has s' = true) : m.rooms.has s' = true := by
  obtain ⟨room', hroom'⟩ := OrderedMap.has_iff.1 h
  obtain ⟨room, hroom, -⟩ := room_leaveSession hroom'
  exact OrderedMap.has_iff.2 ⟨room, hroom⟩

/-- A new peer that is let in and sent away at once leaves no trace. -/
theorem leaveSession_joined (ho : m.Owned) {room : MutableRoomRecord F}
    (hroom : m.rooms.get? s = some room) (hnew : room.peers.has p = false) :
    (leaveSession ⟨m.rooms.set s { room with peers := room.peers.set p ⟨p, .receiver⟩ }⟩ s p).1 =
      m := by
  have howner := ho s room hroom
  have hne : p ≠ room.ownerPeerId := by
    intro he
    rw [← he, hnew] at howner
    cases howner
  have hback : (room.peers.set p ⟨p, .receiver⟩).delete p = room.peers :=
    OrderedMap.delete_set (OrderedMap.has_eq_false_iff.1 hnew)
  have hsize : room.peers.size ≠ 0 := by
    have hdelete := size_delete_ne_zero howner hne
    rwa [OrderedMap.delete_of_get? (OrderedMap.has_eq_false_iff.1 hnew)] at hdelete
  unfold leaveSession
  simp only [OrderedMap.get?_set_self, hback, hne, hsize, or_self, if_false, OrderedMap.set_set,
    OrderedMap.set_of_get? hroom]

theorem size_set_of_has {peers : OrderedMap PeerId PeerSummary} {x : PeerSummary}
    (h : peers.has p = true) : (peers.set p x).size ≤ peers.size := by
  refine OrderedMap.size_le_of_has fun k hk => ?_
  simp only [OrderedMap.has, OrderedMap.get?_set] at hk
  split at hk
  · rename_i he
    rw [he]
    exact h
  · exact hk

/-- A peer of the room that finds it too large is its owner, alone in it. -/
theorem owner_of_refused (hf : m.Fits cfg) {room : MutableRoomRecord F}
    (hroom : m.rooms.get? s = some room) (hin : room.peers.has p = true)
    (hfull : cfg.maxPeersPerSession < ((room.peers.set p ⟨p, .receiver⟩).size : Number)) :
    cfg.maxPeersPerSession < 1 ∧ p = room.ownerPeerId := by
  have hsame := (Nat.cast_le (α := Number)).2 (size_set_of_has (x := ⟨p, .receiver⟩) hin)
  have hmax := (hf s room hroom).size
  have hlow : cfg.maxPeersPerSession < 1 := by
    by_contra hhigh
    rw [max_eq_right (not_lt.1 hhigh)] at hmax
    exact absurd (hfull.trans_le (hsame.trans hmax)) (lt_irrefl _)
  refine ⟨hlow, ?_⟩
  rw [max_eq_left hlow.le] at hmax
  by_contra hne
  -- the owner and the peer would be two
  have hothers := size_delete_ne_zero (hf.owned s room hroom) hne
  obtain ⟨x, hx⟩ := OrderedMap.has_iff.1 hin
  have hsize : room.peers.size = (room.peers.delete p).size + 1 := by
    simpa [OrderedMap.values, OrderedMap.size] using (OrderedMap.values_delete_perm hx).length_eq
  have hone : room.peers.size ≤ 1 := by exact_mod_cast hmax
  omega

/-- A refusal takes nobody out of a room that stays. -/
theorem shrinks_refused (hf : m.Fits cfg) {room : MutableRoomRecord F}
    (hroom : m.rooms.get? s = some room)
    (hfull : cfg.maxPeersPerSession < ((room.peers.set p ⟨p, .receiver⟩).size : Number)) :
    Shrinks m (leaveSession
      ⟨m.rooms.set s { room with peers := room.peers.set p ⟨p, .receiver⟩ }⟩ s p).1 := by
  cases hin : room.peers.has p with
  | false =>
    rw [leaveSession_joined hf.owned hroom hin]
    exact fun _ _ h => h
  | true =>
    obtain ⟨-, hp⟩ := owner_of_refused hf hroom hin hfull
    intro s' found hfound
    by_cases hs : s' = s
    · subst hs
      have hgone : (⟨m.rooms.set s' { room with peers := room.peers.set p ⟨p, .receiver⟩ }⟩ :
          RoomManager F).rooms.get? s' = some { room with peers := room.peers.set p ⟨p, .receiver⟩ } :=
        OrderedMap.get?_set_self _ _ _
      rw [leaveSession_room hgone, if_pos (.inl hp)] at hfound
      cases hfound
    · rw [leaveSession_of_ne _ p hs, OrderedMap.get?_set_of_ne _ _ hs] at hfound
      exact hfound

theorem Turned.fits (h : Turned cfg now opens m m') (hf : m.Fits cfg) : m'.Fits cfg := by
  cases h with
  | settled h => exact Shrinks.fits h.1 hf
  | created s owner files ttl hopens hnew =>
    intro s' room hroom
    simp only [OrderedMap.get?_set] at hroom
    split at hroom
    · cases hroom
      refine ⟨by simp [OrderedMap.has],
        by simp [OrderedMap.size, OrderedMap.set, OrderedMap.empty, assign], fun q x hx => ?_⟩
      simp only [OrderedMap.get?_set] at hx
      split at hx
      · rename_i hq
        cases hx
        exact hq.symm
      · cases hx
    · exact hf s' room hroom
  | joined s p room hroom hlive hfits =>
    intro s' room' hroom'
    simp only [OrderedMap.get?_set] at hroom'
    split at hroom'
    · cases hroom'
      obtain ⟨howner, -, hnamed⟩ := hf s room hroom
      refine ⟨?_, hfits.trans (le_max_right _ _), fun q x hx => ?_⟩
      · simp only [OrderedMap.has, OrderedMap.get?_set] at howner ⊢
        split
        · rfl
        · exact howner
      · simp only [OrderedMap.get?_set] at hx
        split at hx
        · rename_i hq
          cases hx
          exact hq.symm
        · exact hnamed q x hx
    · exact hf s' room' hroom'
  | refused s p room hroom hfull => exact (shrinks_refused hf hroom hfull).fits hf
  | left s p => exact hf.leaveSession s p

theorem Turned.size_le (h : Turned cfg now opens m m') (hf : m.Fits cfg)
    (hopen : ∀ s p, opens s p → (m.rooms.size : Number) + 1 ≤ cfg.maxSessions)
    (hmax : (m.rooms.size : Number) ≤ cfg.maxSessions) :
    (m'.rooms.size : Number) ≤ cfg.maxSessions := by
  have hless : m'.rooms.size ≤ m.rooms.size → (m'.rooms.size : Number) ≤ cfg.maxSessions := by
    intro hle
    have hle' : (m'.rooms.size : Number) ≤ m.rooms.size := by exact_mod_cast hle
    exact hle'.trans hmax
  cases h with
  | settled h => exact hless (OrderedMap.size_le_of_has fun _ hs => Shrinks.has h.1 hs)
  | created s owner files ttl hopens hnew =>
    have hone := OrderedMap.size_set_le m.rooms s ⟨s, owner, files,
      OrderedMap.empty.set owner ⟨owner, .owner⟩, now, now + ttl⟩
    have hone' := (Nat.cast_le (α := Number)).2 hone
    push_cast at hone'
    exact hone'.trans (hopen s owner hopens)
  | joined s p room hroom hlive hfits =>
    refine hless (OrderedMap.size_le_of_has fun s' hs => ?_)
    simp only [OrderedMap.has, OrderedMap.get?_set] at hs ⊢
    split at hs
    · rename_i he
      rw [he, hroom]
      rfl
    · exact hs
  | refused s p room hroom hfull =>
    exact hless (OrderedMap.size_le_of_has fun _ hs => (shrinks_refused hf hroom hfull).has hs)
  | left s p => exact hless (OrderedMap.size_le_of_has fun _ hs => has_leaveSession hs)

end RoomManager

namespace SignalingGateway

open RoomManager

variable {cfg : SignalingServerConfig}

/-- The envelope opens a session that is not there yet. -/
def Opens (cfg : SignalingServerConfig) (g : SignalingGateway F) (m : Moment)
    (envelope : SignalingEnvelope F) (s : SessionId) (p : PeerId) : Prop :=
  envelope.type = .CREATE_SESSION ∧ g.Registers cfg m envelope s p

theorem turned_handleCreateSession (g : SignalingGateway F) (m : Moment) (c : ConnectionId)
    {envelope : SignalingEnvelope F} {p : PeerId} {files : List F}
    (htype : envelope.type = .CREATE_SESSION) (hpayload : envelope.payload = .create p files) :
    Turned cfg m.roomNow (g.Opens cfg m envelope) g.roomManager
      (g.handleCreateSession cfg m c envelope p files).1.roomManager := by
  unfold handleCreateSession
  simp only
  split
  · exact .settled (.refl _)
  · rename_i rooms session hok
    obtain ⟨hnew, rfl⟩ := createSession_ok hok
    have hopens : g.Opens cfg m envelope (envelope.sessionId.getD ("sess_" ++ m.sessionUuid)) p :=
      ⟨htype, .inl ⟨htype, ⟨files, hpayload⟩, rfl, OrderedMap.has_eq_false_iff.2 hnew⟩⟩
    have hturned : Turned cfg m.roomNow (g.Opens cfg m envelope) g.roomManager _ :=
      .created _ p files cfg.sessionTtlMs hopens hnew
    simpa [emit, SignalingGateway.bind, putConnection] using hturned

theorem turned_handleJoinSession (g : SignalingGateway F) (m : Moment) (c : ConnectionId)
    (envelope : SignalingEnvelope F) :
    Turned cfg m.roomNow (g.Opens cfg m envelope) g.roomManager
      (g.handleJoinSession cfg m c envelope).1.roomManager := by
  unfold handleJoinSession
  split
  · rename_i s p hs hp
    split
    · rename_i rooms err heq
      exact .settled (settles_joinSession_error heq)
    · rename_i rooms session heq
      obtain ⟨room, hroom, hlive, rfl, rfl⟩ := rooms_joinSession heq
      have hsize : ((toRoomSnapshot
          { room with peers := room.peers.set p ⟨p, .receiver⟩ }).peers.length : Number) =
          (room.peers.set p ⟨p, .receiver⟩).size := by
        simp [toRoomSnapshot, OrderedMap.values, OrderedMap.size]
      rw [hsize]
      split
      · rename_i hfull
        exact .refused s p room hroom hfull
      · rename_i hfits
        have hturned : Turned cfg m.roomNow (g.Opens cfg m envelope) g.roomManager _ :=
          .joined s p room hroom hlive (not_lt.1 hfits)
        simpa [emit, broadcastPeerJoined, SignalingGateway.bind, putConnection] using hturned
  · exact .settled (.refl _)

theorem turned_handleEnvelope (g : SignalingGateway F) (m : Moment) (c : ConnectionId)
    (envelope : SignalingEnvelope F) :
    Turned cfg m.roomNow (g.Opens cfg m envelope) g.roomManager
      (g.handleEnvelope cfg m c envelope).1.roomManager := by
  have hrelay : Turned cfg m.roomNow (g.Opens cfg m envelope) g.roomManager
      (g.handleRelay m envelope).1.roomManager := by
    have hsettles := settles_relayWebRtc g.roomManager m.roomNow envelope
    unfold handleRelay
    split
    · rename_i heq
      rw [heq] at hsettles
      exact .settled hsettles
    · rename_i heq
      rw [heq] at hsettles
      simp only
      split
      · exact .settled hsettles
      · simpa [emit] using .settled hsettles
  unfold handleEnvelope
  split
  · rename_i htype hpayload
    exact g.turned_handleCreateSession m c htype hpayload
  · exact g.turned_handleJoinSession m c envelope
  · exact hrelay
  · exact hrelay
  · exact hrelay
  · split
    · rename_i s p hs hp
      have hleft := (left_handleLeave g m c s p).rooms
      rw [hleft]
      exact .left s p
    · exact .settled (.refl _)
  · simpa [sendError] using Turned.settled (.refl _)

/-- The gateway has heard from the connection. -/
def heard (g : SignalingGateway F) (m : Moment) (c : ConnectionId) : SignalingGateway F :=
  g.putConnection c { g.connection c with lastSeenAt := m.now }

theorem turned_handleText (g : SignalingGateway F) (m : Moment) (c : ConnectionId)
    (envelope : SignalingEnvelope F) :
    Turned cfg m.roomNow (g.Opens cfg m envelope) g.roomManager
      (g.handleText cfg m c (.ok envelope)).roomManager := by
  have hturned : Turned cfg m.roomNow (g.Opens cfg m envelope) g.roomManager
      ((g.heard m c).handleEnvelope cfg m c envelope).1.roomManager :=
    turned_handleEnvelope (g.heard m c) m c envelope
  unfold handleText
  simp only
  split
  · rename_i after err heq
    rw [heard, heq] at hturned
    simpa [sendError] using hturned
  · rename_i after heq
    rw [heard, heq] at hturned
    exact hturned

/-- The message asks for more peers in a room than there may be. -/
def RefusesPeer (cfg : SignalingServerConfig) (g : SignalingGateway F) (m : Moment)
    (c : ConnectionId) (envelope : SignalingEnvelope F) : Prop :=
  ((g.heard m c).handleEnvelope cfg m c envelope).2 = .error "Session peer limit exceeded"

theorem append_ne {a s t : String} (h : ¬ a.toList <+: t.toList) : a ++ s ≠ t := by
  rintro rfl
  exact h ⟨s.toList, by simp⟩

theorem getMutableLiveRoom_error {rooms : RoomManager F} {now : Number} {s : SessionId}
    {err : String} (h : (rooms.getMutableLiveRoom now s).2 = .error err) :
    err ≠ "Session peer limit exceeded" := by
  unfold getMutableLiveRoom at h
  split at h
  · cases h
    exact append_ne (by decide)
  · split at h
    · cases h
      exact append_ne (by decide)
    · cases h

theorem joinSession_error {rooms : RoomManager F} {now : Number} {s : SessionId} {p : PeerId}
    {err : String} (h : (rooms.joinSession now s p).2 = .error err) :
    err ≠ "Session peer limit exceeded" := by
  unfold joinSession at h
  split at h
  · rename_i heq
    cases h
    exact getMutableLiveRoom_error (congrArg Prod.snd heq)
  · cases h

theorem relayWebRtc_error {rooms : RoomManager F} {now : Number} {envelope : SignalingEnvelope F}
    {err : String} (h : (rooms.relayWebRtc now envelope).2 = .error err) :
    err ≠ "Session peer limit exceeded" := by
  unfold relayWebRtc at h
  split at h
  · split at h
    · cases h
      exact append_ne (by decide)
    · split at h
      · rename_i heq
        cases h
        exact getMutableLiveRoom_error (congrArg Prod.snd heq)
      · split at h
        · cases h
          exact append_ne (by decide)
        · split at h
          · cases h
            exact append_ne (by decide)
          · cases h
  · cases h
    decide

theorem handleCreateSession_error {g : SignalingGateway F} {m : Moment} {c : ConnectionId}
    {envelope : SignalingEnvelope F} {p : PeerId} {files : List F} {err : String}
    (h : (g.handleCreateSession cfg m c envelope p files).2 = .error err) :
    err ≠ "Session peer limit exceeded" := by
  unfold handleCreateSession createSession at h
  simp only at h
  split at h
  · rename_i heq
    split at heq
    · cases heq
      cases h
      exact append_ne (by decide)
    · cases heq
  · cases h

theorem handleRelay_error {g : SignalingGateway F} {m : Moment} {envelope : SignalingEnvelope F}
    {err : String} (h : (g.handleRelay m envelope).2 = .error err) :
    err ≠ "Session peer limit exceeded" := by
  unfold handleRelay at h
  split at h
  · rename_i heq
    cases h
    exact relayWebRtc_error (congrArg Prod.snd heq)
  · simp only at h
    split at h
    · cases h
      exact append_ne (by decide)
    · cases h

/-- A peer that is refused for want of space leaves the gateway as it was. -/
theorem handleJoinSession_refused {g : SignalingGateway F} {m : Moment} {c : ConnectionId}
    {envelope : SignalingEnvelope F} (hpeers : 1 ≤ cfg.maxPeersPerSession)
    (hf : g.roomManager.Fits cfg)
    (h : (g.handleJoinSession cfg m c envelope).2 = .error "Session peer limit exceeded") :
    (g.handleJoinSession cfg m c envelope).1 = g := by
  unfold handleJoinSession at h ⊢
  split
  · rename_i s p hs hp
    simp only [hs, hp] at h
    split
    · rename_i rooms err heq
      rw [heq] at h
      cases h
      exact absurd rfl (joinSession_error (congrArg Prod.snd heq))
    · rename_i rooms session heq
      rw [heq] at h
      obtain ⟨room, hroom, hlive, rfl, rfl⟩ := rooms_joinSession heq
      split
      · rename_i hfull
        have hsize : (toRoomSnapshot
            { room with peers := room.peers.set p ⟨p, .receiver⟩ }).peers.length =
            (room.peers.set p ⟨p, .receiver⟩).size := by
          simp [toRoomSnapshot, OrderedMap.values, OrderedMap.size]
        rw [hsize] at hfull
        have hnew : room.peers.has p = false := by
          by_contra hin
          obtain ⟨hlow, -⟩ := owner_of_refused hf hroom (by simpa using hin) hfull
          exact absurd hpeers (not_le.2 hlow)
        simp only [leaveSession_joined hf.owned hroom hnew]
      · rename_i hfits
        simp only [if_neg hfits] at h
        cases h
  · rfl

theorem handleEnvelope_refused {g : SignalingGateway F} {m : Moment} {c : ConnectionId}
    {envelope : SignalingEnvelope F} (hpeers : 1 ≤ cfg.maxPeersPerSession)
    (hf : g.roomManager.Fits cfg)
    (h : (g.handleEnvelope cfg m c envelope).2 = .error "Session peer limit exceeded") :
    (g.handleEnvelope cfg m c envelope).1 = g := by
  generalize hout : g.handleEnvelope cfg m c envelope = out at h ⊢
  unfold handleEnvelope at hout
  split at hout
  · subst hout
    exact absurd rfl (handleCreateSession_error h)
  · subst hout
    exact handleJoinSession_refused hpeers hf h
  · subst hout
    exact absurd rfl (handleRelay_error h)
  · subst hout
    exact absurd rfl (handleRelay_error h)
  · subst hout
    exact absurd rfl (handleRelay_error h)
  · split at hout <;> subst hout <;> cases h
  · subst hout
    cases h

/-- The rooms are within the limits, and a message refused for one changes neither the rooms nor
whom a connection stands for. -/
structure Capped (cfg : SignalingServerConfig) (g : SignalingGateway F) : Prop where
  sessions : (g.roomManager.rooms.size : Number) ≤ cfg.maxSessions
  peers : ∀ s room, g.roomManager.rooms.get? s = some room →
    (room.peers.size : Number) ≤ cfg.maxPeersPerSession
  refused : ∀ m c envelope, g.RefusesPeer cfg m c envelope →
    (g.step cfg (m, .text c (.ok envelope))).roomManager = g.roomManager ∧
      ∀ d, (g.step cfg (m, .text c (.ok envelope))).identity d = g.identity d

/-- A session is opened only while there are fewer than there may be. -/
def Spare (cfg : SignalingServerConfig) (g : SignalingGateway F) : Moment × Action F → Prop
  | (m, .text _ (.ok envelope)) => ∀ s p, g.Opens cfg m envelope s p →
      (g.roomManager.rooms.size : Number) + 1 ≤ cfg.maxSessions
  | _ => True

/-- What every run keeps. -/
structure Roomy (cfg : SignalingServerConfig) (m : RoomManager F) : Prop where
  fits : m.Fits cfg
  sessions : (m.rooms.size : Number) ≤ cfg.maxSessions

theorem Roomy.settles {rooms rooms' : RoomManager F} {now : Number} (h : Settles now rooms rooms')
    (hr : Roomy cfg rooms) : Roomy cfg rooms' := by
  have hturned : Turned cfg now (fun _ _ => False) rooms rooms' := .settled h
  exact ⟨Shrinks.fits h.1 hr.fits, hturned.size_le hr.fits (fun _ _ hno => hno.elim) hr.sessions⟩

theorem Roomy.leaveSession {rooms : RoomManager F} (hr : Roomy cfg rooms) (s : SessionId)
    (p : PeerId) : Roomy cfg (rooms.leaveSession s p).1 := by
  have hturned : Turned cfg 0 (fun _ _ => False) rooms (rooms.leaveSession s p).1 := .left s p
  exact ⟨hr.fits.leaveSession s p,
    hturned.size_le hr.fits (fun _ _ hno => hno.elim) hr.sessions⟩

section

variable {P : RoomManager F → Prop} (hleave : ∀ rooms s p, P rooms → P (rooms.leaveSession s p).1)

include hleave

theorem rooms_detach {g : SignalingGateway F} (m : Moment) (c : ConnectionId)
    (h : P g.roomManager) : P (g.detach m c).roomManager := by
  unfold detach
  simp only
  split
  · simpa [emit, leave, broadcastPeerLeft] using hleave _ _ _ h
  · exact h

theorem rooms_handleClose {g : SignalingGateway F} (m : Moment) (c : ConnectionId)
    (h : P g.roomManager) : P (g.handleClose m c).roomManager := by
  unfold handleClose
  split
  · exact h
  · exact rooms_detach hleave m c h

/-- What survives every leave survives the drop of stale connections. -/
theorem rooms_dropStale {g : SignalingGateway F} {m : Moment} {cutoff : Number}
    {l : List ConnectionId} {n : Nat} (h : P g.roomManager) :
    P (dropStale m cutoff l n g).1.roomManager := by
  induction l generalizing n g with
  | nil => exact h
  | cons c rest ih =>
    unfold dropStale
    split
    · refine ih (rooms_detach hleave m c ?_)
      unfold close
      split
      · exact h
      · exact rooms_handleClose hleave m c h
    · exact ih h

end

theorem fits_step {g : SignalingGateway F} (a : Moment × Action F) (hf : g.roomManager.Fits cfg) :
    (g.step cfg a).roomManager.Fits cfg := by
  obtain ⟨m, a⟩ := a
  cases a with
  | attach c => exact hf
  | text c decoded =>
    cases decoded with
    | error err => simpa [SignalingGateway.step, handleText, sendError, putConnection] using hf
    | ok envelope =>
      have hturned : Turned cfg m.roomNow (g.Opens cfg m envelope) g.roomManager _ :=
        g.turned_handleText m c envelope
      exact hturned.fits hf
  | closed c => exact rooms_handleClose (fun _ s p h => h.leaveSession s p) m c hf
  | cleanup =>
    have hdropped : (dropStale m (m.now - cfg.stalePeerTimeoutMs) g.peers 0 g).1.roomManager.Fits
        cfg := rooms_dropStale (fun _ s p h => h.leaveSession s p) hf
    exact Shrinks.fits (settles_cleanupExpired _ m.roomNow).1 hdropped

theorem Roomy.step {g : SignalingGateway F} {a : Moment × Action F}
    (hr : Roomy cfg g.roomManager) (ha : g.Spare cfg a) :
    Roomy cfg (g.step cfg a).roomManager := by
  refine ⟨fits_step a hr.fits, ?_⟩
  obtain ⟨m, a⟩ := a
  have hleave : ∀ (rooms : RoomManager F) s p, Roomy cfg rooms →
      Roomy cfg (rooms.leaveSession s p).1 := fun _ s p h => h.leaveSession s p
  cases a with
  | attach c => exact hr.sessions
  | text c decoded =>
    cases decoded with
    | error err =>
      simpa [SignalingGateway.step, handleText, sendError, putConnection] using hr.sessions
    | ok envelope =>
      have hturned : Turned cfg m.roomNow (g.Opens cfg m envelope) g.roomManager _ :=
        g.turned_handleText m c envelope
      exact hturned.size_le hr.fits ha hr.sessions
  | closed c => exact (rooms_handleClose hleave m c hr).sessions
  | cleanup =>
    have hdropped : Roomy cfg
        (dropStale m (m.now - cfg.stalePeerTimeoutMs) g.peers 0 g).1.roomManager :=
      rooms_dropStale hleave hr
    exact (hdropped.settles (settles_cleanupExpired _ m.roomNow)).sessions

theorem Roomy.capped {g : SignalingGateway F} (hpeers : 1 ≤ cfg.maxPeersPerSession)
    (hr : Roomy cfg g.roomManager) : g.Capped cfg := by
  refine ⟨hr.sessions, fun s room hroom => ?_, fun m c envelope h => ?_⟩
  · have hmax := (hr.fits s room hroom).size
    rwa [max_eq_right hpeers] at hmax
  have hfits : (g.heard m c).roomManager.Fits cfg := hr.fits
  have hsame := handleEnvelope_refused hpeers hfits h
  have hout : (g.heard m c).handleEnvelope cfg m c envelope =
      (g.heard m c, .error "Session peer limit exceeded") := Prod.ext hsame h
  have hstep : g.step cfg (m, .text c (.ok envelope)) =
      (g.heard m c).sendError m c none none "Session peer limit exceeded" "bad_request" := by
    simp only [SignalingGateway.step, handleText]
    rw [heard] at hout ⊢
    rw [hout]
  have hheard : Same g (g.heard m c) := same_putConnection rfl rfl
  rw [hstep]
  exact ⟨by simp [sendError, heard, putConnection], (hheard.trans (same_send _ c _)).identity⟩

end SignalingGateway

open SignalingGateway

/-- As long as no session is opened when all are taken, every run stays within both limits. -/
theorem capacity_holds {cfg : SignalingServerConfig} {g : SignalingGateway F}
    (hpeers : 1 ≤ cfg.maxPeersPerSession) (hsessions : 0 ≤ cfg.maxSessions)
    (hrun : Run (SignalingGateway.step cfg) (Spare cfg) .new g) : g.Capped cfg := by
  have hroomy : Roomy cfg g.roomManager := by
    refine hrun.invariant (P := fun g => Roomy cfg g.roomManager)
      (fun _ _ hr ha => hr.step ha) ⟨?_, ?_⟩
    · intro s room hroom
      cases hroom
    · simpa [SignalingGateway.new, OrderedMap.empty, OrderedMap.size] using hsessions
  exact hroomy.capped hpeers

namespace Sample

/-- One session at a time. -/
def single : SignalingServerConfig := { config with maxSessions := 1 }

/-- Two connections open a session each. -/
def opened : List (Moment × Action Unit) :=
  [.attach 0, .text 0 (.ok ⟨"m", .CREATE_SESSION, some "s", none, none, 10, .create "o" []⟩),
    .attach 1, .text 1 (.ok ⟨"m", .CREATE_SESSION, some "t", none, none, 10, .create "p" []⟩)].map
    (moment, ·)

end Sample

theorem capacity_holds_sample :
    (steps (SignalingGateway.step Sample.config) .new Sample.opened).Capped Sample.config := by
  refine capacity_holds (by decide +kernel) (by decide +kernel) (run_of_allowed
    ⟨trivial, fun s p _ => ?_, trivial, fun s p _ => ?_, trivial⟩)
  · decide +kernel
  · decide +kernel

/-- A second session is opened where there may be one. -/
theorem sessions_exceed_limit :
    ∃ g : SignalingGateway Unit, Run (SignalingGateway.step Sample.single) (fun _ _ => True) .new g ∧
      ¬ g.Capped Sample.single := by
  refine ⟨_, run_steps SignalingGateway.new Sample.opened, fun h => ?_⟩
  have hsize : (steps (SignalingGateway.step Sample.single) .new
      Sample.opened).roomManager.rooms.size = 2 := by decide +kernel
  have hmax := h.sessions
  rw [hsize] at hmax
  revert hmax
  decide +kernel

end PonsWarp.Signaling
