import PonsWarp.Core.Manifest
import PonsWarp.Data.OrderedMap

set_option autoImplicit false

/-!
`RoomManager`: the rooms of the signaling server, the peers in them, and the
check that lets a WebRTC envelope be relayed. `F` is what a file is described by.
-/

namespace PonsWarp.Signaling

open PonsWarp.Data PonsWarp.Core

inductive SignalingMessageType where
  | CREATE_SESSION | SESSION_CREATED | JOIN_SESSION | SESSION_JOINED | PEER_JOINED | PEER_LEFT
  | WEBRTC_OFFER | WEBRTC_ANSWER | ICE_CANDIDATE | ERROR
  deriving DecidableEq, Repr

def SignalingMessageType.name : SignalingMessageType → String
  | .CREATE_SESSION => "CREATE_SESSION"
  | .SESSION_CREATED => "SESSION_CREATED"
  | .JOIN_SESSION => "JOIN_SESSION"
  | .SESSION_JOINED => "SESSION_JOINED"
  | .PEER_JOINED => "PEER_JOINED"
  | .PEER_LEFT => "PEER_LEFT"
  | .WEBRTC_OFFER => "WEBRTC_OFFER"
  | .WEBRTC_ANSWER => "WEBRTC_ANSWER"
  | .ICE_CANDIDATE => "ICE_CANDIDATE"
  | .ERROR => "ERROR"

inductive Role where
  | owner | receiver
  deriving DecidableEq, Repr

structure PeerSummary where
  peerId : PeerId
  role : Role
  deriving DecidableEq, Repr

structure MutableRoomRecord (F : Type) where
  sessionId : SessionId
  ownerPeerId : PeerId
  files : List F
  peers : OrderedMap PeerId PeerSummary
  createdAt : Number
  expiresAt : Number

structure RoomSnapshot (F : Type) where
  sessionId : SessionId
  ownerPeerId : PeerId
  files : List F
  peers : List PeerSummary
  createdAt : Number
  expiresAt : Number
  deriving DecidableEq

/-- The payloads the server reads or makes. `other` is one it only passes on. -/
inductive Payload (F : Type) where
  | create (ownerPeerId : PeerId) (files : List F)
  | created (ownerPeerId : PeerId) (expiresAt : Number) (shareUrl : String)
  | joined (selfPeerId ownerPeerId : PeerId) (peers : List PeerSummary) (files : List F)
  | peer (peerId : PeerId) (role : Option Role)
  | error (code message : String)
  | other (json : String)
  deriving DecidableEq

structure SignalingEnvelope (F : Type) where
  messageId : String
  type : SignalingMessageType
  sessionId : Option SessionId
  fromPeerId : Option PeerId
  toPeerId : Option PeerId
  timestamp : Number
  payload : Payload F
  deriving DecidableEq

structure RelayResult (F : Type) where
  sessionId : SessionId
  fromPeerId : PeerId
  toPeerId : PeerId
  envelope : SignalingEnvelope F

/-- A string field that is there and not empty, as a condition reads it. -/
def truthy (field : Option String) : Option String := field.filter (· ≠ "")

variable {F : Type}

def toRoomSnapshot (record : MutableRoomRecord F) : RoomSnapshot F :=
  ⟨record.sessionId, record.ownerPeerId, record.files, record.peers.values, record.createdAt,
    record.expiresAt⟩

structure RoomManager (F : Type) where
  rooms : OrderedMap SessionId (MutableRoomRecord F)

namespace RoomManager

def createSession (m : RoomManager F) (now : Number) (sessionId : SessionId)
    (ownerPeerId : PeerId) (files : List F) (ttlMs : Number) :
    Except String (RoomManager F × RoomSnapshot F) :=
  if m.rooms.has sessionId then .error ("Session already exists: " ++ sessionId)
  else
    let record : MutableRoomRecord F := ⟨sessionId, ownerPeerId, files,
      OrderedMap.empty.set ownerPeerId ⟨ownerPeerId, .owner⟩, now, now + ttlMs⟩
    .ok (⟨m.rooms.set sessionId record⟩, toRoomSnapshot record)

/-- An expired room is deleted when it is looked up. -/
def getMutableLiveRoom (m : RoomManager F) (now : Number) (sessionId : SessionId) :
    RoomManager F × Except String (MutableRoomRecord F) :=
  match m.rooms.get? sessionId with
  | none => (m, .error ("Unknown session: " ++ sessionId))
  | some room =>
    if room.expiresAt ≤ now then
      (⟨m.rooms.delete sessionId⟩, .error ("Expired session: " ++ sessionId))
    else (m, .ok room)

def joinSession (m : RoomManager F) (now : Number) (sessionId : SessionId) (peerId : PeerId) :
    RoomManager F × Except String (RoomSnapshot F) :=
  match m.getMutableLiveRoom now sessionId with
  | (m, .error err) => (m, .error err)
  | (m, .ok room) =>
    let room := { room with peers := room.peers.set peerId ⟨peerId, .receiver⟩ }
    (⟨m.rooms.set sessionId room⟩, .ok (toRoomSnapshot room))

/-- The answer tells whether the peer was in the room. -/
def leaveSession (m : RoomManager F) (sessionId : SessionId) (peerId : PeerId) :
    RoomManager F × Bool :=
  match m.rooms.get? sessionId with
  | none => (m, false)
  | some room =>
    let peers := room.peers.delete peerId
    (if peerId = room.ownerPeerId ∨ peers.size = 0 then ⟨m.rooms.delete sessionId⟩
      else ⟨m.rooms.set sessionId { room with peers := peers }⟩, room.peers.has peerId)

def relayWebRtc (m : RoomManager F) (now : Number) (envelope : SignalingEnvelope F) :
    RoomManager F × Except String (RelayResult F) :=
  match truthy envelope.sessionId, truthy envelope.fromPeerId, truthy envelope.toPeerId with
  | some sessionId, some fromPeerId, some toPeerId =>
    if envelope.type ∉ [SignalingMessageType.WEBRTC_OFFER, .WEBRTC_ANSWER, .ICE_CANDIDATE] then
      (m, .error ("Cannot relay non-WebRTC message " ++ envelope.type.name))
    else
      match m.getMutableLiveRoom now sessionId with
      | (m, .error err) => (m, .error err)
      | (m, .ok room) =>
        if ¬ room.peers.has fromPeerId then (m, .error ("Unknown source peer: " ++ fromPeerId))
        else if ¬ room.peers.has toPeerId then (m, .error ("Unknown target peer: " ++ toPeerId))
        else (m, .ok ⟨sessionId, fromPeerId, toPeerId, envelope⟩)
  | _, _, _ => (m, .error "Relay envelope requires sessionId, fromPeerId, and toPeerId")

/-- `cleanupExpired` over the sessions there were at its start. -/
def expireRooms (now : Number) : List SessionId → Nat → RoomManager F → RoomManager F × Nat
  | [], removed, m => (m, removed)
  | sessionId :: rest, removed, m =>
    match m.rooms.get? sessionId with
    | none => expireRooms now rest removed m
    | some room =>
      if room.expiresAt ≤ now then expireRooms now rest (removed + 1) ⟨m.rooms.delete sessionId⟩
      else expireRooms now rest removed m

def cleanupExpired (m : RoomManager F) (now : Number) : RoomManager F × Nat :=
  expireRooms now m.rooms.keys 0 m

/-- The peer is in the room of the session. -/
def Member (m : RoomManager F) (sessionId : SessionId) (peerId : PeerId) : Prop :=
  ∃ room, m.rooms.get? sessionId = some room ∧ room.peers.has peerId = true

instance decidableMember (m : RoomManager F) (s : SessionId) (p : PeerId) :
    Decidable (m.Member s p) :=
  decidable_of_iff ((m.rooms.get? s).any (·.peers.has p) = true) (by
    simp [Member, Option.any_eq_true])

theorem getMutableLiveRoom_ok {m m' : RoomManager F} {now : Number} {s : SessionId}
    {room : MutableRoomRecord F} : m.getMutableLiveRoom now s = (m', .ok room) ↔
      m' = m ∧ m.rooms.get? s = some room ∧ now < room.expiresAt := by
  unfold getMutableLiveRoom
  split
  · rename_i hnone
    simp [hnone]
  · rename_i found hfound
    rw [hfound]
    split
    · rename_i hexp
      refine iff_of_false (by simp) ?_
      rintro ⟨-, h, hlive⟩
      cases h
      exact absurd hlive (not_lt.2 hexp)
    · rename_i hlive
      constructor
      · intro h
        cases h
        exact ⟨rfl, rfl, not_le.1 hlive⟩
      · rintro ⟨rfl, h, -⟩
        cases h
        rfl

/-- A peer can join a live room. -/
theorem joinSession_ok {m m' : RoomManager F} {now : Number} {s : SessionId} {p : PeerId}
    {session : RoomSnapshot F} (h : m.joinSession now s p = (m', .ok session)) :
    ∃ room, m.rooms.get? s = some room ∧ now < room.expiresAt ∧
      session.peers.length = (room.peers.set p ⟨p, .receiver⟩).size := by
  unfold joinSession at h
  split at h
  · cases h
  · rename_i heq
    obtain ⟨rfl, hroom, hlive⟩ := getMutableLiveRoom_ok.1 heq
    cases h
    exact ⟨_, hroom, hlive, by simp [toRoomSnapshot, OrderedMap.values, OrderedMap.size]⟩

/-- An envelope is relayed if it names a live room and two peers of it. -/
theorem relayWebRtc_ok {m m' : RoomManager F} {now : Number} {envelope : SignalingEnvelope F}
    {relay : RelayResult F} : m.relayWebRtc now envelope = (m', .ok relay) ↔
      m' = m ∧ relay.envelope = envelope ∧
      envelope.type ∈ [SignalingMessageType.WEBRTC_OFFER, .WEBRTC_ANSWER, .ICE_CANDIDATE] ∧
      truthy envelope.sessionId = some relay.sessionId ∧
      truthy envelope.fromPeerId = some relay.fromPeerId ∧
      truthy envelope.toPeerId = some relay.toPeerId ∧
      ∃ room, m.rooms.get? relay.sessionId = some room ∧ now < room.expiresAt ∧
        room.peers.has relay.fromPeerId = true ∧ room.peers.has relay.toPeerId = true := by
  unfold relayWebRtc
  split
  · rename_i s a b hs ha hb
    rw [hs, ha, hb]
    split
    · rename_i htype
      exact iff_of_false (by simp) fun h => htype h.2.2.1
    · rename_i htype
      rw [not_not] at htype
      split
      · rename_i heq
        refine iff_of_false (by simp) ?_
        rintro ⟨-, -, -, hsame, -, -, room, hroom, hlive, -⟩
        cases hsame
        cases (getMutableLiveRoom_ok.2 ⟨rfl, hroom, hlive⟩).symm.trans heq
      · rename_i found heq
        obtain ⟨rfl, hfound, hlive⟩ := getMutableLiveRoom_ok.1 heq
        constructor
        · intro h
          split at h
          · cases h
          · split at h
            · cases h
            · rename_i hfrom hto
              cases h
              exact ⟨rfl, rfl, htype, rfl, rfl, rfl, found, hfound, hlive, not_not.1 hfrom,
                not_not.1 hto⟩
        · rintro ⟨rfl, rfl, -, hs', ha', hb', room, hroom, -, hfrom, hto⟩
          cases hs'
          cases ha'
          cases hb'
          cases hfound.symm.trans hroom
          rw [if_neg (not_not.2 hfrom), if_neg (not_not.2 hto)]
  · rename_i hnone
    refine iff_of_false (by simp) ?_
    rintro ⟨-, -, -, hs, ha, hb, -⟩
    exact hnone _ _ _ hs ha hb

theorem leaveSession_of_ne (m : RoomManager F) {s s' : SessionId} (p : PeerId) (h : s' ≠ s) :
    (m.leaveSession s p).1.rooms.get? s' = m.rooms.get? s' := by
  unfold leaveSession
  split
  · rfl
  · simp only
    split
    · exact OrderedMap.get?_delete_of_ne _ h
    · exact OrderedMap.get?_set_of_ne _ _ h

/-- What is left of the room that a peer leaves. -/
theorem leaveSession_room {m : RoomManager F} {s : SessionId} {p : PeerId}
    {room : MutableRoomRecord F} (h : m.rooms.get? s = some room) :
    (m.leaveSession s p).1.rooms.get? s =
      if p = room.ownerPeerId ∨ (room.peers.delete p).size = 0 then none
      else some { room with peers := room.peers.delete p } := by
  unfold leaveSession
  simp only [h]
  split <;> simp

/-- In a room that is left by another peer than `p` and the owner, `p` stays. -/
theorem leaveSession_keeps {m : RoomManager F} {s : SessionId} {p p' : PeerId}
    {room : MutableRoomRecord F} (h : m.rooms.get? s = some room) (hp : room.peers.has p = true)
    (hself : p' ≠ p) (hown : p' ≠ room.ownerPeerId) :
    (m.leaveSession s p').1.rooms.get? s = some { room with peers := room.peers.delete p' } ∧
      (room.peers.delete p').has p = true := by
  obtain ⟨summary, hsummary⟩ := OrderedMap.has_iff.1 hp
  have hstays : (room.peers.delete p').get? p = some summary := by
    rw [OrderedMap.get?_delete_of_ne _ hself.symm]
    exact hsummary
  have hsize : (room.peers.delete p').size ≠ 0 := by
    intro hzero
    have hnil : (room.peers.delete p').entries = [] := List.length_eq_zero_iff.1 hzero
    have hmem := OrderedMap.mem_entries_iff.2 hstays
    simp [hnil] at hmem
  refine ⟨?_, OrderedMap.has_iff.2 ⟨summary, hstays⟩⟩
  rw [leaveSession_room h, if_neg]
  rintro (ho | hz)
  · exact hown ho
  · exact hsize hz

/-- A peer that leaves, or whose owner leaves, is not in the room any more. -/
theorem not_member_leaveSession {m : RoomManager F} {s : SessionId} {p p' : PeerId}
    {room : MutableRoomRecord F} (h : m.rooms.get? s = some room)
    (hp : p' = p ∨ p' = room.ownerPeerId) : ¬ (m.leaveSession s p').1.Member s p := by
  rintro ⟨left, hleft, hhas⟩
  rw [leaveSession_room h] at hleft
  split at hleft
  · cases hleft
  · rename_i hstays
    cases hleft
    obtain rfl | rfl := hp
    · simp [OrderedMap.has] at hhas
    · exact hstays (.inl rfl)

/-- Cleaning up takes away expired rooms and leaves the others as they are. -/
theorem get?_expireRooms {now : Number} {l : List SessionId} {n : Nat} {m : RoomManager F}
    {s : SessionId} {room : MutableRoomRecord F} :
    (expireRooms now l n m).1.rooms.get? s = some room ↔
      m.rooms.get? s = some room ∧ ¬ (s ∈ l ∧ room.expiresAt ≤ now) := by
  induction l generalizing n m with
  | nil => simp [expireRooms]
  | cons a rest ih =>
    unfold expireRooms
    split
    · rename_i hnone
      rw [ih]
      refine and_congr_right fun hs => ?_
      have hne : s ≠ a := by
        rintro rfl
        rw [hnone] at hs
        cases hs
      simp [hne]
    · rename_i found hfound
      split
      · rename_i hexp
        rw [ih, OrderedMap.get?_delete_eq_some]
        constructor
        · rintro ⟨⟨hne, hs⟩, hrest⟩
          exact ⟨hs, by simpa [hne] using hrest⟩
        · rintro ⟨hs, hall⟩
          have hne : s ≠ a := by
            rintro rfl
            rw [hfound] at hs
            cases hs
            exact hall ⟨List.mem_cons_self, hexp⟩
          exact ⟨⟨hne, hs⟩, fun hin => hall ⟨List.mem_cons_of_mem _ hin.1, hin.2⟩⟩
      · rename_i hexp
        rw [ih]
        refine and_congr_right fun hs => not_congr ?_
        by_cases hne : s = a
        · subst hne
          rw [hfound] at hs
          cases hs
          simp [hexp]
        · simp [hne]

theorem get?_cleanupExpired {m : RoomManager F} {now : Number} {s : SessionId}
    {room : MutableRoomRecord F} :
    (m.cleanupExpired now).1.rooms.get? s = some room ↔
      m.rooms.get? s = some room ∧ now < room.expiresAt := by
  rw [cleanupExpired, get?_expireRooms]
  refine and_congr_right fun hs => ?_
  have hin : s ∈ m.rooms.keys := OrderedMap.mem_keys_iff.2 ⟨room, hs⟩
  simp [hin]

end RoomManager

end PonsWarp.Signaling
