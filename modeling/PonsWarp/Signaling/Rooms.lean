import PonsWarp.Data.Run
import PonsWarp.Signaling.Moves

set_option autoImplicit false

/-!
The methods of `RoomManager` as calls, each made at a reading of its clock, and what every
stored room keeps.
-/

namespace PonsWarp.Signaling

open PonsWarp.Data PonsWarp.Core

variable {F : Type}

inductive RoomCall (F : Type) where
  | createSession (sessionId : SessionId) (ownerPeerId : PeerId) (files : List F) (ttlMs : Number)
  | joinSession (sessionId : SessionId) (peerId : PeerId)
  | leaveSession (sessionId : SessionId) (peerId : PeerId)
  | relayWebRtc (envelope : SignalingEnvelope F)
  | getLiveRoom (sessionId : SessionId)
  | cleanupExpired

inductive RoomAnswer (F : Type) where
  | room (snapshot : RoomSnapshot F)
  | left (deleted : Bool)
  | relay (result : RelayResult F)
  | removed (count : Nat)

namespace RoomManager

def new : RoomManager F := ⟨.empty⟩

def getLiveRoom (m : RoomManager F) (now : Number) (sessionId : SessionId) :
    RoomManager F × Except String (RoomSnapshot F) :=
  match m.getMutableLiveRoom now sessionId with
  | (m, .error err) => (m, .error err)
  | (m, .ok room) => (m, .ok (toRoomSnapshot room))

def call (m : RoomManager F) (now : Number) : RoomCall F →
    RoomManager F × Except String (RoomAnswer F)
  | .createSession s owner files ttl =>
    match m.createSession now s owner files ttl with
    | .error err => (m, .error err)
    | .ok (m, session) => (m, .ok (.room session))
  | .joinSession s p =>
    ((m.joinSession now s p).1, (m.joinSession now s p).2.map .room)
  | .leaveSession s p => ((m.leaveSession s p).1, .ok (.left (m.leaveSession s p).2))
  | .relayWebRtc envelope =>
    ((m.relayWebRtc now envelope).1, (m.relayWebRtc now envelope).2.map .relay)
  | .getLiveRoom s => ((m.getLiveRoom now s).1, (m.getLiveRoom now s).2.map .room)
  | .cleanupExpired => ((m.cleanupExpired now).1, .ok (.removed (m.cleanupExpired now).2))

def step (m : RoomManager F) (x : Number × RoomCall F) : RoomManager F := (m.call x.1 x.2).1

end RoomManager

/-- The call, if it succeeds, makes a room or lets a peer in. -/
def RoomCall.Enters : RoomCall F → Prop
  | .createSession .. | .joinSession .. => True
  | _ => False

namespace RoomManager

/-- What a call does to the rooms, and whether it succeeds. -/
inductive Called (now : Number) (m : RoomManager F) : RoomCall F → Bool → RoomManager F → Prop
  | settled (c : RoomCall F) (ok : Bool) (m' : RoomManager F) (h : Settles now m m')
      (henters : c.Enters → ok = false)
      (hleaves : ∀ s p, c = .leaveSession s p → m.rooms.get? s = none) : Called now m c ok m'
  | created (s : SessionId) (owner : PeerId) (files : List F) (ttl : Number)
      (hnew : m.rooms.get? s = none) :
      Called now m (.createSession s owner files ttl) true ⟨m.rooms.set s
        ⟨s, owner, files, OrderedMap.empty.set owner ⟨owner, .owner⟩, now, now + ttl⟩⟩
  | joined (s : SessionId) (p : PeerId) (room : MutableRoomRecord F)
      (hroom : m.rooms.get? s = some room) (hlive : now < room.expiresAt) :
      Called now m (.joinSession s p) true
        ⟨m.rooms.set s { room with peers := room.peers.set p ⟨p, .receiver⟩ }⟩
  | left (s : SessionId) (p : PeerId) (room : MutableRoomRecord F)
      (hroom : m.rooms.get? s = some room) :
      Called now m (.leaveSession s p) true (m.leaveSession s p).1

variable {m : RoomManager F} {now : Number} {s : SessionId} {p : PeerId}

theorem Settles.refl (m : RoomManager F) : Settles now m m := ⟨fun _ _ h => h, fun _ _ h _ => h⟩

theorem Settles.trans {m' m'' : RoomManager F} (h : Settles now m m') (h' : Settles now m' m'') :
    Settles now m m'' :=
  ⟨fun s room hroom => h.1 s room (h'.1 s room hroom),
    fun s room hroom hlive => h'.2 s room (h.2 s room hroom hlive) hlive⟩

theorem Settles.later {m' : RoomManager F} {t : Number} (h : Settles now m m') (hle : now ≤ t) :
    Settles t m m' :=
  ⟨h.1, fun s room hroom hlive => h.2 s room hroom (hle.trans_lt hlive)⟩

theorem settles_cleanupExpired (m : RoomManager F) (now : Number) :
    Settles now m (m.cleanupExpired now).1 := by
  refine ⟨fun s room h => ?_, fun s room h hlive => ?_⟩
  · exact (get?_cleanupExpired.1 h).1
  · exact get?_cleanupExpired.2 ⟨h, hlive⟩

/-- Whether a call succeeds. -/
def succeeds (m : RoomManager F) (x : Number × RoomCall F) : Bool := (m.call x.1 x.2).2.toBool

theorem called (m : RoomManager F) (now : Number) (c : RoomCall F) :
    Called now m c (m.succeeds (now, c)) (m.step (now, c)) := by
  cases c with
  | createSession s owner files ttl =>
    unfold succeeds step call createSession
    by_cases hhas : m.rooms.has s = true
    · simp only [if_pos hhas]
      exact .settled _ _ _ (.refl _) (fun _ => rfl) fun _ _ h => by cases h
    · simp only [if_neg hhas]
      exact .created s owner files ttl (OrderedMap.has_eq_false_iff.1 (by simpa using hhas))
  | joinSession s p =>
    have hlook := settles_getMutableLiveRoom m now s
    cases heq : m.getMutableLiveRoom now s with
    | mk m' result =>
      rw [heq] at hlook
      cases result with
      | error err =>
        have hjoin : m.joinSession now s p = (m', .error err) := by simp [joinSession, heq]
        simp only [succeeds, step, call, hjoin]
        exact .settled _ _ _ hlook (fun _ => rfl) fun _ _ h => by cases h
      | ok room =>
        obtain ⟨rfl, hroom, hlive⟩ := getMutableLiveRoom_ok.1 heq
        simp only [succeeds, step, call, joinSession, heq]
        exact .joined s p room hroom hlive
  | leaveSession s p =>
    cases hroom : m.rooms.get? s with
    | some room => exact .left s p room hroom
    | none =>
      have hsame : m.step (now, .leaveSession s p) = m := by
        simp [step, call, leaveSession, hroom]
      rw [hsame]
      refine .settled _ _ _ (.refl _) (fun h => h.elim) fun s' p' h => ?_
      cases h
      exact hroom
  | relayWebRtc envelope =>
    exact .settled _ _ _ (settles_relayWebRtc m now envelope) (fun h => h.elim) fun _ _ h => by cases h
  | getLiveRoom s =>
    have hlook := settles_getMutableLiveRoom m now s
    have hsame : m.step (now, .getLiveRoom s) = (m.getMutableLiveRoom now s).1 := by
      rcases heq : m.getMutableLiveRoom now s with ⟨m', err | room⟩ <;>
        simp [step, call, getLiveRoom, heq]
    rw [← hsame] at hlook
    exact .settled _ _ _ hlook (fun h => h.elim) fun _ _ h => by cases h
  | cleanupExpired =>
    exact .settled _ _ _ (settles_cleanupExpired m now) (fun h => h.elim) fun _ _ h => by cases h

/-- Every stored room has its owner in it. -/
def Owned (m : RoomManager F) : Prop :=
  ∀ s room, m.rooms.get? s = some room → room.peers.has room.ownerPeerId = true

/-- The owner, who has not left, is in the room that another peer has left. -/
theorem size_delete_ne_zero {room : MutableRoomRecord F}
    (ho : room.peers.has room.ownerPeerId = true) {p : PeerId} (hp : p ≠ room.ownerPeerId) : (room.peers.delete p).size ≠ 0 := by
  intro hzero
  obtain ⟨summary, hsummary⟩ := OrderedMap.has_iff.1 ho
  have hnil : (room.peers.delete p).entries = [] := List.length_eq_zero_iff.1 hzero
  have hin : (room.peers.delete p).get? room.ownerPeerId = some summary :=
    OrderedMap.get?_delete_eq_some.2 ⟨hp.symm, hsummary⟩
  have hmem := OrderedMap.mem_entries_iff.2 hin
  simp [hnil] at hmem

theorem Settles.owned {m' : RoomManager F} (h : Settles now m m') (ho : m.Owned) : m'.Owned :=
  fun s room hroom => ho s room (h.1 s room hroom)

theorem Owned.leaveSession (ho : m.Owned) (s : SessionId) (p : PeerId) :
    (m.leaveSession s p).1.Owned := by
  intro s' room hroom
  by_cases hs : s' = s
  · subst hs
    cases hold : m.rooms.get? s' with
    | none =>
      unfold RoomManager.leaveSession at hroom
      simp only [hold] at hroom
      cases hroom
    | some old =>
      rw [leaveSession_room hold] at hroom
      split at hroom
      · cases hroom
      · rename_i hstays
        simp only [not_or] at hstays
        cases hroom
        obtain ⟨summary, hsummary⟩ := OrderedMap.has_iff.1 (ho s' old hold)
        refine OrderedMap.has_iff.2 ⟨summary, ?_⟩
        exact OrderedMap.get?_delete_eq_some.2 ⟨fun he => hstays.1 he.symm, hsummary⟩
  · rw [leaveSession_of_ne m p hs] at hroom
    exact ho s' room hroom

theorem Called.owned {c : RoomCall F} {ok : Bool} {m' : RoomManager F}
    (h : Called now m c ok m') (ho : m.Owned) : m'.Owned := by
  cases h with
  | settled _ _ _ h henters hleaves => exact h.owned ho
  | created s owner files ttl hnew =>
    intro s' room hroom
    simp only [OrderedMap.get?_set] at hroom
    split at hroom
    · cases hroom
      simp [OrderedMap.has]
    · exact ho s' room hroom
  | joined s p room hroom hlive =>
    intro s' room' hroom'
    simp only [OrderedMap.get?_set] at hroom'
    split at hroom'
    · cases hroom'
      have hin := ho s room hroom
      simp only [OrderedMap.has, OrderedMap.get?_set] at hin ⊢
      split
      · rfl
      · exact hin
    · exact ho s' room' hroom'
  | left s p room hroom => exact ho.leaveSession s p

/-- Every stored room lists one peer as owner, and it is the owner. -/
def OneOwner (m : RoomManager F) : Prop :=
  ∀ s room, m.rooms.get? s = some room →
    ∃ peer, room.peers.values.filter (fun x => x.role = .owner) = [peer] ∧
      peer.peerId = room.ownerPeerId

end RoomManager

/-- The owner stands in the room as its owner, and nobody else does. -/
structure MutableRoomRecord.Headed (room : MutableRoomRecord F) : Prop where
  owner : room.peers.get? room.ownerPeerId = some ⟨room.ownerPeerId, .owner⟩
  others : ∀ p x, room.peers.get? p = some x → x.role = .owner → p = room.ownerPeerId

theorem MutableRoomRecord.Headed.filter_eq {room : MutableRoomRecord F} (h : room.Headed) :
    room.peers.values.filter (fun x => x.role = .owner) =
      [⟨room.ownerPeerId, .owner⟩] := by
  have hperm := (OrderedMap.values_delete_perm h.owner).filter fun x => x.role = .owner
  have hrest : (room.peers.delete room.ownerPeerId).values.filter
      (fun x => x.role = .owner) = [] := by
    refine List.filter_eq_nil_iff.2 fun x hx => ?_
    obtain ⟨p, hp⟩ := OrderedMap.mem_values_iff.1 hx
    obtain ⟨hne, hp⟩ := OrderedMap.get?_delete_eq_some.1 hp
    simp only [decide_eq_true_eq]
    exact fun hrole => hne (h.others p x hp hrole)
  rw [List.filter_cons_of_pos (by simp), hrest] at hperm
  exact List.perm_singleton.1 hperm

namespace RoomManager

variable {m : RoomManager F} {now : Number} {s : SessionId} {p : PeerId}

/-- The owner of a live room does not join it. -/
def KeepsOwner (m : RoomManager F) (x : Number × RoomCall F) : Prop :=
  ∀ s p room, x.2 = .joinSession s p → m.rooms.get? s = some room → x.1 < room.expiresAt →
    p ≠ room.ownerPeerId

def Headed (m : RoomManager F) : Prop := ∀ s room, m.rooms.get? s = some room → room.Headed

theorem Headed.oneOwner (h : m.Headed) : m.OneOwner :=
  fun s room hroom => ⟨_, (h s room hroom).filter_eq, rfl⟩

theorem Headed.step {x : Number × RoomCall F} (h : m.Headed) (hx : m.KeepsOwner x) :
    (m.step x).Headed := by
  obtain ⟨now, c⟩ := x
  have hcalled := m.called now c
  generalize m.succeeds (now, c) = ok at hcalled
  generalize m.step (now, c) = m' at hcalled
  cases hcalled with
  | settled _ _ _ hsettles => exact fun s room hroom => h s room (hsettles.1 s room hroom)
  | created s owner files ttl hnew =>
    intro s' room hroom
    simp only [OrderedMap.get?_set] at hroom
    split at hroom
    · cases hroom
      refine ⟨by simp, fun p x hx hrole => ?_⟩
      simp only [OrderedMap.get?_set, OrderedMap.get?_empty] at hx
      by_contra hne
      simp [hne] at hx
    · exact h s' room hroom
  | joined s p room hroom hlive =>
    have hne : p ≠ room.ownerPeerId := hx s p room rfl hroom hlive
    obtain ⟨howner, hothers⟩ := h s room hroom
    intro s' room' hroom'
    simp only [OrderedMap.get?_set] at hroom'
    split at hroom'
    · cases hroom'
      refine ⟨?_, fun q x hq hrole => ?_⟩
      · rw [OrderedMap.get?_set_of_ne _ _ hne.symm]
        exact howner
      · simp only [OrderedMap.get?_set] at hq
        split at hq
        · cases hq
          cases hrole
        · exact hothers q x hq hrole
    · exact h s' room' hroom'
  | left s p room hroom =>
    obtain ⟨howner, hothers⟩ := h s room hroom
    intro s' room' hroom'
    by_cases hs : s' = s
    · subst hs
      rw [leaveSession_room hroom] at hroom'
      split at hroom'
      · cases hroom'
      · rename_i hstays
        simp only [not_or] at hstays
        cases hroom'
        refine ⟨?_, fun q x hq hrole => ?_⟩
        · exact OrderedMap.get?_delete_eq_some.2 ⟨fun he => hstays.1 he.symm, howner⟩
        · exact hothers q x (OrderedMap.get?_delete_eq_some.1 hq).2 hrole
    · rw [leaveSession_of_ne m p hs] at hroom'
      exact h s' room' hroom'

end RoomManager

open RoomManager

/-- As long as no owner joins its own room, every room has its one owner. -/
theorem rooms_have_one_owner {m : RoomManager F}
    (h : Run RoomManager.step KeepsOwner .new m) : m.OneOwner := by
  have hheaded : m.Headed := by
    refine h.invariant (P := Headed) (fun m x hm hx => hm.step hx) ?_
    intro s room hroom
    cases hroom
  exact hheaded.oneOwner

namespace Sample

/-- A room with a receiver, which leaves again. -/
def visited : List (Number × RoomCall Unit) :=
  [(0, .createSession "s" "o" [] 10), (1, .joinSession "s" "p"), (2, .leaveSession "s" "p")]

/-- The owner joins its own room. -/
def demoted : List (Number × RoomCall Unit) :=
  [(0, .createSession "s" "o" [] 10), (1, .joinSession "s" "o")]

end Sample

theorem rooms_have_one_owner_sample :
    (steps RoomManager.step .new Sample.visited).OneOwner := by
  refine rooms_have_one_owner (run_of_allowed ⟨?_, ?_, ?_, trivial⟩)
  · intro s p room hcall
    cases hcall
  · intro s p room hcall hroom hlive
    cases hcall
    cases hroom
    decide
  · intro s p room hcall
    cases hcall

/-- The owner that joins its own room is its owner no more. -/
theorem owner_joins_its_room :
    ∃ m : RoomManager Unit, Run RoomManager.step (fun _ _ => True) .new m ∧ ¬ m.OneOwner := by
  refine ⟨_, run_steps RoomManager.new Sample.demoted, fun h => ?_⟩
  have hlisted : ((steps RoomManager.step .new Sample.demoted).rooms.get? "s").map
      (fun room => room.peers.values) = some [⟨"o", .receiver⟩] := by decide +kernel
  obtain ⟨room, hroom, hvalues⟩ := Option.map_eq_some_iff.1 hlisted
  obtain ⟨peer, hpeer, -⟩ := h "s" room hroom
  rw [hvalues] at hpeer
  cases hpeer

end PonsWarp.Signaling
