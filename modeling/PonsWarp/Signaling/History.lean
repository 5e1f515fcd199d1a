import Mathlib.Data.List.Induction
import PonsWarp.Signaling.Rooms

set_option autoImplicit false

/-!
What the calls of the past say about a session: whether it has ended since its latest
creation, and who has become a member since and has not left. The rooms that are stored
agree with it, so an envelope is relayed exactly between such members.
-/

namespace PonsWarp.Signaling

open PonsWarp.Data PonsWarp.Core

variable {F : Type}

/-- A call that was made, the reading of the clock then, and whether it succeeded. -/
structure Past (F : Type) where
  time : Number
  call : RoomCall F
  ok : Bool

namespace Past

def Creates (r : Past F) (s : SessionId) (owner : PeerId) (ttl : Number) : Prop :=
  r.ok = true ∧ ∃ files, r.call = .createSession s owner files ttl

def Joins (r : Past F) (s : SessionId) (p : PeerId) : Prop :=
  r.ok = true ∧ r.call = .joinSession s p

def Leaves (r : Past F) (s : SessionId) (p : PeerId) : Prop := r.call = .leaveSession s p

/-- The latest successful creation of the session, and what came after it. -/
def CreatedAt (T : List (Past F)) (s : SessionId) (owner : PeerId) (expires : Number)
    (since : List (Past F)) : Prop :=
  ∃ before r ttl, T = before ++ r :: since ∧ r.Creates s owner ttl ∧ expires = r.time + ttl ∧
    ∀ x ∈ since, ∀ o ttl', ¬ x.Creates s o ttl'

/-- The peer became a member, as owner or by joining, and has not left since. -/
def MemberSince (s : SessionId) (owner : PeerId) (since : List (Past F)) (p : PeerId) : Prop :=
  (p = owner ∧ ∀ x ∈ since, ¬ x.Leaves s p) ∨
  ∃ before r after, since = before ++ r :: after ∧ r.Joins s p ∧ ∀ x ∈ after, ¬ x.Leaves s p

/-- The owner has left, or the last member has. -/
def Ended (s : SessionId) (owner : PeerId) (since : List (Past F)) : Prop :=
  (∃ x ∈ since, x.Leaves s owner) ∨
  ∃ before r after p, since = before ++ r :: after ∧ r.Leaves s p ∧
    MemberSince s owner before p ∧ ∀ q, ¬ MemberSince s owner (before ++ [r]) q

/-- The envelope names a session that is neither expired nor ended, and two members of it. -/
def Relayable (T : List (Past F)) (now : Number) (envelope : SignalingEnvelope F) : Prop :=
  ∃ s p q, truthy envelope.sessionId = some s ∧ truthy envelope.fromPeerId = some p ∧
    truthy envelope.toPeerId = some q ∧
    ∃ owner expires since, CreatedAt T s owner expires since ∧ now < expires ∧
      ¬ Ended s owner since ∧ MemberSince s owner since p ∧ MemberSince s owner since q

variable {T since : List (Past F)} {r : Past F} {s : SessionId} {owner p : PeerId}
variable {expires : Number}

/-- Where a list with a last element is cut: there, or before it. -/
theorem snoc_eq_iff {α : Type} {l before after : List α} {a x : α} :
    l ++ [a] = before ++ x :: after ↔ (after = [] ∧ x = a ∧ before = l) ∨
      ∃ rest, after = rest ++ [a] ∧ l = before ++ x :: rest := by
  constructor
  · intro h
    obtain rfl | ⟨rest, b, rfl⟩ := List.eq_nil_or_concat after
    · obtain ⟨rfl, hx⟩ := List.append_inj' h rfl
      cases hx
      exact .inl ⟨rfl, rfl, rfl⟩
    · have hcut : l ++ [a] = (before ++ x :: rest) ++ [b] := by simpa using h
      obtain ⟨rfl, hb⟩ := List.append_inj' hcut rfl
      cases hb
      exact .inr ⟨rest, by simp, rfl⟩
  · rintro (⟨rfl, rfl, rfl⟩ | ⟨rest, rfl, rfl⟩)
    · rfl
    · simp

theorem createdAt_snoc : CreatedAt (T ++ [r]) s owner expires since ↔
    (since = [] ∧ ∃ ttl, r.Creates s owner ttl ∧ expires = r.time + ttl) ∨
    ∃ before, since = before ++ [r] ∧ CreatedAt T s owner expires before ∧
      ∀ o ttl, ¬ r.Creates s o ttl := by
  constructor
  · rintro ⟨before, x, ttl, hT, hx, rfl, hlast⟩
    obtain ⟨rfl, rfl, rfl⟩ | ⟨rest, rfl, rfl⟩ := snoc_eq_iff.1 hT
    · exact .inl ⟨rfl, ttl, hx, rfl⟩
    · refine .inr ⟨rest, rfl, ⟨before, x, ttl, rfl, hx, rfl, fun y hy => ?_⟩, hlast r (by simp)⟩
      exact hlast y (by simp [hy])
  · rintro (⟨rfl, ttl, hr, rfl⟩ | ⟨rest, rfl, ⟨before, x, ttl, rfl, hx, rfl, hlast⟩, hr⟩)
    · exact ⟨T, r, ttl, rfl, hr, rfl, by simp⟩
    · refine ⟨before, x, ttl, by simp, hx, rfl, fun y hy => ?_⟩
      obtain hold | hnew := List.mem_append.1 hy
      · exact hlast y hold
      · rw [List.mem_singleton.1 hnew]
        exact hr

theorem memberSince_snoc : MemberSince s owner (since ++ [r]) p ↔
    r.Joins s p ∨ (MemberSince s owner since p ∧ ¬ r.Leaves s p) := by
  constructor
  · rintro (⟨howner, hstays⟩ | ⟨before, x, after, hcut, hx, hstays⟩)
    · exact .inr ⟨.inl ⟨howner, fun y hy => hstays y (by simp [hy])⟩, hstays r (by simp)⟩
    · obtain ⟨rfl, rfl, rfl⟩ | ⟨rest, rfl, rfl⟩ := snoc_eq_iff.1 hcut
      · exact .inl hx
      · refine .inr ⟨.inr ⟨before, x, rest, rfl, hx, fun y hy => hstays y (by simp [hy])⟩, ?_⟩
        exact hstays r (by simp)
  · rintro (hjoin | ⟨⟨howner, hstays⟩ | ⟨before, x, after, rfl, hx, hstays⟩, hr⟩)
    · exact .inr ⟨since, r, [], rfl, hjoin, by simp⟩
    · refine .inl ⟨howner, fun y hy => ?_⟩
      obtain hold | hnew := List.mem_append.1 hy
      · exact hstays y hold
      · rw [List.mem_singleton.1 hnew]
        exact hr
    · refine .inr ⟨before, x, after ++ [r], by simp, hx, fun y hy => ?_⟩
      obtain hold | hnew := List.mem_append.1 hy
      · exact hstays y hold
      · rw [List.mem_singleton.1 hnew]
        exact hr

theorem ended_snoc : Ended s owner (since ++ [r]) ↔ Ended s owner since ∨ r.Leaves s owner ∨
    ∃ p, r.Leaves s p ∧ MemberSince s owner since p ∧
      ∀ q, ¬ MemberSince s owner (since ++ [r]) q := by
  constructor
  · rintro (⟨x, hx, hleave⟩ | ⟨before, x, after, p, hcut, hleave, hmember, hnone⟩)
    · obtain hold | hnew := List.mem_append.1 hx
      · exact .inl (.inl ⟨x, hold, hleave⟩)
      · rw [List.mem_singleton.1 hnew] at hleave
        exact .inr (.inl hleave)
    · obtain ⟨rfl, rfl, rfl⟩ | ⟨rest, rfl, rfl⟩ := snoc_eq_iff.1 hcut
      · exact .inr (.inr ⟨p, hleave, hmember, hnone⟩)
      · exact .inl (.inr ⟨before, x, rest, p, rfl, hleave, hmember, hnone⟩)
  · rintro ((⟨x, hx, hleave⟩ | ⟨before, x, after, p, rfl, hleave, hmember, hnone⟩) | hleave |
      ⟨p, hleave, hmember, hnone⟩)
    · exact .inl ⟨x, by simp [hx], hleave⟩
    · exact .inr ⟨before, x, after ++ [r], p, by simp, hleave, hmember, hnone⟩
    · exact .inl ⟨r, by simp, hleave⟩
    · exact .inr ⟨since, r, [], p, rfl, hleave, hmember, hnone⟩

/-- There is one latest creation. -/
theorem CreatedAt.unique {owner' : PeerId} {expires' : Number} {since' : List (Past F)}
    (h : CreatedAt T s owner expires since) (h' : CreatedAt T s owner' expires' since') :
    owner = owner' ∧ expires = expires' ∧ since = since' := by
  induction T using List.reverseRecOn generalizing since since' with
  | nil =>
    obtain ⟨before, r, ttl, hT, -⟩ := h
    simp at hT
  | append_singleton T r ih =>
    obtain ⟨rfl, ttl, hr, rfl⟩ | ⟨before, rfl, hold, hnot⟩ := createdAt_snoc.1 h
    · obtain ⟨rfl, ttl', hr', rfl⟩ | ⟨before', rfl, hold', hnot'⟩ := createdAt_snoc.1 h'
      · obtain ⟨-, files, hcall⟩ := hr
        obtain ⟨-, files', hcall'⟩ := hr'
        cases hcall.symm.trans hcall'
        exact ⟨rfl, rfl, rfl⟩
      · exact absurd hr (hnot' owner ttl)
    · obtain ⟨rfl, ttl', hr', rfl⟩ | ⟨before', rfl, hold', hnot'⟩ := createdAt_snoc.1 h'
      · exact absurd hr' (hnot owner' ttl')
      · obtain ⟨rfl, rfl, rfl⟩ := ih hold hold'
        exact ⟨rfl, rfl, rfl⟩

end Past

namespace RoomManager

open Past

/-- The calls as they will be remembered. -/
def trace (m : RoomManager F) : List (Number × RoomCall F) → List (Past F)
  | [] => []
  | x :: rest => ⟨x.1, x.2, m.succeeds x⟩ :: (m.step x).trace rest

theorem trace_snoc (m : RoomManager F) (calls : List (Number × RoomCall F))
    (x : Number × RoomCall F) : m.trace (calls ++ [x]) =
      m.trace calls ++ [⟨x.1, x.2, (steps RoomManager.step m calls).succeeds x⟩] := by
  induction calls generalizing m with
  | nil => rfl
  | cons y rest ih =>
    simp only [List.cons_append, trace, ih]
    rfl

/-- The rooms agree with the past. -/
structure Tracks (T : List (Past F)) (now : Number) (m : RoomManager F) : Prop where
  owned : m.Owned
  stored : ∀ s room, m.rooms.get? s = some room →
    ∃ since, CreatedAt T s room.ownerPeerId room.expiresAt since ∧
      ¬ Ended s room.ownerPeerId since ∧
      ∀ p, room.peers.has p = true ↔ MemberSince s room.ownerPeerId since p
  live : ∀ s owner expires since, CreatedAt T s owner expires since → ¬ Ended s owner since →
    now < expires → ∃ room, m.rooms.get? s = some room

variable {T : List (Past F)} {r : Past F} {m m' : RoomManager F} {now t : Number}
variable {s : SessionId} {c : RoomCall F} {ok : Bool}

/-- A room that a call leaves as it is still agrees with the past. -/
theorem Tracks.untouched (h : Tracks T now m) {room : MutableRoomRecord F}
    (hroom : m.rooms.get? s = some room) (hcreate : ∀ o ttl, ¬ r.Creates s o ttl)
    (hjoin : ∀ p, ¬ r.Joins s p) (hleave : ∀ p, ¬ r.Leaves s p) :
    ∃ since, CreatedAt (T ++ [r]) s room.ownerPeerId room.expiresAt since ∧
      ¬ Ended s room.ownerPeerId since ∧
      ∀ p, room.peers.has p = true ↔ MemberSince s room.ownerPeerId since p := by
  obtain ⟨since, hcreated, hended, hmembers⟩ := h.stored s room hroom
  refine ⟨since ++ [r], createdAt_snoc.2 (.inr ⟨since, rfl, hcreated, hcreate⟩), ?_, fun p => ?_⟩
  · rw [ended_snoc]
    rintro (hold | hown | ⟨p, hp, -⟩)
    · exact hended hold
    · exact hleave _ hown
    · exact hleave _ hp
  · rw [memberSince_snoc, hmembers]
    simp [hjoin p, hleave p]

/-- A session that is live after a call that does not create it was live before. -/
theorem Tracks.before (h : Tracks T now m) (hle : now ≤ t) {owner : PeerId} {expires : Number}
    {since : List (Past F)} (hcreated : CreatedAt (T ++ [r]) s owner expires since)
    (hended : ¬ Ended s owner since) (hlive : t < expires)
    (hcreate : ∀ o ttl, ¬ r.Creates s o ttl) :
    ∃ room, m.rooms.get? s = some room ∧ room.ownerPeerId = owner ∧ t < room.expiresAt ∧
      ¬ r.Leaves s owner := by
  obtain ⟨rfl, ttl, hr, -⟩ | ⟨before, rfl, hold, -⟩ := createdAt_snoc.1 hcreated
  · exact absurd hr (hcreate owner ttl)
  · rw [ended_snoc, not_or, not_or] at hended
    obtain ⟨room, hroom⟩ := h.live s owner expires before hold hended.1 (hle.trans_lt hlive)
    obtain ⟨since, hcreated', -, -⟩ := h.stored s room hroom
    obtain ⟨howner, hexpires, -⟩ := hcreated'.unique hold
    exact ⟨room, hroom, howner, hexpires ▸ hlive, hended.2.1⟩

theorem Tracks.step_stored (h : Tracks T now m) (hc : Called t m c ok m')
    {room : MutableRoomRecord F} (hroom : m'.rooms.get? s = some room) :
    ∃ since, CreatedAt (T ++ [⟨t, c, ok⟩]) s room.ownerPeerId room.expiresAt since ∧
      ¬ Ended s room.ownerPeerId since ∧
      ∀ p, room.peers.has p = true ↔ MemberSince s room.ownerPeerId since p := by
  cases hc with
  | settled _ _ _ hsettles henters hleaves =>
    have hold := hsettles.1 s room hroom
    refine h.untouched hold ?_ ?_ fun p hp => ?_
    · rintro o ttl ⟨hok, files, hcall⟩
      simp only at hok hcall
      subst hcall
      rw [henters trivial] at hok
      cases hok
    · rintro p ⟨hok, hcall⟩
      simp only at hok hcall
      subst hcall
      rw [henters trivial] at hok
      cases hok
    · rw [hleaves s p hp] at hold
      cases hold
  | created s' owner files ttl hnew =>
    simp only [OrderedMap.get?_set] at hroom
    split at hroom
    · rename_i hs
      subst hs
      cases hroom
      refine ⟨[], createdAt_snoc.2 (.inl ⟨rfl, ttl, ⟨rfl, files, rfl⟩, rfl⟩), ?_, fun p => ?_⟩
      · rintro (⟨x, hx, -⟩ | ⟨before, x, after, p, hcut, -⟩)
        · cases hx
        · simp at hcut
      · simp [MemberSince, OrderedMap.has, OrderedMap.get?_set, apply_ite]
    · rename_i hs
      refine h.untouched hroom ?_ ?_ fun p hp => ?_
      · rintro o ttl' ⟨-, files', hcall⟩
        cases hcall
        exact hs rfl
      · rintro p ⟨-, hcall⟩
        cases hcall
      · cases hp
  | joined s' p' old hold hlive =>
    simp only [OrderedMap.get?_set] at hroom
    split at hroom
    · rename_i hs
      subst hs
      cases hroom
      obtain ⟨since, hcreated, hended, hmembers⟩ := h.stored s old hold
      refine ⟨since ++ [_], createdAt_snoc.2 (.inr ⟨since, rfl, hcreated, ?_⟩), ?_, fun p => ?_⟩
      · rintro o ttl ⟨-, files, hcall⟩
        cases hcall
      · rw [ended_snoc]
        rintro (hbefore | hown | ⟨p, hp, -⟩)
        · exact hended hbefore
        · cases hown
        · cases hp
      · rw [memberSince_snoc, ← hmembers]
        simp only [Joins, Leaves, OrderedMap.has, OrderedMap.get?_set, true_and,
          RoomCall.joinSession.injEq, reduceCtorEq, not_false_eq_true, and_true]
        by_cases hp : p = p'
        · simp [hp]
        · simp [hp, Ne.symm hp]
    · rename_i hs
      refine h.untouched hroom ?_ ?_ fun p hp => ?_
      · rintro o ttl ⟨-, files, hcall⟩
        cases hcall
      · rintro p ⟨-, hcall⟩
        cases hcall
        exact hs rfl
      · cases hp
  | left s' p' old hold =>
    by_cases hs : s = s'
    · subst hs
      rw [leaveSession_room hold] at hroom
      split at hroom
      · cases hroom
      · rename_i hstays
        simp only [not_or] at hstays
        cases hroom
        obtain ⟨since, hcreated, hended, hmembers⟩ := h.stored s old hold
        have hafter : ∀ p, (old.peers.delete p').has p = true ↔
            MemberSince s old.ownerPeerId (since ++ [⟨t, .leaveSession s p', true⟩]) p := by
          intro p
          rw [memberSince_snoc, ← hmembers]
          simp only [Joins, Leaves, OrderedMap.has, OrderedMap.get?_delete, reduceCtorEq, and_false,
            false_or, RoomCall.leaveSession.injEq, true_and]
          by_cases hp : p = p'
          · simp [hp]
          · simp [hp, Ne.symm hp]
        refine ⟨since ++ [_], createdAt_snoc.2 (.inr ⟨since, rfl, hcreated, ?_⟩), ?_, hafter⟩
        · rintro o ttl ⟨-, files, hcall⟩
          cases hcall
        · rw [ended_snoc]
          rintro (hbefore | hown | ⟨p, hp, -, hnone⟩)
          · exact hended hbefore
          · simp only [Leaves, RoomCall.leaveSession.injEq, true_and] at hown
            exact hstays.1 hown
          · refine hnone old.ownerPeerId ((hafter _).1 ?_)
            obtain ⟨summary, hsummary⟩ := OrderedMap.has_iff.1 (h.owned s old hold)
            refine OrderedMap.has_iff.2 ⟨summary, ?_⟩
            exact OrderedMap.get?_delete_eq_some.2 ⟨fun he => hstays.1 he.symm, hsummary⟩
    · rw [leaveSession_of_ne m p' hs] at hroom
      refine h.untouched hroom ?_ ?_ fun p hp => ?_
      · rintro o ttl ⟨-, files, hcall⟩
        cases hcall
      · rintro p ⟨-, hcall⟩
        cases hcall
      · cases hp
        exact hs rfl

theorem Tracks.step_live (h : Tracks T now m) (hle : now ≤ t) (hc : Called t m c ok m')
    {owner : PeerId} {expires : Number} {since : List (Past F)}
    (hcreated : CreatedAt (T ++ [⟨t, c, ok⟩]) s owner expires since)
    (hended : ¬ Ended s owner since) (hlive : t < expires) :
    ∃ room, m'.rooms.get? s = some room := by
  cases hc with
  | settled _ _ _ hsettles henters hleaves =>
    obtain ⟨room, hroom, -, hexpires, -⟩ := h.before hle hcreated hended hlive (by
      rintro o ttl ⟨hok, files, hcall⟩
      simp only at hok hcall
      subst hcall
      rw [henters trivial] at hok
      cases hok)
    exact ⟨room, hsettles.2 s room hroom hexpires⟩
  | created s' owner' files ttl hnew =>
    by_cases hs : s = s'
    · subst hs
      exact ⟨_, OrderedMap.get?_set_self ..⟩
    · obtain ⟨room, hroom, -⟩ := h.before hle hcreated hended hlive (by
        rintro o ttl' ⟨-, files', hcall⟩
        cases hcall
        exact hs rfl)
      exact ⟨room, (OrderedMap.get?_set_of_ne _ _ hs).trans hroom⟩
  | joined s' p' old hold hlive' =>
    by_cases hs : s = s'
    · subst hs
      exact ⟨_, OrderedMap.get?_set_self ..⟩
    · obtain ⟨room, hroom, -⟩ := h.before hle hcreated hended hlive (by
        rintro o ttl' ⟨-, files', hcall⟩
        cases hcall)
      exact ⟨room, (OrderedMap.get?_set_of_ne _ _ hs).trans hroom⟩
  | left s' p' old hold =>
    obtain ⟨room, hroom, howner, -, hstays⟩ := h.before hle hcreated hended hlive (by
      rintro o ttl' ⟨-, files', hcall⟩
      cases hcall)
    by_cases hs : s = s'
    · subst hs
      have hne : p' ≠ room.ownerPeerId := by
        rintro rfl
        exact hstays (by rw [howner]; rfl)
      rw [leaveSession_room hroom, if_neg]
      · exact ⟨_, rfl⟩
      · exact not_or.2 ⟨hne, size_delete_ne_zero (h.owned s room hroom) hne⟩
    · exact ⟨room, (leaveSession_of_ne m p' hs).trans hroom⟩

theorem Tracks.step (h : Tracks T now m) (hle : now ≤ t) (hc : Called t m c ok m') :
    Tracks (T ++ [⟨t, c, ok⟩]) t m' :=
  ⟨hc.owned h.owned, fun _ _ hroom => h.step_stored hc hroom,
    fun _ _ _ _ hcreated hended hlive => h.step_live hle hc hcreated hended hlive⟩

theorem Tracks.mono (h : Tracks T now m) (hle : now ≤ t) : Tracks T t m :=
  ⟨h.owned, h.stored, fun s owner expires since hcreated hended hlive =>
    h.live s owner expires since hcreated hended (hle.trans_lt hlive)⟩

/-- After calls at readings of a clock that does not go back, the rooms agree with the past. -/
theorem tracks_trace (calls : List (Number × RoomCall F)) (now : Number)
    (hclock : (calls.map Prod.fst).Pairwise (· ≤ ·)) (hnow : ∀ x ∈ calls, x.1 ≤ now) :
    Tracks (new.trace calls) now (steps RoomManager.step new calls) := by
  induction calls using List.reverseRecOn generalizing now with
  | nil =>
    refine ⟨fun s room hroom => ?_, fun s room hroom => ?_, fun s owner expires since h => ?_⟩
    · cases hroom
    · cases hroom
    · obtain ⟨before, r, ttl, hT, -⟩ := h
      simp [trace] at hT
  | append_singleton calls x ih =>
    obtain ⟨t, c⟩ := x
    rw [List.map_append, List.pairwise_append] at hclock
    obtain ⟨hbefore, -, hlast⟩ := hclock
    have hold := ih t hbefore fun y hy => hlast _ (List.mem_map_of_mem hy) t (by simp)
    have hsteps : steps RoomManager.step new (calls ++ [(t, c)]) =
        (steps RoomManager.step new calls).step (t, c) := by simp [steps]
    rw [trace_snoc, hsteps]
    exact (hold.step le_rfl (called _ t c)).mono (hnow (t, c) (by simp))

end RoomManager

open RoomManager Past

/-- A WebRTC envelope is relayed if and only if, by the calls of the past, it names a session
that is neither expired nor ended and two members of it. -/
theorem relayed_iff_members (calls : List (Number × RoomCall F)) (now : Number)
    (envelope : SignalingEnvelope F) (hclock : (calls.map Prod.fst).Pairwise (· ≤ ·))
    (hnow : ∀ x ∈ calls, x.1 ≤ now)
    (htype : envelope.type ∈ [SignalingMessageType.WEBRTC_OFFER, .WEBRTC_ANSWER, .ICE_CANDIDATE]) :
    (∃ relay, ((steps RoomManager.step .new calls).relayWebRtc now envelope).2 = .ok relay) ↔
      Relayable (RoomManager.new.trace calls) now envelope := by
  have htracks := tracks_trace calls now hclock hnow
  generalize steps RoomManager.step .new calls = m at htracks
  constructor
  · rintro ⟨relay, hrelay⟩
    obtain ⟨-, -, -, hs, hp, hq, room, hroom, hlive, hfrom, hto⟩ :=
      relayWebRtc_ok.1 (Prod.ext rfl hrelay : m.relayWebRtc now envelope = (_, .ok relay))
    obtain ⟨since, hcreated, hended, hmembers⟩ := htracks.stored _ room hroom
    exact ⟨_, _, _, hs, hp, hq, _, _, since, hcreated, hlive, hended, (hmembers _).1 hfrom,
      (hmembers _).1 hto⟩
  · rintro ⟨s, p, q, hs, hp, hq, owner, expires, since, hcreated, hlive, hended, hfrom, hto⟩
    obtain ⟨room, hroom⟩ := htracks.live s owner expires since hcreated hended hlive
    obtain ⟨since', hcreated', -, hmembers⟩ := htracks.stored s room hroom
    obtain ⟨rfl, rfl, rfl⟩ := hcreated'.unique hcreated
    have hok : m.relayWebRtc now envelope = (m, .ok ⟨s, p, q, envelope⟩) :=
      relayWebRtc_ok.2 ⟨rfl, rfl, htype, hs, hp, hq, room, hroom, hlive, (hmembers p).2 hfrom,
        (hmembers q).2 hto⟩
    exact ⟨_, congrArg Prod.snd hok⟩

namespace Sample

def toPeer : SignalingEnvelope Unit :=
  ⟨"m", .WEBRTC_OFFER, some "s", some "o", some "p", 5, .other ""⟩

end Sample

/-- The owner and a peer that has joined can reach each other. -/
theorem relayed_iff_members_sample :
    Relayable (RoomManager.new.trace (Sample.visited.take 2)) 5 Sample.toPeer := by
  have hroom : ((steps RoomManager.step .new (Sample.visited.take 2)).rooms.get? "s").any
      (fun room => 5 < room.expiresAt && room.peers.has "o" && room.peers.has "p") = true := by
    decide +kernel
  obtain ⟨room, hroom, hmembers⟩ := Option.any_eq_true _ _ |>.1 hroom
  simp only [Bool.and_eq_true, decide_eq_true_eq] at hmembers
  have hok : (steps RoomManager.step .new (Sample.visited.take 2)).relayWebRtc 5 Sample.toPeer =
      (_, .ok ⟨"s", "o", "p", Sample.toPeer⟩) :=
    relayWebRtc_ok.2 ⟨rfl, rfl, by decide, rfl, rfl, rfl, room, hroom, hmembers.1.1,
      hmembers.1.2, hmembers.2⟩
  exact (relayed_iff_members (Sample.visited.take 2) 5 Sample.toPeer (by decide +kernel)
    (by decide +kernel) (by decide)).1 ⟨_, congrArg Prod.snd hok⟩

end PonsWarp.Signaling
