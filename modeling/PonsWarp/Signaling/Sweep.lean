import PonsWarp.Signaling.Rooms

set_option autoImplicit false

/-!
`cleanupExpired` beside the other calls: when their answers tell whether it has run.
-/

namespace PonsWarp.Signaling

open PonsWarp.Data PonsWarp.Core

variable {F : Type}

def RoomCall.sweeps : RoomCall F → Bool
  | .cleanupExpired => true
  | _ => false

/-- The calls with calls of `cleanupExpired` put in, at a clock that does not go back. -/
def Sweeping (calls l : List (Number × RoomCall F)) : Prop :=
  l.filter (fun x => !x.2.sweeps) = calls ∧ (l.map Prod.fst).Pairwise (· ≤ ·)

namespace RoomManager

/-- What the calls other than `cleanupExpired` answer. One error is like another. -/
def answers (m : RoomManager F) : List (Number × RoomCall F) → List (Option (RoomAnswer F))
  | [] => []
  | x :: rest =>
    (if x.2.sweeps then [] else [(m.call x.1 x.2).2.toOption]) ++ (m.step x).answers rest

/-- No expired room stands in the way of a creation or is left by one of its peers. -/
def Prompt (m : RoomManager F) (x : Number × RoomCall F) : Prop :=
  ∀ s room, m.rooms.get? s = some room → room.expiresAt ≤ x.1 →
    (∀ owner files ttl, x.2 ≠ .createSession s owner files ttl) ∧
      ∀ p, x.2 = .leaveSession s p → room.peers.has p = false

variable {m m' : RoomManager F} {now : Number} {s : SessionId} {p : PeerId}

theorem getMutableLiveRoom_dead
    (h : ∀ room, m.rooms.get? s = some room → room.expiresAt ≤ now) :
    (m.getMutableLiveRoom now s).2.toOption = none ∧
      ∀ a, (m.getMutableLiveRoom now s).1.rooms.get? a =
        if a = s then none else m.rooms.get? a := by
  unfold getMutableLiveRoom
  cases hroom : m.rooms.get? s with
  | none =>
    refine ⟨rfl, fun a => ?_⟩
    by_cases ha : a = s
    · simp [ha, hroom]
    · simp [ha]
  | some room =>
    simp only [if_pos (h room hroom)]
    exact ⟨rfl, fun a => OrderedMap.get?_delete _ _ _⟩

/-- A lookup finds the same in the swept rooms. -/
theorem Settles.getMutableLiveRoom (h : Settles now m m') (s : SessionId) :
    (m'.getMutableLiveRoom now s).2.toOption = (m.getMutableLiveRoom now s).2.toOption ∧
      Settles now (m.getMutableLiveRoom now s).1 (m'.getMutableLiveRoom now s).1 := by
  by_cases hdead : ∀ room, m.rooms.get? s = some room → room.expiresAt ≤ now
  · have hdead' : ∀ room, m'.rooms.get? s = some room → room.expiresAt ≤ now :=
      fun room hroom => hdead room (h.1 s room hroom)
    obtain ⟨hnone, hrooms⟩ := getMutableLiveRoom_dead hdead
    obtain ⟨hnone', hrooms'⟩ := getMutableLiveRoom_dead hdead'
    refine ⟨hnone'.trans hnone.symm, fun a room ha => ?_, fun a room ha hlive => ?_⟩
    · rw [hrooms'] at ha
      rw [hrooms]
      split at ha
      · cases ha
      · rw [if_neg ‹_›]
        exact h.1 a room ha
    · rw [hrooms] at ha
      rw [hrooms']
      split at ha
      · cases ha
      · rw [if_neg ‹_›]
        exact h.2 a room ha hlive
  · push Not at hdead
    obtain ⟨room, hroom, hlive⟩ := hdead
    have heq := getMutableLiveRoom_ok.2 ⟨rfl, hroom, hlive⟩
    have heq' := getMutableLiveRoom_ok.2 ⟨rfl, h.2 s room hroom hlive, hlive⟩
    rw [heq, heq']
    exact ⟨rfl, h⟩

theorem Settles.missing (h : Settles now m m') (hnone : m.rooms.get? s = none) :
    m'.rooms.get? s = none := by
  by_contra hsome
  obtain ⟨room, hroom⟩ := Option.ne_none_iff_exists'.1 hsome
  rw [h.1 s room hroom] at hnone
  cases hnone

theorem Settles.delete (h : Settles now m m') (s : SessionId) :
    Settles now ⟨m.rooms.delete s⟩ ⟨m'.rooms.delete s⟩ := by
  refine ⟨fun a found ha => ?_, fun a found ha hlive => ?_⟩
  · obtain ⟨hne, ha⟩ := OrderedMap.get?_delete_eq_some.1 ha
    exact OrderedMap.get?_delete_eq_some.2 ⟨hne, h.1 a found ha⟩
  · obtain ⟨hne, ha⟩ := OrderedMap.get?_delete_eq_some.1 ha
    exact OrderedMap.get?_delete_eq_some.2 ⟨hne, h.2 a found ha hlive⟩

theorem Settles.set (h : Settles now m m') (s : SessionId) (room : MutableRoomRecord F) :
    Settles now ⟨m.rooms.set s room⟩ ⟨m'.rooms.set s room⟩ := by
  refine ⟨fun a found ha => ?_, fun a found ha hlive => ?_⟩
  · simp only [OrderedMap.get?_set] at ha ⊢
    split at ha
    · simp [*]
    · simp only [if_neg ‹_›]
      exact h.1 a found ha
  · simp only [OrderedMap.get?_set] at ha ⊢
    split at ha
    · simp [*]
    · simp only [if_neg ‹_›]
      exact h.2 a found ha hlive

theorem Settles.joinSession (h : Settles now m m') (s : SessionId) (p : PeerId) :
    (m'.joinSession now s p).2.toOption = (m.joinSession now s p).2.toOption ∧
      Settles now (m.joinSession now s p).1 (m'.joinSession now s p).1 := by
  have hlook := h.getMutableLiveRoom s
  unfold RoomManager.joinSession
  rcases heq : m.getMutableLiveRoom now s with ⟨m₁, err | room⟩ <;>
    rcases heq' : m'.getMutableLiveRoom now s with ⟨m₂, err' | room'⟩ <;>
    rw [heq, heq'] at hlook
  · exact ⟨rfl, hlook.2⟩
  · cases hlook.1
  · cases hlook.1
  · cases hlook.1
    exact ⟨rfl, hlook.2.set s _⟩

theorem Settles.getLiveRoom (h : Settles now m m') (s : SessionId) :
    (m'.getLiveRoom now s).2.toOption = (m.getLiveRoom now s).2.toOption ∧
      Settles now (m.getLiveRoom now s).1 (m'.getLiveRoom now s).1 := by
  have hlook := h.getMutableLiveRoom s
  unfold RoomManager.getLiveRoom
  rcases heq : m.getMutableLiveRoom now s with ⟨m₁, err | room⟩ <;>
    rcases heq' : m'.getMutableLiveRoom now s with ⟨m₂, err' | room'⟩ <;>
    rw [heq, heq'] at hlook
  · exact ⟨rfl, hlook.2⟩
  · cases hlook.1
  · cases hlook.1
  · cases hlook.1
    exact ⟨rfl, hlook.2⟩

/-- The rooms change by the lookup at most. -/
theorem relayWebRtc_rooms (now : Number) (envelope : SignalingEnvelope F) :
    (∀ m : RoomManager F, (m.relayWebRtc now envelope).1 = m) ∨
      ∃ s, ∀ m : RoomManager F, (m.relayWebRtc now envelope).1 = (m.getMutableLiveRoom now s).1 := by
  unfold relayWebRtc
  split
  · rename_i s _ _ _ _ _
    split
    · exact .inl fun m => rfl
    · refine .inr ⟨s, fun m => ?_⟩
      rcases m.getMutableLiveRoom now s with ⟨m₁, err | room⟩
      · rfl
      · simp only
        split
        · rfl
        · split <;> rfl
  · exact .inl fun m => rfl

theorem toOption_congr {α : Type} {x y : Except String α} (h : ∀ a, x = .ok a ↔ y = .ok a) :
    x.toOption = y.toOption := by
  cases x with
  | ok a =>
    rw [(h a).1 rfl]
  | error err =>
    cases y with
    | ok b => cases (h b).2 rfl
    | error err' => rfl

theorem toOption_map {α β : Type} {x y : Except String α} {f : α → β}
    (h : x.toOption = y.toOption) : (x.map f).toOption = (y.map f).toOption := by
  cases x <;> cases y <;> cases h <;> rfl

theorem Settles.relayWebRtc (h : Settles now m m') (envelope : SignalingEnvelope F) :
    (m'.relayWebRtc now envelope).2.toOption = (m.relayWebRtc now envelope).2.toOption ∧
      Settles now (m.relayWebRtc now envelope).1 (m'.relayWebRtc now envelope).1 := by
  constructor
  · refine toOption_congr fun relay => ?_
    constructor
    · intro hok
      obtain ⟨-, he, htype, hs, hp, hq, room, hroom, hlive, hmembers⟩ :=
        relayWebRtc_ok.1 (Prod.ext rfl hok : m'.relayWebRtc now envelope = (_, .ok relay))
      have hok' := relayWebRtc_ok.2
        ⟨rfl, he, htype, hs, hp, hq, room, h.1 _ room hroom, hlive, hmembers⟩
      exact congrArg Prod.snd hok'
    · intro hok
      obtain ⟨-, he, htype, hs, hp, hq, room, hroom, hlive, hmembers⟩ :=
        relayWebRtc_ok.1 (Prod.ext rfl hok : m.relayWebRtc now envelope = (_, .ok relay))
      have hok' := relayWebRtc_ok.2
        ⟨rfl, he, htype, hs, hp, hq, room, h.2 _ room hroom hlive, hlive, hmembers⟩
      exact congrArg Prod.snd hok'
  · rcases relayWebRtc_rooms now envelope with hsame | ⟨s, hlook⟩
    · rw [hsame, hsame]
      exact h
    · rw [hlook, hlook]
      exact (h.getMutableLiveRoom s).2

theorem Settles.createSession (h : Settles now m m') {s : SessionId} {owner : PeerId}
    {files : List F} {ttl : Number} (hp : m.Prompt (now, .createSession s owner files ttl)) :
    (m'.call now (.createSession s owner files ttl)).2.toOption =
        (m.call now (.createSession s owner files ttl)).2.toOption ∧
      Settles now (m.step (now, .createSession s owner files ttl))
        (m'.step (now, .createSession s owner files ttl)) := by
  unfold step call RoomManager.createSession
  cases hroom : m.rooms.get? s with
  | none =>
    have hnone : m'.rooms.get? s = none := h.missing hroom
    simp only [OrderedMap.has, hroom, hnone]
    exact ⟨rfl, h.set s _⟩
  | some room =>
    have hlive : now < room.expiresAt := by
      by_contra hdead
      exact (hp s room hroom (not_lt.1 hdead)).1 owner files ttl rfl
    simp only [OrderedMap.has, hroom, h.2 s room hroom hlive]
    exact ⟨rfl, h⟩

/-- A room is as it was after a peer that is not in it leaves. -/
theorem leaveSession_stranger (ho : m.Owned) {room : MutableRoomRecord F}
    (hroom : m.rooms.get? s = some room) (hp : room.peers.has p = false) :
    (m.leaveSession s p).2 = false ∧
      ∀ a, (m.leaveSession s p).1.rooms.get? a = m.rooms.get? a := by
  have howner := ho s room hroom
  have hne : p ≠ room.ownerPeerId := by
    intro he
    rw [← he, hp] at howner
    cases howner
  have hsize := size_delete_ne_zero howner hne
  have hsame := OrderedMap.delete_of_get? (OrderedMap.has_eq_false_iff.1 hp)
  refine ⟨by simp [leaveSession, hroom, hp], fun a => ?_⟩
  by_cases ha : a = s
  · subst ha
    rw [leaveSession_room hroom, hroom, if_neg (by simp [hne, hsize]), hsame]
  · exact leaveSession_of_ne m p ha

theorem Settles.leaveSession (h : Settles now m m') (ho : m.Owned) {s : SessionId} {p : PeerId}
    (hp : m.Prompt (now, .leaveSession s p)) :
    (m'.leaveSession s p).2 = (m.leaveSession s p).2 ∧
      Settles now (m.leaveSession s p).1 (m'.leaveSession s p).1 := by
  cases hroom : m.rooms.get? s with
  | none =>
    have hnone : m'.rooms.get? s = none := h.missing hroom
    have hstay : m.leaveSession s p = (m, false) := by simp [RoomManager.leaveSession, hroom]
    have hstay' : m'.leaveSession s p = (m', false) := by simp [RoomManager.leaveSession, hnone]
    rw [hstay, hstay']
    exact ⟨rfl, h⟩
  | some room =>
    by_cases hlive : now < room.expiresAt
    · have hroom' := h.2 s room hroom hlive
      unfold RoomManager.leaveSession
      simp only [hroom, hroom']
      refine ⟨trivial, ?_⟩
      split
      · exact h.delete s
      · exact h.set s _
    · have hgone := (hp s room hroom (not_lt.1 hlive)).2 p rfl
      obtain ⟨hno, hsame⟩ := leaveSession_stranger ho hroom hgone
      have hstranger : (m'.leaveSession s p).2 = false ∧
          ∀ a, (m'.leaveSession s p).1.rooms.get? a = m'.rooms.get? a := by
        cases hroom' : m'.rooms.get? s with
        | none => simp [RoomManager.leaveSession, hroom']
        | some room' =>
          have heq := h.1 s room' hroom'
          rw [hroom] at heq
          cases heq
          exact leaveSession_stranger (h.owned ho) hroom' hgone
      refine ⟨hstranger.1.trans hno.symm, fun a found ha => ?_, fun a found ha hl => ?_⟩
      · rw [hstranger.2] at ha
        rw [hsame]
        exact h.1 a found ha
      · rw [hsame] at ha
        rw [hstranger.2]
        exact h.2 a found ha hl

/-- Calls on rooms that differ by expired ones have the same answers. -/
theorem Settles.call (h : Settles now m m') (ho : m.Owned) {c : RoomCall F}
    (hp : m.Prompt (now, c)) (hc : c.sweeps = false) :
    (m'.call now c).2.toOption = (m.call now c).2.toOption ∧
      Settles now (m.step (now, c)) (m'.step (now, c)) := by
  cases c with
  | createSession s owner files ttl => exact h.createSession hp
  | joinSession s p =>
    have hjoin := h.joinSession s p
    exact ⟨toOption_map hjoin.1, hjoin.2⟩
  | leaveSession s p =>
    have hleave := h.leaveSession ho hp
    exact ⟨congrArg (fun deleted => some (RoomAnswer.left deleted)) hleave.1, hleave.2⟩
  | relayWebRtc envelope =>
    have hrelay := h.relayWebRtc envelope
    exact ⟨toOption_map hrelay.1, hrelay.2⟩
  | getLiveRoom s =>
    have hlook := h.getLiveRoom s
    exact ⟨toOption_map hlook.1, hlook.2⟩
  | cleanupExpired => cases hc

theorem answers_append (m : RoomManager F) (before after : List (Number × RoomCall F)) :
    m.answers (before ++ after) =
      m.answers before ++ (steps RoomManager.step m before).answers after := by
  induction before generalizing m with
  | nil => rfl
  | cons x rest ih => simp [answers, ih, steps]

/-- As long as the calls are prompt, those of the swept run have the answers of the other. -/
theorem answers_swept {l : List (Number × RoomCall F)} (h : ∀ x ∈ l, Settles x.1 m m')
    (ho : m.Owned) (hclock : (l.map Prod.fst).Pairwise (· ≤ ·))
    (hp : Allowed RoomManager.step Prompt m (l.filter fun x => !x.2.sweeps)) :
    m'.answers l = m.answers (l.filter fun x => !x.2.sweeps) := by
  induction l generalizing m m' with
  | nil => rfl
  | cons x rest ih =>
    obtain ⟨t, c⟩ := x
    simp only [List.map_cons, List.pairwise_cons, List.mem_map, forall_exists_index,
      and_imp] at hclock
    have hlater : ∀ y ∈ rest, t ≤ y.1 := fun y hy => hclock.1 y.1 y hy rfl
    have hsettles : Settles t m m' := h (t, c) List.mem_cons_self
    cases hc : c.sweeps with
    | true =>
      simp only [List.filter_cons, hc] at hp ⊢
      have hcleanup : Settles t m (m'.step (t, c)) := by
        cases c <;> cases hc
        exact hsettles.trans (settles_cleanupExpired m' t)
      have hrest := ih (fun y hy => hcleanup.later (hlater y hy)) ho hclock.2 hp
      simpa [answers, hc] using hrest
    | false =>
      simp only [List.filter_cons, hc] at hp ⊢
      have hcall := hsettles.call ho hp.1 hc
      have howned : (m.step (t, c)).Owned := (called m t c).owned ho
      have hrest := ih (fun y hy => hcall.2.later (hlater y hy)) howned hclock.2 hp.2
      simp [answers, hc, hcall.1, hrest]

theorem get?_cleanupExpired_dead {room : MutableRoomRecord F} (h : m.rooms.get? s = some room)
    (hdead : room.expiresAt ≤ now) : (m.cleanupExpired now).1.rooms.get? s = none := by
  by_contra hsome
  obtain ⟨found, hfound⟩ := Option.ne_none_iff_exists'.1 hsome
  obtain ⟨hsame, hlive⟩ := get?_cleanupExpired.1 hfound
  cases h.symm.trans hsame
  exact absurd hdead (not_le.2 hlive)

/-- A call that is not prompt tells whether the rooms were swept just before. -/
theorem prompt_of_answers {c : RoomCall F}
    (h : (m.call now c).2.toOption = ((m.cleanupExpired now).1.call now c).2.toOption) :
    m.Prompt (now, c) := by
  intro s room hroom hdead
  have hgone := get?_cleanupExpired_dead hroom hdead
  refine ⟨?_, ?_⟩
  · rintro owner files ttl rfl
    simp [call, createSession, OrderedMap.has, hroom, hgone, Except.toOption] at h
  · rintro p rfl
    simpa [call, leaveSession, hroom, hgone, Except.toOption] using h

end RoomManager

open RoomManager

/-- Where `cleanupExpired` is called cannot be told from the other calls if and only if none of
them creates an expired room again or is the leave of a peer still in one. -/
theorem cleanup_is_invisible_iff {calls : List (Number × RoomCall F)}
    (hcalls : ∀ x ∈ calls, x.2.sweeps = false)
    (hclock : (calls.map Prod.fst).Pairwise (· ≤ ·)) :
    (∀ l₁ l₂, Sweeping calls l₁ → Sweeping calls l₂ →
      RoomManager.new.answers l₁ = RoomManager.new.answers l₂) ↔
      Allowed RoomManager.step Prompt .new calls := by
  have hself : calls.filter (fun x => !x.2.sweeps) = calls :=
    List.filter_eq_self.2 fun x hx => by simp [hcalls x hx]
  constructor
  · intro hall
    refine allowed_iff.2 fun before x after heq => ?_
    obtain ⟨t, c⟩ := x
    -- the other run sweeps right before the call
    have hswept : Sweeping calls (before ++ (t, .cleanupExpired) :: (t, c) :: after) := by
      constructor
      · rw [← hself, heq]
        simp [List.filter_cons, RoomCall.sweeps]
      · rw [heq] at hclock
        simp only [List.map_append, List.map_cons, List.pairwise_append, List.pairwise_cons,
          List.mem_cons] at hclock ⊢
        obtain ⟨hbefore, ⟨hafter, hrest⟩, hcross⟩ := hclock
        refine ⟨hbefore, ⟨?_, hafter, hrest⟩, ?_⟩
        · rintro u (rfl | hu)
          · exact le_rfl
          · exact hafter u hu
        · rintro u hu v (rfl | hv)
          · exact hcross u hu _ (.inl rfl)
          · exact hcross u hu v hv
    have hanswers := hall calls _ ⟨hself, hclock⟩ hswept
    have hc : c.sweeps = false := hcalls (t, c) (by simp [heq])
    rw [heq, answers_append, answers_append, List.append_cancel_left_eq] at hanswers
    have hcleanup : (RoomCall.cleanupExpired : RoomCall F).sweeps = true := rfl
    simp only [answers, hc, hcleanup, if_true, List.nil_append, Bool.false_eq_true, if_false,
      List.cons_append, List.cons.injEq] at hanswers
    exact prompt_of_answers hanswers.1
  · intro hprompt l₁ l₂ h₁ h₂
    have hanswers : ∀ l, Sweeping calls l →
        RoomManager.new.answers l = RoomManager.new.answers calls := by
      intro l hl
      obtain ⟨rfl, hl⟩ := hl
      have howned : (RoomManager.new : RoomManager F).Owned := by
        intro s room hroom
        cases hroom
      exact answers_swept (fun x _ => .refl _) howned hl hprompt
    rw [hanswers l₁ h₁, hanswers l₂ h₂]

namespace Sample

/-- A session, and one of the same name after it has expired. -/
def again : List (Number × RoomCall Unit) :=
  [(0, .createSession "s" "o" [] 10), (20, .createSession "s" "o" [] 10)]

end Sample

theorem cleanup_is_invisible_iff_sample :
    RoomManager.new.answers Sample.visited =
      RoomManager.new.answers ((-5, .cleanupExpired) :: Sample.visited) := by
  have hprompt : Allowed RoomManager.step Prompt .new Sample.visited := by
    refine ⟨fun s room hroom => ?_, fun s room hroom hdead => ?_, fun s room hroom hdead => ?_,
      trivial⟩
    · cases hroom
    · exact ⟨fun _ _ _ h => (by cases h), fun _ h => (by cases h)⟩
    · refine ⟨fun _ _ _ h => (by cases h), fun p h => ?_⟩
      cases h
      have hlive : ((steps RoomManager.step .new (Sample.visited.take 2)).rooms.get? "s").all
          (fun room => 2 < room.expiresAt) = true := by decide +kernel
      have hroom' : (steps RoomManager.step .new (Sample.visited.take 2)).rooms.get? "s" =
          some room := hroom
      rw [hroom'] at hlive
      exact absurd hdead (not_le.2 (of_decide_eq_true hlive))
  exact (cleanup_is_invisible_iff (by decide +kernel) (by decide +kernel)).2 hprompt _ _
    ⟨rfl, by decide +kernel⟩ ⟨rfl, by decide +kernel⟩

/-- A session that has expired can be created again only after a sweep. -/
theorem cleanup_frees_expired_session :
    ∃ l₁ l₂, Sweeping Sample.again l₁ ∧ Sweeping Sample.again l₂ ∧
      RoomManager.new.answers l₁ ≠ RoomManager.new.answers l₂ := by
  refine ⟨Sample.again, [Sample.again[0], (20, .cleanupExpired), Sample.again[1]],
    ⟨rfl, by decide +kernel⟩, ⟨rfl, by decide +kernel⟩, fun h => ?_⟩
  have hfirst : (RoomManager.new.answers Sample.again)[1]?.map Option.isSome = some false := by
    decide +kernel
  rw [h] at hfirst
  revert hfirst
  decide +kernel

end PonsWarp.Signaling
