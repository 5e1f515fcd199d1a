import PonsWarp.Signaling.Moves

set_option autoImplicit false

/-!
Rooms list who is there. A member is attended if an attached connection stands for it;
a connection that turns to another identity leaves its earlier membership behind.
-/

namespace PonsWarp.Signaling

open PonsWarp.Data PonsWarp.Core

variable {F : Type}

namespace SignalingGateway

/-- An attached connection, of those that `ok` allows, stands for the peer. -/
def Present (g : SignalingGateway F) (ok : ConnectionId → Prop) (s : SessionId) (p : PeerId) :
    Prop :=
  ∃ c ∈ g.peers, ok c ∧ g.identity c = (some s, some p)

/-- Every peer listed in a room has an attached connection that stands for it. -/
def Attended (g : SignalingGateway F) : Prop :=
  ∀ s p, g.roomManager.Member s p → g.Present (fun _ => True) s p

/-- Whom the connection stands for has another attached connection, or is the one named, or is
in no room. -/
def Succeeded (g : SignalingGateway F) (rooms : RoomManager F) (c : ConnectionId) (s : SessionId)
    (p : PeerId) : Prop :=
  ∀ s' p', g.identity c = (some s', some p') → rooms.Member s' p' → (s' = s ∧ p' = p) ∨
    g.Present (· ≠ c) s' p'

/-- What an action may not do if members are to stay attended: stand for a peer on a connection
that is gone, turn away from a membership, end a membership other than its own, or go while
bound to an empty id. -/
def Faithful (cfg : SignalingServerConfig) (g : SignalingGateway F) : Moment × Action F → Prop
  | (_, .attach _) => True
  | (_, .text _ (.error _)) => True
  | (m, .text c (.ok envelope)) =>
    (∀ s p, g.Registers cfg m envelope s p → c ∈ g.peers ∧ g.Succeeded g.roomManager c s p) ∧
    ∀ s p, Releases envelope s p → g.Succeeded (g.roomManager.leaveSession s p).1 c s p
  | (_, .closed c) => (g.connection c).closed = true ∨
    ∀ s p, g.identity c = (some s, some p) → g.roomManager.Member s p →
      g.binding c = some (s, p) ∨ g.Present (· ≠ c) s p
  | (m, .cleanup) => ∀ c ∈ g.peers, g.Stale (m.now - cfg.stalePeerTimeoutMs) c →
    ∀ s p, g.identity c = (some s, some p) → g.roomManager.Member s p →
      g.binding c = some (s, p) ∨
        g.Present (fun d => ¬ g.Stale (m.now - cfg.stalePeerTimeoutMs) d) s p

/-- A connection that stands for nobody leaves nobody behind. -/
theorem succeeded_of_none {g : SignalingGateway F} {c : ConnectionId}
    (h : g.identity c = (none, none)) (rooms : RoomManager F) (s : SessionId) (p : PeerId) :
    g.Succeeded rooms c s p := by
  intro s' p' hid
  cases h.symm.trans hid

theorem Attended.took {g g' : SignalingGateway F} {c : ConnectionId} {s : SessionId} {p : PeerId}
    (hr : g.Attended) (h : Took c s p g g') (hc : c ∈ g.peers)
    (hs : g.Succeeded g.roomManager c s p) : g'.Attended := by
  have hself : g'.Present (fun _ => True) s p :=
    ⟨c, h.peers ▸ hc, trivial, by rw [h.identity, if_pos rfl]⟩
  intro s' p' hm
  obtain hold | ⟨rfl, rfl⟩ := (h.member s' p').1 hm
  · obtain ⟨d, hd, -, hid⟩ := hr s' p' hold
    by_cases hdc : d = c
    · subst hdc
      obtain ⟨rfl, rfl⟩ | ⟨e, he, hne, hother⟩ := hs s' p' hid hold
      · exact hself
      · exact ⟨e, h.peers ▸ he, trivial, by rw [h.identity, if_neg hne, hother]⟩
    · exact ⟨d, h.peers ▸ hd, trivial, by rw [h.identity, if_neg hdc, hid]⟩
  · exact hself

theorem Attended.left {g g' : SignalingGateway F} {c : ConnectionId} {s : SessionId} {p : PeerId}
    (hr : g.Attended) (h : Left c s p g g')
    (hs : g.Succeeded (g.roomManager.leaveSession s p).1 c s p) : g'.Attended := by
  intro s' p' hm
  rw [h.rooms] at hm
  obtain ⟨hold, hother⟩ := RoomManager.member_leaveSession_iff.1 hm
  obtain ⟨d, hd, -, hid⟩ := hr s' p' hold
  by_cases hdc : d = c
  · subst hdc
    obtain ⟨rfl, rfl⟩ | ⟨e, he, hne, hsame⟩ := hs s' p' hid hm
    · exact absurd ⟨rfl, .inl rfl⟩ hother
    · exact ⟨e, h.peers ▸ he, trivial, by rw [h.identity, if_neg hne, hsame]⟩
  · exact ⟨d, h.peers ▸ hd, trivial, by rw [h.identity, if_neg hdc, hid]⟩

theorem Attended.same {g g' : SignalingGateway F} (hr : g.Attended) (h : Same g g') : g'.Attended := by
  intro s p hm
  obtain ⟨c, hc, -, hid⟩ := hr s p (h.member s p hm)
  exact ⟨c, h.peers ▸ hc, trivial, (h.identity c).trans hid⟩

theorem Attended.went {g g' : SignalingGateway F} {c : ConnectionId} (hr : g.Attended) (h : Went c g g')
    (hs : ∀ s p, g.identity c = (some s, some p) → g.roomManager.Member s p →
      g.binding c = some (s, p) ∨ g.Present (· ≠ c) s p) : g'.Attended := by
  intro s p hm
  obtain ⟨hold, hother⟩ := h.member s p hm
  obtain ⟨d, hd, -, hid⟩ := hr s p hold
  have hstays : ∀ e ∈ g.peers, e ≠ c → e ∈ g'.peers := by
    intro e he hne
    rw [h.peers]
    exact List.mem_filter.2 ⟨he, by simpa using hne⟩
  by_cases hdc : d = c
  · subst hdc
    obtain hbound | ⟨e, he, hne, hsame⟩ := hs s p hid hold
    · exact absurd hbound hother
    · exact ⟨e, hstays e he hne, trivial, (h.identity e).trans hsame⟩
  · exact ⟨d, hstays d hd hdc, trivial, (h.identity d).trans hid⟩

theorem attended_dropStale {g : SignalingGateway F} {m : Moment} {cutoff : Number}
    {l : List ConnectionId} {n : Nat} (hr : g.Attended)
    (hs : ∀ c ∈ l, g.Stale cutoff c → ∀ s p, g.identity c = (some s, some p) →
      g.roomManager.Member s p →
      g.binding c = some (s, p) ∨ g.Present (fun d => ¬ g.Stale cutoff d) s p) :
    (dropStale m cutoff l n g).1.Attended := by
  induction l generalizing n g with
  | nil => exact hr
  | cons c rest ih =>
    unfold dropStale
    split
    · rename_i hstale
      have hgo := goes_drop g m c 4000 "stale peer"
      have hwent := went_drop g m c 4000 "stale peer"
      set g' := (g.close m c 4000 "stale peer").detach m c
      have hsame : ∀ d, g'.Stale cutoff d ↔ g.Stale cutoff d := by
        intro d
        simp only [Stale, hgo.seen d]
      have hfresh : ∀ s p, g.Present (fun d => ¬ g.Stale cutoff d) s p →
          g.Present (· ≠ c) s p := by
        rintro s p ⟨d, hd, hdf, hid⟩
        exact ⟨d, hd, fun he => hdf (he ▸ hstale), hid⟩
      refine ih (hr.went hwent fun s p hid hm => ?_) fun d hd hds s p hid hm => ?_
      · exact (hs c (by simp) hstale s p hid hm).imp_right (hfresh s p)
      · obtain hbound | ⟨e, he, hef, hsame'⟩ := hs d (by simp [hd]) ((hsame d).1 hds) s p
          ((hwent.identity d).symm.trans hid) (hwent.member s p hm).1
        · exact .inl ((binding_of_identity (hwent.identity d)).trans hbound)
        · refine .inr ⟨e, ?_, mt (hsame e).1 hef, (hwent.identity e).trans hsame'⟩
          rw [hwent.peers]
          exact List.mem_filter.2 ⟨he, by simpa using fun he' : e = c => hef (he' ▸ hstale)⟩
    · exact ih hr fun d hd => hs d (by simp [hd])

theorem attended_step {cfg : SignalingServerConfig} {g : SignalingGateway F} {a : Moment × Action F}
    (hr : g.Attended) (h : g.Faithful cfg a) : (g.step cfg a).Attended := by
  obtain ⟨m, a⟩ := a
  cases a with
  | attach c =>
    intro s p hm
    obtain ⟨d, hd, -, hid⟩ := hr s p hm
    refine ⟨d, mem_insertNew.2 (.inl hd), trivial, ?_⟩
    exact ((same_putConnection (g := g) (c := c)
      (v := { g.connection c with lastSeenAt := m.now }) rfl rfl).identity d).trans hid
  | text c decoded =>
    obtain hsame | ⟨envelope, rfl, ⟨s, p, hreg, htook⟩ | ⟨s, p, hrel, hleft⟩⟩ :=
      @handleText_spec F cfg g m c decoded
    · exact hr.same hsame
    · obtain ⟨hc, hs⟩ := h.1 s p hreg
      exact hr.took htook hc hs
    · exact hr.left hleft (h.2 s p hrel)
  | closed c =>
    obtain hclosed | hs := h
    · have hnone : g.step cfg (m, .closed c) = g := by
        simp [SignalingGateway.step, handleClose, hclosed]
      rw [hnone]
      exact hr
    · by_cases hopen : (g.connection c).closed = false
      · exact hr.went (went_handleClose g m hopen) hs
      · have hnone : g.step cfg (m, .closed c) = g := by
          simp [SignalingGateway.step, handleClose, hopen]
        rw [hnone]
        exact hr
  | cleanup =>
    have hdrop : (dropStale m (m.now - cfg.stalePeerTimeoutMs) g.peers 0 g).1.Attended :=
      attended_dropStale hr h
    exact hdrop.same (same_rooms fun s p hm => RoomManager.Member.of_cleanupExpired hm)

end SignalingGateway

open SignalingGateway

/-- No ghost members in any run whose actions are all faithful. -/
theorem members_are_attended {cfg : SignalingServerConfig} {g : SignalingGateway F}
    (hrun : Run (SignalingGateway.step cfg) (Faithful cfg) .new g) : g.Attended := by
  refine hrun.invariant (fun _ _ hr h => attended_step hr h) ?_
  rintro s p ⟨room, hroom, -⟩
  cases hroom

/-- A connection that opens a second session leaves the owner of the first one behind. -/
theorem second_session_leaves_ghost :
    let g := steps (SignalingGateway.step Sample.config) (.new : SignalingGateway Unit)
      ([.attach 0, .text 0 (Sample.message .CREATE_SESSION none none (.create "o" [])),
        .text 0 (.ok ⟨"m", .CREATE_SESSION, some "t", none, none, 10, .create "o" []⟩),
        .closed 0].map (Sample.moment, ·))
    g.roomManager.Member "s" "o" ∧ g.peers = [] ∧ ¬ g.Attended := by
  intro g
  have hmember : g.roomManager.Member "s" "o" := by decide +kernel
  have hpeers : g.peers = [] := by decide +kernel
  refine ⟨hmember, hpeers, fun hattended => ?_⟩
  obtain ⟨c, hc, -⟩ := hattended "s" "o" hmember
  simp [hpeers] at hc

/-- The owner opens a session, a peer joins and leaves by message, and the owner goes. -/
theorem members_are_attended_sample :
    (steps (SignalingGateway.step Sample.config) (.new : SignalingGateway Unit)
      ([.attach 0, .text 0 (Sample.message .CREATE_SESSION none none (.create "o" [])),
        .attach 1, .text 1 (Sample.message .JOIN_SESSION (some "p") none (.other "")),
        .text 1 (Sample.message .PEER_LEFT (some "p") none (.peer "p" none)),
        .closed 0].map (Sample.moment, ·))).Attended := by
  refine members_are_attended (run_of_allowed
    ⟨trivial, ⟨fun s p h => ?_, fun s p h => ?_⟩, trivial, ⟨fun s p h => ?_, fun s p h => ?_⟩,
      ⟨fun s p h => ?_, fun s p h => ?_⟩, .inr fun s p h hm => .inl ?_, trivial⟩)
  · exact ⟨by decide +kernel, succeeded_of_none (by decide +kernel) _ s p⟩
  · exact absurd h.1 (by decide)
  · exact ⟨by decide +kernel, succeeded_of_none (by decide +kernel) _ s p⟩
  · exact absurd h.1 (by decide)
  · obtain ⟨htype, -⟩ | ⟨htype, -⟩ := h <;> cases htype
  · obtain ⟨-, hclaims⟩ := h
    cases (show some ("s", "p") = some (s, p) from hclaims)
    intro s' p' hid hm
    have hself : (some "s", some "p") = (some s', some p') := by
      rw [← hid]
      decide +kernel
    cases hself
    exact .inl ⟨rfl, rfl⟩
  · have hself : (some "s", some "o") = (some s, some p) := by
      rw [← h]
      decide +kernel
    cases hself
    decide +kernel

end PonsWarp.Signaling
