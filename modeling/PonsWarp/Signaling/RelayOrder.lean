import Mathlib.Data.List.Induction
import PonsWarp.Signaling.Departures
import PonsWarp.Signaling.Identity

set_option autoImplicit false

/-!
Offers, answers and candidates on their way through the gateway. A message is relayed while the
gateway handles it or not at all, so what the connections get of each other is in the order in
which it came in.
-/

namespace PonsWarp.Signaling

open PonsWarp.Data PonsWarp.Core

variable {F : Type}

instance decidableWebRtc (envelope : SignalingEnvelope F) : Decidable envelope.WebRtc :=
  inferInstanceAs (Decidable (envelope.type ∈
    [SignalingMessageType.WEBRTC_OFFER, .WEBRTC_ANSWER, .ICE_CANDIDATE]))

/-- The envelope that the effect relays, with the connection it goes to. -/
def Effect.relay? : Effect F → Option (ConnectionId × SignalingEnvelope F)
  | .send c envelope => if envelope.WebRtc then some (c, envelope) else none
  | _ => none

/-- The envelope that a client hands in to be relayed. -/
def ServerEvent.relay? : Moment × ServerEvent F → Option (SignalingEnvelope F)
  | (_, .act (.text _ (.ok envelope))) => if envelope.WebRtc then some envelope else none
  | _ => none

namespace SignalingGateway

variable {g g' : SignalingGateway F} {c d : ConnectionId} {s : SessionId} {p q : PeerId}
  {m : Moment} {cfg : SignalingServerConfig} {envelope : SignalingEnvelope F}

/-- What was relayed, and to which connections. -/
def relays (g : SignalingGateway F) : List (ConnectionId × SignalingEnvelope F) :=
  g.log.filterMap Effect.relay?

@[simp] theorem relays_rooms (g : SignalingGateway F) (rooms : RoomManager F) :
    relays { g with roomManager := rooms } = g.relays := rfl

@[simp] theorem relays_putConnection (g : SignalingGateway F) (c : ConnectionId) (v : Connection) :
    (g.putConnection c v).relays = g.relays := rfl

@[simp] theorem relays_bind (g : SignalingGateway F) (c : ConnectionId) (s : SessionId)
    (p : PeerId) : (g.bind c s p).relays = g.relays := rfl

@[simp] theorem relays_emit (g : SignalingGateway F) (event : SignalingGatewayEvent F) :
    (g.emit event).relays = g.relays := by
  simp [relays, emit, List.filterMap_append, Effect.relay?]

theorem relays_log {l : List (Effect F)} (hl : ∀ x ∈ l, x.relay? = none) :
    relays { g with log := g.log ++ l } = g.relays := by
  have hnone : l.filterMap Effect.relay? = [] := List.filterMap_eq_nil_iff.2 hl
  simp [relays, hnone]

theorem relays_send (h : ¬ envelope.WebRtc) : (g.send c envelope).relays = g.relays := by
  obtain ⟨l, hl, hsent⟩ := g.send_eq c envelope
  rw [hl]
  refine relays_log fun x hx => ?_
  rw [hsent x hx, Effect.relay?, if_neg h]

theorem relays_broadcast (h : ¬ envelope.WebRtc) :
    (g.broadcast s envelope p).relays = g.relays := by
  obtain ⟨l, hl, hsent⟩ := g.broadcast_eq s envelope p
  rw [hl]
  refine relays_log fun x hx => ?_
  obtain ⟨d, rfl, -⟩ := hsent x hx
  rw [Effect.relay?, if_neg h]

@[simp] theorem relays_sendError (g : SignalingGateway F) (m : Moment) (c : ConnectionId)
    (session : Option SessionId) (peer : Option PeerId) (message code : String) :
    (g.sendError m c session peer message code).relays = g.relays :=
  relays_send (by simp [SignalingEnvelope.WebRtc])

@[simp] theorem relays_leave (g : SignalingGateway F) (m : Moment) (s : SessionId) (p : PeerId) :
    (g.leave m s p).relays = g.relays := by
  rw [leave, broadcastPeerLeft, relays_broadcast (by simp [SignalingEnvelope.WebRtc])]
  rfl

@[simp] theorem relays_detach (g : SignalingGateway F) (m : Moment) (c : ConnectionId) :
    (g.detach m c).relays = g.relays := by
  unfold detach
  simp only
  split
  · simp only [relays_emit, relays_leave]
    rfl
  · rfl

@[simp] theorem relays_handleClose (g : SignalingGateway F) (m : Moment) (c : ConnectionId) :
    (g.handleClose m c).relays = g.relays := by
  unfold handleClose
  split <;> simp

@[simp] theorem relays_close (g : SignalingGateway F) (m : Moment) (c : ConnectionId) (code : Nat)
    (reason : String) : (g.close m c code reason).relays = g.relays := by
  unfold close
  split
  · rfl
  · rw [relays_handleClose]
    exact relays_log (by simp [Effect.relay?])

theorem relays_dropStale (m : Moment) (cutoff : Number) (l : List ConnectionId) (n : Nat)
    (g : SignalingGateway F) : (dropStale m cutoff l n g).1.relays = g.relays := by
  induction l generalizing n g with
  | nil => rfl
  | cons c rest ih =>
    unfold dropStale
    split
    · rw [ih, relays_detach, relays_close]
    · exact ih n g

theorem relays_handleEnvelope (h : ¬ envelope.WebRtc) :
    (g.handleEnvelope cfg m c envelope).1.relays = g.relays := by
  unfold handleEnvelope
  split
  · unfold handleCreateSession
    simp only
    split
    · rfl
    · rw [relays_emit, relays_send (by simp [SignalingEnvelope.WebRtc])]
      rfl
  · unfold handleJoinSession
    split
    · split
      · rfl
      · split
        · rfl
        · simp only [relays_emit, broadcastPeerJoined]
          rw [relays_broadcast (by simp [SignalingEnvelope.WebRtc]),
            relays_send (by simp [SignalingEnvelope.WebRtc])]
          rfl
    · rfl
  · rename_i htype
    exact absurd (by simp [SignalingEnvelope.WebRtc, htype]) h
  · rename_i htype
    exact absurd (by simp [SignalingEnvelope.WebRtc, htype]) h
  · rename_i htype
    exact absurd (by simp [SignalingEnvelope.WebRtc, htype]) h
  · split
    · simp [handleLeave]
    · rfl
  · simp

theorem relays_handleText (decoded : Except String (SignalingEnvelope F))
    (h : ∀ envelope, decoded = .ok envelope → ¬ envelope.WebRtc) :
    (g.handleText cfg m c decoded).relays = g.relays := by
  unfold handleText
  cases decoded with
  | error err => simp
  | ok envelope =>
    have hnone := @relays_handleEnvelope F
      (g.putConnection c { g.connection c with lastSeenAt := m.now }) c m cfg envelope (h _ rfl)
    simp only
    split
    · rename_i heq
      rw [heq] at hnone
      simpa using hnone
    · rename_i heq
      rw [heq] at hnone
      simpa using hnone

/-- The connection gets the envelope under a name it stands for, from a member of the room. -/
structure Addressed (g : SignalingGateway F) (d : ConnectionId) (envelope : SignalingEnvelope F)
    (s : SessionId) (p q : PeerId) : Prop where
  claims : envelope.claims = some (s, p)
  target : truthy envelope.toPeerId = some q
  stands : g.identity d = (some s, some q)
  member : g.roomManager.Member s p

/-- A message of the three types is relayed to one connection, or not at all. -/
theorem handleText_relays (h : envelope.WebRtc) :
    (g.handleText cfg m c (.ok envelope)).relays = g.relays ∨
      ∃ d s p q, (g.handleText cfg m c (.ok envelope)).relays = g.relays ++ [(d, envelope)] ∧
        g.Addressed d envelope s p q := by
  match hrelay : g.roomManager.relayWebRtc m.roomNow envelope with
  | (rooms, .error err) =>
    rw [handleText_refused h hrelay]
    exact .inl (by simp)
  | (rooms, .ok relay) =>
    rw [handleText_relay hrelay]
    obtain ⟨-, -, -, hs, hfrom, hto, room, hroom, -, hp, -⟩ := RoomManager.relayWebRtc_ok.1 hrelay
    have hsame : Same g (g.putConnection c { g.connection c with lastSeenAt := m.now }) :=
      same_putConnection rfl rfl
    simp only
    split
    · exact .inl (by simp)
    · rename_i d hfind
      have hstands := List.find?_some hfind
      simp only [standsFor, Bool.and_eq_true, decide_eq_true_eq] at hstands
      rw [relays_emit]
      unfold send
      split
      · exact .inl rfl
      · refine .inr ⟨d, relay.sessionId, relay.fromPeerId, relay.toPeerId, ?_,
          claims_eq_some.2 ⟨hs, hfrom⟩, hto, ?_, room, hroom, hp⟩
        · simp [relays, putConnection, Effect.relay?, h]
        · rw [← hsame.identity d]
          exact Prod.ext hstands.2 hstands.1

theorem handleText_same (h : envelope.WebRtc) :
    Same g (g.handleText cfg m c (.ok envelope)) := by
  obtain hsame | ⟨e, he, ⟨s, p, hr, -⟩ | ⟨s, p, hr, -⟩⟩ :=
    @handleText_spec F cfg g m c (.ok envelope)
  · exact hsame
  · cases he
    obtain ⟨htype, -⟩ | ⟨htype, -⟩ := hr
    · simp [SignalingEnvelope.WebRtc, htype] at h
    · simp [SignalingEnvelope.WebRtc, htype] at h
  · cases he
    simp [SignalingEnvelope.WebRtc, hr.1] at h

/-- One event relays the message it brings, or nothing. -/
theorem serve_relays (g : SignalingGateway F) (x : Moment × ServerEvent F) :
    (serve cfg g x).relays = g.relays ∨
      ∃ envelope d s p q, ServerEvent.relay? x = some envelope ∧
        (serve cfg g x).relays = g.relays ++ [(d, envelope)] ∧ g.Addressed d envelope s p q := by
  obtain ⟨m, x⟩ := x
  cases x with
  | closeFrame c => exact .inl (relays_close g m c _ _)
  | protocolError c => exact .inl (relays_close g m c _ _)
  | act a =>
    cases a with
    | attach c => exact .inl rfl
    | closed c => exact .inl (relays_handleClose g m c)
    | cleanup => exact .inl (relays_dropStale m _ _ 0 g)
    | text c decoded =>
      cases decoded with
      | error err => exact .inl (relays_handleText _ (by simp))
      | ok envelope =>
        by_cases h : envelope.WebRtc
        · obtain hnone | ⟨d, s, p, q, hone, haddressed⟩ :=
            @handleText_relays F g c m cfg envelope h
          · exact .inl hnone
          · exact .inr ⟨envelope, d, s, p, q, if_pos h, hone, haddressed⟩
        · refine .inl (relays_handleText _ fun e he => ?_)
          cases he
          exact h

/-! ### Names -/

/-- No connection changes what it stands for, and no peer gets into a room. -/
structure Thinned (g g' : SignalingGateway F) : Prop extends Steady g g' where
  member : ∀ s p, g'.roomManager.Member s p → g.roomManager.Member s p

theorem Thinned.trans {g'' : SignalingGateway F} (h : Thinned g g') (h' : Thinned g' g'') :
    Thinned g g'' :=
  ⟨⟨fun d => (h'.identity d).trans (h.identity d), h'.bound.trans h.bound⟩,
    fun s p hm => h.member s p (h'.member s p hm)⟩

theorem Same.thinned (h : Same g g') : Thinned g g' := ⟨⟨h.identity, h.bound⟩, h.member⟩

theorem Went.thinned (h : Went c g g') : Thinned g g' :=
  ⟨⟨h.identity, h.bound⟩, fun s p hm => (h.member s p hm).1⟩

theorem thinned_handleClose (g : SignalingGateway F) (m : Moment) (c : ConnectionId) :
    Thinned g (g.handleClose m c) := by
  cases hflag : (g.connection c).closed with
  | true =>
    rw [handleClose, if_pos hflag]
    exact (Same.refl g).thinned
  | false => exact (went_handleClose g m hflag).thinned

theorem thinned_close (g : SignalingGateway F) (m : Moment) (c : ConnectionId) (code : Nat)
    (reason : String) : Thinned g (g.close m c code reason) := by
  unfold close
  split
  · exact (Same.refl g).thinned
  · exact (same_log g _).thinned.trans (thinned_handleClose _ m c)

theorem thinned_dropStale (m : Moment) (cutoff : Number) (l : List ConnectionId) (n : Nat)
    (g : SignalingGateway F) : Thinned g (dropStale m cutoff l n g).1 := by
  induction l generalizing n g with
  | nil => exact (Same.refl g).thinned
  | cons c rest ih =>
    unfold dropStale
    split
    · exact (went_drop g m c 4000 "stale peer").thinned.trans (ih (n + 1) _)
    · exact ih n g

/-- Whatever a connection stands for it took on, and so did every member of a room; what was
relayed names such a member, and went to a connection that took on its target. -/
structure Named (g : SignalingGateway F) : Prop where
  stands : ∀ d s p, g.identity d = (some s, some p) → (d, s, p) ∈ g.bound
  member : ∀ s p, g.roomManager.Member s p → ∃ c, (c, s, p) ∈ g.bound
  relayed : ∀ d envelope, (d, envelope) ∈ g.relays → ∃ s p q, envelope.claims = some (s, p) ∧
    truthy envelope.toPeerId = some q ∧ (∃ c, (c, s, p) ∈ g.bound) ∧ (d, s, q) ∈ g.bound

theorem Named.thinned (h : g.Named) (ht : Thinned g g') (hr : g'.relays = g.relays) :
    g'.Named := by
  refine ⟨fun d s p hid => ?_, fun s p hm => ?_, fun d envelope hin => ?_⟩
  · rw [ht.bound]
    exact h.stands d s p ((ht.identity d).symm.trans hid)
  · rw [ht.bound]
    exact h.member s p (ht.member s p hm)
  · rw [ht.bound]
    exact h.relayed d envelope (hr ▸ hin)

theorem Named.took (h : g.Named) (ht : Took c s p g g') (hr : g'.relays = g.relays) :
    g'.Named := by
  have hold : ∀ b ∈ g.bound, b ∈ g'.bound := by simp +contextual [ht.bound]
  have hnew : (c, s, p) ∈ g'.bound := by simp [ht.bound]
  refine ⟨fun d s' p' hid => ?_, fun s' p' hm => ?_, fun d envelope hin => ?_⟩
  · rw [ht.identity] at hid
    split at hid
    · rename_i hd
      cases hid
      exact hd ▸ hnew
    · exact hold _ (h.stands d s' p' hid)
  · obtain hm | ⟨rfl, rfl⟩ := (ht.member s' p').1 hm
    · obtain ⟨c', hc'⟩ := h.member s' p' hm
      exact ⟨c', hold _ hc'⟩
    · exact ⟨c, hnew⟩
  · obtain ⟨s', p', q', hclaims, hto, ⟨c', hc'⟩, hd⟩ := h.relayed d envelope (hr ▸ hin)
    exact ⟨s', p', q', hclaims, hto, ⟨c', hold _ hc'⟩, hold _ hd⟩

theorem Named.left (h : g.Named) (hl : Left c s p g g') (hr : g'.relays = g.relays) :
    g'.Named := by
  refine ⟨fun d s' p' hid => ?_, fun s' p' hm => ?_, fun d envelope hin => ?_⟩
  · rw [hl.identity] at hid
    rw [hl.bound]
    split at hid
    · cases hid
    · exact h.stands d s' p' hid
  · rw [hl.rooms] at hm
    rw [hl.bound]
    exact h.member s' p' hm.of_leaveSession
  · rw [hl.bound]
    exact h.relayed d envelope (hr ▸ hin)

/-- Whoever is named in a relay is named at the moment it is relayed. -/
theorem Named.relay (h : g.Named) (ht : Thinned g g')
    (hr : g'.relays = g.relays ++ [(d, envelope)]) (ha : g.Addressed d envelope s p q) :
    g'.Named := by
  refine ⟨fun d' s' p' hid => ?_, fun s' p' hm => ?_, fun d' e hin => ?_⟩
  · rw [ht.bound]
    exact h.stands d' s' p' ((ht.identity d').symm.trans hid)
  · rw [ht.bound]
    exact h.member s' p' (ht.member s' p' hm)
  · rw [ht.bound]
    rw [hr] at hin
    obtain hin | hin := List.mem_append.1 hin
    · exact h.relayed d' e hin
    · cases List.mem_singleton.1 hin
      exact ⟨s, p, q, ha.claims, ha.target, h.member s p ha.member, h.stands d s q ha.stands⟩

theorem named_new : (SignalingGateway.new : SignalingGateway F).Named := by
  refine ⟨fun d s p h => ?_, fun s p h => ?_, fun d envelope h => ?_⟩
  · simp [identity, connection, new] at h
  · obtain ⟨room, hroom, -⟩ := h
    simp [new] at hroom
  · simp [relays, new] at h

theorem named_serve (h : g.Named) (x : Moment × ServerEvent F) : (serve cfg g x).Named := by
  obtain hsame | ⟨envelope, d, s, p, q, he, hone, haddressed⟩ := @serve_relays F cfg g x
  · obtain ⟨m, x⟩ := x
    cases x with
    | closeFrame c => exact h.thinned (thinned_close g m c _ _) hsame
    | protocolError c => exact h.thinned (thinned_close g m c _ _) hsame
    | act a =>
      cases a with
      | attach c =>
        have hseen : Same g (g.putConnection c { g.connection c with lastSeenAt := m.now }) :=
          same_putConnection rfl rfl
        exact h.thinned ⟨⟨hseen.identity, rfl⟩, fun _ _ hm => hm⟩ hsame
      | text c decoded =>
        obtain hkept | ⟨_, rfl, ⟨s, p, -, htook⟩ | ⟨s, p, -, hleft⟩⟩ :=
          @handleText_spec F cfg g m c decoded
        · exact h.thinned hkept.thinned hsame
        · exact h.took htook hsame
        · exact h.left hleft hsame
      | closed c => exact h.thinned (thinned_handleClose g m c) hsame
      | cleanup =>
        have hdrop := thinned_dropStale m (m.now - cfg.stalePeerTimeoutMs) g.peers 0 g
        exact h.thinned (hdrop.trans (same_rooms fun s p hm =>
          RoomManager.Member.of_cleanupExpired hm).thinned) hsame
  · obtain ⟨m, x⟩ := x
    unfold ServerEvent.relay? at he
    split at he
    · rename_i heq
      cases heq
      split at he
      · rename_i hrtc
        exact h.relay (handleText_same hrtc).thinned hone haddressed
      · cases he
    · cases he

/-- In every run the relayed messages are, in order and each at most once, among those that the
clients handed in. Each names a peer that somebody took on as a member of the session, and goes
to a connection that took on the peer it is for. -/
theorem relays_keep_their_order (cfg : SignalingServerConfig)
    (run : List (Moment × ServerEvent F)) :
    ((steps (serve cfg) new run).relays.map Prod.snd).Sublist (run.filterMap ServerEvent.relay?) ∧
      ∀ d envelope, (d, envelope) ∈ (steps (serve cfg) new run).relays →
        ∃ s p q, envelope.claims = some (s, p) ∧ truthy envelope.toPeerId = some q ∧
          (∃ c, (c, s, p) ∈ (steps (serve cfg) new run).bound) ∧
          (d, s, q) ∈ (steps (serve cfg) new run).bound := by
  have hnamed : (steps (serve cfg) new run).Named :=
    (run_steps new run).invariant (fun _ x h _ => named_serve h x) named_new
  refine ⟨?_, hnamed.relayed⟩
  clear hnamed
  induction run using List.reverseRecOn with
  | nil => exact .refl _
  | append_singleton run x ih =>
    have hlast : steps (serve cfg) new (run ++ [x]) = serve cfg (steps (serve cfg) new run) x := by
      simp [steps]
    rw [hlast, List.filterMap_append]
    obtain hsame | ⟨envelope, d, s, p, q, he, hone, -⟩ :=
      @serve_relays F cfg (steps (serve cfg) new run) x
    · rw [hsame]
      exact ih.trans (List.sublist_append_left _ _)
    · rw [hone, List.map_append]
      exact ih.append (by simp [he])

end SignalingGateway

end PonsWarp.Signaling
