import PonsWarp.Signaling.Roster

set_option autoImplicit false

/-!
How connections end. A close frame, a protocol error and the end of the socket all come
to `handleClose`, which acts once; the stale clean-up detaches a connection a second
time, and what it was bound to is still there then.
-/

namespace PonsWarp.Signaling

open PonsWarp.Data PonsWarp.Core

variable {F : Type}

/-- What a connection can meet besides the actions on the gateway: a close frame of the client,
and bytes that are no frames. -/
inductive ServerEvent (F : Type) where
  | act (action : Action F)
  | closeFrame (connection : ConnectionId)
  | protocolError (connection : ConnectionId)

/-- The connection that the event closes. -/
def ServerEvent.closes : ServerEvent F → Option ConnectionId
  | .act (.closed c) => some c
  | .closeFrame c => some c
  | .protocolError c => some c
  | _ => none

/-- How often the effect tells a connection that the peer has left. -/
def Effect.tells (d : ConnectionId) (s : SessionId) (p : PeerId) : Effect F → Bool
  | .send c envelope => c = d && envelope.type = .PEER_LEFT && envelope.sessionId = some s &&
      envelope.fromPeerId = some p
  | _ => false

def Effect.announces (s : SessionId) (p : PeerId) : Effect F → Bool
  | .emit (.peerLeft s' p') => s' = s && p' = p
  | _ => false

/-- A connection is made to end, with the gateway before and after. -/
structure Ending (F : Type) where
  connection : ConnectionId
  before : SignalingGateway F
  after : SignalingGateway F

namespace Ending

def news (e : Ending F) : List (Effect F) := e.after.log.drop e.before.log.length

def tells (d : ConnectionId) (s : SessionId) (p : PeerId) (e : Ending F) : Nat :=
  e.news.countP (Effect.tells d s p)

def announces (s : SessionId) (p : PeerId) (e : Ending F) : Nat :=
  e.news.countP (Effect.announces s p)

end Ending

namespace SignalingGateway

variable {g g' : SignalingGateway F} {c d : ConnectionId} {s : SessionId} {p : PeerId} {m : Moment}
  {cfg : SignalingServerConfig} {cutoff : Number}

def serve (cfg : SignalingServerConfig) (g : SignalingGateway F) :
    Moment × ServerEvent F → SignalingGateway F
  | (m, .act a) => g.step cfg (m, a)
  | (m, .closeFrame c) => g.close m c 1000 "closed"
  | (m, .protocolError c) => g.close m c 1002 "protocol error"

/-- What the clean-up does to one stale connection. -/
def drop (g : SignalingGateway F) (m : Moment) (c : ConnectionId) : SignalingGateway F :=
  (g.close m c 4000 "stale peer").detach m c

/-- The endings that the loop of the clean-up brings about. -/
def dropped (m : Moment) (cutoff : Number) : List ConnectionId → SignalingGateway F →
    List (Ending F)
  | [], _ => []
  | c :: rest, g =>
    if (g.connection c).lastSeenAt ≤ cutoff then
      ⟨c, g, g.drop m c⟩ :: dropped m cutoff rest (g.drop m c)
    else dropped m cutoff rest g

/-- The endings that one event brings about. -/
def endings (cfg : SignalingServerConfig) (g : SignalingGateway F) :
    Moment × ServerEvent F → List (Ending F)
  | (m, .act (.closed c)) => [⟨c, g, g.handleClose m c⟩]
  | (m, .act .cleanup) => dropped m (m.now - cfg.stalePeerTimeoutMs) g.peers g
  | (m, .closeFrame c) => [⟨c, g, g.close m c 1000 "closed"⟩]
  | (m, .protocolError c) => [⟨c, g, g.close m c 1002 "protocol error"⟩]
  | _ => []

/-- The endings of one connection over a run. -/
def endingsOf (cfg : SignalingServerConfig) (c : ConnectionId) :
    SignalingGateway F → List (Moment × ServerEvent F) → List (Ending F)
  | _, [] => []
  | g, x :: rest => (endings cfg g x).filter (·.connection = c) ++ endingsOf cfg c (serve cfg g x) rest

/-- The endings listed for the clean-up are what its loop does. -/
theorem foldl_dropped (m : Moment) (cutoff : Number) (l : List ConnectionId) (n : Nat)
    (g : SignalingGateway F) :
    (dropped m cutoff l g).foldl (fun _ e => e.after) g = (dropStale m cutoff l n g).1 := by
  induction l generalizing g n with
  | nil => rfl
  | cons c rest ih =>
    unfold dropped dropStale
    split
    · exact ih (n + 1) (g.drop m c)
    · exact ih n g

/-! ### Flags and attachment -/

def flags (g : SignalingGateway F) : ConnectionId → Bool := fun c => (g.connection c).closed

theorem flags_putConnection (g : SignalingGateway F) (c : ConnectionId) (v : Connection) :
    (g.putConnection c v).flags = fun d => if d = c then v.closed else g.flags d := by
  funext d
  simp only [flags, connection_putConnection]
  split <;> rfl

theorem flags_putConnection_same {v : Connection} (h : v.closed = (g.connection c).closed) :
    (g.putConnection c v).flags = g.flags := by
  rw [flags_putConnection]
  funext d
  split
  · rename_i hd
    rw [hd, h]
    rfl
  · rfl

@[simp] theorem flags_rooms (g : SignalingGateway F) (rooms : RoomManager F) :
    flags { g with roomManager := rooms } = g.flags := rfl

@[simp] theorem flags_emit (g : SignalingGateway F) (event : SignalingGatewayEvent F) :
    (g.emit event).flags = g.flags := rfl

@[simp] theorem flags_send (g : SignalingGateway F) (c : ConnectionId)
    (envelope : SignalingEnvelope F) : (g.send c envelope).flags = g.flags := by
  funext d
  simp only [flags, connection_send]

@[simp] theorem flags_broadcast (g : SignalingGateway F) (s : SessionId)
    (envelope : SignalingEnvelope F) (p : PeerId) : (g.broadcast s envelope p).flags = g.flags := by
  obtain ⟨l, hl, -⟩ := g.broadcast_eq s envelope p
  rw [hl]
  rfl

@[simp] theorem flags_bind (g : SignalingGateway F) (c : ConnectionId) (s : SessionId)
    (p : PeerId) : (g.bind c s p).flags = g.flags :=
  funext fun d => (bind_spec g c s p).2 d

@[simp] theorem flags_leave (g : SignalingGateway F) (m : Moment) (s : SessionId) (p : PeerId) :
    (g.leave m s p).flags = g.flags := by
  simp [leave, broadcastPeerLeft]

@[simp] theorem flags_detach (g : SignalingGateway F) (m : Moment) (c : ConnectionId) :
    (g.detach m c).flags = g.flags := by
  unfold detach
  simp only
  split
  · simp only [flags_emit, flags_leave]
    rfl
  · rfl

theorem flags_handleCreateSession (g : SignalingGateway F) (m : Moment) (c : ConnectionId)
    (envelope : SignalingEnvelope F) (p : PeerId) (files : List F) :
    (g.handleCreateSession cfg m c envelope p files).1.flags = g.flags := by
  unfold handleCreateSession
  simp only
  split <;> simp

theorem flags_handleJoinSession (g : SignalingGateway F) (m : Moment) (c : ConnectionId)
    (envelope : SignalingEnvelope F) :
    (g.handleJoinSession cfg m c envelope).1.flags = g.flags := by
  unfold handleJoinSession
  split
  · split
    · simp
    · split <;> simp [broadcastPeerJoined]
  · rfl

theorem flags_handleRelay (g : SignalingGateway F) (m : Moment) (envelope : SignalingEnvelope F) :
    (g.handleRelay m envelope).1.flags = g.flags := by
  unfold handleRelay
  split
  · rfl
  · simp only
    split <;> simp

theorem flags_handleLeave (g : SignalingGateway F) (m : Moment) (c : ConnectionId) (s : SessionId)
    (p : PeerId) : (g.handleLeave m c s p).flags = g.flags := by
  unfold handleLeave
  simp only [flags_emit]
  rw [flags_putConnection_same (c := c) (by rfl), flags_leave]

theorem flags_handleEnvelope (cfg : SignalingServerConfig) (g : SignalingGateway F) (m : Moment) (c : ConnectionId)
    (envelope : SignalingEnvelope F) :
    (g.handleEnvelope cfg m c envelope).1.flags = g.flags := by
  unfold handleEnvelope
  split
  · exact flags_handleCreateSession ..
  · exact flags_handleJoinSession ..
  · exact flags_handleRelay ..
  · exact flags_handleRelay ..
  · exact flags_handleRelay ..
  · split
    · exact flags_handleLeave ..
    · rfl
  · simp [sendError]

/-- A text closes no connection. -/
theorem flags_handleText (cfg : SignalingServerConfig) (g : SignalingGateway F) (m : Moment)
    (c : ConnectionId) (decoded : Except String (SignalingEnvelope F)) :
    (g.handleText cfg m c decoded).flags = g.flags := by
  have hseen : (g.putConnection c { g.connection c with lastSeenAt := m.now }).flags = g.flags :=
    flags_putConnection_same rfl
  unfold handleText
  cases decoded with
  | error err => simp [sendError, hseen]
  | ok envelope =>
    have hmore := flags_handleEnvelope cfg
      (g.putConnection c { g.connection c with lastSeenAt := m.now }) m c envelope
    rw [hseen] at hmore
    simp only
    split
    · rename_i heq
      rw [heq] at hmore
      simpa [sendError] using hmore
    · rename_i heq
      rw [heq] at hmore
      exact hmore

theorem handleText_peers (cfg : SignalingServerConfig) (g : SignalingGateway F) (m : Moment)
    (c : ConnectionId) (decoded : Except String (SignalingEnvelope F)) :
    (g.handleText cfg m c decoded).peers = g.peers := by
  rcases @handleText_spec F cfg g m c decoded with h | ⟨_, -, ⟨_, _, -, h⟩ | ⟨_, _, -, h⟩⟩
  · exact h.peers
  · exact h.peers
  · exact h.peers

/-- Attached connections are open, and attached once. -/
structure Tidy (g : SignalingGateway F) : Prop where
  nodup : g.peers.Nodup
  isOpen : ∀ c ∈ g.peers, g.flags c = false

/-- The connection has ended. -/
def Gone (c : ConnectionId) (g : SignalingGateway F) : Prop := g.flags c = true ∧ c ∉ g.peers

/-- The connection ends, and no other does. -/
structure Parts (c : ConnectionId) (g g' : SignalingGateway F) : Prop extends Went c g g' where
  flags : ∀ d, g'.flags d = if d = c then true else g.flags d

theorem flags_handleClose (m : Moment) (hopen : g.flags c = false) :
    (g.handleClose m c).flags d = if d = c then true else g.flags d := by
  unfold handleClose
  rw [if_neg (by simpa [flags] using hopen), flags_detach, flags_putConnection]

theorem parts_handleClose (m : Moment) (hopen : g.flags c = false) :
    Parts c g (g.handleClose m c) :=
  ⟨went_handleClose g m hopen, fun _ => flags_handleClose m hopen⟩

theorem parts_close (m : Moment) (code : Nat) (reason : String) (hopen : g.flags c = false) :
    Parts c g (g.close m c code reason) := by
  unfold close
  rw [if_neg (by simpa [SignalingGateway.flags] using hopen)]
  have h := parts_handleClose (g := { g with log := g.log ++ [Effect.close c code reason] }) m hopen
  exact ⟨h.toWent.before (same_log g _) rfl, h.flags⟩

theorem parts_drop (m : Moment) (hopen : g.flags c = false) : Parts c g (g.drop m c) where
  toWent := went_drop g m c 4000 "stale peer"
  flags := by
    rw [drop, flags_detach]
    exact (parts_close m 4000 "stale peer" hopen).flags

theorem Parts.tidy (h : Parts c g g') (ht : g.Tidy) : g'.Tidy := by
  constructor
  · rw [h.peers]
    exact ht.nodup.filter _
  · intro d hd
    rw [h.peers, List.mem_filter] at hd
    rw [h.flags, if_neg (by simpa using hd.2)]
    exact ht.isOpen d hd.1

theorem Parts.gone (h : Parts c g g') : g'.Gone c := by
  constructor
  · rw [h.flags, if_pos rfl]
  · simp [h.peers]

theorem Parts.gone_of_gone (h : Parts c g g') (hd : g.Gone d) : g'.Gone d := by
  constructor
  · rw [h.flags]
    split
    · rfl
    · exact hd.1
  · rw [h.peers]
    exact fun hin => hd.2 (List.mem_filter.1 hin).1

/-- The ways for a connection to end but the clean-up. -/
inductive Closes (m : Moment) (c : ConnectionId) (g : SignalingGateway F) :
    SignalingGateway F → Prop
  | handleClose : Closes m c g (g.handleClose m c)
  | close (code : Nat) (reason : String) : Closes m c g (g.close m c code reason)

theorem Closes.parts (h : Closes m c g g') (hopen : g.flags c = false) : Parts c g g' := by
  cases h with
  | handleClose => exact parts_handleClose m hopen
  | close code reason => exact parts_close m code reason hopen

theorem Closes.eq_of_closed (h : Closes m c g g') (hclosed : g.flags c = true) : g' = g := by
  cases h with
  | handleClose => exact if_pos hclosed
  | close code reason => exact if_pos hclosed

/-- A connection is attached when the server accepts it, and it is new then. -/
def Accepts (g : SignalingGateway F) : Moment × ServerEvent F → Prop
  | (_, .act (.attach c)) => g.connections.get? c = none
  | _ => True

/-! ### The clean-up -/

theorem stale_drop (m : Moment) (c : ConnectionId) : (g.drop m c).Stale cutoff d ↔ g.Stale cutoff d := by
  have hseen : ((g.drop m c).connection d).lastSeenAt = (g.connection d).lastSeenAt :=
    (goes_drop g m c 4000 "stale peer").seen d
  rw [Stale, Stale, hseen]

/-- The loop closes and detaches the stale connections of its list. -/
theorem dropStale_parts (m : Moment) (cutoff : Number) {l : List ConnectionId} (n : Nat) (hl : l.Nodup)
    (h : g.Tidy) (hopen : ∀ c ∈ l, g.flags c = false) :
    (dropStale m cutoff l n g).1.Tidy ∧
      (∀ d, g.Gone d → (dropStale m cutoff l n g).1.Gone d) ∧
      ∀ d ∈ l, g.Stale cutoff d → (dropStale m cutoff l n g).1.Gone d := by
  induction l generalizing g n with
  | nil => exact ⟨h, fun _ hd => hd, by simp⟩
  | cons c rest ih =>
    obtain ⟨hc, hrest⟩ := List.nodup_cons.1 hl
    unfold dropStale
    split
    · have hparts := parts_drop m (hopen c (by simp))
      obtain ⟨htidy, hgone, hstale⟩ := ih (n + 1) hrest (hparts.tidy h) fun d hd => by
        have hne : d ≠ c := fun he => hc (he ▸ hd)
        rw [hparts.flags, if_neg hne]
        exact hopen d (by simp [hd])
      refine ⟨htidy, fun d hd => hgone d (hparts.gone_of_gone hd), fun d hd hs => ?_⟩
      rcases List.mem_cons.1 hd with rfl | hd
      · exact hgone d hparts.gone
      · exact hstale d hd ((stale_drop m c).2 hs)
    · rename_i hfresh
      obtain ⟨htidy, hgone, hstale⟩ := ih n hrest h fun d hd => hopen d (by simp [hd])
      refine ⟨htidy, hgone, fun d hd hs => ?_⟩
      rcases List.mem_cons.1 hd with rfl | hd
      · exact absurd hs hfresh
      · exact hstale d hd hs

theorem dropped_none {l : List ConnectionId} (h : c ∉ l ∨ ¬ g.Stale cutoff c) :
    (dropped m cutoff l g).filter (·.connection = c) = [] := by
  induction l generalizing g with
  | nil => rfl
  | cons first rest ih =>
    unfold dropped
    split
    · rename_i hstale
      have hne : first ≠ c := by
        rintro rfl
        rcases h with h | h
        · exact h (by simp)
        · exact h hstale
      rw [List.filter_cons_of_neg (by simpa using hne)]
      refine ih (h.imp (fun hn hin => hn (by simp [hin])) ?_)
      exact fun hn hs => hn ((stale_drop m first).1 hs)
    · exact ih (h.imp_left fun hn hin => hn (by simp [hin]))

/-- A stale connection is dropped once by the loop, and until then it stays as it was. -/
theorem dropped_one {l : List ConnectionId} (hl : l.Nodup) (hopen : ∀ c ∈ l, g.flags c = false)
    (hc : c ∈ l) (hstale : g.Stale cutoff c) :
    ∃ g', (dropped m cutoff l g).filter (·.connection = c) = [⟨c, g', g'.drop m c⟩] ∧
      g'.flags c = false ∧ g'.identity c = g.identity c := by
  induction l generalizing g with
  | nil => simp at hc
  | cons first rest ih =>
    obtain ⟨hfirst, hrest⟩ := List.nodup_cons.1 hl
    unfold dropped
    by_cases he : first = c
    · subst he
      have hold : (g.connection first).lastSeenAt ≤ cutoff := hstale
      rw [if_pos hold, List.filter_cons_of_pos (by simp), dropped_none (.inl hfirst)]
      exact ⟨g, rfl, hopen first (by simp), rfl⟩
    · have hin : c ∈ rest := by
        rcases List.mem_cons.1 hc with rfl | hin
        · exact absurd rfl he
        · exact hin
      split
      · have hparts := parts_drop m (hopen first (by simp))
        obtain ⟨g', heq, hflag, hid⟩ := ih (g := g.drop m first) hrest (fun d hd => by
          have hne : d ≠ first := fun hde => hfirst (hde ▸ hd)
          rw [hparts.flags, if_neg hne]
          exact hopen d (by simp [hd])) hin ((stale_drop m first).2 hstale)
        rw [List.filter_cons_of_neg (by simpa using he)]
        exact ⟨g', heq, hflag, hid.trans (hparts.identity c)⟩
      · exact ih hrest (fun d hd => hopen d (by simp [hd])) hin hstale

/-! ### One event -/

theorem tidy_serve {x : Moment × ServerEvent F} (h : g.Tidy) (hx : g.Accepts x) :
    (serve cfg g x).Tidy := by
  have hcloses : ∀ (m : Moment) (c : ConnectionId) (g' : SignalingGateway F), Closes m c g g' →
      g'.Tidy := by
    intro m c g' hcl
    cases hflag : g.flags c with
    | true => exact hcl.eq_of_closed hflag ▸ h
    | false => exact (hcl.parts hflag).tidy h
  rcases x with ⟨m, a | c | c⟩
  · cases a with
    | attach c =>
      have hnone : g.flags c = false := by
        simp only [flags, connection, show g.connections.get? c = none from hx]
        rfl
      have hflags : (g.attach m c).flags = g.flags := flags_putConnection_same rfl
      refine ⟨nodup_insertNew h.nodup c, fun d hd => ?_⟩
      rw [show (serve cfg g (m, .act (.attach c))).flags = g.flags from hflags]
      rcases mem_insertNew.1 hd with hd | rfl
      · exact h.isOpen d hd
      · exact hnone
    | text c decoded =>
      have hpeers := g.handleText_peers cfg m c decoded
      have hflags := g.flags_handleText cfg m c decoded
      exact ⟨hpeers ▸ h.nodup, fun d hd => hflags ▸ h.isOpen d (hpeers ▸ hd)⟩
    | closed c => exact hcloses m c _ .handleClose
    | cleanup =>
      have hdrop := (dropStale_parts m (m.now - cfg.stalePeerTimeoutMs) 0 h.nodup h h.isOpen).1
      exact ⟨hdrop.nodup, hdrop.isOpen⟩
  · exact hcloses m c _ (.close _ _)
  · exact hcloses m c _ (.close _ _)

theorem gone_serve {x : Moment × ServerEvent F} (h : g.Tidy) (hx : g.Accepts x)
    (hgone : g.Gone d) : (serve cfg g x).Gone d := by
  have hcloses : ∀ (m : Moment) (c : ConnectionId) (g' : SignalingGateway F), Closes m c g g' →
      g'.Gone d := by
    intro m c g' hcl
    cases hflag : g.flags c with
    | true => exact hcl.eq_of_closed hflag ▸ hgone
    | false => exact (hcl.parts hflag).gone_of_gone hgone
  rcases x with ⟨m, a | c | c⟩
  · cases a with
    | attach c =>
      have hnone : g.flags c = false := by
        simp only [flags, connection, show g.connections.get? c = none from hx]
        rfl
      have hflags : (g.attach m c).flags = g.flags := flags_putConnection_same rfl
      refine ⟨(congrFun hflags d).trans hgone.1, fun hd => ?_⟩
      rcases mem_insertNew.1 hd with hd | rfl
      · exact hgone.2 hd
      · exact absurd (hnone.symm.trans hgone.1) (by simp)
    | text c decoded =>
      have hpeers := g.handleText_peers cfg m c decoded
      have hflags := g.flags_handleText cfg m c decoded
      exact ⟨(congrFun hflags d).trans hgone.1, fun hd => hgone.2 (hpeers ▸ hd)⟩
    | closed c => exact hcloses m c _ .handleClose
    | cleanup =>
      exact (dropStale_parts m (m.now - cfg.stalePeerTimeoutMs) 0 h.nodup h h.isOpen).2.1 d hgone
  · exact hcloses m c _ (.close _ _)
  · exact hcloses m c _ (.close _ _)

theorem endings_closes (cfg : SignalingServerConfig) (g : SignalingGateway F)
    {x : Moment × ServerEvent F} (h : x.2.closes = some c) :
    Closes x.1 c g (serve cfg g x) ∧ endings cfg g x = [⟨c, g, serve cfg g x⟩] := by
  rcases x with ⟨m, (d | ⟨d, decoded⟩ | d | _) | d | d⟩
  · cases h
  · cases h
  · cases h
    exact ⟨.handleClose, rfl⟩
  · cases h
  · cases h
    exact ⟨.close _ _, rfl⟩
  · cases h
    exact ⟨.close _ _, rfl⟩

/-- What one event does to a connection: it does not end it, or closes it, or the clean-up
drops it. -/
theorem endings_spec (cfg : SignalingServerConfig) (g : SignalingGateway F)
    (x : Moment × ServerEvent F) (c : ConnectionId) :
    (endings cfg g x).filter (·.connection = c) = [] ∨ x.2.closes = some c ∨
    (x.2 = .act .cleanup ∧ c ∈ g.peers ∧ g.Stale (x.1.now - cfg.stalePeerTimeoutMs) c) := by
  cases hcloses : x.2.closes with
  | some d =>
    by_cases hd : d = c
    · exact .inr (.inl (by rw [hd]))
    · exact .inl (by simp [(endings_closes cfg g hcloses).2, hd])
  | none =>
    rcases x with ⟨m, (d | ⟨d, decoded⟩ | d | _) | d | d⟩
    · exact .inl rfl
    · exact .inl rfl
    · cases hcloses
    · by_cases hstale : c ∈ g.peers ∧ g.Stale (m.now - cfg.stalePeerTimeoutMs) c
      · exact .inr (.inr ⟨rfl, hstale⟩)
      · exact .inl (dropped_none (not_and_or.1 hstale))
    · cases hcloses
    · cases hcloses

theorem Tidy.gone_of_closed (h : g.Tidy) (hclosed : g.flags c = true) : g.Gone c := by
  refine ⟨hclosed, fun hin => ?_⟩
  rw [h.isOpen c hin] at hclosed
  cases hclosed

theorem Closes.gone (hcl : Closes m c g g') (h : g.Tidy) : g'.Gone c := by
  cases hflag : g.flags c with
  | true => exact hcl.eq_of_closed hflag ▸ h.gone_of_closed hflag
  | false => exact (hcl.parts hflag).gone

/-- An event that ends a connection leaves nothing of it. -/
theorem gone_of_ending {x : Moment × ServerEvent F} (h : g.Tidy)
    (hsome : (endings cfg g x).filter (·.connection = c) ≠ []) : (serve cfg g x).Gone c := by
  rcases endings_spec cfg g x c with hnone | hcloses | ⟨hx, hin, hstale⟩
  · exact absurd hnone hsome
  · exact (endings_closes cfg g hcloses).1.gone h
  · obtain ⟨m, event⟩ := x
    cases hx
    exact (dropStale_parts m (m.now - cfg.stalePeerTimeoutMs) 0 h.nodup h h.isOpen).2.2 c hin hstale

/-- A connection that has ended is not made to end again. -/
theorem endingsOf_gone {run : List (Moment × ServerEvent F)} (h : g.Tidy)
    (haccepts : Allowed (serve cfg) Accepts g run) (hgone : g.Gone c) :
    ∀ e ∈ endingsOf cfg c g run, e.after = e.before ∧ e.before.flags c = true := by
  induction run generalizing g with
  | nil => simp [endingsOf]
  | cons x rest ih =>
    intro e he
    rcases List.mem_append.1 he with he | he
    · rcases endings_spec cfg g x c with hnone | hcloses | ⟨-, hin, -⟩
      · simp [hnone] at he
      · obtain ⟨hcl, hone⟩ := endings_closes cfg g hcloses
        rw [hone] at he
        obtain rfl := List.mem_singleton.1 (List.mem_filter.1 he).1
        exact ⟨hcl.eq_of_closed hgone.1, hgone.1⟩
      · exact absurd hin hgone.2
    · exact ih (tidy_serve h haccepts.1) haccepts.2 (gone_serve h haccepts.1 hgone) e he

/-! ### What the others are told -/

/-- What is sent and announced when the connection is detached. -/
def farewell (g : SignalingGateway F) (m : Moment) (c : ConnectionId) : List (Effect F) :=
  match g.binding c with
  | none => []
  | some (s, p) =>
    (g.peers.filter fun d => d ≠ c ∧ (g.connection d).sessionId = some s ∧
      (g.connection d).peerId ≠ some p ∧ g.flags d = false).map (Effect.send ·
        ⟨"msg_" ++ m.broadcastUuid, .PEER_LEFT, some s, some p, none, m.now, .peer p none⟩) ++
    [.emit (.peerLeft s p)]

theorem sendAll_log (g : SignalingGateway F) (envelope : SignalingEnvelope F)
    (targets : List ConnectionId) :
    (targets.foldl (fun g c => g.send c envelope) g).log =
      g.log ++ (targets.filter fun d => g.flags d = false).map (Effect.send · envelope) := by
  induction targets generalizing g with
  | nil => simp
  | cons c rest ih =>
    rw [List.foldl_cons, ih, flags_send]
    cases hflag : g.flags c with
    | true =>
      have hclosed : (g.connection c).closed = true := hflag
      simp [send, hclosed, hflag]
    | false =>
      have hopen : (g.connection c).closed = false := hflag
      simp [send, hopen, hflag]

theorem detach_log (g : SignalingGateway F) (m : Moment) (c : ConnectionId) :
    (g.detach m c).log = g.log ++ g.farewell m c := by
  have hsame : { g with peers := g.peers.filter (· ≠ c) }.binding c = g.binding c := rfl
  unfold detach farewell
  simp only [hsame]
  cases g.binding c with
  | none => simp
  | some identity =>
    simp only [leave, broadcastPeerLeft, emit, broadcast, sendAll_log, List.filter_filter,
      List.append_assoc]
    congr 3
    refine List.filter_congr fun d _ => Bool.eq_iff_iff.2 ?_
    simp [flags, connection]
    grind

/-- The flag of a connection is nothing to its own farewell. -/
theorem farewell_closed (g : SignalingGateway F) (m : Moment) (c : ConnectionId) :
    (g.putConnection c { g.connection c with closed := true }).farewell m c = g.farewell m c := by
  have hb : (g.putConnection c { g.connection c with closed := true }).binding c = g.binding c :=
    binding_of_identity ((same_flag g c).identity c)
  unfold farewell
  rw [hb]
  cases g.binding c with
  | none => rfl
  | some identity =>
    simp only
    congr 2
    refine List.filter_congr fun d _ => ?_
    rw [flags_putConnection, connection_putConnection]
    by_cases hd : d = c <;> simp [hd]

theorem handleClose_log (m : Moment) (hopen : g.flags c = false) :
    (g.handleClose m c).log = g.log ++ g.farewell m c := by
  unfold handleClose
  rw [if_neg (by simpa [flags] using hopen), detach_log, farewell_closed]
  rfl

theorem close_log (m : Moment) (code : Nat) (reason : String) (hopen : g.flags c = false) :
    (g.close m c code reason).log = g.log ++ .close c code reason :: g.farewell m c := by
  unfold close
  rw [if_neg (by simpa [flags] using hopen)]
  have h := handleClose_log (g := { g with log := g.log ++ [Effect.close c code reason] }) m hopen
  refine h.trans ?_
  rw [List.append_assoc, List.singleton_append]
  rfl

theorem announces_farewell (g : SignalingGateway F) (m : Moment) (c : ConnectionId) (s : SessionId)
    (p : PeerId) : (g.farewell m c).countP (Effect.announces s p) =
      if g.binding c = some (s, p) then 1 else 0 := by
  unfold farewell
  cases g.binding c with
  | none => rfl
  | some identity =>
    simp [List.countP_append, List.countP_map, Function.comp_def, Effect.announces,
      List.countP_cons, Prod.ext_iff]

theorem tells_farewell (h : g.Tidy) (m : Moment) (hd : d ∈ g.peers) (hdc : d ≠ c)
    (hs : (g.connection d).sessionId = some s) : (g.farewell m c).countP (Effect.tells d s p) =
      if g.binding c = some (s, p) ∧ (g.connection d).peerId ≠ some p then 1 else 0 := by
  unfold farewell
  cases g.binding c with
  | none => rfl
  | some identity =>
    obtain ⟨s', p'⟩ := identity
    have hlast : Effect.tells (F := F) d s p (.emit (.peerLeft s' p')) = false := rfl
    simp only [List.countP_append, List.countP_map, List.countP_singleton, hlast,
      Bool.false_eq_true, if_false, Nat.add_zero]
    by_cases hid : (s', p') = (s, p)
    · cases hid
      have hcount : ∀ l : List ConnectionId, l.countP ((Effect.tells (F := F) d s p) ∘
          (Effect.send · ⟨"msg_" ++ m.broadcastUuid, .PEER_LEFT, some s, some p, none, m.now,
            .peer p none⟩)) = l.count d := by
        intro l
        refine List.countP_congr fun c' _ => ?_
        simp [Effect.tells]
      have hmem : d ∈ g.peers.filter (fun d => d ≠ c ∧ (g.connection d).sessionId = some s ∧
          (g.connection d).peerId ≠ some p ∧ g.flags d = false) ↔
            (g.connection d).peerId ≠ some p := by
        simp [hd, hdc, hs, h.isOpen d hd]
      rw [hcount, (h.nodup.filter _).count, if_congr hmem rfl rfl]
      simp
    · have hnone : some (s', p') ≠ some (s, p) := by simpa using hid
      rw [if_neg fun hb => hnone hb.1]
      refine List.countP_eq_zero.2 fun c' _ => ?_
      simp only [Function.comp_apply, Effect.tells]
      grind

theorem news_of_log {e : Ending F} {l : List (Effect F)} (h : e.after.log = e.before.log ++ l) :
    e.news = l := by
  rw [Ending.news, h, List.drop_left]

theorem Closes.news (hcl : Closes m c g g') (hopen : g.flags c = false) :
    ∃ pre, (⟨c, g, g'⟩ : Ending F).news = pre ++ g.farewell m c ∧
      ∀ y ∈ pre, ∃ code reason, y = .close c code reason := by
  cases hcl with
  | handleClose => exact ⟨[], news_of_log (handleClose_log m hopen), by simp⟩
  | close code reason =>
    exact ⟨[.close c code reason], news_of_log (close_log m code reason hopen), by simp⟩

theorem countP_closes {pre : List (Effect F)} {P : Effect F → Bool}
    (h : ∀ y ∈ pre, ∃ code reason, y = .close c code reason)
    (hP : ∀ code reason, P (.close c code reason) = false) : pre.countP P = 0 := by
  refine List.countP_eq_zero.2 fun y hy => ?_
  obtain ⟨code, reason, rfl⟩ := h y hy
  simp [hP]

theorem Closes.announces (hcl : Closes m c g g') (hopen : g.flags c = false) (s : SessionId)
    (p : PeerId) : (⟨c, g, g'⟩ : Ending F).announces s p =
      if g.binding c = some (s, p) then 1 else 0 := by
  obtain ⟨pre, hnews, hpre⟩ := hcl.news hopen
  rw [Ending.announces, hnews, List.countP_append, countP_closes hpre fun _ _ => rfl, Nat.zero_add,
    announces_farewell]

theorem Closes.tells (hcl : Closes m c g g') (hopen : g.flags c = false) (h : g.Tidy)
    (hd : d ∈ g.peers) (hdc : d ≠ c) (hs : (g.connection d).sessionId = some s) :
    (⟨c, g, g'⟩ : Ending F).tells d s p =
      if g.binding c = some (s, p) ∧ (g.connection d).peerId ≠ some p then 1 else 0 := by
  obtain ⟨pre, hnews, hpre⟩ := hcl.news hopen
  rw [Ending.tells, hnews, List.countP_append, countP_closes hpre fun _ _ => rfl, Nat.zero_add,
    tells_farewell h m hd hdc hs]

/-- The clean-up announces whom it drops twice. -/
theorem drop_announces (m : Moment) (hopen : g.flags c = false) (s : SessionId) (p : PeerId) :
    (⟨c, g, g.drop m c⟩ : Ending F).announces s p =
      if g.binding c = some (s, p) then 2 else 0 := by
  have hlog : (g.drop m c).log = g.log ++ (.close c 4000 "stale peer" :: g.farewell m c ++
      (g.close m c 4000 "stale peer").farewell m c) := by
    rw [drop, detach_log, close_log m _ _ hopen, List.append_assoc]
  have hb : (g.close m c 4000 "stale peer").binding c = g.binding c :=
    binding_of_identity ((parts_close m 4000 "stale peer" hopen).identity c)
  rw [Ending.announces, news_of_log hlog, List.countP_append, List.countP_cons,
    announces_farewell, announces_farewell, hb]
  split <;> rfl

/-! ### Whole runs -/

/-- Of the endings of a connection the first takes the peer out of its room and the others leave
the rooms alone; together they tell each other connection of the session once, and the
listeners once. -/
structure AnnouncedOnce (c : ConnectionId) (s : SessionId) (p : PeerId) (first : Ending F)
    (later : List (Ending F)) : Prop where
  gone : ¬ first.after.roomManager.Member s p
  once : ∀ e ∈ later, e.after.roomManager = e.before.roomManager
  told : ∀ d ∈ first.before.peers, d ≠ c → (first.before.connection d).sessionId = some s →
    ((first :: later).map (Ending.tells d s p)).sum = 1
  announced : ((first :: later).map (Ending.announces s p)).sum = 1

/-- Every open connection of the run that ends bound to a peer is announced once. -/
def DepartsOnce (cfg : SignalingServerConfig) (g : SignalingGateway F)
    (run : List (Moment × ServerEvent F)) : Prop :=
  ∀ c s p first later, endingsOf cfg c g run = first :: later → first.before.flags c = false →
    first.before.identity c = (some s, some p) → AnnouncedOnce c s p first later

/-- The connection has ended before, or nobody else is attached under the identity that it
ends with, and both its ids are there. -/
def EndsWell (c : ConnectionId) (g : SignalingGateway F) : Prop :=
  g.flags c = true ∨ ∀ s p, g.identity c = (some s, some p) → g.binding c = some (s, p) ∧
    ∀ d ∈ g.peers, d ≠ c → g.identity d ≠ (some s, some p)

/-- The event closes a connection in order, and the clean-up finds no bound one. -/
structure Clean (cfg : SignalingServerConfig) (g : SignalingGateway F)
    (x : Moment × ServerEvent F) : Prop where
  closes : ∀ c, x.2.closes = some c → EndsWell c g
  cleanup : x.2 = .act .cleanup → ∀ c ∈ g.peers, g.Stale (x.1.now - cfg.stalePeerTimeoutMs) c →
    ∀ s p, g.identity c ≠ (some s, some p)

theorem sum_map_later {later : List (Ending F)} (f : Ending F → Nat)
    (hf : ∀ e : Ending F, e.after = e.before → f e = 0)
    (h : ∀ e ∈ later, e.after = e.before) : (later.map f).sum = 0 := by
  induction later with
  | nil => rfl
  | cons e rest ih =>
    rw [List.map_cons, List.sum_cons, hf e (h e (by simp)), ih fun e he => h e (by simp [he])]

theorem sum_announces {first : Ending F} {later : List (Ending F)}
    (h : ∀ e ∈ later, e.after = e.before) :
    ((first :: later).map (Ending.announces s p)).sum = first.announces s p := by
  rw [List.map_cons, List.sum_cons, sum_map_later _ (fun e he => ?_) h, Nat.add_zero]
  simp [Ending.announces, Ending.news, he]

theorem sum_tells {first : Ending F} {later : List (Ending F)}
    (h : ∀ e ∈ later, e.after = e.before) :
    ((first :: later).map (Ending.tells d s p)).sum = first.tells d s p := by
  rw [List.map_cons, List.sum_cons, sum_map_later _ (fun e he => ?_) h, Nat.add_zero]
  simp [Ending.tells, Ending.news, he]

theorem Closes.announcedOnce_iff (hcl : Closes m c g g') (h : g.Tidy) (hopen : g.flags c = false)
    {later : List (Ending F)} (hlater : ∀ e ∈ later, e.after = e.before) :
    AnnouncedOnce c s p ⟨c, g, g'⟩ later ↔ g.binding c = some (s, p) ∧
      ∀ d ∈ g.peers, d ≠ c → g.identity d ≠ (some s, some p) := by
  constructor
  · intro ha
    have hb : g.binding c = some (s, p) := by
      have hsum := ha.announced
      rw [sum_announces hlater, hcl.announces hopen] at hsum
      by_contra hne
      simp [hne] at hsum
    refine ⟨hb, fun d hd hdc hid => ?_⟩
    have hsession : (g.connection d).sessionId = some s := congrArg Prod.fst hid
    have hpeer : (g.connection d).peerId = some p := congrArg Prod.snd hid
    have hsum := ha.told d hd hdc hsession
    rw [sum_tells hlater, hcl.tells hopen h hd hdc hsession] at hsum
    simp [hpeer] at hsum
  · rintro ⟨hb, halone⟩
    constructor
    · intro hm
      exact ((hcl.parts hopen).member s p hm).2 hb
    · intro e he
      rw [hlater e he]
    · intro d hd hdc hsession
      have hpeer : (g.connection d).peerId ≠ some p := fun hp =>
        halone d hd hdc (Prod.ext hsession hp)
      rw [sum_tells hlater, hcl.tells hopen h hd hdc hsession, if_pos ⟨hb, hpeer⟩]
    · rw [sum_announces hlater, hcl.announces hopen, if_pos hb]

theorem not_announcedOnce_drop (hopen : g.flags c = false) {later : List (Ending F)}
    (hlater : ∀ e ∈ later, e.after = e.before) :
    ¬ AnnouncedOnce c s p ⟨c, g, g.drop m c⟩ later := by
  intro ha
  have hsum := ha.announced
  rw [sum_announces hlater, drop_announces m hopen] at hsum
  split at hsum <;> omega

/-- The clean-up ends a stale connection, and not in order if it is bound. -/
theorem dropped_bound (h : g.Tidy) {x : Moment × ServerEvent F} (hx : x.2 = .act .cleanup)
    (hin : c ∈ g.peers) (hstale : g.Stale (x.1.now - cfg.stalePeerTimeoutMs) c) :
    ∃ first, (endings cfg g x).filter (·.connection = c) = [first] ∧
      first.before.flags c = false ∧ first.before.identity c = g.identity c ∧
      ∀ s p later, (∀ e ∈ later, e.after = e.before) → ¬ AnnouncedOnce c s p first later := by
  obtain ⟨m, event⟩ := x
  cases hx
  obtain ⟨g', hone, hopen, hid⟩ := dropped_one (m := m) h.nodup h.isOpen hin hstale
  exact ⟨⟨c, g', g'.drop m c⟩, hone, hopen, hid, fun s p later hlater =>
    not_announcedOnce_drop hopen hlater⟩

/-- One event ends connections in order exactly if it is clean. -/
theorem clean_iff {x : Moment × ServerEvent F} (h : g.Tidy) {more : ConnectionId → List (Ending F)}
    (hmore : ∀ c, (serve cfg g x).Gone c → ∀ e ∈ more c, e.after = e.before) :
    Clean cfg g x ↔ ∀ c s p first later,
      (endings cfg g x).filter (·.connection = c) = first :: later →
      first.before.flags c = false → first.before.identity c = (some s, some p) →
        AnnouncedOnce c s p first (later ++ more c) := by
  constructor
  · intro hx c s p first later heq hopen hid
    have hlater := hmore c (gone_of_ending h (by simp [heq]))
    rcases endings_spec cfg g x c with hnone | hcloses | ⟨hcleanup, hin, hstale⟩
    · simp [hnone] at heq
    · obtain ⟨hcl, hone⟩ := endings_closes cfg g hcloses
      simp only [hone, List.filter_cons, decide_true, if_true, List.filter_nil] at heq
      cases heq
      refine (hcl.announcedOnce_iff h hopen hlater).2 ?_
      rcases hx.closes c hcloses with hclosed | hwell
      · exact absurd (hopen.symm.trans hclosed) (by simp)
      · exact hwell s p hid
    · obtain ⟨only, hone, -, hsame, -⟩ := dropped_bound h hcleanup hin hstale
      rw [hone] at heq
      cases heq
      exact absurd (hsame.symm.trans hid) (hx.cleanup hcleanup c hin hstale s p)
  · intro hall
    constructor
    · intro c hcloses
      obtain ⟨hcl, hone⟩ := endings_closes cfg g hcloses
      cases hflag : g.flags c with
      | true => exact .inl hflag
      | false =>
        refine .inr fun s p hid => ?_
        have honce := hall c s p ⟨c, g, serve cfg g x⟩ [] (by simp [hone]) hflag hid
        exact (hcl.announcedOnce_iff h hflag (hmore c (hcl.gone h))).1 honce
    · intro hcleanup c hin hstale s p hid
      obtain ⟨only, hone, hopen, hsame, hnot⟩ := dropped_bound h hcleanup hin hstale
      have hgone : (serve cfg g x).Gone c := gone_of_ending h (by simp [hone])
      exact hnot s p (more c) (hmore c hgone) (hall c s p only [] hone hopen (hsame.trans hid))

theorem departsOnce_iff {run : List (Moment × ServerEvent F)} (h : g.Tidy)
    (haccepts : Allowed (serve cfg) Accepts g run) :
    DepartsOnce cfg g run ↔ Allowed (serve cfg) (Clean cfg) g run := by
  induction run generalizing g with
  | nil => simp [DepartsOnce, endingsOf, Allowed]
  | cons x rest ih =>
    have htidy : (serve cfg g x).Tidy := tidy_serve h haccepts.1
    have hrest : ∀ c, (serve cfg g x).Gone c → ∀ e ∈ endingsOf cfg c (serve cfg g x) rest,
        e.after = e.before := fun c hgone e he => (endingsOf_gone htidy haccepts.2 hgone e he).1
    rw [Allowed, clean_iff h hrest, ← ih htidy haccepts.2]
    constructor
    · intro hall
      refine ⟨fun c s p first later heq hopen hid => ?_, fun c s p first later heq hopen hid => ?_⟩
      · exact hall c s p first _ (by rw [endingsOf, heq, List.cons_append]) hopen hid
      · have hnone : (endings cfg g x).filter (·.connection = c) = [] := by
          by_contra hsome
          have hflag := (endingsOf_gone htidy haccepts.2 (gone_of_ending h hsome) first
            (by simp [heq])).2
          exact absurd (hopen.symm.trans hflag) (by simp)
        exact hall c s p first later (by rw [endingsOf, hnone, List.nil_append, heq]) hopen hid
    · rintro ⟨hhead, htail⟩ c s p first later heq hopen hid
      rw [endingsOf] at heq
      cases hnow : (endings cfg g x).filter (·.connection = c) with
      | nil => exact htail c s p first later (by simpa [hnow] using heq) hopen hid
      | cons e now =>
        rw [hnow, List.cons_append] at heq
        cases heq
        exact hhead c s p first now hnow hopen hid

end SignalingGateway

open SignalingGateway in
/-- Each departure of a run is announced once exactly if the clean-up finds no bound connection
that is stale, and no connection closes whose identity another one has taken on too. -/
theorem departures_are_announced_once_iff {cfg : SignalingServerConfig}
    {run : List (Moment × ServerEvent F)} (haccepts : Allowed (serve cfg) Accepts .new run) :
    DepartsOnce cfg .new run ↔ Allowed (serve cfg) (Clean cfg) .new run :=
  departsOnce_iff ⟨List.nodup_nil, by simp [SignalingGateway.new]⟩ haccepts

namespace Sample

/-- The owner opens session `s` and peer `p` joins it. -/
def paired : List (Moment × ServerEvent Unit) :=
  [.act (.attach 0), .act (.text 0 (message .CREATE_SESSION none none (.create "o" []))),
    .act (.attach 1), .act (.text 1 (message .JOIN_SESSION (some "p") none (.other "")))].map
    (moment, ·)

/-- The peer sends a close frame, and its socket closes. -/
def parted : List (Moment × ServerEvent Unit) :=
  paired ++ [(moment, .closeFrame 1), (moment, .act (.closed 1))]

/-- The owner is heard of again, and the peer is not. -/
def forgotten : List (Moment × ServerEvent Unit) :=
  paired ++ [({ moment with now := 50 }, .act (.text 0 (.error "no"))),
    ({ moment with now := 90 }, .act .cleanup)]

end Sample

open SignalingGateway in
theorem departures_are_announced_once_sample : DepartsOnce Sample.config .new Sample.parted := by
  have haccepts : Allowed (serve Sample.config) Accepts .new Sample.parted :=
    ⟨rfl, trivial, rfl, trivial, trivial, trivial, trivial⟩
  have hopen : ∀ g x, x.2.closes = none → x.2 ≠ .act .cleanup →
      Clean (F := Unit) Sample.config g x :=
    fun g x hcloses hcleanup => ⟨by simp [hcloses], fun h => absurd h hcleanup⟩
  have hid : ∀ g : SignalingGateway Unit, g.identity 1 = (some "s", some "p") →
      g.binding 1 = some ("s", "p") → (∀ d ∈ g.peers, d ≠ 1 → g.identity d ≠ (some "s", some "p")) →
        EndsWell 1 g := by
    intro g hidentity hbinding halone
    refine .inr fun s p hid => ?_
    obtain ⟨rfl, rfl⟩ : s = "s" ∧ p = "p" := by simpa [hidentity, eq_comm] using hid
    exact ⟨hbinding, halone⟩
  refine (departures_are_announced_once_iff haccepts).2 ⟨hopen _ _ rfl (by simp),
    hopen _ _ rfl (by simp), hopen _ _ rfl (by simp), hopen _ _ rfl (by simp),
    ⟨fun c hc => ?_, by simp⟩, ⟨fun c hc => ?_, by simp⟩, trivial⟩
  · obtain rfl : 1 = c := by simpa [ServerEvent.closes] using hc
    exact hid _ (by decide +kernel) (by decide +kernel) (by decide +kernel)
  · obtain rfl : 1 = c := by simpa [ServerEvent.closes] using hc
    exact .inl (by decide +kernel)

open SignalingGateway in
/-- A stale peer is said to have left twice, to the owner and to the listeners. -/
theorem stale_peer_leaves_twice :
    Allowed (serve Sample.config) Accepts .new Sample.forgotten ∧
      ¬ DepartsOnce Sample.config .new Sample.forgotten ∧
      (steps (serve Sample.config) .new Sample.forgotten).log.countP (Effect.tells 0 "s" "p") = 2 ∧
      (steps (serve Sample.config) .new Sample.forgotten).log.countP
        (Effect.announces "s" "p") = 2 := by
  have haccepts : Allowed (serve Sample.config) Accepts .new Sample.forgotten :=
    ⟨rfl, trivial, rfl, trivial, trivial, trivial, trivial⟩
  have htidy : (SignalingGateway.new : SignalingGateway Unit).Tidy :=
    ⟨List.nodup_nil, by simp [SignalingGateway.new]⟩
  refine ⟨haccepts, fun h => ?_, by decide +kernel, by decide +kernel⟩
  obtain ⟨-, -, -, -, -, hclean, -⟩ := (departsOnce_iff htidy haccepts).1 h
  exact hclean.cleanup rfl 1 (by decide +kernel) (by unfold Stale; decide +kernel) "s" "p"
    (by decide +kernel)

end PonsWarp.Signaling
