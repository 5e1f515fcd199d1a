import PonsWarp.Signaling.Capacity

set_option autoImplicit false

/-!
What the peers of a session know of each other from the envelopes they receive.
-/

namespace PonsWarp.Signaling

open PonsWarp.Data PonsWarp.Core

variable {F : Type}

/-- Whom a peer knows after an envelope. A session that it creates or joins makes it start anew. -/
def SignalingEnvelope.hear (envelope : SignalingEnvelope F) (known : List PeerId) : List PeerId :=
  match envelope.type, envelope.payload with
  | .SESSION_CREATED, _ => []
  | .SESSION_JOINED, .joined self _ peers _ => (peers.map (·.peerId)).filter (· ≠ self)
  | .PEER_JOINED, .peer p _ => insertNew known p
  | .PEER_LEFT, .peer p _ => known.filter (· ≠ p)
  | _, _ => known

def Effect.hear (c : ConnectionId) (known : List PeerId) : Effect F → List PeerId
  | .send d envelope => if d = c then envelope.hear known else known
  | _ => known

namespace SignalingGateway

/-- Whom the connection knows in its session. -/
def roster (g : SignalingGateway F) (c : ConnectionId) : List PeerId :=
  g.log.foldl (fun known x => x.hear c known) []

variable {g g' g'' : SignalingGateway F} {c d : ConnectionId} {s : SessionId} {p : PeerId}
  {own : ConnectionId → PeerId} {cfg : SignalingServerConfig}

theorem roster_send (g : SignalingGateway F) (c d : ConnectionId) (envelope : SignalingEnvelope F) :
    (g.send d envelope).roster c =
      if d = c ∧ (g.connection d).closed = false then envelope.hear (g.roster c)
      else g.roster c := by
  unfold send
  cases hclosed : (g.connection d).closed with
  | true => simp
  | false => simp [roster, Effect.hear]

theorem connection_send (g : SignalingGateway F) (c d : ConnectionId)
    (envelope : SignalingEnvelope F) : (g.send d envelope).connection c = g.connection c := by
  obtain ⟨l, hl, -⟩ := g.send_eq d envelope
  rw [hl]
  rfl

/-- What is sent to a list of connections is heard by those in it, however often. -/
theorem roster_sendAll {envelope : SignalingEnvelope F}
    (htwice : ∀ known, envelope.hear (envelope.hear known) = envelope.hear known)
    (targets : List ConnectionId) (hopen : c ∈ targets → (g.connection c).closed = false) :
    (targets.foldl (fun g d => g.send d envelope) g).roster c =
      if c ∈ targets then envelope.hear (g.roster c) else g.roster c := by
  induction targets generalizing g with
  | nil => simp
  | cons d rest ih =>
    have hrest : c ∈ rest → ((g.send d envelope).connection c).closed = false := by
      intro hin
      rw [connection_send]
      exact hopen (List.mem_cons_of_mem _ hin)
    rw [List.foldl_cons, ih hrest, roster_send]
    by_cases hd : d = c
    · subst hd
      simp only [hopen List.mem_cons_self, and_self, if_true, List.mem_cons_self]
      split
      · exact htwice _
      · rfl
    · have hne : ¬ c = d := fun he => hd he.symm
      simp [hd, hne]

theorem roster_broadcast {envelope : SignalingEnvelope F}
    (htwice : ∀ known, envelope.hear (envelope.hear known) = envelope.hear known)
    (hopen : (g.connection c).closed = false) (hin : c ∈ g.peers) (s : SessionId) (p : PeerId) :
    (g.broadcast s envelope p).roster c =
      if (g.connection c).sessionId = some s ∧ (g.connection c).peerId ≠ some p
      then envelope.hear (g.roster c) else g.roster c := by
  unfold broadcast
  rw [roster_sendAll htwice _ fun _ => hopen]
  simp [hin]

/-- The peer of the connection is in the room, and what the connection knows is who else is. -/
def Knows (g : SignalingGateway F) (c : ConnectionId) (p : PeerId) (room : MutableRoomRecord F) :
    Prop :=
  room.peers.has p = true ∧ ∀ q, q ∈ g.roster c ↔ q ≠ p ∧ room.peers.has q = true

/-- The attached connections that are `ok` know the rooms they are bound to. -/
def Agrees (ok : ConnectionId → Prop) (g : SignalingGateway F) : Prop :=
  ∀ c ∈ g.peers, ok c → ∀ s p, g.identity c = (some s, some p) →
    ∀ room, g.roomManager.rooms.get? s = some room → g.Knows c p room

/-- Nothing happens that a peer hears of; rooms and attached connections may go. -/
structure Quiet (g g' : SignalingGateway F) : Prop where
  identity : ∀ c, g'.identity c = g.identity c
  peers : ∀ c ∈ g'.peers, c ∈ g.peers
  closed : ∀ c ∈ g'.peers, (g'.connection c).closed = (g.connection c).closed
  rooms : g.roomManager.Shrinks g'.roomManager
  roster : ∀ c, g'.roster c = g.roster c

theorem Quiet.trans (h : Quiet g g') (h' : Quiet g' g'') : Quiet g g'' :=
  ⟨fun c => (h'.identity c).trans (h.identity c), fun c hc => h.peers c (h'.peers c hc),
    fun c hc => (h'.closed c hc).trans (h.closed c (h'.peers c hc)),
    fun s room hroom => h.rooms s room (h'.rooms s room hroom),
    fun c => (h'.roster c).trans (h.roster c)⟩

theorem Agrees.quiet {ok : ConnectionId → Prop} (h : g.Agrees ok) (hq : Quiet g g') :
    g'.Agrees ok := by
  intro c hc hok s p hid room hroom
  rw [hq.identity] at hid
  rw [Knows, hq.roster]
  exact h c (hq.peers c hc) hok s p hid room (hq.rooms s room hroom)

theorem quiet_send (g : SignalingGateway F) (c : ConnectionId) {envelope : SignalingEnvelope F}
    (hsilent : ∀ known, envelope.hear known = known) : Quiet g (g.send c envelope) := by
  obtain ⟨l, hl, -⟩ := g.send_eq c envelope
  refine ⟨fun d => ?_, fun d hd => ?_, fun d _ => ?_, fun s room hroom => ?_, fun d => ?_⟩
  · rw [hl]
    rfl
  · rw [hl] at hd
    exact hd
  · rw [connection_send]
  · rwa [send_roomManager] at hroom
  · rw [roster_send]
    simp [hsilent]

theorem quiet_emit (g : SignalingGateway F) (event : SignalingGatewayEvent F) :
    Quiet g (g.emit event) :=
  ⟨fun _ => rfl, fun _ h => h, fun _ _ => rfl, fun _ _ h => h,
    fun c => by simp [emit, roster, Effect.hear]⟩

theorem quiet_heard (g : SignalingGateway F) (m : Moment) (c : ConnectionId) :
    Quiet g (g.heard m c) := by
  have hsame : Same g (g.heard m c) := same_putConnection rfl rfl
  refine ⟨hsame.identity, fun _ h => h, fun d _ => ?_, fun _ _ h => h, fun _ => rfl⟩
  rw [heard, connection_putConnection]
  split
  · rename_i he
    rw [he]
  · rfl

theorem quiet_rooms {rooms : RoomManager F} (h : g.roomManager.Shrinks rooms) :
    Quiet g { g with roomManager := rooms } :=
  ⟨fun _ => rfl, fun _ h => h, fun _ _ => rfl, h, fun _ => rfl⟩

theorem quiet_sendError (g : SignalingGateway F) (m : Moment) (c : ConnectionId)
    (s : Option SessionId) (p : Option PeerId) (message code : String) :
    Quiet g (g.sendError m c s p message code) :=
  quiet_send g c fun _ => rfl

/-- The others in the room hear that a peer leaves. -/
theorem Agrees.leave {ok : ConnectionId → Prop} (h : g.Agrees ok)
    (hopen : ∀ c ∈ g.peers, (g.connection c).closed = false) (m : Moment) (s : SessionId)
    (p : PeerId) (hgone : ∀ c ∈ g.peers, ok c → g.identity c ≠ (some s, some p)) :
    (g.leave m s p).Agrees ok := by
  set told : SignalingEnvelope F := ⟨"msg_" ++ m.broadcastUuid, .PEER_LEFT, some s, some p, none,
    m.now, .peer p none⟩ with htold
  have htwice : ∀ known, told.hear (told.hear known) = told.hear known := by
    intro known
    simp [htold, SignalingEnvelope.hear]
  set left : SignalingGateway F :=
    { g with roomManager := (g.roomManager.leaveSession s p).1 } with hleft
  have hleave : g.leave m s p = left.broadcast s told p := rfl
  obtain ⟨l, hl, -⟩ := left.broadcast_eq s told p
  intro c hc hok s' p' hid room' hroom'
  have hin : c ∈ g.peers := by
    rw [hleave, hl] at hc
    exact hc
  have hid' : g.identity c = (some s', some p') := by
    rw [hleave, hl] at hid
    exact hid
  have hfields : (g.connection c).sessionId = some s' ∧ (g.connection c).peerId = some p' := by
    simpa [identity] using hid'
  have hconnection : left.connection c = g.connection c := rfl
  have hroster : left.roster c = g.roster c := rfl
  have hroster : (g.leave m s p).roster c =
      if s' = s ∧ p' ≠ p then told.hear (g.roster c) else g.roster c := by
    have hheard := left.roster_broadcast htwice (hopen c hin) hin s p
    rw [← hleave, hconnection, hroster] at hheard
    simpa [hfields] using hheard
  have hrooms : (g.leave m s p).roomManager = (g.roomManager.leaveSession s p).1 := by
    rw [hleave, broadcast_roomManager]
  rw [hrooms] at hroom'
  rw [Knows, hroster]
  obtain ⟨room, hroom, ⟨hs, rfl⟩ | ⟨rfl, -, rfl⟩⟩ := RoomManager.room_leaveSession hroom'
  · rw [if_neg (fun hboth => hs hboth.1)]
    exact h c hin hok s' p' hid' room' hroom
  · have hp : p' ≠ p := fun he => hgone c hin hok (he ▸ hid')
    obtain ⟨hmember, hknown⟩ := h c hin hok s' p' hid' room hroom
    have hstay : ∀ q, (room.peers.delete p).has q = true ↔ q ≠ p ∧ room.peers.has q = true := by
      intro q
      simp only [OrderedMap.has, OrderedMap.get?_delete]
      split <;> simp_all
    refine ⟨(hstay p').2 ⟨hp, hmember⟩, fun q => ?_⟩
    rw [if_pos ⟨rfl, hp⟩]
    simp only [htold, SignalingEnvelope.hear, List.mem_filter, hknown q, hstay q,
      decide_eq_true_eq]
    tauto

/-- Each connection stands for its own peer or for nobody, those attached are open, and they know
the members of their rooms. -/
structure Coherent (own : ConnectionId → PeerId) (g : SignalingGateway F) : Prop where
  identity : ∀ c, g.identity c = (none, none) ∨ ∃ s, g.identity c = (some s, some (own c))
  isOpen : ∀ c ∈ g.peers, (g.connection c).closed = false
  agrees : g.Agrees fun _ => True

theorem Coherent.peer_eq (h : g.Coherent own) (hid : g.identity c = (some s, some p)) :
    p = own c := by
  obtain hnone | ⟨s', hsome⟩ := h.identity c
  · rw [hnone] at hid
    cases hid
  · rw [hsome] at hid
    cases hid
    rfl

theorem Coherent.quiet (h : g.Coherent own) (hq : Quiet g g') : g'.Coherent own := by
  refine ⟨fun c => ?_, fun c hc => ?_, h.agrees.quiet hq⟩
  · rw [hq.identity]
    exact h.identity c
  · rw [hq.closed c hc]
    exact h.isOpen c (hq.peers c hc)

theorem leave_same (g : SignalingGateway F) (m : Moment) (s : SessionId) (p : PeerId) :
    (∀ c, (g.leave m s p).connection c = g.connection c) ∧ (g.leave m s p).peers = g.peers := by
  obtain ⟨l, hl, -⟩ := broadcast_eq
    ({ g with roomManager := (g.roomManager.leaveSession s p).1 } : SignalingGateway F) s
    ⟨"msg_" ++ m.broadcastUuid, .PEER_LEFT, some s, some p, none, m.now, .peer p none⟩ p
  simp only [leave, broadcastPeerLeft]
  rw [hl]
  exact ⟨fun _ => rfl, rfl⟩

theorem identity_congr (h : g'.connection c = g.connection c) : g'.identity c = g.identity c := by
  simp only [identity, h]

theorem Coherent.leave (h : g.Coherent own) (m : Moment)
    (hgone : ∀ c ∈ g.peers, g.identity c ≠ (some s, some p)) : (g.leave m s p).Coherent own := by
  obtain ⟨hconnection, hpeers⟩ := g.leave_same m s p
  refine ⟨fun c => ?_, fun c hc => ?_,
    h.agrees.leave h.isOpen m s p fun c hc _ => hgone c hc⟩
  · rw [identity_congr (hconnection c)]
    exact h.identity c
  · rw [hconnection]
    exact h.isOpen c (hpeers ▸ hc)

theorem identity_of_binding (h : g.binding c = some (s, p)) :
    g.identity c = (some s, some p) := by
  unfold binding at h
  split at h
  · rename_i s' p' hs hp
    cases h
    exact Prod.ext (truthy_eq_some hs) (truthy_eq_some hp)
  · cases h

/-- The connection goes, whatever it was just before but attached. -/
theorem coherent_detach (hown : Function.Injective own) (m : Moment) (c : ConnectionId)
    (h : ({ g with peers := g.peers.filter (· ≠ c) } : SignalingGateway F).Coherent own) :
    (g.detach m c).Coherent own := by
  unfold detach
  simp only
  split
  · rename_i s p hb
    refine (h.leave m fun d hd hid => ?_).quiet (quiet_emit _ _)
    have hp := h.peer_eq (identity_of_binding hb)
    have hp' := h.peer_eq hid
    have hdc : d = c := hown (hp'.symm.trans hp)
    simp [hdc] at hd
  · exact h

theorem quiet_unattached (g : SignalingGateway F) (c : ConnectionId) :
    Quiet g { g with peers := g.peers.filter (· ≠ c) } :=
  ⟨fun _ => rfl, fun _ h => (List.mem_filter.1 h).1, fun _ _ => rfl, fun _ _ h => h, fun _ => rfl⟩

theorem coherent_handleClose (hown : Function.Injective own) (m : Moment) (c : ConnectionId)
    (h : g.Coherent own) : (g.handleClose m c).Coherent own := by
  unfold handleClose
  split
  · exact h
  · refine coherent_detach hown m c (h.quiet ⟨(same_flag g c).identity, fun d hd => ?_,
      fun d hd => ?_, fun _ _ h => h, fun _ => rfl⟩)
    · exact (List.mem_filter.1 hd).1
    · have hne : d ≠ c := by simpa using (List.mem_filter.1 hd).2
      have hflag := connection_putConnection g c d { g.connection c with closed := true }
      rw [if_neg hne] at hflag
      exact congrArg Connection.closed hflag

theorem coherent_dropStale (hown : Function.Injective own) {m : Moment} {cutoff : Number}
    {l : List ConnectionId} {n : Nat} (h : g.Coherent own) :
    (dropStale m cutoff l n g).1.Coherent own := by
  induction l generalizing n g with
  | nil => exact h
  | cons c rest ih =>
    unfold dropStale
    split
    · refine ih (coherent_detach hown m c (Coherent.quiet ?_ (quiet_unattached _ c)))
      unfold close
      split
      · exact h
      · refine coherent_handleClose hown m c (h.quiet ?_)
        exact ⟨fun _ => rfl, fun _ h => h, fun _ _ => rfl, fun _ _ h => h,
          fun d => by simp [roster, Effect.hear]⟩
    · exact ih h

theorem Coherent.bound (h : g.Coherent own) (c : ConnectionId) (s : SessionId)
    (hid : ∀ d, g'.identity d = if d = c then (some s, some (own c)) else g.identity d)
    (hpeers : g'.peers = g.peers)
    (hclosed : ∀ d, (g'.connection d).closed = (g.connection d).closed)
    (hself : c ∈ g.peers → ∀ room, g'.roomManager.rooms.get? s = some room →
      g'.Knows c (own c) room)
    (hothers : ∀ d ∈ g.peers, d ≠ c → ∀ s', g.identity d = (some s', some (own d)) →
      ∀ room, g'.roomManager.rooms.get? s' = some room → g'.Knows d (own d) room) :
    g'.Coherent own := by
  refine ⟨fun d => ?_, fun d hd => ?_, fun d hd _ s' p' hid' room hroom => ?_⟩
  · rw [hid]
    split
    · rename_i he
      exact .inr ⟨s, by rw [he]⟩
    · exact h.identity d
  · rw [hclosed]
    exact h.isOpen d (hpeers ▸ hd)
  · rw [hpeers] at hd
    rw [hid] at hid'
    split at hid'
    · rename_i he
      subst he
      cases hid'
      exact hself hd room hroom
    · rename_i hne
      have hp := h.peer_eq hid'
      subst hp
      exact hothers d hd hne s' hid' room hroom

theorem bind_spec (g : SignalingGateway F) (c : ConnectionId) (s : SessionId) (p : PeerId) :
    (∀ d, (g.bind c s p).identity d = if d = c then (some s, some p) else g.identity d) ∧
      ∀ d, ((g.bind c s p).connection d).closed = (g.connection d).closed := by
  refine ⟨fun d => identity_putConnection g c d _, fun d => ?_⟩
  have hput := connection_putConnection g c d
    { g.connection c with peerId := some p, sessionId := some s }
  refine (congrArg Connection.closed hput).trans ?_
  split
  · rename_i he
    rw [he]
  · rfl

/-- The gateway with the peer in its room and the connection bound to it. -/
def seated (g : SignalingGateway F) (rooms : RoomManager F) (c : ConnectionId) (s : SessionId)
    (p : PeerId) : SignalingGateway F :=
  { g with roomManager := rooms }.bind c s p

theorem roster_seated (rooms : RoomManager F) :
    (g.seated rooms c s p).roster d = g.roster d := rfl

theorem identity_seated (rooms : RoomManager F) :
    (g.seated rooms c s p).identity d = if d = c then (some s, some p) else g.identity d :=
  (bind_spec { g with roomManager := rooms } c s p).1 d

theorem closed_seated (rooms : RoomManager F) :
    ((g.seated rooms c s p).connection d).closed = (g.connection d).closed :=
  (bind_spec { g with roomManager := rooms } c s p).2 d

theorem send_peers (g : SignalingGateway F) (c : ConnectionId) (envelope : SignalingEnvelope F) :
    (g.send c envelope).peers = g.peers := by
  obtain ⟨l, hl, -⟩ := g.send_eq c envelope
  rw [hl]

/-- A new session has its owner only, and nobody else that is attached is bound to it. -/
theorem Coherent.created {rooms : RoomManager F} {room : MutableRoomRecord F}
    {answer : SignalingEnvelope F} (h : g.Coherent own)
    (hrooms : rooms.rooms = g.roomManager.rooms.set s room)
    (hroom : ∀ q, room.peers.has q = true ↔ q = own c) (hhear : ∀ known, answer.hear known = [])
    (hvacant : ∀ d ∈ g.peers, d ≠ c → (g.connection d).sessionId ≠ some s) :
    ((g.seated rooms c s (own c)).send c answer).Coherent own := by
  have hget : ∀ a, ((g.seated rooms c s (own c)).send c answer).roomManager.rooms.get? a =
      if a = s then some room else g.roomManager.rooms.get? a := by
    intro a
    rw [send_roomManager]
    exact (congrArg (·.get? a) hrooms).trans (OrderedMap.get?_set _ _ _ _)
  refine h.bound c s (fun d => ?_) (send_peers _ c answer) (fun d => ?_)
    (fun hc found hfound => ?_) fun d hd hne s' hid found hfound => ?_
  · rw [identity_congr (connection_send _ d c answer), identity_seated]
  · rw [connection_send, closed_seated]
  · rw [hget, if_pos rfl] at hfound
    cases hfound
    refine ⟨(hroom _).2 rfl, fun q => ?_⟩
    have hopen : ((g.seated rooms c s (own c)).connection c).closed = false := by
      rw [closed_seated]
      exact h.isOpen c hc
    rw [roster_send, if_pos ⟨rfl, hopen⟩, hhear, hroom]
    simp
  · have hs : s' ≠ s := by
      rintro rfl
      exact hvacant d hd hne (congrArg Prod.fst hid)
    rw [hget, if_neg hs] at hfound
    have hknows := h.agrees d hd trivial s' (own d) hid found hfound
    rw [Knows, roster_send, if_neg (fun hboth => hne hboth.1.symm), roster_seated]
    exact hknows

theorem coherent_handleCreateSession {m : Moment} {envelope : SignalingEnvelope F}
    {files : List F} (h : g.Coherent own)
    (hvacant : g.roomManager.rooms.get? (envelope.sessionId.getD ("sess_" ++ m.sessionUuid)) =
        none → ∀ d ∈ g.peers, d ≠ c → (g.connection d).sessionId ≠
      some (envelope.sessionId.getD ("sess_" ++ m.sessionUuid))) :
    (g.handleCreateSession cfg m c envelope (own c) files).1.Coherent own := by
  unfold handleCreateSession
  simp only
  generalize envelope.sessionId.getD ("sess_" ++ m.sessionUuid) = s at hvacant ⊢
  split
  · exact h
  · rename_i rooms session hok
    obtain ⟨hnew, hrooms⟩ := RoomManager.createSession_ok hok
    refine Coherent.quiet (h.created (congrArg RoomManager.rooms hrooms) (fun q => ?_)
      (fun _ => rfl) (hvacant hnew)) (quiet_emit _ _)
    simp only [OrderedMap.has, OrderedMap.get?_set, OrderedMap.get?_empty]
    split <;> simp_all

theorem broadcast_same (g : SignalingGateway F) (s : SessionId) (envelope : SignalingEnvelope F)
    (p : PeerId) : (∀ c, (g.broadcast s envelope p).connection c = g.connection c) ∧
      (g.broadcast s envelope p).peers = g.peers := by
  obtain ⟨l, hl, -⟩ := g.broadcast_eq s envelope p
  rw [hl]
  exact ⟨fun _ => rfl, rfl⟩

/-- Everybody in the room hears of the new peer, and the new peer of everybody. -/
theorem Coherent.joined {rooms : RoomManager F} {room : MutableRoomRecord F}
    {answer told : SignalingEnvelope F} (h : g.Coherent own) (hown : Function.Injective own)
    (hroom : g.roomManager.rooms.get? s = some room)
    (hrooms : rooms.rooms = g.roomManager.rooms.set s
      { room with peers := room.peers.set (own c) ⟨own c, .receiver⟩ })
    (hanswer : ∀ known q, q ∈ answer.hear known ↔
      q ≠ own c ∧ (room.peers.set (own c) ⟨own c, .receiver⟩).has q = true)
    (htold : ∀ known, told.hear known = insertNew known (own c)) :
    (((g.seated rooms c s (own c)).send c answer).broadcast s told (own c)).Coherent own := by
  set sent := (g.seated rooms c s (own c)).send c answer with hsent
  obtain ⟨hconnection, hpeers⟩ := sent.broadcast_same s told (own c)
  have hpeers' : sent.peers = g.peers := send_peers _ c answer
  have hidentity : ∀ d, sent.identity d =
      if d = c then (some s, some (own c)) else g.identity d := by
    intro d
    rw [identity_congr (connection_send _ d c answer), identity_seated]
  have hclosed : ∀ d, (sent.connection d).closed = (g.connection d).closed := by
    intro d
    rw [hsent, connection_send, closed_seated]
  have htwice : ∀ known, told.hear (told.hear known) = told.hear known := by
    intro known
    rw [htold, htold, insertNew, if_pos]
    exact mem_insertNew.2 (.inr rfl)
  have hmembers : ∀ q, (room.peers.set (own c) ⟨own c, .receiver⟩).has q = true ↔
      q = own c ∨ room.peers.has q = true := by
    intro q
    simp only [OrderedMap.has, OrderedMap.get?_set]
    split <;> simp_all
  have hget : ∀ a, (sent.broadcast s told (own c)).roomManager.rooms.get? a =
      if a = s then some { room with peers := room.peers.set (own c) ⟨own c, .receiver⟩ }
      else g.roomManager.rooms.get? a := by
    intro a
    rw [broadcast_roomManager, hsent, send_roomManager]
    exact (congrArg (·.get? a) hrooms).trans (OrderedMap.get?_set _ _ _ _)
  refine h.bound c s (fun d => ?_) (hpeers.trans hpeers') (fun d => ?_)
    (fun hc found hfound => ?_) fun d hd hne s' hid found hfound => ?_
  · rw [identity_congr (hconnection d), hidentity]
  · rw [hconnection, hclosed]
  · have hopen : (sent.connection c).closed = false := by
      rw [hclosed]
      exact h.isOpen c hc
    have hself : (sent.connection c).peerId = some (own c) := by
      have hpair := hidentity c
      rw [if_pos rfl] at hpair
      exact congrArg Prod.snd hpair
    rw [hget, if_pos rfl] at hfound
    cases hfound
    refine ⟨(hmembers _).2 (.inl rfl), fun q => ?_⟩
    rw [sent.roster_broadcast htwice hopen (hpeers' ▸ hc), if_neg (fun hboth => hboth.2 hself),
      hsent, roster_send, if_pos ⟨rfl, by rw [closed_seated]; exact h.isOpen c hc⟩]
    exact hanswer _ q
  · have hopen : (sent.connection d).closed = false := by
      rw [hclosed]
      exact h.isOpen d hd
    have hpair := hidentity d
    rw [if_neg hne, hid] at hpair
    have hsession : (sent.connection d).sessionId = some s' := congrArg Prod.fst hpair
    have hpeer : (sent.connection d).peerId = some (own d) := congrArg Prod.snd hpair
    have hother : own d ≠ own c := fun he => hne (hown he)
    have hold : sent.roster d = g.roster d := by
      rw [hsent, roster_send, if_neg (fun hboth => hne hboth.1.symm), roster_seated]
    rw [Knows, sent.roster_broadcast htwice hopen (hpeers' ▸ hd), hsession, hpeer, hold]
    rw [hget] at hfound
    by_cases hs : s' = s
    · subst hs
      rw [if_pos rfl] at hfound
      cases hfound
      obtain ⟨hin, hknown⟩ := h.agrees d hd trivial s' (own d) hid room hroom
      refine ⟨(hmembers _).2 (.inr hin), fun q => ?_⟩
      rw [if_pos ⟨rfl, by simpa using hother⟩, htold, mem_insertNew, hknown q, hmembers q]
      constructor
      · rintro (⟨hq, hq'⟩ | rfl)
        · exact ⟨hq, .inr hq'⟩
        · exact ⟨hother.symm, .inl rfl⟩
      · rintro ⟨hq, rfl | hq'⟩
        · exact .inr rfl
        · exact .inl ⟨hq, hq'⟩
    · rw [if_neg hs] at hfound
      have hknows := h.agrees d hd trivial s' (own d) hid found hfound
      rw [if_neg (fun hboth => hs (Option.some.inj hboth.1))]
      exact hknows

/-- The ids that a room lists are those of its peers. -/
theorem mem_snapshot {room : MutableRoomRecord F} {q : PeerId}
    (hnamed : ∀ p x, room.peers.get? p = some x → x.peerId = p) :
    q ∈ (toRoomSnapshot room).peers.map (·.peerId) ↔ room.peers.has q = true := by
  simp only [toRoomSnapshot, List.mem_map, OrderedMap.mem_values_iff, OrderedMap.has_iff]
  constructor
  · rintro ⟨x, ⟨p, hp⟩, rfl⟩
    rw [hnamed p x hp]
    exact ⟨x, hp⟩
  · rintro ⟨x, hx⟩
    exact ⟨x, ⟨q, hx⟩, hnamed q x hx⟩

theorem coherent_handleJoinSession {m : Moment} {envelope : SignalingEnvelope F}
    (h : g.Coherent own) (hown : Function.Injective own)
    (hself : ∀ s p, envelope.claims = some (s, p) → p = own c) (hf : g.roomManager.Fits cfg) :
    (g.handleJoinSession cfg m c envelope).1.Coherent own := by
  unfold handleJoinSession
  split
  · rename_i s p hs hp
    obtain rfl := hself s p (claims_eq_some.2 ⟨hs, hp⟩)
    split
    · rename_i rooms err heq
      exact h.quiet (quiet_rooms (RoomManager.settles_joinSession_error heq).1)
    · rename_i rooms session heq
      obtain ⟨room, hroom, hlive, rfl, hrooms⟩ := RoomManager.rooms_joinSession heq
      split
      · rename_i hfull
        have hsize : (toRoomSnapshot
            { room with peers := room.peers.set (own c) ⟨own c, .receiver⟩ }).peers.length =
            (room.peers.set (own c) ⟨own c, .receiver⟩).size := by
          simp [toRoomSnapshot, OrderedMap.values, OrderedMap.size]
        rw [hsize] at hfull
        subst hrooms
        exact h.quiet (quiet_rooms (RoomManager.shrinks_refused hf hroom hfull))
      · refine Coherent.quiet (h.joined hown hroom (congrArg RoomManager.rooms hrooms)
          (fun known q => ?_) fun known => rfl) (quiet_emit _ _)
        have hnamed : ∀ p x, (room.peers.set (own c) ⟨own c, .receiver⟩).get? p = some x →
            x.peerId = p := by
          intro p x hx
          rw [OrderedMap.get?_set] at hx
          split at hx
          · rename_i he
            cases hx
            exact he.symm
          · exact (hf s room hroom).named p x hx
        simp only [SignalingEnvelope.hear, List.mem_filter, decide_eq_true_eq]
        rw [mem_snapshot hnamed, and_comm]
  · exact h

/-- A peer leaves by message: its connection stands for nobody then. -/
theorem coherent_handleLeave (h : g.Coherent own) (hown : Function.Injective own) (m : Moment)
    (c : ConnectionId) (s : SessionId) : (g.handleLeave m c s (own c)).Coherent own := by
  unfold handleLeave
  obtain ⟨hconnection, hpeers⟩ := g.leave_same m s (own c)
  have hagrees : (g.leave m s (own c)).Agrees (· ≠ c) := by
    refine Agrees.leave (fun d hd _ => h.agrees d hd trivial) h.isOpen m s (own c) fun d _ hne hid => ?_
    exact hne (hown (h.peer_eq hid).symm)
  refine Coherent.quiet ⟨fun d => ?_, fun d hd => ?_, fun d hd _ s' p' hid room hroom => ?_⟩
    (quiet_emit _ _)
  · rw [identity_putConnection]
    split
    · exact .inl rfl
    · rw [identity_congr (hconnection d)]
      exact h.identity d
  · have hput := connection_putConnection (g.leave m s (own c)) c d
      { (g.leave m s (own c)).connection c with sessionId := none, peerId := none }
    refine (congrArg Connection.closed hput).trans ?_
    have hopen := h.isOpen d (hpeers ▸ hd)
    split
    · rename_i he
      rw [hconnection, ← he]
      exact hopen
    · rw [hconnection]
      exact hopen
  · rw [identity_putConnection] at hid
    split at hid
    · cases hid
    · rename_i hne
      exact hagrees d hd hne s' p' hid room hroom

/-- A connection speaks for its own peer only, and is attached as soon as it is made. -/
def Itself (own : ConnectionId → PeerId) (g : SignalingGateway F) : Moment × Action F → Prop
  | (_, .attach c) => g.connections.get? c = none
  | (_, .text c (.ok envelope)) => (∀ s p, envelope.claims = some (s, p) → p = own c) ∧
      ∀ p files, envelope.payload = .create p files → p = own c
  | _ => True

/-- No other attached connection is bound to a session that is opened. -/
def Vacant (cfg : SignalingServerConfig) (g : SignalingGateway F) : Moment × Action F → Prop
  | (m, .text c (.ok envelope)) => ∀ s p, g.Opens cfg m envelope s p →
      ∀ d ∈ g.peers, d ≠ c → (g.connection d).sessionId ≠ some s
  | _ => True

theorem hear_relayed {envelope : SignalingEnvelope F}
    (htype : envelope.type ∈ [SignalingMessageType.WEBRTC_OFFER, .WEBRTC_ANSWER, .ICE_CANDIDATE])
    (known : List PeerId) : envelope.hear known = known := by
  simp only [List.mem_cons, List.not_mem_nil, or_false] at htype
  unfold SignalingEnvelope.hear
  rcases htype with htype | htype | htype <;> simp [htype]

theorem quiet_handleRelay (g : SignalingGateway F) (m : Moment) (envelope : SignalingEnvelope F) :
    Quiet g (g.handleRelay m envelope).1 := by
  have hsettles := RoomManager.settles_relayWebRtc g.roomManager m.roomNow envelope
  unfold handleRelay
  split
  · rename_i heq
    rw [heq] at hsettles
    exact quiet_rooms hsettles.1
  · rename_i heq
    rw [heq] at hsettles
    obtain ⟨-, henvelope, htype, -⟩ := RoomManager.relayWebRtc_ok.1 heq
    simp only
    split
    · exact quiet_rooms hsettles.1
    · refine ((quiet_rooms hsettles.1).trans (quiet_send _ _ ?_)).trans (quiet_emit _ _)
      rw [henvelope]
      exact hear_relayed htype

theorem coherent_handleEnvelope {m : Moment} {envelope : SignalingEnvelope F}
    (h : g.Coherent own) (hown : Function.Injective own) (hf : g.roomManager.Fits cfg)
    (hself : g.Itself own (m, .text c (.ok envelope)))
    (hvacant : g.Vacant cfg (m, .text c (.ok envelope))) :
    (g.handleEnvelope cfg m c envelope).1.Coherent own := by
  have hrelay : (g.handleRelay m envelope).1.Coherent own := h.quiet (quiet_handleRelay g m envelope)
  unfold handleEnvelope
  split
  · rename_i p files htype hpayload
    obtain rfl := hself.2 p files hpayload
    refine coherent_handleCreateSession h fun hnew => ?_
    refine hvacant _ (own c) ⟨htype, .inl ⟨htype, ⟨files, hpayload⟩, rfl, ?_⟩⟩
    exact OrderedMap.has_eq_false_iff.2 hnew
  · exact coherent_handleJoinSession h hown hself.1 hf
  · exact hrelay
  · exact hrelay
  · exact hrelay
  · split
    · rename_i s p hs hp
      obtain rfl := hself.1 s p (claims_eq_some.2 ⟨hs, hp⟩)
      exact coherent_handleLeave h hown m c s
    · exact h
  · exact h.quiet (quiet_sendError g m c _ _ _ _)

theorem coherent_step {a : Moment × Action F} (h : g.Coherent own)
    (hown : Function.Injective own) (hf : g.roomManager.Fits cfg) (hself : g.Itself own a)
    (hvacant : g.Vacant cfg a) : (g.step cfg a).Coherent own := by
  obtain ⟨m, a⟩ := a
  cases a with
  | attach c =>
    have hfresh : g.connection c = ⟨none, none, 0, false⟩ := by
      simp only [connection, show g.connections.get? c = none from hself]
      rfl
    have hsame : ∀ d, (g.attach m c).identity d = g.identity d :=
      (quiet_heard g m c).identity
    have hclosed : ∀ d, ((g.attach m c).connection d).closed = (g.connection d).closed := by
      intro d
      refine (congrArg Connection.closed (connection_putConnection g c d _)).trans ?_
      split
      · rename_i he
        rw [he]
      · rfl
    refine ⟨fun d => ?_, fun d hd => ?_, fun d hd _ s p hid room hroom => ?_⟩
    · exact (hsame d).symm ▸ h.identity d
    · refine (hclosed d).trans ?_
      obtain hin | rfl := mem_insertNew.1 hd
      · exact h.isOpen d hin
      · rw [hfresh]
    · have hid' := (hsame d).symm.trans hid
      obtain hin | rfl := mem_insertNew.1 hd
      · exact h.agrees d hin trivial s p hid' room hroom
      · rw [identity, hfresh] at hid'
        cases hid'
  | text c decoded =>
    have hheard := h.quiet (quiet_heard g m c)
    cases decoded with
    | error err => exact hheard.quiet (quiet_sendError _ m c _ _ _ _)
    | ok envelope =>
      have hclear : (g.heard m c).Vacant cfg (m, .text c (.ok envelope)) := by
        intro s p hopens d hd hne hsession
        have hid := (quiet_heard g m c).identity d
        exact hvacant s p hopens d hd hne ((congrArg Prod.fst hid).symm.trans hsession)
      have hout := coherent_handleEnvelope hheard hown hf hself hclear
      simp only [SignalingGateway.step, handleText]
      rw [heard] at hout
      split
      · rename_i heq
        rw [heq] at hout
        exact hout.quiet (quiet_sendError _ m c _ _ _ _)
      · rename_i heq
        rw [heq] at hout
        exact hout
  | closed c => exact coherent_handleClose hown m c h
  | cleanup =>
    have hdropped : (dropStale m (m.now - cfg.stalePeerTimeoutMs) g.peers 0 g).1.Coherent own :=
      coherent_dropStale hown h
    exact hdropped.quiet (quiet_rooms (RoomManager.settles_cleanupExpired _ m.roomNow).1)

/-- Every attached connection that is bound to a session whose room is live is a member there and
knows the other members. -/
def RostersAgree (now : Number) (g : SignalingGateway F) : Prop :=
  ∀ c ∈ g.peers, ∀ s p, g.identity c = (some s, some p) →
    ∀ room, g.roomManager.rooms.get? s = some room → now < room.expiresAt → g.Knows c p room

end SignalingGateway

open SignalingGateway

/-- As long as no session is opened that another attached connection is still bound to, the peers
of a session know each other. -/
theorem rosters_agree {cfg : SignalingServerConfig} {own : ConnectionId → PeerId}
    {g : SignalingGateway F} (hown : Function.Injective own)
    (hrun : Run (SignalingGateway.step cfg) (fun g a => Itself own g a ∧ Vacant cfg g a) .new g)
    (now : Number) : g.RostersAgree now := by
  have hboth : g.roomManager.Fits cfg ∧ g.Coherent own := by
    refine hrun.invariant (P := fun g => g.roomManager.Fits cfg ∧ g.Coherent own)
      (fun g a h ha => ⟨fits_step a h.1, coherent_step h.2 hown h.1 ha.1 ha.2⟩) ⟨?_, ?_, ?_, ?_⟩
    · intro s room hroom
      cases hroom
    · exact fun c => .inl rfl
    · intro c hc
      cases hc
    · intro c hc
      cases hc
  exact fun c hc s p hid room hroom _ => hboth.2.agrees c hc trivial s p hid room hroom

namespace Sample

def peerOf (c : ConnectionId) : PeerId := String.ofList (List.replicate (c + 1) 'p')

theorem peerOf_injective : Function.Injective peerOf := by
  intro c d h
  have hlength := congrArg (fun p => p.toList.length) h
  simpa [peerOf] using hlength

theorem claims_message {type : SignalingMessageType} {c : ConnectionId} {payload : Payload Unit}
    {s : SessionId} {p : PeerId} (h : (⟨"m", type, some "s", some (peerOf c), none, 10, payload⟩ :
      SignalingEnvelope Unit).claims = some (s, p)) : p = peerOf c :=
  (Option.some.inj (truthy_eq_some (claims_eq_some.1 h).2)).symm

/-- Connection 0 opens a session that connection 1 joins. -/
def gathered : List (Moment × Action Unit) :=
  [.attach 0, .text 0 (message .CREATE_SESSION none none (.create (peerOf 0) [])),
    .attach 1, .text 1 (message .JOIN_SESSION (some (peerOf 1)) none (.other ""))].map (moment, ·)

/-- Its owner leaves the session and opens one of the same name. -/
def reopened : List (Moment × Action Unit) :=
  gathered ++
    [.text 0 (message .PEER_LEFT (some (peerOf 0)) none (.peer (peerOf 0) none)),
      .text 0 (message .CREATE_SESSION none none (.create (peerOf 0) []))].map (moment, ·)

end Sample

theorem rosters_agree_sample :
    (steps (SignalingGateway.step Sample.config) .new Sample.gathered).RostersAgree 10 := by
  have hallowed : Allowed (SignalingGateway.step Sample.config)
      (fun g a => Itself Sample.peerOf g a ∧ Vacant Sample.config g a) .new Sample.gathered := by
    refine ⟨⟨rfl, trivial⟩, ⟨⟨fun s p h => ?_, fun p files h => ?_⟩, fun s p _ d hd hne => ?_⟩,
      ⟨rfl, trivial⟩, ⟨⟨fun s p h => ?_, fun p files h => ?_⟩, fun s p h => ?_⟩, trivial⟩
    · cases h
    · cases h
      rfl
    · exact absurd (List.mem_singleton.1 hd) hne
    · exact Sample.claims_message h
    · cases h
    · cases h.1
  exact rosters_agree Sample.peerOf_injective (run_of_allowed hallowed) 10

/-- The peer that is left behind in a session is no member of the one that takes its name. -/
theorem roster_survives_session :
    ∃ g : SignalingGateway Unit,
      Run (SignalingGateway.step Sample.config) (Itself Sample.peerOf) .new g ∧
        Function.Injective Sample.peerOf ∧ ¬ g.RostersAgree 10 := by
  refine ⟨steps (SignalingGateway.step Sample.config) .new Sample.reopened, ?_,
    Sample.peerOf_injective, fun h => ?_⟩
  · refine run_of_allowed ⟨rfl, ⟨fun s p h => ?_, fun p files h => ?_⟩, rfl,
      ⟨fun s p h => ?_, fun p files h => ?_⟩, ⟨fun s p h => ?_, fun p files h => ?_⟩,
      ⟨fun s p h => ?_, fun p files h => ?_⟩, trivial⟩
    · cases h
    · cases h
      rfl
    · exact Sample.claims_message h
    · cases h
    · exact Sample.claims_message h
    · cases h
    · cases h
    · cases h
      rfl
  · have hattached : 1 ∈ (steps (SignalingGateway.step Sample.config) .new
        Sample.reopened).peers := by decide +kernel
    have hidentity : (steps (SignalingGateway.step Sample.config) .new
        Sample.reopened).identity 1 = (some "s", some "pp") := by decide +kernel
    have hroom : ((steps (SignalingGateway.step Sample.config) .new
        Sample.reopened).roomManager.rooms.get? "s").any
        (fun room => 10 < room.expiresAt && !room.peers.has "pp") = true := by decide +kernel
    obtain ⟨room, hroom, hout⟩ := Option.any_eq_true _ _ |>.1 hroom
    simp only [Bool.and_eq_true, decide_eq_true_eq, Bool.not_eq_true'] at hout
    have hknows := h 1 hattached "s" "pp" hidentity room hroom hout.1
    exact absurd hknows.1 (by simp [hout.2])

end PonsWarp.Signaling
