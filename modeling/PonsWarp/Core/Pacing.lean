import PonsWarp.Core.Actions
import PonsWarp.Core.Ranking

set_option autoImplicit false

/-!
One stretch of code makes at most one request. Everything it does around that
asks for nothing.
-/

namespace PonsWarp.Core

open PonsWarp.Data

/-- Asking a peer for a piece, in the tables or on the wire. -/
def Label.Asks : Label → Prop
  | .ask .. => True
  | .effect x => x.Requests
  | _ => False

/-- What a grant allows besides asking. -/
def Grant.mute (G : Grant) : Grant := fun label => G label ∧ ¬ label.Asks

def Grant.Mute (G : Grant) : Prop := ∀ label, G label → ¬ label.Asks

/-- The message that goes with the entry of a request. -/
def OutstandingRequest.message (t : Turn) (r : OutstandingRequest) : Effect :=
  .send r.peerId (.PIECE_REQUEST
    ⟨r.fileId, r.pieceIndex, t.createRequestId r.fileId r.pieceIndex, 0⟩) (t.sendFailure r.peerId)

namespace Engine

variable {σ : Type}

/-- The tables once a request has been recorded. -/
def ask (e : Engine σ) (t : Turn) (ref : Nat) (m : PieceManager) (r : OutstandingRequest) :
    Engine σ :=
  { e.putManager ref m with
    outstandingRequests := e.outstandingRequests.set (t.createRequestId r.fileId r.pieceIndex) r
    issued := e.issued ++ [t.createRequestId r.fileId r.pieceIndex] }

/-- The piece of the request is missing in the manager of its file. -/
structure Askable (e : Engine σ) (ref : Nat) (m : PieceManager) (r : OutstandingRequest) :
    Prop where
  marked : (e.managerAt ref).markRequested r.pieceIndex r.peerId = .ok m
  missing : r.pieceIndex ∈ (e.managerAt ref).getMissingPieces
  current : e.managers.get? r.fileId = some ref

/-- The piece may be tried once more. -/
def Retriable (e : Engine σ) (cfg : Config) (ref index : Nat) : Prop :=
  ∀ s, (e.managerAt ref).requirePiece index = .ok s → s.retryCount ≤ cfg.maxRetries

end Engine

section

variable {σ : Type} [StorageAdapter σ]

/-- At most one request is made, of a piece that may be retried when `strict`. -/
inductive Paced (cfg : Config) (t : Turn) (G : Grant) (strict : Prop) (e : Engine σ) :
    Engine σ → Prop
  | mute {e' : Engine σ} (h : Changes t G.mute e e') : Paced cfg t G strict e e'
  | asked {e1 e2 : Engine σ} (ref : Nat) (m : PieceManager) (r : OutstandingRequest)
      (l : List Effect) (before : Changes t G.mute e e1) (h : e1.Askable ref m r)
      (hg : G (.ask ref (t.createRequestId r.fileId r.pieceIndex) r))
      (hretry : strict → e1.Retriable cfg ref r.pieceIndex)
      (after : Changes t G.mute (e1.ask t ref m r) e2) (hl : l = [] ∨ l = [r.message t]) :
      Paced cfg t G strict e { e2 with log := e2.log ++ l }

end

namespace Grant

variable {G G' : Grant}

theorem Mute.le (hm : G.Mute) (h : G ≤ G') : G ≤ G'.mute :=
  fun label hl => ⟨h label hl, hm label hl⟩

theorem Mute.sup (h : G.Mute) (h' : G'.Mute) : (G ⊔ G').Mute := by
  intro label hl
  cases hl with
  | inl hl => exact h label hl
  | inr hl => exact h' label hl

theorem mute_only {label : Label} (h : ¬ label.Asks) : (Grant.only label).Mute := by
  intro l hl
  have he : l = label := hl
  rw [he]
  exact h

variable {σ : Type} {e : Engine σ} {t : Turn}

theorem mute_retire (requestId : RequestId) : (Grant.retire requestId).Mute := by
  intro label hl
  cases label <;> first | exact id | exact hl.elim

theorem mute_leases (expired : List RequestLease) : (Grant.leases expired).Mute := by
  intro label hl
  cases label <;> first | exact id | exact hl.elim

theorem mute_giveUp (ref i : Nat) (requestId : RequestId) :
    (Grant.giveUp e ref i requestId).Mute := by
  intro label hl
  cases label <;> first | exact id | exact hl.elim

theorem mute_announce (f : FileId) {x : Effect} (h : Engine.announces t f x) : ¬ x.Requests := by
  obtain ⟨p, map, rfl, -⟩ := h
  rintro ⟨q, m, failure, he⟩
  cases he

theorem mute_corrupt (r : Receipt) : (Grant.corrupt e r).Mute := by
  intro label hl
  cases label <;> first | exact id | exact hl.elim

theorem mute_accept (r : Receipt) : (Grant.accept e r).Mute := by
  intro label hl
  cases label <;> first | exact id | exact hl.elim

theorem mute_commit (r : Receipt) : (Grant.commit e t r).Mute := by
  intro label hl
  cases label with
  | effect x =>
    obtain ⟨p, requestId, rfl⟩ | h := hl
    · rintro ⟨q, m, failure, he⟩
      cases he
    · exact mute_announce _ h
  | _ => first | exact id | exact hl.elim

theorem mute_failHeader (h : PieceChunkHeaderMessage) : (Grant.failHeader e h).Mute := by
  intro label hl
  cases label <;> first | exact id | exact hl.elim

theorem mute_reject (p : PeerId) (h : PieceChunkHeaderMessage) : (Grant.reject e t p h).Mute := by
  intro label hl
  cases label with
  | effect x =>
    obtain rfl : x = _ := hl
    rintro ⟨q, m, failure, he⟩
    cases he
  | _ => first | exact id | exact hl.elim

theorem mute_append (p : PeerId) (h : PieceChunkHeaderMessage) (data : ArrayBuffer) :
    (Grant.append e t p h data).Mute := by
  intro label hl
  cases label with
  | effect x => exact mute_reject p h (.effect x) hl.2
  | ask => exact hl.2.elim
  | _ => exact id

theorem mute_binary (p : PeerId) (data : ArrayBuffer) : (Grant.binary e t p data).Mute := by
  intro label hl
  cases label with
  | effect x =>
    obtain ⟨h, -, hl⟩ := hl
    exact mute_append p h data (.effect x) hl
  | ask =>
    obtain ⟨h, -, -, hl⟩ := hl
    exact hl.elim
  | _ => exact id

theorem mute_upload (p : PeerId) : (Grant.upload t p).Mute := by
  intro label hl
  cases label with
  | effect x =>
    obtain ⟨h, rfl⟩ | ⟨frame, rfl⟩ | ⟨f, i, requestId, reason, rfl⟩ := hl
    all_goals
      rintro ⟨q, m, failure, he⟩
      cases he
  | _ => first | exact id | exact hl.elim

theorem mute_compete (f : FileId) (i : Nat) (keep : RequestId)
    (all : List (RequestId × OutstandingRequest)) : (Grant.compete t f i keep all).Mute := by
  intro label hl
  cases label with
  | effect x =>
    obtain ⟨p, requestId, rfl⟩ := hl
    rintro ⟨q, m, failure, he⟩
    cases he
  | _ => first | exact id | exact hl.elim

theorem mute_cancel (selector : DirectCancelSelector)
    (requests : List (RequestId × OutstandingRequest)) : (Grant.cancel selector requests).Mute := by
  intro label hl
  cases label <;> first | exact id | exact hl.elim

theorem mute_map (table : PieceAvailabilityTable) (map : PieceMapBroadcast) :
    (Grant.map table map).Mute := by
  intro label hl
  cases label <;> first | exact id | exact hl.elim

theorem mute_headed (p : PeerId) (h : PieceChunkHeaderMessage) : (Grant.headed e t p h).Mute := by
  rintro label ⟨-, -, ⟨-, rfl⟩ | ⟨previous, -, -, hl⟩⟩
  · exact id
  · exact mute_reject p h label hl

theorem mute_ack (p : PeerId) (requestId : RequestId) (f : FileId) (pieceIndex : Number) :
    (Grant.ack e p requestId f pieceIndex).Mute := by
  intro label hl
  cases label <;> first | exact id | exact hl.elim

/-- Of all messages only a reject makes the engine ask again. -/
theorem mute_message (p : PeerId) {m : WireMessage} (h : m.type ≠ "PIECE_REJECT") :
    (Grant.message e t p m).Mute := by
  rintro label (⟨-, rfl⟩ | ⟨-, map, -, hl⟩ | ⟨-, header, -, hl⟩ |
    ⟨-, requestId, f, i, -, -, -, hl⟩ | ⟨-, requestId, -, rfl⟩ | ⟨htype, -⟩)
  · exact id
  · exact mute_map _ map label hl
  · exact mute_headed p header label hl
  · exact mute_ack p requestId f i label hl
  · exact id
  · exact absurd htype h

theorem mute_expiring : (Grant.expiring e).Mute := by
  rintro label ⟨p, -, hl⟩
  exact mute_retire p.1 label hl

end Grant

namespace Paced

variable {σ : Type} [StorageAdapter σ] {e e1 e2 : Engine σ} {cfg : Config} {t : Turn}
variable {G : Grant} {strict : Prop}

/-- A stretch after changes that ask for nothing. -/
theorem after (hc : Changes t G.mute e e1) (h : Paced cfg t G strict e1 e2) :
    Paced cfg t G strict e e2 := by
  cases h with
  | mute h => exact .mute (hc.trans h)
  | asked ref m r l before h hg hretry hafter hl =>
    exact .asked ref m r l (hc.trans before) h hg hretry hafter hl

theorem refl : Paced cfg t G strict e e := .mute .refl

theorem of_does {H : Grant} {result : Engine σ × Next} (hm : H.Mute) (hle : H ≤ G)
    (h : Does cfg t H e result) : Paced cfg t G strict e result.1 :=
  .mute (h.changes.mono (hm.le hle))

end Paced

namespace Engine

variable {σ : Type} [StorageAdapter σ] {e e' e0 : Engine σ} {cfg : Config} {t : Turn}
variable {G : Grant} {strict : Prop}

omit [StorageAdapter σ] in
/-- The message of a request is sent, or there is no transport. -/
theorem sendPieceRequest_log (r : OutstandingRequest) :
    ∃ l, (l = [] ∨ l = [r.message t]) ∧
      (e.sendPieceRequest t r.peerId r.fileId r.pieceIndex
        (t.createRequestId r.fileId r.pieceIndex)).1 = { e with log := e.log ++ l } := by
  unfold sendPieceRequest send
  split
  · exact ⟨_, .inr rfl, rfl⟩
  · exact ⟨[], .inl rfl, by simp⟩

/-- The entry that `recordRequest` makes for a direct request. -/
def directEntry (cfg : Config) (t : Turn) (p : PeerId) (f : FileId) (i : Nat)
    (o : DirectRequestOptions) (generation : Nat) : OutstandingRequest :=
  ⟨f, i, p, t.clock, none, some ⟨o.timeoutMs.getD cfg.defaultDirectTimeout, o.controllerId,
    o.windowKey.getD (defaultWindowKey f p o.controllerId),
    t.clock + o.timeoutMs.getD cfg.defaultDirectTimeout, generation, o.retryCount⟩⟩

omit [StorageAdapter σ] in
/-- A direct request is recorded in a table with its window, and its timer is armed. -/
theorem recordRequest_direct (e : Engine σ) (cfg : Config) (t : Turn) (ref : Nat)
    (m : PieceManager) (p : PeerId) (f : FileId) (i : Nat) (o : DirectRequestOptions) :
    ∃ e1 generation, (e1 = e ∨ ∃ key w, e1 = e.newWindow key w ∧ w.queue = []) ∧
      (e.putManager ref m).recordRequest cfg t p f i (t.createRequestId f i) (some o) =
        { e1.ask t ref m (directEntry cfg t p f i o generation) with
          directTimers := e.directTimers.set (t.createRequestId f i) e.armed.length
          armed := e.armed ++ [(t.createRequestId f i,
            o.windowKey.getD (defaultWindowKey f p o.controllerId))] } := by
  by_cases hw : o.windowKey.getD (defaultWindowKey f p o.controllerId) ≠ "" ∧
      ¬ (e.putManager ref m).directWindows.has
        (o.windowKey.getD (defaultWindowKey f p o.controllerId))
  · simp only [recordRequest, if_pos hw]
    exact ⟨e.newWindow (o.windowKey.getD (defaultWindowKey f p o.controllerId))
      (freshWindow f p o.controllerId 1 0), _, .inr ⟨_, _, rfl, rfl⟩, rfl⟩
  · simp only [recordRequest, if_neg hw]
    exact ⟨e, _, .inl rfl, rfl⟩

/-- What `recordRequest` does around the entry of the request asks for nothing. -/
theorem recordRequest_ask (cfg : Config) (t : Turn) {ref i : Nat} {m : PieceManager} {p : PeerId}
    {f : FileId} (options : Option DirectRequestOptions) (hm : (e.managerAt ref).markRequested i p = .ok m)
    (hmissing : i ∈ (e.managerAt ref).getMissingPieces)
    (hcurrent : e.managers.get? f = some ref) :
    ∃ e1 r, Changes t ⊥ e e1 ∧ e1.heap = e.heap ∧ e1.Askable ref m r ∧ AskedBy p f options r ∧
      r.pieceIndex = i ∧ Changes t ⊥ (e1.ask t ref m r)
        ((e.putManager ref m).recordRequest cfg t p f i (t.createRequestId f i) options) := by
  have haskable : ∀ (e1 : Engine σ) (r : OutstandingRequest), e1.heap = e.heap →
      e1.managers = e.managers → AskedBy p f options r → r.pieceIndex = i →
      e1.Askable ref m r := by
    intro e1 r hheap hmanagers hr hi
    have hat : e1.managerAt ref = e.managerAt ref := by simp only [managerAt, hheap]
    exact ⟨by rw [hat, hi, hr.peer]; exact hm, by rw [hat, hi]; exact hmissing,
      by rw [hmanagers, hr.file]; exact hcurrent⟩
  cases options with
  | none =>
    exact ⟨e, _, .refl, rfl, haskable e ⟨f, i, p, t.clock, none, none⟩ rfl rfl
      ⟨rfl, rfl, rfl, rfl⟩ rfl, ⟨rfl, rfl, rfl, rfl⟩, rfl, .refl⟩
  | some o =>
    obtain ⟨e1, generation, he1, hrecord⟩ := e.recordRequest_direct cfg t ref m p f i o
    rw [hrecord]
    have hentry : AskedBy p f (some o) (directEntry cfg t p f i o generation) :=
      ⟨rfl, rfl, rfl, rfl⟩
    have htimer : Changes t ⊥ (e1.ask t ref m (directEntry cfg t p f i o generation)) _ :=
      .single (.minor _ e1.peerHealth e1.knownPeers
        (e.directTimers.set (t.createRequestId f i) e.armed.length) e1.nextDirectGeneration
        (e.armed ++ [(t.createRequestId f i,
          o.windowKey.getD (defaultWindowKey f p o.controllerId))]) e1.sessionId)
    obtain rfl | ⟨key, w, rfl, hq⟩ := he1
    · exact ⟨e1, _, .refl, rfl, haskable e1 _ rfl rfl hentry rfl, hentry, rfl, htimer⟩
    · exact ⟨_, _, .single (.newWindow e key w hq), rfl, haskable _ _ rfl rfl hentry rfl,
        hentry, rfl, htimer⟩

theorem paced_requestNextPiece (p : PeerId) (f : FileId) (options : Option DirectRequestOptions)
    (hg : Grant.request t p f options ≤ G) :
    Paced cfg t G strict e (e.requestNextPiece cfg t p f options).1 := by
  unfold requestNextPiece
  split
  · exact .refl
  · rename_i ref href
    split
    · exact .refl
    · exact .refl
    · rename_i scheduled hnext
      obtain ⟨i, hi, hpiece, hretry, -⟩ := OwnerFirstScheduler.nextOf_eq_some hnext
      have hindex : scheduled.piece.index = i := (PieceManager.requirePiece_eq_ok.1 hpiece).2
      simp only
      split
      · exact .refl
      · split
        · exact .refl
        · rename_i e1 he1
          obtain ⟨m, hm, rfl⟩ := onManager_spec he1
          rw [hindex] at hm ⊢
          obtain ⟨e1, r, hbefore, hheap, haskable, hasked, hri, hafter⟩ :=
            recordRequest_ask cfg t options hm hi (requireManager_eq_ok.1 href)
          obtain ⟨l, hl, hsent⟩ := sendPieceRequest_log (t := t) (e := (e.putManager ref m).recordRequest
            cfg t p f i (t.createRequestId f i) options) r
          rw [hasked.file, hasked.peer, hri] at hsent
          simp only [hsent]
          refine .asked ref m r l (hbefore.mono bot_le) haskable (hg (.ask _ _ _) hasked) ?_
            (hafter.mono bot_le) hl
          intro _ s hs
          have hat : e1.managerAt ref = e.managerAt ref := by simp only [managerAt, hheap]
          rw [hat, hri, hpiece] at hs
          cases hs
          exact hretry

/-- The grid asks for the first piece it may try, at its best provider. -/
theorem paced_scheduleRanked (f : FileId) (ref : Nat) (options : GridScheduleOptions)
    (now : Number) (items : List RankedPiece)
    (hmissing : ∀ item ∈ items, item.index ∈ (e.managerAt ref).getMissingPieces)
    (hcount : ∀ item ∈ items, ∀ s, (e.managerAt ref).requirePiece item.index = .ok s →
      s.retryCount = item.retryCount)
    (hcurrent : e.managers.get? f = some ref) (hg : Grant.grid e0 t f options ≤ G) :
    Paced cfg t G strict e (e.scheduleRanked cfg t f ref options now items).1 := by
  induction items with
  | nil => exact .refl
  | cons item rest ih =>
    unfold scheduleRanked
    split
    · exact .refl
    · rename_i hretry
      split
      · exact ih (fun x hx => hmissing x (List.mem_cons_of_mem _ hx))
          (fun x hx => hcount x (List.mem_cons_of_mem _ hx))
      · rename_i provider others _
        simp only
        split
        · exact .refl
        · rename_i table htable
          have hlease : Changes t G.mute e { e with availability := table } := by
            refine .single (.table e table ?_ ?_)
            · intro g n hn
              exact .inl ((PieceAvailabilityTable.count_lease htable g).symm.trans hn)
            · intro g j l hl
              obtain ⟨rfl, rfl, rfl⟩ | hold := PieceAvailabilityTable.getLease_lease htable hl
              · exact .inr rfl
              · exact .inl hold
          split
          · exact .mute hlease
          · rename_i e1 he1
            obtain ⟨m, hm, rfl⟩ := onManager_spec he1
            obtain ⟨l, hl, hsent⟩ := sendPieceRequest_log (t := t)
              (e := ({ e with availability := table } : Engine σ).ask t ref m
                ⟨f, item.index, provider.peerId, now, some options, none⟩)
              ⟨f, item.index, provider.peerId, now, some options, none⟩
            have haskable : ({ e with availability := table } : Engine σ).Askable ref m
                ⟨f, item.index, provider.peerId, now, some options, none⟩ :=
              ⟨hm, hmissing item List.mem_cons_self, hcurrent⟩
            have hretriable : ({ e with availability := table } : Engine σ).Retriable cfg ref
                item.index := by
              intro s hs
              rw [hcount item List.mem_cons_self s hs]
              omega
            have hpaced : Paced cfg t G strict e _ := .asked ref m _ l hlease haskable
              (hg (.ask _ _ _) ⟨rfl, rfl, rfl⟩) (fun _ => hretriable) .refl hl
            rw [← hsent] at hpaced
            exact hpaced

omit [StorageAdapter σ] in
theorem ensureAvailability_fields {f : FileId} {options : GridScheduleOptions} {now : Number}
    (h : e.ensureAvailability f options now = .ok e') :
    ∃ table, e' = { e with availability := table } := by
  unfold ensureAvailability at h
  split at h
  · cases h
    exact ⟨e.availability, rfl⟩
  · split at h
    · cases h
    · split at h
      · cases h
      · cases h
        exact ⟨_, rfl⟩

theorem paced_requestNextGridPiece (f : FileId) (options : GridScheduleOptions)
    (hg : Grant.grid e t f options ≤ G) :
    Paced cfg t G strict e (e.requestNextGridPiece cfg t f options).1 := by
  unfold requestNextGridPiece
  split
  · exact .refl
  · rename_i ref href
    have hcurrent := requireManager_eq_ok.1 href
    simp only
    split
    · exact .refl
    · have hexpire : Changes t (Grant.leases (e.availability.expireLeases (options.time t)).1) e
          (e.expireRequestLeases cfg (options.time t)).1 := changes_expireRequestLeases _ le_rfl
      have hmute : Grant.leases (e.availability.expireLeases (options.time t)).1 ≤ G.mute :=
        (Grant.mute_leases _).le (leases_le_grid.trans hg)
      split
      · rename_i e1 err he1
        rw [show e.expireRequestLeases cfg (options.time t) = _ from he1] at hexpire
        exact .mute (hexpire.mono hmute)
      · rename_i e1 he1
        rw [show e.expireRequestLeases cfg (options.time t) = _ from he1] at hexpire
        have hexpired : Changes t G.mute e e1 := hexpire.mono hmute
        split
        · exact .mute hexpired
        · rename_i e2 he2
          have hmanifests : e1.manifests = e.manifests := hexpire.manifests fun _ => id
          have hensure : Changes t G.mute e1 e2 := changes_ensureAvailability he2 fun manifest hm =>
            ⟨hg (.size _ _) ⟨rfl, manifest, hmanifests ▸ hm, rfl⟩, id⟩
          obtain ⟨table, rfl⟩ := ensureAvailability_fields he2
          split
          · rename_i e3 err he3
            have hrank := changes_rankPieces (t := t) (G := G.mute)
              (e := { e1 with availability := table }) f (e1.managerAt ref)
              (candidateSet options) options.ownerPeerId (options.maxRequestsPerPeer.getD 1)
              (activePerPeer e1.outstandingRequests.values) (options.time t)
              (e.managerAt ref).getMissingPieces
            rw [show rankPieces f (e1.managerAt ref) _ _ _ _ (options.time t) _ _ = _ from he3]
              at hrank
            exact .mute (hexpired.trans (hensure.trans hrank))
          · rename_i e3 ranked he3
            have hitems := mem_rankPieces_spec he3
            obtain ⟨⟨known, rfl⟩, -⟩ := rankPieces_spec he3
            refine .after (hexpired.trans (hensure.trans (changes_knownPeers known)))
              (paced_scheduleRanked f ref options _ _ ?_ ?_ ?_ hg)
            · intro item hitem
              have hin := mem_rankPieces he3 (List.mem_of_mem_filter (mem_insertionSort_before hitem))
              exact hexpire.missing (fun _ _ => id) (fun _ _ _ => id) hin
            · intro item hitem s hs
              obtain ⟨i, hi, s', hs', rfl⟩ := (hitems item).1
                (List.mem_of_mem_filter (mem_insertionSort_before hitem))
              have hindex : s'.index = i := (PieceManager.requirePiece_eq_ok.1 hs').2
              have hsame : (e1.managerAt ref).requirePiece i = .ok s := hindex ▸ hs
              have hsame' : (e1.managerAt ref).requirePiece i = .ok s' := hs'
              rw [hsame'] at hsame
              cases hsame
              rfl
            · have h1 : e1.managers = e.managers := managers_leases hexpire
              exact (congrArg (·.get? f) h1).trans hcurrent

/-- An endgame request is for a missing piece too, but nobody looks at its retries. -/
theorem paced_scheduleEndgame (f : FileId) (ref : Nat) (options : GridScheduleOptions)
    (active : PeerId → Nat) (now : Number) (missing : List Nat)
    (hmissing : ∀ i ∈ missing, i ∈ (e.managerAt ref).getMissingPieces)
    (hcurrent : e.managers.get? f = some ref) (hg : Grant.grid e0 t f options ≤ G)
    (hs : ¬ strict) :
    Paced cfg t G strict e (e.scheduleEndgame cfg t f ref options active now missing).1 := by
  induction missing generalizing e with
  | nil => exact .refl
  | cons i rest ih =>
    have hrest : ∀ j ∈ rest, j ∈ (e.managerAt ref).getMissingPieces :=
      fun j hj => hmissing j (List.mem_cons_of_mem _ hj)
    unfold scheduleEndgame
    simp only
    split
    · exact ih hrest hcurrent
    · have hrank := changes_rankProviders (t := t) (G := G.mute) (e := e) f i
        (candidateSet options) options.ownerPeerId (options.maxRequestsPerPeer.getD 1) active now
      split
      · exact .after hrank (ih hrest hcurrent)
      · rename_i provider others _
        split
        · exact .mute hrank
        · rename_i e1 he1
          obtain ⟨m, hm, rfl⟩ := onManager_spec he1
          obtain ⟨l, hl, hsent⟩ := sendPieceRequest_log (t := t)
            (e := (e.rankProviders f i (candidateSet options) options.ownerPeerId
              (options.maxRequestsPerPeer.getD 1) active now).2.ask t ref m
                ⟨f, i, provider.peerId, now, some options, none⟩)
            ⟨f, i, provider.peerId, now, some options, none⟩
          have haskable : (e.rankProviders f i (candidateSet options) options.ownerPeerId
              (options.maxRequestsPerPeer.getD 1) active now).2.Askable ref m
                ⟨f, i, provider.peerId, now, some options, none⟩ :=
            ⟨hm, hmissing i List.mem_cons_self, hcurrent⟩
          have hpaced : Paced cfg t G strict e _ := .asked ref m _ l hrank haskable
            (hg (.ask _ _ _) ⟨rfl, rfl, rfl⟩) (fun h => absurd h hs) .refl hl
          rw [← hsent] at hpaced
          exact hpaced

theorem paced_maybeScheduleEndgamePiece (f : FileId) (options : GridScheduleOptions)
    (hg : Grant.grid e t f options ≤ G) (hs : strict → options.endgame = some false) :
    Paced cfg t G strict e (e.maybeScheduleEndgamePiece cfg t f options).1 := by
  unfold maybeScheduleEndgamePiece
  split
  · exact .refl
  · rename_i hendgame
    split
    · exact .refl
    · rename_i ref href
      simp only
      split
      · exact .refl
      · have hexpire : Changes t (Grant.leases (e.availability.expireLeases (options.time t)).1) e
            (e.expireRequestLeases cfg (options.time t)).1 := changes_expireRequestLeases _ le_rfl
        have hmute : Grant.leases (e.availability.expireLeases (options.time t)).1 ≤ G.mute :=
          (Grant.mute_leases _).le (leases_le_grid.trans hg)
        split
        · rename_i e1 err he1
          rw [show e.expireRequestLeases cfg (options.time t) = _ from he1] at hexpire
          exact .mute (hexpire.mono hmute)
        · rename_i e1 he1
          rw [show e.expireRequestLeases cfg (options.time t) = _ from he1] at hexpire
          refine .after (hexpire.mono hmute)
            (paced_scheduleEndgame f ref options _ _ _ ?_ ?_ hg fun h => hendgame (hs h))
          · exact fun i hi => hexpire.missing (fun _ _ => id) (fun _ _ _ => id) hi
          · rw [managers_leases hexpire]
            exact requireManager_eq_ok.1 href

theorem paced_gridWindowLoop (f : FileId) (options : GridScheduleOptions) (total : Number)
    (scheduled : List GridScheduleResult) (hg : Grant.gridLoop e t f options total ≤ G)
    (hs : strict → options.endgame = some false) :
    Paced cfg t G strict e (e.gridWindowLoop cfg t f options total scheduled).1 := by
  unfold gridWindowLoop
  split
  · exact paced_maybeScheduleEndgamePiece f options (Grant.grid_le_gridLoop.trans hg) hs
  · exact .refl

theorem paced_gridWindowResult (f : FileId) (options : GridScheduleOptions) (total : Number)
    (scheduled : List GridScheduleResult) (result : GridScheduleResult)
    (hg : Grant.gridLoop e t f options total ≤ G) (hs : strict → options.endgame = some false) :
    Paced cfg t G strict e (e.gridWindowResult cfg t f options total scheduled result).1 := by
  unfold gridWindowResult
  split
  · exact paced_gridWindowLoop f options total _ hg hs
  · exact .refl

theorem paced_requestGridPieceWindow (f : FileId) (options : GridScheduleOptions)
    (total perPeer : Option Number)
    (hg : Grant.gridLoop e t f (gridWindowOptions options perPeer) (total.getD 1) ≤ G)
    (hs : strict → options.endgame = some false) :
    Paced cfg t G strict e (e.requestGridPieceWindow cfg t f options total perPeer).1 := by
  unfold requestGridPieceWindow
  simp only
  split
  · exact .refl
  · split
    · exact .refl
    · exact paced_gridWindowLoop f _ _ _ hg hs

theorem paced_gridEndgame (f : FileId) (options : GridScheduleOptions) (total : Number)
    (scheduled : List GridScheduleResult) (outcome : Except Failure Value)
    (hg : Grant.gridLoop e t f options total ≤ G) (hs : strict → options.endgame = some false) :
    Paced cfg t G strict e (e.gridEndgame cfg t f options total scheduled outcome).1 := by
  unfold gridEndgame
  split
  · exact .refl
  · exact paced_gridWindowResult f options total _ _ hg hs
  · exact paced_requestNextGridPiece f options (Grant.grid_le_gridLoop.trans hg)
  · exact .refl

theorem paced_gridNext (f : FileId) (options : GridScheduleOptions) (total : Number)
    (scheduled : List GridScheduleResult) (outcome : Except Failure Value)
    (hg : Grant.gridLoop e t f options total ≤ G) (hs : strict → options.endgame = some false) :
    Paced cfg t G strict e (e.gridNext cfg t f options total scheduled outcome).1 := by
  unfold gridNext
  split
  · exact .refl
  · exact paced_gridWindowResult f options total _ _ hg hs
  · exact .refl

theorem paced_fillWindow (window : Nat) (windowKey : String) (p : PeerId) (f : FileId)
    (options : DirectRequestOptions) (scheduled : List ScheduledPiece)
    (hg : Grant.request t p f (some { options with windowKey := some windowKey }) ≤ G) :
    Paced cfg t G strict e (e.fillWindow cfg t window windowKey p f options scheduled).1 := by
  unfold fillWindow
  simp only
  split
  · exact paced_requestNextPiece p f _ hg
  · exact .refl

theorem paced_windowFilled (window : Nat) (windowKey : String) (p : PeerId) (f : FileId)
    (options : DirectRequestOptions) (scheduled : List ScheduledPiece)
    (outcome : Except Failure Value)
    (hg : Grant.request t p f (some { options with windowKey := some windowKey }) ≤ G) :
    Paced cfg t G strict e
      (e.windowFilled cfg t window windowKey p f options scheduled outcome).1 := by
  unfold windowFilled
  split
  · exact .refl
  · exact paced_fillWindow _ _ _ _ _ _ hg
  · exact .refl
  · exact .refl

theorem paced_retryDirectRequest (requestId : RequestId) (request : OutstandingRequest)
    (direct : DirectRequest)
    (hg : Grant.request t request.peerId request.fileId (some (retryOptions direct)) ≤ G) :
    Paced cfg t G strict e (e.retryDirectRequest cfg t requestId request direct).1 := by
  unfold retryDirectRequest
  split
  · exact .refl
  · split
    · exact .refl
    · split
      · exact .refl
      · split
        · exact .refl
        · split
          · exact .refl
          · rename_i e1 he1
            have hreset : Changes t G.mute e e1 := by
              split at he1
              · exact changes_resetFailedToMissing he1
              · cases he1
                exact .refl
            exact .after hreset (paced_requestNextPiece _ _ _ hg)

theorem paced_runWindowJob (window : Nat) (job : WindowJob)
    (hg : Grant.windowJob t window job ≤ G) :
    Paced cfg t G strict e (e.runWindowJob cfg t window job).1 := by
  cases job with
  | fill p f windowKey options => exact paced_fillWindow _ _ _ _ _ _ fun l hl => hg l (.inl hl)
  | retry requestId request direct => exact paced_retryDirectRequest _ _ _ hg
  | expire requestId =>
    have hdoes : Does cfg t (Grant.windowJob t window (.expire requestId)) e _ :=
      does_runWindowJob window (.expire requestId) le_rfl
    exact .of_does (Grant.mute_retire requestId) hg hdoes

theorem paced_startWindowJob {window : Nat} {result : Engine σ × Next}
    (h : e.startWindowJob cfg t window = some result)
    (hg : ∀ w job rest, e.windowHeap[window]? = some w → w.queue = job :: rest →
      w.disabled = false → Grant.windowJob t window job ≤ G) :
    Paced cfg t G strict e result.1 := by
  unfold startWindowJob at h
  split at h
  · cases h
  · rename_i w hw
    split at h
    · cases h
    · rename_i job rest hq
      split at h
      · cases h
      · have hput := changes_putWindow (t := t) (G := G.mute) hw
          { w with queue := rest, running := true } id (by rw [hq]; exact List.suffix_cons job rest)
        simp only at h
        split at h
        · cases h
          exact .mute hput
        · rename_i hlive
          cases h
          have hd : w.disabled = false := by simpa using fun hdis => hlive (.inl hdis)
          exact .after hput (paced_runWindowJob _ _ (hg w job rest hw hq hd))

theorem paced_requestAgain (p : PeerId) (f : FileId) (options : Option GridScheduleOptions)
    (hg : Grant.again e t p f options ≤ G) :
    Paced cfg t G strict e (e.requestAgain cfg t p f options).1 := by
  unfold requestAgain
  split
  · exact paced_requestNextGridPiece f _ hg
  · exact paced_requestNextPiece p f none hg

theorem paced_rejectSent (p : PeerId) (h : PieceChunkHeaderMessage) (manager : Option Nat)
    (outstanding : Option OutstandingRequest) (finalized : Bool) (outcome : Except Failure Value)
    (hg : Grant.again e t p h.fileId (outstanding.bind (·.gridOptions)) ≤ G) :
    Paced cfg t G strict e (e.rejectSent cfg t p h manager outstanding finalized outcome).1 := by
  have hpersist : ∀ e1 : Engine σ, Paced cfg t G strict e1 (e1.persistState t).1 :=
    fun e1 => .of_does (H := ⊥) (fun _ hl => hl.elim) bot_le does_persistState
  unfold rejectSent
  split
  · exact .refl
  · refine .after (changes_emit (.pieceRejected h.fileId h.pieceIndex "invalid_chunk")) ?_
    simp only
    split
    · exact hpersist _
    · split
      · exact hpersist _
      · split
        · exact .refl
        · split
          · split
            · exact .refl
            · rename_i e1 he1
              refine .after (changes_resetFailedToMissing he1) ?_
              obtain ⟨m, -, rfl⟩ := resetFailedToMissing_spec he1
              exact paced_requestAgain p _ _ ((again_congr rfl rfl).le.trans hg)
          · exact hpersist _

theorem paced_responseSent (result : PieceReceiveResult) (outstanding : OutstandingRequest)
    (outcome : Except Failure Value)
    (hg : ∀ options, outstanding.gridOptions = some options →
      Grant.grid e t result.fileId options ≤ G) :
    Paced cfg t G strict e (e.responseSent cfg t result outstanding outcome).1 := by
  unfold responseSent
  split
  · exact .refl
  · split
    · rename_i options _ hoptions
      split
      · exact .refl
      · simp only
        split
        · exact .refl
        · split
          · split
            · exact .refl
            · rename_i e1 he1
              refine .after (changes_resetFailedToMissing he1) ?_
              obtain ⟨m, -, rfl⟩ := resetFailedToMissing_spec he1
              exact paced_requestNextGridPiece _ options
                ((Grant.grid_le rfl fun _ _ _ h => h).trans (hg options hoptions))
          · exact .refl
    · exact .refl

theorem paced_handleReject (p : PeerId) (requestId : RequestId) (reason : Option String)
    (hg : Grant.rejected e t p requestId ≤ G) :
    Paced cfg t G strict e (e.handleReject cfg t p requestId reason).1 := by
  unfold handleReject
  split
  · exact .refl
  · rename_i q hq
    split
    · exact .refl
    · rename_i hpeer
      have hpeer : q.peerId = p := not_not.1 hpeer
      have hretire : Grant.retire requestId ≤ G.mute :=
        (Grant.mute_retire requestId).le fun label hl => hg label ⟨q, hq, hpeer, .inl hl⟩
      have hagain : Grant.again e t q.peerId q.fileId q.gridOptions ≤ G :=
        fun label hl => hg label ⟨q, hq, hpeer, .inr hl⟩
      have hrelease : Changes t G.mute e { e.release q.fileId q.pieceIndex requestId with
          peerHealth := e.peerHealth.markReject cfg.log2 q.peerId } :=
        (changes_release _ _ _).trans (changes_health _)
      simp only
      split
      · exact .mute hrelease
      · rename_i ref href
        have hcurrent : e.managers.get? q.fileId = some ref := requireManager_eq_ok.1 href
        split
        · exact .mute hrelease
        · split
          · exact .mute hrelease
          · rename_i e1 he1
            have hfail := hrelease.trans (changes_markFailed (G := G.mute) (t := t) he1
              (.inl (backed_of_get hq hcurrent)))
            have hrestored : e1.Restored requestId := by
              refine restored_of_markFailed he1 fun q' hq' => ?_
              have hget : e.outstandingRequests.get? requestId = some q' := hq'
              rw [hq] at hget
              cases hget
              exact ⟨hcurrent, rfl⟩
            obtain ⟨m, hm, rfl, hlt⟩ := markFailed_spec he1
            split
            · exact .mute (hfail.trans (changes_finalizeDirectRequest _ _ hretire
                (.inl hrestored)))
            · rename_i hfalse
              have hdrop := hfail.trans (changes_drop requestId (hretire (.drop _) rfl)
                (.inl hrestored))
              rw [finalizeDirectRequest_false (by simpa using hfalse)]
              split
              · exact .mute hdrop
              · split
                · split
                  · exact .mute hdrop
                  · rename_i e2 he2
                    refine .after (hdrop.trans (changes_resetFailedToMissing he2)) ?_
                    obtain ⟨m2, -, rfl⟩ := resetFailedToMissing_spec he2
                    refine paced_requestAgain _ _ _ (le_trans (again_le ?_ ?_) hagain)
                    · rfl
                    · exact fun _ _ _ hl => PieceAvailabilityTable.getLease_release_le hl
                · exact .mute hdrop

theorem paced_handleTransportMessage (p : PeerId) (message : Option WireMessage)
    (hg : ∀ m, message = some m → Grant.message e t p m ≤ G) :
    Paced cfg t G strict e (e.handleTransportMessage cfg t p message).1 := by
  cases message with
  | none => exact .refl
  | some m =>
    have hg := hg m rfl
    by_cases hreject : m.type = "PIECE_REJECT"
    · have hknown : Changes t G.mute e { e with knownPeers := insertNew e.knownPeers p } :=
        changes_knownPeers _
      simp only [handleTransportMessage, hreject, if_false, if_true, String.reduceEq]
      split
      · exact .mute hknown
      · rename_i requestId hid
        refine .after hknown (paced_handleReject p requestId _ fun label hl => ?_)
        exact hg label (.inr (.inr (.inr (.inr (.inr
          ⟨hreject, requestId, (requireStringField_eq_ok.1 hid).1, hl⟩)))))
    · refine .of_does (Grant.mute_message p hreject) hg
        (does_handleTransportMessage p (some m) fun m' hm' => ?_)
      cases hm'
      exact le_rfl

end Engine

/-- The continuations that may ask for a piece. -/
def Frame.Asking : Frame → Prop
  | .fillWindow .. => True
  | .gridEndgame .. => True
  | .gridNext .. => True
  | .responseSent .. => True
  | .rejectSent .. => True
  | _ => False

/-- The calls that may ask for a piece by their first await. -/
def Call.Asking : Call → Prop
  | .requestNextPiece .. => True
  | .requestNextGridPiece .. => True
  | .requestGridPieceWindow .. => True
  | _ => False

theorem Frame.grant_mute {σ : Type} {e : Engine σ} {t : Turn} {frame : Frame}
    {outcome : Except Failure Value} (h : ¬ frame.Asking) : (frame.grant e t outcome).Mute := by
  have hframe : ∀ next : Frame, (Grant.only (.frame next)).Mute := fun next =>
    Grant.mute_only id
  cases frame with
  | fillWindow => exact absurd trivial h
  | gridEndgame => exact absurd trivial h
  | gridNext => exact absurd trivial h
  | responseSent => exact absurd trivial h
  | rejectSent => exact absurd trivial h
  | requestSent =>
    cases outcome with
    | error err => exact Grant.mute_giveUp _ _ _
    | ok v => exact hframe _
  | requestPersisted =>
    cases outcome with
    | error err => exact Grant.mute_giveUp _ _ _
    | ok v => exact fun _ hl => hl.elim
  | gridSent => exact hframe _
  | pieceChecked r =>
    obtain err | v := outcome
    · exact fun _ hl => hl.elim
    · cases v with
      | bool b =>
        cases b with
        | false => exact Grant.mute_corrupt r
        | true => exact Grant.mute_accept r
      | _ => exact fun _ hl => hl.elim
  | pieceDeleted => exact hframe _
  | mismatchPersisted r =>
    refine (Grant.mute_retire _).sup fun label hl => ?_
    cases label <;> first | exact id | exact hl.elim
  | pieceWritten =>
    cases outcome with
    | error err => exact Grant.mute_giveUp _ _ _
    | ok v => exact (Grant.mute_only id).sup (hframe _)
  | piecePersisted r =>
    cases outcome with
    | error err => exact Grant.mute_giveUp _ _ _
    | ok v => exact Grant.mute_commit r
  | resumeRead =>
    intro label hl
    cases label <;> first | exact id | exact hl.elim
  | resumeChecked =>
    intro label hl
    cases label <;> first | exact id | exact hl.elim
  | resumeDeleted =>
    intro label hl
    cases label <;> first | exact id | exact hl.elim
  | fileRestored =>
    obtain err | v := outcome
    · exact fun _ hl => hl.elim
    · cases v with
      | restored => exact (Grant.mute_only id).sup (hframe _)
      | _ => exact fun _ hl => hl.elim
  | filePersisted f =>
    refine Grant.Mute.sup (fun label hl => ?_) (hframe _)
    cases label with
    | effect x => exact Grant.mute_announce f hl
    | _ => first | exact id | exact hl.elim
  | joinInitialized => exact hframe _
  | joinLoaded =>
    obtain err | v := outcome
    · exact fun _ hl => hl.elim
    · cases v with
      | state state =>
        rintro label ⟨merged, -, ⟨m, -, rfl⟩ | hl⟩
        · exact id
        · cases label <;> first | exact id | exact hl.elim
      | _ => exact fun _ hl => hl.elim
  | joinRestored =>
    obtain err | v := outcome
    · exact fun _ hl => hl.elim
    · cases v with
      | restored =>
        refine (Grant.mute_only id).sup fun label hl => ?_
        cases label <;> first | exact id | exact hl.elim
      | _ => exact fun _ hl => hl.elim
  | createInitialized =>
    intro label hl
    cases label <;> first | exact id | exact hl.elim
  | createHashed =>
    obtain err | v := outcome
    · exact fun _ hl => hl.elim
    · cases v with
      | manifest =>
        refine ((Grant.mute_only id).sup (Grant.mute_only id)).sup fun label hl => ?_
        cases label <;> first | exact id | exact hl.elim
      | _ => exact fun _ hl => hl.elim
  | chunkAppended =>
    obtain err | v := outcome
    · exact fun _ hl => hl.elim
    · cases v with
      | buffer data =>
        cases data with
        | none => exact fun _ hl => hl.elim
        | some data =>
          intro label hl
          cases label <;> first | exact id | exact hl.elim
      | _ => exact fun _ hl => hl.elim
  | pieceReceived p header outstanding =>
    obtain err | v := outcome
    · exact Grant.mute_failHeader header
    · cases v with
      | received result =>
        refine (Grant.mute_only ?_).sup (hframe _)
        rintro ⟨q, m, failure, he⟩
        simp only [Engine.responseTo] at he
        split at he <;> simp at he
      | _ => exact fun _ hl => hl.elim
  | sourceRead => exact Grant.mute_upload _
  | storedRead => exact Grant.mute_upload _
  | headerSent => exact Grant.mute_upload _
  | binarySent => exact Grant.mute_upload _
  | uploadJob => exact Grant.mute_upload _
  | disposeFlushed =>
    obtain err | v := outcome
    · exact fun _ hl => hl.elim
    · exact Grant.mute_only id
  | _ => exact fun _ hl => hl.elim

theorem Call.grant_mute {σ : Type} {e : Engine σ} {t : Turn} {c : Call} (h : ¬ c.Asking) :
    (c.grant e t).Mute := by
  cases c with
  | requestNextPiece => exact absurd trivial h
  | requestNextGridPiece => exact absurd trivial h
  | requestGridPieceWindow => exact absurd trivial h
  | createSession => exact (Grant.mute_only id).sup (Grant.mute_only id)
  | joinSession => exact (Grant.mute_only id).sup (Grant.mute_only id)
  | receivePiece =>
    intro label hl
    cases label <;> first | exact id | exact hl.elim
  | resumeFile =>
    rintro label ⟨manifest, -, hl | rfl⟩
    · cases label <;> first | exact id | exact hl.elim
    · exact id
  | cancelDirectRequests => exact Grant.mute_cancel _ _
  | cancelCompetingGridRequests =>
    refine (Grant.mute_compete _ _ _ _).sup ?_
    rintro label ⟨x, rfl, -⟩
    exact id
  | expireDirectRequests => exact Grant.mute_expiring
  | expireRequestLeases => exact Grant.mute_leases _
  | updatePeerPieceMap => exact Grant.mute_map _ _
  | broadcastPieceMap f =>
    intro label hl
    cases label with
    | effect x => exact Grant.mute_announce f hl
    | _ => first | exact id | exact hl.elim
  | setTransferChunkBytes => exact Grant.mute_only id
  | applyTransferTuning => exact Grant.mute_only id
  | setTransport => exact Grant.mute_only id
  | flushDirectLifecycle =>
    refine Grant.mute_expiring.sup ?_
    rintro label ⟨windows, rfl⟩
    exact id
  | dispose =>
    refine ((Grant.mute_expiring.sup (Grant.mute_cancel _ _)).sup ?_).sup (Grant.mute_only id)
    rintro label ⟨windows, rfl⟩
    exact id
  | _ => exact fun _ hl => hl.elim

theorem Grant.again_frame {σ : Type} {e : Engine σ} {t : Turn} {p : PeerId} {f : FileId}
    {options : Option GridScheduleOptions} {next : Frame}
    (h : Grant.again e t p f options (.frame next)) :
    (∃ ref requestId scheduled, next = .requestSent ref requestId scheduled) ∨
      (∃ result, next = .gridSent result) ∨ ∃ result, next = .endgameSent result := by
  cases options with
  | none =>
    obtain ⟨ref, scheduled, rfl⟩ := h
    exact .inl ⟨_, _, _, rfl⟩
  | some options => exact .inr h

/-- The continuations that only a call or a continuation leaves. -/
def Frame.Called : Frame → Prop
  | .gridEndgame .. => True
  | .gridNext .. => True
  | .joinInitialized .. => True
  | .joinLoaded .. => True
  | _ => False

/-- No loop of `requestGridPieceWindow` that may enter the endgame. -/
def Frame.Strict : Frame → Prop
  | .gridEndgame _ options _ _ => options.endgame = some false
  | .gridNext _ options _ _ => options.endgame = some false
  | _ => True

def Call.Strict : Call → Prop
  | .requestGridPieceWindow _ options _ _ => options.endgame = some false
  | _ => True

namespace Engine

variable {σ : Type} [StorageAdapter σ] {e : Engine σ} {cfg : Config} {t : Turn} {G : Grant}
variable {strict : Prop}

theorem paced_resume (frame : Frame) (outcome : Except Failure Value)
    (hg : frame.grant e t outcome ≤ G) (hs : strict → frame.Strict) :
    Paced cfg t G strict e (e.resume cfg t outcome frame).1 := by
  by_cases ha : frame.Asking
  · cases frame with
    | fillWindow window windowKey p f options scheduled =>
      exact paced_windowFilled _ _ _ _ _ _ _ fun l hl => hg l (.inl hl)
    | gridEndgame f options total scheduled => exact paced_gridEndgame _ _ _ _ _ hg hs
    | gridNext f options total scheduled => exact paced_gridNext _ _ _ _ _ hg hs
    | responseSent result outstanding =>
      exact paced_responseSent _ _ _ fun options ho l hl => hg l ⟨options, ho, hl⟩
    | rejectSent p header manager outstanding finalized =>
      exact paced_rejectSent _ _ _ _ _ _ fun l hl => hg l (.inl hl)
    | _ => exact ha.elim
  · exact .of_does (Frame.grant_mute ha) hg (does_resume frame outcome le_rfl)

theorem paced_call (c : Call) (hg : c.grant e t ≤ G) (hs : strict → c.Strict) :
    Paced cfg t G strict e (e.call cfg t c).1 := by
  by_cases ha : c.Asking
  · cases c with
    | requestNextPiece p f options => exact paced_requestNextPiece _ _ _ hg
    | requestNextGridPiece f options => exact paced_requestNextGridPiece _ _ hg
    | requestGridPieceWindow f options total perPeer =>
      exact paced_requestGridPieceWindow _ _ _ _ hg hs
    | _ => exact ha.elim
  · exact .of_does (Call.grant_mute ha) hg (does_call c le_rfl)

end Engine

namespace World

variable {σ : Type} [StorageAdapter σ]

/-- The action is no part of an endgame. -/
def Strict (w : World σ) : Action → Prop
  | .call c => c.Strict
  | .resume i => ∀ pending frame below, w.tasks[i]? = some ⟨pending, frame :: below⟩ → frame.Strict
  | _ => True

omit [StorageAdapter σ] in
theorem grant_called {w : World σ} {t : Turn} {a : Action} {next : Frame}
    (hc : ∀ c, a ≠ .call c) (hr : ∀ i, a ≠ .resume i) (h : w.grant (t, a) (.frame next)) :
    ¬ next.Called := by
  cases next with
  | gridEndgame | gridNext | joinInitialized | joinLoaded =>
    cases a with
    | call c => exact absurd rfl (hc c)
    | resume i => exact absurd rfl (hr i)
    | message p message =>
      obtain h | ⟨m, -, ⟨-, h⟩ | ⟨-, map, -, h⟩ | ⟨-, header, -, -, -, h⟩ |
        ⟨-, requestId, f, i, -, -, -, h⟩ | ⟨-, requestId, -, h⟩ | ⟨-, requestId, -, q, -, -, h⟩⟩ := h
      · cases h
      · cases h
      · exact (show False from h).elim
      · obtain ⟨-, h⟩ | ⟨previous, -, -, outstanding, finalized, h⟩ := h <;> cases h
      · exact (show False from h).elim
      · cases h
      · obtain h | h := h
        · exact (show False from h).elim
        · obtain ⟨_, _, _, h⟩ | ⟨_, h⟩ | ⟨_, h⟩ := Grant.again_frame h <;> cases h
    | binary p data =>
      obtain h | ⟨header, -, h | ⟨-, h | ⟨outstanding, finalized, h⟩⟩⟩ := h <;> cases h
    | window ref =>
      obtain ⟨track, h⟩ | ⟨window, job, rest, -, -, -, h⟩ := h
      · cases h
      · cases job with
        | fill p f key options => obtain ⟨_, _, h⟩ | h := h <;> cases h
        | retry requestId request direct =>
          obtain ⟨_, _, h⟩ := h
          cases h
        | expire requestId => exact (show False from h).elim
    | upload p => exact (show False from h).elim
    | timer k =>
      obtain ⟨requestId, windowKey, -, h⟩ := h
      exact (show False from h).elim
  | _ => exact id

/-- A step makes at most one request. -/
theorem paced_step (cfg : Config) (w : World σ) (t : Turn) (a : Action) {strict : Prop}
    (hs : strict → w.Strict a) :
    Paced cfg t (w.grant (t, a)) strict w.engine (w.step cfg (t, a)).engine := by
  have hspec := (step_spec cfg w t a).changes
  cases a with
  | call c => exact Engine.paced_call c le_rfl hs
  | message p message =>
    unfold step
    simp only [handleMessage]
    split
    · exact Engine.paced_handleTransportMessage p message fun m hm l hl => .inr ⟨m, hm, hl⟩
    · exact .refl
  | binary p data =>
    refine .mute (hspec.mono fun label hl => ⟨hl, ?_⟩)
    obtain rfl | hl := hl
    · exact id
    · exact Grant.mute_binary p data label hl
  | resume i =>
    unfold step
    simp only [resumeTask]
    split
    · rename_i pending frame below hi
      split
      · rename_i outcome ho
        exact Engine.paced_resume frame outcome
          (fun l hl => ⟨pending, frame, below, outcome, hi, ho, hl⟩)
          fun h => hs h pending frame below hi
      · exact .refl
    · exact .refl
  | window ref =>
    unfold step
    cases h : w.engine.startWindowJob cfg t ref with
    | none =>
      simp only [h, Option.map_none, Option.getD_none]
      exact .refl
    | some result =>
      simp only [h, Option.map_some, Option.getD_some]
      refine Engine.paced_startWindowJob h fun window job rest hw hq hd l hl => ?_
      exact .inr ⟨window, job, rest, hw, hq, hd, hl⟩
  | upload p =>
    exact .mute (hspec.mono fun label hl => ⟨hl, Grant.mute_upload p label hl⟩)
  | timer k =>
    refine .mute (hspec.mono fun label hl => ⟨hl, ?_⟩)
    obtain ⟨requestId, windowKey, -, hl⟩ := hl
    exact Grant.mute_retire requestId label hl

end World

end PonsWarp.Core
