import PonsWarp.Core.GridChanges

set_option autoImplicit false

/-!
The stretches of `receivePiece` and of what surrounds it: chunks, their
assembly, rejects and responses.
-/

namespace PonsWarp.Core

open PonsWarp.Data

/-- `receivePiece` leaves a receipt that waits for its hash check. -/
def Grant.receive (f : FileId) (pieceIndex : Number) (requestId : RequestId) (data : ArrayBuffer)
    (expected : Option PeerId) : Grant
  | .frame fr => ∃ r : Receipt, fr = .pieceChecked r ∧ r.fileId = f ∧
      (r.pieceIndex : Number) = pieceIndex ∧ r.requestId = requestId ∧ r.data = data ∧
      r.expectedPeerId = expected
  | _ => False

/-- A corrupt piece is marked failed and deleted. -/
def Grant.corrupt {σ : Type} (e : Engine σ) (r : Receipt) : Grant
  | .fail ref i => e.stillExpected r = true ∧ ref = r.manager ∧ i = r.pieceIndex
  | .erase f i => e.stillExpected r = true ∧ f = r.fileId ∧ i = r.pieceIndex
  | .frame fr => fr = .pieceDeleted r (e.outstandingRequests.get? r.requestId)
  | _ => False

/-- A piece that passed its check is written. -/
def Grant.accept {σ : Type} (e : Engine σ) (r : Receipt) : Grant
  | .write f i data => e.stillExpected r = true ∧ f = r.fileId ∧ i = r.pieceIndex ∧ data = r.data
  | .frame fr => fr = .pieceWritten r (e.outstandingRequests.get? r.requestId)
  | _ => False

/-- Another outstanding request for the piece of a receipt. -/
def Engine.Rival {σ : Type} (e : Engine σ) (r : Receipt) (requestId : RequestId) : Prop :=
  ∃ q, e.outstandingRequests.get? requestId = some q ∧ q.fileId = r.fileId ∧
    q.pieceIndex = r.pieceIndex ∧ requestId ≠ r.requestId

/-- A persisted piece retires its own request and every rival. -/
def Grant.commit {σ : Type} (e : Engine σ) (t : Turn) (r : Receipt) : Grant
  | .drop x => x = r.requestId ∨ e.Rival r x
  | .lostAssembly x => x = r.requestId ∨ e.Rival r x
  | .lostHeader _ h => h.requestId = r.requestId ∨ e.Rival r h.requestId
  | .tombstone x => e.Rival r x
  | .lose x => (x = r.requestId ∧ ¬ e.Restored x) ∨
      (e.Rival r x ∧ e.status? r.fileId r.pieceIndex = some .requested)
  | .effect x => (∃ p requestId, x = .send p (.PIECE_CANCEL r.fileId r.pieceIndex requestId)
      (t.sendFailure p)) ∨ Engine.announces t r.fileId x
  | .frame fr => fr = .mapAnnounced r
  | _ => False

/-- If the request is outstanding, it is for this piece. -/
def Engine.Agrees {σ : Type} (e : Engine σ) (requestId : RequestId) (f : FileId) (i : Nat) : Prop :=
  ∀ q, e.outstandingRequests.get? requestId = some q → q.fileId = f ∧ q.pieceIndex = i

/-- The piece a header names is marked failed in the manager in use, and its
request leaves the tables. -/
def Grant.failHeader {σ : Type} (e : Engine σ) (h : PieceChunkHeaderMessage) : Grant
  | .fail ref i => e.managers.get? h.fileId = some ref ∧ i = h.pieceIndex ∧ ¬ e.Backed ref i
  | .lose x => x = h.requestId ∧ ¬ e.Agrees h.requestId h.fileId h.pieceIndex
  | label => Grant.retire h.requestId label

theorem Grant.retire_le_failHeader {σ : Type} {e : Engine σ} {h : PieceChunkHeaderMessage} :
    Grant.retire h.requestId ≤ Grant.failHeader e h := by
  intro label hl
  cases label with
  | fail => cases hl
  | lose => cases hl
  | _ => exact hl

/-- A chunk is rejected: the peer is told, and the piece may be requested again. -/
def Grant.reject {σ : Type} (e : Engine σ) (t : Turn) (p : PeerId) (h : PieceChunkHeaderMessage) :
    Grant
  | .effect x => x = .send p (.PIECE_REJECT h.fileId h.pieceIndex h.requestId "invalid_chunk" none)
      (t.sendFailure p)
  | .frame fr => ∃ outstanding finalized,
      fr = .rejectSent p h (e.managers.get? h.fileId) outstanding finalized
  | label => Grant.failHeader e h label

theorem Grant.failHeader_le_reject {σ : Type} {e : Engine σ} {t : Turn} {p : PeerId}
    {h : PieceChunkHeaderMessage} : Grant.failHeader e h ≤ Grant.reject e t p h := by
  intro label hl
  cases label with
  | effect => cases hl
  | frame => cases hl
  | _ => exact hl

def Grant.again {σ : Type} (e : Engine σ) (t : Turn) (p : PeerId) (f : FileId) :
    Option GridScheduleOptions → Grant
  | some options => Grant.grid e t f options
  | none => Grant.request t p f none

namespace Engine

variable {σ : Type} {e e' : Engine σ} {cfg : Config} {t : Turn} {G : Grant}

theorem enqueueWindow_fields (e : Engine σ) (key : String) (job : WindowJob) :
    (e.enqueueWindow key job).heap = e.heap ∧ (e.enqueueWindow key job).managers = e.managers ∧
    (e.enqueueWindow key job).outstandingRequests = e.outstandingRequests := by
  unfold enqueueWindow
  split
  · split <;> exact ⟨rfl, rfl, rfl⟩
  · exact ⟨rfl, rfl, rfl⟩

/-- `finalizeDirectRequest` takes a direct request out and leaves the pieces alone. -/
theorem finalizeDirectRequest_fields (e : Engine σ) (cfg : Config) (t : Turn)
    (requestId : RequestId) (status : DirectTerminalReason) :
    (e.finalizeDirectRequest cfg t requestId status).1.heap = e.heap ∧
    (e.finalizeDirectRequest cfg t requestId status).1.managers = e.managers ∧
    (e.finalizeDirectRequest cfg t requestId status).1.outstandingRequests =
      if ((e.outstandingRequests.get? requestId).bind (·.direct)).isSome then
        e.outstandingRequests.delete requestId
      else e.outstandingRequests := by
  cases hb : (e.outstandingRequests.get? requestId).bind (·.direct) with
  | none =>
    rw [finalizeDirectRequest_other status hb]
    exact ⟨rfl, rfl, rfl⟩
  | some direct =>
    obtain ⟨r, hr, hd⟩ := Option.bind_eq_some_iff.1 hb
    unfold finalizeDirectRequest
    simp only [hr, hd, Option.isSome_some, if_true]
    split
    · split
      · exact ⟨rfl, rfl, rfl⟩
      · exact enqueueWindow_fields ((e.retireDirectRequest requestId).emit _) _ _
    · split
      · split
        · split <;> exact ⟨rfl, rfl, rfl⟩
        · exact ⟨rfl, rfl, rfl⟩
      · exact ⟨rfl, rfl, rfl⟩

/-- `finalizeOrDelete` takes the request out, whatever it is. -/
theorem finalizeOrDelete_fields (e : Engine σ) (cfg : Config) (t : Turn) (requestId : RequestId)
    (status : DirectTerminalReason) :
    (e.finalizeOrDelete cfg t requestId status).heap = e.heap ∧
    (e.finalizeOrDelete cfg t requestId status).managers = e.managers ∧
    (e.finalizeOrDelete cfg t requestId status).outstandingRequests =
      e.outstandingRequests.delete requestId := by
  cases hb : (e.outstandingRequests.get? requestId).bind (·.direct) with
  | none =>
    simp only [finalizeOrDelete, finalizeDirectRequest_other status hb]
    exact ⟨rfl, rfl, rfl⟩
  | some direct =>
    obtain ⟨r, hr, hd⟩ := Option.bind_eq_some_iff.1 hb
    have hfinal := finalizeDirectRequest_fields e cfg t requestId status
    simp only [hb, Option.isSome_some, if_true] at hfinal
    simpa only [finalizeOrDelete, finalizeDirectRequest_direct status hr hd, if_true] using hfinal

variable [StorageAdapter σ]

theorem does_receivePiece (f : FileId) (pieceIndex : Number) (requestId : RequestId)
    (data : ArrayBuffer) (expected : Option PeerId)
    (hg : Grant.receive f pieceIndex requestId data expected ≤ G) :
    Does cfg t G e (e.receivePiece cfg f pieceIndex requestId data expected) := by
  unfold receivePiece
  split
  · exact .stop e _
  · split
    · exact .stop e _
    · rename_i manifest hmanifest
      split
      · exact .stop e _
      · rename_i index descriptor hindex
        split
        · exact .stop e _
        · rename_i ref href
          obtain ⟨i, hi, hpiece⟩ := Option.bind_eq_some_iff.1 hindex
          obtain ⟨d, hd, hpair⟩ := Option.map_eq_some_iff.1 hpiece
          obtain ⟨rfl, rfl⟩ := Prod.mk.inj hpair
          refine .await .refl _ (hg (.frame _) ⟨_, rfl, rfl, ?_, rfl, rfl, rfl⟩) ?_
          · exact (Number.index?_eq_some.1 hi).symm
          · refine ⟨rfl, requireManager_eq_ok.1 href, manifest, ?_, hd⟩
            unfold requireManifest at hmanifest
            split at hmanifest
            · rename_i m hm
              cases hmanifest
              exact hm
            · cases hmanifest

theorem does_pieceChecked_false (r : Receipt) (hg : Grant.corrupt e r ≤ G) :
    Does cfg t G e (e.pieceChecked cfg t r false) := by
  unfold pieceChecked
  split
  · exact .stop e _
  · rename_i hexpected
    have hexpected : e.stillExpected r = true := by simpa using hexpected
    have hrelease : Changes t G e (e.release r.fileId r.pieceIndex r.requestId) :=
      changes_release _ _ _
    simp only [Bool.false_eq_true, not_false_eq_true, if_true]
    split
    · exact .done hrelease _
    · rename_i e1 he1
      have hfail : Changes t G e e1 := hrelease.trans
        (changes_markFailed he1 (.inr (hg (.fail _ _) ⟨hexpected, rfl, rfl⟩)))
      have herase : ∀ e2 : Engine σ, Changes t G e e2 → Does cfg t G e
          (((e2.storageCall t (fun _ => .unit)
            (StorageAdapter.deletePiece r.fileId r.pieceIndex e2.storage)).1),
          ((e2.storageCall t (fun _ => .unit)
            (StorageAdapter.deletePiece r.fileId r.pieceIndex e2.storage)).2.andThen
              (.pieceDeleted r (e.outstandingRequests.get? r.requestId)))) := by
        intro e2 hc
        refine .after hc (Does.andThen (does_storageCall _ _ (.single (.erase _ _ _ ?_))) ?_
          fun _ => trivial)
        · exact hg (.erase _ _) ⟨hexpected, rfl, rfl⟩
        · exact hg (.frame _) rfl
      cases hout : e.outstandingRequests.get? r.requestId with
      | none =>
        rw [hout] at herase
        exact herase e1 hfail
      | some o =>
        rw [hout] at herase
        have hhealth : Changes t G e { e1 with
            peerHealth := e1.peerHealth.markReject cfg.log2 o.peerId } :=
          hfail.trans (changes_health _)
        simp only
        split
        · exact .done hhealth _
        · exact herase _ hhealth

theorem does_pieceChecked_true (r : Receipt) (hg : Grant.accept e r ≤ G) :
    Does cfg t G e (e.pieceChecked cfg t r true) := by
  unfold pieceChecked
  split
  · exact .stop e _
  · rename_i hexpected
    have hexpected : e.stillExpected r = true := by simpa using hexpected
    exact (does_storageCall _ _ (.single (.write _ _ _ _
      (hg (.write _ _ _) ⟨hexpected, rfl, rfl, rfl⟩)))).andThen (hg (.frame _) rfl)
      fun _ => trivial

theorem does_pieceDeleted (r : Receipt) (outstanding : Option OutstandingRequest)
    (outcome : Except Failure Value) (hg : G (.frame (.mismatchPersisted r outstanding))) :
    Does cfg t G e (e.pieceDeleted t r outstanding outcome) := by
  unfold pieceDeleted
  split
  · exact .stop e _
  · exact does_persistState.andThen hg fun _ => trivial

theorem does_mismatchPersisted (r : Receipt) (outstanding : Option OutstandingRequest)
    (outcome : Except Failure Value) (hg : Grant.retire r.requestId ≤ G)
    (hl : G (.lose r.requestId)) :
    Does cfg t G e (e.mismatchPersisted cfg t r outstanding outcome) := by
  unfold mismatchPersisted
  refine .done ?_ _
  refine Relation.ReflTransGen.trans ?_ (changes_emit _)
  refine Relation.ReflTransGen.trans ?_ (changes_finalizeOrDelete _ _ hg (.inr hl))
  split
  · exact (changes_emitDirectLifecycleError _ _ _ _).trans
      (changes_finalizeDirectRequest _ _ hg (.inr hl))
  · exact .refl

theorem does_pieceWritten_error (r : Receipt) (outstanding : Option OutstandingRequest)
    (err : Failure) (hg : Grant.giveUp e r.manager r.pieceIndex r.requestId ≤ G) :
    Does cfg t G e (e.pieceWritten cfg t r outstanding (.error err)) := by
  unfold pieceWritten
  have hreport : Changes t G e
      (e.emitDirectLifecycleError t .storage outstanding r.requestId err) :=
    changes_emitDirectLifecycleError _ _ _ _
  simp only
  split
  · exact .done hreport _
  · rename_i e1 he1
    rw [← giveUp_lifecycleError e t .storage outstanding err] at hg
    exact .done (hreport.trans (changes_giveUp _ hg he1)) _

theorem does_pieceWritten_ok (r : Receipt) (outstanding : Option OutstandingRequest) (v : Value)
    (hg : G (.verify r.manager r.pieceIndex))
    (hframe : G (.frame (.piecePersisted r outstanding))) :
    Does cfg t G e (e.pieceWritten cfg t r outstanding (.ok v)) := by
  unfold pieceWritten
  simp only
  split
  · exact .stop e _
  · rename_i e1 he1
    obtain ⟨m, hm, rfl⟩ := onManager_spec he1
    have hverify : Changes t G e (e.putManager r.manager m) :=
      .single (.verify e r.manager r.pieceIndex m hm hg)
    have hrelease := hverify.trans
      (changes_release (t := t) (G := G) r.fileId r.pieceIndex r.requestId)
    refine .after ?_ (does_persistState.andThen hframe fun _ => trivial)
    split
    · exact hrelease.trans (changes_health _)
    · exact hrelease

theorem does_piecePersisted_error (r : Receipt) (outstanding : Option OutstandingRequest)
    (err : Failure) (hg : Grant.giveUp e r.manager r.pieceIndex r.requestId ≤ G) :
    Does cfg t G e (e.piecePersisted cfg t r outstanding (.error err)) := by
  unfold piecePersisted
  have hreport : Changes t G e
      (e.emitDirectLifecycleError t .persist outstanding r.requestId err) :=
    changes_emitDirectLifecycleError _ _ _ _
  simp only
  split
  · exact .done hreport _
  · rename_i e1 he1
    rw [← giveUp_lifecycleError e t .persist outstanding err] at hg
    exact .done (hreport.trans (changes_giveUp _ hg he1)) _

omit [StorageAdapter σ] in
/-- The requests that compete with a receipt's, seen before its own is taken out. -/
theorem rival_of_competes (r : Receipt) (status : DirectTerminalReason) {x : RequestId}
    (h : competes r.fileId r.pieceIndex r.requestId
      (e.finalizeOrDelete cfg t r.requestId status).outstandingRequests.entries x) :
    e.Rival r x := by
  obtain ⟨q, hq, hf, hi, hne⟩ := h
  have hget := OrderedMap.mem_entries_iff.1 hq
  rw [(finalizeOrDelete_fields e cfg t r.requestId status).2.2] at hget
  exact ⟨q, (OrderedMap.get?_delete_eq_some.1 hget).2, hf, hi, hne⟩

omit [StorageAdapter σ] in
theorem status?_finalizeOrDelete (requestId : RequestId) (status : DirectTerminalReason)
    (f : FileId) (i : Nat) :
    (e.finalizeOrDelete cfg t requestId status).status? f i = e.status? f i := by
  obtain ⟨hheap, hmanagers, -⟩ := finalizeOrDelete_fields e cfg t requestId status
  simp only [status?, managerAt, hheap, hmanagers]

theorem does_piecePersisted_ok (r : Receipt) (outstanding : Option OutstandingRequest) (v : Value)
    (hg : Grant.commit e t r ≤ G) :
    Does cfg t G e (e.piecePersisted cfg t r outstanding (.ok v)) := by
  unfold piecePersisted
  simp only
  have hretire : Grant.retire r.requestId ≤ G := by
    intro label hl
    cases label with
    | drop x => exact hg (.drop x) (.inl hl)
    | lostAssembly x => exact hg (.lostAssembly x) (.inl hl)
    | lostHeader p h => exact hg (.lostHeader p h) (.inl hl)
    | _ => cases hl
  have hfinal : Changes t G e (e.finalizeOrDelete cfg t r.requestId .verified) := by
    refine changes_finalizeOrDelete _ _ hretire ?_
    by_cases hr : e.Restored r.requestId
    · exact .inl hr
    · exact .inr (hg (.lose _) (.inl ⟨rfl, hr⟩))
  have hcompete : Changes t G (e.finalizeOrDelete cfg t r.requestId .verified)
      ((e.finalizeOrDelete cfg t r.requestId .verified).cancelCompetingGridRequests t r.fileId
        r.pieceIndex r.requestId).1 := by
    refine changes_cancelCompetingGridRequests ?_ ?_
    · intro label hl
      cases label with
      | drop x => exact hg (.drop x) (.inr (rival_of_competes r _ hl))
      | lostAssembly x => exact hg (.lostAssembly x) (.inr (rival_of_competes r _ hl))
      | tombstone x => exact hg (.tombstone x) (rival_of_competes r _ hl)
      | lostHeader p h => exact hg (.lostHeader p h) (.inr (rival_of_competes r _ hl))
      | effect x => exact hg (.effect x) (.inl hl)
      | _ => cases hl
    · rw [status?_finalizeOrDelete]
      by_cases hst : e.status? r.fileId r.pieceIndex = some .requested
      · exact .inr fun x hx => hg (.lose x) (.inr ⟨rival_of_competes r _ hx, hst⟩)
      · exact .inl hst
  have hboth := hfinal.trans hcompete
  split
  · rename_i e1 err he1
    rw [he1] at hboth
    exact .done hboth _
  · rename_i e1 he1
    rw [he1] at hboth
    split
    · exact .done (hboth.trans (changes_emit _)) _
    · refine .after hboth (Does.andThen (does_broadcastPieceMap _ _ ?_) ?_ fun _ => trivial)
      · exact fun x hx => hg (.effect x) (.inr hx)
      · exact hg (.frame _) rfl

theorem does_mapAnnounced (r : Receipt) (outcome : Except Failure Value) :
    Does cfg t G e (e.mapAnnounced r outcome) := by
  unfold mapAnnounced
  split
  · exact .stop e _
  · exact .done (changes_emit _) _

omit [StorageAdapter σ] in
theorem failHeader_congr (h : PieceChunkHeaderMessage) (hm : e'.managers = e.managers)
    (ho : e'.outstandingRequests = e.outstandingRequests) :
    Grant.failHeader e' h = Grant.failHeader e h := by
  funext label
  cases label <;> simp only [Grant.failHeader, Backed, Agrees, hm, ho]

/-- The piece a header names is given up together with its request. -/
theorem changes_failHeader (cfg : Config) (t : Turn) {h : PieceChunkHeaderMessage} {reason : String}
    (status : DirectTerminalReason)
    (hfail : e.markFailedIfKnown h.fileId h.pieceIndex reason = .ok e')
    (hg : Grant.failHeader e h ≤ G) :
    Changes t G e e' ∧ (e'.Restored h.requestId ∨ G (.lose h.requestId)) ∧
      Changes t G e (e'.finalizeDirectRequest cfg t h.requestId status).1 := by
  have hmark : Changes t G e e' := by
    refine changes_markFailedIfKnown hfail fun ref hm => ?_
    by_cases hb : e.Backed ref h.pieceIndex
    · exact .inl hb
    · exact .inr (hg (.fail _ _) ⟨hm, rfl, hb⟩)
  have hrestored : e'.Restored h.requestId ∨ G (.lose h.requestId) := by
    by_cases ha : e.Agrees h.requestId h.fileId h.pieceIndex
    · left
      cases ho : e.outstandingRequests.get? h.requestId with
      | none =>
        refine restored_of_none ?_
        unfold markFailedIfKnown at hfail
        split at hfail
        · obtain ⟨m, -, rfl, -⟩ := markFailed_spec hfail
          exact ho
        · cases hfail
          exact ho
      | some q =>
        obtain ⟨hf, hi⟩ := ha q ho
        rw [← hf, ← hi] at hfail
        exact restored_of_markFailedIfKnown ho hfail
    · exact .inr (hg (.lose _) ⟨rfl, ha⟩)
  exact ⟨hmark, hrestored, hmark.trans (changes_finalizeDirectRequest _ _
    (Grant.retire_le_failHeader.trans hg) hrestored)⟩

theorem does_rejectIncomingChunk (p : PeerId) (h : PieceChunkHeaderMessage)
    (hg : Grant.reject e t p h ≤ G) : Does cfg t G e (e.rejectIncomingChunk cfg t p h) := by
  have hfailHeader : Grant.failHeader e h ≤ G := Grant.failHeader_le_reject.trans hg
  have hretire : Grant.retire h.requestId ≤ G := Grant.retire_le_failHeader.trans hfailHeader
  unfold rejectIncomingChunk
  have hrelease : Changes t G e
      (({ e with incomingChunks := e.incomingChunks.delete h.requestId } : Engine σ).release
        h.fileId h.pieceIndex h.requestId) :=
    (changes_dropAssembly h.requestId (hretire (.lostAssembly _) rfl)).trans (changes_release _ _ _)
  simp only
  split
  · exact .done hrelease _
  · rename_i e1 he1
    have hsame : ∀ e0 : Engine σ, e0.managers = e.managers →
        e0.outstandingRequests = e.outstandingRequests → Grant.failHeader e0 h ≤ G :=
      fun e0 hm ho => (failHeader_congr h hm ho).le.trans hfailHeader
    obtain ⟨hmark, hrestored, hfinal⟩ :=
      changes_failHeader cfg t .invalid_chunk he1 (hsame _ rfl rfl)
    have hgone : Changes t G e (if (e1.finalizeDirectRequest cfg t h.requestId
          .invalid_chunk).2 = true then (e1.finalizeDirectRequest cfg t h.requestId
            .invalid_chunk).1
        else { (e1.finalizeDirectRequest cfg t h.requestId .invalid_chunk).1 with
          outstandingRequests := (e1.finalizeDirectRequest cfg t h.requestId
            .invalid_chunk).1.outstandingRequests.delete h.requestId }) := by
      split
      · exact hrelease.trans hfinal
      · rename_i hfalse
        rw [finalizeDirectRequest_false (by simpa using hfalse)]
        exact hrelease.trans (hmark.trans
          (changes_drop h.requestId (hretire (.drop _) rfl) hrestored))
    refine .after (hgone.trans (changes_health _)) (Does.andThen (does_send _ _ ?_) ?_
      fun _ => trivial)
    · exact hg (.effect _) rfl
    · exact hg (.frame _) ⟨_, _, rfl⟩

theorem does_requestAgain (p : PeerId) (f : FileId) (options : Option GridScheduleOptions)
    (hg : Grant.again e t p f options ≤ G) :
    Does cfg t G e (e.requestAgain cfg t p f options) := by
  unfold requestAgain
  split
  · exact does_requestNextGridPiece f _ hg
  · exact does_requestNextPiece p f none hg

omit [StorageAdapter σ] in
/-- What the scheduler may do depends on the manifests and the leases. -/
theorem again_congr {p : PeerId} {f : FileId} {options : Option GridScheduleOptions}
    (hm : e'.manifests = e.manifests) (ha : e'.availability = e.availability) :
    Grant.again e' t p f options = Grant.again e t p f options := by
  cases options with
  | none => rfl
  | some o =>
    funext label
    cases label <;> simp only [Grant.again, Grant.grid, LeaseDue, hm, ha]

theorem does_rejectSent (p : PeerId) (h : PieceChunkHeaderMessage) (manager : Option Nat)
    (outstanding : Option OutstandingRequest) (finalized : Bool) (outcome : Except Failure Value)
    (hg : Grant.again e t p h.fileId (outstanding.bind (·.gridOptions)) ≤ G)
    (hframe : G (.frame .rejectRequested)) :
    Does cfg t G e (e.rejectSent cfg t p h manager outstanding finalized outcome) := by
  unfold rejectSent
  split
  · exact .stop e _
  · have hemit : Changes t G e
        (e.emit (.pieceRejected h.fileId h.pieceIndex "invalid_chunk")) := changes_emit _
    refine .after hemit ?_
    simp only
    split
    · exact does_persistState
    · split
      · exact does_persistState
      · split
        · exact .stop _ _
        · split
          · split
            · exact .stop _ _
            · rename_i e1 he1
              refine .after (changes_resetFailedToMissing he1) (Does.andThen ?_ hframe
                fun _ => trivial)
              obtain ⟨m, -, rfl⟩ := resetFailedToMissing_spec he1
              exact does_requestAgain p _ _ ((again_congr rfl rfl).le.trans hg)
          · exact does_persistState

/-- The refusals of `appendIncomingChunk`. -/
def refusesChunk (e : Engine σ) (p : PeerId) (h : PieceChunkHeaderMessage) (frame : ArrayBuffer) :
    Bool :=
  match (if h.totalChunks.isSafeInteger then h.totalChunks.index? else none),
      (if h.chunkIndex.isSafeInteger then h.chunkIndex.index? else none) with
  | some totalChunks, some chunkIndex =>
    if totalChunks = 0 ∨ totalChunks ≤ chunkIndex ∨ h.payloadSize ≠ (frame.length : Number) then true
    else if (e.incomingChunks.get? h.requestId).isNone ∧ MAX_ARRAY_LENGTH < totalChunks then false
    else
      let assembly := (e.incomingChunks.get? h.requestId).getD
        ⟨p, h, List.replicate totalChunks none, 0, 0⟩
      if assembly.peerId ≠ p ∨ assembly.header.fileId ≠ h.fileId ∨
          assembly.header.pieceIndex ≠ h.pieceIndex ∨
          assembly.header.totalChunks ≠ h.totalChunks ∨
          ((assembly.chunks[chunkIndex]?).join).isSome then true
      else if assembly.receivedChunks + 1 < totalChunks then false
      else (assembled (assembly.chunks.set chunkIndex (some frame))).isNone
  | _, _ => true

end Engine

/-- What taking in a chunk may do. -/
def Grant.append {σ : Type} (e : Engine σ) (t : Turn) (p : PeerId) (h : PieceChunkHeaderMessage)
    (data : ArrayBuffer) : Grant
  | .assembly x _ => x = h.requestId
  | .lostAssembly x => x = h.requestId
  | .frame fr => e.refusesChunk p h data = true ∧
      (fr = .chunkRejected ∨ Grant.reject e t p h (.frame fr))
  | label => e.refusesChunk p h data = true ∧ Grant.reject e t p h label

theorem Grant.reject_le_append {σ : Type} {e : Engine σ} {t : Turn} {p : PeerId}
    {h : PieceChunkHeaderMessage} {data : ArrayBuffer} (hr : e.refusesChunk p h data = true) :
    Grant.reject e t p h ≤ Grant.append e t p h data := by
  intro label hl
  cases label with
  | assembly => cases hl
  | lostAssembly x => exact hl
  | frame fr => exact ⟨hr, .inr hl⟩
  | _ => exact ⟨hr, hl⟩

namespace Engine

variable {σ : Type} [StorageAdapter σ] {e e' : Engine σ} {cfg : Config} {t : Turn} {G : Grant}

omit [StorageAdapter σ] in
theorem reject_congr {p : PeerId} (h : PieceChunkHeaderMessage) (hm : e'.managers = e.managers)
    (ho : e'.outstandingRequests = e.outstandingRequests) :
    Grant.reject e' t p h = Grant.reject e t p h := by
  funext label
  cases label <;> simp only [Grant.reject, Grant.failHeader, Backed, Agrees, hm, ho]

theorem changes_putAssembly (requestId : RequestId) (a : IncomingChunkAssembly)
    (hg : G (.assembly requestId a)) (hl : G (.lostAssembly requestId)) :
    Changes t G e { e with incomingChunks := e.incomingChunks.set requestId a } := by
  refine .single (.assemblies e _ ?_ ?_)
  · intro r b hb
    rw [OrderedMap.get?_set] at hb
    split at hb
    · rename_i hr
      cases hb
      exact .inr (hr ▸ hg)
    · exact .inl hb
  · intro r b hb
    by_cases hr : r = requestId
    · exact .inr (hr ▸ hl)
    · exact .inl (by rw [OrderedMap.get?_set_of_ne _ _ hr]; exact hb)

theorem does_appendIncomingChunk (p : PeerId) (h : PieceChunkHeaderMessage) (data : ArrayBuffer)
    (hg : Grant.append e t p h data ≤ G) :
    Does cfg t G e (e.appendIncomingChunk cfg t p h data) := by
  have hput : ∀ a, G (.assembly h.requestId a) := fun a => hg (.assembly _ _) rfl
  have hlost : G (.lostAssembly h.requestId) := hg (.lostAssembly _) rfl
  have hreject : e.refusesChunk p h data = true → ∀ e1 : Engine σ, Changes t G e e1 →
      e1.managers = e.managers → e1.outstandingRequests = e.outstandingRequests →
      Does cfg t G e (((e1.rejectIncomingChunk cfg t p h).1,
        (e1.rejectIncomingChunk cfg t p h).2.andThen .chunkRejected)) := by
    intro hr e1 hc hm ho
    refine .after hc (Does.andThen (does_rejectIncomingChunk p h ?_)
      (hg (.frame _) ⟨hr, .inl rfl⟩) fun _ => trivial)
    rw [reject_congr h hm ho]
    exact (Grant.reject_le_append hr).trans hg
  unfold appendIncomingChunk
  unfold refusesChunk at hreject
  simp only
  split
  · rename_i totalChunks chunkIndex htotal hindex
    simp only [htotal, hindex] at hreject
    split
    · rename_i hbad
      exact hreject (if_pos hbad) e .refl rfl rfl
    · rename_i hgood
      rw [if_neg hgood] at hreject
      split
      · exact .stop e _
      · rename_i hlength
        rw [if_neg hlength] at hreject
        have hset : ∀ a, Changes t G e
            { e with incomingChunks := e.incomingChunks.set h.requestId a } :=
          fun a => changes_putAssembly _ _ (hput a) hlost
        split
        · rename_i hclash
          exact hreject (if_pos hclash) _ (hset _) rfl rfl
        · rename_i hfits
          rw [if_neg hfits] at hreject
          split
          · exact .done ((hset _).trans (changes_putAssembly _ _ (hput _) hlost)) _
          · rename_i hall
            rw [if_neg hall] at hreject
            have htaken := (hset ((e.incomingChunks.get? h.requestId).getD
              ⟨p, h, List.replicate totalChunks none, 0, 0⟩)).trans
                (changes_dropAssembly h.requestId hlost)
            split
            · exact .done htaken _
            · rename_i hnone
              exact hreject (by rw [hnone]; rfl) _ htaken rfl rfl
  · rename_i hbad
    refine hreject ?_ e .refl rfl rfl
    split
    · rename_i a b ha hb
      exact absurd hb (hbad a b ha)
    · rfl

end Engine

/-- What a binary frame may do, given the header that waits for it. -/
def Grant.binary {σ : Type} (e : Engine σ) (t : Turn) (p : PeerId) (data : ArrayBuffer) : Grant
  | .lostHeader q h => (q = p ∧ e.pendingChunks.get? p = some h) ∨
      ∃ h', e.pendingChunks.get? p = some h' ∧ Grant.append e t p h' data (.lostHeader q h)
  | .frame fr => ∃ h, e.pendingChunks.get? p = some h ∧
      (fr = .chunkAppended p h ∨ Grant.append e t p h data (.frame fr))
  | label => ∃ h, e.pendingChunks.get? p = some h ∧ Grant.append e t p h data label

/-- What the assembled piece of a request may do. -/
def Grant.assembled {σ : Type} (e : Engine σ) (p : PeerId) (h : PieceChunkHeaderMessage)
    (data : ArrayBuffer) : Grant
  | .frame fr => e.Agrees h.requestId h.fileId h.pieceIndex ∧
      ((∃ outstanding, e.outstandingRequests.get? h.requestId = some outstanding ∧
          fr = .pieceReceived p h outstanding) ∨
        Grant.receive h.fileId h.pieceIndex h.requestId data (some p) (.frame fr))
  | _ => False

namespace Engine

variable {σ : Type} [StorageAdapter σ] {e e' : Engine σ} {cfg : Config} {t : Turn} {G : Grant}

theorem does_handleTransportBinary (p : PeerId) (data : ArrayBuffer)
    (hg : Grant.binary e t p data ≤ G) :
    Does cfg t G e (e.handleTransportBinary cfg t p data) := by
  unfold handleTransportBinary
  split
  · exact .stop e _
  · rename_i h hh
    have htake : Changes t G e { e with pendingChunks := e.pendingChunks.delete p } := by
      refine .single (.headers e _ ?_ ?_)
      · intro q x hx
        exact .inl (OrderedMap.get?_delete_eq_some.1 hx).2
      · intro q x hx
        by_cases hq : q = p
        · subst hq
          exact .inr (hg (.lostHeader _ _) (.inl ⟨rfl, hx⟩))
        · exact .inl (OrderedMap.get?_delete_eq_some.2 ⟨hq, hx⟩)
    refine .after htake (Does.andThen (does_appendIncomingChunk p h data ?_)
      (hg (.frame _) ⟨h, hh, .inl rfl⟩) fun _ => trivial)
    intro label hl
    cases label with
    | frame fr => exact hg (.frame fr) ⟨h, hh, .inr hl⟩
    | lostHeader q x => exact hg (.lostHeader q x) (.inr ⟨h, hh, hl⟩)
    | _ => exact hg _ ⟨h, hh, hl⟩

theorem does_chunkAppended (p : PeerId) (h : PieceChunkHeaderMessage)
    (outcome : Except Failure Value)
    (hg : ∀ data, outcome = .ok (.buffer (some data)) → Grant.assembled e p h data ≤ G) :
    Does cfg t G e (e.chunkAppended cfg p h outcome) := by
  unfold chunkAppended
  split
  · exact .stop e _
  · rename_i data
    split
    · exact .stop e _
    · rename_i outstanding hout
      split
      · exact .stop e _
      · rename_i hmatch
        simp only [not_or, not_not] at hmatch
        have hagrees : e.Agrees h.requestId h.fileId h.pieceIndex := by
          intro q hq
          obtain rfl : outstanding = q := by simpa [hout] using hq
          exact hmatch.2
        refine Does.andThen (does_receivePiece _ _ _ _ _ ?_)
          (hg data rfl (.frame _) ⟨hagrees, .inl ⟨outstanding, hout, rfl⟩⟩) fun _ => trivial
        intro label hl
        cases label with
        | frame fr => exact hg data rfl (.frame fr) ⟨hagrees, .inr hl⟩
        | _ => cases hl
  · exact .stop e _

theorem does_pieceReceived_error (p : PeerId) (h : PieceChunkHeaderMessage)
    (outstanding : OutstandingRequest) (err : Failure) (hg : Grant.failHeader e h ≤ G) :
    Does cfg t G e (e.pieceReceived cfg t p h outstanding (.error err)) := by
  unfold pieceReceived
  have hreport : Changes t G e
      (e.emitDirectLifecycleError t .receive (some outstanding) h.requestId err) :=
    changes_emitDirectLifecycleError _ _ _ _
  simp only
  split
  · exact .done hreport _
  · rename_i e1 he1
    obtain ⟨-, hm, ho⟩ :=
      emitDirectLifecycleError_fields (e := e) (t := t) .receive (some outstanding) h.requestId err
    obtain ⟨-, -, hfinal⟩ :=
      changes_failHeader cfg t .cancelled he1 ((failHeader_congr h hm ho).le.trans hg)
    exact .done (hreport.trans hfinal) _

theorem does_pieceReceived_ok (p : PeerId) (h : PieceChunkHeaderMessage)
    (outstanding : OutstandingRequest) (v : Value)
    (hg : ∀ result, v = .received result →
      G (.effect (.send p (responseTo result) (t.sendFailure p))) ∧
      G (.frame (.responseSent result outstanding))) :
    Does cfg t G e (e.pieceReceived cfg t p h outstanding (.ok v)) := by
  unfold pieceReceived
  cases v with
  | received result =>
    obtain ⟨hsend, hframe⟩ := hg result rfl
    exact (does_send _ _ hsend).andThen hframe fun _ => trivial
  | _ => exact .stop e _

theorem does_responseSent (result : PieceReceiveResult) (outstanding : OutstandingRequest)
    (outcome : Except Failure Value)
    (hg : ∀ options, outstanding.gridOptions = some options →
      Grant.grid e t result.fileId options ≤ G) :
    Does cfg t G e (e.responseSent cfg t result outstanding outcome) := by
  unfold responseSent
  split
  · exact .stop e _
  · split
    · rename_i options _ hoptions
      split
      · exact .stop e _
      · simp only
        split
        · exact .stop e _
        · split
          · split
            · exact .stop e _
            · rename_i e1 he1
              refine .after (changes_resetFailedToMissing he1)
                (does_requestNextGridPiece _ _ ?_)
              obtain ⟨m, -, rfl⟩ := resetFailedToMissing_spec he1
              exact (Grant.grid_le rfl fun _ _ _ hl => hl).trans (hg options hoptions)
          · exact .stop e _
    · exact .stop e _

end Engine

end PonsWarp.Core
