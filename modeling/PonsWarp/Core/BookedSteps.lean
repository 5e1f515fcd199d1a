import PonsWarp.Core.Bookkeeping

set_option autoImplicit false

/-!
Every step of a world keeps the books. What may be lost without an event, and what a stretch
may ask for, depends on its action alone.
-/

namespace PonsWarp.Core

open PonsWarp.Data

namespace Engine

variable {σ : Type} {e e' e1 : Engine σ} {cfg : Config} {t : Turn} {P : Entry → Prop}

theorem direct?_of_mono {x : RequestId} (h : e.ledger.direct? x = none)
    (hsub : ∀ r, e1.outstandingRequests.get? x = some r → e.outstandingRequests.get? x = some r) :
    e1.ledger.direct? x = none := by
  cases hr : e1.outstandingRequests.get? x with
  | none => simp [Ledger.direct?, ledger, hr]
  | some r =>
    simp only [Ledger.direct?, ledger, hsub r hr] at h
    simpa [Ledger.direct?, ledger, hr] using h

/-- With fewer requests and leases, fewer requests can be lost. -/
theorem leased_mono {entry : Entry} (h : e1.leased entry)
    (hsub : ∀ x r, e1.outstandingRequests.get? x = some r → e.outstandingRequests.get? x = some r)
    (hleases : ∀ f i l, e1.availability.getLease f i = some l →
      e.availability.getLease f i = some l) : e.leased entry := by
  cases entry with
  | lose x =>
    obtain ⟨hdirect, now, f, i, l, hl, hid, hexp⟩ := h
    exact ⟨fun hnone => hdirect (direct?_of_mono hnone (hsub x)), now, f, i, l, hleases f i l hl,
      hid, hexp⟩
  | _ => exact h.elim

theorem competing_mono {f : FileId} {i : Nat} {keep : RequestId} {entry : Entry}
    (hsub : ∀ x r, e1.outstandingRequests.get? x = some r → e.outstandingRequests.get? x = some r)
    (h : e1.competing f i keep entry) : e.competing f i keep entry := by
  cases entry with
  | lose x =>
    obtain ⟨hdirect, r, hr, hc⟩ := h
    refine ⟨fun hnone => hdirect (direct?_of_mono hnone (hsub x)), r, ?_, hc⟩
    exact OrderedMap.mem_entries_iff.2 (hsub x r (OrderedMap.mem_entries_iff.1 hr))
  | _ => exact h.elim

/-! ### The grid -/

theorem books_scheduleRanked (e : Engine σ) (f : FileId) (ref : Nat) (options : GridScheduleOptions)
    (now : Number) (items : List RankedPiece) :
    Books cfg P e (e.scheduleRanked cfg t f ref options now items).1 := by
  induction items with
  | nil => exact .refl
  | cons item rest ih =>
    unfold scheduleRanked
    split
    · exact .refl
    · split
      · exact ih
      · simp only
        split
        · exact .refl
        · split
          · exact .refl
          · rename_i e1 he1
            have hrequested := ledger_onManager he1
            exact (books_gridRequest hrequested rfl).to_eq (ledger_sendPieceRequest ..)

theorem books_leasesExpired {now : Number} {outcome : Except Failure Unit}
    (he : e.expireRequestLeases cfg now = (e', outcome)) (h : ∀ entry, e.leased entry → P entry) :
    Books cfg P e e' := by
  have hexpire : Books cfg P e (e.expireRequestLeases cfg now).1 :=
    books_expireRequestLeases e now h
  rwa [he] at hexpire

theorem books_requestNextGridPiece (e : Engine σ) (f : FileId) (options : GridScheduleOptions)
    (h : ∀ entry, e.leased entry → P entry) :
    Books cfg P e (e.requestNextGridPiece cfg t f options).1 := by
  unfold requestNextGridPiece
  split
  · exact .refl
  · rename_i ref href
    simp only
    split
    · exact .refl
    · split
      · rename_i e1 err he1
        exact books_leasesExpired he1 h
      · rename_i e1 he1
        have hexpired : Books cfg P e e1 := books_leasesExpired he1 h
        split
        · exact hexpired
        · rename_i e2 he2
          have hensured := hexpired.to_eq (ledger_ensureAvailability he2)
          split
          · rename_i e3 err he3
            exact hensured.to_eq (ledger_of_rankPieces he3)
          · rename_i e3 ranked he3
            exact (hensured.to_eq (ledger_of_rankPieces he3)).trans (books_scheduleRanked ..)

theorem books_scheduleEndgame (e : Engine σ) (f : FileId) (ref : Nat)
    (options : GridScheduleOptions) (active : PeerId → Nat) (now : Number) (missing : List Nat) :
    Books cfg P e (e.scheduleEndgame cfg t f ref options active now missing).1 := by
  induction missing generalizing e with
  | nil => exact .refl
  | cons i rest ih =>
    have hrank := ledger_rankProviders e f i (candidateSet options) options.ownerPeerId
      (options.maxRequestsPerPeer.getD 1) active now
    unfold scheduleEndgame
    simp only
    split
    · exact ih e
    · split
      · exact (ih _).from_eq hrank
      · split
        · exact .of_eq hrank
        · rename_i e1 he1
          have hrequested := ledger_onManager he1
          exact (books_gridRequest (hrequested.trans hrank) rfl).to_eq (ledger_sendPieceRequest ..)

theorem books_maybeScheduleEndgamePiece (e : Engine σ) (f : FileId) (options : GridScheduleOptions)
    (h : ∀ entry, e.leased entry → P entry) :
    Books cfg P e (e.maybeScheduleEndgamePiece cfg t f options).1 := by
  unfold maybeScheduleEndgamePiece
  split
  · exact .refl
  · split
    · exact .refl
    · simp only
      split
      · exact .refl
      · split
        · rename_i e1 err he1
          exact books_leasesExpired he1 h
        · rename_i e1 he1
          have hexpired : Books cfg P e e1 := books_leasesExpired he1 h
          exact hexpired.trans (books_scheduleEndgame ..)

theorem books_gridWindowLoop (e : Engine σ) (f : FileId) (options : GridScheduleOptions)
    (total : Number) (scheduled : List GridScheduleResult) (h : ∀ entry, e.leased entry → P entry) :
    Books cfg P e (e.gridWindowLoop cfg t f options total scheduled).1 := by
  unfold gridWindowLoop
  split
  · exact books_maybeScheduleEndgamePiece e f options h
  · exact .refl

theorem books_gridWindowResult (e : Engine σ) (f : FileId) (options : GridScheduleOptions)
    (total : Number) (scheduled : List GridScheduleResult) (result : GridScheduleResult)
    (h : ∀ entry, e.leased entry → P entry) :
    Books cfg P e (e.gridWindowResult cfg t f options total scheduled result).1 := by
  unfold gridWindowResult
  split
  · exact books_gridWindowLoop e f options total _ h
  · exact .refl

theorem books_requestGridPieceWindow (e : Engine σ) (f : FileId) (options : GridScheduleOptions)
    (total perPeer : Option Number) (h : ∀ entry, e.leased entry → P entry) :
    Books cfg P e (e.requestGridPieceWindow cfg t f options total perPeer).1 := by
  unfold requestGridPieceWindow
  simp only
  split
  · exact .refl
  · split
    · exact .refl
    · exact books_gridWindowLoop e f _ _ _ h

theorem books_gridEndgame (e : Engine σ) (f : FileId) (options : GridScheduleOptions)
    (total : Number) (scheduled : List GridScheduleResult) (outcome : Except Failure Value)
    (h : ∀ entry, e.leased entry → P entry) :
    Books cfg P e (e.gridEndgame cfg t f options total scheduled outcome).1 := by
  unfold gridEndgame
  split
  · exact .refl
  · exact books_gridWindowResult e f options total _ _ h
  · exact books_requestNextGridPiece e f options h
  · exact .refl

theorem books_gridNext (e : Engine σ) (f : FileId) (options : GridScheduleOptions)
    (total : Number) (scheduled : List GridScheduleResult) (outcome : Except Failure Value)
    (h : ∀ entry, e.leased entry → P entry) :
    Books cfg P e (e.gridNext cfg t f options total scheduled outcome).1 := by
  unfold gridNext
  split
  · exact .refl
  · exact books_gridWindowResult e f options total _ _ h
  · exact .refl

/-! ### Receipts -/

theorem books_pieceChecked [StorageAdapter σ] (e : Engine σ) (r : Receipt) (verified : Bool) :
    Books cfg P e (e.pieceChecked cfg t r verified).1 := by
  unfold pieceChecked
  split
  · exact .refl
  · simp only
    split
    · split
      · exact .refl
      · rename_i e1 he1
        have hfailed := ledger_onManager he1
        repeat' split
        all_goals first
          | exact .of_eq hfailed
          | exact .of_eq ((ledger_storageCall ..).trans hfailed)
    · exact .of_eq (ledger_storageCall ..)

theorem books_mismatchPersisted (e : Engine σ) (r : Receipt) (outstanding : Option OutstandingRequest)
    (outcome : Except Failure Value) :
    Books cfg P e (e.mismatchPersisted cfg t r outstanding outcome).1 := by
  unfold mismatchPersisted
  simp only
  split
  · rename_i err
    have hreport : Books cfg P e (e.emitDirectLifecycleError t .persist outstanding r.requestId
        err) := books_emitDirectLifecycleError e _ _ _ err
    refine Books.to_eq ?_ (ledger_emit _ rfl)
    exact (hreport.trans (books_finalizeDirectRequest _ _ _)).trans (books_finalizeOrDelete _ _ _)
  · exact (books_finalizeOrDelete e _ _).to_eq (ledger_emit _ rfl)

theorem books_pieceWritten [StorageAdapter σ] (e : Engine σ) (r : Receipt) (outstanding : Option OutstandingRequest)
    (outcome : Except Failure Value) :
    Books cfg P e (e.pieceWritten cfg t r outstanding outcome).1 := by
  unfold pieceWritten
  split
  · rename_i err
    have hreport : Books cfg P e (e.emitDirectLifecycleError t .storage outstanding r.requestId
        err) := books_emitDirectLifecycleError e _ _ _ err
    simp only
    split
    · exact hreport
    · rename_i e1 he1
      have hfailed := ledger_onManager he1
      exact (hreport.to_eq hfailed).trans (books_finalizeDirectRequest _ _ _)
  · split
    · exact .refl
    · rename_i e1 he1
      have hverified := ledger_onManager he1
      simp only
      split <;> exact .of_eq ((ledger_persistState ..).trans hverified)

theorem books_piecePersisted (e : Engine σ) (r : Receipt) (outstanding : Option OutstandingRequest)
    (outcome : Except Failure Value)
    (h : ∀ entry, e.competing r.fileId r.pieceIndex r.requestId entry → P entry) :
    Books cfg P e (e.piecePersisted cfg t r outstanding outcome).1 := by
  unfold piecePersisted
  split
  · rename_i err
    have hreport : Books cfg P e (e.emitDirectLifecycleError t .persist outstanding r.requestId
        err) := books_emitDirectLifecycleError e _ _ _ err
    simp only
    split
    · exact hreport
    · rename_i e1 he1
      have hfailed := ledger_onManager he1
      exact (hreport.to_eq hfailed).trans (books_finalizeDirectRequest _ _ _)
  · have hfinal : Books cfg P e (e.finalizeOrDelete cfg t r.requestId .verified) :=
      books_finalizeOrDelete e _ _
    have htable := (finalizeOrDelete_fields e cfg t r.requestId .verified).2.2
    have hcancel : Books cfg P (e.finalizeOrDelete cfg t r.requestId .verified)
        ((e.finalizeOrDelete cfg t r.requestId .verified).cancelCompetingGridRequests t r.fileId
          r.pieceIndex r.requestId).1 := by
      refine books_cancelCompetingGridRequests _ _ _ _ fun entry hentry => h entry ?_
      refine competing_mono (fun x q hq => ?_) hentry
      rw [htable] at hq
      exact (OrderedMap.get?_delete_eq_some.1 hq).2
    simp only
    split
    · rename_i e1 err he1
      rw [he1] at hcancel
      exact hfinal.trans hcancel
    · rename_i e1 he1
      rw [he1] at hcancel
      split
      · exact (hfinal.trans hcancel).to_eq (ledger_emit _ rfl)
      · exact (hfinal.trans hcancel).to_eq (ledger_broadcastPieceMap ..)

/-! ### Messages -/

theorem books_rejectIncomingChunk (e : Engine σ) (p : PeerId) (header : PieceChunkHeaderMessage) :
    Books cfg P e (e.rejectIncomingChunk cfg t p header).1 := by
  unfold rejectIncomingChunk
  simp only
  split
  · exact .refl
  · rename_i e1 he1
    have hfailed := ledger_markFailedIfKnown he1
    have hfinal : Books cfg P e (e1.finalizeOrDelete cfg t header.requestId .invalid_chunk) :=
      (books_finalizeOrDelete e1 _ _).from_eq hfailed
    exact hfinal.to_eq (ledger_send ..)

theorem books_requestAgain (e : Engine σ) (p : PeerId) (f : FileId)
    (options : Option GridScheduleOptions) (h : ∀ entry, e.leased entry → P entry) :
    Books cfg P e (e.requestAgain cfg t p f options).1 := by
  unfold requestAgain
  split
  · exact books_requestNextGridPiece e f _ h
  · refine books_requestNextPiece e p f none fun entry hentry => ?_
    cases entry with
    | ask x d =>
      obtain ⟨o, ho, -⟩ := hentry
      cases ho
    | opens key =>
      obtain ⟨o, ho, -⟩ := hentry
      cases ho
    | _ => exact hentry.elim

theorem leased_of_onManager {ref : Nat} {method : PieceManager → Except Failure PieceManager}
    {entry : Entry} (he : e.onManager ref method = .ok e') (h : e'.leased entry) :
    e.leased entry := by
  obtain ⟨m, -, rfl⟩ := onManager_spec he
  exact leased_mono h (fun _ _ => id) (fun _ _ _ => id)

theorem books_rejectSent [StorageAdapter σ] (e : Engine σ) (p : PeerId) (header : PieceChunkHeaderMessage)
    (manager : Option Nat) (outstanding : Option OutstandingRequest) (finalized : Bool)
    (outcome : Except Failure Value) (h : ∀ entry, e.leased entry → P entry) :
    Books cfg P e (e.rejectSent cfg t p header manager outstanding finalized outcome).1 := by
  unfold rejectSent
  split
  · exact .refl
  · have hemit : (e.emit (.pieceRejected header.fileId header.pieceIndex
        "invalid_chunk")).ledger = e.ledger := ledger_emit _ rfl
    simp only
    split
    · exact .of_eq ((ledger_persistState ..).trans hemit)
    · split
      · exact .of_eq ((ledger_persistState ..).trans hemit)
      · split
        · exact .of_eq hemit
        · split
          · split
            · exact .of_eq hemit
            · rename_i e1 he1
              have hreset := ledger_onManager he1
              refine (books_requestAgain e1 _ _ _ fun entry hentry => h entry ?_).from_eq
                (hreset.trans hemit)
              have hleased := leased_of_onManager he1 hentry
              exact leased_mono hleased (fun _ _ => id) (fun _ _ _ => id)
          · exact .of_eq ((ledger_persistState ..).trans hemit)

theorem books_appendIncomingChunk (e : Engine σ) (p : PeerId) (header : PieceChunkHeaderMessage)
    (frame : ArrayBuffer) : Books cfg P e (e.appendIncomingChunk cfg t p header frame).1 := by
  have hreject : ∀ e1 : Engine σ, e1.ledger = e.ledger →
      Books cfg P e (e1.rejectIncomingChunk cfg t p header).1 :=
    fun e1 he1 => (books_rejectIncomingChunk e1 p header).from_eq he1
  unfold appendIncomingChunk
  simp only
  split
  · rename_i total index htotal hindex
    by_cases hbad : total = 0 ∨ total ≤ index ∨ header.payloadSize ≠ (frame.length : Number)
    · rw [if_pos hbad]
      exact hreject e rfl
    · rw [if_neg hbad]
      split
      · exact .refl
      · split
        · exact hreject _ rfl
        · split
          · exact .refl
          · split
            · exact .refl
            · exact hreject _ rfl
  · exact hreject e rfl

theorem books_handleTransportBinary (e : Engine σ) (p : PeerId) (frame : ArrayBuffer) :
    Books cfg P e (e.handleTransportBinary cfg t p frame).1 := by
  unfold handleTransportBinary
  split
  · exact .refl
  · exact (books_appendIncomingChunk _ p _ frame).from_eq rfl

theorem ledger_chunkAppended (e : Engine σ) (p : PeerId) (header : PieceChunkHeaderMessage)
    (outcome : Except Failure Value) :
    (e.chunkAppended cfg p header outcome).1.ledger = e.ledger := by
  unfold chunkAppended
  split
  · rfl
  · split
    · rfl
    · split
      · rfl
      · exact ledger_receivePiece ..
  · rfl

theorem books_pieceReceived (e : Engine σ) (p : PeerId) (header : PieceChunkHeaderMessage)
    (outstanding : OutstandingRequest) (outcome : Except Failure Value) :
    Books cfg P e (e.pieceReceived cfg t p header outstanding outcome).1 := by
  unfold pieceReceived
  split
  · rename_i err
    have hreport : Books cfg P e (e.emitDirectLifecycleError t .receive (some outstanding)
        header.requestId err) := books_emitDirectLifecycleError e _ _ _ err
    simp only
    split
    · exact hreport
    · rename_i e1 he1
      have hfailed := ledger_markFailedIfKnown he1
      exact (hreport.to_eq hfailed).trans (books_finalizeDirectRequest _ _ _)
  · exact .of_eq (ledger_send ..)
  · exact .refl

theorem books_responseSent (e : Engine σ) (result : PieceReceiveResult)
    (outstanding : OutstandingRequest) (outcome : Except Failure Value)
    (h : ∀ entry, e.leased entry → P entry) :
    Books cfg P e (e.responseSent cfg t result outstanding outcome).1 := by
  unfold responseSent
  split
  · exact .refl
  · split
    · split
      · exact .refl
      · simp only
        split
        · exact .refl
        · split
          · split
            · exact .refl
            · rename_i e1 he1
              have hreset := ledger_onManager he1
              refine (books_requestNextGridPiece e1 _ _ fun entry hentry => h entry ?_).from_eq
                hreset
              exact leased_of_onManager he1 hentry
          · exact .refl
    · exact .refl

theorem books_handleChunkHeader (e : Engine σ) (p : PeerId) (header : PieceChunkHeaderMessage) :
    Books cfg P e (e.handleChunkHeader cfg t p header).1 := by
  unfold handleChunkHeader
  split
  · exact .refl
  · split
    · exact .refl
    · split
      · split
        · exact .refl
        · exact books_rejectIncomingChunk e p header
      · exact .refl

theorem books_handleAck (e : Engine σ) (p : PeerId) (x : RequestId) (f : FileId)
    (pieceIndex : Number) : Books cfg P e (e.handleAck cfg t p x f pieceIndex).1 := by
  unfold handleAck
  split
  · exact books_finalizeOrDelete e x _
  · split
    · exact .refl
    · exact (books_finalizeOrDelete _ x _).from_eq rfl

theorem books_handleReject (e : Engine σ) (p : PeerId) (x : RequestId) (reason : Option String)
    (h : ∀ entry, e.leased entry → P entry) :
    Books cfg P e (e.handleReject cfg t p x reason).1 := by
  unfold handleReject
  split
  · exact .refl
  · rename_i q hq
    split
    · exact .refl
    · simp only
      split
      · exact .refl
      · split
        · exact .refl
        · split
          · exact .refl
          · rename_i e1 he1
            have hfailed := ledger_onManager he1
            have hfinal : Books cfg P e (e1.finalizeDirectRequest cfg t x .provider_reject).1 :=
              (books_finalizeDirectRequest e1 x _).from_eq hfailed
            split
            · exact hfinal
            · rename_i hfalse
              have hstays := finalizeDirectRequest_false (by simpa using hfalse)
              have hclosed : Books cfg P e { e1 with
                  outstandingRequests := e1.outstandingRequests.delete x } :=
                (books_close e1 x (.inl (direct?_of_false (by simpa using hfalse)))).from_eq hfailed
              rw [hstays]
              split
              · exact hclosed
              · split
                · split
                  · exact hclosed
                  · rename_i e2 he2
                    have hreset := ledger_onManager he2
                    refine (hclosed.to_eq hreset).trans (books_requestAgain e2 _ _ _ ?_)
                    intro entry hentry
                    have hleased := leased_of_onManager he2 hentry
                    have hclosing : e1.leased entry := by
                      refine leased_mono hleased (fun y r hr => ?_) (fun _ _ _ => id)
                      exact (OrderedMap.get?_delete_eq_some.1 hr).2
                    have hreleased := leased_of_onManager he1 hclosing
                    refine h entry (leased_mono hreleased (fun _ _ => id) fun f i l hl => ?_)
                    exact PieceAvailabilityTable.getLease_release_le hl
                · exact hclosed

theorem books_handleTransportMessage (e : Engine σ) (p : PeerId) (message : Option WireMessage)
    (h : ∀ entry, e.leased entry → P entry) :
    Books cfg P e (e.handleTransportMessage cfg t p message).1 := by
  unfold handleTransportMessage
  split
  · exact .refl
  · simp only
    split
    · split <;> exact .refl
    · split
      · split
        · exact .refl
        · split
          · exact .refl
          · rename_i e1 he1
            have hmap := ledger_updatePeerPieceMap he1
            exact .of_eq hmap
      · split
        · split
          · exact .refl
          · exact .refl
          · exact (books_handleChunkHeader _ p _).from_eq rfl
        · split
          · split
            · exact (books_handleAck _ p _ _ _).from_eq rfl
            · exact .refl
            · exact .refl
            · exact .refl
          · split
            · split <;> exact .refl
            · split
              · split
                · exact .refl
                · refine (books_handleReject _ p _ _ fun entry hentry => h entry ?_).from_eq rfl
                  exact leased_mono hentry (fun _ _ => id) (fun _ _ _ => id)
              · exact .refl

/-! ### Sessions -/

theorem books_flushDirectLifecycle (e : Engine σ) :
    Books cfg P e (e.flushDirectLifecycle cfg t).1 := by
  have hexpire : Books cfg P e
      (expireDirectRequests cfg t t.clock e.outstandingRequests.entries e).1 :=
    books_expireDirectRequests t.clock e.outstandingRequests.entries e
  unfold flushDirectLifecycle
  split
  · rename_i e1 err he1
    rwa [he1] at hexpire
  · rename_i e1 he1
    rwa [he1] at hexpire

theorem books_flushed (e : Engine σ) (windows : List Nat) :
    Books cfg P e (e.flushed cfg windows).1 := by
  unfold flushed
  split
  · exact books_prune e none
  · rename_i ref w err hfailed
    obtain ⟨r, -, hr⟩ := List.exists_of_findSome?_eq_some hfailed
    obtain ⟨w', hw', herr⟩ := Option.bind_eq_some_iff.1 hr
    obtain ⟨err', -, heq⟩ := Option.map_eq_some_iff.1 herr
    cases heq
    have hput : (e.putWindow ref { w with error := none }).ledger = e.ledger :=
      ledger_putWindow hw' rfl
    exact (books_prune _ none).from_eq hput

theorem books_dispose (e : Engine σ) : Books cfg P e (e.dispose cfg t).1 := by
  have hcancel : Books cfg P e (e.cancelDirectRequests cfg t ⟨none, none, none, none, none⟩).1 :=
    books_cancelDirectRequests e _
  unfold dispose
  split
  · exact books_flushDirectLifecycle e
  · split
    · rename_i e1 err he1
      rwa [he1] at hcancel
    · rename_i e1 count he1
      rw [he1] at hcancel
      exact hcancel.trans (books_flushDirectLifecycle e1)

theorem books_disposeFlushed (e : Engine σ) (outcome : Except Failure Value)
    (h : (∀ x, e.ledger.direct? x = none) ∨ P .dispose) :
    Books cfg P e (e.disposeFlushed outcome).1 := by
  unfold disposeFlushed
  split
  · exact .refl
  · exact .single (.dispose e.ledger h)

theorem books_timerFired (e : Engine σ) (x : RequestId) (key : String) :
    Books cfg P e (e.timerFired cfg t x key) := by
  unfold timerFired
  split
  · split
    · exact .refl
    · rename_i e1 he1
      exact books_expireDirectRequest he1
  · exact books_enqueueWindow e key rfl fun k hk => nomatch hk

end Engine

/-- What a continuation may post, apart from what the leases allow. -/
def Frame.books {σ : Type} (e : Engine σ) : Frame → Entry → Prop
  | .fillWindow _ key p f options _, entry =>
    entry.Asked p f (some { options with windowKey := some key })
  | .piecePersisted r _, entry => e.competing r.fileId r.pieceIndex r.requestId entry
  | .disposeFlushed, entry => entry = .dispose ∧ ∃ x, e.ledger.direct? x ≠ none
  | _, _ => False

def Call.books {σ : Type} (e : Engine σ) : Call → Entry → Prop
  | .requestNextPiece p f options, entry => entry.Asked p f options
  | .requestPieceWindow p f options _, entry =>
    entry = .opens (options.windowKey.getD (Engine.defaultWindowKey f p options.controllerId))
  | .cancelCompetingGridRequests f i keep, entry => e.competing f i keep entry
  | _, _ => False

namespace Engine

variable {σ : Type} [StorageAdapter σ] {e : Engine σ} {cfg : Config} {t : Turn} {P : Entry → Prop}

omit [StorageAdapter σ] in
theorem books_settled {α : Type} (value : α → Value) {result : Engine σ × Except Failure α}
    (h : Books cfg P e result.1) : Books cfg P e (settled value result).1 := by
  obtain ⟨e1, err | a⟩ := result <;> exact h

theorem ledger_resumeFile (e : Engine σ) (t : Turn) (f : FileId) :
    (e.resumeFile t f).1.ledger = e.ledger := by
  unfold resumeFile
  split
  · rfl
  · split
    · rfl
    · exact ledger_restoreResumeState ..

theorem books_call (c : Call) (hc : ∀ entry, c.books e entry → P entry)
    (h : ∀ entry, e.leased entry → P entry) : Books cfg P e (e.call cfg t c).1 := by
  cases c with
  | createSession input files => exact .of_eq (ledger_storageCall ..)
  | joinSession sessionId manifests => exact .of_eq (ledger_storageCall ..)
  | requestNextPiece p f options => exact books_requestNextPiece e p f options hc
  | requestPieceWindow p f options maxInFlight =>
    exact books_settled _ (books_requestPieceWindow e p f options maxInFlight (hc _ rfl))
  | requestNextGridPiece f options => exact books_requestNextGridPiece e f options h
  | requestGridPieceWindow f options total perPeer =>
    exact books_requestGridPieceWindow e f options total perPeer h
  | receivePiece f pieceIndex requestId data expected => exact .of_eq (ledger_receivePiece ..)
  | resumeFile f => exact .of_eq (ledger_resumeFile ..)
  | cancelDirectRequests selector => exact books_settled _ (books_cancelDirectRequests e selector)
  | cancelCompetingGridRequests f i keep =>
    exact books_settled _ (books_cancelCompetingGridRequests e f i keep hc)
  | expireDirectRequests now => exact books_settled _ (books_expireDirectRequests _ _ e)
  | expireRequestLeases now => exact books_settled _ (books_expireRequestLeases e _ h)
  | updatePeerPieceMap p map role =>
    unfold call
    simp only
    split
    · exact .refl
    · rename_i e1 he1
      exact .of_eq (ledger_updatePeerPieceMap he1)
  | exportPieceMapBroadcast f =>
    exact books_settled _ (.of_eq (ledger_exportPieceMapBroadcast ..))
  | broadcastPieceMap f peers => exact .of_eq (ledger_broadcastPieceMap ..)
  | flushDirectLifecycle => exact books_flushDirectLifecycle e
  | dispose => exact books_dispose e
  | _ => exact .refl

omit [StorageAdapter σ] in
theorem ledger_uploadJobEnded (e : Engine σ) (p : PeerId) (outcome : Except Failure Value) :
    (e.uploadJobEnded p outcome).1.ledger = e.ledger := by
  unfold uploadJobEnded
  simp only
  split
  · refine (ledger_emit _ rfl).trans ?_
    repeat' split
    all_goals rfl
  · repeat' split
    all_goals rfl

theorem ledger_resumeRead (e : Engine σ) (cfg : Config) (t : Turn) (r : Restore) (i : Nat)
    (outcome : Except Failure Value) :
    (e.resumeRead cfg t r i outcome).1.ledger = e.ledger := by
  unfold resumeRead
  split
  · rfl
  · split <;> rfl
  · exact ledger_storageCall ..

theorem ledger_resumeChecked (e : Engine σ) (t : Turn) (r : Restore) (i : Nat) (verified : Bool) :
    (e.resumeChecked t r i verified).1.ledger = e.ledger := by
  unfold resumeChecked
  split
  · exact ledger_restoreLoop ..
  · exact ledger_storageCall ..

theorem ledger_resumeDeleted (e : Engine σ) (t : Turn) (r : Restore) (i : Nat) (reason : String)
    (outcome : Except Failure Value) :
    (e.resumeDeleted t r i reason outcome).1.ledger = e.ledger := by
  unfold resumeDeleted
  split
  · rfl
  · split
    · rfl
    · split
      · rfl
      · exact ledger_restoreLoop ..

theorem ledger_fileRestored (e : Engine σ) (t : Turn) (f : FileId)
    (outcome : Except Failure Value) : (e.fileRestored t f outcome).1.ledger = e.ledger := by
  unfold fileRestored
  split
  · rfl
  · exact ledger_persistState ..
  · rfl

omit [StorageAdapter σ] in
theorem ledger_filePersisted (e : Engine σ) (t : Turn) (f : FileId) (result : ResumeRestoreResult)
    (outcome : Except Failure Value) :
    (e.filePersisted t f result outcome).1.ledger = e.ledger := by
  unfold filePersisted
  split
  · rfl
  · split
    · rfl
    · exact ledger_broadcastPieceMap ..

theorem ledger_joinLoaded (e : Engine σ) (t : Turn) (s : SessionId) (manifests : List FileManifest)
    (outcome : Except Failure Value) : (e.joinLoaded t s manifests outcome).1.ledger = e.ledger := by
  unfold joinLoaded
  split
  · rfl
  · split
    · rfl
    · split
      · rfl
      · rename_i merged hmerged
        exact (ledger_joinLoop ..).trans (ledger_registerManifests e merged)
  · rfl

theorem ledger_joinRestored (e : Engine σ) (t : Turn) (s : SessionId) (merged : List FileManifest)
    (f : FileId) (pending : List PieceMap) (outcome : Except Failure Value) :
    (e.joinRestored t s merged f pending outcome).1.ledger = e.ledger := by
  unfold joinRestored
  split
  · rfl
  · exact ledger_joinLoop ..
  · rfl

theorem ledger_createHashed (e : Engine σ) (cfg : Config) (t : Turn) (input : CreateInput)
    (file : Blob) (files : List Blob) (manifests : List FileManifest)
    (outcome : Except Failure Value) :
    (e.createHashed cfg t input file files manifests outcome).1.ledger = e.ledger := by
  unfold createHashed
  split
  · rfl
  · rename_i manifest
    exact (ledger_createLoop ..).trans (ledger_registerManifest e manifest)
  · rfl

omit [StorageAdapter σ] in
theorem ledger_sourceRead (e : Engine σ) (t : Turn) (p : PeerId) (request : PieceRequestMessage)
    (i : Nat) (outcome : Except Failure Value) :
    (e.sourceRead t p request i outcome).1.ledger = e.ledger := by
  unfold sourceRead
  split
  · rfl
  · exact ledger_startUpload ..
  · rfl

omit [StorageAdapter σ] in
theorem ledger_storedRead (e : Engine σ) (t : Turn) (p : PeerId) (request : PieceRequestMessage)
    (i : Nat) (outcome : Except Failure Value) :
    (e.storedRead t p request i outcome).1.ledger = e.ledger := by
  unfold storedRead
  split
  · rfl
  · exact ledger_startUpload ..
  · exact ledger_send ..

omit [StorageAdapter σ] in
theorem ledger_binarySent (e : Engine σ) (t : Turn) (u : Upload) (outcome : Except Failure Value) :
    (e.binarySent t u outcome).1.ledger = e.ledger := by
  unfold binarySent
  split
  · rfl
  · split
    · exact ledger_sendChunkHeader ..
    · rfl

theorem books_startUploadJob {p : PeerId} {result : Engine σ × Next}
    (hstart : e.startUploadJob t p = some result) : Books cfg P e result.1 := by
  unfold startUploadJob at hstart
  split at hstart
  · cases hstart
  · split at hstart
    · cases hstart
    · split at hstart
      · cases hstart
      · cases hstart
        exact .of_eq (ledger_sendRequestedPiece ..)

omit [StorageAdapter σ] in
/-- The promise of a message handler, which only reports. -/
theorem ledger_messageHandled (e : Engine σ) (outcome : Except Failure Value) :
    (e.messageHandled outcome).1.ledger = e.ledger := by
  unfold messageHandled
  split
  · exact ledger_emit _ rfl
  · rfl

omit [StorageAdapter σ] in
theorem ledger_thenReturn (e : Engine σ) (v : Value) (outcome : Except Failure Value) :
    (e.thenReturn v outcome).1.ledger = e.ledger := by
  unfold thenReturn
  split <;> rfl

theorem books_resume (frame : Frame) (outcome : Except Failure Value)
    (hf : ∀ entry, frame.books e entry → P entry) (h : ∀ entry, e.leased entry → P entry) :
    Books cfg P e (e.resume cfg t outcome frame).1 := by
  cases frame with
  | requestSent ref x scheduled => exact books_requestSent e ref x scheduled outcome
  | requestPersisted ref x scheduled => exact books_requestPersisted e ref x scheduled outcome
  | fillWindow window key p f options scheduled =>
    exact books_windowFilled e window key p f options scheduled outcome hf
  | windowJob window track => exact .of_eq (ledger_windowJobEnded e window track outcome)
  | gridSent result =>
    cases outcome with
    | error err => exact .refl
    | ok v => exact .of_eq (ledger_persistState e t)
  | gridPersisted result => exact .of_eq (ledger_thenReturn ..)
  | gridEndgame f options total scheduled => exact books_gridEndgame e f options total _ _ h
  | gridNext f options total scheduled => exact books_gridNext e f options total _ _ h
  | endgameSent result => exact .of_eq (ledger_thenReturn ..)
  | pieceChecked r =>
    cases outcome with
    | error err => exact .refl
    | ok v =>
      cases v with
      | bool b => exact books_pieceChecked e r b
      | _ => exact .refl
  | pieceDeleted r outstanding =>
    cases outcome with
    | error err => exact .refl
    | ok v => exact .of_eq (ledger_persistState e t)
  | mismatchPersisted r outstanding => exact books_mismatchPersisted e r outstanding outcome
  | pieceWritten r outstanding => exact books_pieceWritten e r outstanding outcome
  | piecePersisted r outstanding => exact books_piecePersisted e r outstanding outcome hf
  | mapAnnounced r =>
    cases outcome with
    | error err => exact .refl
    | ok v => exact .of_eq (ledger_emit _ rfl)
  | resumeRead r i => exact .of_eq (ledger_resumeRead ..)
  | resumeChecked r i =>
    cases outcome with
    | error err => exact .refl
    | ok v =>
      cases v with
      | bool b => exact .of_eq (ledger_resumeChecked ..)
      | _ => exact .refl
  | resumeDeleted r i reason => exact .of_eq (ledger_resumeDeleted ..)
  | fileRestored f => exact .of_eq (ledger_fileRestored ..)
  | filePersisted f result => exact .of_eq (ledger_filePersisted ..)
  | fileAnnounced result => exact .of_eq (ledger_thenReturn ..)
  | joinInitialized s manifests =>
    cases outcome with
    | error err => exact .refl
    | ok v => exact .of_eq (ledger_storageCall ..)
  | joinLoaded s manifests => exact .of_eq (ledger_joinLoaded ..)
  | joinRestored s merged f pending => exact .of_eq (ledger_joinRestored ..)
  | joinPersisted s merged => exact .of_eq (ledger_thenReturn ..)
  | createInitialized input files =>
    cases outcome with
    | error err => exact .refl
    | ok v => exact .of_eq (ledger_createLoop ..)
  | createHashed input file files manifests => exact .of_eq (ledger_createHashed ..)
  | createPersisted s manifests => exact .of_eq (ledger_thenReturn ..)
  | messageHandled => exact .of_eq (ledger_messageHandled ..)
  | chunkAppended p header => exact .of_eq (ledger_chunkAppended ..)
  | chunkRejected => exact .of_eq (ledger_thenReturn ..)
  | pieceReceived p header outstanding => exact books_pieceReceived e p header outstanding outcome
  | responseSent result outstanding => exact books_responseSent e result outstanding outcome h
  | rejectSent p header manager outstanding finalized =>
    exact books_rejectSent e p header manager outstanding finalized outcome h
  | rejectRequested =>
    cases outcome with
    | error err => exact .refl
    | ok v => exact .of_eq (ledger_persistState e t)
  | sourceRead p request i => exact .of_eq (ledger_sourceRead ..)
  | storedRead p request i => exact .of_eq (ledger_storedRead ..)
  | headerSent upload =>
    cases outcome with
    | error err => exact .refl
    | ok v => exact .of_eq (ledger_sendBinary ..)
  | binarySent upload => exact .of_eq (ledger_binarySent ..)
  | uploadJob p => exact .of_eq (ledger_uploadJobEnded ..)
  | flushed windows =>
    cases outcome with
    | error err => exact .refl
    | ok v => exact books_flushed e windows
  | disposeFlushed =>
    refine books_disposeFlushed e outcome ?_
    by_cases hnone : ∀ x, e.ledger.direct? x = none
    · exact .inl hnone
    · exact .inr (hf .dispose ⟨rfl, not_forall.1 hnone⟩)

end Engine

namespace World

variable {σ : Type}

/-- What an action may post, apart from what the leases allow. -/
def books (w : World σ) : Action → Entry → Prop
  | .call c, entry => c.books w.engine entry
  | .resume i, entry => ∃ pending frame below, w.tasks[i]? = some ⟨pending, frame :: below⟩ ∧
      frame.books w.engine entry
  | .window ref, entry => ∃ window job rest, w.engine.windowHeap[ref]? = some window ∧
      window.queue = job :: rest ∧ (entry = .take ref job ∨
        (window.disabled = false ∧ w.engine.disposed = false ∧ job.Asks entry))
  | _, _ => False

/-- Every step of a world keeps its books. -/
theorem books_step [StorageAdapter σ] (cfg : Config) (w : World σ) (t : Turn) (a : Action) :
    Engine.Books cfg (fun entry => w.books a entry ∨ w.engine.leased entry) w.engine
      (w.step cfg (t, a)).engine := by
  cases a with
  | call c => exact Engine.books_call c (fun _ => .inl) fun _ => .inr
  | message p message =>
    unfold step
    simp only [handleMessage]
    split
    · exact Engine.books_handleTransportMessage w.engine p message fun _ => .inr
    · exact .refl
  | binary p data =>
    unfold step
    simp only [handleBinary]
    split
    · exact Engine.books_handleTransportBinary w.engine p data
    · exact .refl
  | resume i =>
    unfold step
    simp only [resumeTask]
    split
    · rename_i pending frame below hi
      split
      · exact Engine.books_resume frame _ (fun entry h => .inl ⟨pending, frame, below, hi, h⟩)
          fun _ => .inr
      · exact .refl
    · exact .refl
  | window ref =>
    unfold step
    cases h : w.engine.startWindowJob cfg t ref with
    | none =>
      simp only [h, Option.map_none, Option.getD_none]
      exact .refl
    | some result =>
      simp only [h, Option.map_some, Option.getD_some]
      refine Engine.books_startWindowJob h (fun window job rest hw hq => ?_)
        fun window job rest hw hq hd hlive entry hasks => ?_
      · exact .inl ⟨window, job, rest, hw, hq, .inl rfl⟩
      · exact .inl ⟨window, job, rest, hw, hq, .inr ⟨hd, hlive, hasks⟩⟩
  | upload p =>
    unfold step
    cases h : w.engine.startUploadJob t p with
    | none =>
      simp only [h, Option.map_none, Option.getD_none]
      exact .refl
    | some result =>
      simp only [h, Option.map_some, Option.getD_some]
      exact Engine.books_startUploadJob h
  | timer k =>
    unfold step
    simp only [fireTimer]
    split
    · split
      · exact Engine.books_timerFired w.engine _ _
      · exact .refl
    · exact .refl

end World

end PonsWarp.Core
