import PonsWarp.Core.WindowQueues

set_option autoImplicit false

/-!
The chains of the direct windows over the steps of a world. A job is put in last, starts when
the one before it has ended, and ends where its task comes back to the chain; a window is
running exactly while one task has that before it.
-/

namespace PonsWarp.Core

open PonsWarp.Data

namespace Engine

variable {σ : Type} {e e' e1 : Engine σ} {cfg : Config} {t : Turn} {P : Prop}

/-! ### Requests that end -/

/-- A retry is put in where the failure may be retried and the window takes it. -/
theorem feeds_finalizeDirectRequest (e : Engine σ) (x : RequestId) (status : DirectTerminalReason)
    (h : retryable status = true → e.ledger.Requeues cfg.maxRetries x → P) :
    Feeds P e (e.finalizeDirectRequest cfg t x status).1 := by
  cases hb : (e.outstandingRequests.get? x).bind (·.direct) with
  | none => rw [finalizeDirectRequest_other status hb]
  | some d =>
    obtain ⟨r, hr, hd⟩ := Option.bind_eq_some_iff.1 hb
    unfold finalizeDirectRequest
    simp only [hr, hd]
    by_cases hretry : (retryable status && decide (d.retryCount < cfg.maxRetries)) = true
    · by_cases hkey : d.windowKey = ""
      · simp only [hretry, hkey, if_true]
        exact .of_eq rfl
      · simp only [hretry, hkey, if_true, if_false]
        refine Feeds.from_eq (feeds_enqueueWindow _ _ _ fun htakes => ?_) rfl
        simp only [Bool.and_eq_true, decide_eq_true_eq] at hretry
        exact h hretry.1 ⟨d, hb, hretry.2, hkey, takes_iff.2 (takes_iff.1 htakes)⟩
    · simp only [hretry, if_false, Bool.false_eq_true]
      split
      · split
        · rename_i ref w hw
          split
          · exact .of_eq rfl
          · exact .of_eq (lanes_putWindow (window?_spec hw).2 rfl)
        · exact .of_eq rfl
      · exact .of_eq rfl

theorem feeds_finalizeOrDelete (e : Engine σ) (x : RequestId) (status : DirectTerminalReason)
    (h : retryable status = true → e.ledger.Requeues cfg.maxRetries x → P) :
    Feeds P e (e.finalizeOrDelete cfg t x status) := by
  have hfinal : Feeds P e (e.finalizeDirectRequest cfg t x status).1 :=
    feeds_finalizeDirectRequest e x status h
  unfold finalizeOrDelete
  simp only
  split <;> exact hfinal

/-- What does not fail in a way that may be retried puts nothing in. -/
theorem feeds_settle (e : Engine σ) (x : RequestId) {status : DirectTerminalReason}
    (hs : retryable status = false) : Feeds P e (e.finalizeDirectRequest cfg t x status).1 := by
  refine feeds_finalizeDirectRequest e x status fun hretry => ?_
  rw [hs] at hretry
  cases hretry

/-- A request that is retired is direct no more. -/
theorem direct?_finalizeDirectRequest (e : Engine σ) (x : RequestId)
    (status : DirectTerminalReason) :
    (e.finalizeDirectRequest cfg t x status).1.ledger.direct? x = none := by
  cases hb : (e.outstandingRequests.get? x).bind (·.direct) with
  | none =>
    rw [finalizeDirectRequest_other status hb]
    exact hb
  | some d =>
    obtain ⟨r, hr, hd⟩ := Option.bind_eq_some_iff.1 hb
    obtain ⟨event, -, -, -, -, hledger⟩ := ledger_finalizeDirectRequest cfg t status hr hd
    rw [hledger, Ledger.direct?_retire, if_pos rfl]

theorem feeds_expireDirectRequest {x : RequestId} (he : e.expireDirectRequest cfg t x = .ok e')
    (h : e.ledger.Requeues cfg.maxRetries x → P) : Feeds P e e' := by
  unfold expireDirectRequest at he
  split at he
  · cases he
    exact .refl
  · split at he
    · cases he
      exact .refl
    · split at he
      · cases he
      · rename_i e1 he1
        cases he
        have hmark := ledger_markFailedIfKnown he1
        have hlanes := lanes_markFailedIfKnown he1
        refine Feeds.from_eq (feeds_finalizeDirectRequest _ x _ fun _ hr => h ?_) hlanes
        rw [← hmark]
        exact hr

theorem feeds_expireDirectRequests (now : Number) (requests : List (RequestId × OutstandingRequest))
    (e : Engine σ) (hP : P) : Feeds P e (expireDirectRequests cfg t now requests e).1 := by
  induction requests generalizing e with
  | nil => exact .refl
  | cons entry rest ih =>
    obtain ⟨x, request⟩ := entry
    unfold expireDirectRequests
    split
    · split
      · split
        · exact .refl
        · rename_i e1 he1
          exact (feeds_expireDirectRequest he1 fun _ => hP).trans (ih e1)
      · exact ih e
    · exact ih e

/-- A lifecycle error disables its window and leaves the chain. -/
theorem lanes_emitDirectLifecycleError (e : Engine σ) (phase : LifecyclePhase)
    (request : Option OutstandingRequest) (x : RequestId) (error : Failure) :
    (e.emitDirectLifecycleError t phase request x error).lanes = e.lanes := by
  unfold emitDirectLifecycleError
  split
  · rfl
  · split
    · rfl
    · split
      · rfl
      · simp only
        split
        · rename_i ref w hw
          exact lanes_putWindow (window?_spec hw).2 rfl
        · rfl

theorem lanes_disableWindows (selector : DirectCancelSelector) (windows : List (String × Nat))
    (e : Engine σ) : (disableWindows selector windows e).1.lanes = e.lanes := by
  induction windows generalizing e with
  | nil => rfl
  | cons entry rest ih =>
    obtain ⟨key, ref⟩ := entry
    unfold disableWindows
    split
    · exact ih e
    · rename_i w hw
      split
      · have hput : (e.putWindow ref { w with disabled := true }).lanes = e.lanes :=
          lanes_putWindow hw rfl
        simp only
        split
        · exact hput
        · rename_i generation e1 he
          have hlt : ref < e.windowHeap.length := (List.getElem?_eq_some_iff.1 hw).1
          have hw1 : e1.windowHeap[ref]? = some { w with disabled := true } := by
            simp [(allocateDirectGeneration_spec he).2, putWindow, hlt]
          have hsame : (e1.putWindow ref
              { w with disabled := true, generation := generation }).lanes = e1.lanes :=
            lanes_putWindow hw1 rfl
          exact (ih _).trans (hsame.trans ((lanes_allocateDirectGeneration he).trans hput))
      · exact ih e

theorem feeds_cancelRequests (selector : DirectCancelSelector)
    (requests : List (RequestId × OutstandingRequest)) (count : Nat) (e : Engine σ) :
    Feeds P e (cancelRequests cfg t selector requests count e).1 := by
  induction requests generalizing e count with
  | nil => exact .refl
  | cons entry rest ih =>
    obtain ⟨x, request⟩ := entry
    unfold cancelRequests
    split
    · exact ih count e
    · split
      · have hfinal : Feeds P (e.addDirectTombstone cfg x)
            ((e.addDirectTombstone cfg x).finalizeDirectRequest cfg t x .cancelled).1 :=
          feeds_settle _ x rfl
        exact (hfinal.from_eq rfl).trans (ih _ _)
      · exact ih count e

theorem feeds_cancelDirectRequests (e : Engine σ) (selector : DirectCancelSelector) :
    Feeds P e (e.cancelDirectRequests cfg t selector).1 := by
  have hdisable := lanes_disableWindows selector e.directWindows.entries e
  unfold cancelDirectRequests
  split
  · rename_i e1 err he
    rw [he] at hdisable
    exact .of_eq hdisable
  · rename_i e1 he
    rw [he] at hdisable
    exact (feeds_cancelRequests selector _ 0 e1).from_eq hdisable

/-! ### Requests that are made -/

theorem feeds_recordRequest (e : Engine σ) (cfg : Config) (t : Turn) (p : PeerId) (f : FileId)
    (i : Nat) (x : RequestId) (options : Option DirectRequestOptions) :
    Feeds P e (e.recordRequest cfg t p f i x options) := by
  unfold recordRequest
  split
  · exact .of_eq rfl
  · rename_i o
    have hnew : Feeds P e (e.newWindow (o.windowKey.getD (defaultWindowKey f p o.controllerId))
        (freshWindow f p o.controllerId 1 0)) := feeds_newWindow rfl
    simp only
    split
    · exact hnew
    · exact .of_eq rfl

theorem feeds_requestNextPiece (e : Engine σ) (p : PeerId) (f : FileId)
    (options : Option DirectRequestOptions) :
    Feeds P e (e.requestNextPiece cfg t p f options).1 := by
  unfold requestNextPiece
  split
  · exact .refl
  · split
    · exact .refl
    · exact .refl
    · simp only
      split
      · exact .refl
      · split
        · exact .refl
        · rename_i e1 he1
          have hrequested := lanes_onManager he1
          exact ((feeds_recordRequest e1 cfg t p f _ _ options).from_eq hrequested).to_eq
            (lanes_send ..)

theorem feeds_fillWindow (e : Engine σ) (window : Nat) (key : String) (p : PeerId) (f : FileId)
    (options : DirectRequestOptions) (scheduled : List ScheduledPiece) :
    Feeds P e (e.fillWindow cfg t window key p f options scheduled).1 := by
  unfold fillWindow
  simp only
  split
  · exact feeds_requestNextPiece e p f _
  · exact .refl

theorem feeds_windowFilled (e : Engine σ) (window : Nat) (key : String) (p : PeerId) (f : FileId)
    (options : DirectRequestOptions) (scheduled : List ScheduledPiece)
    (outcome : Except Failure Value) :
    Feeds P e (e.windowFilled cfg t window key p f options scheduled outcome).1 := by
  unfold windowFilled
  split
  · exact .refl
  · exact feeds_fillWindow e window key p f options _
  · exact .refl
  · exact .refl

theorem feeds_retryDirectRequest (e : Engine σ) (x : RequestId) (r : OutstandingRequest)
    (d : DirectRequest) : Feeds P e (e.retryDirectRequest cfg t x r d).1 := by
  unfold retryDirectRequest
  split
  · exact .refl
  · split
    · exact .refl
    · split
      · exact .refl
      · split
        · exact .refl
        · split
          · exact .refl
          · rename_i e1 he1
            have hreset : e1.lanes = e.lanes := by
              split at he1
              · exact lanes_onManager he1
              · cases he1
                rfl
            exact (feeds_requestNextPiece e1 _ _ _).from_eq hreset

theorem feeds_runWindowJob (e : Engine σ) (window : Nat) (job : WindowJob)
    (h : ∀ x, job = .expire x → e.ledger.Requeues cfg.maxRetries x → P) :
    Feeds P e (e.runWindowJob cfg t window job).1 := by
  cases job with
  | fill p f key options => exact feeds_fillWindow e window key p f options []
  | retry x r d => exact feeds_retryDirectRequest e x r d
  | expire x =>
    unfold runWindowJob
    simp only
    split
    · exact .refl
    · rename_i e1 he1
      exact feeds_expireDirectRequest he1 (h x rfl)

theorem feeds_requestSent [StorageAdapter σ] (e : Engine σ) (ref : Nat) (x : RequestId)
    (scheduled : ScheduledPiece) (outcome : Except Failure Value)
    (h : ∀ err, outcome = .error err → e.ledger.Requeues cfg.maxRetries x → P) :
    Feeds P e (e.requestSent cfg t ref x scheduled outcome).1 := by
  unfold requestSent
  split
  · rename_i err
    split
    · exact .refl
    · rename_i e1 he1
      have hfailed := ledger_onManager he1
      refine Feeds.from_eq (feeds_finalizeDirectRequest e1 x _ fun _ hr => h err rfl ?_)
        (lanes_onManager he1)
      rw [← hfailed]
      exact hr
  · exact .of_eq (lanes_persistState e t)

theorem feeds_requestPersisted (e : Engine σ) (ref : Nat) (x : RequestId)
    (scheduled : ScheduledPiece) (outcome : Except Failure Value) :
    Feeds P e (e.requestPersisted cfg t ref x scheduled outcome).1 := by
  unfold requestPersisted
  split
  · rename_i err
    have hreport : (e.emitDirectLifecycleError t .persist (e.outstandingRequests.get? x) x
        err).lanes = e.lanes := lanes_emitDirectLifecycleError e _ _ x err
    simp only
    split
    · exact .of_eq hreport
    · rename_i e1 he1
      have hfailed := lanes_onManager he1
      exact (feeds_settle e1 x rfl).from_eq (hfailed.trans hreport)
  · exact .refl

theorem feeds_requestPieceWindow (e : Engine σ) (p : PeerId) (f : FileId)
    (options : DirectRequestOptions) (maxInFlight : Option Number) (hP : P) :
    Feeds P e (e.requestPieceWindow cfg p f options maxInFlight).1 := by
  unfold requestPieceWindow
  simp only
  split
  · exact .refl
  · split
    · split
      · exact .refl
      · rename_i generation e1 he1
        have hsame := lanes_allocateDirectGeneration he1
        have hnew : Feeds P e (e1.newWindow
            (options.windowKey.getD (defaultWindowKey f p options.controllerId))
            (freshWindow f p options.controllerId
              (maxInFlight.getD (cfg.directWindowCap.getD 1)) generation)) :=
          (feeds_newWindow rfl).from_eq hsame
        refine Feeds.trans ?_ (feeds_enqueueWindow _ _ _ fun _ => hP)
        exact hnew.to_eq rfl
    · split
      · exact .refl
      · split
        · exact .refl
        · split
          · exact .refl
          · exact feeds_enqueueWindow e _ _ fun _ => hP

/-! ### Receipts and messages -/

theorem lanes_pieceChecked [StorageAdapter σ] (e : Engine σ) (r : Receipt) (verified : Bool) :
    (e.pieceChecked cfg t r verified).1.lanes = e.lanes := by
  unfold pieceChecked
  split
  · rfl
  · simp only
    split
    · split
      · rfl
      · rename_i e1 he1
        have hfailed := lanes_onManager he1
        repeat' split
        all_goals first
          | exact hfailed
          | exact (lanes_storageCall ..).trans hfailed
    · exact lanes_storageCall ..

theorem feeds_mismatchPersisted (e : Engine σ) (r : Receipt)
    (outstanding : Option OutstandingRequest) (outcome : Except Failure Value)
    (h : ∀ v, outcome = .ok v → e.ledger.Requeues cfg.maxRetries r.requestId → P) :
    Feeds P e (e.mismatchPersisted cfg t r outstanding outcome).1 := by
  cases outcome with
  | error err =>
    have hreport : (e.emitDirectLifecycleError t .persist outstanding r.requestId err).lanes =
        e.lanes := lanes_emitDirectLifecycleError e _ _ _ err
    have hsettled : Feeds P e ((e.emitDirectLifecycleError t .persist outstanding r.requestId
        err).finalizeDirectRequest cfg t r.requestId .cancelled).1 :=
      (feeds_settle _ _ rfl).from_eq hreport
    -- the request is settled before its mismatch could be retried
    have hmismatch : ∀ e1 : Engine σ, e1.ledger.direct? r.requestId = none →
        Feeds P e1 (e1.finalizeOrDelete cfg t r.requestId .hash_mismatch) :=
      fun e1 hnone => feeds_finalizeOrDelete e1 _ _ fun _ hr => absurd hr (Ledger.not_requeues hnone)
    exact hsettled.trans (hmismatch _ (direct?_finalizeDirectRequest _ _ _))
  | ok v => exact feeds_finalizeOrDelete e _ _ fun _ => h v rfl

theorem feeds_pieceWritten [StorageAdapter σ] (e : Engine σ) (r : Receipt)
    (outstanding : Option OutstandingRequest) (outcome : Except Failure Value) :
    Feeds P e (e.pieceWritten cfg t r outstanding outcome).1 := by
  unfold pieceWritten
  split
  · rename_i err
    have hreport : (e.emitDirectLifecycleError t .storage outstanding r.requestId err).lanes =
        e.lanes := lanes_emitDirectLifecycleError e _ _ _ err
    simp only
    split
    · exact .of_eq hreport
    · rename_i e1 he1
      have hfailed := lanes_onManager he1
      exact (feeds_settle e1 _ rfl).from_eq (hfailed.trans hreport)
  · split
    · exact .refl
    · rename_i e1 he1
      have hverified := lanes_onManager he1
      simp only
      split <;> exact .of_eq ((lanes_persistState ..).trans hverified)

theorem feeds_piecePersisted (e : Engine σ) (r : Receipt) (outstanding : Option OutstandingRequest)
    (outcome : Except Failure Value) :
    Feeds P e (e.piecePersisted cfg t r outstanding outcome).1 := by
  unfold piecePersisted
  split
  · rename_i err
    have hreport : (e.emitDirectLifecycleError t .persist outstanding r.requestId err).lanes =
        e.lanes := lanes_emitDirectLifecycleError e _ _ _ err
    simp only
    split
    · exact .of_eq hreport
    · rename_i e1 he1
      have hfailed := lanes_onManager he1
      exact (feeds_settle e1 _ rfl).from_eq (hfailed.trans hreport)
  · have hfinal : Feeds P e (e.finalizeOrDelete cfg t r.requestId .verified) :=
      feeds_finalizeOrDelete e _ _ (fun hretry => by cases hretry)
    have hcancel : ((e.finalizeOrDelete cfg t r.requestId .verified).cancelCompetingGridRequests t
        r.fileId r.pieceIndex r.requestId).1.lanes =
          (e.finalizeOrDelete cfg t r.requestId .verified).lanes := lanes_cancelCompeting _ _
    simp only
    split
    · rename_i e1 err he1
      rw [he1] at hcancel
      exact hfinal.to_eq hcancel
    · rename_i e1 he1
      rw [he1] at hcancel
      split
      · exact hfinal.to_eq hcancel
      · exact hfinal.to_eq ((lanes_broadcastPieceMap ..).trans hcancel)

theorem feeds_rejectIncomingChunk (e : Engine σ) (p : PeerId) (header : PieceChunkHeaderMessage)
    (hP : P) : Feeds P e (e.rejectIncomingChunk cfg t p header).1 := by
  unfold rejectIncomingChunk
  simp only
  split
  · exact .refl
  · rename_i e1 he1
    have hfailed := lanes_markFailedIfKnown he1
    have hfinal : Feeds P e (e1.finalizeOrDelete cfg t header.requestId .invalid_chunk) :=
      (feeds_finalizeOrDelete e1 _ _ fun _ _ => hP).from_eq hfailed
    exact hfinal.to_eq (lanes_send ..)

theorem lanes_rejectSent [StorageAdapter σ] (e : Engine σ) (p : PeerId)
    (header : PieceChunkHeaderMessage) (manager : Option Nat)
    (outstanding : Option OutstandingRequest) (finalized : Bool) (outcome : Except Failure Value) :
    (e.rejectSent cfg t p header manager outstanding finalized outcome).1.lanes = e.lanes := by
  unfold rejectSent
  split
  · rfl
  · simp only
    split
    · exact lanes_persistState ..
    · split
      · exact lanes_persistState ..
      · split
        · rfl
        · split
          · split
            · rfl
            · rename_i e1 he1
              have hreset := lanes_onManager he1
              exact (lanes_requestAgain ..).trans hreset
          · exact lanes_persistState ..

theorem feeds_appendIncomingChunk (e : Engine σ) (p : PeerId) (header : PieceChunkHeaderMessage)
    (frame : ArrayBuffer) (hP : P) : Feeds P e (e.appendIncomingChunk cfg t p header frame).1 := by
  have hreject : ∀ e1 : Engine σ, e1.lanes = e.lanes →
      Feeds P e (e1.rejectIncomingChunk cfg t p header).1 :=
    fun e1 he1 => (feeds_rejectIncomingChunk e1 p header hP).from_eq he1
  unfold appendIncomingChunk
  simp only
  split
  · rename_i total index htotal hindex
    by_cases hbad : total = 0 ∨ total ≤ index ∨ header.payloadSize ≠ (frame.length : Number)
    · rw [if_pos hbad]
      exact hreject e rfl
    · rw [if_neg hbad]
      split
      · exact .refl
      · split
        · exact hreject _ rfl
        · split
          · exact .refl
          · split
            · exact .refl
            · exact hreject _ rfl
  · exact hreject e rfl

theorem feeds_pieceReceived (e : Engine σ) (p : PeerId) (header : PieceChunkHeaderMessage)
    (outstanding : OutstandingRequest) (outcome : Except Failure Value) :
    Feeds P e (e.pieceReceived cfg t p header outstanding outcome).1 := by
  unfold pieceReceived
  split
  · rename_i err
    have hreport : (e.emitDirectLifecycleError t .receive (some outstanding) header.requestId
        err).lanes = e.lanes := lanes_emitDirectLifecycleError e _ _ _ err
    simp only
    split
    · exact .of_eq hreport
    · rename_i e1 he1
      have hfailed := lanes_markFailedIfKnown he1
      exact (feeds_settle e1 _ rfl).from_eq (hfailed.trans hreport)
  · exact .of_eq (lanes_send ..)
  · exact .refl

theorem lanes_responseSent (e : Engine σ) (result : PieceReceiveResult)
    (outstanding : OutstandingRequest) (outcome : Except Failure Value) :
    (e.responseSent cfg t result outstanding outcome).1.lanes = e.lanes := by
  unfold responseSent
  split
  · rfl
  · split
    · split
      · rfl
      · simp only
        split
        · rfl
        · split
          · split
            · rfl
            · rename_i e1 he1
              have hreset := lanes_onManager he1
              exact (lanes_requestNextGridPiece ..).trans hreset
          · rfl
    · rfl

theorem feeds_handleChunkHeader (e : Engine σ) (p : PeerId) (header : PieceChunkHeaderMessage)
    (hP : P) : Feeds P e (e.handleChunkHeader cfg t p header).1 := by
  unfold handleChunkHeader
  split
  · exact .refl
  · split
    · exact .refl
    · split
      · split
        · exact .refl
        · exact feeds_rejectIncomingChunk e p header hP
      · exact .refl

theorem feeds_handleAck (e : Engine σ) (p : PeerId) (x : RequestId) (f : FileId)
    (pieceIndex : Number) : Feeds P e (e.handleAck cfg t p x f pieceIndex).1 := by
  have hfinal : ∀ e1 : Engine σ, Feeds P e1 (e1.finalizeOrDelete cfg t x .acknowledged) :=
    fun e1 => feeds_finalizeOrDelete e1 x _ (fun hretry => by cases hretry)
  unfold handleAck
  split
  · exact hfinal e
  · split
    · exact .refl
    · exact (hfinal _).from_eq rfl

theorem feeds_handleReject (e : Engine σ) (p : PeerId) (x : RequestId) (reason : Option String)
    (hP : P) : Feeds P e (e.handleReject cfg t p x reason).1 := by
  unfold handleReject
  split
  · exact .refl
  · split
    · exact .refl
    · simp only
      split
      · exact .refl
      · split
        · exact .refl
        · split
          · exact .refl
          · rename_i e1 he1
            have hfailed := lanes_onManager he1
            have hfinal : Feeds P e (e1.finalizeDirectRequest cfg t x .provider_reject).1 :=
              (feeds_finalizeDirectRequest e1 x _ fun _ _ => hP).from_eq hfailed
            split
            · exact hfinal
            · split
              · exact hfinal
              · split
                · split
                  · exact hfinal
                  · rename_i e2 he2
                    have hreset := lanes_onManager he2
                    exact hfinal.to_eq ((lanes_requestAgain ..).trans hreset)
                · exact hfinal

theorem feeds_handleTransportMessage (e : Engine σ) (p : PeerId) (message : Option WireMessage)
    (hP : P) : Feeds P e (e.handleTransportMessage cfg t p message).1 := by
  unfold handleTransportMessage
  split
  · exact .refl
  · simp only
    split
    · split <;> exact .refl
    · split
      · split
        · exact .refl
        · split
          · exact .refl
          · rename_i e1 he1
            have hmap := lanes_updatePeerPieceMap he1
            exact .of_eq hmap
      · split
        · split
          · exact .refl
          · exact .refl
          · exact (feeds_handleChunkHeader _ p _ hP).from_eq rfl
        · split
          · split
            · exact (feeds_handleAck _ p _ _ _).from_eq rfl
            · exact .refl
            · exact .refl
            · exact .refl
          · split
            · split <;> exact .refl
            · split
              · split
                · exact .refl
                · exact (feeds_handleReject _ p _ _ hP).from_eq rfl
              · exact .refl

/-! ### Calls and continuations -/

theorem feeds_flushDirectLifecycle (e : Engine σ) (hP : P) :
    Feeds P e (e.flushDirectLifecycle cfg t).1 := by
  have hexpire : Feeds P e
      (expireDirectRequests cfg t t.clock e.outstandingRequests.entries e).1 :=
    feeds_expireDirectRequests t.clock e.outstandingRequests.entries e hP
  unfold flushDirectLifecycle
  split <;> rename_i he1 <;> rwa [he1] at hexpire

theorem lanes_flushed (e : Engine σ) (windows : List Nat) :
    (e.flushed cfg windows).1.lanes = e.lanes := by
  unfold flushed
  split
  · rfl
  · rename_i ref w err hfailed
    obtain ⟨r, -, hr⟩ := List.exists_of_findSome?_eq_some hfailed
    obtain ⟨w', hw', herr⟩ := Option.bind_eq_some_iff.1 hr
    obtain ⟨err', -, heq⟩ := Option.map_eq_some_iff.1 herr
    cases heq
    have hput : (e.putWindow ref { w with error := none }).lanes = e.lanes :=
      lanes_putWindow hw' rfl
    exact hput

theorem feeds_dispose (e : Engine σ) (hP : P) : Feeds P e (e.dispose cfg t).1 := by
  have hcancel : Feeds P e (e.cancelDirectRequests cfg t ⟨none, none, none, none, none⟩).1 :=
    feeds_cancelDirectRequests e _
  unfold dispose
  split
  · exact feeds_flushDirectLifecycle e hP
  · split <;> rename_i he1 <;> rw [he1] at hcancel
    · exact hcancel
    · exact hcancel.trans (feeds_flushDirectLifecycle _ hP)

theorem feeds_timerFired (e : Engine σ) (x : RequestId) (key : String) (hP : P) :
    Feeds P e (e.timerFired cfg t x key) := by
  unfold timerFired
  split
  · split
    · exact .refl
    · rename_i e1 he1
      exact feeds_expireDirectRequest he1 fun _ => hP
  · exact feeds_enqueueWindow e key _ fun _ => hP

theorem feeds_settled {α : Type} (value : α → Value) {result : Engine σ × Except Failure α}
    (h : Feeds P e result.1) : Feeds P e (settled value result).1 := by
  obtain ⟨e1, err | a⟩ := result <;> exact h

theorem feeds_call [StorageAdapter σ] (e : Engine σ) (c : Call) (hP : P) :
    Feeds P e (e.call cfg t c).1 := by
  cases c with
  | createSession input files => exact .of_eq (lanes_storageCall ..)
  | joinSession sessionId manifests => exact .of_eq (lanes_storageCall ..)
  | requestNextPiece p f options => exact feeds_requestNextPiece e p f options
  | requestPieceWindow p f options maxInFlight =>
    exact feeds_settled _ (feeds_requestPieceWindow e p f options maxInFlight hP)
  | requestNextGridPiece f options => exact .of_eq (lanes_requestNextGridPiece ..)
  | requestGridPieceWindow f options total perPeer =>
    unfold call requestGridPieceWindow
    simp only
    split
    · exact .refl
    · split
      · exact .refl
      · exact .of_eq (lanes_gridWindowLoop ..)
  | receivePiece f pieceIndex requestId data expected => exact .of_eq (lanes_receivePiece ..)
  | resumeFile f =>
    unfold call resumeFile
    simp only
    split
    · exact .refl
    · split
      · exact .refl
      · exact .of_eq (lanes_restoreResumeState ..)
  | cancelDirectRequests selector => exact feeds_settled _ (feeds_cancelDirectRequests e selector)
  | cancelCompetingGridRequests f i keep => exact feeds_settled _ (.of_eq (lanes_cancelCompeting _ e))
  | expireDirectRequests now => exact feeds_settled _ (feeds_expireDirectRequests _ _ e hP)
  | expireRequestLeases now => exact feeds_settled _ (.of_eq (lanes_expireLeased _ _))
  | updatePeerPieceMap p map role =>
    unfold call
    simp only
    split
    · exact .refl
    · rename_i e1 he1
      exact .of_eq (lanes_updatePeerPieceMap he1)
  | exportPieceMapBroadcast f => exact feeds_settled _ (.of_eq (lanes_exportPieceMapBroadcast ..))
  | broadcastPieceMap f peers => exact .of_eq (lanes_broadcastPieceMap ..)
  | flushDirectLifecycle => exact feeds_flushDirectLifecycle e hP
  | dispose => exact feeds_dispose e hP
  | _ => exact .refl

end Engine

/-- A continuation that may retire a request so that its retry is queued. -/
def Frame.Retries (cfg : Config) (L : Ledger) : Frame → Except Failure Value → Prop
  | .requestSent _ x _, .error _ => L.Requeues cfg.maxRetries x
  | .mismatchPersisted r _, .ok _ => L.Requeues cfg.maxRetries r.requestId
  | _, _ => False

instance (cfg : Config) (L : Ledger) (frame : Frame) (outcome : Except Failure Value) :
    Decidable (frame.Retries cfg L outcome) := by
  unfold Frame.Retries
  split <;> infer_instance

namespace Engine

variable {σ : Type} [StorageAdapter σ] {e : Engine σ} {cfg : Config} {t : Turn} {P : Prop}

/-- Every continuation but the one at the end of a job. -/
theorem feeds_resume (frame : Frame) (outcome : Except Failure Value)
    (hjob : ∀ ref track, frame ≠ .windowJob ref track)
    (h : frame.Retries cfg e.ledger outcome → P) :
    Feeds P e (e.resume cfg t outcome frame).1 := by
  cases frame with
  | requestSent ref x scheduled =>
    refine feeds_requestSent e ref x scheduled outcome fun err herr => ?_
    subst herr
    exact h
  | requestPersisted ref x scheduled => exact feeds_requestPersisted e ref x scheduled outcome
  | fillWindow window key p f options scheduled =>
    exact feeds_windowFilled e window key p f options scheduled outcome
  | windowJob ref track => exact absurd rfl (hjob ref track)
  | gridSent result =>
    cases outcome with
    | error err => exact .refl
    | ok v => exact .of_eq (lanes_persistState e t)
  | gridEndgame f options total scheduled =>
    unfold resume gridEndgame
    simp only
    split
    · exact .refl
    · exact .of_eq (lanes_gridWindowResult ..)
    · exact .of_eq (lanes_requestNextGridPiece ..)
    · exact .refl
  | gridNext f options total scheduled =>
    unfold resume gridNext
    simp only
    split
    · exact .refl
    · exact .of_eq (lanes_gridWindowResult ..)
    · exact .refl
  | pieceChecked r =>
    cases outcome with
    | error err => exact .refl
    | ok v =>
      cases v with
      | bool b => exact .of_eq (lanes_pieceChecked e r b)
      | _ => exact .refl
  | pieceDeleted r outstanding =>
    cases outcome with
    | error err => exact .refl
    | ok v => exact .of_eq (lanes_persistState e t)
  | mismatchPersisted r outstanding =>
    refine feeds_mismatchPersisted e r outstanding outcome fun v hv => ?_
    subst hv
    exact h
  | pieceWritten r outstanding => exact feeds_pieceWritten e r outstanding outcome
  | piecePersisted r outstanding => exact feeds_piecePersisted e r outstanding outcome
  | resumeRead r i =>
    unfold resume resumeRead
    simp only
    split
    · exact .refl
    · split <;> exact .refl
    · exact .of_eq (lanes_storageCall ..)
  | resumeChecked r i =>
    cases outcome with
    | error err => exact .refl
    | ok v =>
      cases v with
      | bool b =>
        cases b with
        | true => exact .of_eq (lanes_restoreLoop ..)
        | false => exact .of_eq (lanes_storageCall ..)
      | _ => exact .refl
  | resumeDeleted r i reason =>
    unfold resume resumeDeleted
    simp only
    repeat' split
    all_goals first
      | exact .refl
      | exact .of_eq (lanes_restoreLoop ..)
  | fileRestored f =>
    unfold resume fileRestored
    simp only
    split
    · exact .refl
    · exact .of_eq (lanes_persistState ..)
    · exact .refl
  | filePersisted f result =>
    unfold resume filePersisted
    simp only
    split
    · exact .refl
    · split
      · exact .refl
      · exact .of_eq (lanes_broadcastPieceMap ..)
  | joinInitialized s manifests =>
    cases outcome with
    | error err => exact .refl
    | ok v => exact .of_eq (lanes_storageCall ..)
  | joinLoaded s manifests =>
    unfold resume joinLoaded
    simp only
    split
    · exact .refl
    · split
      · exact .refl
      · split
        · exact .refl
        · rename_i merged hmerged
          exact .of_eq ((lanes_joinLoop ..).trans (lanes_registerManifests e merged))
    · exact .refl
  | joinRestored s merged f pending =>
    unfold resume joinRestored
    simp only
    split
    · exact .refl
    · exact .of_eq (lanes_joinLoop ..)
    · exact .refl
  | createInitialized input files =>
    cases outcome with
    | error err => exact .refl
    | ok v => exact .of_eq (lanes_createLoop ..)
  | createHashed input file files manifests =>
    unfold resume createHashed
    simp only
    split
    · exact .refl
    · rename_i manifest
      exact .of_eq ((lanes_createLoop ..).trans (lanes_registerManifests e [manifest]))
    · exact .refl
  | chunkAppended p header =>
    unfold resume chunkAppended
    simp only
    repeat' split
    all_goals first
      | exact .refl
      | exact .of_eq (lanes_receivePiece ..)
  | pieceReceived p header outstanding => exact feeds_pieceReceived e p header outstanding outcome
  | responseSent result outstanding => exact .of_eq (lanes_responseSent ..)
  | rejectSent p header manager outstanding finalized => exact .of_eq (lanes_rejectSent ..)
  | rejectRequested =>
    cases outcome with
    | error err => exact .refl
    | ok v => exact .of_eq (lanes_persistState e t)
  | sourceRead p request i =>
    unfold resume sourceRead
    simp only
    split
    · exact .refl
    · exact .of_eq (lanes_send ..)
    · exact .refl
  | storedRead p request i =>
    unfold resume storedRead
    simp only
    split
    · exact .refl
    · exact .of_eq (lanes_send ..)
    · exact .of_eq (lanes_send ..)
  | headerSent upload =>
    cases outcome with
    | error err => exact .refl
    | ok v => exact .of_eq (lanes_sendBinary ..)
  | binarySent upload =>
    unfold resume binarySent
    simp only
    split
    · exact .refl
    · split
      · exact .of_eq (lanes_send ..)
      · exact .refl
  | uploadJob p =>
    unfold resume uploadJobEnded
    simp only
    repeat' split
    all_goals exact .refl
  | flushed windows =>
    cases outcome with
    | error err => exact .refl
    | ok v => exact .of_eq (lanes_flushed e windows)
  | _ => cases outcome <;> exact .refl

end Engine

end PonsWarp.Core
