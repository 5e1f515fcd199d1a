import PonsWarp.Core.Cancellation
import PonsWarp.Core.Ledger

set_option autoImplicit false

/-!
The books of an engine. What only sends, stores, reads or ranks leaves them as they are; the
rest of the engine makes postings.
-/

namespace PonsWarp.Core

open PonsWarp.Data

/-- The terminal event that an effect reports. -/
def Effect.terminal? : Effect → Option DirectTerminalEvent
  | .emit (.requestTerminal event) => some event
  | _ => none

def DirectWindow.line (w : DirectWindow) : Line := ⟨w.queue, w.disabled, w.cap⟩

/-- A positive safe integer is a natural number. -/
theorem Engine.natCast_of_positive {value : Number} {name : String}
    (h : assertPositiveSafeInteger value name = .ok ()) : ∃ n : Nat, value = n := by
  unfold assertPositiveSafeInteger at h
  split at h
  · cases h
  · rename_i hn
    simp only [Number.isSafeInteger, Bool.and_eq_true, not_or, not_not, not_le] at hn
    refine ⟨value.num.toNat, Number.index?_eq_some.1 ?_⟩
    simp [Number.index?, hn.1.1.1, hn.2.le]

namespace Engine

variable {σ : Type}

def ledger (e : Engine σ) : Ledger where
  requests := e.outstandingRequests
  timers := e.directTimers
  armed := e.armed
  terminals := e.log.filterMap Effect.terminal?
  windows := e.directWindows
  lines := e.windowHeap.map DirectWindow.line
  disposed := e.disposed
  issued := e.issued

theorem ledger_say (e : Engine σ) (l : List Effect) (h : l.filterMap Effect.terminal? = []) :
    ({ e with log := e.log ++ l } : Engine σ).ledger = e.ledger := by
  simp [ledger, h]

theorem ledger_emit (e : Engine σ) {event : EngineEvent}
    (h : (Effect.emit event).terminal? = none) : (e.emit event).ledger = e.ledger :=
  ledger_say e _ (by simp [h])

theorem ledger_line? (e : Engine σ) (key : String) :
    e.ledger.line? key = (e.window? key).map fun p => (p.1, p.2.line) := by
  simp only [Ledger.line?, window?, ledger]
  cases e.directWindows.get? key with
  | none => rfl
  | some ref => simp [Option.map_map, Function.comp_def]

/-- A window whose line stays. -/
theorem ledger_putWindow {e : Engine σ} {ref : Nat} {w w' : DirectWindow}
    (hw : e.windowHeap[ref]? = some w) (h : w'.line = w.line) :
    (e.putWindow ref w').ledger = e.ledger := by
  obtain ⟨hlt, rfl⟩ := List.getElem?_eq_some_iff.1 hw
  have hlt' : ref < (e.windowHeap.map DirectWindow.line).length := by simpa using hlt
  have hlines := List.set_getElem_self hlt'
  rw [List.getElem_map] at hlines
  simp only [ledger, putWindow, List.map_set, h, hlines]

/-! ### What leaves the books alone -/

@[simp] theorem ledger_send (e : Engine σ) (t : Turn) (p : PeerId) (m : TransferMessage) :
    (e.send t p m).1.ledger = e.ledger := by
  unfold send
  split
  · exact ledger_say e _ rfl
  · rfl

@[simp] theorem ledger_sendBinary (e : Engine σ) (t : Turn) (p : PeerId) (frame : ArrayBuffer) :
    (e.sendBinary t p frame).1.ledger = e.ledger := by
  unfold sendBinary
  split
  · exact ledger_say e _ rfl
  · rfl

@[simp] theorem ledger_sendPieceRequest (e : Engine σ) (t : Turn) (p : PeerId) (f : FileId)
    (i : Nat) (x : RequestId) : (e.sendPieceRequest t p f i x).1.ledger = e.ledger :=
  ledger_send e t p _

@[simp] theorem ledger_storageCall {α : Type} (e : Engine σ) (t : Turn) (value : α → Value)
    (result : Except Failure α × σ) : (e.storageCall t value result).1.ledger = e.ledger := by
  unfold storageCall
  split
  · simp only
    split <;> rfl
  · rfl

theorem ledger_onManager {e e' : Engine σ} {ref : Nat}
    {method : PieceManager → Except Failure PieceManager} (h : e.onManager ref method = .ok e') :
    e'.ledger = e.ledger := by
  unfold onManager at h
  split at h
  · cases h
    rfl
  · cases h

theorem ledger_markFailedIfKnown {e e' : Engine σ} {f : FileId} {i : Nat} {reason : String}
    (h : e.markFailedIfKnown f i reason = .ok e') : e'.ledger = e.ledger := by
  unfold markFailedIfKnown at h
  split at h
  · exact ledger_onManager h
  · cases h
    rfl

theorem ledger_updatePeerPieceMap {e e' : Engine σ} {p : PeerId} {map : PieceMapBroadcast}
    {role : PeerRole} (h : e.updatePeerPieceMap p map role = .ok e') : e'.ledger = e.ledger := by
  unfold updatePeerPieceMap at h
  split at h
  · cases h
  · simp only at h
    split at h <;> cases h
    · exact ledger_emit _ rfl
    · rfl

@[simp] theorem ledger_exportPieceMapBroadcast (e : Engine σ) (t : Turn) (f : FileId) :
    (e.exportPieceMapBroadcast t f).1.ledger = e.ledger := by
  unfold exportPieceMapBroadcast
  split
  · rfl
  · simp only
    split <;> rfl

theorem terminal?_announce (map : PieceMapBroadcast) (t : Turn) (peers : List PeerId) :
    (peers.map fun p => Effect.send p (.PIECE_MAP map) (t.sendFailure p)).filterMap
      Effect.terminal? = [] := by
  simp [List.filterMap_map, Function.comp_def, Effect.terminal?]

@[simp] theorem ledger_broadcastPieceMap (e : Engine σ) (t : Turn) (f : FileId)
    (peers : List PeerId) : (e.broadcastPieceMap t f peers).1.ledger = e.ledger := by
  have hexport := e.ledger_exportPieceMapBroadcast t f
  unfold broadcastPieceMap
  split
  · rename_i e1 err h
    simpa [h] using hexport
  · rename_i e1 map h
    rw [h] at hexport
    split
    · exact (ledger_say e1 _ (terminal?_announce map t peers)).trans hexport
    · exact hexport

@[simp] theorem ledger_registerManifest (e : Engine σ) (m : FileManifest) :
    (e.registerManifest m).ledger = e.ledger := by
  unfold registerManifest
  simp only
  split <;> rfl

@[simp] theorem ledger_registerManifests (e : Engine σ) (manifests : List FileManifest) :
    (manifests.foldl registerManifest e).ledger = e.ledger := by
  induction manifests generalizing e with
  | nil => rfl
  | cons m rest ih => exact (ih _).trans (ledger_registerManifest e m)

theorem ledger_allocateDirectGeneration {e e' : Engine σ} {n : Nat}
    (h : e.allocateDirectGeneration = .ok (n, e')) : e'.ledger = e.ledger := by
  unfold allocateDirectGeneration at h
  split at h
  · cases h
    rfl
  · cases h

@[simp] theorem ledger_rankProviders (e : Engine σ) (f : FileId) (i : Nat)
    (candidates : List PeerId) (owner : PeerId) (perPeer : Number) (active : PeerId → Nat)
    (now : Number) :
    (e.rankProviders f i candidates owner perPeer active now).2.ledger = e.ledger := rfl

@[simp] theorem ledger_rankPieces (f : FileId) (manager : PieceManager) (candidates : List PeerId)
    (owner : PeerId) (perPeer : Number) (active : PeerId → Nat) (now : Number) (l : List Nat)
    (e : Engine σ) :
    (rankPieces f manager candidates owner perPeer active now l e).1.ledger = e.ledger := by
  induction l generalizing e with
  | nil => rfl
  | cons i rest ih =>
    unfold rankPieces
    split
    · rfl
    · simp only
      split
      · rename_i e1 err h
        have hrest := ih (e.rankProviders f i candidates owner perPeer active now).2
        rw [h] at hrest
        exact hrest
      · rename_i e1 more h
        have hrest := ih (e.rankProviders f i candidates owner perPeer active now).2
        rw [h] at hrest
        exact hrest

theorem ledger_of_rankPieces {e e' : Engine σ} {f : FileId} {manager : PieceManager}
    {candidates : List PeerId} {owner : PeerId} {perPeer : Number} {active : PeerId → Nat}
    {now : Number} {l : List Nat} {result : Except Failure (List RankedPiece)}
    (h : rankPieces f manager candidates owner perPeer active now l e = (e', result)) :
    e'.ledger = e.ledger := by
  have hrank := ledger_rankPieces f manager candidates owner perPeer active now l e
  rwa [h] at hrank

theorem ledger_ensureAvailability {e e' : Engine σ} {f : FileId} {options : GridScheduleOptions}
    {now : Number} (h : e.ensureAvailability f options now = .ok e') : e'.ledger = e.ledger := by
  unfold ensureAvailability at h
  split at h
  · cases h
    rfl
  · split at h
    · cases h
    · split at h <;> cases h
      rfl

section

variable [StorageAdapter σ]

@[simp] theorem ledger_persistState (e : Engine σ) (t : Turn) :
    (e.persistState t).1.ledger = e.ledger := by
  unfold persistState
  split
  · rfl
  · split
    · rfl
    · simp

@[simp] theorem ledger_restoreLoop (e : Engine σ) (t : Turn) (r : Restore) :
    (e.restoreLoop t r).1.ledger = e.ledger := by
  unfold restoreLoop
  split
  · rfl
  · exact ledger_storageCall ..

@[simp] theorem ledger_restoreResumeState (e : Engine σ) (t : Turn) (m : FileManifest)
    (pieceMap : PieceMap) : (e.restoreResumeState t m pieceMap).1.ledger = e.ledger := by
  unfold restoreResumeState
  split
  · rfl
  · split
    · rfl
    · exact ledger_restoreLoop ..

@[simp] theorem ledger_joinLoop (e : Engine σ) (t : Turn) (s : SessionId)
    (merged : List FileManifest) (maps : List PieceMap) :
    (e.joinLoop t s merged maps).1.ledger = e.ledger := by
  induction maps with
  | nil =>
    unfold joinLoop
    split
    · rfl
    · exact ledger_persistState e t
  | cons pieceMap rest ih =>
    unfold joinLoop
    split
    · exact ih
    · exact ledger_restoreResumeState ..

@[simp] theorem ledger_createLoop (e : Engine σ) (cfg : Config) (t : Turn) (input : CreateInput)
    (manifests : List FileManifest) (files : List Blob) :
    (e.createLoop cfg t input manifests files).1.ledger = e.ledger := by
  cases files with
  | nil => exact ledger_persistState e t
  | cons file rest => rfl

omit [StorageAdapter σ] in
@[simp] theorem ledger_receivePiece (e : Engine σ) (cfg : Config) (f : FileId) (i : Number)
    (x : RequestId) (data : ArrayBuffer) (p : Option PeerId) :
    (e.receivePiece cfg f i x data p).1.ledger = e.ledger := by
  unfold receivePiece
  repeat' split
  all_goals rfl

@[simp] theorem ledger_sendRequestedPiece (e : Engine σ) (t : Turn) (p : PeerId)
    (request : PieceRequestMessage) : (e.sendRequestedPiece t p request).1.ledger = e.ledger := by
  unfold sendRequestedPiece
  split
  · rfl
  · split
    · exact ledger_send ..
    · split
      · rfl
      · split
        · exact ledger_send ..
        · split
          · rfl
          · split
            · exact ledger_storageCall ..
            · exact ledger_send ..

end

@[simp] theorem ledger_sendChunkHeader (e : Engine σ) (t : Turn) (u : Upload) :
    (e.sendChunkHeader t u).1.ledger = e.ledger :=
  ledger_send ..

@[simp] theorem ledger_startUpload (e : Engine σ) (t : Turn) (p : PeerId)
    (request : PieceRequestMessage) (i : Nat) (data : ArrayBuffer) :
    (e.startUpload t p request i data).1.ledger = e.ledger :=
  ledger_sendChunkHeader ..

end Engine

/-- What a request made with the given options posts. -/
def Entry.Asked (p : PeerId) (f : FileId) (options : Option DirectRequestOptions) : Entry → Prop
  | .ask _ d => ∃ o, options = some o ∧ d.retryCount = o.retryCount ∧
      d.windowKey = o.windowKey.getD (Engine.defaultWindowKey f p o.controllerId)
  | .opens key => ∃ o, options = some o ∧
      key = o.windowKey.getD (Engine.defaultWindowKey f p o.controllerId)
  | _ => False

namespace Engine

variable {σ : Type}

/-- The direct requests that a lease of the table names would be lost with it. -/
def leased (e : Engine σ) : Entry → Prop
  | .lose x => e.ledger.direct? x ≠ none ∧ ∃ now, e.LeaseDue now x
  | _ => False

/-- The direct requests that compete with the one that is kept. -/
def competing (e : Engine σ) (f : FileId) (i : Nat) (keep : RequestId) : Entry → Prop
  | .lose x => e.ledger.direct? x ≠ none ∧ competes f i keep e.outstandingRequests.entries x
  | _ => False

/-- A stretch of code that posts nothing but what it is permitted. -/
abbrev Books (cfg : Config) (P : Entry → Prop) (e e' : Engine σ) : Prop :=
  Ledger.Postings cfg.maxDirectMetadataEntries P e.ledger e'.ledger

variable {e e' e1 e2 : Engine σ} {cfg : Config} {t : Turn} {P P' : Entry → Prop}

theorem Books.of_eq (h : e'.ledger = e.ledger) : Books cfg P e e' := by
  rw [Books, h]

theorem Books.trans (h : Books cfg P e e1) (h' : Books cfg P e1 e2) : Books cfg P e e2 :=
  Relation.ReflTransGen.trans h h'

theorem Books.to_eq (h : Books cfg P e e1) (h' : e2.ledger = e1.ledger) : Books cfg P e e2 := by
  rw [Books, h']
  exact h

theorem Books.from_eq (h' : Books cfg P e1 e2) (h : e1.ledger = e.ledger) : Books cfg P e e2 := by
  rw [Books, ← h]
  exact h'

theorem ledger_enqueueWindow (e : Engine σ) (key : String) (job : WindowJob) :
    (e.enqueueWindow key job).ledger = e.ledger.enqueue key job := by
  have hline := e.ledger_line? key
  unfold enqueueWindow Ledger.enqueue
  rw [hline]
  cases hw : e.window? key with
  | none => rfl
  | some entry =>
    obtain ⟨ref, w⟩ := entry
    simp only [Option.map_some]
    by_cases hd : w.disabled = true ∨ e.disposed = true
    · have hd' : w.line.disabled = true ∨ e.ledger.disposed = true := hd
      rw [if_pos hd, if_pos hd']
    · have hd' : ¬ (w.line.disabled = true ∨ e.ledger.disposed = true) := hd
      rw [if_neg hd, if_neg hd']
      simp only [ledger, putWindow, List.map_set]
      rfl

theorem books_enqueueWindow (e : Engine σ) (key : String) {job : WindowJob}
    (h : job.isRetry = false) (hkey : ∀ k, job.key? = some k → k = key) :
    Books cfg P e (e.enqueueWindow key job) := by
  rw [Books, ledger_enqueueWindow]
  exact .single (.enqueue _ key job h hkey)

/-- A direct request that is retired is struck out of the books. -/
theorem ledger_finalizeDirectRequest {x : RequestId} {r : OutstandingRequest} {d : DirectRequest}
    (cfg : Config) (t : Turn) (status : DirectTerminalReason) (hr : e.outstandingRequests.get? x = some r)
    (hd : r.direct = some d) :
    ∃ event : DirectTerminalEvent, event.requestId = x ∧ event.windowKey = d.windowKey ∧
      event.retryCount = d.retryCount ∧
      event.willRetry = (retryable status && decide (d.retryCount < cfg.maxRetries)) ∧
      (e.finalizeDirectRequest cfg t x status).1.ledger = e.ledger.retire x r d event := by
  refine ⟨⟨r.fileId, r.pieceIndex, r.peerId, x, status, d.retryCount,
    retryable status && decide (d.retryCount < cfg.maxRetries), t.clock, d.generation,
    d.controllerId, d.windowKey⟩, rfl, rfl, rfl, rfl, ?_⟩
  unfold finalizeDirectRequest
  simp only [hr, hd]
  have hstruck : ∀ event : DirectTerminalEvent,
      ((e.retireDirectRequest x).emit (.requestTerminal event)).ledger = { e.ledger with
        requests := e.ledger.requests.delete x
        timers := e.ledger.timers.delete x
        terminals := e.ledger.terminals ++ [event] } := by
    intro event
    simp [ledger, emit, retireDirectRequest, dropPendingHeaders, Effect.terminal?]
  by_cases hretry : (retryable status && decide (d.retryCount < cfg.maxRetries)) = true
  · by_cases hkey : d.windowKey = ""
    · simp only [hretry, hkey, if_true, Ledger.retire, ne_eq, not_true_eq_false, and_false, if_false]
      exact hstruck _
    · simp only [hretry, hkey, if_true, if_false, Ledger.retire, ne_eq, not_false_eq_true, and_self,
        ledger_enqueueWindow, hstruck]
  · simp only [hretry, if_false, Ledger.retire, false_and, Bool.false_eq_true]
    split
    · split
      · rename_i ref w hw
        split
        · exact hstruck _
        · refine (ledger_emit _ rfl).trans (Eq.trans ?_ (hstruck _))
          exact ledger_putWindow (window?_spec hw).2 rfl
      · exact hstruck _
    · exact hstruck _

theorem books_finalizeDirectRequest (e : Engine σ) (x : RequestId)
    (status : DirectTerminalReason) :
    Books cfg P e (e.finalizeDirectRequest cfg t x status).1 := by
  cases hb : (e.outstandingRequests.get? x).bind (·.direct) with
  | none =>
    rw [finalizeDirectRequest_other status hb]
  | some d =>
    obtain ⟨r, hr, hd⟩ := Option.bind_eq_some_iff.1 hb
    obtain ⟨event, hid, hkey, hcount, -, hledger⟩ :=
      ledger_finalizeDirectRequest cfg t status hr hd
    rw [Books, hledger]
    exact .single (.retire _ x r d event hr hd hid hkey hcount)

/-- What is no direct request may be taken out. -/
theorem books_close (e : Engine σ) (x : RequestId)
    (h : e.ledger.direct? x = none ∨ P (.lose x)) :
    Books cfg P e { e with outstandingRequests := e.outstandingRequests.delete x } :=
  .single (.close e.ledger x h)

/-- What `finalizeDirectRequest` leaves alone is no direct request. -/
theorem direct?_of_false {x : RequestId} {status : DirectTerminalReason}
    (h : (e.finalizeDirectRequest cfg t x status).2 = false) : e.ledger.direct? x = none := by
  cases hb : (e.outstandingRequests.get? x).bind (·.direct) with
  | none => exact hb
  | some d =>
    obtain ⟨r, hr, hd⟩ := Option.bind_eq_some_iff.1 hb
    rw [finalizeDirectRequest_direct status hr hd] at h
    cases h

theorem books_finalizeOrDelete (e : Engine σ) (x : RequestId) (status : DirectTerminalReason) :
    Books cfg P e (e.finalizeOrDelete cfg t x status) := by
  unfold finalizeOrDelete
  have hfinal : Books cfg P e (e.finalizeDirectRequest cfg t x status).1 :=
    books_finalizeDirectRequest e x status
  have hfalse : (e.finalizeDirectRequest cfg t x status).2 = false →
      (e.finalizeDirectRequest cfg t x status).1 = e := finalizeDirectRequest_false
  have hnone : (e.finalizeDirectRequest cfg t x status).2 = false → e.ledger.direct? x = none :=
    direct?_of_false
  cases hf : e.finalizeDirectRequest cfg t x status with
  | mk e1 finalized =>
    rw [hf] at hfinal hfalse hnone
    cases finalized with
    | true => exact hfinal
    | false =>
      obtain rfl : e1 = e := hfalse rfl
      exact books_close e1 x (.inl (hnone rfl))

theorem books_expireDirectRequest {x : RequestId} (h : e.expireDirectRequest cfg t x = .ok e') :
    Books cfg P e e' := by
  unfold expireDirectRequest at h
  split at h
  · cases h
    exact .refl
  · split at h
    · cases h
      exact .refl
    · split at h
      · cases h
      · rename_i e1 he1
        cases h
        have hmark := ledger_markFailedIfKnown he1
        refine (books_finalizeDirectRequest _ x _).from_eq ?_
        exact (ledger_emit _ rfl).trans hmark

theorem books_expireDirectRequests (now : Number) (requests : List (RequestId × OutstandingRequest))
    (e : Engine σ) : Books cfg P e (expireDirectRequests cfg t now requests e).1 := by
  induction requests generalizing e with
  | nil => exact .refl
  | cons entry rest ih =>
    obtain ⟨x, request⟩ := entry
    unfold expireDirectRequests
    split
    · split
      · split
        · exact .refl
        · rename_i e1 he1
          exact (books_expireDirectRequest he1).trans (ih e1)
      · exact ih e
    · exact ih e

theorem books_disable {ref : Nat} {w w' : DirectWindow} (hw : e.windowHeap[ref]? = some w)
    (h : w'.line = { w.line with disabled := true }) : Books cfg P e (e.putWindow ref w') := by
  have hline : e.ledger.lines[ref]? = some w.line := by simp [ledger, hw]
  have hledger : (e.putWindow ref w').ledger = { e.ledger with
      lines := e.ledger.lines.set ref { w.line with disabled := true } } := by
    simp only [ledger, putWindow, List.map_set, h]
  rw [Books, hledger]
  exact .single (.disable _ ref w.line hline)

theorem books_emitDirectLifecycleError (e : Engine σ) (phase : LifecyclePhase)
    (request : Option OutstandingRequest) (x : RequestId) (error : Failure) :
    Books cfg P e (e.emitDirectLifecycleError t phase request x error) := by
  unfold emitDirectLifecycleError
  split
  · exact .refl
  · split
    · exact .refl
    · split
      · exact .refl
      · simp only
        split
        · rename_i ref w hw
          exact (books_disable (window?_spec hw).2 rfl).to_eq (ledger_emit _ rfl)
        · exact .of_eq (ledger_emit _ rfl)

theorem books_disableWindows (selector : DirectCancelSelector) (windows : List (String × Nat))
    (e : Engine σ) : Books cfg P e (disableWindows selector windows e).1 := by
  induction windows generalizing e with
  | nil => exact .refl
  | cons entry rest ih =>
    obtain ⟨key, ref⟩ := entry
    unfold disableWindows
    split
    · exact ih e
    · rename_i w hw
      split
      · have hput : Books cfg P e (e.putWindow ref { w with disabled := true }) :=
          books_disable hw rfl
        simp only
        split
        · exact hput
        · rename_i generation e1 he
          have hlt : ref < e.windowHeap.length := (List.getElem?_eq_some_iff.1 hw).1
          obtain ⟨-, hheap⟩ := allocateDirectGeneration_spec he
          have hw1 : e1.windowHeap[ref]? = some { w with disabled := true } := by
            simp [hheap, putWindow, hlt]
          have hsame : (e1.putWindow ref
              { w with disabled := true, generation := generation }).ledger = e1.ledger :=
            ledger_putWindow hw1 rfl
          exact (hput.to_eq (hsame.trans (ledger_allocateDirectGeneration he))).trans (ih _)
      · exact ih e

theorem count_pos_of_direct {x : RequestId} {d : DirectRequest} (h : e.ledger.direct? x = some d) :
    0 < e.countOutstandingRequestsForWindow d.windowKey := by
  obtain ⟨r, hr, hd⟩ := Option.bind_eq_some_iff.1 h
  have hmem : r ∈ e.outstandingRequests.values := OrderedMap.mem_values_iff.2 ⟨x, hr⟩
  refine List.length_pos_of_mem (List.mem_filter.2 ⟨hmem, ?_⟩)
  have hd' : r.direct = some d := hd
  simp [hd']

/-- Windows with open requests are not pruned. -/
theorem get?_pruneWindows {preserve : Option String} {key : String}
    (h : 0 < e.countOutstandingRequestsForWindow key) (keys : List String)
    (windows : OrderedMap String Nat) :
    (e.pruneWindows cfg preserve keys windows).get? key = windows.get? key := by
  induction keys generalizing windows with
  | nil => rfl
  | cons k rest ih =>
    unfold pruneWindows
    split
    · rfl
    · split
      · exact ih windows
      · rename_i hk
        have hne : key ≠ k := by
          rintro rfl
          exact hk (.inr h)
        rw [ih, OrderedMap.get?_delete_of_ne _ hne]

theorem pruneWindows_of_le {preserve : Option String} (keys : List String)
    {windows : OrderedMap String Nat} (h : windows.size ≤ cfg.maxDirectMetadataEntries) :
    e.pruneWindows cfg preserve keys windows = windows := by
  cases keys with
  | nil => rfl
  | cons k rest =>
    unfold pruneWindows
    rw [if_pos h]

theorem books_prune (e : Engine σ) (preserve : Option String) :
    Books cfg P e (e.pruneDirectLifecycleMetadata cfg preserve) :=
  .single (.prune e.ledger _ (fun _ _ h => pruneWindows_le preserve _ _ h)
    (fun _ _ hx => get?_pruneWindows (count_pos_of_direct hx) _ _) (pruneWindows_of_le _))

theorem books_cancelRequests (selector : DirectCancelSelector)
    (requests : List (RequestId × OutstandingRequest)) (count : Nat) (e : Engine σ) :
    Books cfg P e (cancelRequests cfg t selector requests count e).1 := by
  induction requests generalizing e count with
  | nil => exact .refl
  | cons entry rest ih =>
    obtain ⟨x, request⟩ := entry
    unfold cancelRequests
    split
    · exact ih count e
    · split
      · have hfinal : Books cfg P (e.addDirectTombstone cfg x)
            ((e.addDirectTombstone cfg x).finalizeDirectRequest cfg t x .cancelled).1 :=
          books_finalizeDirectRequest _ x _
        exact (hfinal.from_eq rfl).trans (ih _ _)
      · exact ih count e

theorem books_cancelDirectRequests (e : Engine σ) (selector : DirectCancelSelector) :
    Books cfg P e (e.cancelDirectRequests cfg t selector).1 := by
  have hdisable : Books cfg P e (disableWindows selector e.directWindows.entries e).1 :=
    books_disableWindows selector e.directWindows.entries e
  unfold cancelDirectRequests
  split
  · rename_i e1 err he
    rwa [he] at hdisable
  · rename_i e1 he
    rw [he] at hdisable
    exact hdisable.trans ((books_cancelRequests selector _ 0 e1).trans (books_prune _ none))

/-- A request that is not direct is still none after another has been taken out. -/
theorem direct?_delete {x y : RequestId} (h : e.ledger.direct? x = none) :
    ({ e with outstandingRequests := e.outstandingRequests.delete y } :
      Engine σ).ledger.direct? x = none := by
  simp only [Ledger.direct?, ledger, OrderedMap.get?_delete] at h ⊢
  split
  · rfl
  · exact h

theorem books_cancelCompeting {f : FileId} {i : Nat} {keep : RequestId}
    (requests : List (RequestId × OutstandingRequest)) (e : Engine σ)
    (h : ∀ x, competes f i keep requests x → e.ledger.direct? x = none ∨ P (.lose x)) :
    Books cfg P e (cancelCompeting t f i keep requests e).1 := by
  induction requests generalizing e with
  | nil => exact .refl
  | cons entry rest ih =>
    obtain ⟨x, request⟩ := entry
    have hrest : ∀ e1 : Engine σ, (∀ y, e.ledger.direct? y = none → e1.ledger.direct? y = none) →
        ∀ y, competes f i keep rest y → e1.ledger.direct? y = none ∨ P (.lose y) := by
      rintro e1 hdirect y ⟨r, hr, hc⟩
      exact (h y ⟨r, List.mem_cons_of_mem _ hr, hc⟩).imp_left (hdirect y)
    unfold cancelCompeting
    split
    · exact ih e (hrest e fun _ => id)
    · rename_i hmatch
      simp only [not_or, not_not] at hmatch
      have hclose : Books cfg P e
          { e with outstandingRequests := e.outstandingRequests.delete x } :=
        books_close e x (h x ⟨request, List.mem_cons_self, hmatch⟩)
      have hnext : ∀ e1 : Engine σ, e1.ledger = ({ e with
          outstandingRequests := e.outstandingRequests.delete x } : Engine σ).ledger →
          Books cfg P e (cancelCompeting t f i keep rest e1).1 := by
        intro e1 he1
        refine Relation.ReflTransGen.trans (hclose.to_eq he1) (ih e1 (hrest e1 fun y hy => ?_))
        rw [he1]
        exact direct?_delete hy
      simp only
      split
      · exact hnext _ (ledger_say _ _ rfl)
      · exact hclose

theorem books_expireLeased (leases : List RequestLease) (e : Engine σ)
    (h : ∀ lease ∈ leases, e.ledger.direct? lease.requestId = none ∨ P (.lose lease.requestId)) :
    Books cfg P e (expireLeased cfg leases e).1 := by
  induction leases generalizing e with
  | nil => exact .refl
  | cons lease rest ih =>
    have hrest := fun l hl => h l (List.mem_cons_of_mem _ hl)
    have hclose : Books cfg P e
        { e with outstandingRequests := e.outstandingRequests.delete lease.requestId } :=
      books_close e lease.requestId (h lease List.mem_cons_self)
    have hnext : ∀ e1 : Engine σ, e1.ledger = ({ e with
        outstandingRequests := e.outstandingRequests.delete lease.requestId } : Engine σ).ledger →
        Books cfg P e (expireLeased cfg rest e1).1 := by
      intro e1 he1
      refine Relation.ReflTransGen.trans (hclose.to_eq he1) (ih e1 fun l hl => ?_)
      refine (hrest l hl).imp_left fun hnone => ?_
      rw [he1]
      exact direct?_delete hnone
    unfold expireLeased
    split
    · exact ih e hrest
    · simp only
      split
      · exact hclose
      · split
        · exact hclose
        · rename_i e1 he1
          have hfailed := ledger_onManager he1
          split
          · exact hclose.to_eq hfailed
          · rename_i e2 he2
            have hreset := ledger_onManager he2
            exact hnext _ ((ledger_emit _ rfl).trans (hreset.trans hfailed))

theorem books_expireRequestLeases (e : Engine σ) (now : Number)
    (h : ∀ entry, e.leased entry → P entry) : Books cfg P e (e.expireRequestLeases cfg now).1 := by
  unfold expireRequestLeases
  refine Books.from_eq (books_expireLeased _ _ fun lease hlease => ?_) rfl
  obtain ⟨f, i, hget, hexp⟩ := PieceAvailabilityTable.mem_expireLeases hlease
  by_cases hdirect : e.ledger.direct? lease.requestId = none
  · exact .inl hdirect
  · exact .inr (h (.lose _) ⟨hdirect, now, f, i, lease, hget, rfl, hexp⟩)

theorem books_cancelCompetingGridRequests (e : Engine σ) (f : FileId) (i : Nat) (keep : RequestId)
    (h : ∀ entry, e.competing f i keep entry → P entry) :
    Books cfg P e (e.cancelCompetingGridRequests t f i keep).1 := by
  refine books_cancelCompeting _ e fun x hx => ?_
  by_cases hdirect : e.ledger.direct? x = none
  · exact .inl hdirect
  · exact .inr (h (.lose x) ⟨hdirect, hx⟩)

theorem get?_newWindow (e : Engine σ) (key : String) (w : DirectWindow) :
    (e.newWindow key w).directWindows.get? key = some e.windowHeap.length := by
  simp [newWindow]

theorem ledger_newWindow (e : Engine σ) (key : String) (w : DirectWindow) (hq : w.queue = [])
    (hd : w.disabled = false) :
    (e.newWindow key w).ledger = { e.ledger with
      windows := e.ledger.windows.set key e.ledger.lines.length
      lines := e.ledger.lines ++ [⟨[], false, w.cap⟩] } := by
  simp [ledger, newWindow, DirectWindow.line, hq, hd]

theorem books_newWindow {key : String} {w : DirectWindow} {n : Nat} (h : P (.opens key))
    (hnew : e.window? key = none) (hcap : w.cap = n) (hq : w.queue = []) (hd : w.disabled = false) :
    Books cfg P e (e.newWindow key w) := by
  rw [Books, ledger_newWindow e key w hq hd]
  exact .single (.newWindow _ key w.cap h (by rw [ledger_line?, hnew]; rfl) ⟨n, hcap⟩)

/-- A request is entered that is no direct one. -/
theorem books_gridRequest {x : RequestId} {r : OutstandingRequest} (h : e'.ledger = e.ledger)
    (hd : r.direct = none) :
    Books cfg P e { e' with
      outstandingRequests := e'.outstandingRequests.set x r, issued := e'.issued ++ [x] } := by
  have hask : ({ e' with outstandingRequests := e'.outstandingRequests.set x r, issued := e'.issued ++ [x] } :
      Engine σ).ledger = e.ledger.ask x r := by
    rw [← h]
    simp only [Ledger.ask, hd]
    rfl
  rw [Books, hask]
  refine .single (.ask _ x r fun d hd' => ?_)
  rw [hd] at hd'
  cases hd'

theorem books_recordRequest (e : Engine σ) (cfg : Config) (t : Turn) (p : PeerId) (f : FileId)
    (i : Nat) (x : RequestId) (options : Option DirectRequestOptions)
    (h : ∀ entry, Entry.Asked p f options entry → P entry) :
    Books cfg P e (e.recordRequest cfg t p f i x options) := by
  cases options with
  | none => exact books_gridRequest rfl rfl
  | some o =>
    have hask : ∀ (e1 : Engine σ) (r : OutstandingRequest) (d : DirectRequest), r.direct = some d →
        d.windowKey = o.windowKey.getD (defaultWindowKey f p o.controllerId) →
        d.retryCount = o.retryCount →
        (d.windowKey ≠ "" → ∃ ref, e1.directWindows.get? d.windowKey = some ref) →
        Books cfg P e1 { e1 with
          outstandingRequests := e1.outstandingRequests.set x r
          issued := e1.issued ++ [x]
          directTimers := e1.directTimers.set x e1.armed.length
          armed := e1.armed ++ [(x, d.windowKey)] } := by
      intro e1 r d hd hkey hcount hwindow
      have hledger : ({ e1 with
          outstandingRequests := e1.outstandingRequests.set x r
          issued := e1.issued ++ [x]
          directTimers := e1.directTimers.set x e1.armed.length
          armed := e1.armed ++ [(x, d.windowKey)] } : Engine σ).ledger = e1.ledger.ask x r := by
        simp only [Ledger.ask, hd]
        rfl
      rw [Books, hledger]
      refine .single (.ask _ x r fun d' hd' => ?_)
      rw [hd] at hd'
      cases hd'
      exact ⟨h (.ask x d) ⟨o, rfl, hcount, hkey⟩, hwindow⟩
    by_cases hw : o.windowKey.getD (defaultWindowKey f p o.controllerId) ≠ "" ∧
        ¬ e.directWindows.has (o.windowKey.getD (defaultWindowKey f p o.controllerId))
    · simp only [recordRequest, if_pos hw]
      have hnone : e.directWindows.get? (o.windowKey.getD (defaultWindowKey f p o.controllerId)) =
          none := by simpa [OrderedMap.has] using hw.2
      have hnew : Books cfg P e (e.newWindow (o.windowKey.getD (defaultWindowKey f p o.controllerId))
          (freshWindow f p o.controllerId 1 0)) := by
        refine books_newWindow (h (.opens _) ⟨o, rfl, rfl⟩) ?_ Nat.cast_one.symm rfl rfl
        simp only [window?, hnone]
      exact hnew.trans (hask _ _ ⟨_, _, _, _, _, _⟩ rfl rfl rfl fun _ =>
        ⟨e.windowHeap.length, get?_newWindow e _ _⟩)
    · simp only [recordRequest, if_neg hw]
      refine hask e _ ⟨_, _, _, _, _, _⟩ rfl rfl rfl fun hne => ?_
      have hhas : e.directWindows.has (o.windowKey.getD (defaultWindowKey f p o.controllerId)) =
          true := by
        by_contra hcontra
        exact hw ⟨hne, hcontra⟩
      exact OrderedMap.has_iff.1 hhas

section

variable [StorageAdapter σ]

omit [StorageAdapter σ] in
theorem books_requestNextPiece (e : Engine σ) (p : PeerId) (f : FileId)
    (options : Option DirectRequestOptions) (h : ∀ entry, Entry.Asked p f options entry → P entry) :
    Books cfg P e (e.requestNextPiece cfg t p f options).1 := by
  unfold requestNextPiece
  split
  · exact .refl
  · rename_i ref href
    split
    · exact .refl
    · exact .refl
    · rename_i scheduled hnext
      simp only
      split
      · exact .refl
      · split
        · exact .refl
        · rename_i e1 he1
          have hrequested := ledger_onManager he1
          refine Books.to_eq (Books.from_eq ?_ hrequested) (ledger_sendPieceRequest ..)
          exact books_recordRequest e1 cfg t p f _ _ options h

theorem books_requestSent (e : Engine σ) (ref : Nat) (x : RequestId) (scheduled : ScheduledPiece)
    (outcome : Except Failure Value) :
    Books cfg P e (e.requestSent cfg t ref x scheduled outcome).1 := by
  unfold requestSent
  split
  · split
    · exact .refl
    · rename_i e1 he1
      have hfailed := ledger_onManager he1
      exact (books_finalizeDirectRequest e1 x _).from_eq hfailed
  · exact .of_eq (ledger_persistState e t)

omit [StorageAdapter σ] in
theorem books_requestPersisted (e : Engine σ) (ref : Nat) (x : RequestId)
    (scheduled : ScheduledPiece) (outcome : Except Failure Value) :
    Books cfg P e (e.requestPersisted cfg t ref x scheduled outcome).1 := by
  unfold requestPersisted
  split
  · rename_i err
    have hreport : Books cfg P e (e.emitDirectLifecycleError t .persist
        (e.outstandingRequests.get? x) x err) := books_emitDirectLifecycleError e _ _ x err
    simp only
    split
    · exact hreport
    · rename_i e1 he1
      have hfailed := ledger_onManager he1
      exact hreport.trans ((books_finalizeDirectRequest e1 x _).from_eq hfailed)
  · exact .refl

omit [StorageAdapter σ] in
theorem books_fillWindow (e : Engine σ) (window : Nat) (key : String) (p : PeerId) (f : FileId)
    (options : DirectRequestOptions) (scheduled : List ScheduledPiece)
    (h : ∀ entry, Entry.Asked p f (some { options with windowKey := some key }) entry → P entry) :
    Books cfg P e (e.fillWindow cfg t window key p f options scheduled).1 := by
  unfold fillWindow
  simp only
  split
  · exact books_requestNextPiece e p f _ h
  · exact .refl

omit [StorageAdapter σ] in
theorem books_windowFilled (e : Engine σ) (window : Nat) (key : String) (p : PeerId) (f : FileId)
    (options : DirectRequestOptions) (scheduled : List ScheduledPiece)
    (outcome : Except Failure Value)
    (h : ∀ entry, Entry.Asked p f (some { options with windowKey := some key }) entry → P entry) :
    Books cfg P e (e.windowFilled cfg t window key p f options scheduled outcome).1 := by
  unfold windowFilled
  split
  · exact .refl
  · exact books_fillWindow e window key p f options _ h
  · exact .refl
  · exact .refl

omit [StorageAdapter σ] in
theorem books_retryDirectRequest (e : Engine σ) (x : RequestId) (r : OutstandingRequest)
    (d : DirectRequest)
    (h : ∀ entry, Entry.Asked r.peerId r.fileId (some (retryOptions d)) entry → P entry) :
    Books cfg P e (e.retryDirectRequest cfg t x r d).1 := by
  unfold retryDirectRequest
  split
  · exact .refl
  · split
    · exact .refl
    · split
      · exact .refl
      · split
        · exact .refl
        · split
          · exact .refl
          · rename_i e1 he1
            have hreset : e1.ledger = e.ledger := by
              split at he1
              · exact ledger_onManager he1
              · cases he1
                rfl
            exact (books_requestNextPiece e1 _ _ _ h).from_eq hreset

end

end Engine

/-- What a task of a window posts while it starts. -/
def WindowJob.Asks : WindowJob → Entry → Prop
  | .fill p f key options, entry => entry.Asked p f (some { options with windowKey := some key })
  | .retry _ r d, entry => entry.Asked r.peerId r.fileId (some (Engine.retryOptions d))
  | .expire _, _ => False

namespace Engine

variable {σ : Type} {e e' e1 : Engine σ} {cfg : Config} {t : Turn} {P : Entry → Prop}

theorem books_runWindowJob (e : Engine σ) (window : Nat) (job : WindowJob)
    (h : ∀ entry, job.Asks entry → P entry) :
    Books cfg P e (e.runWindowJob cfg t window job).1 := by
  cases job with
  | fill p f key options => exact books_fillWindow e window key p f options [] h
  | retry x r d => exact books_retryDirectRequest e x r d h
  | expire x =>
    unfold runWindowJob
    simp only
    split
    · exact .refl
    · rename_i e1 he1
      exact books_expireDirectRequest he1

/-- The first task of a chain is taken out of it. -/
theorem ledger_take {ref : Nat} {w : DirectWindow} {rest : List WindowJob} :
    (e.putWindow ref { w with queue := rest, running := true }).ledger = { e.ledger with
      lines := e.ledger.lines.set ref { w.line with queue := rest } } := by
  simp only [ledger, putWindow, List.map_set]
  rfl

theorem books_startWindowJob {ref : Nat} {result : Engine σ × Next}
    (hstart : e.startWindowJob cfg t ref = some result)
    (htake : ∀ w job rest, e.windowHeap[ref]? = some w → w.queue = job :: rest → P (.take ref job))
    (h : ∀ w job rest, e.windowHeap[ref]? = some w → w.queue = job :: rest → w.disabled = false →
      e.disposed = false → ∀ entry, job.Asks entry → P entry) :
    Books cfg P e result.1 := by
  unfold startWindowJob at hstart
  split at hstart
  · cases hstart
  · rename_i w hw
    split at hstart
    · cases hstart
    · rename_i job rest hq
      split at hstart
      · cases hstart
      · have hline : e.ledger.lines[ref]? = some w.line := by simp [ledger, hw]
        have hput : Books cfg P e (e.putWindow ref { w with queue := rest, running := true }) := by
          rw [Books, ledger_take]
          exact .single (.take _ ref w.line job rest hline hq (htake w job rest hw hq))
        simp only at hstart
        split at hstart
        · cases hstart
          exact hput
        · rename_i hlive
          cases hstart
          simp only [not_or, Bool.not_eq_true] at hlive
          exact hput.trans (books_runWindowJob _ ref job (h w job rest hw hq hlive.1 hlive.2))

theorem ledger_windowJobEnded (e : Engine σ) (ref : Nat) (track : Bool)
    (outcome : Except Failure Value) :
    (e.windowJobEnded ref track outcome).1.ledger = e.ledger := by
  unfold windowJobEnded
  split
  · rfl
  · rename_i w hw
    exact ledger_putWindow hw rfl

theorem books_requestPieceWindow (e : Engine σ) (p : PeerId) (f : FileId)
    (options : DirectRequestOptions) (maxInFlight : Option Number)
    (h : P (.opens (options.windowKey.getD (defaultWindowKey f p options.controllerId)))) :
    Books cfg P e (e.requestPieceWindow cfg p f options maxInFlight).1 := by
  have henqueue : ∀ e1 : Engine σ, Books cfg P e1 (e1.enqueueWindow
      (options.windowKey.getD (defaultWindowKey f p options.controllerId))
      (.fill p f (options.windowKey.getD (defaultWindowKey f p options.controllerId)) options)) :=
    fun e1 => books_enqueueWindow e1 _ rfl fun k hk => (Option.some.inj hk).symm
  unfold requestPieceWindow
  simp only
  split
  · exact .refl
  · rename_i hpositive
    split
    · rename_i hnone
      split
      · exact .refl
      · rename_i generation e1 he1
        have hsame := ledger_allocateDirectGeneration he1
        obtain ⟨n, hn⟩ := natCast_of_positive hpositive
        have hnew : e1.window? (options.windowKey.getD (defaultWindowKey f p options.controllerId)) =
            none := by
          have hline := ledger_line? e1
            (options.windowKey.getD (defaultWindowKey f p options.controllerId))
          rw [hsame, ledger_line?, hnone] at hline
          simpa using hline.symm
        have hopen : Books cfg P e (e1.newWindow
            (options.windowKey.getD (defaultWindowKey f p options.controllerId))
            (freshWindow f p options.controllerId
              (maxInFlight.getD (cfg.directWindowCap.getD 1)) generation)) :=
          (books_newWindow h hnew hn rfl rfl).from_eq hsame
        exact (hopen.trans (books_prune _ _)).trans (henqueue _)
    · split
      · exact .refl
      · split
        · exact .refl
        · split
          · exact .refl
          · exact henqueue e

end Engine

end PonsWarp.Core
