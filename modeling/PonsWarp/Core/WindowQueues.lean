import PonsWarp.Core.BookedSteps
import PonsWarp.Data.Lanes

set_option autoImplicit false

/-!
The chains of the direct windows as lanes. Most of the engine leaves them as they are; what
retires a request may put its retry in, and only the start and the end of a job do more.
-/

namespace PonsWarp.Core

open PonsWarp.Data

def DirectWindow.lane (w : DirectWindow) : Lane WindowJob :=
  ⟨w.queue, w.running, w.enqueued, w.completed⟩

namespace Ledger

variable {L : Ledger} {max : Nat} {x : RequestId}

/-- A job that is put in the window of the key is not dropped. -/
def Takes (L : Ledger) (key : String) : Prop :=
  L.disposed = false ∧ ∃ ref line, L.line? key = some (ref, line) ∧ line.disabled = false

/-- The request is direct, and if it fails now its retry is queued. -/
def Requeues (L : Ledger) (max : Nat) (x : RequestId) : Prop :=
  ∃ d, L.direct? x = some d ∧ d.retryCount < max ∧ d.windowKey ≠ "" ∧ L.Takes d.windowKey

instance (key : String) : Decidable (L.Takes key) :=
  decidable_of_iff (L.disposed = false ∧ ((L.line? key).any fun p => !p.2.disabled) = true)
    (by simp [Takes, Option.any_eq_true, Prod.exists])

instance : Decidable (L.Requeues max x) :=
  decidable_of_iff (((L.direct? x).any fun d => decide (d.retryCount < max ∧ d.windowKey ≠ "" ∧
    L.Takes d.windowKey)) = true) (by simp [Requeues, Option.any_eq_true])

theorem not_requeues (h : L.direct? x = none) : ¬ L.Requeues max x := by
  rintro ⟨d, hd, -⟩
  rw [h] at hd
  cases hd

end Ledger

namespace Engine

variable {σ : Type}

def lanes (e : Engine σ) : List (Lane WindowJob) := e.windowHeap.map DirectWindow.lane

/-- A stretch of code that starts and ends no job, and puts jobs in only where `P` holds. -/
abbrev Feeds (P : Prop) (e e' : Engine σ) : Prop := Feeding P e.lanes e'.lanes

variable {e e' e1 e2 : Engine σ} {cfg : Config} {t : Turn} {P : Prop}

theorem Feeds.of_eq (h : e'.lanes = e.lanes) : Feeds P e e' := by
  rw [Feeds, h]

theorem Feeds.trans (h : Feeds P e e1) (h' : Feeds P e1 e2) : Feeds P e e2 :=
  Relation.ReflTransGen.trans h h'

theorem Feeds.to_eq (h : Feeds P e e1) (h' : e2.lanes = e1.lanes) : Feeds P e e2 := by
  rw [Feeds, h']
  exact h

theorem Feeds.from_eq (h' : Feeds P e1 e2) (h : e1.lanes = e.lanes) : Feeds P e e2 := by
  rw [Feeds, ← h]
  exact h'

theorem getElem?_lanes {ref : Nat} {w : DirectWindow} (hw : e.windowHeap[ref]? = some w) :
    e.lanes[ref]? = some w.lane := by
  simp [lanes, hw]

theorem lanes_put (e : Engine σ) (ref : Nat) (w : DirectWindow) :
    (e.putWindow ref w).lanes = e.lanes.set ref w.lane :=
  List.map_set

/-- A window whose chain stays. -/
theorem lanes_putWindow {ref : Nat} {w w' : DirectWindow} (hw : e.windowHeap[ref]? = some w)
    (h : w'.lane = w.lane) : (e.putWindow ref w').lanes = e.lanes := by
  obtain ⟨hlt, rfl⟩ := List.getElem?_eq_some_iff.1 hw
  rw [lanes_put, h]
  have hlt' : ref < e.lanes.length := by simpa [lanes] using hlt
  have hlane : e.windowHeap[ref].lane = e.lanes[ref] := by simp [lanes]
  rw [hlane, List.set_getElem_self]

theorem feeds_newWindow {key : String} {w : DirectWindow} (hw : w.lane = .empty) :
    Feeds P e (e.newWindow key w) := by
  have hlanes : (e.newWindow key w).lanes = e.lanes ++ [.empty] := by
    simp [lanes, newWindow, hw]
  rw [Feeds, hlanes]
  exact .single (.make _)

theorem takes_iff {key : String} : e.ledger.Takes key ↔
    e.disposed = false ∧ ∃ ref w, e.window? key = some (ref, w) ∧ w.disabled = false := by
  simp only [Ledger.Takes, ledger_line?, Option.map_eq_some_iff, Prod.mk.injEq]
  refine and_congr Iff.rfl ⟨?_, ?_⟩
  · rintro ⟨ref, line, ⟨⟨ref', w⟩, hw, rfl, rfl⟩, hd⟩
    exact ⟨ref', w, hw, hd⟩
  · rintro ⟨ref, w, hw, hd⟩
    exact ⟨ref, w.line, ⟨(ref, w), hw, rfl, rfl⟩, hd⟩

theorem feeds_enqueueWindow (e : Engine σ) (key : String) (job : WindowJob)
    (h : e.ledger.Takes key → P) : Feeds P e (e.enqueueWindow key job) := by
  unfold enqueueWindow
  split
  · rename_i ref w hw
    split
    · exact .refl
    · rename_i hlive
      simp only [not_or, Bool.not_eq_true] at hlive
      have hP := h (takes_iff.2 ⟨hlive.2, ref, w, hw, hlive.1⟩)
      have hpush : (e.putWindow ref
          { w with queue := w.queue ++ [job], enqueued := w.enqueued + 1 }).lanes =
            e.lanes.set ref (w.lane.push job) := lanes_put e ref _
      rw [Feeds, hpush]
      exact .single (.push _ ref w.lane job (getElem?_lanes (window?_spec hw).2) hP)
  · exact .refl

/-! ### What leaves the chains alone -/

@[simp] theorem lanes_send (e : Engine σ) (t : Turn) (p : PeerId) (m : TransferMessage) :
    (e.send t p m).1.lanes = e.lanes := by
  unfold send
  split <;> rfl

@[simp] theorem lanes_sendBinary (e : Engine σ) (t : Turn) (p : PeerId) (frame : ArrayBuffer) :
    (e.sendBinary t p frame).1.lanes = e.lanes := by
  unfold sendBinary
  split <;> rfl

@[simp] theorem lanes_storageCall {α : Type} (e : Engine σ) (t : Turn) (value : α → Value)
    (result : Except Failure α × σ) : (e.storageCall t value result).1.lanes = e.lanes := by
  unfold storageCall
  split
  · simp only
    split <;> rfl
  · rfl

theorem lanes_onManager {ref : Nat} {method : PieceManager → Except Failure PieceManager}
    (h : e.onManager ref method = .ok e') : e'.lanes = e.lanes := by
  obtain ⟨m, -, rfl⟩ := onManager_spec h
  rfl

theorem lanes_markFailedIfKnown {f : FileId} {i : Nat} {reason : String}
    (h : e.markFailedIfKnown f i reason = .ok e') : e'.lanes = e.lanes := by
  unfold markFailedIfKnown at h
  split at h
  · exact lanes_onManager h
  · cases h
    rfl

theorem lanes_updatePeerPieceMap {p : PeerId} {map : PieceMapBroadcast} {role : PeerRole}
    (h : e.updatePeerPieceMap p map role = .ok e') : e'.lanes = e.lanes := by
  unfold updatePeerPieceMap at h
  split at h
  · cases h
  · simp only at h
    split at h <;> cases h <;> rfl

@[simp] theorem lanes_exportPieceMapBroadcast (e : Engine σ) (t : Turn) (f : FileId) :
    (e.exportPieceMapBroadcast t f).1.lanes = e.lanes := by
  unfold exportPieceMapBroadcast
  split
  · rfl
  · simp only
    split <;> rfl

@[simp] theorem lanes_broadcastPieceMap (e : Engine σ) (t : Turn) (f : FileId)
    (peers : List PeerId) : (e.broadcastPieceMap t f peers).1.lanes = e.lanes := by
  have hexport := e.lanes_exportPieceMapBroadcast t f
  unfold broadcastPieceMap
  split
  · rename_i e1 err h
    rwa [h] at hexport
  · rename_i e1 map h
    rw [h] at hexport
    split <;> exact hexport

@[simp] theorem lanes_registerManifests (e : Engine σ) (manifests : List FileManifest) :
    (manifests.foldl registerManifest e).lanes = e.lanes := by
  induction manifests generalizing e with
  | nil => rfl
  | cons m rest ih =>
    refine (ih _).trans ?_
    unfold registerManifest
    simp only
    split <;> rfl

theorem lanes_allocateDirectGeneration {n : Nat} (h : e.allocateDirectGeneration = .ok (n, e')) :
    e'.lanes = e.lanes := by
  rw [lanes, (allocateDirectGeneration_spec h).2]
  rfl

theorem lanes_rankPieces {f : FileId} {manager : PieceManager} {candidates : List PeerId}
    {owner : PeerId} {perPeer : Number} {active : PeerId → Nat} {now : Number} {l : List Nat}
    {result : Except Failure (List RankedPiece)}
    (h : rankPieces f manager candidates owner perPeer active now l e = (e', result)) :
    e'.lanes = e.lanes := by
  induction l generalizing e e' result with
  | nil =>
    cases h
    rfl
  | cons i rest ih =>
    unfold rankPieces at h
    split at h
    · cases h
      rfl
    · simp only at h
      split at h
      all_goals
        rename_i hrest
        have hranked := ih hrest
        cases h
        exact hranked

theorem lanes_ensureAvailability {f : FileId} {options : GridScheduleOptions} {now : Number}
    (h : e.ensureAvailability f options now = .ok e') : e'.lanes = e.lanes := by
  unfold ensureAvailability at h
  split at h
  · cases h
    rfl
  · split at h
    · cases h
    · split at h <;> cases h
      rfl

section

variable [StorageAdapter σ]

@[simp] theorem lanes_persistState (e : Engine σ) (t : Turn) :
    (e.persistState t).1.lanes = e.lanes := by
  unfold persistState
  split
  · rfl
  · split
    · rfl
    · simp

@[simp] theorem lanes_restoreLoop (e : Engine σ) (t : Turn) (r : Restore) :
    (e.restoreLoop t r).1.lanes = e.lanes := by
  unfold restoreLoop
  split
  · rfl
  · exact lanes_storageCall ..

@[simp] theorem lanes_restoreResumeState (e : Engine σ) (t : Turn) (m : FileManifest)
    (pieceMap : PieceMap) : (e.restoreResumeState t m pieceMap).1.lanes = e.lanes := by
  unfold restoreResumeState
  split
  · rfl
  · split
    · rfl
    · exact lanes_restoreLoop ..

@[simp] theorem lanes_joinLoop (e : Engine σ) (t : Turn) (s : SessionId)
    (merged : List FileManifest) (maps : List PieceMap) :
    (e.joinLoop t s merged maps).1.lanes = e.lanes := by
  induction maps with
  | nil =>
    unfold joinLoop
    split
    · rfl
    · exact lanes_persistState e t
  | cons pieceMap rest ih =>
    unfold joinLoop
    split
    · exact ih
    · exact lanes_restoreResumeState ..

@[simp] theorem lanes_createLoop (e : Engine σ) (cfg : Config) (t : Turn) (input : CreateInput)
    (manifests : List FileManifest) (files : List Blob) :
    (e.createLoop cfg t input manifests files).1.lanes = e.lanes := by
  cases files with
  | nil => exact lanes_persistState e t
  | cons file rest => rfl

omit [StorageAdapter σ] in
@[simp] theorem lanes_receivePiece (e : Engine σ) (cfg : Config) (f : FileId) (i : Number)
    (x : RequestId) (data : ArrayBuffer) (p : Option PeerId) :
    (e.receivePiece cfg f i x data p).1.lanes = e.lanes := by
  unfold receivePiece
  repeat' split
  all_goals rfl

theorem lanes_sendRequestedPiece (e : Engine σ) (t : Turn) (p : PeerId)
    (request : PieceRequestMessage) : (e.sendRequestedPiece t p request).1.lanes = e.lanes := by
  unfold sendRequestedPiece
  split
  · rfl
  · split
    · exact lanes_send ..
    · split
      · rfl
      · split
        · exact lanes_send ..
        · split
          · rfl
          · split
            · exact lanes_storageCall ..
            · exact lanes_send ..

/-! ### The grid -/

omit [StorageAdapter σ] in
theorem lanes_expireLeased (leases : List RequestLease) (e : Engine σ) :
    (expireLeased cfg leases e).1.lanes = e.lanes := by
  induction leases generalizing e with
  | nil => rfl
  | cons lease rest ih =>
    unfold expireLeased
    split
    · exact ih e
    · simp only
      split
      · rfl
      · split
        · rfl
        · rename_i e1 he1
          have hfailed := lanes_onManager he1
          split
          · exact hfailed
          · rename_i e2 he2
            have hreset := lanes_onManager he2
            exact (ih _).trans (hreset.trans hfailed)

omit [StorageAdapter σ] in
theorem lanes_expireRequestLeases {now : Number} {outcome : Except Failure Unit}
    (h : e.expireRequestLeases cfg now = (e', outcome)) : e'.lanes = e.lanes := by
  have hlanes : (e.expireRequestLeases cfg now).1.lanes = e.lanes := lanes_expireLeased _ _
  rwa [h] at hlanes

omit [StorageAdapter σ] in
theorem lanes_scheduleRanked (e : Engine σ) (f : FileId) (ref : Nat) (options : GridScheduleOptions)
    (now : Number) (items : List RankedPiece) :
    (e.scheduleRanked cfg t f ref options now items).1.lanes = e.lanes := by
  induction items with
  | nil => rfl
  | cons item rest ih =>
    unfold scheduleRanked
    split
    · rfl
    · split
      · exact ih
      · simp only
        split
        · rfl
        · split
          · rfl
          · rename_i e1 he1
            have hrequested := lanes_onManager he1
            exact (lanes_send ..).trans hrequested

omit [StorageAdapter σ] in
theorem lanes_requestNextGridPiece (e : Engine σ) (f : FileId) (options : GridScheduleOptions) :
    (e.requestNextGridPiece cfg t f options).1.lanes = e.lanes := by
  unfold requestNextGridPiece
  split
  · rfl
  · simp only
    split
    · rfl
    · split
      · rename_i e1 err he1
        exact lanes_expireRequestLeases he1
      · rename_i e1 he1
        have hexpired := lanes_expireRequestLeases he1
        split
        · exact hexpired
        · rename_i e2 he2
          have hensured := (lanes_ensureAvailability he2).trans hexpired
          split
          · rename_i e3 err he3
            exact (lanes_rankPieces he3).trans hensured
          · rename_i e3 ranked he3
            exact (lanes_scheduleRanked ..).trans ((lanes_rankPieces he3).trans hensured)

omit [StorageAdapter σ] in
theorem lanes_scheduleEndgame (e : Engine σ) (f : FileId) (ref : Nat)
    (options : GridScheduleOptions) (active : PeerId → Nat) (now : Number) (missing : List Nat) :
    (e.scheduleEndgame cfg t f ref options active now missing).1.lanes = e.lanes := by
  induction missing generalizing e with
  | nil => rfl
  | cons i rest ih =>
    unfold scheduleEndgame
    simp only
    split
    · exact ih e
    · split
      · exact ih _
      · split
        · rfl
        · rename_i e1 he1
          have hrequested := lanes_onManager he1
          exact (lanes_send ..).trans hrequested

omit [StorageAdapter σ] in
theorem lanes_gridWindowLoop (e : Engine σ) (f : FileId) (options : GridScheduleOptions)
    (total : Number) (scheduled : List GridScheduleResult) :
    (e.gridWindowLoop cfg t f options total scheduled).1.lanes = e.lanes := by
  have hendgame : (e.maybeScheduleEndgamePiece cfg t f options).1.lanes = e.lanes := by
    unfold maybeScheduleEndgamePiece
    split
    · rfl
    · split
      · rfl
      · simp only
        split
        · rfl
        · split <;> rename_i he1
          · exact lanes_expireRequestLeases he1
          · exact (lanes_scheduleEndgame ..).trans (lanes_expireRequestLeases he1)
  unfold gridWindowLoop
  split
  · exact hendgame
  · rfl

omit [StorageAdapter σ] in
theorem lanes_gridWindowResult (e : Engine σ) (f : FileId) (options : GridScheduleOptions)
    (total : Number) (scheduled : List GridScheduleResult) (result : GridScheduleResult) :
    (e.gridWindowResult cfg t f options total scheduled result).1.lanes = e.lanes := by
  unfold gridWindowResult
  split
  · exact lanes_gridWindowLoop ..
  · rfl

omit [StorageAdapter σ] in
theorem lanes_requestAgain (e : Engine σ) (p : PeerId) (f : FileId)
    (options : Option GridScheduleOptions) :
    (e.requestAgain cfg t p f options).1.lanes = e.lanes := by
  unfold requestAgain
  split
  · exact lanes_requestNextGridPiece ..
  · unfold requestNextPiece
    split
    · rfl
    · split
      · rfl
      · rfl
      · simp only
        split
        · rfl
        · split
          · rfl
          · rename_i e1 he1
            have hrequested := lanes_onManager he1
            exact (lanes_send ..).trans hrequested

omit [StorageAdapter σ] in
theorem lanes_cancelCompeting {f : FileId} {i : Nat} {keep : RequestId}
    (requests : List (RequestId × OutstandingRequest)) (e : Engine σ) :
    (cancelCompeting t f i keep requests e).1.lanes = e.lanes := by
  induction requests generalizing e with
  | nil => rfl
  | cons entry rest ih =>
    obtain ⟨x, request⟩ := entry
    unfold cancelCompeting
    split
    · exact ih e
    · simp only
      split
      · exact ih _
      · rfl

end

end Engine

end PonsWarp.Core
