import PonsWarp.Core.Manifest

set_option autoImplicit false

/-!
`PieceManager`: the state of every piece of one file, and the owner-first
choice of the next piece to ask for.
-/

namespace PonsWarp.Core

def clampBytes (value max : Nat) : Nat := min max value

structure PieceManager where
  fileId : FileId
  states : List PieceState
  deriving DecidableEq, Repr

namespace PieceManager

def new (fileId : FileId) (pieces : List PieceDescriptor) : PieceManager :=
  ⟨fileId, pieces.map fun piece =>
    ⟨piece.index, .missing, piece.size, 0, 0, none, none⟩⟩

def requirePiece (m : PieceManager) (index : Nat) : Except Failure PieceState :=
  match m.states[index]? with
  | some state =>
    if state.index = index then .ok state
    else .error (PonsWarpError "piece:not_found" s!"Unknown piece index {index}")
  | none => .error (PonsWarpError "piece:not_found" s!"Unknown piece index {index}")

def update (m : PieceManager) (index : Nat) (patch : PieceState → PieceState) :
    Except Failure PieceManager :=
  match m.requirePiece index with
  | .error e => .error e
  | .ok current => .ok { m with states := m.states.set index (patch current) }

def getPieceState (m : PieceManager) (index : Nat) : Except Failure PieceState :=
  m.requirePiece index

def markRequested (m : PieceManager) (index : Nat) (peerId : PeerId) :
    Except Failure PieceManager :=
  m.update index fun s =>
    { s with status := .requested, requestedFrom := some peerId, receivedBytes := 0,
             failureReason := none }

def markVerified (m : PieceManager) (index : Nat) : Except Failure PieceManager :=
  m.update index fun s =>
    { s with status := .verified, receivedBytes := s.size, failureReason := none }

def markFailed (m : PieceManager) (index : Nat) (reason : String) : Except Failure PieceManager :=
  m.update index fun s =>
    { s with status := .failed, receivedBytes := 0, retryCount := s.retryCount + 1,
             requestedFrom := none, failureReason := some reason }

def resetFailedToMissing (m : PieceManager) (index : Nat) : Except Failure PieceManager :=
  m.update index fun s =>
    if s.status = .failed then { s with status := .missing, failureReason := none } else s

def getMissingPieces (m : PieceManager) : List Nat :=
  (m.states.filter fun s => s.status = .missing ∨ s.status = .failed).map (·.index)

def getVerifiedPieces (m : PieceManager) : List Nat :=
  (m.states.filter fun s => s.status = .verified).map (·.index)

def exportPieceMap (m : PieceManager) : PieceMap := ⟨m.fileId, m.states⟩

/-- One entry of `importPieceMap`: a piece that was in flight is missing again. -/
def importPiece (imported : PieceState) (s : PieceState) : PieceState :=
  if imported.status = .requested ∨ imported.status = .receiving ∨ imported.status = .missing then
    { s with status := .missing, retryCount := imported.retryCount, requestedFrom := none,
             receivedBytes := 0, failureReason := imported.failureReason }
  else
    { s with status := imported.status, retryCount := imported.retryCount,
             requestedFrom := imported.requestedFrom,
             receivedBytes := clampBytes imported.receivedBytes s.size,
             failureReason := imported.failureReason }

def importPieces (m : PieceManager) : List PieceState → Except Failure PieceManager
  | [] => .ok m
  | imported :: rest =>
    match m.update imported.index (importPiece imported) with
    | .error e => .error e
    | .ok m' => m'.importPieces rest

def importPieceMap (m : PieceManager) (pieceMap : PieceMap) : Except Failure PieceManager :=
  if pieceMap.fileId ≠ m.fileId then
    .error (PonsWarpError "piece_map:file_mismatch"
      ("Piece map is for " ++ pieceMap.fileId ++ ", expected " ++ m.fileId))
  else m.importPieces pieceMap.pieces

/-- The status of a piece the manager knows under its index. -/
def status? (m : PieceManager) (index : Nat) : Option PieceStatus :=
  match m.requirePiece index with
  | .ok s => some s.status
  | .error _ => none

theorem requirePiece_eq_ok {m : PieceManager} {i : Nat} {s : PieceState} :
    m.requirePiece i = .ok s ↔ m.states[i]? = some s ∧ s.index = i := by
  unfold requirePiece
  cases h : m.states[i]? with
  | none => simp
  | some t =>
    by_cases ht : t.index = i
    · simp only [if_pos ht, Except.ok.injEq, Option.some.injEq]
      constructor
      · rintro rfl
        exact ⟨rfl, ht⟩
      · exact fun h => h.1
    · simp only [if_neg ht, reduceCtorEq, Option.some.injEq, false_iff]
      rintro ⟨rfl, h⟩
      exact ht h

theorem status?_eq_some {m : PieceManager} {i : Nat} {st : PieceStatus} :
    m.status? i = some st ↔ ∃ s, m.requirePiece i = .ok s ∧ s.status = st := by
  unfold status?
  cases m.requirePiece i <;> simp

/-- What `update` does, seen from every piece. -/
theorem update_spec {m m' : PieceManager} {i : Nat} {patch : PieceState → PieceState}
    (hkeep : ∀ s, (patch s).index = s.index) (h : m.update i patch = .ok m') :
    ∃ s, m.requirePiece i = .ok s ∧ m'.requirePiece i = .ok (patch s) ∧
      (∀ j, j ≠ i → m'.requirePiece j = m.requirePiece j) ∧ m'.fileId = m.fileId := by
  unfold update at h
  cases hr : m.requirePiece i with
  | error e => simp [hr] at h
  | ok s =>
    simp only [hr, Except.ok.injEq] at h
    subst h
    obtain ⟨hget, hidx⟩ := requirePiece_eq_ok.1 hr
    have hlt : i < m.states.length := (List.getElem?_eq_some_iff.1 hget).1
    refine ⟨s, rfl, ?_, ?_, rfl⟩
    · rw [requirePiece_eq_ok]
      exact ⟨by simp [hlt], (hkeep s).trans hidx⟩
    · intro j hj
      have hne : (m.states.set i (patch s))[j]? = m.states[j]? :=
        List.getElem?_set_ne (fun he => hj he.symm)
      simp only [requirePiece, hne]

/-- The status of every piece after an update that puts piece `i` in `st`. -/
theorem status?_update {m m' : PieceManager} {i : Nat} {patch : PieceState → PieceState}
    (hkeep : ∀ s, (patch s).index = s.index) (h : m.update i patch = .ok m') (j : Nat) :
    m'.status? j =
      if j = i then (m.requirePiece i).toOption.map (fun s => (patch s).status)
      else m.status? j := by
  obtain ⟨s, hs, hs', hne, -⟩ := update_spec hkeep h
  by_cases hj : j = i
  · subst hj
    simp [status?, hs, hs', Except.toOption]
  · simp [status?, hne j hj, hj]

theorem status?_of_const {m m' : PieceManager} {i : Nat} {patch : PieceState → PieceState}
    (st : PieceStatus) (hkeep : ∀ s, (patch s).index = s.index)
    (hst : ∀ s, (patch s).status = st) (h : m.update i patch = .ok m') (j : Nat) :
    m'.status? j = if j = i then some st else m.status? j := by
  rw [status?_update hkeep h]
  obtain ⟨s, hs, -⟩ := update_spec hkeep h
  simp [hs, hst, Except.toOption]

theorem status?_markRequested {m m' : PieceManager} {i : Nat} {p : PeerId}
    (h : m.markRequested i p = .ok m') (j : Nat) :
    m'.status? j = if j = i then some .requested else m.status? j := by
  unfold markRequested at h
  exact status?_of_const .requested (by intro _; rfl) (by intro _; rfl) h j

theorem status?_markVerified {m m' : PieceManager} {i : Nat}
    (h : m.markVerified i = .ok m') (j : Nat) :
    m'.status? j = if j = i then some .verified else m.status? j := by
  unfold markVerified at h
  exact status?_of_const .verified (by intro _; rfl) (by intro _; rfl) h j

theorem status?_markFailed {m m' : PieceManager} {i : Nat} {r : String}
    (h : m.markFailed i r = .ok m') (j : Nat) :
    m'.status? j = if j = i then some .failed else m.status? j := by
  unfold markFailed at h
  exact status?_of_const .failed (by intro _; rfl) (by intro _; rfl) h j

theorem status?_resetFailedToMissing {m m' : PieceManager} {i : Nat}
    (h : m.resetFailedToMissing i = .ok m') (j : Nat) :
    m'.status? j =
      if j = i ∧ m.status? i = some .failed then some .missing else m.status? j := by
  have hkeep : ∀ s : PieceState,
      (if s.status = .failed then { s with status := .missing, failureReason := none }
        else s : PieceState).index = s.index := by
    intro s
    split <;> rfl
  rw [status?_update hkeep h]
  obtain ⟨s, hs, -⟩ := update_spec hkeep h
  by_cases hj : j = i
  · subst hj
    by_cases hf : s.status = .failed <;> simp [hs, status?, hf, Except.toOption]
  · simp [hj]

/-- The indices of the pieces, in the order of the manifest. No method changes them. -/
def indices (m : PieceManager) : List Nat := m.states.map (·.index)

@[simp] theorem indices_new (fileId : FileId) (pieces : List PieceDescriptor) :
    (new fileId pieces).indices = pieces.map (·.index) := by
  simp [indices, new, Function.comp_def]

theorem indices_update {m m' : PieceManager} {i : Nat} {patch : PieceState → PieceState}
    (hkeep : ∀ s, (patch s).index = s.index) (h : m.update i patch = .ok m') :
    m'.indices = m.indices := by
  unfold update at h
  cases hr : m.requirePiece i with
  | error e => simp [hr] at h
  | ok s =>
    simp only [hr, Except.ok.injEq] at h
    subst h
    obtain ⟨hget, -⟩ := requirePiece_eq_ok.1 hr
    obtain ⟨hlt, hs⟩ := List.getElem?_eq_some_iff.1 hget
    have hlt' : i < (m.states.map (·.index)).length := by simpa using hlt
    have hsame : (patch s).index = (m.states.map (·.index))[i] := by simp [hkeep, hs]
    simp only [indices, List.map_set, hsame, List.set_getElem_self]

theorem indices_markRequested {m m' : PieceManager} {i : Nat} {p : PeerId}
    (h : m.markRequested i p = .ok m') : m'.indices = m.indices := by
  unfold markRequested at h
  exact indices_update (by intro _; rfl) h

theorem indices_markVerified {m m' : PieceManager} {i : Nat} (h : m.markVerified i = .ok m') :
    m'.indices = m.indices := by
  unfold markVerified at h
  exact indices_update (by intro _; rfl) h

theorem indices_markFailed {m m' : PieceManager} {i : Nat} {r : String}
    (h : m.markFailed i r = .ok m') : m'.indices = m.indices := by
  unfold markFailed at h
  exact indices_update (by intro _; rfl) h

theorem indices_resetFailedToMissing {m m' : PieceManager} {i : Nat}
    (h : m.resetFailedToMissing i = .ok m') : m'.indices = m.indices := by
  unfold resetFailedToMissing at h
  refine indices_update (fun s => ?_) h
  split <;> rfl

theorem indices_importPieces {m m' : PieceManager} {l : List PieceState}
    (h : m.importPieces l = .ok m') : m'.indices = m.indices := by
  induction l generalizing m with
  | nil =>
    cases h
    rfl
  | cons imported rest ih =>
    unfold importPieces at h
    split at h
    · cases h
    · rename_i m1 h1
      have hkeep : ∀ s, (importPiece imported s).index = s.index := by
        intro s
        unfold importPiece
        split <;> rfl
      exact (ih h).trans (indices_update hkeep h1)

theorem indices_importPieceMap {m m' : PieceManager} {pieceMap : PieceMap}
    (h : m.importPieceMap pieceMap = .ok m') : m'.indices = m.indices := by
  unfold importPieceMap at h
  split at h
  · cases h
  · exact indices_importPieces h

theorem mem_indices_of_missing {m : PieceManager} {i : Nat} (h : i ∈ m.getMissingPieces) :
    i ∈ m.indices := by
  obtain ⟨s, hs, rfl⟩ := List.mem_map.1 h
  exact List.mem_map.2 ⟨s, (List.mem_filter.1 hs).1, rfl⟩

/-- A piece that is missing or failed is among `getMissingPieces`. -/
theorem mem_getMissingPieces_of_status {m : PieceManager} {i : Nat}
    (h : m.status? i = some .missing ∨ m.status? i = some .failed) : i ∈ m.getMissingPieces := by
  have hs : ∃ s, m.requirePiece i = .ok s ∧ (s.status = .missing ∨ s.status = .failed) := by
    rcases h with h | h
    · obtain ⟨s, hs, hst⟩ := status?_eq_some.1 h
      exact ⟨s, hs, .inl hst⟩
    · obtain ⟨s, hs, hst⟩ := status?_eq_some.1 h
      exact ⟨s, hs, .inr hst⟩
  obtain ⟨s, hs, hst⟩ := hs
  obtain ⟨hget, hidx⟩ := requirePiece_eq_ok.1 hs
  have hmem : s ∈ m.states := List.mem_of_getElem? hget
  unfold getMissingPieces
  exact List.mem_map.2 ⟨s, List.mem_filter.2 ⟨hmem, by simpa using hst⟩, hidx⟩

end PieceManager

structure ScheduledPiece where
  piece : PieceState
  peerId : PeerId
  deriving DecidableEq, Repr

structure OwnerFirstScheduler where
  ownerPeerId : PeerId
  maxRetries : Nat

def OwnerFirstScheduler.nextOf (s : OwnerFirstScheduler) (manager : PieceManager) :
    List Nat → Except Failure (Option ScheduledPiece)
  | [] => .ok none
  | index :: rest =>
    match manager.getPieceState index with
    | .error e => .error e
    | .ok piece =>
      if piece.retryCount ≤ s.maxRetries then .ok (some ⟨piece, s.ownerPeerId⟩)
      else s.nextOf manager rest

def OwnerFirstScheduler.next (s : OwnerFirstScheduler) (manager : PieceManager) :
    Except Failure (Option ScheduledPiece) :=
  s.nextOf manager manager.getMissingPieces

theorem OwnerFirstScheduler.nextOf_eq_some {s : OwnerFirstScheduler} {m : PieceManager}
    {l : List Nat} {p : ScheduledPiece} (h : s.nextOf m l = .ok (some p)) :
    ∃ i ∈ l, m.requirePiece i = .ok p.piece ∧ p.piece.retryCount ≤ s.maxRetries ∧
      p.peerId = s.ownerPeerId := by
  induction l with
  | nil => simp [nextOf] at h
  | cons i rest ih =>
    unfold nextOf at h
    cases hs : m.getPieceState i with
    | error e => simp [hs] at h
    | ok piece =>
      simp only [hs] at h
      split at h
      · rename_i hle
        cases h
        exact ⟨i, List.mem_cons_self, hs, hle, rfl⟩
      · obtain ⟨j, hj, hrest⟩ := ih h
        exact ⟨j, List.mem_cons_of_mem i hj, hrest⟩

end PonsWarp.Core
