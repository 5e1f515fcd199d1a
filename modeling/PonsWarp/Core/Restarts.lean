import PonsWarp.Core.Resume

set_option autoImplicit false

/-!
The retry counter of a piece over any number of restarts. Every restart imports
the counter and counts a discarded piece as one more failure.
-/

namespace PonsWarp.Core

open PonsWarp.Data

/-- What happens to the pieces of a file while no transfer fails. -/
inductive Fetches : PieceManager → PieceManager → Prop
  | refl (m : PieceManager) : Fetches m m
  | request {m m' m'' : PieceManager} (i : Nat) (p : PeerId) (h : Fetches m m')
      (hr : m'.markRequested i p = .ok m'') : Fetches m m''
  | verify {m m' m'' : PieceManager} (i : Nat) (h : Fetches m m')
      (hv : m'.markVerified i = .ok m'') : Fetches m m''

/-- What a process finds when it starts: the persisted pieces and the stored bytes. -/
structure Restart where
  recorded : PieceManager
  stored : Nat → Option ArrayBuffer

/-- The piece is recorded as verified, but its bytes are gone or fail their check. -/
def Restart.loses (cfg : Config) (manifest : FileManifest) (i : Nat) (r : Restart) : Bool :=
  r.recorded.status? i = some .verified && !intact cfg manifest r.stored i

variable {σ : Type} [StorageAdapter σ]

/-- A chain of restarts, with what each of them found and the pieces it came up with. -/
inductive Restarts (store : Contents σ) (cfg : Config) (manifest : FileManifest)
    (m₀ : PieceManager) : List Restart → PieceManager → Prop
  | none : Restarts store cfg manifest m₀ [] m₀
  | restart {past : List Restart} {m m' : PieceManager} {e e' : Engine σ} {t : Turn}
      {result : ResumeRestoreResult} (h : Restarts store cfg manifest m₀ past m)
      (hfetch : Fetches m m') (hready : store.Ready e.storage) (ht : t.storing)
      (hresult : Engine.Returns cfg Turn.storing
        (e.restoreResumeState t manifest m'.exportPieceMap) e' (.ok (.restored result))) :
      Restarts store cfg manifest m₀
        (past ++ [⟨m', store.bytes e.storage manifest.fileId⟩]) result.manager

variable {store : Contents σ} {cfg : Config} {manifest : FileManifest} {m₀ m m' : PieceManager}

theorem Fetches.of (h : Fetches m m') (hm : m.Of manifest) : m'.Of manifest := by
  induction h with
  | refl => exact hm
  | request i p _ hr ih =>
    unfold PieceManager.markRequested at hr
    exact ih.update (by intro _; rfl) hr
  | verify i _ hv ih =>
    unfold PieceManager.markVerified at hv
    exact ih.update (by intro _; rfl) hv

/-- A patch that leaves the counter leaves it for every piece. -/
theorem retryCount_update {i j : Nat} {f : PieceState → PieceState}
    (hkeep : ∀ s, (f s).index = s.index) (hretry : ∀ s, (f s).retryCount = s.retryCount)
    (h : m.update i f = .ok m') {s : PieceState} (hs : m.requirePiece j = .ok s) :
    ∃ s', m'.requirePiece j = .ok s' ∧ s'.retryCount = s.retryCount := by
  obtain ⟨si, hi, hi', hne, -⟩ := PieceManager.update_spec hkeep h
  by_cases hj : j = i
  · subst hj
    rw [hs] at hi
    cases hi
    exact ⟨f s, hi', hretry s⟩
  · exact ⟨s, (hne j hj).trans hs, rfl⟩

theorem Fetches.retryCount (h : Fetches m m') {j : Nat} {s : PieceState}
    (hs : m.requirePiece j = .ok s) :
    ∃ s', m'.requirePiece j = .ok s' ∧ s'.retryCount = s.retryCount := by
  induction h with
  | refl => exact ⟨s, hs, rfl⟩
  | request i p _ hr ih =>
    obtain ⟨s₁, hs₁, hr₁⟩ := ih
    unfold PieceManager.markRequested at hr
    obtain ⟨s₂, hs₂, hr₂⟩ := retryCount_update (by intro _; rfl) (by intro _; rfl) hr hs₁
    exact ⟨s₂, hs₂, hr₂.trans hr₁⟩
  | verify i _ hv ih =>
    obtain ⟨s₁, hs₁, hr₁⟩ := ih
    unfold PieceManager.markVerified at hv
    obtain ⟨s₂, hs₂, hr₂⟩ := retryCount_update (by intro _; rfl) (by intro _; rfl) hv hs₁
    exact ⟨s₂, hs₂, hr₂.trans hr₁⟩

/-- A restart can only come up with what the restore returns. -/
theorem Restarts.resumed_eq {e e' : Engine σ} {t : Turn} {result : ResumeRestoreResult}
    (hm : m.Of manifest)
    (hmanifest : manifest.pieces.map (·.index) = List.range manifest.pieceCount)
    (hready : store.Ready e.storage) (ht : t.storing)
    (hresult : Engine.Returns cfg Turn.storing
      (e.restoreResumeState t manifest m.exportPieceMap) e' (.ok (.restored result))) :
    result = Engine.resumed cfg manifest (store.bytes e.storage manifest.fileId) m := by
  obtain ⟨s, -, -, hreach⟩ := restoreResumeState_reaches cfg store ht hready hm
    hmanifest []
  obtain ⟨-, hout⟩ := hresult.unique ⟨t, ht⟩ hreach.returns
  simpa using hout

theorem Restarts.of {past : List Restart} (h : Restarts store cfg manifest m₀ past m)
    (hm : m₀.Of manifest)
    (hmanifest : manifest.pieces.map (·.index) = List.range manifest.pieceCount) :
    m.Of manifest := by
  induction h with
  | none => exact hm
  | restart _ hfetch hready ht hresult ih =>
    rw [resumed_eq (hfetch.of ih) hmanifest hready ht hresult]
    exact resumed_of _ _ (hfetch.of ih)

/-- The counter goes up by one with every restart that loses the piece, and not otherwise. -/
theorem Restarts.retryCount {past : List Restart} (h : Restarts store cfg manifest m₀ past m)
    (hm : m₀.Of manifest)
    (hmanifest : manifest.pieces.map (·.index) = List.range manifest.pieceCount) {i : Nat}
    {s : PieceState} (hs : m₀.requirePiece i = .ok s) :
    ∃ s', m.requirePiece i = .ok s' ∧
      s'.retryCount = s.retryCount + past.countP (Restart.loses cfg manifest i) := by
  induction h with
  | none => exact ⟨s, hs, by simp⟩
  | @restart past m m' e e' t result hpast hfetch hready ht hresult ih =>
    obtain ⟨s₁, hs₁, hr₁⟩ := ih
    obtain ⟨s₂, hs₂, hr₂⟩ := hfetch.retryCount hs₁
    have hm' : m'.Of manifest := hfetch.of (hpast.of hm hmanifest)
    obtain ⟨s₃, hs₃, -, hr₃⟩ := resumed_piece cfg
      (store.bytes e.storage manifest.fileId) hm' hmanifest hs₂
    rw [resumed_eq hm' hmanifest hready ht hresult]
    refine ⟨s₃, hs₃, ?_⟩
    have hi : i ∈ m'.indices := by
      obtain ⟨hget, hidx⟩ := PieceManager.requirePiece_eq_ok.1 hs₂
      exact List.mem_map.2 ⟨s₂, List.mem_of_getElem? hget, hidx⟩
    have hlost : i ∈ Engine.lost cfg manifest (store.bytes e.storage manifest.fileId)
        m'.getVerifiedPieces ↔
        Restart.loses cfg manifest i ⟨m', store.bytes e.storage manifest.fileId⟩ = true := by
      rw [mem_lost, (hm'.indexed hmanifest).getVerifiedPieces, List.mem_filter]
      simp [Restart.loses, hi]
    simp only [hlost] at hr₃
    rw [hr₃, hr₂, hr₁, List.countP_append, List.countP_singleton]
    omega

namespace Sample

/-- The one piece of the file is missing, after so many failures. -/
def counted (n : Nat) : PieceManager := ⟨"f", [⟨0, .missing, 1, 0, n, none, none⟩]⟩

end Sample

end PonsWarp.Core
