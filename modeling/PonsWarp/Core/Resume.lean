import PonsWarp.Core.Completion
import PonsWarp.Core.Contents

set_option autoImplicit false

/-!
`restoreResumeState` on a storage that answers: what it returns, what it
deletes, and what a second run finds.
-/

namespace PonsWarp.Core

open PonsWarp.Data

/-- A piece after its stored bytes had to be discarded. -/
def PieceState.discarded (s : PieceState) : PieceState :=
  { s with status := .missing, receivedBytes := 0, retryCount := s.retryCount + 1,
           requestedFrom := none, failureReason := none }

namespace PieceManager

/-- A manager of the pieces that the manifest describes. -/
structure Of (manifest : FileManifest) (m : PieceManager) : Prop where
  file : m.fileId = manifest.fileId
  pieces : m.indices = manifest.pieces.map (·.index)

theorem Of.new (manifest : FileManifest) :
    (PieceManager.new manifest.fileId manifest.pieces).Of manifest :=
  ⟨rfl, indices_new _ _⟩

theorem Of.update {manifest : FileManifest} {m m' : PieceManager} {i : Nat}
    {patch : PieceState → PieceState} (hm : m.Of manifest)
    (hkeep : ∀ s, (patch s).index = s.index) (h : m.update i patch = .ok m') : m'.Of manifest := by
  obtain ⟨-, -, -, -, hfile⟩ := update_spec hkeep h
  exact ⟨hfile.trans hm.file, (indices_update hkeep h).trans hm.pieces⟩

/-- The pieces stand at the positions their indices name. -/
def Indexed (m : PieceManager) : Prop := m.indices = List.range m.states.length

/-- Patch the piece with an index, if there is one. -/
def patch (m : PieceManager) (i : Nat) (patch : PieceState → PieceState) : PieceManager :=
  { m with states := m.states.map fun s => if s.index = i then patch s else s }

theorem Indexed.index_eq {m : PieceManager} (h : m.Indexed) {j : Nat} {s : PieceState}
    (hs : m.states[j]? = some s) : s.index = j := by
  have hj : m.indices[j]? = some s.index := by simp [indices, hs]
  have hlt : j < m.states.length := (List.getElem?_eq_some_iff.1 hs).1
  rw [h, List.getElem?_range hlt] at hj
  exact (Option.some.inj hj).symm

theorem Indexed.update {m : PieceManager} (h : m.Indexed) {i : Nat} (hi : i < m.states.length)
    (f : PieceState → PieceState) : m.update i f = .ok (m.patch i f) := by
  have hget : m.states[i]? = some m.states[i] := List.getElem?_eq_getElem hi
  have hreq : m.requirePiece i = .ok m.states[i] := requirePiece_eq_ok.2 ⟨hget, h.index_eq hget⟩
  have hstates : m.states.set i (f m.states[i]) =
      m.states.map fun s => if s.index = i then f s else s := by
    refine List.ext_getElem? fun j => ?_
    rw [List.getElem?_set, List.getElem?_map]
    cases hj : m.states[j]? with
    | none =>
      have hlen : m.states.length ≤ j := List.getElem?_eq_none_iff.1 hj
      have hne : i ≠ j := by omega
      simp [hne]
    | some s =>
      have hidx : s.index = j := h.index_eq hj
      by_cases hij : i = j
      · subst hij
        have hs : m.states[i] = s := by simpa [hget] using hj
        simp [hi, hs, hidx]
      · have hne : ¬ j = i := fun he => hij he.symm
        simp [hij, hidx, hne]
  simp only [PieceManager.update, hreq, patch, hstates]

theorem indices_patch {m : PieceManager} {i : Nat} {f : PieceState → PieceState}
    (hkeep : ∀ s, (f s).index = s.index) : (m.patch i f).indices = m.indices := by
  simp only [indices, patch, List.map_map, List.map_inj_left, Function.comp_apply]
  intro s _
  split
  · exact hkeep s
  · rfl

@[simp] theorem length_patch (m : PieceManager) (i : Nat) (f : PieceState → PieceState) :
    (m.patch i f).states.length = m.states.length := by
  simp [patch]

theorem Indexed.patch {m : PieceManager} (h : m.Indexed) {i : Nat} {f : PieceState → PieceState}
    (hkeep : ∀ s, (f s).index = s.index) : (m.patch i f).Indexed := by
  simpa [Indexed, indices_patch hkeep] using h

/-- The two calls by which the restore discards a piece. -/
theorem Indexed.discard {m : PieceManager} (h : m.Indexed) {i : Nat} (hi : i < m.states.length)
    (reason : String) : ∃ failed, m.markFailed i reason = .ok failed ∧
      failed.resetFailedToMissing i = .ok (m.patch i PieceState.discarded) := by
  refine ⟨_, h.update hi _, ?_⟩
  have hfailed := h.patch (i := i) (f := fun s => { s with
    status := .failed, receivedBytes := 0, retryCount := s.retryCount + 1,
    requestedFrom := none, failureReason := some reason }) fun _ => rfl
  unfold resetFailedToMissing
  rw [hfailed.update (by simpa using hi)]
  simp only [PieceManager.patch, List.map_map, Except.ok.injEq, PieceManager.mk.injEq, true_and,
    List.map_inj_left, Function.comp_apply]
  intro s _
  by_cases hs : s.index = i <;> simp [hs, PieceState.discarded]

theorem importPiece_index (imported s : PieceState) :
    (importPiece imported s).index = s.index := by
  unfold importPiece
  split <;> rfl

/-- Every piece of a map is imported into the piece at its position. -/
theorem importPieces_zip (fileId : FileId) (l rest done : List PieceState)
    (hidx : l.map (·.index) = rest.map (·.index))
    (h : Indexed ⟨fileId, done ++ rest⟩) :
    importPieces ⟨fileId, done ++ rest⟩ l =
      .ok ⟨fileId, done ++ List.zipWith importPiece l rest⟩ := by
  induction l generalizing rest done with
  | nil =>
    have hnil : rest = [] := by simpa using hidx.symm
    simp [importPieces, hnil]
  | cons s l ih =>
    cases rest with
    | nil => simp at hidx
    | cons r rest =>
      obtain ⟨hs, hrest⟩ := List.cons.inj hidx
      have hget : (done ++ r :: rest)[done.length]? = some r := by simp
      have hr : r.index = done.length := h.index_eq (m := ⟨fileId, done ++ r :: rest⟩) hget
      have hsr : s.index = done.length := by simpa [hr] using hs
      have hreq : requirePiece ⟨fileId, done ++ r :: rest⟩ s.index = .ok r :=
        requirePiece_eq_ok.2 ⟨by simp [hsr], hs.symm⟩
      have hupdate : PieceManager.update ⟨fileId, done ++ r :: rest⟩ s.index (importPiece s) =
          .ok ⟨fileId, (done ++ [importPiece s r]) ++ rest⟩ := by
        simp only [PieceManager.update, hreq]
        simp [hsr]
      have hkept : (importPiece s r).index = r.index := importPiece_index s r
      have hindexed : Indexed ⟨fileId, (done ++ [importPiece s r]) ++ rest⟩ := by
        simpa [Indexed, indices, hkept] using h
      have hnext := ih rest (done ++ [importPiece s r]) hrest hindexed
      unfold importPieces
      rw [hupdate]
      simpa using hnext

/-- The restore has discarded the pieces of a list. -/
def discardAll (m : PieceManager) (lost : List Nat) : PieceManager :=
  lost.foldl (fun m i => m.patch i PieceState.discarded) m

theorem requirePiece_patch {m : PieceManager} {i j : Nat} {s : PieceState}
    {f : PieceState → PieceState} (hkeep : ∀ s, (f s).index = s.index)
    (h : m.requirePiece j = .ok s) :
    (m.patch i f).requirePiece j = .ok (if j = i then f s else s) := by
  obtain ⟨hget, hidx⟩ := requirePiece_eq_ok.1 h
  rw [requirePiece_eq_ok]
  constructor
  · simp [patch, hget, hidx]
  · split
    · rw [hkeep, hidx]
    · exact hidx

theorem requirePiece_discardAll {l : List Nat} {m : PieceManager} {j : Nat} {s : PieceState}
    (hl : l.Nodup) (h : m.requirePiece j = .ok s) :
    (m.discardAll l).requirePiece j = .ok (if j ∈ l then s.discarded else s) := by
  induction l generalizing m s with
  | nil => simpa [discardAll] using h
  | cons i rest ih =>
    obtain ⟨hi, hrest⟩ := List.nodup_cons.1 hl
    have hpatch := requirePiece_patch (i := i) (f := PieceState.discarded) (fun _ => rfl) h
    have hdone := ih hrest hpatch
    simp only [discardAll, List.foldl_cons] at hdone ⊢
    rw [hdone]
    by_cases hj : j = i
    · subst hj
      simp [hi]
    · simp [hj]

theorem indices_discardAll (l : List Nat) (m : PieceManager) :
    (m.discardAll l).indices = m.indices := by
  induction l generalizing m with
  | nil => rfl
  | cons i rest ih =>
    have hpatch := indices_patch (m := m) (i := i) (f := PieceState.discarded) fun _ => rfl
    exact (ih _).trans hpatch

theorem fileId_discardAll (l : List Nat) (m : PieceManager) :
    (m.discardAll l).fileId = m.fileId := by
  induction l generalizing m with
  | nil => rfl
  | cons i rest ih => exact ih _

/-- The indices of the pieces whose status is asked for, read off position by position. -/
theorem Indexed.filter_status {m : PieceManager} (h : m.Indexed) (p : PieceStatus → Bool) :
    (m.states.filter fun s => p s.status).map (·.index) =
      m.indices.filter fun i => (m.status? i).any p := by
  rw [indices, List.filter_map]
  congr 1
  refine List.filter_congr fun s hs => ?_
  obtain ⟨j, hj⟩ := List.getElem?_of_mem hs
  have hidx : s.index = j := h.index_eq hj
  have hreq : m.requirePiece s.index = .ok s := requirePiece_eq_ok.2 ⟨by rw [hidx, hj], rfl⟩
  simp [status?, hreq]

theorem Indexed.getVerifiedPieces {m : PieceManager} (h : m.Indexed) :
    m.getVerifiedPieces = m.indices.filter fun i => m.status? i = some .verified := by
  have hfilter := h.filter_status fun st => st = .verified
  unfold PieceManager.getVerifiedPieces
  rw [hfilter]
  refine List.filter_congr fun i _ => ?_
  cases m.status? i <;> simp

theorem Of.indexed {manifest : FileManifest} {m : PieceManager} (hm : m.Of manifest)
    (hmanifest : manifest.pieces.map (·.index) = List.range manifest.pieceCount) : m.Indexed := by
  have hidx : m.indices = List.range manifest.pieceCount := hm.pieces.trans hmanifest
  have hlen : m.states.length = manifest.pieceCount := by
    have hl := congrArg List.length hidx
    simpa [indices] using hl
  rw [Indexed, hlen, hidx]

/-- The pieces of a fresh manager after a map has been imported. -/
def imported (manifest : FileManifest) (m : PieceManager) : PieceManager :=
  ⟨manifest.fileId, List.zipWith importPiece m.states
    (PieceManager.new manifest.fileId manifest.pieces).states⟩

theorem Of.imported {manifest : FileManifest} {m : PieceManager} (hm : m.Of manifest) :
    (imported manifest m).Of manifest := by
  refine ⟨rfl, ?_⟩
  have hzip : ∀ l l' : List PieceState, l.length = l'.length →
      (List.zipWith importPiece l l').map (·.index) = l'.map (·.index) := by
    intro l
    induction l with
    | nil => intro l' h; simp [List.length_eq_zero_iff.1 h.symm]
    | cons s l ih =>
      intro l' h
      cases l' with
      | nil => simp at h
      | cons s' l' =>
        have hlen : l.length = l'.length := by simpa using h
        simp [importPiece_index, ih l' hlen]
  have hlen : m.states.length = (PieceManager.new manifest.fileId manifest.pieces).states.length := by
    have hl := congrArg List.length hm.pieces
    simpa [indices, PieceManager.new] using hl
  have hnew := indices_new manifest.fileId manifest.pieces
  simp only [indices, PieceManager.imported, hzip _ _ hlen]
  exact hnew

theorem Of.importPieceMap {manifest : FileManifest} {m : PieceManager} (hm : m.Of manifest)
    (hmanifest : manifest.pieces.map (·.index) = List.range manifest.pieceCount) :
    (PieceManager.new manifest.fileId manifest.pieces).importPieceMap m.exportPieceMap =
      .ok (PieceManager.imported manifest m) := by
  have hfresh : (PieceManager.new manifest.fileId manifest.pieces).Indexed :=
    (Of.new manifest).indexed hmanifest
  have hidx : m.states.map (·.index) =
      (PieceManager.new manifest.fileId manifest.pieces).states.map (·.index) :=
    hm.pieces.trans (indices_new manifest.fileId manifest.pieces).symm
  have hzip := importPieces_zip manifest.fileId m.states
    (PieceManager.new manifest.fileId manifest.pieces).states [] hidx hfresh
  simp only [List.nil_append] at hzip
  simp only [PieceManager.importPieceMap, exportPieceMap, hm.file]
  simpa [PieceManager.new, PieceManager.imported] using hzip

theorem requirePiece_imported {manifest : FileManifest} {m : PieceManager} (hm : m.Of manifest)
    (hmanifest : manifest.pieces.map (·.index) = List.range manifest.pieceCount) {i : Nat}
    {s : PieceState} (h : m.requirePiece i = .ok s) :
    ∃ fresh, (PieceManager.imported manifest m).requirePiece i = .ok (importPiece s fresh) := by
  obtain ⟨hget, -⟩ := requirePiece_eq_ok.1 h
  have hlen := congrArg List.length hm.pieces
  have hlt : i < m.states.length := (List.getElem?_eq_some_iff.1 hget).1
  have hfresh : i < (PieceManager.new manifest.fileId manifest.pieces).states.length := by
    simp only [indices, List.length_map] at hlen
    simpa [PieceManager.new, ← hlen] using hlt
  refine ⟨(PieceManager.new manifest.fileId manifest.pieces).states[i], ?_⟩
  have hst : (PieceManager.imported manifest m).states[i]? =
      some (importPiece s (PieceManager.new manifest.fileId manifest.pieces).states[i]) := by
    simp [PieceManager.imported, List.getElem?_zipWith, hget, List.getElem?_eq_getElem hfresh]
  exact requirePiece_eq_ok.2 ⟨hst, (hm.imported.indexed hmanifest).index_eq hst⟩

end PieceManager

/-- The bytes stored for a piece pass the check of its descriptor. -/
def intact (cfg : Config) (manifest : FileManifest) (stored : Nat → Option ArrayBuffer)
    (i : Nat) : Bool :=
  match stored i, manifest.pieces[i]? with
  | some data, some descriptor => verifyPiece cfg.hash data descriptor
  | _, _ => false

/-- No storage operation of a stretch fails. -/
def Turn.storing (t : Turn) : Prop := t.storageFailure = none

namespace Engine

variable {σ : Type} {cfg : Config} {t u : Turn} {e : Engine σ}

theorem storageCall_storing {α : Type} (ht : t.storing) (value : α → Value) (a : α) (s : σ) :
    e.storageCall t value (.ok a, s) =
      ({ e with storage := s }, .await (.settled (.ok (value a))) []) := by
  have hnone : t.storageFailure = none := ht
  simp [storageCall, hnone]

variable [StorageAdapter σ]

theorem restoreLoop_cons (store : Contents σ) (ht : t.storing) (hready : store.Ready e.storage)
    (r : Restore) {i : Nat} {rest : List Nat} (hr : r.pending = i :: rest) :
    e.restoreLoop t r = (e, .await (.settled (.ok (.buffer
      (store.bytes e.storage r.manifest.fileId i)))) [.resumeRead { r with pending := rest } i]) := by
  unfold restoreLoop
  simp only [hr, store.read _ _ _ hready, storageCall_storing ht, Next.andThen, List.nil_append]

/-- The loop does not look at the clock. -/
theorem restoreLoop_turn (store : Contents σ) (ht : t.storing) (hu : u.storing)
    (hready : store.Ready e.storage) (r : Restore) : e.restoreLoop t r = e.restoreLoop u r := by
  cases hr : r.pending with
  | nil => simp [restoreLoop, hr]
  | cons i rest =>
    rw [restoreLoop_cons store ht hready r hr, restoreLoop_cons store hu hready r hr]

/-- A piece that is discarded leaves the storage, and the loop goes on without it. -/
theorem discardPiece_reaches (cfg : Config) (store : Contents σ) (ht : t.storing) (hready : store.Ready e.storage)
    (r : Restore) {i : Nat} (hm : r.manager.Indexed) (hi : i < r.manager.states.length)
    (reason : String) (below : List Frame) : ∃ s, store.Ready s ∧
    (∀ g j, store.bytes s g j =
      if g = r.manifest.fileId ∧ j = i then none else store.bytes e.storage g j) ∧
    ∀ next, (∀ u : Turn, u.storing → Engine.restoreLoop { e with storage := s } u { r with
        manager := r.manager.patch i PieceState.discarded, discarded := r.discarded ++ [i] } = next) →
      Reaches cfg Turn.storing (e.discardPiece t r i reason).1
        ((e.discardPiece t r i reason).2.task below) next.1 (next.2.task below) := by
  obtain ⟨s, hdelete, hs, hbytes⟩ := store.delete e.storage r.manifest.fileId i hready
  refine ⟨s, hs, hbytes, fun next hnext => ?_⟩
  obtain ⟨failed, hfailed, hreset⟩ := hm.discard hi reason
  have hcall : e.discardPiece t r i reason =
      ({ e with storage := s }, .await (.settled (.ok .unit)) [.resumeDeleted r i reason]) := by
    simp only [discardPiece, hdelete, storageCall_storing ht, Next.andThen, List.nil_append]
  have hresume : ∀ u : Turn, u.storing →
      Engine.resume { e with storage := s } cfg u (.ok .unit) (.resumeDeleted r i reason) = next := by
    intro u hu
    simp only [resume, resumeDeleted, hfailed, hreset, hnext u hu]
  rw [hcall]
  exact Reaches.stretch fun u hu => by simp [hresume u hu]

/-- One piece of the loop: it stays, or it is discarded. -/
theorem restoreLoop_step (cfg : Config) (store : Contents σ) (ht : t.storing) (hready : store.Ready e.storage)
    (r : Restore) {i : Nat} {rest : List Nat} (hr : r.pending = i :: rest)
    (hm : r.manager.Indexed) (hi : i < r.manager.states.length)
    (hpiece : i < r.manifest.pieces.length) (below : List Frame) :
    (intact cfg r.manifest (store.bytes e.storage r.manifest.fileId) i = true ∧
      Reaches cfg Turn.storing (e.restoreLoop t r).1 ((e.restoreLoop t r).2.task below)
        (e.restoreLoop t { r with pending := rest }).1
        ((e.restoreLoop t { r with pending := rest }).2.task below)) ∨
    (intact cfg r.manifest (store.bytes e.storage r.manifest.fileId) i = false ∧
      ∃ s, store.Ready s ∧ (∀ g j, store.bytes s g j =
        if g = r.manifest.fileId ∧ j = i then none else store.bytes e.storage g j) ∧
      ∃ next, Engine.restoreLoop { e with storage := s } t { r with
          pending := rest, manager := r.manager.patch i PieceState.discarded,
          discarded := r.discarded ++ [i] } = next ∧
        Reaches cfg Turn.storing (e.restoreLoop t r).1 ((e.restoreLoop t r).2.task below)
          next.1 (next.2.task below)) := by
  have hdiscard : ∀ reason, ∃ s, store.Ready s ∧ (∀ g j, store.bytes s g j =
        if g = r.manifest.fileId ∧ j = i then none else store.bytes e.storage g j) ∧
      ∃ next, Engine.restoreLoop { e with storage := s } t { r with
          pending := rest, manager := r.manager.patch i PieceState.discarded,
          discarded := r.discarded ++ [i] } = next ∧
        Reaches cfg Turn.storing (e.discardPiece t { r with pending := rest } i reason).1
          ((e.discardPiece t { r with pending := rest } i reason).2.task below)
          next.1 (next.2.task below) := by
    intro reason
    obtain ⟨s, hs, hbytes, hnext⟩ := discardPiece_reaches cfg store ht hready
      { r with pending := rest } hm hi reason below
    refine ⟨s, hs, hbytes, _, rfl, hnext _ fun u hu => ?_⟩
    exact restoreLoop_turn store hu ht hs _
  have hdiscard_turn : ∀ (u : Turn) (reason : String), u.storing →
      e.discardPiece u { r with pending := rest } i reason =
        e.discardPiece t { r with pending := rest } i reason := by
    intro u reason hu
    obtain ⟨s, hdelete, -⟩ := store.delete e.storage r.manifest.fileId i hready
    simp only [discardPiece, hdelete, storageCall_storing ht, storageCall_storing hu]
  rw [restoreLoop_cons store ht hready r hr]
  have hget : r.manifest.pieces[i]? = some r.manifest.pieces[i] := List.getElem?_eq_getElem hpiece
  cases hbytes : store.bytes e.storage r.manifest.fileId i with
  | none =>
    refine .inr ⟨by simp [intact, hbytes], ?_⟩
    obtain ⟨s, hs, hsb, next, hnext, hreach⟩ := hdiscard "piece missing during resume"
    refine ⟨s, hs, hsb, next, hnext, .trans ?_ hreach⟩
    refine Reaches.stretch fun u hu => ?_
    have h := hdiscard_turn u "piece missing during resume" hu
    simp [resume, resumeRead, h]
  | some data =>
    have hchecked : Reaches cfg Turn.storing e ⟨.settled (.ok (.buffer (some data))),
          .resumeRead { r with pending := rest } i :: below⟩
        e ⟨.settled (.ok (.bool (verifyPiece cfg.hash data r.manifest.pieces[i]))),
          .resumeChecked { r with pending := rest } i :: below⟩ := by
      refine Reaches.stretch fun u _ => ?_
      simp [resume, resumeRead, hget, Next.task]
    cases hv : verifyPiece cfg.hash data r.manifest.pieces[i] with
    | true =>
      refine .inl ⟨by simp [intact, hbytes, hget, hv], hchecked.trans ?_⟩
      rw [hv]
      refine Reaches.stretch fun u hu => ?_
      have h := restoreLoop_turn store hu ht hready { r with pending := rest }
      simp [resume, resumeChecked, h]
    | false =>
      refine .inr ⟨by simp [intact, hbytes, hget, hv], ?_⟩
      obtain ⟨s, hs, hsb, next, hnext, hreach⟩ := hdiscard "piece hash mismatch during resume"
      refine ⟨s, hs, hsb, next, hnext, hchecked.trans (.trans ?_ hreach)⟩
      rw [hv]
      refine Reaches.stretch fun u hu => ?_
      have h := hdiscard_turn u "piece hash mismatch during resume" hu
      simp [resume, resumeChecked, h]

/-- The pieces of a list whose stored bytes are missing or fail their check. -/
def lost (cfg : Config) (manifest : FileManifest) (stored : Nat → Option ArrayBuffer)
    (pending : List Nat) : List Nat :=
  pending.filter fun i => !intact cfg manifest stored i

theorem lost_congr {manifest : FileManifest} {stored stored' : Nat → Option ArrayBuffer}
    {pending : List Nat} (h : ∀ i ∈ pending, stored i = stored' i) :
    lost cfg manifest stored pending = lost cfg manifest stored' pending := by
  refine List.filter_congr fun i hi => ?_
  simp only [intact, h i hi]

theorem restoreLoop_reaches (cfg : Config) (store : Contents σ) (ht : t.storing) (below : List Frame)
    (r : Restore) (hready : store.Ready e.storage) (hm : r.manager.Indexed)
    (hi : ∀ i ∈ r.pending, i < r.manager.states.length ∧ i < r.manifest.pieces.length)
    (hnodup : r.pending.Nodup) :
    ∃ s, store.Ready s ∧
      (∀ g j, store.bytes s g j = if g = r.manifest.fileId ∧ j ∈
          lost cfg r.manifest (store.bytes e.storage r.manifest.fileId) r.pending
        then none else store.bytes e.storage g j) ∧
      Reaches cfg Turn.storing (e.restoreLoop t r).1 ((e.restoreLoop t r).2.task below)
        { e with storage := s } ⟨.settled (.ok (.restored (restoreResult { r with
          manager := r.manager.discardAll
            (lost cfg r.manifest (store.bytes e.storage r.manifest.fileId) r.pending)
          discarded := r.discarded ++
            lost cfg r.manifest (store.bytes e.storage r.manifest.fileId) r.pending }))),
          below⟩ := by
  induction hr : r.pending generalizing e r with
  | nil =>
    refine ⟨e.storage, hready, by simp [lost], ?_⟩
    simp [restoreLoop, hr, lost, PieceManager.discardAll, Next.ok, Next.task, restoreResult,
      Reaches.refl]
  | cons i rest ih =>
    rw [hr] at hi hnodup
    obtain ⟨himan, hipiece⟩ := hi i List.mem_cons_self
    obtain ⟨hni, hrest⟩ := List.nodup_cons.1 hnodup
    have hi' : ∀ j ∈ rest, j < r.manager.states.length ∧ j < r.manifest.pieces.length :=
      fun j hj => hi j (List.mem_cons_of_mem i hj)
    rcases restoreLoop_step cfg store ht hready r hr hm himan hipiece below with
      ⟨hintact, hreach⟩ | ⟨hgone, s, hs, hsb, next, rfl, hreach⟩
    · obtain ⟨s, hs, hsb, hdone⟩ := ih { r with pending := rest } hready hm hi' hrest rfl
      have hlost : lost cfg r.manifest (store.bytes e.storage r.manifest.fileId) (i :: rest) =
          lost cfg r.manifest (store.bytes e.storage r.manifest.fileId) rest := by
        simp [lost, hintact]
      rw [hlost]
      exact ⟨s, hs, hsb, hreach.trans hdone⟩
    · have hm' : (r.manager.patch i PieceState.discarded).Indexed := hm.patch fun _ => rfl
      obtain ⟨s', hs', hsb', hdone⟩ := ih (e := { e with storage := s }) { r with
        pending := rest, manager := r.manager.patch i PieceState.discarded,
        discarded := r.discarded ++ [i] } hs hm' (by simpa using hi') hrest rfl
      have hsame : lost cfg r.manifest (store.bytes s r.manifest.fileId) rest =
          lost cfg r.manifest (store.bytes e.storage r.manifest.fileId) rest := by
        refine lost_congr fun j hj => ?_
        have hne : j ≠ i := fun he => hni (he ▸ hj)
        simp [hsb, hne]
      have hlost : lost cfg r.manifest (store.bytes e.storage r.manifest.fileId) (i :: rest) =
          i :: lost cfg r.manifest (store.bytes e.storage r.manifest.fileId) rest := by
        simp [lost, hgone]
      simp only [hsame] at hsb' hdone
      rw [hlost]
      refine ⟨s', hs', fun g j => ?_, hreach.trans ?_⟩
      · rw [hsb', hsb]
        by_cases hg : g = r.manifest.fileId <;> by_cases hj : j = i <;> simp [hg, hj]
      · simpa [PieceManager.discardAll, restoreResult] using hdone

/-- What the restore of an exported map returns. -/
def resumed (cfg : Config) (manifest : FileManifest) (stored : Nat → Option ArrayBuffer)
    (m : PieceManager) : ResumeRestoreResult :=
  restoreResult ⟨manifest, (PieceManager.imported manifest m).discardAll
    (lost cfg manifest stored m.getVerifiedPieces), [], lost cfg manifest stored m.getVerifiedPieces⟩

end Engine

/-- A status after it has been imported. -/
def PieceStatus.imported : PieceStatus → PieceStatus
  | .requested | .receiving => .missing
  | st => st

theorem importPiece_status (s fresh : PieceState) :
    (PieceManager.importPiece s fresh).status = s.status.imported := by
  unfold PieceManager.importPiece
  cases s.status <;> simp [PieceStatus.imported]

theorem importPiece_retryCount (s fresh : PieceState) :
    (PieceManager.importPiece s fresh).retryCount = s.retryCount := by
  unfold PieceManager.importPiece
  split <;> rfl

section Exported

variable {cfg : Config} {manifest : FileManifest} {m : PieceManager}
  {stored stored' : Nat → Option ArrayBuffer}

open Engine

theorem nodup_verified (hm : m.Indexed) : m.getVerifiedPieces.Nodup := by
  rw [hm.getVerifiedPieces, hm]
  exact List.nodup_range.filter _

theorem mem_lost {i : Nat} : i ∈ lost cfg manifest stored m.getVerifiedPieces ↔
    i ∈ m.getVerifiedPieces ∧ intact cfg manifest stored i = false := by
  simp [lost]

theorem resumed_piece (cfg : Config) (stored : Nat → Option ArrayBuffer) (hm : m.Of manifest)
    (hmanifest : manifest.pieces.map (·.index) = List.range manifest.pieceCount) {i : Nat}
    {s : PieceState} (h : m.requirePiece i = .ok s) :
    ∃ s', (resumed cfg manifest stored m).manager.requirePiece i = .ok s' ∧
      s'.status = (if i ∈ lost cfg manifest stored m.getVerifiedPieces then .missing
        else s.status.imported) ∧
      s'.retryCount = s.retryCount +
        if i ∈ lost cfg manifest stored m.getVerifiedPieces then 1 else 0 := by
  obtain ⟨fresh, hfresh⟩ := PieceManager.requirePiece_imported hm hmanifest h
  have hnodup : (lost cfg manifest stored m.getVerifiedPieces).Nodup :=
    (nodup_verified (hm.indexed hmanifest)).filter _
  refine ⟨_, PieceManager.requirePiece_discardAll hnodup hfresh, ?_, ?_⟩
  · split
    · rfl
    · exact importPiece_status s fresh
  · split
    · simp [PieceState.discarded, importPiece_retryCount]
    · simp [importPiece_retryCount]

theorem resumed_of (cfg : Config) (stored : Nat → Option ArrayBuffer) (hm : m.Of manifest) :
    (resumed cfg manifest stored m).manager.Of manifest :=
  ⟨PieceManager.fileId_discardAll _ _,
    (PieceManager.indices_discardAll _ _).trans hm.imported.pieces⟩

theorem resumed_verified (cfg : Config) (stored : Nat → Option ArrayBuffer) (hm : m.Of manifest)
    (hmanifest : manifest.pieces.map (·.index) = List.range manifest.pieceCount) :
    (resumed cfg manifest stored m).verifiedPieces =
      m.getVerifiedPieces.filter (intact cfg manifest stored) := by
  have hfrom := hm.indexed hmanifest
  have hto := (resumed_of cfg stored hm).indexed hmanifest
  have hsame : (resumed cfg manifest stored m).manager.indices = m.indices :=
    (resumed_of cfg stored hm).pieces.trans hm.pieces.symm
  calc (resumed cfg manifest stored m).verifiedPieces
      = m.indices.filter fun i =>
          (resumed cfg manifest stored m).manager.status? i = some .verified := by
        rw [← hsame]
        exact hto.getVerifiedPieces
    _ = m.indices.filter fun i =>
          intact cfg manifest stored i && decide (m.status? i = some .verified) := by
        refine List.filter_congr fun i hi => ?_
        obtain ⟨s, hs, rfl⟩ := List.mem_map.1 hi
        obtain ⟨j, hj⟩ := List.getElem?_of_mem hs
        have hreq : m.requirePiece s.index = .ok s :=
          PieceManager.requirePiece_eq_ok.2 ⟨by rw [hfrom.index_eq hj, hj], rfl⟩
        obtain ⟨s', hs', hst, -⟩ := resumed_piece cfg stored hm hmanifest hreq
        have hmem : s.index ∈ m.getVerifiedPieces ↔ s.status = .verified := by
          rw [hfrom.getVerifiedPieces, List.mem_filter]
          simp [PieceManager.status?, hreq, hi]
        simp only [PieceManager.status?, hs', hreq, hst, mem_lost, hmem, Option.some.injEq]
        cases hi : intact cfg manifest stored s.index <;> cases hv : s.status <;>
          simp [PieceStatus.imported]
    _ = m.getVerifiedPieces.filter (intact cfg manifest stored) := by
        rw [hfrom.getVerifiedPieces, List.filter_filter]

/-- What a restore has kept is still there for the next one. -/
theorem resumed_again (hm : m.Of manifest)
    (hmanifest : manifest.pieces.map (·.index) = List.range manifest.pieceCount)
    (hstored : ∀ i ∉ lost cfg manifest stored m.getVerifiedPieces, stored' i = stored i) :
    lost cfg manifest stored' (resumed cfg manifest stored m).manager.getVerifiedPieces = [] := by
  have hverified := resumed_verified cfg stored hm hmanifest
  refine List.filter_eq_nil_iff.2 fun i hi => ?_
  have hmem : i ∈ (resumed cfg manifest stored m).verifiedPieces := hi
  rw [hverified, List.mem_filter] at hmem
  have hkept : stored' i = stored i := by
    refine hstored i fun hlost => ?_
    simp [(mem_lost.1 hlost).2] at hmem
  have hintact : intact cfg manifest stored' i = intact cfg manifest stored i := by
    simp only [intact, hkept]
  simp [hintact, hmem.2]

variable {σ : Type} [StorageAdapter σ] {e : Engine σ} {t : Turn}

theorem restoreResumeState_reaches (cfg : Config) (store : Contents σ) (ht : t.storing)
    (hready : store.Ready e.storage) (hm : m.Of manifest)
    (hmanifest : manifest.pieces.map (·.index) = List.range manifest.pieceCount)
    (below : List Frame) :
    ∃ s, store.Ready s ∧
      (∀ g j, store.bytes s g j = if g = manifest.fileId ∧ j ∈ lost cfg manifest
          (store.bytes e.storage manifest.fileId) m.getVerifiedPieces
        then none else store.bytes e.storage g j) ∧
      Reaches cfg Turn.storing (e.restoreResumeState t manifest m.exportPieceMap).1
        ((e.restoreResumeState t manifest m.exportPieceMap).2.task below) { e with storage := s }
        ⟨.settled (.ok (.restored
          (resumed cfg manifest (store.bytes e.storage manifest.fileId) m))), below⟩ := by
  have hfrom := hm.indexed hmanifest
  have hto := hm.imported.indexed hmanifest
  have hlen : m.states.length = manifest.pieceCount ∧ manifest.pieces.length = manifest.pieceCount := by
    have hl := congrArg List.length (hm.pieces.trans hmanifest)
    have hp := congrArg List.length hmanifest
    simp only [PieceManager.indices, List.length_map, List.length_range] at hl hp
    exact ⟨hl, hp⟩
  have hlen' : (PieceManager.imported manifest m).states.length = manifest.pieceCount := by
    have hl := congrArg List.length (hm.imported.pieces.trans hmanifest)
    simpa [PieceManager.indices] using hl
  have hvalid : validatePieceMapForManifest manifest m.exportPieceMap = .ok () := by
    simp [validatePieceMapForManifest, PieceManager.exportPieceMap, hm.file, hlen.1]
  -- importing forgets what was in flight, never what was verified
  have hverified : (PieceManager.imported manifest m).getVerifiedPieces = m.getVerifiedPieces := by
    rw [hto.getVerifiedPieces, hfrom.getVerifiedPieces, hm.imported.pieces, hm.pieces]
    refine List.filter_congr fun i hi => ?_
    rw [← hm.pieces] at hi
    obtain ⟨s, hs, rfl⟩ := List.mem_map.1 hi
    obtain ⟨j, hj⟩ := List.getElem?_of_mem hs
    have hreq : m.requirePiece s.index = .ok s :=
      PieceManager.requirePiece_eq_ok.2 ⟨by rw [hfrom.index_eq hj, hj], rfl⟩
    obtain ⟨fresh, hfresh⟩ := PieceManager.requirePiece_imported hm hmanifest hreq
    simp only [PieceManager.status?, hreq, hfresh, importPiece_status]
    cases s.status <;> simp [PieceStatus.imported]
  have hstart : e.restoreResumeState t manifest m.exportPieceMap = e.restoreLoop t
      ⟨manifest, PieceManager.imported manifest m, m.getVerifiedPieces, []⟩ := by
    simp only [restoreResumeState, hvalid, hm.importPieceMap hmanifest, hverified]
  rw [hstart]
  have hloop := restoreLoop_reaches cfg store ht below
    ⟨manifest, PieceManager.imported manifest m, m.getVerifiedPieces, []⟩ hready hto
    (fun i hi => ?_) (nodup_verified hfrom)
  · simpa [resumed, restoreResult] using hloop
  · have hmem : i ∈ m.indices := by
      rw [hfrom.getVerifiedPieces] at hi
      exact (List.mem_filter.1 hi).1
    rw [hm.pieces, hmanifest, List.mem_range] at hmem
    simp only [hlen', hlen.2]
    exact ⟨hmem, hmem⟩

end Exported

/-- A restored piece map says exactly which of the recorded pieces are still stored. -/
theorem resume_is_exact {σ : Type} [StorageAdapter σ] (store : Contents σ) (cfg : Config)
    (manifest : FileManifest) (m : PieceManager) (e : Engine σ) (t : Turn)
    (hmanifest : manifest.pieces.map (·.index) = List.range manifest.pieceCount)
    (hm : m.Of manifest) (hready : store.Ready e.storage) (ht : t.storing) :
    ∃ s result, Engine.Returns cfg Turn.storing
        (e.restoreResumeState t manifest m.exportPieceMap) { e with storage := s }
        (.ok (.restored result)) ∧
      result.verifiedPieces =
        m.getVerifiedPieces.filter (intact cfg manifest (store.bytes e.storage manifest.fileId)) ∧
      result.discardedPieces = m.getVerifiedPieces.filter
        (fun i => !intact cfg manifest (store.bytes e.storage manifest.fileId) i) ∧
      (∀ f i, store.bytes s f i =
        if f = manifest.fileId ∧ i ∈ result.discardedPieces then none
        else store.bytes e.storage f i) ∧
      (∀ i, m.status? i = some .requested ∨ m.status? i = some .receiving →
        i ∈ result.missingPieces ∧ result.manager.status? i = some .missing) ∧
      ∃ s' again, Engine.Returns cfg Turn.storing
          (Engine.restoreResumeState { e with storage := s } t manifest
            result.manager.exportPieceMap) { e with storage := s' } (.ok (.restored again)) ∧
        again.discardedPieces = [] ∧ again.verifiedPieces = result.verifiedPieces ∧
        ∀ f i, store.bytes s' f i = store.bytes s f i := by
  obtain ⟨s, hs, hbytes, hreach⟩ := restoreResumeState_reaches cfg store ht hready hm
    hmanifest []
  have hm' := resumed_of cfg (store.bytes e.storage manifest.fileId) hm
  obtain ⟨s', -, hbytes', hreach'⟩ := restoreResumeState_reaches cfg
    (e := { e with storage := s }) store ht hs hm' hmanifest []
  have hagain : Engine.lost cfg manifest (store.bytes s manifest.fileId)
      (Engine.resumed cfg manifest (store.bytes e.storage manifest.fileId) m).manager.getVerifiedPieces
      = [] := by
    refine resumed_again hm hmanifest fun i hi => ?_
    rw [hbytes, if_neg]
    exact fun h => hi h.2
  simp only [hagain, List.not_mem_nil, and_false, if_false] at hbytes'
  refine ⟨s, _, hreach.returns, resumed_verified cfg _ hm hmanifest, rfl, hbytes, fun i hi => ?_,
    s', _, hreach'.returns, hagain, ?_, hbytes'⟩
  · have hst : ∃ p, m.requirePiece i = .ok p ∧ p.status.imported = .missing := by
      rcases hi with hi | hi
      · obtain ⟨p, hp, hpst⟩ := PieceManager.status?_eq_some.1 hi
        exact ⟨p, hp, by rw [hpst]; rfl⟩
      · obtain ⟨p, hp, hpst⟩ := PieceManager.status?_eq_some.1 hi
        exact ⟨p, hp, by rw [hpst]; rfl⟩
    obtain ⟨p, hp, hpst⟩ := hst
    obtain ⟨p', hp', hst', -⟩ := resumed_piece cfg
      (store.bytes e.storage manifest.fileId) hm hmanifest hp
    have hmissing : (Engine.resumed cfg manifest (store.bytes e.storage manifest.fileId)
        m).manager.status? i = some .missing := by
      refine PieceManager.status?_eq_some.2 ⟨p', hp', ?_⟩
      rw [hst']
      split
      · rfl
      · exact hpst
    exact ⟨PieceManager.mem_getMissingPieces_of_status (.inl hmissing), hmissing⟩
  · have hverified := resumed_verified cfg (store.bytes s manifest.fileId)
      hm' hmanifest
    rw [hverified]
    exact List.filter_eq_self.2 fun i hi => by
      have hnot := List.filter_eq_nil_iff.1 hagain i hi
      simpa using hnot

namespace Sample

/-- Both pieces are recorded, the bytes of the second one have changed. -/
def recorded : PieceManager :=
  ⟨"f", [⟨0, .verified, 1, 1, 0, none, none⟩, ⟨1, .verified, 1, 1, 0, none, none⟩]⟩

def halfIntact : MemoryStorageAdapter :=
  { MemoryStorageAdapter.empty with
    sessionId := some "s"
    pieces := (OrderedMap.empty.set "s:f:0" [1]).set "s:f:1" [2] }

end Sample

theorem resume_is_exact_halfIntact : ∃ s result,
    Engine.Returns Sample.config Turn.storing
      ((Engine.new Sample.halfIntact true).restoreResumeState Sample.turn Sample.pair
        Sample.recorded.exportPieceMap)
      { Engine.new Sample.halfIntact true with storage := s } (.ok (.restored result)) ∧
    result.verifiedPieces = [0] ∧ result.discardedPieces = [1] := by
  obtain ⟨s, result, hreturns, hverified, hdiscarded, -⟩ :=
    resume_is_exact (MemoryStorageAdapter.contents "s") Sample.config Sample.pair Sample.recorded
      (Engine.new Sample.halfIntact true) Sample.turn (by decide) ⟨rfl, by decide⟩ rfl rfl
  refine ⟨s, result, hreturns, hverified.trans ?_, hdiscarded.trans ?_⟩
  · decide +kernel
  · decide +kernel

end PonsWarp.Core
