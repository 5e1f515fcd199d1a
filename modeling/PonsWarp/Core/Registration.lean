import PonsWarp.Core.PieceCounts

set_option autoImplicit false

/-!
Manifests and the managers made from them. `registerManifest` replaces the manifest
of a file and keeps the manager it finds, so the two stay in step only as long as
every manifest of a file lists the same pieces.
-/

namespace PonsWarp.Core

open PonsWarp.Data

/-- Every manifest of a file that is registered lists the pieces `N` has for it, and is one
that can be persisted. -/
def Uniform {σ : Type} (N : FileId → List (Nat × Nat)) (w : World σ) (x : Turn × Action) : Prop :=
  ∀ m ∈ w.registered x.2, validateManifestShape m = .ok () ∧ m.outline = N m.fileId

instance {σ : Type} (N : FileId → List (Nat × Nat)) (w : World σ) (x : Turn × Action) :
    Decidable (Uniform N w x) :=
  inferInstanceAs (Decidable (∀ _ ∈ _, _))

theorem validateManifestShape_eq_ok {m : FileManifest} (h : validateManifestShape m = .ok ()) :
    m.fileId ≠ "" ∧ m.pieces.length = m.pieceCount := by
  unfold validateManifestShape at h
  split at h
  · cases h
  · split at h
    · cases h
    · rename_i hid
      split at h
      · cases h
      · split at h
        · cases h
        · rename_i hlen
          exact ⟨hid, not_not.1 hlen⟩

/-- The manifests of `createSession` can always be persisted. -/
theorem createManifest_shape {hash : ArrayBuffer → String} {file : Blob} {pieceSize : Number}
    {includeFileHash : Bool} {fileId : FileId} {m : FileManifest} (hid : fileId ≠ "")
    (h : Engine.createManifest hash file pieceSize includeFileHash fileId = .ok m) :
    validateManifestShape m = .ok () := by
  unfold Engine.createManifest at h
  cases hs : assertPositiveSafeInteger pieceSize "pieceSize" with
  | error err => simp [hs] at h
  | ok u =>
    have hpos : 0 < pieceSize := by
      unfold assertPositiveSafeInteger at hs
      split at hs
      · cases hs
      · rename_i hbad
        exact lt_of_not_ge fun hle => hbad (.inr hle)
    have hnum : 0 < pieceSize.num := Rat.num_pos.2 hpos
    simp only [hs] at h
    split at h
    · cases h
    · cases h
      have hsize : ¬ pieceSize.num.toNat = 0 := by omega
      simp [validateManifestShape, hid, hsize]

namespace Engine

variable {σ : Type}

/-- Manifests and managers agree with `N`, and each file has both or neither. -/
structure ShapedBy (N : FileId → List (Nat × Nat)) (e : Engine σ) : Prop where
  manifests : ∀ f m, e.manifests.get? f = some m → m.fileId = f ∧ m.outline = N f ∧
    validateManifestShape m = .ok () ∧ (e.managers.get? f).isSome
  managers : ∀ f ref, e.managers.get? f = some ref → (e.manifests.get? f).isSome ∧
    ref < e.heap.length ∧ (e.managerAt ref).shape = (f, N f)

/-- The piece map of every registered file has the pieces of its manifest, and the state of
the session can be persisted. -/
structure InStep (e : Engine σ) : Prop where
  pieces : ∀ f m, e.manifests.get? f = some m → ∃ ref, e.managers.get? f = some ref ∧
    ((e.managerAt ref).states.map fun s => (s.index, s.size)) = m.outline
  verified : ∀ f m ref, e.manifests.get? f = some m → e.managers.get? f = some ref →
    ∀ i ∈ (e.managerAt ref).getVerifiedPieces, i ∈ m.pieces.map (·.index)
  saved : ∀ s, s ≠ "" → validatePersistedSessionState (e.persistedState s) = .ok ()

variable {e e' : Engine σ} {N : FileId → List (Nat × Nat)}

theorem ShapedBy.congr (h : e.ShapedBy N) (hm : e'.manifests = e.manifests)
    (hr : e'.managers = e.managers) (hh : e'.heap.length = e.heap.length)
    (hs : ∀ ref, (e'.managerAt ref).shape = (e.managerAt ref).shape) : e'.ShapedBy N := by
  constructor
  · intro f m hf
    rw [hr]
    exact h.manifests f m (hm ▸ hf)
  · intro f ref hf
    rw [hm, hh, hs]
    exact h.managers f ref (hr ▸ hf)

theorem ShapedBy.putManager (h : e.ShapedBy N) {ref : Nat} {m : PieceManager}
    (hm : m.shape = (e.managerAt ref).shape) : (e.putManager ref m).ShapedBy N := by
  refine h.congr rfl rfl (by simp [Engine.putManager]) fun ref' => ?_
  rw [managerAt_putManager]
  split
  · rename_i heq
    rw [heq.1, hm]
  · rfl

theorem ShapedBy.install (h : e.ShapedBy N) {f : FileId} {m : PieceManager}
    (hf : (e.manifests.get? f).isSome) (hm : m.shape = (f, N f)) :
    (e.installManager f m).ShapedBy N := by
  constructor
  · intro g manifest hg
    obtain ⟨hid, hN, hvalid, hsome⟩ := h.manifests g manifest hg
    refine ⟨hid, hN, hvalid, ?_⟩
    simp only [installManager, OrderedMap.get?_set]
    split
    · rfl
    · exact hsome
  · intro g ref hg
    simp only [installManager, OrderedMap.get?_set] at hg
    by_cases hgf : g = f
    · subst hgf
      simp only [if_true, Option.some.injEq] at hg
      subst hg
      exact ⟨hf, by simp [installManager], by simpa [managerAt, installManager] using hm⟩
    · simp only [hgf, if_false] at hg
      obtain ⟨hsome, hlt, hshape⟩ := h.managers g ref hg
      refine ⟨hsome, by simp only [installManager, List.length_append]; omega, ?_⟩
      simpa [managerAt, installManager, List.getElem?_append_left hlt] using hshape

theorem ShapedBy.register (h : e.ShapedBy N) {m : FileManifest}
    (hvalid : validateManifestShape m = .ok ()) (hN : m.outline = N m.fileId) :
    (e.registerManifest m).ShapedBy N := by
  have hset : ∀ f m', (e.manifests.set m.fileId m).get? f = some m' →
      m'.fileId = f ∧ m'.outline = N f ∧ validateManifestShape m' = .ok () ∧
        (f ≠ m.fileId → (e.managers.get? f).isSome) := by
    intro f m' hf
    rw [OrderedMap.get?_set] at hf
    by_cases hfm : f = m.fileId
    · simp only [hfm, if_true, Option.some.injEq] at hf
      subst hf
      exact ⟨hfm.symm, hfm ▸ hN, hvalid, fun hne => absurd hfm hne⟩
    · simp only [hfm, if_false] at hf
      obtain ⟨hid, hN', hvalid', hsome⟩ := h.manifests f m' hf
      exact ⟨hid, hN', hvalid', fun _ => hsome⟩
  have hknown : ∀ f, (e.manifests.get? f).isSome → ((e.manifests.set m.fileId m).get? f).isSome := by
    intro f hf
    rw [OrderedMap.get?_set]
    split
    · rfl
    · exact hf
  unfold registerManifest
  simp only
  cases hmanager : e.managers.get? m.fileId with
  | some ref =>
    constructor
    · intro f m' hf
      obtain ⟨hid, hN', hvalid', hsome⟩ := hset f m' hf
      refine ⟨hid, hN', hvalid', ?_⟩
      by_cases hfm : f = m.fileId
      · rw [hfm, hmanager]
        rfl
      · exact hsome hfm
    · intro f ref' hf
      obtain ⟨hsome, hrest⟩ := h.managers f ref' hf
      exact ⟨hknown f hsome, hrest⟩
  | none =>
    constructor
    · intro f m' hf
      obtain ⟨hid, hN', hvalid', hsome⟩ := hset f m' hf
      refine ⟨hid, hN', hvalid', ?_⟩
      rw [OrderedMap.get?_set]
      split
      · rfl
      · rename_i hfm
        exact hsome hfm
    · intro f ref hf
      simp only [OrderedMap.get?_set] at hf
      by_cases hfm : f = m.fileId
      · simp only [hfm, if_true, Option.some.injEq] at hf
        subst hf hfm
        refine ⟨by simp, by simp, ?_⟩
        simpa [managerAt, hN] using PieceManager.shape_new m
      · simp only [hfm, if_false] at hf
        obtain ⟨hsome, hlt, hshape⟩ := h.managers f ref hf
        refine ⟨hknown f hsome, by simp only [List.length_append]; omega, ?_⟩
        simpa [managerAt, List.getElem?_append_left hlt] using hshape

/-- The state a shaped engine would save. -/
theorem ShapedBy.saved (h : e.ShapedBy N) {s : SessionId} (hs : s ≠ "") :
    validatePersistedSessionState (e.persistedState s) = .ok () := by
  have hmanifest : ∀ m ∈ e.manifests.values, m.fileId ≠ "" ∧ m.pieces.length = m.pieceCount ∧
      m.outline = N m.fileId := by
    intro m hm
    obtain ⟨f, hf⟩ := OrderedMap.mem_values_iff.1 hm
    obtain ⟨rfl, hN, hvalid, -⟩ := h.manifests f m hf
    obtain ⟨hne, hlen⟩ := validateManifestShape_eq_ok hvalid
    exact ⟨hne, hlen, hN⟩
  have hmanifests : forEach validateManifestShape e.manifests.values = .ok () := by
    refine forEach_eq_ok.2 fun m hm => ?_
    obtain ⟨f, hf⟩ := OrderedMap.mem_values_iff.1 hm
    exact (h.manifests f m hf).2.2.1
  -- the map of a manager names a registered file and has as many pieces as its manifest
  have hmap : ∀ pieceMap ∈ e.managers.values.map fun ref => (e.managerAt ref).exportPieceMap,
      (∃ m ∈ e.manifests.values, m.fileId = pieceMap.fileId) ∧
        pieceMap.pieces.length = (N pieceMap.fileId).length := by
    intro pieceMap hmem
    obtain ⟨ref, href, rfl⟩ := List.mem_map.1 hmem
    obtain ⟨f, hf⟩ := OrderedMap.mem_values_iff.1 href
    obtain ⟨hsome, -, hshape⟩ := h.managers f ref hf
    obtain ⟨m, hm⟩ := Option.isSome_iff_exists.1 hsome
    obtain ⟨hid, hpieces⟩ := Prod.mk.inj hshape
    constructor
    · refine ⟨m, OrderedMap.mem_values_iff.2 ⟨f, hm⟩, ?_⟩
      rw [(h.manifests f m hm).1]
      exact hid.symm
    · have hlen := congrArg List.length hpieces
      rw [List.length_map] at hlen
      simp only [PieceManager.exportPieceMap, hid]
      exact hlen
  have hmaps : forEach validatePieceMapShape
      (e.managers.values.map fun ref => (e.managerAt ref).exportPieceMap) = .ok () := by
    refine forEach_eq_ok.2 fun pieceMap hmem => ?_
    obtain ⟨⟨m, hm, hid⟩, -⟩ := hmap pieceMap hmem
    have hne : pieceMap.fileId ≠ "" := hid ▸ (hmanifest m hm).1
    simp [validatePieceMapShape, hne]
  unfold validatePersistedSessionState
  simp only [persistedState, hs, hmanifests, hmaps, ne_eq, not_true_eq_false, if_false, forEach]
  rw [if_neg (by simp)]
  refine forEach_eq_ok.2 fun pieceMap hmem => ?_
  obtain ⟨⟨m, hm, hid⟩, hlen⟩ := hmap pieceMap hmem
  cases hfind : e.manifests.values.find? fun m => m.fileId = pieceMap.fileId with
  | none =>
    have hno := List.find?_eq_none.1 hfind m hm
    exact absurd hid (by simpa using hno)
  | some found =>
    have hfound : found.fileId = pieceMap.fileId := by simpa using List.find?_some hfind
    obtain ⟨-, hcount, hN⟩ := hmanifest found (List.mem_of_find?_eq_some hfind)
    have hpieces : pieceMap.pieces.length = found.pieceCount := by
      rw [hlen, ← hfound, ← hN, ← hcount]
      simp [FileManifest.outline]
    simp [validatePieceMapForManifest, hfound, hpieces]

theorem ShapedBy.inStep (h : e.ShapedBy N) : e.InStep := by
  have hpieces : ∀ f m ref, e.manifests.get? f = some m → e.managers.get? f = some ref →
      ((e.managerAt ref).states.map fun s => (s.index, s.size)) = m.outline := by
    intro f m ref hm href
    rw [(h.manifests f m hm).2.1]
    exact (Prod.mk.inj (h.managers f ref href).2.2).2
  constructor
  · intro f m hm
    obtain ⟨ref, href⟩ := Option.isSome_iff_exists.1 (h.manifests f m hm).2.2.2
    exact ⟨ref, href, hpieces f m ref hm href⟩
  · intro f m ref hm href i hi
    obtain ⟨s, hs, rfl⟩ := List.mem_map.1 hi
    have hmem : (s.index, s.size) ∈ m.outline := by
      rw [← hpieces f m ref hm href]
      exact List.mem_map.2 ⟨s, (List.mem_filter.1 hs).1, rfl⟩
    obtain ⟨p, hp, hsame⟩ := List.mem_map.1 hmem
    exact List.mem_map.2 ⟨p, hp, (Prod.mk.inj hsame).1⟩
  · exact fun s hs => h.saved hs

end Engine

section

variable {σ : Type} [StorageAdapter σ]

/-- `P` outlives every operation of the storage that saves no invalid state. -/
structure Undamaged (P : σ → Prop) : Prop where
  init : ∀ sessionId s, P s → P (StorageAdapter.init sessionId s).2
  writePiece : ∀ f i data s, P s → P (StorageAdapter.writePiece f i data s).2
  readPiece : ∀ f i s, P s → P (StorageAdapter.readPiece f i s).2
  deletePiece : ∀ f i s, P s → P (StorageAdapter.deletePiece f i s).2
  loadState : ∀ sessionId s, P s → P (StorageAdapter.loadState sessionId s).2
  saveState : ∀ state s, validatePersistedSessionState state = .ok () → P s →
    P (StorageAdapter.saveState state s).2

variable {e e' : Engine σ} {t : Turn} {G : Grant} {N : FileId → List (Nat × Nat)}
variable {cfg : Config}

theorem Change.shapedBy (hc : Change t G e e') (h : e.ShapedBy N)
    (hregister : ∀ m, G (.register m) →
      validateManifestShape m = .ok () ∧ m.outline = N m.fileId)
    (hinstall : ∀ f m, G (.install f m) → (e.manifests.get? f).isSome ∧ m.shape = (f, N f)) :
    e'.ShapedBy N := by
  cases hc with
  | fail ref i reason m hm => exact h.putManager (PieceManager.shape_markFailed hm)
  | reset ref i m hm => exact h.putManager (PieceManager.shape_resetFailedToMissing hm)
  | verify ref i m hm => exact h.putManager (PieceManager.shape_markVerified hm)
  | ask ref m p requestId r hm =>
    exact (h.putManager (PieceManager.shape_markRequested hm)).congr rfl rfl rfl fun _ => rfl
  | register m hg => exact h.register (hregister m hg).1 (hregister m hg).2
  | install f m hg => exact h.install (hinstall f m hg).1 (hinstall f m hg).2
  | _ => exact h.congr rfl rfl rfl fun _ => rfl

/-- A shaped engine saves valid states only. -/
theorem Change.undamaged {P : σ → Prop} (hP : Undamaged P) (hc : Change t G e e')
    (h : e.ShapedBy N) (he : P e.storage) : P e'.storage := by
  cases hc with
  | save s hs hne => exact hP.saveState _ _ (h.saved hne) he
  | load s => exact hP.loadState s _ he
  | read f i => exact hP.readPiece f i _ he
  | write f i data hg => exact hP.writePiece f i data _ he
  | erase f i hg => exact hP.deletePiece f i _ he
  | init s hg => exact hP.init s _ he
  | register m hg =>
    unfold Engine.registerManifest
    simp only
    split <;> exact he
  | _ => exact he

/-- Every manager, restored ones too, has the shape of its file. -/
def World.ShapedBy (N : FileId → List (Nat × Nat)) (w : World σ) : Prop :=
  w.engine.ShapedBy N ∧ ∀ task ∈ w.tasks, task.Restores fun f m =>
    (w.engine.manifests.get? f).isSome ∧ m.shape = (f, N f)

theorem World.ShapedBy.step {w : World σ} {x : Turn × Action} (h : w.ShapedBy N)
    (hfit : Uniform N w x) : (w.step cfg x).ShapedBy N ∧
      ∀ P, Undamaged P → P w.engine.storage → P (w.step cfg x).engine.storage := by
  obtain ⟨t, a⟩ := x
  obtain ⟨hengine, htasks⟩ := h
  have hshaped : ∀ e e' : Engine σ, Change t (w.grant (t, a)) e e' →
      e.ShapedBy N ∧ (∀ f, (w.engine.manifests.get? f).isSome → (e.manifests.get? f).isSome) →
      e'.ShapedBy N ∧ ∀ f, (w.engine.manifests.get? f).isSome → (e'.manifests.get? f).isSome := by
    rintro e e' hc ⟨he, hknown⟩
    refine ⟨hc.shapedBy he (fun m hg => hfit m (World.grant_register hg)) fun f m hg => ?_,
      fun f hf => hc.known (hknown f hf)⟩
    obtain ⟨hsome, hshape⟩ := World.grant_install htasks hg
    exact ⟨hknown f hsome, hshape⟩
  have hchanges := (World.step_spec cfg w t a).changes
  obtain ⟨hengine', hknown⟩ := Changes.keeps hshaped hchanges ⟨hengine, fun f hf => hf⟩
  refine ⟨⟨hengine', ?_⟩, fun P hP hstart => ?_⟩
  · apply World.step_restores
    · exact fun task htask => (htasks task htask).mono fun f m hm => ⟨hknown f hm.1, hm.2⟩
    · intro f manifest pieceMap m _ hm himport
      obtain ⟨hid, hN, -, -⟩ := hengine'.manifests f manifest hm
      have hshape := PieceManager.shape_restored himport
      rw [hid, hN] at hshape
      exact ⟨by rw [hm]; rfl, hshape⟩
    · intro f index reason m m' m'' hm hfail hreset
      rw [PieceManager.shape_resetFailedToMissing hreset, PieceManager.shape_markFailed hfail]
      exact hm
  · have hboth : ∀ e e' : Engine σ, Change t (w.grant (t, a)) e e' →
        (e.ShapedBy N ∧ ∀ f, (w.engine.manifests.get? f).isSome →
          (e.manifests.get? f).isSome) ∧ P e.storage →
        (e'.ShapedBy N ∧ ∀ f, (w.engine.manifests.get? f).isSome →
          (e'.manifests.get? f).isSome) ∧ P e'.storage :=
      fun e e' hc he => ⟨hshaped e e' hc he.1, hc.undamaged hP he.1.1 he.2⟩
    exact (Changes.keeps hboth hchanges ⟨⟨hengine, fun f hf => hf⟩, hstart⟩).2

/-- As long as the manifests of a file list the same pieces, they stay in step with its
piece map, and nothing but valid states is saved. -/
theorem manifests_stay_in_step (cfg : Config) (N : FileId → List (Nat × Nat)) (storage : σ)
    (transport : Bool) (w : World σ)
    (h : Run (World.step cfg) (Uniform N) (World.new storage transport) w) :
    w.engine.InStep ∧ ∀ P, Undamaged P → P storage → P w.engine.storage := by
  have hnew : (World.new storage transport).ShapedBy N := by
    refine ⟨⟨?_, ?_⟩, by simp [World.new]⟩
    · rintro f m ⟨⟩
    · rintro f ref ⟨⟩
  have hrun : w.ShapedBy N ∧ ∀ P, Undamaged P → P storage → P w.engine.storage := by
    refine h.invariant (P := fun w => w.ShapedBy N ∧
      ∀ P, Undamaged P → P storage → P w.engine.storage) ?_ ⟨hnew, fun P _ hP => hP⟩
    rintro v x ⟨hv, hsaved⟩ hfit
    obtain ⟨hv', hstep⟩ : (v.step cfg x).ShapedBy N ∧ ∀ P, Undamaged P → P v.engine.storage →
        P (v.step cfg x).engine.storage := hv.step hfit
    exact ⟨hv', fun P hP hstart => hstep P hP (hsaved P hP hstart)⟩
  exact ⟨hrun.1.1.inStep, hrun.2⟩

end

theorem manifests_stay_in_step_sample :
    (steps (World.step Sample.config) Sample.start Sample.joined).engine.manifests.get? "f" =
      some Sample.manifest ∧
    (steps (World.step Sample.config) Sample.start Sample.joined).engine.InStep := by
  refine ⟨by decide +kernel, ?_⟩
  exact (manifests_stay_in_step Sample.config (fun _ => [(0, 1)]) MemoryStorageAdapter.empty true _
    (run_of_allowed (by decide +kernel))).1

namespace Sample

/-- A session with one file is created and, on the same engine, another with a longer file. -/
def twoSessions : World MemoryStorageAdapter :=
  steps (World.step config) start
    [(turn, .call (.createSession ⟨"s", 1, false⟩ [⟨"a", "", [1]⟩])), (turn, .resume 0),
     (turn, .resume 0), (turn, .resume 0),
     (turn, .call (.createSession ⟨"t", 1, false⟩ [⟨"b", "", [1, 2]⟩])), (turn, .resume 1),
     (turn, .resume 1)]

end Sample

/-- Both files are `file_0`; the second manifest has two pieces, the manager it finds one,
and the state of the second session cannot be saved. -/
theorem second_session_keeps_old_pieces :
    ∃ w, Run (World.step Sample.config) (fun _ _ => True) Sample.start w ∧
      ¬ w.engine.InStep ∧
      validatePersistedSessionState (w.engine.persistedState "t") ≠ .ok () := by
  refine ⟨Sample.twoSessions, run_steps _ _, fun h => ?_, by decide +kernel⟩
  exact absurd (h.saved "t" (by decide)) (by decide +kernel)

end PonsWarp.Core
