import PonsWarp.Core.Restores

set_option autoImplicit false

/-!
The managers an engine has in use. They are made from registered manifests, restored or
not, and their methods never change how many pieces there are, nor the index or the size
of one; so whatever depends on that alone holds of all of them once it holds of the new ones.
-/

namespace PonsWarp.Core

open PonsWarp.Data

/-- The index and the size of every piece. -/
def FileManifest.outline (m : FileManifest) : List (Nat × Nat) :=
  m.pieces.map fun p => (p.index, p.size)

namespace PieceManager

/-- What no method of a manager changes: its file, and the index and size of its pieces. -/
def shape (m : PieceManager) : FileId × List (Nat × Nat) :=
  (m.fileId, m.states.map fun s => (s.index, s.size))

theorem shape_new (manifest : FileManifest) :
    (new manifest.fileId manifest.pieces).shape = (manifest.fileId, manifest.outline) := by
  simp [shape, new, FileManifest.outline, Function.comp_def]

theorem shape_update {m m' : PieceManager} {i : Nat} {patch : PieceState → PieceState}
    (hkeep : ∀ s, (patch s).index = s.index ∧ (patch s).size = s.size)
    (h : m.update i patch = .ok m') : m'.shape = m.shape := by
  unfold update at h
  cases hr : m.requirePiece i with
  | error e => simp [hr] at h
  | ok s =>
    simp only [hr, Except.ok.injEq] at h
    subst h
    obtain ⟨hlt, hs⟩ := List.getElem?_eq_some_iff.1 (requirePiece_eq_ok.1 hr).1
    have hlt' : i < (m.states.map fun s => (s.index, s.size)).length := by simpa using hlt
    have hsame : ((patch s).index, (patch s).size) =
        (m.states.map fun s => (s.index, s.size))[i] := by
      simp [hs, (hkeep s).1, (hkeep s).2]
    simp only [shape, List.map_set, hsame, List.set_getElem_self]

theorem shape_markRequested {m m' : PieceManager} {i : Nat} {p : PeerId}
    (h : m.markRequested i p = .ok m') : m'.shape = m.shape := by
  unfold markRequested at h
  exact shape_update (by intro _; exact ⟨rfl, rfl⟩) h

theorem shape_markVerified {m m' : PieceManager} {i : Nat} (h : m.markVerified i = .ok m') :
    m'.shape = m.shape := by
  unfold markVerified at h
  exact shape_update (by intro _; exact ⟨rfl, rfl⟩) h

theorem shape_markFailed {m m' : PieceManager} {i : Nat} {r : String}
    (h : m.markFailed i r = .ok m') : m'.shape = m.shape := by
  unfold markFailed at h
  exact shape_update (by intro _; exact ⟨rfl, rfl⟩) h

theorem shape_resetFailedToMissing {m m' : PieceManager} {i : Nat}
    (h : m.resetFailedToMissing i = .ok m') : m'.shape = m.shape := by
  unfold resetFailedToMissing at h
  refine shape_update (fun s => ?_) h
  split <;> exact ⟨rfl, rfl⟩

theorem shape_importPieces {m m' : PieceManager} {l : List PieceState}
    (h : m.importPieces l = .ok m') : m'.shape = m.shape := by
  induction l generalizing m with
  | nil =>
    cases h
    rfl
  | cons imported rest ih =>
    unfold importPieces at h
    split at h
    · cases h
    · rename_i m1 h1
      have hkeep : ∀ s, (importPiece imported s).index = s.index ∧
          (importPiece imported s).size = s.size := by
        intro s
        unfold importPiece
        split <;> exact ⟨rfl, rfl⟩
      exact (ih h).trans (shape_update hkeep h1)

theorem shape_importPieceMap {m m' : PieceManager} {pieceMap : PieceMap}
    (h : m.importPieceMap pieceMap = .ok m') : m'.shape = m.shape := by
  unfold importPieceMap at h
  split at h
  · cases h
  · exact shape_importPieces h

/-- A restored manager has the shape of the manifest it is restored for. -/
theorem shape_restored {manifest : FileManifest} {pieceMap : PieceMap} {m : PieceManager}
    (h : (new manifest.fileId manifest.pieces).importPieceMap pieceMap = .ok m) :
    m.shape = (manifest.fileId, manifest.outline) :=
  (shape_importPieceMap h).trans (shape_new manifest)

end PieceManager

/-- `R` holds of the managers that are made from manifests with `Q`, and depends on their
shape alone. -/
structure Made (Q : FileManifest → Prop) (R : FileId → PieceManager → Prop) : Prop where
  new : ∀ m, Q m → R m.fileId (PieceManager.new m.fileId m.pieces)
  congr : ∀ f m m', m'.shape = m.shape → R f m → R f m'

namespace Engine

variable {σ : Type}

/-- The registered manifests have `Q` and the managers in use `R`. -/
structure Stocked (Q : FileManifest → Prop) (R : FileId → PieceManager → Prop) (e : Engine σ) :
    Prop where
  manifests : ∀ f m, e.manifests.get? f = some m → m.fileId = f ∧ Q m
  managers : ∀ f ref, e.managers.get? f = some ref → (e.manifests.get? f).isSome ∧
    ref < e.heap.length ∧ R f (e.managerAt ref)

variable {e e' : Engine σ} {Q : FileManifest → Prop} {R : FileId → PieceManager → Prop}

theorem Stocked.congr (h : e.Stocked Q R) (hR : Made Q R) (hm : e'.manifests = e.manifests)
    (hr : e'.managers = e.managers) (hh : e'.heap.length = e.heap.length)
    (hs : ∀ ref, (e'.managerAt ref).shape = (e.managerAt ref).shape) : e'.Stocked Q R := by
  constructor
  · intro f m hf
    exact h.manifests f m (hm ▸ hf)
  · intro f ref hf
    obtain ⟨hsome, hlt, hmanager⟩ := h.managers f ref (hr ▸ hf)
    exact ⟨hm ▸ hsome, hh ▸ hlt, hR.congr f _ _ (hs ref) hmanager⟩

theorem Stocked.putManager (h : e.Stocked Q R) (hR : Made Q R) {ref : Nat} {m : PieceManager}
    (hm : m.shape = (e.managerAt ref).shape) : (e.putManager ref m).Stocked Q R := by
  refine h.congr hR rfl rfl (by simp [Engine.putManager]) fun ref' => ?_
  rw [managerAt_putManager]
  split
  · rename_i heq
    rw [heq.1, hm]
  · rfl

theorem Stocked.install (h : e.Stocked Q R) {f : FileId} {m : PieceManager}
    (hf : (e.manifests.get? f).isSome) (hm : R f m) : (e.installManager f m).Stocked Q R := by
  refine ⟨h.manifests, fun g ref hg => ?_⟩
  simp only [installManager, OrderedMap.get?_set] at hg
  by_cases hgf : g = f
  · subst hgf
    simp only [if_true, Option.some.injEq] at hg
    subst hg
    exact ⟨hf, by simp [installManager], by simpa [managerAt, installManager] using hm⟩
  · simp only [hgf, if_false] at hg
    obtain ⟨hsome, hlt, hmanager⟩ := h.managers g ref hg
    refine ⟨hsome, by simp only [installManager, List.length_append]; omega, ?_⟩
    simpa [managerAt, installManager, List.getElem?_append_left hlt] using hmanager

theorem Stocked.register (h : e.Stocked Q R) (hR : Made Q R) {m : FileManifest} (hm : Q m) :
    (e.registerManifest m).Stocked Q R := by
  have hset : ∀ f m', (e.manifests.set m.fileId m).get? f = some m' → m'.fileId = f ∧ Q m' := by
    intro f m' hf
    rw [OrderedMap.get?_set] at hf
    by_cases hfm : f = m.fileId
    · simp only [hfm, if_true, Option.some.injEq] at hf
      subst hf
      exact ⟨hfm.symm, hm⟩
    · simp only [hfm, if_false] at hf
      exact h.manifests f m' hf
  have hsome : ∀ f, (e.manifests.get? f).isSome → ((e.manifests.set m.fileId m).get? f).isSome := by
    intro f hf
    rw [OrderedMap.get?_set]
    split
    · rfl
    · exact hf
  have hbase : Engine.Stocked Q R { e with manifests := e.manifests.set m.fileId m } :=
    ⟨hset, fun f ref hf => (h.managers f ref hf).imp_left (hsome f)⟩
  unfold registerManifest
  simp only
  split
  · exact hbase
  · exact hbase.install (by simp) (hR.new m hm)

end Engine

section

variable {σ : Type} [StorageAdapter σ] {cfg : Config} {Q : FileManifest → Prop}
variable {R : FileId → PieceManager → Prop}

theorem Change.stocked {t : Turn} {G : Grant} {e e' : Engine σ} (hc : Change t G e e')
    (hR : Made Q R) (h : e.Stocked Q R) (hregister : ∀ m, G (.register m) → Q m)
    (hinstall : ∀ f m, G (.install f m) → (e.manifests.get? f).isSome ∧ R f m) :
    e'.Stocked Q R := by
  cases hc with
  | fail ref i reason m hm => exact h.putManager hR (PieceManager.shape_markFailed hm)
  | reset ref i m hm => exact h.putManager hR (PieceManager.shape_resetFailedToMissing hm)
  | verify ref i m hm => exact h.putManager hR (PieceManager.shape_markVerified hm)
  | ask ref m p requestId r hm =>
    have hput := h.putManager hR (PieceManager.shape_markRequested hm)
    exact hput.congr hR rfl rfl rfl fun _ => rfl
  | register m hg => exact h.register hR (hregister m hg)
  | install f m hg => exact h.install (hinstall f m hg).1 (hinstall f m hg).2
  | _ => exact h.congr hR rfl rfl rfl fun _ => rfl

/-- Manifests are replaced but never taken away. -/
theorem Change.known {t : Turn} {G : Grant} {e e' : Engine σ} (hc : Change t G e e') {f : FileId}
    (h : (e.manifests.get? f).isSome) : (e'.manifests.get? f).isSome := by
  cases hc with
  | register m hg =>
    have hset : ((e.manifests.set m.fileId m).get? f).isSome := by
      rw [OrderedMap.get?_set]
      split
      · rfl
      · exact h
    unfold Engine.registerManifest
    simp only
    split <;> exact hset
  | _ => exact h

/-- The managers that are being restored have `R` too. -/
def World.Stocked (Q : FileManifest → Prop) (R : FileId → PieceManager → Prop) (w : World σ) :
    Prop :=
  w.engine.Stocked Q R ∧ ∀ task ∈ w.tasks, task.Restores fun f m =>
    (w.engine.manifests.get? f).isSome ∧ R f m

omit [StorageAdapter σ] in
theorem stocked_new (storage : σ) (transport : Bool) :
    (World.new storage transport).Stocked Q R := by
  refine ⟨⟨?_, ?_⟩, by simp [World.new]⟩
  · rintro f m ⟨⟩
  · rintro f ref ⟨⟩

theorem World.Stocked.step {w : World σ} {x : Turn × Action} (h : w.Stocked Q R) (hR : Made Q R)
    (hQ : ∀ m ∈ w.registered x.2, Q m) : (w.step cfg x).Stocked Q R := by
  obtain ⟨t, a⟩ := x
  obtain ⟨hengine, htasks⟩ := h
  have hkeeps : ∀ e e' : Engine σ, Change t (w.grant (t, a)) e e' →
      e.Stocked Q R ∧ (∀ f, (w.engine.manifests.get? f).isSome → (e.manifests.get? f).isSome) →
      e'.Stocked Q R ∧ ∀ f, (w.engine.manifests.get? f).isSome →
        (e'.manifests.get? f).isSome := by
    rintro e e' hc ⟨he, hknown⟩
    refine ⟨hc.stocked hR he (fun m hg => hQ m (World.grant_register hg)) fun f m hg => ?_,
      fun f hf => hc.known (hknown f hf)⟩
    obtain ⟨hsome, hm⟩ := World.grant_install htasks hg
    exact ⟨hknown f hsome, hm⟩
  obtain ⟨hengine', hknown⟩ :=
    Changes.keeps hkeeps (World.step_spec cfg w t a).changes ⟨hengine, fun f hf => hf⟩
  refine ⟨hengine', ?_⟩
  apply World.step_restores
  · exact fun task htask => (htasks task htask).mono fun f m hm => ⟨hknown f hm.1, hm.2⟩
  · intro f manifest pieceMap m _ hm himport
    obtain ⟨rfl, hmanifest⟩ := hengine'.manifests f manifest hm
    refine ⟨by rw [hm]; rfl, hR.congr _ _ _ ?_ (hR.new manifest hmanifest)⟩
    exact PieceManager.shape_importPieceMap himport
  · intro f index reason m m' m'' hm hfail hreset
    refine ⟨hm.1, hR.congr f m m'' ?_ hm.2⟩
    rw [PieceManager.shape_resetFailedToMissing hreset, PieceManager.shape_markFailed hfail]

end

end PonsWarp.Core
