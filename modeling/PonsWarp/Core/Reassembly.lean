import PonsWarp.Core.Contents
import PonsWarp.Core.ManifestGenerator

set_option autoImplicit false

/-!
The ways back from stored pieces to a file: `assembleFile` and the piece stream.
-/

namespace PonsWarp.Core

open PonsWarp.Data

def DEFAULT_SAFE_ASSEMBLE_BYTES : Nat := 256 * 1024 * 1024

def assertSafeAssembleSize (manifest : FileManifest) : Except Failure Unit :=
  if DEFAULT_SAFE_ASSEMBLE_BYTES < manifest.size then
    .error (PonsWarpError "storage:assembly_too_large"
      "File exceeds safe Blob assembly threshold; use saveAssembledFile with a stream sink")
  else .ok ()

def missingPiece (fileId : FileId) (index : Nat) : Failure :=
  PonsWarpError "storage:missing_piece" s!"Missing piece {index} for {fileId}"

section Reading

variable {σ : Type} [StorageAdapter σ]

/-- The loop of `assembleFile`. -/
def assembleParts (fileId : FileId) : List PieceDescriptor → σ → Except Failure (List ArrayBuffer)
  | [], _ => .ok []
  | piece :: rest, s =>
    match StorageAdapter.readPiece fileId piece.index s with
    | (.error err, _) => .error err
    | (.ok none, _) => .error (missingPiece fileId piece.index)
    | (.ok (some data), s) => (assembleParts fileId rest s).map (data :: ·)

/-- The stream of `createBackpressurePieceStream`, between two pulls. -/
structure PieceStream where
  fileId : FileId
  manifest : FileManifest
  nextIndex : Nat

def createReadablePieceStream (fileId : FileId) (manifest : FileManifest) : PieceStream :=
  ⟨fileId, manifest, 0⟩

/-- A pull enqueues the next piece, or closes the stream with `none`. -/
def PieceStream.pull (stream : PieceStream) (s : σ) :
    Except Failure (Option ArrayBuffer) × PieceStream × σ :=
  match stream.manifest.pieces[stream.nextIndex]? with
  | none => (.ok none, stream, s)
  | some piece =>
    let stream := { stream with nextIndex := stream.nextIndex + 1 }
    match StorageAdapter.readPiece stream.fileId piece.index s with
    | (.error err, s) => (.error err, stream, s)
    | (.ok none, s) => (.error (missingPiece stream.fileId piece.index), stream, s)
    | (.ok (some data), s) => (.ok (some data), stream, s)

/-- A reader that takes chunks until the stream is closed; `none` when it is not by then. -/
def PieceStream.readAll (stream : PieceStream) : Nat → σ → Option (Except Failure (List ArrayBuffer))
  | 0, _ => none
  | pulls + 1, s =>
    match stream.pull s with
    | (.error err, _, _) => some (.error err)
    | (.ok none, _, _) => some (.ok [])
    | (.ok (some chunk), stream, s) =>
      (stream.readAll pulls s).map fun chunks => chunks.map (chunk :: ·)

/-- The contents of some pieces, written one after the other. -/
def writePieces (fileId : FileId) (content : Nat → ArrayBuffer) :
    List Nat → σ → Except Failure Unit × σ
  | [], s => (.ok (), s)
  | i :: rest, s =>
    match StorageAdapter.writePiece fileId i (content i) s with
    | (.error err, s) => (.error err, s)
    | (.ok (), s) => writePieces fileId content rest s

/-- A storage that takes pieces as well. -/
structure Archive (σ : Type) [StorageAdapter σ] extends Contents σ where
  write : ∀ s f i data, Ready s → ∃ s', StorageAdapter.writePiece f i data s = (.ok (), s') ∧
    Ready s' ∧ ∀ g j, bytes s' g j = if g = f ∧ j = i then some data else bytes s g j

/-- The pieces of a manifest are in the storage. -/
def Contents.Holds (store : Contents σ) (s : σ) (fileId : FileId) (content : Nat → ArrayBuffer)
    (pieces : List PieceDescriptor) : Prop :=
  store.Ready s ∧ ∀ p ∈ pieces, store.bytes s fileId p.index = some (content p.index)

theorem Archive.written (store : Archive σ) {s : σ} (hready : store.Ready s) (fileId : FileId)
    (content : Nat → ArrayBuffer) (writes : List Nat) :
    ∃ s', writePieces fileId content writes s = (.ok (), s') ∧ store.Ready s' ∧
      ∀ i, store.bytes s' fileId i =
        if i ∈ writes then some (content i) else store.bytes s fileId i := by
  induction writes generalizing s with
  | nil => exact ⟨s, rfl, hready, fun i => by simp⟩
  | cons k rest ih =>
    obtain ⟨s₁, hwrite, hready₁, hbytes₁⟩ := store.write s fileId k (content k) hready
    obtain ⟨s', hrest, hready', hbytes'⟩ := ih hready₁
    refine ⟨s', by simp [writePieces, hwrite, hrest], hready', fun i => ?_⟩
    rw [hbytes', hbytes₁]
    by_cases hi : i = k
    · subst hi
      simp
    · simp [hi]

theorem Contents.Holds.assembleParts {store : Contents σ} {s : σ} {fileId : FileId}
    {content : Nat → ArrayBuffer} {pieces : List PieceDescriptor}
    (h : store.Holds s fileId content pieces) :
    assembleParts fileId pieces s = .ok (pieces.map fun p => content p.index) := by
  obtain ⟨hready, hpieces⟩ := h
  induction pieces with
  | nil => rfl
  | cons p rest ih =>
    have hrest := ih fun q hq => hpieces q (List.mem_cons_of_mem p hq)
    have hread := store.read s fileId p.index hready
    rw [hpieces p List.mem_cons_self] at hread
    simp [Core.assembleParts, hread, hrest, Except.map]

/-- What is left of a stream is read piece by piece until it closes. -/
theorem Contents.Holds.readAll {store : Contents σ} {s : σ} {content : Nat → ArrayBuffer}
    (stream : PieceStream) (h : store.Holds s stream.fileId content stream.manifest.pieces)
    {pulls : Nat} (hnext : stream.nextIndex ≤ stream.manifest.pieces.length)
    (hpulls : stream.manifest.pieces.length < stream.nextIndex + pulls) :
    stream.readAll pulls s =
      some (.ok ((stream.manifest.pieces.drop stream.nextIndex).map fun p => content p.index)) := by
  induction pulls generalizing stream with
  | zero => omega
  | succ pulls ih =>
    cases hpiece : stream.manifest.pieces[stream.nextIndex]? with
    | none =>
      have hend := List.getElem?_eq_none_iff.1 hpiece
      simp [PieceStream.readAll, PieceStream.pull, hpiece, List.drop_eq_nil_of_le hend]
    | some piece =>
      obtain ⟨hlt, hget⟩ := List.getElem?_eq_some_iff.1 hpiece
      have hread := store.read s stream.fileId piece.index h.1
      rw [h.2 piece (List.mem_of_getElem? hpiece)] at hread
      have hrest := ih { stream with nextIndex := stream.nextIndex + 1 } h hlt
        (by simp only; omega)
      rw [List.drop_eq_getElem_cons hlt, hget]
      simp [PieceStream.readAll, PieceStream.pull, hpiece, hread, hrest, Except.map]

end Reading

namespace MemoryStorageAdapter

def assembleFile (fileId : FileId) (manifest : FileManifest) (s : MemoryStorageAdapter) :
    Except Failure Blob :=
  match assertSafeAssembleSize manifest with
  | .error err => .error err
  | .ok () => (assembleParts fileId manifest.pieces s).map fun parts =>
      ⟨"unnamed", manifest.mimeType, parts.flatten⟩

def archive (session : SessionId) : Archive MemoryStorageAdapter where
  toContents := contents session
  write s f i data h := by
    refine ⟨{ s with pieces := s.pieces.set (key session f i) data }, ?_, h, fun g j => ?_⟩
    · have hsession : s.requireSession = .ok session := h
      simp [StorageAdapter.writePiece, writePiece, hsession]
    · simp only [contents, bytes, OrderedMap.get?_set, key_inj]

end MemoryStorageAdapter

end PonsWarp.Core
