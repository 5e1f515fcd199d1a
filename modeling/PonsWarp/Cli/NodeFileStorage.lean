import Mathlib.Data.List.Sort
import PonsWarp.Core.Storage
import PonsWarp.Data.Splice

set_option autoImplicit false

/-!
`NodeFileStorageAdapter`: pieces as files of their own, or written at their offsets into
one output file whose verified pieces are kept in a state file beside it. Directories are
there as soon as a file is; a file is replaced as a whole by the rename that follows its
temporary copy.
-/

namespace PonsWarp.Cli

open PonsWarp.Core PonsWarp.Data

abbrev Path := String

/-- The text of a kind of value, as `JSON.stringify` writes and `JSON.parse` reads it. -/
structure Json (α : Type) where
  stringify : α → ArrayBuffer
  parse : ArrayBuffer → Except Failure α

structure OffsetOutputState where
  schemaVersion : Nat
  fileId : FileId
  manifestSize : Nat
  pieceSize : Nat
  pieceCount : Nat
  outputPath : Path
  pieceLayoutHash : String
  verifiedPieces : List Nat
  deriving DecidableEq, Repr

structure OffsetOutput where
  manifest : FileManifest
  outputPath : Path
  verifiedPieces : List Nat

/-- The adapter and the files under it. -/
structure NodeFileStorageAdapter where
  sha256 : String → String
  offsetState : Json OffsetOutputState
  sessionState : Json PersistedSessionState
  rootDir : Path
  sessionId : Option SessionId
  offsetOutputs : OrderedMap FileId OffsetOutput
  disk : OrderedMap Path ArrayBuffer

def sanitizePathSegment (value name : String) : Except Failure String :=
  if value = "" ∨ value = "." ∨ value = ".." ∨ value.toList.contains '/' ∨
      value.toList.contains '\\' then
    .error ⟨none, s!"{name} must be a single safe path excerpt"⟩
  else .ok value

def notFound (path : Path) : Failure :=
  ⟨some "ENOENT", s!"ENOENT: no such file or directory, open {path}"⟩

def hashPieceLayout (sha256 : String → String) (manifest : FileManifest) : String :=
  sha256 (String.join (manifest.pieces.map fun piece =>
    s!"{piece.index}:{piece.offset}:{piece.size};"))

namespace NodeFileStorageAdapter

def sessionDir (s : NodeFileStorageAdapter) : Except Failure Path :=
  match s.sessionId with
  | none => .error ⟨none, "NodeFileStorageAdapter.init(sessionId) must be called first"⟩
  | some id =>
    if id = "" then .error ⟨none, "NodeFileStorageAdapter.init(sessionId) must be called first"⟩
    else (sanitizePathSegment id "sessionId").map fun excerpt =>
      s!"{s.rootDir}/sessions/{excerpt}"

/-- `padStart(6, '0')` of a piece index. -/
def padded (pieceIndex : Nat) : String :=
  String.ofList (List.leftpad 6 '0' pieceIndex.repr.toList)

def piecePath (fileId : FileId) (pieceIndex : Nat) (s : NodeFileStorageAdapter) :
    Except Failure Path :=
  s.sessionDir.bind fun dir => (sanitizePathSegment fileId "fileId").map fun excerpt =>
    s!"{dir}/pieces/{excerpt}/{padded pieceIndex}.part"

def offsetStatePath (fileId : FileId) (s : NodeFileStorageAdapter) : Except Failure Path :=
  s.sessionDir.bind fun dir => (sanitizePathSegment fileId "fileId").map fun excerpt =>
    s!"{dir}/output/{excerpt}.offset-state.json"

def init (sessionId : SessionId) (s : NodeFileStorageAdapter) :
    Except Failure Unit × NodeFileStorageAdapter :=
  match sanitizePathSegment sessionId "sessionId" with
  | .error err => (.error err, s)
  | .ok excerpt => (.ok (), { s with sessionId := some excerpt })

def loadOffsetOutputState (fileId : FileId) (s : NodeFileStorageAdapter) :
    Except Failure (Option OffsetOutputState) :=
  (s.offsetStatePath fileId).bind fun path =>
    match s.disk.get? path with
    | none => .ok none
    | some data => (s.offsetState.parse data).map fun state =>
        if state.schemaVersion = 1 then some state else none

def saveOffsetOutputState (fileId : FileId) (s : NodeFileStorageAdapter) :
    Except Failure Unit × NodeFileStorageAdapter :=
  match s.offsetOutputs.get? fileId with
  | none => (.ok (), s)
  | some output =>
    match s.offsetStatePath fileId with
    | .error err => (.error err, s)
    | .ok path =>
      let state : OffsetOutputState := ⟨1, fileId, output.manifest.size, output.manifest.pieceSize,
        output.manifest.pieceCount, output.outputPath, hashPieceLayout s.sha256 output.manifest,
        output.verifiedPieces.insertionSort (· ≤ ·)⟩
      (.ok (), { s with disk := s.disk.set path (s.offsetState.stringify state) })

/-- A saved state is about this output. -/
def restores (sha256 : String → String) (manifest : FileManifest) (outputPath : Path)
    (state : OffsetOutputState) : Bool :=
  state.outputPath = outputPath && state.manifestSize = manifest.size &&
    state.pieceSize = manifest.pieceSize && state.pieceCount = manifest.pieceCount &&
    state.pieceLayoutHash = hashPieceLayout sha256 manifest

def prepareOutputFile (manifest : FileManifest) (outputPath : Path) (s : NodeFileStorageAdapter) :
    Except Failure Unit × NodeFileStorageAdapter :=
  let file := (s.disk.get? outputPath).getD []
  let s := { s with disk := s.disk.set outputPath (resize 0 manifest.size file) }
  match s.loadOffsetOutputState manifest.fileId with
  | .error err => (.error err, s)
  | .ok saved =>
    let verifiedPieces := (saved.filter (restores s.sha256 manifest outputPath)).elim []
      fun state => state.verifiedPieces.foldl insertNew []
    let s := { s with
      offsetOutputs := s.offsetOutputs.set manifest.fileId ⟨manifest, outputPath, verifiedPieces⟩ }
    s.saveOffsetOutputState manifest.fileId

def writePiece (fileId : FileId) (pieceIndex : Nat) (data : ArrayBuffer)
    (s : NodeFileStorageAdapter) : Except Failure Unit × NodeFileStorageAdapter :=
  match s.offsetOutputs.get? fileId with
  | some output =>
    match output.manifest.pieces.find? fun candidate => candidate.index = pieceIndex with
    | none => (.error ⟨none, s!"Unknown piece {pieceIndex} for {output.manifest.name}"⟩, s)
    | some piece =>
      if data.length ≠ piece.size then
        (.error ⟨none, s!"Piece {pieceIndex} size mismatch: expected {piece.size}, " ++
          s!"got {data.length}"⟩, s)
      else
        match s.disk.get? output.outputPath with
        | none => (.error (notFound output.outputPath), s)
        | some file =>
          let output' := { output with
            verifiedPieces := insertNew output.verifiedPieces pieceIndex }
          let s := { s with
            disk := s.disk.set output.outputPath (splice 0 file piece.offset data)
            offsetOutputs := s.offsetOutputs.set fileId output' }
          s.saveOffsetOutputState fileId
  | none =>
    match s.piecePath fileId pieceIndex with
    | .error err => (.error err, s)
    | .ok path => (.ok (), { s with disk := s.disk.set path data })

def readPiece (fileId : FileId) (pieceIndex : Nat) (s : NodeFileStorageAdapter) :
    Except Failure (Option ArrayBuffer) × NodeFileStorageAdapter :=
  match s.offsetOutputs.get? fileId with
  | some output =>
    if pieceIndex ∉ output.verifiedPieces then (.ok none, s)
    else
      match output.manifest.pieces.find? fun candidate => candidate.index = pieceIndex with
      | none => (.ok none, s)
      | some piece =>
        match s.disk.get? output.outputPath with
        | none => (.error (notFound output.outputPath), s)
        | some file => (.ok (some (excerpt file piece.offset piece.size)), s)
  | none => ((s.piecePath fileId pieceIndex).map s.disk.get?, s)

def deletePiece (fileId : FileId) (pieceIndex : Nat) (s : NodeFileStorageAdapter) :
    Except Failure Unit × NodeFileStorageAdapter :=
  match s.offsetOutputs.get? fileId with
  | some output =>
    let output' := { output with verifiedPieces := output.verifiedPieces.filter (· ≠ pieceIndex) }
    let s := { s with offsetOutputs := s.offsetOutputs.set fileId output' }
    s.saveOffsetOutputState fileId
  | none =>
    match s.piecePath fileId pieceIndex with
    | .error err => (.error err, s)
    | .ok path => (.ok (), { s with disk := s.disk.delete path })

def statePath (s : NodeFileStorageAdapter) : Except Failure Path :=
  s.sessionDir.map fun dir => s!"{dir}/state.json"

def saveState (state : PersistedSessionState) (s : NodeFileStorageAdapter) :
    Except Failure Unit × NodeFileStorageAdapter :=
  match s.statePath with
  | .error err => (.error err, s)
  | .ok path => (.ok (), { s with disk := s.disk.set path (s.sessionState.stringify state) })

/-- The session is switched while the file is read, and then switched back; without a
session before, the loaded one stays. -/
def loadState (sessionId : SessionId) (s : NodeFileStorageAdapter) :
    Except Failure (Option PersistedSessionState) × NodeFileStorageAdapter :=
  match sanitizePathSegment sessionId "sessionId" with
  | .error err => (.error err, s)
  | .ok excerpt =>
    let loaded := NodeFileStorageAdapter.statePath { s with sessionId := some excerpt }
    let state := loaded.bind fun path =>
      match s.disk.get? path with
      | none => .ok none
      | some data => (s.sessionState.parse data).map some
    (state, { s with sessionId := some (s.sessionId.getD sessionId) })

instance : StorageAdapter NodeFileStorageAdapter where
  init := init
  writePiece := writePiece
  readPiece := readPiece
  deletePiece := deletePiece
  saveState := saveState
  loadState := loadState

end NodeFileStorageAdapter

end PonsWarp.Cli
