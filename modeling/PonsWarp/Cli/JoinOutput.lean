import PonsWarp.Cli.JoinDescriptor
import PonsWarp.Data.FileTree

set_option autoImplicit false

/-!
Where `join` puts the file that it receives. The name of the file comes from the
descriptor; the transfer itself is left open, as the calls of the storage adapter that it
makes. The adapter keeps its own files under its root, and writes the pieces to the output
file in the tree.
-/

namespace PonsWarp.Cli

open PonsWarp.Core PonsWarp.Data PonsWarp.Data.Posix

structure JoinCommand where
  session : String
  outDir : String
  seedAfterComplete : Bool

/-- `opened` are the places of the files that were opened, truncated or renamed. -/
structure Workplace where
  cwd : List Name
  tree : FileTree
  storage : NodeFileStorageAdapter
  opened : List (List Name) := []

inductive StorageCall
  | writePiece (fileId : FileId) (pieceIndex : Nat) (data : ArrayBuffer)
  | readPiece (fileId : FileId) (pieceIndex : Nat)
  | deletePiece (fileId : FileId) (pieceIndex : Nat)
  | saveState (state : PersistedSessionState)

/-- What happens around the output file: before it is prepared, while pieces arrive, and how the
transfer ends. -/
structure JoinCourse where
  joined : Except Failure Unit
  calls : List StorageCall
  transferred : Except Failure Unit
  hash : ArrayBuffer → String

def systemFailure (e : Errno) (call : String) (path : List Char) : Failure :=
  let code := match e with
    | .ENOENT => "ENOENT"
    | .ENOTDIR => "ENOTDIR"
    | .EISDIR => "EISDIR"
    | .EEXIST => "EEXIST"
  ⟨some code, s!"{code}: {call} '{String.ofList path}'"⟩

def outputName (manifest : FileManifest) : Name := basename manifest.name.toList

def outputPath (outDir : String) (manifest : FileManifest) : List Char :=
  join outDir.toList (outputName manifest)

def tempOutputPath (outDir : String) (manifest : FileManifest) : List Char :=
  join outDir.toList ('.' :: outputName manifest ++ ".ponswarp-partial".toList)

namespace Workplace

/-- `prepareOutputFile` of the adapter. -/
def prepareOutputFile (manifest : FileManifest) (path : List Char) (w : Workplace) :
    Except Failure Unit × Workplace :=
  match w.tree.mkdir w.cwd (dirname path) with
  | (tree, .error e) => (.error (systemFailure e "mkdir" (dirname path)), { w with tree := tree })
  | (tree, .ok ()) =>
    match tree.openAppend w.cwd path with
    | .error e => (.error (systemFailure e "open" path), { w with tree := tree })
    | .ok (tree, l) =>
      let content := match tree.node l with
        | some (.file content) => content
        | _ => []
      let w := { w with
        tree := tree.setContent l (resize 0 manifest.size content)
        opened := w.opened ++ [l] }
      match w.storage.loadOffsetOutputState manifest.fileId with
      | .error err => (.error err, w)
      | .ok saved =>
        let outputPath := String.ofList path
        let verifiedPieces := (saved.filter (NodeFileStorageAdapter.restores w.storage.sha256
          manifest outputPath)).elim [] fun state => state.verifiedPieces.foldl insertNew []
        let (result, storage) := NodeFileStorageAdapter.saveOffsetOutputState manifest.fileId
          { w.storage with
            offsetOutputs := w.storage.offsetOutputs.set manifest.fileId
              ⟨manifest, outputPath, verifiedPieces⟩ }
        (result, { w with storage := storage })

/-- `writePiece` of the adapter, of which only what it leaves behind is kept. -/
def writePiece (fileId : FileId) (pieceIndex : Nat) (data : ArrayBuffer) (w : Workplace) :
    Workplace :=
  match w.storage.offsetOutputs.get? fileId with
  | some output =>
    match output.manifest.pieces.find? fun candidate => candidate.index = pieceIndex with
    | none => w
    | some piece =>
      if data.length ≠ piece.size then w
      else
        match w.tree.openFile w.cwd output.outputPath.toList with
        | .error _ => w
        | .ok (l, content) =>
          let output' := { output with
            verifiedPieces := insertNew output.verifiedPieces pieceIndex }
          { w with
            tree := w.tree.setContent l (splice 0 content piece.offset data)
            opened := w.opened ++ [l]
            storage := (NodeFileStorageAdapter.saveOffsetOutputState fileId
              { w.storage with
                offsetOutputs := w.storage.offsetOutputs.set fileId output' }).2 }
  | none => { w with storage := (w.storage.writePiece fileId pieceIndex data).2 }

def readPiece (fileId : FileId) (pieceIndex : Nat) (w : Workplace) : Workplace :=
  match w.storage.offsetOutputs.get? fileId with
  | some output =>
    if pieceIndex ∉ output.verifiedPieces then w
    else
      match w.tree.openFile w.cwd output.outputPath.toList with
      | .error _ => w
      | .ok (l, _) => { w with opened := w.opened ++ [l] }
  | none => w

def perform (w : Workplace) : StorageCall → Workplace
  | .writePiece fileId pieceIndex data => w.writePiece fileId pieceIndex data
  | .readPiece fileId pieceIndex => w.readPiece fileId pieceIndex
  | .deletePiece fileId pieceIndex =>
    { w with storage := (w.storage.deletePiece fileId pieceIndex).2 }
  | .saveState state => { w with storage := (w.storage.saveState state).2 }

def checkHash (hash : ArrayBuffer → String) (manifest : FileManifest) (completedPath : List Char)
    (w : Workplace) : Except Failure Workplace :=
  match manifest.fileHash.filter (· ≠ "") with
  | none => .ok w
  | some fileHash =>
    match w.tree.openFile w.cwd completedPath with
    | .error e => .error (systemFailure e "open" completedPath)
    | .ok (l, content) =>
      if hash content ≠ fileHash then
        .error ⟨none, s!"Final hash mismatch: expected {fileHash}, got {hash content}"⟩
      else .ok { w with opened := w.opened ++ [l] }

def renameOutput (source target : List Char) (w : Workplace) : Except Failure Nat × Workplace :=
  match w.tree.rename w.cwd source target with
  | .error e => (.error (systemFailure e "rename" source), w)
  | .ok (tree, l, m) => (.ok 0, { w with tree := tree, opened := w.opened ++ [l, m] })

/-- The end of `runJoin`: the size and the hash of the file are checked, and it gets its name. -/
def complete (hash : ArrayBuffer → String) (manifest : FileManifest) (command : JoinCommand)
    (w : Workplace) : Except Failure Nat × Workplace :=
  let outputPath := outputPath command.outDir manifest
  let tempOutputPath := tempOutputPath command.outDir manifest
  let completedPath := if command.seedAfterComplete then outputPath else tempOutputPath
  match w.storage.offsetOutputs.get? manifest.fileId with
  | none => (.error ⟨none, s!"Offset output storage was not prepared for {manifest.name}"⟩, w)
  | some output =>
    match w.tree.openFile w.cwd output.outputPath.toList with
    | .error e => (.error (systemFailure e "stat" output.outputPath.toList), w)
    | .ok (_, content) =>
      if content.length ≠ manifest.size then
        (.error ⟨none, s!"Offset output storage was not prepared for {manifest.name}"⟩, w)
      else
        match w.checkHash hash manifest completedPath with
        | .error err => (.error err, w)
        | .ok w =>
          if command.seedAfterComplete then (.ok 0, w)
          else w.renameOutput tempOutputPath outputPath

def download (course : JoinCourse) (manifest : FileManifest) (command : JoinCommand)
    (w : Workplace) : Except Failure Nat × Workplace :=
  match w.tree.mkdir w.cwd command.outDir.toList with
  | (tree, .error e) =>
    (.error (systemFailure e "mkdir" command.outDir.toList), { w with tree := tree })
  | (tree, .ok ()) =>
    let activeOutputPath := if command.seedAfterComplete then outputPath command.outDir manifest
      else tempOutputPath command.outDir manifest
    match prepareOutputFile manifest activeOutputPath { w with tree := tree } with
    | (.error err, w) => (.error err, w)
    | (.ok (), w) =>
      let w := course.calls.foldl perform w
      match course.transferred with
      | .error err => (.error err, w)
      | .ok () => w.complete course.hash manifest command

end Workplace

def runJoin (json : Json CliSessionDescriptor) (course : JoinCourse) (command : JoinCommand)
    (w : Workplace) : Except Failure Nat × Workplace :=
  match decodeJoinDescriptor json command.session with
  | .error err => (.error err, w)
  | .ok descriptor =>
    let w := { w with storage := { w.storage with
      sessionId := some descriptor.sessionId, offsetOutputs := .empty } }
    match course.joined with
    | .error err => (.error err, w)
    | .ok () =>
      match descriptor.manifests with
      | [] => (.error ⟨none, "Join descriptor does not contain a file manifest"⟩, w)
      | manifest :: _ => w.download course manifest command

end PonsWarp.Cli
