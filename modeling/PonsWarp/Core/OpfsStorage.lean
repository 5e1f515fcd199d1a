import PonsWarp.Core.SharedStorage
import PonsWarp.Data.DirectoryHandles

set_option autoImplicit false

/-!
`OPFSStorageAdapter`: a directory for each session, in it one for each file, and a file for each
piece. The calls are awaited one after the other.
-/

namespace PonsWarp.Core

open PonsWarp.Data Posix

/-- How `JSON.stringify` writes a state, and what `JSON.parse` makes of a file. -/
structure StateText where
  stringify : PersistedSessionState → ArrayBuffer
  parse : ArrayBuffer → Except Failure PersistedSessionState

/-- The adapter and the file system under it; a handle is the place that it leads to. -/
structure OPFSStorageAdapter where
  available : Bool
  text : StateText
  root : Option (List Name)
  sessionId : Option SessionId
  tree : FileTree

namespace OPFSStorageAdapter

def domException (err : HandleError) : Failure :=
  match err with
  | .TypeError => ⟨none, "TypeError: Name is not allowed"⟩
  | .NotFoundError => ⟨none, "NotFoundError"⟩
  | .TypeMismatchError => ⟨none, "TypeMismatchError"⟩
  | .InvalidModificationError => ⟨none, "InvalidModificationError"⟩

def unavailable : Failure :=
  PonsWarpError "storage:opfs_unavailable" "Origin private file system is not available"

def notInitialized : Failure :=
  PonsWarpError "storage:not_initialized" "OPFS storage adapter is not initialized"

def probeFailed : Failure :=
  PonsWarpError "storage:probe_failed" "OPFS probe read did not match write"

def GRID : Name := "ponswarp-grid".toList
def SESSIONS : Name := "sessions".toList
def STATE : Name := "state.json".toList
def PROBE : Name := ".probe".toList
def pieceName (pieceIndex : Nat) : Name := pieceIndex.repr.toList ++ ".piece".toList

variable (s : OPFSStorageAdapter)

def requireRoot : Except Failure (List Name) :=
  match s.root, s.sessionId with
  | some root, some id => if id = "" then .error notInitialized else .ok root
  | _, _ => .error notInitialized

/-- What a stretch leaves, whether it ends well or not. -/
def onTree {α : Type} (result : Except HandleError (FileTree × α)) :
    Except HandleError α × OPFSStorageAdapter :=
  match result with
  | .error err => (.error err, s)
  | .ok (tree, a) => (.ok a, { s with tree := tree })

/-- A file is asked for and written. -/
def writeTo (here : List Name) (n : Name) (data : ArrayBuffer) :
    Except HandleError Unit × OPFSStorageAdapter :=
  match s.tree.getFileHandle here n true with
  | .error err => (.error err, s)
  | .ok (tree, l) =>
    let s := { s with tree := tree }
    match s.tree.writeFile l data with
    | .error err => (.error err, s)
    | .ok tree => (.ok (), { s with tree := tree })

def probe : Except Failure Unit × OPFSStorageAdapter :=
  match s.requireRoot with
  | .error err => (.error err, s)
  | .ok root =>
    match s.writeTo root PROBE [1] with
    | (.error err, s) => (.error (domException err), s)
    | (.ok (), s) =>
      match s.tree.getFile (root ++ [PROBE]) with
      | .error err => (.error (domException err), s)
      | .ok data =>
        if data.length ≠ 1 then (.error probeFailed, s)
        else
          match s.tree.removeEntry root PROBE false with
          | .error err => (.error (domException err), s)
          | .ok tree => (.ok (), { s with tree := tree })

/-- The directory in which the sessions have theirs. -/
def sessionsRoot : Except HandleError (List Name) × OPFSStorageAdapter :=
  match s.onTree (s.tree.getDirectoryHandle [] GRID true) with
  | (.error err, s) => (.error err, s)
  | (.ok appRoot, s) => s.onTree (s.tree.getDirectoryHandle appRoot SESSIONS true)

def init (sessionId : SessionId) : Except Failure Unit × OPFSStorageAdapter :=
  if !s.available then (.error unavailable, s)
  else
    match s.sessionsRoot with
    | (.error err, s) => (.error (domException err), s)
    | (.ok sessions, s) =>
      match s.onTree (s.tree.getDirectoryHandle sessions sessionId.toList true) with
      | (.error err, s) => (.error (domException err), s)
      | (.ok root, s) => ({ s with root := some root, sessionId := some sessionId } :
          OPFSStorageAdapter).probe

def getFileDirectory (fileId : FileId) (create : Bool) :
    Except Failure (Except HandleError (List Name)) × OPFSStorageAdapter :=
  match s.requireRoot with
  | .error err => (.error err, s)
  | .ok root => (s.onTree (s.tree.getDirectoryHandle root fileId.toList create)).map .ok id

def writePiece (fileId : FileId) (pieceIndex : Nat) (data : ArrayBuffer) :
    Except Failure Unit × OPFSStorageAdapter :=
  match s.getFileDirectory fileId true with
  | (.error err, s) => (.error err, s)
  | (.ok (.error err), s) => (.error (domException err), s)
  | (.ok (.ok dir), s) => (s.writeTo dir (pieceName pieceIndex) data).map (·.mapError domException) id

def readPiece (fileId : FileId) (pieceIndex : Nat) :
    Except Failure (Option ArrayBuffer) × OPFSStorageAdapter :=
  match s.getFileDirectory fileId false with
  | (.error err, s) => (.error err, s)
  | (.ok found, s) =>
    match (found.bind fun dir => s.tree.getFileHandle dir (pieceName pieceIndex) false).bind
        fun handle => s.tree.getFile handle.2 with
    | .ok data => (.ok (some data), s)
    | .error .NotFoundError => (.ok none, s)
    | .error err => (.error (domException err), s)

def hasPiece (fileId : FileId) (pieceIndex : Nat) : Except Failure Bool × OPFSStorageAdapter :=
  (s.readPiece fileId pieceIndex).map (·.map Option.isSome) id

def deletePiece (fileId : FileId) (pieceIndex : Nat) : Except Failure Unit × OPFSStorageAdapter :=
  match s.getFileDirectory fileId false with
  | (.error err, s) => (.error err, s)
  | (.ok found, s) =>
    match found.bind fun dir => s.tree.removeEntry dir (pieceName pieceIndex) false with
    | .ok tree => (.ok (), { s with tree := tree })
    | .error .NotFoundError => (.ok (), s)
    | .error err => (.error (domException err), s)

def saveState (state : PersistedSessionState) : Except Failure Unit × OPFSStorageAdapter :=
  match s.requireRoot with
  | .error err => (.error err, s)
  | .ok root => (s.writeTo root STATE (s.text.stringify state)).map (·.mapError domException) id

def loadState (sessionId : SessionId) :
    Except Failure (Option PersistedSessionState) × OPFSStorageAdapter :=
  let (opened, s) := if s.sessionId ≠ some sessionId then s.init sessionId else (.ok (), s)
  match opened.bind fun () => s.requireRoot with
  | .error err => (.error err, s)
  | .ok root =>
    match (s.tree.getFileHandle root STATE false).bind fun handle => s.tree.getFile handle.2 with
    | .error .NotFoundError => (.ok none, s)
    | .error err => (.error (domException err), s)
    | .ok data =>
      (((s.text.parse data).bind fun state =>
        (validatePersistedSessionState state).map fun () => some state), s)

def cleanup (sessionId : SessionId) : Except Failure Unit × OPFSStorageAdapter :=
  if !s.available then (.ok (), s)
  else
    match s.sessionsRoot with
    | (.error err, s) => (.error (domException err), s)
    | (.ok sessions, s) =>
      let closed := { s with
        root := if s.sessionId = some sessionId then none else s.root
        sessionId := if s.sessionId = some sessionId then none else s.sessionId }
      match s.tree.removeEntry sessions sessionId.toList true with
      | .ok tree => (.ok (), { closed with tree := tree })
      | .error .NotFoundError => (.ok (), closed)
      | .error err => (.error (domException err), s)

def call (s : OPFSStorageAdapter) : StorageCall → Except Failure StorageAnswer × OPFSStorageAdapter
  | .init sessionId => (s.init sessionId).map (·.map fun _ => .done) id
  | .writePiece f i data => (s.writePiece f i data).map (·.map fun _ => .done) id
  | .readPiece f i => (s.readPiece f i).map (·.map .piece) id
  | .hasPiece f i => (s.hasPiece f i).map (·.map .has) id
  | .deletePiece f i => (s.deletePiece f i).map (·.map fun _ => .done) id
  | .saveState state => (s.saveState state).map (·.map fun _ => .done) id
  | .loadState sessionId => (s.loadState sessionId).map (·.map .state) id
  | .cleanup sessionId => (s.cleanup sessionId).map (·.map fun _ => .done) id

def step (s : OPFSStorageAdapter) (c : StorageCall) : OPFSStorageAdapter := (s.call c).2

/-- What the calls answer, one after the other. -/
def answers (s : OPFSStorageAdapter) : List StorageCall → List (Except Failure StorageAnswer)
  | [] => []
  | c :: rest => (s.call c).1 :: (s.step c).answers rest

end OPFSStorageAdapter

end PonsWarp.Core
