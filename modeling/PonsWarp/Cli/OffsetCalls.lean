import PonsWarp.Cli.RoundTrip
import PonsWarp.Data.Publishing
import PonsWarp.Data.Run

set_option autoImplicit false

/-!
`writePiece` and `deletePiece` on one prepared output, any number of them in flight. A call
runs from one operation of the file system to the next; the file system completes the
operations of different calls in any order.
-/

namespace PonsWarp.Cli

open PonsWarp.Core PonsWarp.Data

inductive PieceCall where
  | writePiece (pieceIndex : Nat) (data : ArrayBuffer)
  | deletePiece (pieceIndex : Nat)
  deriving DecidableEq, Repr

/-- The operation that a call awaits. -/
inductive Awaited where
  | opening (outputPath : Path) (piece : PieceDescriptor) (data : ArrayBuffer)
  | writing (outputPath : Path) (piece : PieceDescriptor) (data : ArrayBuffer)
  | closing (pieceIndex : Nat)
  | mkdir
  | writeFile (tmp path : Path) (state : OffsetOutputState)
  | rename (tmp path : Path)

inductive CallState where
  | awaiting (op : Awaited)
  | resolved
  | rejected (err : Failure)

namespace CallState

def isResolved : CallState → Bool
  | .resolved => true
  | _ => false

def isAwaiting : CallState → Bool
  | .awaiting _ => true
  | _ => false

/-- The temporary file of a call. -/
def tmp? : CallState → Option Path
  | .awaiting (.writeFile tmp _ _) => some tmp
  | .awaiting (.rename tmp _) => some tmp
  | _ => none

end CallState

/-- The calls on an output, numbered in the order in which they are made. `readings` has the
verified pieces that each of them has put in the state it writes, in the order of the reading;
the code does not keep it. -/
structure OffsetCalls where
  fileId : FileId
  pid : Nat
  storage : NodeFileStorageAdapter
  calls : List CallState
  readings : List (Nat × List Nat)

/-- `complete` is the end of what a call awaits. The name that `randomUUID` gives is drawn by a
call that comes back from `mkdir`. -/
inductive OffsetMove where
  | start (call : PieceCall)
  | complete (id : Nat) (uuid : String)
  deriving DecidableEq, Repr

def offsetOutputState (sha256 : String → String) (fileId : FileId) (output : OffsetOutput) :
    OffsetOutputState :=
  ⟨1, fileId, output.manifest.size, output.manifest.pieceSize, output.manifest.pieceCount,
    output.outputPath, hashPieceLayout sha256 output.manifest,
    output.verifiedPieces.insertionSort (· ≤ ·)⟩

/-- The temporary file beside `path`. -/
def tmpPath (path : Path) (pid : Nat) (uuid : String) : Path := s!"{path}.{pid}.{uuid}.tmp"

namespace OffsetCalls

def setCall (id : Nat) (call : CallState) (s : OffsetCalls) : OffsetCalls :=
  { s with calls := s.calls.set id call }

def setDisk (path : Path) (data : ArrayBuffer) (s : OffsetCalls) : OffsetCalls :=
  { s with storage := { s.storage with disk := s.storage.disk.set path data } }

def setVerified (output : OffsetOutput) (verifiedPieces : List Nat) (s : OffsetCalls) :
    OffsetCalls :=
  { s with storage := { s.storage with
      offsetOutputs := s.storage.offsetOutputs.set s.fileId
        { output with verifiedPieces := verifiedPieces } } }

/-- `saveOffsetOutputState` up to its first `await`. -/
def beginSave (s : OffsetCalls) : CallState :=
  match s.storage.offsetOutputs.get? s.fileId with
  | none => .resolved
  | some _ =>
    match s.storage.offsetStatePath s.fileId with
    | .error err => .rejected err
    | .ok _ => .awaiting .mkdir

/-- A call that does not concern a prepared output has its own files. -/
def settle (result : Except Failure Unit × NodeFileStorageAdapter) (s : OffsetCalls) :
    OffsetCalls :=
  { s with
    storage := result.2
    calls := s.calls ++ [match result.1 with
      | .ok () => .resolved
      | .error err => .rejected err] }

/-- A call up to its first `await`. -/
def start (call : PieceCall) (s : OffsetCalls) : OffsetCalls :=
  match call with
  | .writePiece pieceIndex data =>
    match s.storage.offsetOutputs.get? s.fileId with
    | some output =>
      let call := match output.manifest.pieces.find? fun candidate => candidate.index = pieceIndex with
        | none => .rejected ⟨none, s!"Unknown piece {pieceIndex} for {output.manifest.name}"⟩
        | some piece =>
          if data.length ≠ piece.size then
            .rejected ⟨none, s!"Piece {pieceIndex} size mismatch: expected {piece.size}, " ++
              s!"got {data.length}"⟩
          else .awaiting (.opening output.outputPath piece data)
      { s with calls := s.calls ++ [call] }
    | none => s.settle (s.storage.writePiece s.fileId pieceIndex data)
  | .deletePiece pieceIndex =>
    match s.storage.offsetOutputs.get? s.fileId with
    | some output =>
      let s := s.setVerified output (output.verifiedPieces.filter (· ≠ pieceIndex))
      { s with calls := s.calls ++ [s.beginSave] }
    | none => s.settle (s.storage.deletePiece s.fileId pieceIndex)

/-- The state is put together after `mkdir`. -/
def readState (id : Nat) (uuid : String) (s : OffsetCalls) : OffsetCalls :=
  match s.storage.offsetOutputs.get? s.fileId, s.storage.offsetStatePath s.fileId with
  | none, _ => s.setCall id .resolved
  | some _, .error err => s.setCall id (.rejected err)
  | some output, .ok path =>
    let state := offsetOutputState s.storage.sha256 s.fileId output
    { s.setCall id (.awaiting (.writeFile (tmpPath path s.pid uuid) path state)) with
      readings := s.readings ++ [(id, state.verifiedPieces)] }

/-- What an operation does, and the call up to its next `await`. -/
def proceed (id : Nat) (uuid : String) (s : OffsetCalls) : Awaited → OffsetCalls
  | .opening outputPath piece data =>
    match s.storage.disk.get? outputPath with
    | none => s.setCall id (.rejected (notFound outputPath))
    | some _ => s.setCall id (.awaiting (.writing outputPath piece data))
  | .writing outputPath piece data =>
    let file := (s.storage.disk.get? outputPath).getD []
    (s.setDisk outputPath (splice 0 file piece.offset data)).setCall id
      (.awaiting (.closing piece.index))
  | .closing pieceIndex =>
    match s.storage.offsetOutputs.get? s.fileId with
    | none => s.setCall id .resolved
    | some output =>
      let s := s.setVerified output (insertNew output.verifiedPieces pieceIndex)
      s.setCall id s.beginSave
  | .mkdir => s.readState id uuid
  | .writeFile tmp path state =>
    (s.setDisk tmp (s.storage.offsetState.stringify state)).setCall id (.awaiting (.rename tmp path))
  | .rename tmp path =>
    match s.storage.disk.get? tmp with
    | none => s.setCall id (.rejected (notFound tmp))
    | some text =>
      { s with storage := { s.storage with
          disk := (s.storage.disk.delete tmp).set path text } }.setCall id .resolved

def complete (id : Nat) (uuid : String) (s : OffsetCalls) : OffsetCalls :=
  match s.calls[id]? with
  | some (.awaiting op) => s.proceed id uuid op
  | _ => s

def step (s : OffsetCalls) : OffsetMove → OffsetCalls
  | .start call => s.start call
  | .complete id uuid => s.complete id uuid

/-- No file has the name, and no call is about to make one. -/
def unused (tmp : Path) (s : OffsetCalls) : Bool :=
  !s.storage.disk.has tmp && s.calls.all fun call => call.tmp? ≠ some tmp

/-- A name that `randomUUID` gives has not been given to another file. -/
def fresh (s : OffsetCalls) : OffsetMove → Bool
  | .start _ => true
  | .complete id uuid =>
    match s.calls[id]?, s.storage.offsetStatePath s.fileId with
    | some (.awaiting .mkdir), .ok path => s.unused (tmpPath path s.pid uuid)
    | _, _ => true

def resolved (s : OffsetCalls) (id : Nat) : Bool :=
  match s.calls[id]? with
  | some call => call.isResolved
  | none => false

/-- A state file is not put over one with other pieces that were read later. -/
def timely (s : OffsetCalls) : OffsetMove → Bool
  | .start _ => true
  | .complete id _ =>
    match s.calls[id]? with
    | some (.awaiting (.rename _ _)) => !overtaken s.resolved id s.readings
    | _ => true

/-- No call awaits anything. -/
def idle (s : OffsetCalls) : Bool := s.calls.all fun call => !call.isAwaiting

/-- The adapter, with no call made yet. -/
def quiet (fileId : FileId) (pid : Nat) (storage : NodeFileStorageAdapter) : OffsetCalls :=
  ⟨fileId, pid, storage, [], []⟩

variable {s : OffsetCalls} {id : Nat} {uuid : String}

theorem complete_eq {op : Awaited} (h : s.calls[id]? = some (.awaiting op)) :
    s.complete id uuid = s.proceed id uuid op := by
  simp [complete, h]

/-- A save that nothing interrupts is the one of the adapter. -/
theorem save_alone {output : OffsetOutput} {path : Path}
    (hid : s.calls[id]? = some (.awaiting .mkdir))
    (houtput : s.storage.offsetOutputs.get? s.fileId = some output)
    (hpath : s.storage.offsetStatePath s.fileId = .ok path)
    (hnew : s.storage.disk.get? (tmpPath path s.pid uuid) = none) :
    (steps step s (List.replicate 3 (.complete id uuid))).storage =
        (s.storage.saveOffsetOutputState s.fileId).2 ∧
      (steps step s (List.replicate 3 (.complete id uuid))).calls[id]? = some .resolved := by
  obtain ⟨hlt, -⟩ := List.getElem?_eq_some_iff.1 hid
  have hsave : s.storage.saveOffsetOutputState s.fileId = (.ok (), { s.storage with
      disk := s.storage.disk.set path (s.storage.offsetState.stringify
        (offsetOutputState s.storage.sha256 s.fileId output)) }) := by
    simp [NodeFileStorageAdapter.saveOffsetOutputState, houtput, hpath, offsetOutputState]
  simp only [steps, List.replicate, List.foldl_cons, List.foldl_nil, step, complete_eq hid, proceed,
    readState, houtput, hpath, hsave]
  generalize offsetOutputState s.storage.sha256 s.fileId output = state
  generalize tmpPath path s.pid uuid = tmp at *
  simp [complete, proceed, setCall, setDisk, hlt, OrderedMap.delete_set hnew]

theorem beginSave_setVerified (output : OffsetOutput) (verifiedPieces : List Nat) {path : Path}
    (hpath : s.storage.offsetStatePath s.fileId = .ok path) :
    (s.setVerified output verifiedPieces).beginSave = .awaiting .mkdir := by
  have hpath' : (s.setVerified output verifiedPieces).storage.offsetStatePath s.fileId =
    .ok path := hpath
  simp only [beginSave, setVerified, OrderedMap.get?_set_self] at hpath' ⊢
  rw [hpath']

theorem deletePiece_alone {output : OffsetOutput} {path : Path} (pieceIndex : Nat)
    (houtput : s.storage.offsetOutputs.get? s.fileId = some output)
    (hpath : s.storage.offsetStatePath s.fileId = .ok path)
    (hnew : s.storage.disk.get? (tmpPath path s.pid uuid) = none) :
    (steps step (s.start (.deletePiece pieceIndex))
        (List.replicate 3 (.complete s.calls.length uuid))).storage =
      (s.storage.deletePiece s.fileId pieceIndex).2 := by
  have hstart : s.start (.deletePiece pieceIndex) =
      { s.setVerified output (output.verifiedPieces.filter (· ≠ pieceIndex)) with
        calls := s.calls ++ [.awaiting .mkdir] } := by
    simp only [start, houtput]
    rw [beginSave_setVerified output _ hpath]
    rfl
  rw [hstart]
  refine (save_alone (s := { s.setVerified output (output.verifiedPieces.filter (· ≠ pieceIndex)) with
    calls := s.calls ++ [.awaiting .mkdir] }) List.getElem?_concat_length
    (OrderedMap.get?_set_self _ _ _) hpath hnew).1.trans ?_
  simp [setVerified, NodeFileStorageAdapter.deletePiece, houtput]

/-- A piece is written, and then the save begins. -/
theorem write_alone (uuid : String) {output : OffsetOutput} {path : Path}
    {piece : PieceDescriptor} {data file : ArrayBuffer} (hid : s.calls[id]? = some (.awaiting (.opening output.outputPath
      piece data))) (houtput : s.storage.offsetOutputs.get? s.fileId = some output)
    (hpath : s.storage.offsetStatePath s.fileId = .ok path)
    (hfile : s.storage.disk.get? output.outputPath = some file) :
    steps step s (List.replicate 3 (.complete id uuid)) =
      ((s.setDisk output.outputPath (splice 0 file piece.offset data)).setVerified output
        (insertNew output.verifiedPieces piece.index)).setCall id (.awaiting .mkdir) := by
  obtain ⟨hlt, -⟩ := List.getElem?_eq_some_iff.1 hid
  have hopened : s.complete id uuid =
      s.setCall id (.awaiting (.writing output.outputPath piece data)) := by
    rw [complete_eq hid]
    simp only [proceed, hfile]
  have hwritten : (s.setCall id (.awaiting (.writing output.outputPath piece data))).complete id
      uuid = (s.setDisk output.outputPath (splice 0 file piece.offset data)).setCall id
        (.awaiting (.closing piece.index)) := by
    rw [complete_eq (List.getElem?_set_self hlt)]
    simp only [proceed, setCall, setDisk, hfile, Option.getD_some, List.set_set]
  have hclosed : ((s.setDisk output.outputPath (splice 0 file piece.offset data)).setCall id
      (.awaiting (.closing piece.index))).complete id uuid =
      ((s.setDisk output.outputPath (splice 0 file piece.offset data)).setVerified output
        (insertNew output.verifiedPieces piece.index)).setCall id (.awaiting .mkdir) := by
    rw [complete_eq (List.getElem?_set_self hlt)]
    have hbegun := beginSave_setVerified (s := (s.setDisk output.outputPath
      (splice 0 file piece.offset data)).setCall id (.awaiting (.closing piece.index))) output
      (insertNew output.verifiedPieces piece.index) hpath
    simp only [proceed, setCall, setDisk, houtput] at hbegun ⊢
    rw [hbegun]
    simp only [setVerified, List.set_set]
  simp only [steps, List.replicate, List.foldl_cons, List.foldl_nil, step, hopened, hwritten, hclosed]

theorem writePiece_alone {output : OffsetOutput} {path : Path} {piece : PieceDescriptor}
    {pieceIndex : Nat} {data file : ArrayBuffer}
    (houtput : s.storage.offsetOutputs.get? s.fileId = some output)
    (hpiece : output.manifest.pieces.find? (fun candidate => candidate.index = pieceIndex) =
      some piece) (hsize : data.length = piece.size)
    (hpath : s.storage.offsetStatePath s.fileId = .ok path)
    (hfile : s.storage.disk.get? output.outputPath = some file)
    (hnew : s.storage.disk.get? (tmpPath path s.pid uuid) = none) :
    (steps step (s.start (.writePiece pieceIndex data))
        (List.replicate 3 (.complete s.calls.length uuid) ++
          List.replicate 3 (.complete s.calls.length uuid))).storage =
      (s.storage.writePiece s.fileId pieceIndex data).2 := by
  obtain rfl : piece.index = pieceIndex := by simpa using List.find?_some hpiece
  have hstart : s.start (.writePiece piece.index data) =
      { s with calls := s.calls ++ [.awaiting (.opening output.outputPath piece data)] } := by
    simp only [start, houtput, hpiece, hsize, ne_eq, not_true_eq_false, if_false]
  have hwritten := write_alone (s := { s with
    calls := s.calls ++ [.awaiting (.opening output.outputPath piece data)] }) uuid
    List.getElem?_concat_length houtput hpath hfile
  have hne : tmpPath path s.pid uuid ≠ output.outputPath := by
    intro heq
    rw [heq, hfile] at hnew
    cases hnew
  have hlt : s.calls.length < (s.calls ++ [CallState.awaiting
      (.opening output.outputPath piece data)]).length := by simp
  rw [hstart]
  simp only [steps, List.foldl_append] at hwritten ⊢
  rw [hwritten]
  refine (save_alone (s := ((OffsetCalls.setDisk output.outputPath
      (splice 0 file piece.offset data) { s with
        calls := s.calls ++ [.awaiting (.opening output.outputPath piece data)] }).setVerified
      output (insertNew output.verifiedPieces piece.index)).setCall s.calls.length
        (.awaiting .mkdir)) (List.getElem?_set_self hlt) (OrderedMap.get?_set_self _ _ _) hpath
    ((OrderedMap.get?_set_of_ne _ _ hne).trans hnew)).1.trans ?_
  simp [setVerified, setDisk, setCall, NodeFileStorageAdapter.writePiece, houtput, hpiece, hsize,
    hfile]

end OffsetCalls

end PonsWarp.Cli
