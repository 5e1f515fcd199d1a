import PonsWarp.Core.Manifest

set_option autoImplicit false

/-!
What the engine asks of a storage, and the in-memory storage. An operation
answers with its result and the storage after it.
-/

namespace PonsWarp.Core

open PonsWarp.Data

class StorageAdapter (σ : Type) where
  init : SessionId → σ → Except Failure Unit × σ
  writePiece : FileId → Nat → ArrayBuffer → σ → Except Failure Unit × σ
  readPiece : FileId → Nat → σ → Except Failure (Option ArrayBuffer) × σ
  deletePiece : FileId → Nat → σ → Except Failure Unit × σ
  saveState : PersistedSessionState → σ → Except Failure Unit × σ
  loadState : SessionId → σ → Except Failure (Option PersistedSessionState) × σ

structure MemoryStorageAdapter where
  sessionId : Option SessionId
  pieces : OrderedMap String ArrayBuffer
  states : OrderedMap SessionId PersistedSessionState

namespace MemoryStorageAdapter

def empty : MemoryStorageAdapter := ⟨none, .empty, .empty⟩

def notInitialized : Failure :=
  PonsWarpError "storage:not_initialized" "Storage adapter is not initialized"

def requireSession (s : MemoryStorageAdapter) : Except Failure SessionId :=
  match s.sessionId with
  | some id => if id = "" then .error notInitialized else .ok id
  | none => .error notInitialized

def key (session : SessionId) (fileId : FileId) (index : Nat) : String :=
  session ++ ":" ++ fileId ++ ":" ++ index.repr

def init (sessionId : SessionId) (s : MemoryStorageAdapter) : Except Failure Unit × MemoryStorageAdapter :=
  (.ok (), { s with sessionId := some sessionId })

def writePiece (fileId : FileId) (index : Nat) (data : ArrayBuffer) (s : MemoryStorageAdapter) :
    Except Failure Unit × MemoryStorageAdapter :=
  match s.requireSession with
  | .error e => (.error e, s)
  | .ok session => (.ok (), { s with pieces := s.pieces.set (key session fileId index) data })

def readPiece (fileId : FileId) (index : Nat) (s : MemoryStorageAdapter) :
    Except Failure (Option ArrayBuffer) × MemoryStorageAdapter :=
  match s.requireSession with
  | .error e => (.error e, s)
  | .ok session => (.ok (s.pieces.get? (key session fileId index)), s)

def hasPiece (fileId : FileId) (index : Nat) (s : MemoryStorageAdapter) :
    Except Failure Bool × MemoryStorageAdapter :=
  match s.requireSession with
  | .error e => (.error e, s)
  | .ok session => (.ok (s.pieces.has (key session fileId index)), s)

def deletePiece (fileId : FileId) (index : Nat) (s : MemoryStorageAdapter) :
    Except Failure Unit × MemoryStorageAdapter :=
  match s.requireSession with
  | .error e => (.error e, s)
  | .ok session => (.ok (), { s with pieces := s.pieces.delete (key session fileId index) })

def saveState (state : PersistedSessionState) (s : MemoryStorageAdapter) :
    Except Failure Unit × MemoryStorageAdapter :=
  match validatePersistedSessionState state with
  | .error e => (.error e, s)
  | .ok () => (.ok (), { s with states := s.states.set state.sessionId state })

def loadState (sessionId : SessionId) (s : MemoryStorageAdapter) :
    Except Failure (Option PersistedSessionState) × MemoryStorageAdapter :=
  (.ok (s.states.get? sessionId), s)

/-- The pieces of every session go, not only those of the session named. -/
def cleanup (sessionId : SessionId) (s : MemoryStorageAdapter) :
    Except Failure Unit × MemoryStorageAdapter :=
  (.ok (), { sessionId := if s.sessionId = some sessionId then none else s.sessionId
             pieces := s.pieces.deleteAll s.pieces.keys
             states := s.states.delete sessionId })

instance : StorageAdapter MemoryStorageAdapter where
  init := init
  writePiece := writePiece
  readPiece := readPiece
  deletePiece := deletePiece
  saveState := saveState
  loadState := loadState

end MemoryStorageAdapter

end PonsWarp.Core
