import PonsWarp.Core.SharedStorage

set_option autoImplicit false

/-!
`IndexedDBStorageAdapter`, and any number of such adapters on one database. A request takes effect
in the order in which its transaction is made, so a method is cut where it waits for an answer:
between two of its stretches the other calls go on.
-/

namespace PonsWarp.Core

open PonsWarp.Data

/-- What is kept for a session: its state, its pieces and its manifests. -/
inductive RowKey
  | session (sessionId : SessionId)
  | piece (sessionId : SessionId) (fileId : FileId) (pieceIndex : Nat)
  | manifest (sessionId : SessionId) (fileId : FileId)
  deriving DecidableEq

def RowKey.sessionId : RowKey → SessionId
  | .session s | .piece s _ _ | .manifest s _ => s

inductive Row
  | session (state : PersistedSessionState)
  | piece (data : ArrayBuffer)
  | manifest (manifest : FileManifest)

/-- The object stores; a key is the list of what the key path leads to. -/
structure IDBDatabase where
  sessions : OrderedMap SessionId PersistedSessionState
  pieces : OrderedMap (SessionId × FileId × Nat) ArrayBuffer
  manifests : OrderedMap (SessionId × FileId) FileManifest

namespace IDBDatabase

def empty : IDBDatabase := ⟨.empty, .empty, .empty⟩

def row (db : IDBDatabase) : RowKey → Option Row
  | .session s => (db.sessions.get? s).map .session
  | .piece s f i => (db.pieces.get? (s, f, i)).map .piece
  | .manifest s f => (db.manifests.get? (s, f)).map .manifest

end IDBDatabase

/-- A request that changes a row. -/
inductive IDBRequest
  | putSession (state : PersistedSessionState)
  | putPiece (sessionId : SessionId) (fileId : FileId) (pieceIndex : Nat) (data : ArrayBuffer)
  | putManifest (sessionId : SessionId) (manifest : FileManifest)
  | delete (key : RowKey)

namespace IDBRequest

def key : IDBRequest → RowKey
  | putSession state => .session state.sessionId
  | putPiece s f i _ => .piece s f i
  | putManifest s m => .manifest s m.fileId
  | delete key => key

/-- What the row is afterwards. -/
def row? : IDBRequest → Option Row
  | putSession state => some (.session state)
  | putPiece _ _ _ data => some (.piece data)
  | putManifest _ m => some (.manifest m)
  | delete _ => none

end IDBRequest

namespace IDBDatabase

def apply (db : IDBDatabase) : IDBRequest → IDBDatabase
  | .putSession state => { db with sessions := db.sessions.set state.sessionId state }
  | .putPiece s f i data => { db with pieces := db.pieces.set (s, f, i) data }
  | .putManifest s m => { db with manifests := db.manifests.set (s, m.fileId) m }
  | .delete (.session s) => { db with sessions := db.sessions.delete s }
  | .delete (.piece s f i) => { db with pieces := db.pieces.delete (s, f, i) }
  | .delete (.manifest s f) => { db with manifests := db.manifests.delete (s, f) }

theorem row_apply (db : IDBDatabase) (r : IDBRequest) (key : RowKey) :
    (db.apply r).row key = if r.key = key then r.row? else db.row key := by
  cases r with
  | putSession state =>
    cases key <;>
      simp only [apply, row, IDBRequest.key, IDBRequest.row?, OrderedMap.get?_set,
        RowKey.session.injEq, reduceCtorEq, if_false, eq_comm]
    split <;> rfl
  | putPiece s f i data =>
    cases key <;>
      simp only [apply, row, IDBRequest.key, IDBRequest.row?, OrderedMap.get?_set, Prod.mk.injEq,
        RowKey.piece.injEq, reduceCtorEq, if_false, eq_comm]
    split <;> rfl
  | putManifest s m =>
    cases key <;>
      simp only [apply, row, IDBRequest.key, IDBRequest.row?, OrderedMap.get?_set, Prod.mk.injEq,
        RowKey.manifest.injEq, reduceCtorEq, if_false, eq_comm]
    split <;> rfl
  | delete gone =>
    cases gone <;> cases key <;>
      simp only [apply, row, IDBRequest.key, IDBRequest.row?, OrderedMap.get?_delete, Prod.mk.injEq,
        RowKey.session.injEq, RowKey.piece.injEq, RowKey.manifest.injEq, reduceCtorEq, if_false,
        eq_comm]
    all_goals split <;> rfl

end IDBDatabase

/-- How the requests of a stretch end, and the opening of a database that it waited for. -/
structure IDBTurn where
  opened : Option Failure
  read : Option Failure
  failed : IDBRequest → Option Failure

structure IndexedDBStorageAdapter where
  db : Bool
  sessionId : Option SessionId

/-- Where a method goes on. -/
inductive IDBFrame
  /-- `init` has asked for the database; `load` is whether `loadState` asked for it. -/
  | opening (sessionId : SessionId) (load : Bool)
  | reopened (sessionId : SessionId)
  | stateSaved (state : PersistedSessionState)
  | sessionDeleted (sessionId : SessionId)
  | piecesListed (sessionId : SessionId) (pieceKeys : List (SessionId × FileId × Nat))
  | manifestsListed (sessionId : SessionId) (pieceKeys : List (SessionId × FileId × Nat))
      (manifestKeys : List (SessionId × FileId))
  | piecesDeleted (sessionId : SessionId) (manifestKeys : List (SessionId × FileId))
  | manifestsDeleted (sessionId : SessionId)

inductive IDBNext
  | done (result : Except Failure StorageAnswer)
  | wait (frame : IDBFrame)

/-- What a stretch leaves of its adapter, the requests that it makes, and what comes next. -/
structure IDBStretch where
  adapter : IndexedDBStorageAdapter
  requests : List IDBRequest
  next : IDBNext

namespace IndexedDBStorageAdapter

def unavailable : Failure :=
  PonsWarpError "storage:indexeddb_unavailable" "IndexedDB is not available"

def notInitialized : Failure :=
  PonsWarpError "storage:not_initialized" "IndexedDB storage adapter is not initialized"

def requireSession (a : IndexedDBStorageAdapter) : Except Failure SessionId :=
  match a.sessionId with
  | some id => if id = "" then .error notInitialized else .ok id
  | none => .error notInitialized

def requireDb (a : IndexedDBStorageAdapter) : Except Failure Unit :=
  if a.db then .ok () else .error notInitialized

variable (a : IndexedDBStorageAdapter) (t : IDBTurn) (db : IDBDatabase)

def stop (result : Except Failure StorageAnswer) : IDBStretch := ⟨a, [], .done result⟩

/-- Requests that are made together; the first to fail is what the method fails with. -/
def request (requests : List IDBRequest) (next : IDBNext) : IDBStretch :=
  match a.requireDb with
  | .error err => if requests = [] then ⟨a, [], next⟩ else a.stop (.error err)
  | .ok () =>
    match requests.findSome? t.failed with
    | some err => ⟨a, requests, .done (.error err)⟩
    | none => ⟨a, requests, next⟩

/-- A request that changes nothing. -/
def query (next : IDBNext) : IDBStretch :=
  match a.requireDb with
  | .error err => a.stop (.error err)
  | .ok () =>
    match t.read with
    | some err => a.stop (.error err)
    | none => ⟨a, [], next⟩

def inSession (f : SessionId → IDBStretch) : IDBStretch :=
  match a.requireSession with
  | .error err => a.stop (.error err)
  | .ok session => f session

/-- `init`, which waits only for a database that is not open. -/
def init (available : Bool) (sessionId : SessionId) (load : Bool) : IDBStretch :=
  if !available then a.stop (.error unavailable)
  else if a.db then
    ⟨{ a with sessionId := some sessionId }, [],
      if load then .wait (.reopened sessionId) else .done (.ok .done)⟩
  else ⟨a, [], .wait (.opening sessionId load)⟩

def start (available : Bool) : StorageCall → IDBStretch
  | .init sessionId => a.init available sessionId false
  | .writePiece f i data =>
    a.inSession fun session => a.request t [.putPiece session f i data] (.done (.ok .done))
  | .readPiece f i =>
    a.inSession fun session => a.query t (.done (.ok (.piece (db.pieces.get? (session, f, i)))))
  | .hasPiece f i =>
    a.inSession fun session => a.query t (.done (.ok (.has (db.pieces.has (session, f, i)))))
  | .deletePiece f i =>
    a.inSession fun session => a.request t [.delete (.piece session f i)] (.done (.ok .done))
  | .saveState state =>
    match validatePersistedSessionState state with
    | .error err => a.stop (.error err)
    | .ok () => a.request t [.putSession state] (.wait (.stateSaved state))
  | .loadState sessionId =>
    if a.sessionId ≠ some sessionId then a.init available sessionId true
    else a.query t (.done (.ok (.state (db.sessions.get? sessionId))))
  | .cleanup sessionId =>
    a.request t [.delete (.session sessionId)] (.wait (.sessionDeleted sessionId))

def resume : IDBFrame → IDBStretch
  | .opening sessionId load =>
    match t.opened with
    | some err => a.stop (.error err)
    | none => ⟨⟨true, some sessionId⟩, [],
        if load then .wait (.reopened sessionId) else .done (.ok .done)⟩
  | .reopened sessionId => a.query t (.done (.ok (.state (db.sessions.get? sessionId))))
  | .stateSaved state =>
    a.request t (state.manifests.map (.putManifest state.sessionId)) (.done (.ok .done))
  | .sessionDeleted sessionId => a.query t (.wait (.piecesListed sessionId db.pieces.keys))
  | .piecesListed sessionId pieceKeys =>
    a.query t (.wait (.manifestsListed sessionId pieceKeys db.manifests.keys))
  | .manifestsListed sessionId pieceKeys manifestKeys =>
    a.request t ((pieceKeys.filter (·.1 = sessionId)).map fun k => .delete (.piece k.1 k.2.1 k.2.2))
      (.wait (.piecesDeleted sessionId manifestKeys))
  | .piecesDeleted sessionId manifestKeys =>
    a.request t ((manifestKeys.filter (·.1 = sessionId)).map fun k => .delete (.manifest k.1 k.2))
      (.wait (.manifestsDeleted sessionId))
  | .manifestsDeleted sessionId =>
    ({ a with sessionId := if a.sessionId = some sessionId then none else a.sessionId } :
      IndexedDBStorageAdapter).stop (.ok .done)

end IndexedDBStorageAdapter

/-- The adapters of all pages that have the database open, and their calls. -/
structure IDBWorld where
  available : Bool
  db : IDBDatabase
  adapters : List IndexedDBStorageAdapter
  calls : List (Nat × IDBNext)

inductive IDBAction
  | call (adapter : Nat) (c : StorageCall)
  | resume (call : Nat)

namespace IDBWorld

variable (w : IDBWorld)

/-- The stretch that an action runs, and the adapter that runs it. -/
def stretch? (t : IDBTurn) : IDBAction → Option (Nat × IDBStretch)
  | .call k c => w.adapters[k]?.map fun a => (k, a.start t w.db w.available c)
  | .resume j =>
    match w.calls[j]? with
    | some (k, .wait frame) => w.adapters[k]?.map fun a => (k, a.resume t w.db frame)
    | _ => none

/-- The requests that an action makes and that do not fail. -/
def requests (x : IDBTurn × IDBAction) : List IDBRequest :=
  match w.stretch? x.1 x.2 with
  | some (_, stretch) => stretch.requests.filter fun r => (x.1.failed r).isNone
  | none => []

def note (k : Nat) (next : IDBNext) : IDBAction → List (Nat × IDBNext)
  | .call _ _ => w.calls ++ [(k, next)]
  | .resume j => w.calls.set j (k, next)

def step (x : IDBTurn × IDBAction) : IDBWorld :=
  match w.stretch? x.1 x.2 with
  | some (k, stretch) =>
    { w with
      db := (w.requests x).foldl IDBDatabase.apply w.db
      adapters := w.adapters.set k stretch.adapter
      calls := w.note k stretch.next x.2 }
  | none => w

end IDBWorld

end PonsWarp.Core
