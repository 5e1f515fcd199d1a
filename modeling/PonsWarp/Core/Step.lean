import PonsWarp.Core.Transfer
import PonsWarp.Data.Run

set_option autoImplicit false

/-!
One engine with everything that happens to it: the calls of its user, the
messages and frames of its peers, timers, and the settling of the promises it
waits for. A world takes one action at a time, in any order.
-/

namespace PonsWarp.Core

open PonsWarp.Data

/-- The entry points of `PonsWarpEngine`. -/
inductive Call where
  | createSession (input : CreateInput) (files : List Blob)
  | joinSession (sessionId : SessionId) (manifests : List FileManifest)
  | requestNextPiece (peerId : PeerId) (fileId : FileId) (options : Option DirectRequestOptions)
  | requestPieceWindow (peerId : PeerId) (fileId : FileId) (options : DirectRequestOptions)
      (maxInFlight : Option Number)
  | requestNextGridPiece (fileId : FileId) (options : GridScheduleOptions)
  | requestGridPieceWindow (fileId : FileId) (options : GridScheduleOptions)
      (maxInFlightTotal maxInFlightPerPeer : Option Number)
  | receivePiece (fileId : FileId) (pieceIndex : Number) (requestId : RequestId)
      (data : ArrayBuffer) (expectedPeerId : Option PeerId)
  | resumeFile (fileId : FileId)
  | cancelDirectRequests (selector : DirectCancelSelector)
  | cancelCompetingGridRequests (fileId : FileId) (pieceIndex : Nat) (keepRequestId : RequestId)
  | expireDirectRequests (now : Option Number)
  | expireRequestLeases (now : Option Number)
  | updatePeerPieceMap (peerId : PeerId) (map : PieceMapBroadcast) (role : PeerRole)
  | exportPieceMapBroadcast (fileId : FileId)
  | broadcastPieceMap (fileId : FileId) (peers : List PeerId)
  | setPeerHealth (peerId : PeerId) (patch : PeerHealth → PeerHealth)
  | setTransferChunkBytes (bytes : Number)
  | applyTransferTuning (chunkSizeBytes : Number) (maxBytes : Option Number)
  | setTransport
  | flushDirectLifecycle
  | dispose

namespace Engine

variable {σ : Type} [StorageAdapter σ]

/-- `flushDirectLifecycle` waits for the tasks that every window has so far. -/
def flushDirectLifecycle (e : Engine σ) (cfg : Config) (t : Turn) : Engine σ × Next :=
  match expireDirectRequests cfg t t.clock e.outstandingRequests.entries e with
  | (e, .error err) => (e, .throw err)
  | (e, .ok ()) =>
    let windows := e.directWindows.values
    (e, .await (.windows (windows.map fun ref =>
      (ref, ((e.windowHeap[ref]?).map (·.enqueued)).getD 0))) [.flushed windows])

/-- The first of the flushed windows that has an error. -/
def failedWindow (e : Engine σ) (windows : List Nat) : Option (Nat × DirectWindow × Failure) :=
  windows.findSome? fun ref => (e.windowHeap[ref]?).bind fun w => w.error.map fun err => (ref, w, err)

def flushed (e : Engine σ) (cfg : Config) (windows : List Nat) : Engine σ × Next :=
  match e.failedWindow windows with
  | none => (e.pruneDirectLifecycleMetadata cfg none, .ok .unit)
  | some (ref, w, err) =>
    ((e.putWindow ref { w with error := none }).pruneDirectLifecycleMetadata cfg none, .throw err)

def dispose (e : Engine σ) (cfg : Config) (t : Turn) : Engine σ × Next :=
  if e.disposed then e.flushDirectLifecycle cfg t
  else
    match e.cancelDirectRequests cfg t ⟨none, none, none, none, none⟩ with
    | (e, .error err) => (e, .throw err)
    | (e, .ok _) =>
      let (e, next) := e.flushDirectLifecycle cfg t
      (e, next.andThen .disposeFlushed)

def disposeFlushed (e : Engine σ) : Except Failure Value → Engine σ × Next
  | .error err => (e, .throw err)
  | .ok _ =>
    ({ e with disposed := true, directTimers := .empty, outstandingRequests := .empty,
              directWindows := .empty, subscribed := false }, .ok .unit)

/-- A method without an await: what it throws rejects the promise of its caller. -/
def settled {α : Type} (value : α → Value) : Engine σ × Except Failure α → Engine σ × Next
  | (e, .error err) => (e, .throw err)
  | (e, .ok a) => (e, .ok (value a))

def call (e : Engine σ) (cfg : Config) (t : Turn) : Call → Engine σ × Next
  | .createSession input files => e.createSession t input files
  | .joinSession sessionId manifests => e.joinSession t sessionId manifests
  | .requestNextPiece peerId fileId options => e.requestNextPiece cfg t peerId fileId options
  | .requestPieceWindow peerId fileId options maxInFlight =>
    settled (fun _ => .unit) (e.requestPieceWindow cfg peerId fileId options maxInFlight)
  | .requestNextGridPiece fileId options => e.requestNextGridPiece cfg t fileId options
  | .requestGridPieceWindow fileId options total perPeer =>
    e.requestGridPieceWindow cfg t fileId options total perPeer
  | .receivePiece fileId pieceIndex requestId data expectedPeerId =>
    e.receivePiece cfg fileId pieceIndex requestId data expectedPeerId
  | .resumeFile fileId => e.resumeFile t fileId
  | .cancelDirectRequests selector =>
    settled (fun _ => .unit) (e.cancelDirectRequests cfg t selector)
  | .cancelCompetingGridRequests fileId pieceIndex keepRequestId =>
    settled (fun _ => .unit) (e.cancelCompetingGridRequests t fileId pieceIndex keepRequestId)
  | .expireDirectRequests now =>
    settled (fun _ => .unit)
      (Engine.expireDirectRequests cfg t (now.getD t.clock) e.outstandingRequests.entries e)
  | .expireRequestLeases now =>
    settled (fun _ => .unit) (e.expireRequestLeases cfg (now.getD (t.now : Number)))
  | .updatePeerPieceMap peerId map role =>
    match e.updatePeerPieceMap peerId map role with
    | .error err => (e, .throw err)
    | .ok e => (e, .ok .unit)
  | .exportPieceMapBroadcast fileId => settled .pieceMap (e.exportPieceMapBroadcast t fileId)
  | .broadcastPieceMap fileId peers => e.broadcastPieceMap t fileId peers
  | .setPeerHealth peerId patch =>
    ({ e with peerHealth := e.peerHealth.set cfg.log2 peerId patch }, .ok .unit)
  | .setTransferChunkBytes bytes =>
    ({ e with transferChunkBytes := clampTransferChunkBytes bytes MAX_TRANSFER_CHUNK_BYTES },
     .ok .unit)
  | .applyTransferTuning chunkSizeBytes maxBytes =>
    ({ e with transferChunkBytes :=
        clampTransferChunkBytes chunkSizeBytes (maxBytes.getD MAX_TRANSFER_CHUNK_BYTES) }, .ok .unit)
  | .setTransport => ({ e with transport := true, subscribed := true }, .ok .unit)
  | .flushDirectLifecycle => e.flushDirectLifecycle cfg t
  | .dispose => e.dispose cfg t

/-- After `maybeScheduleEndgamePiece` in the loop of `requestGridPieceWindow`. -/
def gridEndgame (e : Engine σ) (cfg : Config) (t : Turn) (fileId : FileId)
    (options : GridScheduleOptions) (maxInFlightTotal : Number)
    (scheduled : List GridScheduleResult) : Except Failure Value → Engine σ × Next
  | .error err => (e, .throw err)
  | .ok (.grid (some result)) => e.gridWindowResult cfg t fileId options maxInFlightTotal scheduled result
  | .ok (.grid none) =>
    let (e, next) := e.requestNextGridPiece cfg t fileId options
    (e, next.andThen (.gridNext fileId options maxInFlightTotal scheduled))
  | .ok v => (e, .ok v)

def gridNext (e : Engine σ) (cfg : Config) (t : Turn) (fileId : FileId)
    (options : GridScheduleOptions) (maxInFlightTotal : Number)
    (scheduled : List GridScheduleResult) : Except Failure Value → Engine σ × Next
  | .error err => (e, .throw err)
  | .ok (.grid (some result)) => e.gridWindowResult cfg t fileId options maxInFlightTotal scheduled result
  | .ok v => (e, .ok v)

def gridSent (e : Engine σ) (t : Turn) (result : GridScheduleResult) :
    Except Failure Value → Engine σ × Next
  | .error err => (e, .throw err)
  | .ok _ =>
    let (e, next) := e.persistState t
    (e, next.andThen (.gridPersisted result))

/-- A request of `requestPieceWindow` has been made, or there is none to make. -/
def windowFilled (e : Engine σ) (cfg : Config) (t : Turn) (window : Nat) (windowKey : String)
    (peerId : PeerId) (fileId : FileId) (options : DirectRequestOptions)
    (scheduled : List ScheduledPiece) : Except Failure Value → Engine σ × Next
  | .error err => (e, .throw err)
  | .ok (.piece (some next)) =>
    e.fillWindow cfg t window windowKey peerId fileId options (scheduled ++ [next])
  | .ok (.piece none) => (e, .ok (.pieces scheduled))
  | .ok v => (e, .ok v)

/-- Pass a failure on, and fulfil with `v` otherwise. -/
def thenReturn (e : Engine σ) (v : Value) : Except Failure Value → Engine σ × Next
  | .error err => (e, .throw err)
  | .ok _ => (e, .ok v)

/-- The handler that `bindTransport` puts behind every message and frame. -/
def messageHandled (e : Engine σ) : Except Failure Value → Engine σ × Next
  | .error err => (e.emit (.pieceRejected "" (-1) err.message), .ok .unit)
  | .ok _ => (e, .ok .unit)

/-- Continue a method behind its await, with the outcome it waited for. -/
def resume (e : Engine σ) (cfg : Config) (t : Turn) (outcome : Except Failure Value) :
    Frame → Engine σ × Next
  | .requestSent ref requestId scheduled => e.requestSent cfg t ref requestId scheduled outcome
  | .requestPersisted ref requestId scheduled =>
    e.requestPersisted cfg t ref requestId scheduled outcome
  | .fillWindow window windowKey peerId fileId options scheduled =>
    e.windowFilled cfg t window windowKey peerId fileId options scheduled outcome
  | .windowJob window trackFailure => e.windowJobEnded window trackFailure outcome
  | .gridSent result => e.gridSent t result outcome
  | .gridPersisted result => e.thenReturn (.grid (some result)) outcome
  | .gridEndgame fileId options total scheduled =>
    e.gridEndgame cfg t fileId options total scheduled outcome
  | .gridNext fileId options total scheduled =>
    e.gridNext cfg t fileId options total scheduled outcome
  | .endgameSent result => e.thenReturn (.grid (some result)) outcome
  | .pieceChecked receipt =>
    match outcome with
    | .ok (.bool verified) => e.pieceChecked cfg t receipt verified
    | outcome => (e, .done outcome)
  | .pieceDeleted receipt outstanding => e.pieceDeleted t receipt outstanding outcome
  | .mismatchPersisted receipt outstanding => e.mismatchPersisted cfg t receipt outstanding outcome
  | .pieceWritten receipt outstanding => e.pieceWritten cfg t receipt outstanding outcome
  | .piecePersisted receipt outstanding => e.piecePersisted cfg t receipt outstanding outcome
  | .mapAnnounced receipt => e.mapAnnounced receipt outcome
  | .resumeRead restore index => e.resumeRead cfg t restore index outcome
  | .resumeChecked restore index =>
    match outcome with
    | .ok (.bool verified) => e.resumeChecked t restore index verified
    | outcome => (e, .done outcome)
  | .resumeDeleted restore index reason => e.resumeDeleted t restore index reason outcome
  | .fileRestored fileId => e.fileRestored t fileId outcome
  | .filePersisted fileId result => e.filePersisted t fileId result outcome
  | .fileAnnounced result => e.thenReturn (.restored result) outcome
  | .joinInitialized sessionId manifests => e.joinInitialized t sessionId manifests outcome
  | .joinLoaded sessionId manifests => e.joinLoaded t sessionId manifests outcome
  | .joinRestored sessionId merged fileId pending =>
    e.joinRestored t sessionId merged fileId pending outcome
  | .joinPersisted sessionId merged => e.thenReturn (.session sessionId merged) outcome
  | .createInitialized input files => e.createInitialized cfg t input files outcome
  | .createHashed input file files manifests =>
    e.createHashed cfg t input file files manifests outcome
  | .createPersisted sessionId manifests => e.thenReturn (.session sessionId manifests) outcome
  | .messageHandled => e.messageHandled outcome
  | .chunkAppended peerId header => e.chunkAppended cfg peerId header outcome
  | .chunkRejected => e.thenReturn (.buffer none) outcome
  | .pieceReceived peerId header outstanding =>
    e.pieceReceived cfg t peerId header outstanding outcome
  | .responseSent result outstanding => e.responseSent cfg t result outstanding outcome
  | .rejectSent peerId header manager outstanding finalizedDirect =>
    e.rejectSent cfg t peerId header manager outstanding finalizedDirect outcome
  | .rejectRequested =>
    match outcome with
    | .error err => (e, .throw err)
    | .ok _ => e.persistState t
  | .sourceRead peerId request pieceIndex => e.sourceRead t peerId request pieceIndex outcome
  | .storedRead peerId request pieceIndex => e.storedRead t peerId request pieceIndex outcome
  | .headerSent upload => e.headerSent t upload outcome
  | .binarySent upload => e.binarySent t upload outcome
  | .uploadJob peerId => e.uploadJobEnded peerId outcome
  | .flushed windows =>
    match outcome with
    | .error err => (e, .throw err)
    | .ok _ => e.flushed cfg windows
  | .disposeFlushed => e.disposeFlushed outcome

/-- The callback of the `k`th timer that was armed. -/
def timerFired (e : Engine σ) (cfg : Config) (t : Turn) (requestId : RequestId)
    (windowKey : String) : Engine σ :=
  if windowKey = "" then
    match e.expireDirectRequest cfg t requestId with
    | .error _ => e
    | .ok e => e
  else e.enqueueWindow windowKey (.expire requestId)

end Engine

inductive Action where
  | call (call : Call)
  | message (peerId : PeerId) (message : Option WireMessage)
  | binary (peerId : PeerId) (frame : ArrayBuffer)
  | resume (task : Nat)
  | window (window : Nat)
  | upload (peerId : PeerId)
  | timer (timer : Nat)

/-- `tasks` keeps every promise ever made, the settled ones without frames. -/
structure World (σ : Type) where
  engine : Engine σ
  tasks : List Task
  fired : List Nat

def World.new {σ : Type} (storage : σ) (transport : Bool) : World σ :=
  ⟨Engine.new storage transport, [], []⟩

/-- The promise of a method that has run up to the given point, above other frames. -/
def Next.task (next : Next) (below : List Frame) : Task :=
  match next with
  | .await pending frames => ⟨pending, frames ++ below⟩
  | .done outcome => ⟨.settled outcome, below⟩

/-- What a task waits for, once it is there. -/
def Engine.outcome {σ : Type} (e : Engine σ) : Pending → Option (Except Failure Value)
  | .settled outcome => some outcome
  | .windows waits =>
    if waits.all fun p => decide (p.2 ≤ ((e.windowHeap[p.1]?).map (·.completed)).getD 0) then
      some (.ok .unit)
    else none

namespace World

variable {σ : Type} [StorageAdapter σ]

def spawn (w : World σ) (result : Engine σ × Next) : World σ :=
  { w with engine := result.1, tasks := w.tasks ++ [result.2.task []] }

def resumeTask (w : World σ) (cfg : Config) (t : Turn) (i : Nat) : World σ :=
  match w.tasks[i]? with
  | some ⟨pending, frame :: below⟩ =>
    match w.engine.outcome pending with
    | some outcome =>
      let (e, next) := w.engine.resume cfg t outcome frame
      { w with engine := e, tasks := w.tasks.set i (next.task below) }
    | none => w
  | _ => w

def handleMessage (w : World σ) (cfg : Config) (t : Turn) (peerId : PeerId)
    (message : Option WireMessage) : World σ :=
  if w.engine.subscribed then
    let (e, next) := w.engine.handleTransportMessage cfg t peerId message
    w.spawn (e, next.andThen .messageHandled)
  else w

def handleBinary (w : World σ) (cfg : Config) (t : Turn) (peerId : PeerId)
    (frame : ArrayBuffer) : World σ :=
  if w.engine.subscribed then
    let (e, next) := w.engine.handleTransportBinary cfg t peerId frame
    w.spawn (e, next.andThen .messageHandled)
  else w

/-- A timer fires once, and only while it is not cancelled. -/
def fireTimer (w : World σ) (cfg : Config) (t : Turn) (k : Nat) : World σ :=
  match w.engine.armed[k]? with
  | some (requestId, windowKey) =>
    if k ∉ w.fired ∧ w.engine.directTimers.get? requestId = some k then
      { w with engine := w.engine.timerFired cfg t requestId windowKey, fired := w.fired ++ [k] }
    else w
  | none => w

/-- One uninterrupted stretch of code. An action that is not possible changes nothing. -/
def step (cfg : Config) (w : World σ) : Turn × Action → World σ
  | (t, .call c) => w.spawn (w.engine.call cfg t c)
  | (t, .message peerId message) => w.handleMessage cfg t peerId message
  | (t, .binary peerId frame) => w.handleBinary cfg t peerId frame
  | (t, .resume i) => w.resumeTask cfg t i
  | (t, .window ref) => ((w.engine.startWindowJob cfg t ref).map w.spawn).getD w
  | (t, .upload peerId) => ((w.engine.startUploadJob t peerId).map w.spawn).getD w
  | (t, .timer k) => w.fireTimer cfg t k

end World

/-! Values to run examples with. -/

namespace Sample

def config : Config :=
  ⟨fun data => if data = [1] then "one" else "other", fun _ => 0, 3, 4096, 30000, none⟩

/-- Nothing fails. -/
def turn : Turn := ⟨0, 0, "a", fun _ => none, none⟩

def piece : PieceDescriptor := ⟨0, 0, 1, some "one"⟩

def manifest : FileManifest := ⟨"1.0.0", "f", "f", 1, "", 1, 1, none, [piece]⟩

/-- A file of two pieces. -/
def pair : FileManifest := ⟨"1.0.0", "f", "f", 2, "", 1, 2, none, [piece, ⟨1, 1, 1, some "one"⟩]⟩

/-- A session with the manifest has been joined. -/
def joined : List (Turn × Action) :=
  [(turn, .call (.joinSession "s" [manifest])), (turn, .resume 0), (turn, .resume 0)]

def start : World MemoryStorageAdapter := World.new .empty true

end Sample

end PonsWarp.Core
