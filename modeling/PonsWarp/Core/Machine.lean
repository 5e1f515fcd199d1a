import PonsWarp.Core.Engine

set_option autoImplicit false

/-!
The asynchronous methods of the engine. Each is cut at its awaits into stretches
of code that run without interruption; what is left to do after an await is a
`Frame` with the local variables it still needs, and a promise that is being
computed is a `Task`: what it waits for and the frames above it. Between two
stretches any other task may run.
-/

namespace PonsWarp.Core

open PonsWarp.Data

inductive GridReason where
  | rarest_first | fastest_peer | owner_fallback
  deriving DecidableEq, Repr

inductive GridScheduleResult where
  | scheduled (pieceIndex : Nat) (peerId : PeerId) (requestId : RequestId) (reason : GridReason)
  | idle (reason : String)
  | exhausted (pieceIndex : Nat) (reason : String)
  deriving DecidableEq, Repr

structure PieceReceiveResult where
  acknowledged : Bool
  fileId : FileId
  pieceIndex : Number
  requestId : RequestId
  reason : Option String
  hash : Option String
  deriving DecidableEq, Repr

structure ResumeRestoreResult where
  manager : PieceManager
  verifiedPieces : List Nat
  missingPieces : List Nat
  discardedPieces : List Nat
  deriving DecidableEq, Repr

/-- What a promise of the engine is fulfilled with. -/
inductive Value where
  | unit
  | bool (b : Bool)
  | buffer (data : Option ArrayBuffer)
  | state (state : Option PersistedSessionState)
  | manifest (manifest : FileManifest)
  | pieceMap (map : PieceMapBroadcast)
  | piece (piece : Option ScheduledPiece)
  | pieces (pieces : List ScheduledPiece)
  | grid (result : Option GridScheduleResult)
  | grids (results : List GridScheduleResult)
  | received (result : PieceReceiveResult)
  | restored (result : ResumeRestoreResult)
  | session (sessionId : SessionId) (manifests : List FileManifest)

/-- The arguments of `receivePiece` and what it has read by its first await. -/
structure Receipt where
  fileId : FileId
  pieceIndex : Nat
  requestId : RequestId
  data : ArrayBuffer
  expectedPeerId : Option PeerId
  descriptor : PieceDescriptor
  manager : Nat

/-- The local variables of `restoreResumeState` inside its loop. -/
structure Restore where
  manifest : FileManifest
  manager : PieceManager
  pending : List Nat
  discarded : List Nat

/-- The local variables of `sendRequestedPiece` inside its loop. -/
structure Upload where
  peerId : PeerId
  request : PieceRequestMessage
  pieceIndex : Nat
  data : ArrayBuffer
  chunkSize : Nat
  totalChunks : Nat
  chunkIndex : Nat

structure CreateInput where
  sessionId : SessionId
  pieceSize : Number
  includeFileHash : Bool

inductive Frame where
  | requestSent (manager : Nat) (requestId : RequestId) (scheduled : ScheduledPiece)
  | requestPersisted (manager : Nat) (requestId : RequestId) (scheduled : ScheduledPiece)
  | fillWindow (window : Nat) (windowKey : String) (peerId : PeerId) (fileId : FileId)
      (options : DirectRequestOptions) (scheduled : List ScheduledPiece)
  | windowJob (window : Nat) (trackFailure : Bool)
  | gridSent (result : GridScheduleResult)
  | gridPersisted (result : GridScheduleResult)
  | gridEndgame (fileId : FileId) (options : GridScheduleOptions) (maxInFlightTotal : Number)
      (scheduled : List GridScheduleResult)
  | gridNext (fileId : FileId) (options : GridScheduleOptions) (maxInFlightTotal : Number)
      (scheduled : List GridScheduleResult)
  | endgameSent (result : GridScheduleResult)
  | pieceChecked (receipt : Receipt)
  | pieceDeleted (receipt : Receipt) (outstanding : Option OutstandingRequest)
  | mismatchPersisted (receipt : Receipt) (outstanding : Option OutstandingRequest)
  | pieceWritten (receipt : Receipt) (outstanding : Option OutstandingRequest)
  | piecePersisted (receipt : Receipt) (outstanding : Option OutstandingRequest)
  | mapAnnounced (receipt : Receipt)
  | resumeRead (restore : Restore) (index : Nat)
  | resumeChecked (restore : Restore) (index : Nat)
  | resumeDeleted (restore : Restore) (index : Nat) (reason : String)
  | fileRestored (fileId : FileId)
  | filePersisted (fileId : FileId) (result : ResumeRestoreResult)
  | fileAnnounced (result : ResumeRestoreResult)
  | joinInitialized (sessionId : SessionId) (manifests : List FileManifest)
  | joinLoaded (sessionId : SessionId) (manifests : List FileManifest)
  | joinRestored (sessionId : SessionId) (merged : List FileManifest) (fileId : FileId)
      (pending : List PieceMap)
  | joinPersisted (sessionId : SessionId) (merged : List FileManifest)
  | createInitialized (input : CreateInput) (files : List Blob)
  | createHashed (input : CreateInput) (file : Blob) (files : List Blob)
      (manifests : List FileManifest)
  | createPersisted (sessionId : SessionId) (manifests : List FileManifest)
  | messageHandled
  | chunkAppended (peerId : PeerId) (header : PieceChunkHeaderMessage)
  | chunkRejected
  | pieceReceived (peerId : PeerId) (header : PieceChunkHeaderMessage)
      (outstanding : OutstandingRequest)
  | responseSent (result : PieceReceiveResult) (outstanding : OutstandingRequest)
  | rejectSent (peerId : PeerId) (header : PieceChunkHeaderMessage) (manager : Option Nat)
      (outstanding : Option OutstandingRequest) (finalizedDirect : Bool)
  | rejectRequested
  | sourceRead (peerId : PeerId) (request : PieceRequestMessage) (pieceIndex : Nat)
  | storedRead (peerId : PeerId) (request : PieceRequestMessage) (pieceIndex : Nat)
  | headerSent (upload : Upload)
  | binarySent (upload : Upload)
  | uploadJob (peerId : PeerId)
  | flushed (windows : List Nat)
  | disposeFlushed

/-- What a task waits for: an operation that settles with a known outcome, or the
completion of the first so many tasks of each of some direct windows. -/
inductive Pending where
  | settled (outcome : Except Failure Value)
  | windows (waits : List (Nat × Nat))

structure Task where
  pending : Pending
  stack : List Frame

/-- How a stretch of code ends: at an await, or by settling the promise of the
method it belongs to. -/
inductive Next where
  | await (pending : Pending) (frames : List Frame)
  | done (outcome : Except Failure Value)

/-- `await method()` in a caller that continues with `frame`. -/
def Next.andThen (next : Next) (frame : Frame) : Next :=
  match next with
  | .await pending frames => .await pending (frames ++ [frame])
  | .done outcome => .await (.settled outcome) [frame]

def Next.ok (v : Value) : Next := .done (.ok v)
def Next.throw (err : Failure) : Next := .done (.error err)

namespace Engine

variable {σ : Type}

/-- `transport.send`, awaited. -/
def send (e : Engine σ) (t : Turn) (peerId : PeerId) (message : TransferMessage) :
    Engine σ × Next :=
  if e.transport then
    ({ e with log := e.log ++ [.send peerId message (t.sendFailure peerId)] },
     .await (.settled (match t.sendFailure peerId with
       | some err => .error err
       | none => .ok .unit)) [])
  else (e, .throw (PonsWarpError "transport:not_configured" "Engine transport is not configured"))

def sendBinary (e : Engine σ) (t : Turn) (peerId : PeerId) (frame : ArrayBuffer) :
    Engine σ × Next :=
  if e.transport then
    ({ e with log := e.log ++ [.sendBinary peerId frame (t.sendFailure peerId)] },
     .await (.settled (match t.sendFailure peerId with
       | some err => .error err
       | none => .ok .unit)) [])
  else (e, .throw (PonsWarpError "transport:not_configured" "Engine transport is not configured"))

/-- An awaited storage operation: it takes effect now and is seen to settle later. -/
def storageCall {α : Type} (e : Engine σ) (t : Turn) (value : α → Value)
    (result : Except Failure α × σ) : Engine σ × Next :=
  match t.storageFailure with
  | some (err, applied) =>
    (if applied then { e with storage := result.2 } else e, .await (.settled (.error err)) [])
  | none =>
    ({ e with storage := result.2 },
     .await (.settled (match result.1 with
       | .ok a => .ok (value a)
       | .error err => .error err)) [])

variable [StorageAdapter σ]

def persistState (e : Engine σ) (t : Turn) : Engine σ × Next :=
  match e.sessionId with
  | none => (e, .ok .unit)
  | some sessionId =>
    if sessionId = "" ∨ e.manifests.size = 0 then (e, .ok .unit)
    else e.storageCall t (fun _ => .unit)
      (StorageAdapter.saveState (e.persistedState sessionId) e.storage)

/-- The awaited `Promise.all` of the sends of a piece map. -/
def broadcastPieceMap (e : Engine σ) (t : Turn) (fileId : FileId) (peers : List PeerId) :
    Engine σ × Next :=
  match e.exportPieceMapBroadcast t fileId with
  | (e, .error err) => (e, .throw err)
  | (e, .ok map) =>
    if e.transport ∨ peers = [] then
      ({ e with log := e.log ++ peers.map fun p => Effect.send p (.PIECE_MAP map) (t.sendFailure p) },
       .await (.settled (match peers.findSome? t.sendFailure with
         | some err => .error err
         | none => .ok (.pieceMap map))) [])
    else (e, .throw (PonsWarpError "transport:not_configured" "Engine transport is not configured"))

def sendPieceRequest (e : Engine σ) (t : Turn) (peerId : PeerId) (fileId : FileId)
    (index : Nat) (requestId : RequestId) : Engine σ × Next :=
  e.send t peerId (.PIECE_REQUEST ⟨fileId, index, requestId, 0⟩)

/-- `a ?? b` for a window key: `fileId:peerId:controllerId` is the default. -/
def defaultWindowKey (fileId : FileId) (peerId : PeerId) (controllerId : Option String) : String :=
  fileId ++ ":" ++ peerId ++ ":" ++ controllerId.getD "default"

def freshWindow (fileId : FileId) (peerId : PeerId) (controllerId : Option String) (cap : Number)
    (generation : Nat) : DirectWindow :=
  ⟨fileId, peerId, controllerId, cap, generation, [], false, 0, 0, none, false, false⟩

/-- The stretch of `requestNextPiece` that records the request. -/
def recordRequest (e : Engine σ) (cfg : Config) (t : Turn) (peerId : PeerId) (fileId : FileId)
    (index : Nat) (requestId : RequestId) (options : Option DirectRequestOptions) : Engine σ :=
  match options with
  | none =>
    { e with
      outstandingRequests :=
        e.outstandingRequests.set requestId ⟨fileId, index, peerId, t.clock, none, none⟩
      issued := e.issued ++ [requestId] }
  | some o =>
    let timeoutMs := o.timeoutMs.getD cfg.defaultDirectTimeout
    let windowKey := o.windowKey.getD (defaultWindowKey fileId peerId o.controllerId)
    let e := if windowKey ≠ "" ∧ ¬ e.directWindows.has windowKey then
        e.newWindow windowKey (freshWindow fileId peerId o.controllerId 1 0)
      else e
    let generation :=
      if windowKey = "" then 0 else ((e.window? windowKey).map fun p => p.2.generation).getD 0
    -- the timer is armed here; its callback goes through the window's chain
    { e with
      outstandingRequests := e.outstandingRequests.set requestId ⟨fileId, index, peerId, t.clock,
        none, some ⟨timeoutMs, o.controllerId, windowKey, t.clock + timeoutMs, generation,
          o.retryCount⟩⟩
      issued := e.issued ++ [requestId]
      directTimers := e.directTimers.set requestId e.armed.length
      armed := e.armed ++ [(requestId, windowKey)] }

def requestNextPiece (e : Engine σ) (cfg : Config) (t : Turn) (peerId : PeerId)
    (fileId : FileId) (options : Option DirectRequestOptions) : Engine σ × Next :=
  match e.requireManager fileId with
  | .error err => (e, .throw err)
  | .ok ref =>
    match (OwnerFirstScheduler.mk peerId cfg.maxRetries).next (e.managerAt ref) with
    | .error err => (e, .throw err)
    | .ok none => (e, .ok (.piece none))
    | .ok (some scheduled) =>
      let index := scheduled.piece.index
      match (match options.bind (·.timeoutMs) with
        | some timeoutMs => assertPositiveSafeInteger timeoutMs "timeoutMs"
        | none => .ok ()) with
      | .error err => (e, .throw err)
      | .ok () =>
        let requestId := t.createRequestId fileId index
        match e.onManager ref (fun m => m.markRequested index peerId) with
        | .error err => (e, .throw err)
        | .ok e =>
          let e := e.recordRequest cfg t peerId fileId index requestId options
          let (e, next) := e.sendPieceRequest t peerId fileId index requestId
          (e, next.andThen (.requestSent ref requestId scheduled))

/-- After the send of `requestNextPiece`. -/
def requestSent (e : Engine σ) (cfg : Config) (t : Turn) (ref : Nat) (requestId : RequestId)
    (scheduled : ScheduledPiece) : Except Failure Value → Engine σ × Next
  | .error _ =>
    match e.markFailed ref scheduled.piece.index "send_failed" with
    | .error err => (e, .throw err)
    | .ok e => ((e.finalizeDirectRequest cfg t requestId .send_failed).1, .ok (.piece none))
  | .ok _ =>
    let (e, next) := e.persistState t
    (e, next.andThen (.requestPersisted ref requestId scheduled))

def requestPersisted (e : Engine σ) (cfg : Config) (t : Turn) (ref : Nat) (requestId : RequestId)
    (scheduled : ScheduledPiece) : Except Failure Value → Engine σ × Next
  | .error error =>
    let e := e.emitDirectLifecycleError t .persist (e.outstandingRequests.get? requestId) requestId
      error
    match e.markFailed ref scheduled.piece.index "persist_failed" with
    | .error err => (e, .throw err)
    | .ok e => ((e.finalizeDirectRequest cfg t requestId .cancelled).1, .ok (.piece none))
  | .ok _ => (e, .ok (.piece (some scheduled)))

/-- The loop of `requestPieceWindow`. -/
def fillWindow (e : Engine σ) (cfg : Config) (t : Turn) (window : Nat) (windowKey : String)
    (peerId : PeerId) (fileId : FileId) (options : DirectRequestOptions)
    (scheduled : List ScheduledPiece) : Engine σ × Next :=
  let cap := ((e.windowHeap[window]?).map (·.cap)).getD 0
  if (e.countOutstandingRequestsForWindow windowKey : Number) < cap then
    let (e, next) := e.requestNextPiece cfg t peerId fileId
      (some { options with windowKey := some windowKey })
    (e, next.andThen (.fillWindow window windowKey peerId fileId options scheduled))
  else (e, .ok (.pieces scheduled))

/-- The closure that `finalizeDirectRequest` queues for a request that will be retried. -/
def retryDirectRequest (e : Engine σ) (cfg : Config) (t : Turn) (requestId : RequestId)
    (request : OutstandingRequest) (direct : DirectRequest) : Engine σ × Next :=
  if e.disposed ∨ requestId ∈ e.directTombstones then (e, .ok .unit)
  else
    match e.window? direct.windowKey with
    | none => (e, .ok .unit)
    | some (_, retryWindow) =>
      if retryWindow.disabled ∨ retryWindow.generation ≠ direct.generation then (e, .ok .unit)
      else if retryWindow.cap ≤ (e.countOutstandingRequestsForWindow direct.windowKey : Number) then
        (e, .ok .unit)
      else
        match (match e.managers.get? request.fileId with
          | some ref => e.resetFailedToMissing ref request.pieceIndex
          | none => .ok e) with
        | .error err => (e, .throw err)
        | .ok e => e.requestNextPiece cfg t request.peerId request.fileId
            (some ⟨some direct.timeoutMs, direct.controllerId, some direct.windowKey,
              direct.retryCount + 1⟩)

def WindowJob.trackFailure : WindowJob → Bool
  | .fill .. => false
  | .retry .. => true
  | .expire .. => true

def runWindowJob (e : Engine σ) (cfg : Config) (t : Turn) (window : Nat) :
    WindowJob → Engine σ × Next
  | .fill peerId fileId windowKey options =>
    e.fillWindow cfg t window windowKey peerId fileId options []
  | .retry requestId request direct => e.retryDirectRequest cfg t requestId request direct
  | .expire requestId =>
    match e.expireDirectRequest cfg t requestId with
    | .error err => (e, .throw err)
    | .ok e => (e, .ok .unit)

/-- The next task of a window's chain starts, when the one before it has ended. -/
def startWindowJob (e : Engine σ) (cfg : Config) (t : Turn) (window : Nat) :
    Option (Engine σ × Next) :=
  match e.windowHeap[window]? with
  | none => none
  | some w =>
    match w.queue with
    | [] => none
    | job :: rest =>
      if w.running then none
      else
        let e := e.putWindow window { w with queue := rest, running := true }
        let (e, next) := if w.disabled ∨ e.disposed then (e, .ok .unit)
          else e.runWindowJob cfg t window job
        some (e, next.andThen (.windowJob window (WindowJob.trackFailure job)))

def windowJobEnded (e : Engine σ) (window : Nat) (trackFailure : Bool)
    (outcome : Except Failure Value) : Engine σ × Next :=
  match e.windowHeap[window]? with
  | none => (e, .done outcome)
  | some w =>
    (e.putWindow window { w with
      running := false
      completed := w.completed + 1
      error := match outcome with
        | .error err => if trackFailure then some err else w.error
        | .ok _ => w.error }, .done outcome)

/-- `requestPieceWindow` up to the task it puts in the window's chain. -/
def requestPieceWindow (e : Engine σ) (cfg : Config) (peerId : PeerId) (fileId : FileId)
    (options : DirectRequestOptions) (maxInFlight : Option Number) :
    Engine σ × Except Failure Unit :=
  let maxInFlight := maxInFlight.getD (cfg.directWindowCap.getD 1)
  match assertPositiveSafeInteger maxInFlight "maxInFlight" with
  | .error err => (e, .error err)
  | .ok () =>
    let windowKey := options.windowKey.getD (defaultWindowKey fileId peerId options.controllerId)
    match e.window? windowKey with
    | none =>
      match e.allocateDirectGeneration with
      | .error err => (e, .error err)
      | .ok (generation, e) =>
        let e := e.newWindow windowKey
          (freshWindow fileId peerId options.controllerId maxInFlight generation)
        let e := e.pruneDirectLifecycleMetadata cfg (some windowKey)
        (e.enqueueWindow windowKey (.fill peerId fileId windowKey options), .ok ())
    | some (_, window) =>
      if window.cap ≠ maxInFlight then
        (e, .error (PonsWarpError "direct:window_cap_mismatch" "Direct window cap is immutable"))
      else if window.fileId ≠ fileId ∨ window.peerId ≠ peerId ∨
          window.controllerId ≠ options.controllerId then
        (e, .error (PonsWarpError "direct:window_identity_mismatch"
          "Direct window identity is immutable"))
      else if window.disabled then
        (e, .error (PonsWarpError "direct:window_cancelled" "Direct window is cancelled"))
      else (e.enqueueWindow windowKey (.fill peerId fileId windowKey options), .ok ())

/-- The pieces of `requestNextGridPiece` in the order they are tried. -/
def scheduleRanked (e : Engine σ) (cfg : Config) (t : Turn) (fileId : FileId) (ref : Nat)
    (options : GridScheduleOptions) (now : Number) : List RankedPiece → Engine σ × Next
  | [] => (e, .ok (.grid (some (.idle "no_available_peer"))))
  | item :: rest =>
    if cfg.maxRetries < item.retryCount then
      (e, .ok (.grid (some (.exhausted item.index "retry_limit"))))
    else
      match item.providers with
      | [] => e.scheduleRanked cfg t fileId ref options now rest
      | provider :: others =>
        let requestId := t.createRequestId fileId item.index
        match e.availability.lease fileId item.index
            ⟨provider.peerId, requestId, now, now + options.requestLeaseMs.getD 15000⟩ with
        | .error err => (e, .throw err)
        | .ok availability =>
          let e := { e with availability := availability }
          match e.onManager ref (fun m => m.markRequested item.index provider.peerId) with
          | .error err => (e, .throw err)
          | .ok e =>
            let e := { e with
              outstandingRequests := e.outstandingRequests.set requestId
                ⟨fileId, item.index, provider.peerId, now, some options, none⟩
              issued := e.issued ++ [requestId] }
            let (e, next) := e.sendPieceRequest t provider.peerId fileId item.index requestId
            let reason := if provider.role = .owner then .owner_fallback
              else if others = [] then .rarest_first else .fastest_peer
            (e, next.andThen (.gridSent (.scheduled item.index provider.peerId requestId reason)))

/-- `new Set(candidatePeers)` with the owner added. -/
def candidateSet (options : GridScheduleOptions) : List PeerId :=
  insertNew (options.candidatePeers.foldl insertNew []) options.ownerPeerId

/-- The owner's map that stands in when the table knows nothing of the file. -/
def ensureAvailability (e : Engine σ) (fileId : FileId) (options : GridScheduleOptions)
    (now : Number) : Except Failure (Engine σ) :=
  match e.availability.files.get? fileId with
  | some _ => .ok e
  | none =>
    match e.requireManifest fileId with
    | .error err => .error err
    | .ok manifest =>
      match e.availability.updatePeerPieceMap options.ownerPeerId .owner
          ⟨fileId, manifest.pieces.map fun p => (p.index : Number), manifest.pieceCount, 1, now⟩
          (e.peerHealth.get options.ownerPeerId).score with
      | .error err => .error err
      | .ok (_, availability) => .ok { e with availability := availability }

def requestNextGridPiece (e : Engine σ) (cfg : Config) (t : Turn) (fileId : FileId)
    (options : GridScheduleOptions) : Engine σ × Next :=
  match e.requireManager fileId with
  | .error err => (e, .throw err)
  | .ok ref =>
    let missingPieces := (e.managerAt ref).getMissingPieces
    if missingPieces = [] then (e, .ok (.grid (some (.idle "complete"))))
    else
      let now := options.now.getD (t.now : Number)
      match e.expireRequestLeases cfg now with
      | (e, .error err) => (e, .throw err)
      | (e, .ok ()) =>
        match e.ensureAvailability fileId options now with
        | .error err => (e, .throw err)
        | .ok e =>
          let active := activePerPeer e.outstandingRequests.values
          match rankPieces fileId (e.managerAt ref) (candidateSet options) options.ownerPeerId
              (options.maxRequestsPerPeer.getD 1) active now missingPieces e with
          | (e, .error err) => (e, .throw err)
          | (e, .ok ranked) =>
            let free := ranked.filter fun item => (e.availability.getLease fileId item.index).isNone
            e.scheduleRanked cfg t fileId ref options now (free.insertionSort RankedPiece.before)

/-- The pieces of `maybeScheduleEndgamePiece` in order of index. -/
def scheduleEndgame (e : Engine σ) (cfg : Config) (t : Turn) (fileId : FileId) (ref : Nat)
    (options : GridScheduleOptions) (active : PeerId → Nat) (now : Number) :
    List Nat → Engine σ × Next
  | [] => (e, .ok (.grid none))
  | index :: rest =>
    let asked := e.outstandingRequests.values.filter fun r =>
      r.fileId = fileId ∧ r.pieceIndex = index
    if asked = [] ∨ options.endgameMaxProviders.getD 2 ≤ (asked.length : Number) then
      e.scheduleEndgame cfg t fileId ref options active now rest
    else
      let (providers, e) := e.rankProviders fileId index (candidateSet options) options.ownerPeerId
        (options.maxRequestsPerPeer.getD 1) active now
      match providers.filter fun p => p.peerId ∉ asked.map (·.peerId) with
      | [] => e.scheduleEndgame cfg t fileId ref options active now rest
      | provider :: _ =>
        let requestId := t.createRequestId fileId index
        match e.onManager ref (fun m => m.markRequested index provider.peerId) with
        | .error err => (e, .throw err)
        | .ok e =>
          let e := { e with
            outstandingRequests := e.outstandingRequests.set requestId
              ⟨fileId, index, provider.peerId, now, some options, none⟩
            issued := e.issued ++ [requestId] }
          let (e, next) := e.sendPieceRequest t provider.peerId fileId index requestId
          (e, next.andThen (.endgameSent (.scheduled index provider.peerId requestId .fastest_peer)))

def maybeScheduleEndgamePiece (e : Engine σ) (cfg : Config) (t : Turn) (fileId : FileId)
    (options : GridScheduleOptions) : Engine σ × Next :=
  if options.endgame = some false then (e, .ok (.grid none))
  else
    match e.requireManager fileId with
    | .error err => (e, .throw err)
    | .ok ref =>
      let missing := (e.managerAt ref).getMissingPieces
      if missing = [] ∨ options.endgameMaxPieces.getD 4 < (missing.length : Number) then
        (e, .ok (.grid none))
      else
        let now := options.now.getD (t.now : Number)
        match e.expireRequestLeases cfg now with
        | (e, .error err) => (e, .throw err)
        | (e, .ok ()) =>
          let active := activePerPeer (e.outstandingRequests.values.filter fun r =>
            r.fileId = fileId)
          e.scheduleEndgame cfg t fileId ref options active now missing

/-- The head of the loop of `requestGridPieceWindow`. -/
def gridWindowLoop (e : Engine σ) (cfg : Config) (t : Turn) (fileId : FileId)
    (options : GridScheduleOptions) (maxInFlightTotal : Number)
    (scheduled : List GridScheduleResult) : Engine σ × Next :=
  if (e.countOutstandingRequests fileId : Number) < maxInFlightTotal then
    let (e, next) := e.maybeScheduleEndgamePiece cfg t fileId options
    (e, next.andThen (.gridEndgame fileId options maxInFlightTotal scheduled))
  else (e, .ok (.grids scheduled))

/-- The rest of the loop body once a result is there. -/
def gridWindowResult (e : Engine σ) (cfg : Config) (t : Turn) (fileId : FileId)
    (options : GridScheduleOptions) (maxInFlightTotal : Number)
    (scheduled : List GridScheduleResult) (result : GridScheduleResult) : Engine σ × Next :=
  match result with
  | .scheduled .. =>
    e.gridWindowLoop cfg t fileId options maxInFlightTotal (scheduled ++ [result])
  | _ => (e, .ok (.grids (if scheduled = [] then [result] else scheduled)))

def requestGridPieceWindow (e : Engine σ) (cfg : Config) (t : Turn) (fileId : FileId)
    (options : GridScheduleOptions) (maxInFlightTotal maxInFlightPerPeer : Option Number) :
    Engine σ × Next :=
  let total := maxInFlightTotal.getD 1
  match assertPositiveSafeInteger total "maxInFlightTotal" with
  | .error err => (e, .throw err)
  | .ok () =>
    let perPeer := maxInFlightPerPeer.getD (options.maxRequestsPerPeer.getD 1)
    match assertPositiveSafeInteger perPeer "maxInFlightPerPeer" with
    | .error err => (e, .throw err)
    | .ok () =>
      e.gridWindowLoop cfg t fileId { options with maxRequestsPerPeer := some perPeer } total []

/-- `emitRetryPerformance` reads the retry count of the piece, which may throw. -/
def emitRetryPerformance (e : Engine σ) (fileId : FileId) (index : Nat) : Except Failure Unit :=
  match e.managers.get? fileId with
  | none => .ok ()
  | some ref =>
    match (e.managerAt ref).getPieceState index with
    | .error err => .error err
    | .ok _ => .ok ()

def unauthorized (fileId : FileId) (index : Number) (requestId : RequestId) : Value :=
  .received ⟨false, fileId, index, requestId, some "unauthorized", none⟩

/-- `receivePiece` up to the hash check. -/
def receivePiece (e : Engine σ) (cfg : Config) (fileId : FileId) (pieceIndex : Number)
    (requestId : RequestId) (data : ArrayBuffer) (expectedPeerId : Option PeerId) :
    Engine σ × Next :=
  if requestId ∈ e.directTombstones ∨
      (isEngineGeneratedRequestId requestId ∧ ¬ e.outstandingRequests.has requestId) then
    (e, .ok (unauthorized fileId pieceIndex requestId))
  else
    match e.requireManifest fileId with
    | .error err => (e, .throw err)
    | .ok manifest =>
      match pieceIndex.index?.bind fun i => (manifest.pieces[i]?).map fun d => (i, d) with
      | none => (e, .throw (PonsWarpError "piece:not_found" "Unknown piece"))
      | some (index, descriptor) =>
        match e.requireManager fileId with
        | .error err => (e, .throw err)
        | .ok ref =>
          (e, .await (.settled (.ok (.bool (verifyPiece cfg.hash data descriptor))))
            [.pieceChecked ⟨fileId, index, requestId, data, expectedPeerId, descriptor, ref⟩])

/-- The check that stops a request that is no longer active, when a peer is expected. -/
def stillExpected (e : Engine σ) (r : Receipt) : Bool :=
  match r.expectedPeerId with
  | some peerId => e.isExactActiveRequest peerId r.fileId r.pieceIndex r.requestId
  | none => true

def rejectReceipt (r : Receipt) (reason : String) : Value :=
  .received ⟨false, r.fileId, r.pieceIndex, r.requestId, some reason, none⟩

/-- After the hash check: the corrupt piece is deleted, the good one written. -/
def pieceChecked (e : Engine σ) (cfg : Config) (t : Turn) (r : Receipt) (verified : Bool) :
    Engine σ × Next :=
  if ¬ e.stillExpected r then (e, .ok (rejectReceipt r "unauthorized"))
  else
    let outstanding := e.outstandingRequests.get? r.requestId
    if ¬ verified then
      let e := e.release r.fileId r.pieceIndex r.requestId
      match e.markFailed r.manager r.pieceIndex "hash_mismatch" with
      | .error err => (e, .throw err)
      | .ok e =>
        let e := match outstanding with
          | some o => { e with peerHealth := e.peerHealth.markReject cfg.log2 o.peerId }
          | none => e
        match (match outstanding with
          | some _ => e.emitRetryPerformance r.fileId r.pieceIndex
          | none => .ok ()) with
        | .error err => (e, .throw err)
        | .ok () =>
          let (e, next) := e.storageCall t (fun _ => .unit)
            (StorageAdapter.deletePiece r.fileId r.pieceIndex e.storage)
          (e, next.andThen (.pieceDeleted r outstanding))
    else
      let (e, next) := e.storageCall t (fun _ => .unit)
        (StorageAdapter.writePiece r.fileId r.pieceIndex r.data e.storage)
      (e, next.andThen (.pieceWritten r outstanding))

def pieceDeleted (e : Engine σ) (t : Turn) (r : Receipt)
    (outstanding : Option OutstandingRequest) : Except Failure Value → Engine σ × Next
  | .error err => (e, .throw err)
  | .ok _ =>
    let (e, next) := e.persistState t
    (e, next.andThen (.mismatchPersisted r outstanding))

def mismatchPersisted (e : Engine σ) (cfg : Config) (t : Turn) (r : Receipt)
    (outstanding : Option OutstandingRequest) (outcome : Except Failure Value) : Engine σ × Next :=
  let e := match outcome with
    | .error error =>
      ((e.emitDirectLifecycleError t .persist outstanding r.requestId error).finalizeDirectRequest
        cfg t r.requestId .cancelled).1
    | .ok _ => e
  let e := e.finalizeOrDelete cfg t r.requestId .hash_mismatch
  (e.emit (.pieceRejected r.fileId r.pieceIndex "hash_mismatch"),
   .ok (.received ⟨false, r.fileId, r.pieceIndex, r.requestId, some "hash_mismatch",
     r.descriptor.hash⟩))

def pieceWritten (e : Engine σ) (cfg : Config) (t : Turn) (r : Receipt)
    (outstanding : Option OutstandingRequest) : Except Failure Value → Engine σ × Next
  | .error error =>
    let e := e.emitDirectLifecycleError t .storage outstanding r.requestId error
    match e.markFailed r.manager r.pieceIndex "storage_failed" with
    | .error err => (e, .throw err)
    | .ok e =>
      ((e.finalizeDirectRequest cfg t r.requestId .cancelled).1,
       .ok (rejectReceipt r "storage_failed"))
  | .ok _ =>
    match e.onManager r.manager (fun m => m.markVerified r.pieceIndex) with
    | .error err => (e, .throw err)
    | .ok e =>
      let e := e.release r.fileId r.pieceIndex r.requestId
      let e := match outstanding with
        | some o =>
          let windowMs := max 1 ((t.now : Number) - o.requestedAt)
          { e with peerHealth := e.peerHealth.markSuccess cfg.log2 o.peerId r.data.length windowMs }
        | none => e
      let (e, next) := e.persistState t
      (e, next.andThen (.piecePersisted r outstanding))

def acceptReceipt (r : Receipt) : Value :=
  .received ⟨true, r.fileId, r.pieceIndex, r.requestId, none, r.descriptor.hash⟩

def piecePersisted (e : Engine σ) (cfg : Config) (t : Turn) (r : Receipt)
    (outstanding : Option OutstandingRequest) : Except Failure Value → Engine σ × Next
  | .error error =>
    let e := e.emitDirectLifecycleError t .persist outstanding r.requestId error
    match e.markFailed r.manager r.pieceIndex "persist_failed" with
    | .error err => (e, .throw err)
    | .ok e =>
      ((e.finalizeDirectRequest cfg t r.requestId .cancelled).1,
       .ok (rejectReceipt r "persist_failed"))
  | .ok _ =>
    let e := e.finalizeOrDelete cfg t r.requestId .verified
    match e.cancelCompetingGridRequests t r.fileId r.pieceIndex r.requestId with
    | (e, .error err) => (e, .throw err)
    | (e, .ok ()) =>
      if e.knownPeers = [] then
        (e.emit (.pieceVerified r.fileId r.pieceIndex), .ok (acceptReceipt r))
      else
        let (e, next) := e.broadcastPieceMap t r.fileId e.knownPeers
        (e, next.andThen (.mapAnnounced r))

def mapAnnounced (e : Engine σ) (r : Receipt) : Except Failure Value → Engine σ × Next
  | .error err => (e, .throw err)
  | .ok _ => (e.emit (.pieceVerified r.fileId r.pieceIndex), .ok (acceptReceipt r))

def restoreResult (r : Restore) : ResumeRestoreResult :=
  ⟨r.manager, r.manager.getVerifiedPieces, r.manager.getMissingPieces, r.discarded⟩

/-- The head of the loop of `restoreResumeState`. -/
def restoreLoop (e : Engine σ) (t : Turn) (r : Restore) : Engine σ × Next :=
  match r.pending with
  | [] => (e, .ok (.restored (restoreResult r)))
  | index :: rest =>
    let (e, next) := e.storageCall t .buffer
      (StorageAdapter.readPiece r.manifest.fileId index e.storage)
    (e, next.andThen (.resumeRead { r with pending := rest } index))

def restoreResumeState (e : Engine σ) (t : Turn) (manifest : FileManifest)
    (pieceMap : PieceMap) : Engine σ × Next :=
  match validatePieceMapForManifest manifest pieceMap with
  | .error err => (e, .throw err)
  | .ok () =>
    match (PieceManager.new manifest.fileId manifest.pieces).importPieceMap pieceMap with
    | .error err => (e, .throw err)
    | .ok manager => e.restoreLoop t ⟨manifest, manager, manager.getVerifiedPieces, []⟩

def discardPiece (e : Engine σ) (t : Turn) (r : Restore) (index : Nat) (reason : String) :
    Engine σ × Next :=
  let (e, next) := e.storageCall t (fun _ => .unit)
    (StorageAdapter.deletePiece r.manifest.fileId index e.storage)
  (e, next.andThen (.resumeDeleted r index reason))

def resumeRead (e : Engine σ) (cfg : Config) (t : Turn) (r : Restore) (index : Nat) :
    Except Failure Value → Engine σ × Next
  | .error err => (e, .throw err)
  | .ok (.buffer (some data)) =>
    match r.manifest.pieces[index]? with
    | none => (e, .throw ⟨none, "Cannot read properties of undefined (reading 'hash')"⟩)
    | some descriptor =>
      (e, .await (.settled (.ok (.bool (verifyPiece cfg.hash data descriptor))))
        [.resumeChecked r index])
  | .ok _ => e.discardPiece t r index "piece missing during resume"

def resumeChecked (e : Engine σ) (t : Turn) (r : Restore) (index : Nat) (verified : Bool) :
    Engine σ × Next :=
  if verified then e.restoreLoop t r
  else e.discardPiece t r index "piece hash mismatch during resume"

def resumeDeleted (e : Engine σ) (t : Turn) (r : Restore) (index : Nat) (reason : String) :
    Except Failure Value → Engine σ × Next
  | .error err => (e, .throw err)
  | .ok _ =>
    match r.manager.markFailed index reason with
    | .error err => (e, .throw err)
    | .ok manager =>
      match manager.resetFailedToMissing index with
      | .error err => (e, .throw err)
      | .ok manager =>
        e.restoreLoop t { r with manager := manager, discarded := r.discarded ++ [index] }

def resumeFile (e : Engine σ) (t : Turn) (fileId : FileId) : Engine σ × Next :=
  match e.requireManifest fileId with
  | .error err => (e, .throw err)
  | .ok manifest =>
    match e.requireManager fileId with
    | .error err => (e, .throw err)
    | .ok ref =>
      let (e, next) := e.restoreResumeState t manifest (e.managerAt ref).exportPieceMap
      (e, next.andThen (.fileRestored fileId))

def fileRestored (e : Engine σ) (t : Turn) (fileId : FileId) :
    Except Failure Value → Engine σ × Next
  | .error err => (e, .throw err)
  | .ok (.restored result) =>
    let (e, next) := (e.installManager fileId result.manager).persistState t
    (e, next.andThen (.filePersisted fileId result))
  | .ok v => (e, .ok v)

def filePersisted (e : Engine σ) (t : Turn) (fileId : FileId) (result : ResumeRestoreResult) :
    Except Failure Value → Engine σ × Next
  | .error err => (e, .throw err)
  | .ok _ =>
    if e.knownPeers = [] then (e, .ok (.restored result))
    else
      let (e, next) := e.broadcastPieceMap t fileId e.knownPeers
      (e, next.andThen (.fileAnnounced result))

/-- The loop of `joinSession` over the persisted piece maps. -/
def joinLoop (e : Engine σ) (t : Turn) (sessionId : SessionId) (merged : List FileManifest) :
    List PieceMap → Engine σ × Next
  | [] =>
    if merged = [] then (e, .ok (.session sessionId merged))
    else
      let (e, next) := e.persistState t
      (e, next.andThen (.joinPersisted sessionId merged))
  | pieceMap :: rest =>
    match e.manifests.get? pieceMap.fileId with
    | none => e.joinLoop t sessionId merged rest
    | some manifest =>
      let (e, next) := e.restoreResumeState t manifest pieceMap
      (e, next.andThen (.joinRestored sessionId merged pieceMap.fileId rest))

def joinSession (e : Engine σ) (t : Turn) (sessionId : SessionId)
    (manifests : List FileManifest) : Engine σ × Next :=
  let (e, next) := e.storageCall t (fun _ => .unit) (StorageAdapter.init sessionId e.storage)
  (e, next.andThen (.joinInitialized sessionId manifests))

def joinInitialized (e : Engine σ) (t : Turn) (sessionId : SessionId)
    (manifests : List FileManifest) : Except Failure Value → Engine σ × Next
  | .error err => (e, .throw err)
  | .ok _ =>
    let (e, next) := { e with sessionId := some sessionId }.storageCall t .state
      (StorageAdapter.loadState sessionId e.storage)
    (e, next.andThen (.joinLoaded sessionId manifests))

def joinLoaded (e : Engine σ) (t : Turn) (sessionId : SessionId)
    (manifests : List FileManifest) : Except Failure Value → Engine σ × Next
  | .error err => (e, .throw err)
  | .ok (.state state) =>
    match (match state with
      | some s => validatePersistedSessionState s
      | none => .ok ()) with
    | .error err => (e, .throw err)
    | .ok () =>
      match mergeManifests ((state.map (·.manifests)).getD []) manifests with
      | .error err => (e, .throw err)
      | .ok merged =>
        (merged.foldl registerManifest e).joinLoop t sessionId merged
          ((state.map (·.pieceMaps)).getD [])
  | .ok v => (e, .ok v)

def joinRestored (e : Engine σ) (t : Turn) (sessionId : SessionId) (merged : List FileManifest)
    (fileId : FileId) (pending : List PieceMap) : Except Failure Value → Engine σ × Next
  | .error err => (e, .throw err)
  | .ok (.restored result) =>
    (e.installManager fileId result.manager).joinLoop t sessionId merged pending
  | .ok v => (e, .ok v)

def createPieceDescriptors (fileSize pieceSize : Nat) : List PieceDescriptor :=
  (List.range ((fileSize + pieceSize - 1) / pieceSize)).map fun index =>
    ⟨index, index * pieceSize, min pieceSize (fileSize - index * pieceSize), none⟩

/-- `ManifestGenerator.create` with the options `createSession` passes. -/
def createManifest (hash : ArrayBuffer → String) (file : Blob) (pieceSize : Number)
    (includeFileHash : Bool) (fileId : FileId) : Except Failure FileManifest :=
  match assertPositiveSafeInteger pieceSize "pieceSize" with
  | .error err => .error err
  | .ok () =>
    let size := pieceSize.num.toNat
    let pieces := (createPieceDescriptors file.data.length size).map fun p =>
      { p with hash := some (hash ((file.data.drop p.offset).take p.size)) }
    if includeFileHash ∧ 256 * 1024 * 1024 < file.data.length then
      .error (PonsWarpError "manifest:file_hash_too_large"
        "Whole-file hashing is gated until an incremental large-file hashing strategy is available")
    else
      .ok ⟨"1.0.0", fileId, file.name, file.data.length, file.type, size, pieces.length,
        (if includeFileHash then some (hash file.data) else none), pieces⟩

/-- The loop of `createSession` over the files. -/
def createLoop (e : Engine σ) (cfg : Config) (t : Turn) (input : CreateInput)
    (manifests : List FileManifest) : List Blob → Engine σ × Next
  | [] =>
    let (e, next) := e.persistState t
    (e, next.andThen (.createPersisted input.sessionId manifests))
  | file :: files =>
    (e, .await (.settled (match t.storageFailure with
        | some (err, _) => .error err
        | none => match createManifest cfg.hash file input.pieceSize input.includeFileHash
              ("file_" ++ manifests.length.repr) with
          | .ok manifest => .ok (.manifest manifest)
          | .error err => .error err)) [.createHashed input file files manifests])

def createSession (e : Engine σ) (t : Turn) (input : CreateInput) (files : List Blob) :
    Engine σ × Next :=
  let (e, next) := e.storageCall t (fun _ => .unit) (StorageAdapter.init input.sessionId e.storage)
  (e, next.andThen (.createInitialized input files))

def createInitialized (e : Engine σ) (cfg : Config) (t : Turn) (input : CreateInput)
    (files : List Blob) : Except Failure Value → Engine σ × Next
  | .error err => (e, .throw err)
  | .ok _ => { e with sessionId := some input.sessionId }.createLoop cfg t input [] files

def createHashed (e : Engine σ) (cfg : Config) (t : Turn) (input : CreateInput) (file : Blob)
    (files : List Blob) (manifests : List FileManifest) : Except Failure Value → Engine σ × Next
  | .error err => (e, .throw err)
  | .ok (.manifest manifest) =>
    let e := e.registerManifest manifest
    { e with ownerSources := e.ownerSources.set manifest.fileId file }.createLoop cfg t input
      (manifests ++ [manifest]) files
  | .ok v => (e, .ok v)

end Engine

end PonsWarp.Core
