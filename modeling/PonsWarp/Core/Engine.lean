import PonsWarp.Core.PieceManager
import PonsWarp.Core.Availability
import PonsWarp.Core.Storage

set_option autoImplicit false

/-!
The fields of `PonsWarpEngine` and its methods that run without awaiting
anything. Telemetry (the `performance` and `progress` events) is left out.
-/

namespace PonsWarp.Core

open PonsWarp.Data

structure PieceChunkHeaderMessage where
  fileId : FileId
  pieceIndex : Nat
  chunkIndex : Number
  totalChunks : Number
  requestId : RequestId
  payloadSize : Number
  deriving DecidableEq, Repr

structure PieceRequestMessage where
  fileId : FileId
  pieceIndex : Number
  requestId : RequestId
  fromOffset : Number
  deriving DecidableEq, Repr

inductive TransferMessage where
  | PIECE_REQUEST (request : PieceRequestMessage)
  | PIECE_CHUNK_HEADER (header : PieceChunkHeaderMessage)
  | PIECE_ACK (fileId : FileId) (pieceIndex : Number) (requestId : RequestId) (hash : Option String)
  | PIECE_REJECT (fileId : FileId) (pieceIndex : Number) (requestId : RequestId) (reason : String)
      (expectedHash : Option String)
  | PIECE_MAP (map : PieceMapBroadcast)
  | PIECE_CANCEL (fileId : FileId) (pieceIndex : Nat) (requestId : RequestId)
  deriving DecidableEq, Repr

inductive DirectTerminalReason where
  | verified | acknowledged | send_failed | request_timeout | cancelled | provider_reject
  | hash_mismatch | invalid_chunk
  deriving DecidableEq, Repr

inductive LifecyclePhase where
  | send | receive | storage | persist | finalize
  deriving DecidableEq, Repr

/-- The `direct` part of an outstanding request. -/
structure DirectRequest where
  timeoutMs : Number
  controllerId : Option String
  windowKey : String
  expiresAt : Number
  generation : Nat
  retryCount : Nat
  deriving DecidableEq, Repr

structure GridScheduleOptions where
  ownerPeerId : PeerId
  candidatePeers : List PeerId
  maxRequestsPerPeer : Option Number
  requestLeaseMs : Option Number
  now : Option Number
  endgameMaxPieces : Option Number
  endgameMaxProviders : Option Number
  endgame : Option Bool
  deriving DecidableEq, Repr

structure OutstandingRequest where
  fileId : FileId
  pieceIndex : Nat
  peerId : PeerId
  requestedAt : Number
  gridOptions : Option GridScheduleOptions
  direct : Option DirectRequest
  deriving DecidableEq, Repr

structure DirectRequestOptions where
  timeoutMs : Option Number
  controllerId : Option String
  windowKey : Option String
  retryCount : Nat
  deriving DecidableEq, Repr

structure DirectTerminalEvent where
  fileId : FileId
  pieceIndex : Nat
  peerId : PeerId
  requestId : RequestId
  reason : DirectTerminalReason
  retryCount : Nat
  willRetry : Bool
  at_ : Number
  generation : Nat
  controllerId : Option String
  windowKey : String
  deriving DecidableEq, Repr

structure DirectWindowExhaustedEvent where
  fileId : FileId
  peerId : PeerId
  controllerId : Option String
  windowKey : String
  generation : Nat
  pieceIndex : Nat
  requestId : RequestId
  reason : DirectTerminalReason
  retryCount : Nat
  at_ : Number
  deriving DecidableEq, Repr

structure DirectLifecycleErrorEvent where
  phase : LifecyclePhase
  code : String
  message : String
  fileId : FileId
  pieceIndex : Nat
  peerId : PeerId
  requestId : RequestId
  controllerId : Option String
  windowKey : String
  generation : Nat
  at_ : Number
  deriving DecidableEq, Repr

inductive EngineEvent where
  | pieceVerified (fileId : FileId) (pieceIndex : Number)
  | pieceRejected (fileId : FileId) (pieceIndex : Number) (reason : String)
  | availabilityChanged (peerId : PeerId) (fileId : FileId) (verifiedPieces : List Number)
      (generation : Number)
  | requestTimedOut (fileId : FileId) (pieceIndex : Nat) (peerId : PeerId) (requestId : RequestId)
  | requestTerminal (event : DirectTerminalEvent)
  | requestWindowExhausted (event : DirectWindowExhaustedEvent)
  | directLifecycleError (event : DirectLifecycleErrorEvent)
  deriving DecidableEq, Repr

/-- What the engine does to the outside, in order. A send is recorded with the
failure its promise will be rejected with, if any. -/
inductive Effect where
  | send (peerId : PeerId) (message : TransferMessage) (failure : Option Failure)
  | sendBinary (peerId : PeerId) (frame : ArrayBuffer) (failure : Option Failure)
  | emit (event : EngineEvent)
  deriving DecidableEq, Repr

/-- A task waiting in the promise chain of a direct window. -/
inductive WindowJob where
  | fill (peerId : PeerId) (fileId : FileId) (windowKey : String) (options : DirectRequestOptions)
  | retry (requestId : RequestId) (request : OutstandingRequest) (direct : DirectRequest)
  | expire (requestId : RequestId)
  deriving DecidableEq, Repr

/-- `enqueued` and `completed` count the tasks that entered and left the chain. -/
structure DirectWindow where
  fileId : FileId
  peerId : PeerId
  controllerId : Option String
  cap : Number
  generation : Nat
  queue : List WindowJob
  running : Bool
  enqueued : Nat
  completed : Nat
  error : Option Failure
  disabled : Bool
  exhausted : Bool
  deriving DecidableEq, Repr

structure IncomingChunkAssembly where
  peerId : PeerId
  header : PieceChunkHeaderMessage
  chunks : List (Option ArrayBuffer)
  receivedBytes : Nat
  receivedChunks : Nat
  deriving DecidableEq, Repr

structure SendQueue where
  jobs : List PieceRequestMessage
  running : Bool

structure Blob where
  name : String
  type : String
  data : ArrayBuffer

/-- What is fixed when an engine is built. -/
structure Config where
  hash : ArrayBuffer → String
  log2 : Number → Number
  maxRetries : Nat
  maxDirectMetadataEntries : Nat
  defaultDirectTimeout : Number
  directWindowCap : Option Number

/-- What the outside world decides for one synchronous stretch of code: the clock,
the random digits of a request id, and how the awaited operation at its end
will settle. A failing storage operation may or may not have taken effect. -/
structure Turn where
  now : Nat
  clock : Number
  random : String
  sendFailure : PeerId → Option Failure
  storageFailure : Option (Failure × Bool)

/-- The engine. A `PieceManager` and a direct window are objects that several
promises hold on to, so they live in `heap` and `windowHeap` and the maps refer
to them by position. `issued` lists the request ids handed out so far and
`armed` the timers ever set; no method reads `issued`. -/
structure Engine (σ : Type) where
  storage : σ
  transport : Bool
  subscribed : Bool
  manifests : OrderedMap FileId FileManifest
  managers : OrderedMap FileId Nat
  heap : List PieceManager
  ownerSources : OrderedMap FileId Blob
  pendingChunks : OrderedMap PeerId PieceChunkHeaderMessage
  incomingChunks : OrderedMap RequestId IncomingChunkAssembly
  outstandingRequests : OrderedMap RequestId OutstandingRequest
  pieceSendQueues : OrderedMap PeerId SendQueue
  availability : PieceAvailabilityTable
  peerHealth : PeerHealthTable
  localPieceMapGenerations : OrderedMap FileId Nat
  knownPeers : List PeerId
  sessionId : Option SessionId
  directTimers : OrderedMap RequestId Nat
  directTombstones : List RequestId
  directWindows : OrderedMap String Nat
  windowHeap : List DirectWindow
  nextDirectGeneration : Nat
  disposed : Bool
  transferChunkBytes : Nat
  issued : List RequestId
  armed : List (RequestId × String)
  log : List Effect

def DEFAULT_TRANSFER_CHUNK_BYTES : Nat := 64 * 1024
def MAX_TRANSFER_CHUNK_BYTES : Number := 256 * 1024

/-- `new PonsWarpEngine`, before any method is called. -/
def Engine.new {σ : Type} (storage : σ) (transport : Bool) : Engine σ where
  storage := storage
  transport := transport
  subscribed := transport
  manifests := .empty
  managers := .empty
  heap := []
  ownerSources := .empty
  pendingChunks := .empty
  incomingChunks := .empty
  outstandingRequests := .empty
  pieceSendQueues := .empty
  availability := .empty
  peerHealth := ⟨.empty⟩
  localPieceMapGenerations := .empty
  knownPeers := []
  sessionId := none
  directTimers := .empty
  directTombstones := []
  directWindows := .empty
  windowHeap := []
  nextDirectGeneration := 0
  disposed := false
  transferChunkBytes := DEFAULT_TRANSFER_CHUNK_BYTES
  issued := []
  armed := []
  log := []

def assertPositiveSafeInteger (value : Number) (name : String) : Except Failure Unit :=
  if ¬ value.isSafeInteger ∨ value ≤ 0 then
    .error (PonsWarpError "validation:invalid_number" (name ++ " must be a positive safe integer"))
  else .ok ()

/-- `clampTransferChunkBytes` on a finite request. -/
def clampTransferChunkBytes (requestedBytes maxBytes : Number) : Nat :=
  let cap := max 1 maxBytes.floor
  let requested := requestedBytes.floor
  if requested ≤ 0 then DEFAULT_TRANSFER_CHUNK_BYTES
  else (min (max requested 1) cap).toNat

def Turn.createRequestId (t : Turn) (fileId : FileId) (pieceIndex : Nat) : RequestId :=
  "req_" ++ fileId ++ "_" ++ pieceIndex.repr ++ "_" ++ t.now.repr ++ "_" ++ t.random

def isDigit (c : Char) : Bool := '0' ≤ c && c ≤ '9'
def isLowerAlnum (c : Char) : Bool := isDigit c || ('a' ≤ c && c ≤ 'z')

/-- Split at the last underscore: what follows it and what stands before it. -/
def splitLast (s : List Char) : Option (List Char × List Char) :=
  let tail := (s.reverse.takeWhile (· ≠ '_')).reverse
  match s.reverse.dropWhile (· ≠ '_') with
  | [] => none
  | _ :: before => some (before.reverse, tail)

/-- A line terminator, which the dot of a pattern does not match. -/
def isLineTerminator (c : Char) : Bool :=
  c = '\n' || c = '\r' || c = '\u2028' || c = '\u2029'

/-- The pattern `^req_.+_[0-9]+_[a-z0-9]+$`. -/
def isEngineGeneratedRequestId (requestId : RequestId) : Bool :=
  match splitLast requestId.toList with
  | none => false
  | some (rest, random) =>
    match splitLast rest with
    | none => false
    | some (front, time) =>
      !random.isEmpty && random.all isLowerAlnum && !time.isEmpty && time.all isDigit &&
        front.take 4 = ['r', 'e', 'q', '_'] && !(front.drop 4).isEmpty &&
        (front.drop 4).all fun c => !isLineTerminator c

structure DirectCancelSelector where
  fileId : Option FileId
  peerId : Option PeerId
  controllerId : Option String
  windowKey : Option String
  generation : Option Nat
  deriving DecidableEq, Repr

/-- A selector field that is absent matches everything. -/
def selects {α : Type} [DecidableEq α] (field : Option α) (value : Option α) : Bool :=
  match field with
  | none => true
  | some _ => field = value

def DirectCancelSelector.matchesWindow (s : DirectCancelSelector) (key : String)
    (w : DirectWindow) : Bool :=
  selects s.windowKey (some key) && selects s.fileId (some w.fileId) &&
  selects s.peerId (some w.peerId) && selects s.controllerId w.controllerId &&
  selects s.generation (some w.generation)

def DirectCancelSelector.matchesRequest (s : DirectCancelSelector) (r : OutstandingRequest)
    (direct : DirectRequest) : Bool :=
  selects s.fileId (some r.fileId) && selects s.peerId (some r.peerId) &&
  selects s.controllerId direct.controllerId && selects s.windowKey (some direct.windowKey) &&
  selects s.generation (some direct.generation)

structure RankedPiece where
  index : Nat
  retryCount : Nat
  providers : List ProviderState
  rarityCount : Nat

def RankedPiece.hasReceiver (p : RankedPiece) : Bool := p.providers.any fun q => q.role ≠ .owner

/-- The order in which pieces are tried, rarest first. -/
def RankedPiece.before (a b : RankedPiece) : Prop :=
  (a.hasReceiver = true ∧ b.hasReceiver = false) ∨
  (a.hasReceiver = b.hasReceiver ∧
    (a.rarityCount < b.rarityCount ∨ (a.rarityCount = b.rarityCount ∧
      (a.retryCount < b.retryCount ∨ (a.retryCount = b.retryCount ∧ a.index ≤ b.index)))))

instance : DecidableRel RankedPiece.before := fun a b => by
  unfold RankedPiece.before
  infer_instance

namespace Engine

variable {σ : Type}

def emit (e : Engine σ) (event : EngineEvent) : Engine σ :=
  { e with log := e.log ++ [.emit event] }

def requireManifest (e : Engine σ) (fileId : FileId) : Except Failure FileManifest :=
  match e.manifests.get? fileId with
  | some manifest => .ok manifest
  | none => .error (PonsWarpError "manifest:not_found" ("Unknown manifest " ++ fileId))

/-- The manager object a position of the heap holds. -/
def managerAt (e : Engine σ) (ref : Nat) : PieceManager := (e.heap[ref]?).getD ⟨"", []⟩

/-- The object `requireManager` returns, by its position. -/
def requireManager (e : Engine σ) (fileId : FileId) : Except Failure Nat :=
  match e.managers.get? fileId with
  | some ref => .ok ref
  | none => .error (PonsWarpError "piece_map:not_found" ("Unknown piece map " ++ fileId))

def putManager (e : Engine σ) (ref : Nat) (manager : PieceManager) : Engine σ :=
  { e with heap := e.heap.set ref manager }

/-- Call a method of a manager object; when it throws nothing has changed. -/
def onManager (e : Engine σ) (ref : Nat) (method : PieceManager → Except Failure PieceManager) :
    Except Failure (Engine σ) :=
  match method (e.managerAt ref) with
  | .ok manager => .ok (e.putManager ref manager)
  | .error err => .error err

def markFailed (e : Engine σ) (ref : Nat) (index : Nat) (reason : String) :
    Except Failure (Engine σ) :=
  e.onManager ref fun m => m.markFailed index reason

/-- `this.managers.get(fileId)?.markFailed(index, reason)` -/
def markFailedIfKnown (e : Engine σ) (fileId : FileId) (index : Nat) (reason : String) :
    Except Failure (Engine σ) :=
  match e.managers.get? fileId with
  | some ref => e.markFailed ref index reason
  | none => .ok e

def resetFailedToMissing (e : Engine σ) (ref : Nat) (index : Nat) : Except Failure (Engine σ) :=
  e.onManager ref fun m => m.resetFailedToMissing index

/-- The status of a piece in the manager the engine currently has for the file. -/
def status? (e : Engine σ) (fileId : FileId) (index : Nat) : Option PieceStatus :=
  match e.managers.get? fileId with
  | some ref => (e.managerAt ref).status? index
  | none => none

def release (e : Engine σ) (fileId : FileId) (index : Nat) (requestId : RequestId) : Engine σ :=
  { e with availability := e.availability.release fileId index requestId }

def countOutstandingRequests (e : Engine σ) (fileId : FileId) : Nat :=
  (e.outstandingRequests.values.filter fun r => r.fileId = fileId).length

def countOutstandingRequestsForWindow (e : Engine σ) (windowKey : String) : Nat :=
  (e.outstandingRequests.values.filter fun r =>
    (r.direct.map (·.windowKey)) = some windowKey).length

def isExactActiveRequest (e : Engine σ) (peerId : PeerId) (fileId : FileId) (index : Nat)
    (requestId : RequestId) : Bool :=
  match e.outstandingRequests.get? requestId with
  | some r => r.peerId = peerId && r.fileId = fileId && r.pieceIndex = index &&
      requestId ∉ e.directTombstones
  | none => false

/-- `addDirectTombstone`: the oldest tombstones go when there are too many. -/
def addDirectTombstone (e : Engine σ) (cfg : Config) (requestId : RequestId) : Engine σ :=
  let tombstones := insertNew e.directTombstones requestId
  { e with directTombstones := tombstones.drop (tombstones.length - cfg.maxDirectMetadataEntries) }

/-- `allocateDirectGeneration` -/
def allocateDirectGeneration (e : Engine σ) : Except Failure (Nat × Engine σ) :=
  if e.nextDirectGeneration ≤ MAX_SAFE_INTEGER then
    .ok (e.nextDirectGeneration, { e with nextDirectGeneration := e.nextDirectGeneration + 1 })
  else .error (PonsWarpError "direct:generation_exhausted" "Direct lifecycle generation exhausted")

def window? (e : Engine σ) (windowKey : String) : Option (Nat × DirectWindow) :=
  match e.directWindows.get? windowKey with
  | some ref => (e.windowHeap[ref]?).map fun w => (ref, w)
  | none => none

def putWindow (e : Engine σ) (ref : Nat) (window : DirectWindow) : Engine σ :=
  { e with windowHeap := e.windowHeap.set ref window }

def newWindow (e : Engine σ) (windowKey : String) (window : DirectWindow) : Engine σ :=
  { e with windowHeap := e.windowHeap ++ [window]
           directWindows := e.directWindows.set windowKey e.windowHeap.length }

def pruneWindows (e : Engine σ) (cfg : Config) (preserve : Option String) :
    List String → OrderedMap String Nat → OrderedMap String Nat
  | [], windows => windows
  | key :: rest, windows =>
    if windows.size ≤ cfg.maxDirectMetadataEntries then windows
    else if preserve = some key ∨ 0 < e.countOutstandingRequestsForWindow key then
      e.pruneWindows cfg preserve rest windows
    else e.pruneWindows cfg preserve rest (windows.delete key)

def pruneDirectLifecycleMetadata (e : Engine σ) (cfg : Config) (preserve : Option String) :
    Engine σ :=
  { e with directWindows := e.pruneWindows cfg preserve e.directWindows.keys e.directWindows }

/-- `enqueueWindow`: without a live window the task is dropped. -/
def enqueueWindow (e : Engine σ) (windowKey : String) (job : WindowJob) : Engine σ :=
  match e.window? windowKey with
  | some (ref, w) =>
    if w.disabled ∨ e.disposed then e
    else e.putWindow ref { w with queue := w.queue ++ [job], enqueued := w.enqueued + 1 }
  | none => e

def emitDirectLifecycleError (e : Engine σ) (t : Turn) (phase : LifecyclePhase)
    (request : Option OutstandingRequest) (requestId : RequestId) (error : Failure) : Engine σ :=
  match request with
  | none => e
  | some r =>
    match r.direct with
    | none => e
    | some direct =>
      if direct.windowKey = "" then e
      else
        let e' := match e.window? direct.windowKey with
          | some (ref, w) => e.putWindow ref { w with disabled := true, error := some error }
          | none => e
        e'.emit (.directLifecycleError
          ⟨phase, error.code.getD "direct:lifecycle_failed",
           String.ofList (error.message.toList.take 256), r.fileId, r.pieceIndex, r.peerId, requestId,
           direct.controllerId, direct.windowKey,
           ((e'.window? direct.windowKey).map fun p => p.2.generation).getD 0, t.clock⟩)

def retryable : DirectTerminalReason → Bool
  | .provider_reject | .send_failed | .request_timeout | .hash_mismatch | .invalid_chunk => true
  | .verified | .acknowledged | .cancelled => false

/-- Remove the pending headers of a request, whichever peer they came from. -/
def dropPendingHeaders (e : Engine σ) (requestId : RequestId) : Engine σ :=
  let stale := (e.pendingChunks.entries.filter fun p => p.2.requestId = requestId).map Prod.fst
  { e with pendingChunks := e.pendingChunks.deleteAll stale }

/-- The first half of `finalizeDirectRequest`: the request leaves every table. -/
def retireDirectRequest (e : Engine σ) (requestId : RequestId) : Engine σ :=
  { e with outstandingRequests := e.outstandingRequests.delete requestId
           directTimers := e.directTimers.delete requestId
           incomingChunks := e.incomingChunks.delete requestId }.dropPendingHeaders requestId

def finalizeDirectRequest (e : Engine σ) (cfg : Config) (t : Turn) (requestId : RequestId)
    (status : DirectTerminalReason) : Engine σ × Bool :=
  match e.outstandingRequests.get? requestId with
  | none => (e, false)
  | some request =>
    match request.direct with
    | none => (e, false)
    | some direct =>
      let willRetry := retryable status && direct.retryCount < cfg.maxRetries
      let e' := (e.retireDirectRequest requestId).emit (.requestTerminal
        ⟨request.fileId, request.pieceIndex, request.peerId, requestId, status, direct.retryCount,
         willRetry, t.clock, direct.generation, direct.controllerId, direct.windowKey⟩)
      if willRetry then
        if direct.windowKey = "" then (e', true)
        else (e'.enqueueWindow direct.windowKey (.retry requestId request direct), true)
      else if retryable status ∧ direct.windowKey ≠ "" then
        match e'.window? direct.windowKey with
        | some (ref, w) =>
          if w.exhausted then (e', true)
          else ((e'.putWindow ref { w with exhausted := true }).emit (.requestWindowExhausted
            ⟨w.fileId, w.peerId, w.controllerId, direct.windowKey, w.generation, request.pieceIndex,
             requestId, status, direct.retryCount, t.clock⟩), true)
        | none => (e', true)
      else (e', true)

/-- `if (!this.finalizeDirectRequest(id, status)) this.outstandingRequests.delete(id)` -/
def finalizeOrDelete (e : Engine σ) (cfg : Config) (t : Turn) (requestId : RequestId)
    (status : DirectTerminalReason) : Engine σ :=
  let (e', finalized) := e.finalizeDirectRequest cfg t requestId status
  if finalized then e'
  else { e' with outstandingRequests := e'.outstandingRequests.delete requestId }

def expireDirectRequest (e : Engine σ) (cfg : Config) (t : Turn) (requestId : RequestId) :
    Except Failure (Engine σ) :=
  match e.outstandingRequests.get? requestId with
  | none => .ok e
  | some request =>
    match request.direct with
    | none => .ok e
    | some _ =>
      match e.markFailedIfKnown request.fileId request.pieceIndex "request_timeout" with
      | .error err => .error err
      | .ok e =>
        let e := { e with peerHealth := e.peerHealth.markTimeout cfg.log2 request.peerId }
        let e := e.emit (.requestTimedOut request.fileId request.pieceIndex request.peerId requestId)
        .ok (e.finalizeDirectRequest cfg t requestId .request_timeout).1

/-- The loop of `expireDirectRequests` over the requests there were at its start. -/
def expireDirectRequests (cfg : Config) (t : Turn) (now : Number) :
    List (RequestId × OutstandingRequest) → Engine σ → Engine σ × Except Failure Unit
  | [], e => (e, .ok ())
  | (requestId, request) :: rest, e =>
    match request.direct with
    | some direct =>
      if direct.expiresAt ≤ now then
        match e.expireDirectRequest cfg t requestId with
        | .error err => (e, .error err)
        | .ok e' => expireDirectRequests cfg t now rest e'
      else expireDirectRequests cfg t now rest e
    | none => expireDirectRequests cfg t now rest e

/-- The first loop of `cancelDirectRequests`: matching windows are disabled. -/
def disableWindows (selector : DirectCancelSelector) :
    List (String × Nat) → Engine σ → Engine σ × Except Failure Unit
  | [], e => (e, .ok ())
  | (key, ref) :: rest, e =>
    match e.windowHeap[ref]? with
    | none => disableWindows selector rest e
    | some w =>
      if selector.matchesWindow key w then
        let e := e.putWindow ref { w with disabled := true }
        match e.allocateDirectGeneration with
        | .error err => (e, .error err)
        | .ok (generation, e) =>
          disableWindows selector rest
            (e.putWindow ref { w with disabled := true, generation := generation })
      else disableWindows selector rest e

/-- The second loop: matching requests are retired. It counts them. -/
def cancelRequests (cfg : Config) (t : Turn) (selector : DirectCancelSelector) :
    List (RequestId × OutstandingRequest) → Nat → Engine σ → Engine σ × Nat
  | [], count, e => (e, count)
  | (requestId, request) :: rest, count, e =>
    match request.direct with
    | none => cancelRequests cfg t selector rest count e
    | some direct =>
      if selector.matchesRequest request direct then
        let (e, finalized) :=
          (e.addDirectTombstone cfg requestId).finalizeDirectRequest cfg t requestId .cancelled
        cancelRequests cfg t selector rest (if finalized then count + 1 else count) e
      else cancelRequests cfg t selector rest count e

def cancelDirectRequests (e : Engine σ) (cfg : Config) (t : Turn)
    (selector : DirectCancelSelector) : Engine σ × Except Failure Nat :=
  match disableWindows selector e.directWindows.entries e with
  | (e, .error err) => (e, .error err)
  | (e, .ok ()) =>
    let (e, count) := cancelRequests cfg t selector e.outstandingRequests.entries 0 e
    (e.pruneDirectLifecycleMetadata cfg none, .ok count)

/-- `cancelCompetingGridRequests` over the requests there were at its start. The
cancel messages are sent without waiting for them. -/
def cancelCompeting (t : Turn) (fileId : FileId) (index : Nat) (keep : RequestId) :
    List (RequestId × OutstandingRequest) → Engine σ → Engine σ × Except Failure Unit
  | [], e => (e, .ok ())
  | (requestId, request) :: rest, e =>
    if request.fileId ≠ fileId ∨ request.pieceIndex ≠ index ∨ requestId = keep then
      cancelCompeting t fileId index keep rest e
    else
      let e := { e with
        outstandingRequests := e.outstandingRequests.delete requestId
        incomingChunks := e.incomingChunks.delete requestId
        directTombstones := insertNew e.directTombstones requestId }.dropPendingHeaders requestId
      if e.transport then
        cancelCompeting t fileId index keep rest
          { e with log := e.log ++ [.send request.peerId (.PIECE_CANCEL fileId index requestId)
              (t.sendFailure request.peerId)] }
      else (e, .error (PonsWarpError "transport:not_configured" "Engine transport is not configured"))

def cancelCompetingGridRequests (e : Engine σ) (t : Turn) (fileId : FileId) (index : Nat)
    (keep : RequestId) : Engine σ × Except Failure Unit :=
  cancelCompeting t fileId index keep e.outstandingRequests.entries e

/-- The loop of `expireRequestLeases` over the expired leases. -/
def expireLeased (cfg : Config) : List RequestLease → Engine σ → Engine σ × Except Failure Unit
  | [], e => (e, .ok ())
  | lease :: rest, e =>
    match e.outstandingRequests.get? lease.requestId with
    | none => expireLeased cfg rest e
    | some outstanding =>
      let e := { e with
        outstandingRequests := e.outstandingRequests.delete lease.requestId
        incomingChunks := e.incomingChunks.delete lease.requestId }
      match e.requireManager outstanding.fileId with
      | .error err => (e, .error err)
      | .ok ref =>
        match e.markFailed ref outstanding.pieceIndex "request_timeout" with
        | .error err => (e, .error err)
        | .ok e =>
          match e.resetFailedToMissing ref outstanding.pieceIndex with
          | .error err => (e, .error err)
          | .ok e =>
            let e := { e with peerHealth := e.peerHealth.markTimeout cfg.log2 outstanding.peerId }
            expireLeased cfg rest (e.emit (.requestTimedOut outstanding.fileId
              outstanding.pieceIndex outstanding.peerId lease.requestId))

def expireRequestLeases (e : Engine σ) (cfg : Config) (now : Number) :
    Engine σ × Except Failure Unit :=
  let (expired, availability) := e.availability.expireLeases now
  expireLeased cfg expired { e with availability := availability }

def updatePeerPieceMap (e : Engine σ) (peerId : PeerId) (map : PieceMapBroadcast)
    (role : PeerRole) : Except Failure (Engine σ) :=
  match e.availability.updatePeerPieceMap peerId role map (e.peerHealth.get peerId).score with
  | .error err => .error err
  | .ok (changed, availability) =>
    let e := { e with availability := availability }
    if changed then
      .ok (e.emit (.availabilityChanged peerId map.fileId map.verifiedPieces map.generation))
    else .ok e

def exportPieceMapBroadcast (e : Engine σ) (t : Turn) (fileId : FileId) :
    Engine σ × Except Failure PieceMapBroadcast :=
  match e.requireManager fileId with
  | .error err => (e, .error err)
  | .ok ref =>
    let generation := (e.localPieceMapGenerations.get? fileId).getD 0 + 1
    let e := { e with
      localPieceMapGenerations := e.localPieceMapGenerations.set fileId generation }
    let verifiedPieces := ((e.managerAt ref).getVerifiedPieces.insertionSort (· ≤ ·)).map
      fun (i : Nat) => (i : Number)
    match e.requireManifest fileId with
    | .error err => (e, .error err)
    | .ok manifest => (e, .ok ⟨fileId, verifiedPieces, manifest.pieceCount, generation, t.now⟩)

def persistedState (e : Engine σ) (sessionId : SessionId) : PersistedSessionState :=
  ⟨1, CORE_PROTOCOL_VERSION, sessionId, "direct", e.manifests.values,
   e.managers.values.map fun ref => (e.managerAt ref).exportPieceMap, []⟩

/-- `registerManifest`: the manifest is replaced, a manager that is there is kept. -/
def registerManifest (e : Engine σ) (manifest : FileManifest) : Engine σ :=
  let e := { e with manifests := e.manifests.set manifest.fileId manifest }
  match e.managers.get? manifest.fileId with
  | some _ => e
  | none => { e with heap := e.heap ++ [PieceManager.new manifest.fileId manifest.pieces]
                     managers := e.managers.set manifest.fileId e.heap.length }

def installManager (e : Engine σ) (fileId : FileId) (manager : PieceManager) : Engine σ :=
  { e with heap := e.heap ++ [manager], managers := e.managers.set fileId e.heap.length }

def activePerPeer (requests : List OutstandingRequest) (peerId : PeerId) : Nat :=
  (requests.filter fun r => r.peerId = peerId).length

/-- `rankProviders`: the providers that may be asked, best first. The engine also
remembers them, and the owner, as known peers. -/
def rankProviders (e : Engine σ) (fileId : FileId) (index : Nat) (candidates : List PeerId)
    (ownerPeerId : PeerId) (maxRequestsPerPeer : Number) (active : PeerId → Nat) (now : Number) :
    List ProviderState × Engine σ :=
  let advertised := (e.availability.getProviders fileId index now).filter fun p =>
    p.peerId ∈ candidates && (e.peerHealth.get p.peerId).connectionState = .connected &&
    (active p.peerId : Number) < maxRequestsPerPeer
  let known := advertised.foldl (fun ks p => insertNew ks p.peerId) e.knownPeers
  let e' := { e with knownPeers := insertNew known ownerPeerId }
  let hasOwner := advertised.any fun p => p.peerId = ownerPeerId
  let eligible :=
    if !hasOwner && ownerPeerId ∈ candidates && (active ownerPeerId : Number) < maxRequestsPerPeer then
      advertised ++ [⟨ownerPeerId, .owner, now, now + 30000, (e.peerHealth.get ownerPeerId).score⟩]
    else advertised
  let score := fun p : ProviderState =>
    (e.peerHealth.get p.peerId).score + (if p.role = .owner then -5 else 0)
  (eligible.insertionSort fun a b =>
    score b < score a ∨ (score a = score b ∧ active a.peerId ≤ active b.peerId), e')

/-- The `map` of `requestNextGridPiece` over the missing pieces. -/
def rankPieces (fileId : FileId) (manager : PieceManager) (candidates : List PeerId)
    (ownerPeerId : PeerId) (maxRequestsPerPeer : Number) (active : PeerId → Nat) (now : Number) :
    List Nat → Engine σ → Engine σ × Except Failure (List RankedPiece)
  | [], e => (e, .ok [])
  | index :: rest, e =>
    match manager.getPieceState index with
    | .error err => (e, .error err)
    | .ok piece =>
      let allProviders := e.availability.getProviders fileId index now
      let nonOwner := (allProviders.filter fun p => p.peerId ≠ ownerPeerId).length
      let (providers, e) := e.rankProviders fileId index candidates ownerPeerId maxRequestsPerPeer
        active now
      let ranked : RankedPiece := ⟨index, piece.retryCount, providers,
        if 0 < nonOwner then nonOwner else allProviders.length⟩
      match rankPieces fileId manager candidates ownerPeerId maxRequestsPerPeer active now rest e with
      | (e, .error err) => (e, .error err)
      | (e, .ok more) => (e, .ok (ranked :: more))

end Engine

end PonsWarp.Core
