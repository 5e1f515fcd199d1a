import PonsWarp.Core.Machine

set_option autoImplicit false

/-!
What the engine does with the messages and binary frames of its peers, and how
it sends the pieces it is asked for.
-/

namespace PonsWarp.Core

open PonsWarp.Data

/-- A control message as it arrives: the fields the engine reads, where they are
there with the right type. -/
structure WireMessage where
  type : String
  fileId : Option String
  requestId : Option String
  reason : Option String
  pieceIndex : Option Number
  chunkIndex : Option Number
  totalChunks : Option Number
  payloadSize : Option Number
  fromOffset : Option Number
  totalPieces : Option Number
  generation : Option Number
  updatedAt : Option Number
  verifiedPieces : Option (List (Option Number))
  deriving DecidableEq, Repr

/-- A message of the given type with no other field. -/
def WireMessage.blank (type : String) : WireMessage :=
  ⟨type, none, none, none, none, none, none, none, none, none, none, none, none⟩

def requireStringField (field : Option String) (key : String) : Except Failure String :=
  match field with
  | some s => if s = "" then
      .error (PonsWarpError "protocol:invalid_message" ("Missing string field " ++ key)) else .ok s
  | none => .error (PonsWarpError "protocol:invalid_message" ("Missing string field " ++ key))

def requireNumberField (field : Option Number) (key : String) : Except Failure Number :=
  match field with
  | some x => .ok x
  | none => .error (PonsWarpError "protocol:invalid_message" ("Missing number field " ++ key))

def WireMessage.parsePieceRequest (m : WireMessage) : Except Failure PieceRequestMessage := do
  let fileId ← requireStringField m.fileId "fileId"
  let pieceIndex ← requireNumberField m.pieceIndex "pieceIndex"
  let requestId ← requireStringField m.requestId "requestId"
  let fromOffset ← requireNumberField m.fromOffset "fromOffset"
  return ⟨fileId, pieceIndex, requestId, fromOffset⟩

/-- `parseChunkHeader`. A header whose piece index is no array position names no
request and is dropped by its caller; it is `none` here. -/
def WireMessage.parseChunkHeader (m : WireMessage) :
    Except Failure (Option PieceChunkHeaderMessage) := do
  let fileId ← requireStringField m.fileId "fileId"
  let pieceIndex ← requireNumberField m.pieceIndex "pieceIndex"
  let chunkIndex ← requireNumberField m.chunkIndex "chunkIndex"
  let totalChunks ← requireNumberField m.totalChunks "totalChunks"
  let requestId ← requireStringField m.requestId "requestId"
  let payloadSize ← requireNumberField m.payloadSize "payloadSize"
  return pieceIndex.index?.map fun index =>
    ⟨fileId, index, chunkIndex, totalChunks, requestId, payloadSize⟩

def parseNumbers : List (Option Number) → Except Failure (List Number)
  | [] => .ok []
  | none :: _ => .error (PonsWarpError "availability:invalid_piece_index"
      "PIECE_MAP verifiedPieces must be numbers")
  | some x :: rest =>
    match parseNumbers rest with
    | .error err => .error err
    | .ok xs => .ok (x :: xs)

def WireMessage.parsePieceMapBroadcast (m : WireMessage) : Except Failure PieceMapBroadcast := do
  let verifiedPieces ← parseNumbers (m.verifiedPieces.getD [])
  let fileId ← requireStringField m.fileId "fileId"
  let totalPieces ← requireNumberField m.totalPieces "totalPieces"
  let generation ← requireNumberField m.generation "generation"
  let updatedAt ← requireNumberField m.updatedAt "updatedAt"
  return ⟨fileId, verifiedPieces, totalPieces, generation, updatedAt⟩

/-- Two headers of one chunk; the comparison of `handleTransportMessage`. -/
def PieceChunkHeaderMessage.same (a b : PieceChunkHeaderMessage) : Bool :=
  decide (a.requestId = b.requestId) && decide (a.fileId = b.fileId) &&
  decide (a.pieceIndex = b.pieceIndex) && decide (a.chunkIndex = b.chunkIndex) &&
  decide (a.totalChunks = b.totalChunks) && decide (a.payloadSize = b.payloadSize)

/-- Position `x` of an array of `length` elements, as `slice` reads its arguments. -/
def slicePosition (length : Nat) (x : Number) : Nat :=
  let n := if 0 ≤ x then x.floor else x.ceil
  if n < 0 then (length + n).toNat else min length n.toNat

def slice (data : ArrayBuffer) (start stop : Number) : ArrayBuffer :=
  (data.drop (slicePosition data.length start)).take
    (slicePosition data.length stop - slicePosition data.length start)

namespace Engine

variable {σ : Type} [StorageAdapter σ]

/-- `rejectIncomingChunk` up to the message it sends. -/
def rejectIncomingChunk (e : Engine σ) (cfg : Config) (t : Turn) (peerId : PeerId)
    (header : PieceChunkHeaderMessage) : Engine σ × Next :=
  let outstanding := e.outstandingRequests.get? header.requestId
  let e := { e with incomingChunks := e.incomingChunks.delete header.requestId }
  let e := e.release header.fileId header.pieceIndex header.requestId
  let manager := e.managers.get? header.fileId
  match e.markFailedIfKnown header.fileId header.pieceIndex "invalid_chunk" with
  | .error err => (e, .throw err)
  | .ok e =>
    let (e, finalizedDirect) := e.finalizeDirectRequest cfg t header.requestId .invalid_chunk
    let e := if finalizedDirect then e
      else { e with outstandingRequests := e.outstandingRequests.delete header.requestId }
    let e := { e with peerHealth := e.peerHealth.markReject cfg.log2 peerId }
    let (e, next) := e.send t peerId
      (.PIECE_REJECT header.fileId header.pieceIndex header.requestId "invalid_chunk" none)
    (e, next.andThen (.rejectSent peerId header manager outstanding finalizedDirect))

/-- Ask again after a reject: the grid way, or the plain one. -/
def requestAgain (e : Engine σ) (cfg : Config) (t : Turn) (peerId : PeerId) (fileId : FileId)
    (gridOptions : Option GridScheduleOptions) : Engine σ × Next :=
  match gridOptions with
  | some options => e.requestNextGridPiece cfg t fileId options
  | none => e.requestNextPiece cfg t peerId fileId none

def rejectSent (e : Engine σ) (cfg : Config) (t : Turn) (peerId : PeerId)
    (header : PieceChunkHeaderMessage) (manager : Option Nat)
    (outstanding : Option OutstandingRequest) (finalizedDirect : Bool) :
    Except Failure Value → Engine σ × Next
  | .error err => (e, .throw err)
  | .ok _ =>
    let e := e.emit (.pieceRejected header.fileId header.pieceIndex "invalid_chunk")
    match manager with
    | none => e.persistState t
    | some ref =>
      if finalizedDirect then e.persistState t
      else
        match (e.managerAt ref).getPieceState header.pieceIndex with
        | .error err => (e, .throw err)
        | .ok piece =>
          if piece.retryCount ≤ cfg.maxRetries then
            match e.resetFailedToMissing ref header.pieceIndex with
            | .error err => (e, .throw err)
            | .ok e =>
              let (e, next) := e.requestAgain cfg t peerId header.fileId
                (outstanding.bind (·.gridOptions))
              (e, next.andThen .rejectRequested)
          else e.persistState t

/-- `new Array(n)` throws from 2^32 on. -/
def MAX_ARRAY_LENGTH : Nat := 2 ^ 32 - 1

/-- Concatenate the chunks of an assembly, if all are there. -/
def assembled : List (Option ArrayBuffer) → Option ArrayBuffer
  | [] => some []
  | none :: _ => none
  | some chunk :: rest => (assembled rest).map fun more => chunk ++ more

def appendIncomingChunk (e : Engine σ) (cfg : Config) (t : Turn) (peerId : PeerId)
    (header : PieceChunkHeaderMessage) (frame : ArrayBuffer) : Engine σ × Next :=
  let reject := fun e : Engine σ =>
    let (e, next) := e.rejectIncomingChunk cfg t peerId header
    (e, next.andThen .chunkRejected)
  match (if header.totalChunks.isSafeInteger then header.totalChunks.index? else none),
      (if header.chunkIndex.isSafeInteger then header.chunkIndex.index? else none) with
  | some totalChunks, some chunkIndex =>
    if totalChunks = 0 ∨ totalChunks ≤ chunkIndex ∨
        header.payloadSize ≠ (frame.length : Number) then reject e
    else if (e.incomingChunks.get? header.requestId).isNone ∧ MAX_ARRAY_LENGTH < totalChunks then
      (e, .throw ⟨none, "Invalid array length"⟩)
    else
      let assembly := (e.incomingChunks.get? header.requestId).getD
        ⟨peerId, header, List.replicate totalChunks none, 0, 0⟩
      let e := { e with incomingChunks := e.incomingChunks.set header.requestId assembly }
      if assembly.peerId ≠ peerId ∨ assembly.header.fileId ≠ header.fileId ∨
          assembly.header.pieceIndex ≠ header.pieceIndex ∨
          assembly.header.totalChunks ≠ header.totalChunks ∨
          ((assembly.chunks[chunkIndex]?).join).isSome then reject e
      else
        let assembly := { assembly with
          chunks := assembly.chunks.set chunkIndex (some frame)
          receivedBytes := assembly.receivedBytes + frame.length
          receivedChunks := assembly.receivedChunks + 1 }
        if assembly.receivedChunks < totalChunks then
          ({ e with incomingChunks := e.incomingChunks.set header.requestId assembly },
           .ok (.buffer none))
        else
          let e := { e with incomingChunks := e.incomingChunks.delete header.requestId }
          match assembled assembly.chunks with
          | some data => (e, .ok (.buffer (some data)))
          | none => reject e
  | _, _ => reject e

/-- `handleTransportBinary` up to its first await. -/
def handleTransportBinary (e : Engine σ) (cfg : Config) (t : Turn) (peerId : PeerId)
    (frame : ArrayBuffer) : Engine σ × Next :=
  match e.pendingChunks.get? peerId with
  | none => (e, .throw (PonsWarpError "transport:unexpected_binary"
      ("No chunk header for binary frame from " ++ peerId)))
  | some header =>
    let e := { e with pendingChunks := e.pendingChunks.delete peerId }
    let (e, next) := e.appendIncomingChunk cfg t peerId header frame
    (e, next.andThen (.chunkAppended peerId header))

def chunkAppended (e : Engine σ) (cfg : Config) (peerId : PeerId)
    (header : PieceChunkHeaderMessage) : Except Failure Value → Engine σ × Next
  | .error err => (e, .throw err)
  | .ok (.buffer (some data)) =>
    match e.outstandingRequests.get? header.requestId with
    | none => (e, .ok .unit)
    | some outstanding =>
      if outstanding.peerId ≠ peerId ∨ outstanding.fileId ≠ header.fileId ∨
          outstanding.pieceIndex ≠ header.pieceIndex then (e, .ok .unit)
      else
        let (e, next) := e.receivePiece cfg header.fileId header.pieceIndex header.requestId data
          (some peerId)
        (e, next.andThen (.pieceReceived peerId header outstanding))
  | .ok _ => (e, .ok .unit)

def responseTo (result : PieceReceiveResult) : TransferMessage :=
  if result.acknowledged then
    .PIECE_ACK result.fileId result.pieceIndex result.requestId result.hash
  else .PIECE_REJECT result.fileId result.pieceIndex result.requestId
    (if result.reason = some "hash_mismatch" then "hash_mismatch" else "missing_piece") result.hash

def pieceReceived (e : Engine σ) (cfg : Config) (t : Turn) (peerId : PeerId)
    (header : PieceChunkHeaderMessage) (outstanding : OutstandingRequest) :
    Except Failure Value → Engine σ × Next
  | .error error =>
    let e := e.emitDirectLifecycleError t .receive (some outstanding) header.requestId error
    match e.markFailedIfKnown header.fileId header.pieceIndex "receive_failed" with
    | .error err => (e, .throw err)
    | .ok e => ((e.finalizeDirectRequest cfg t header.requestId .cancelled).1, .ok .unit)
  | .ok (.received result) =>
    let (e, next) := e.send t peerId (responseTo result)
    (e, next.andThen (.responseSent result outstanding))
  | .ok v => (e, .ok v)

def responseSent (e : Engine σ) (cfg : Config) (t : Turn) (result : PieceReceiveResult)
    (outstanding : OutstandingRequest) : Except Failure Value → Engine σ × Next
  | .error err => (e, .throw err)
  | .ok _ =>
    match result.acknowledged, outstanding.gridOptions with
    | false, some options =>
      match e.requireManager result.fileId with
      | .error err => (e, .throw err)
      | .ok ref =>
        let index := (result.pieceIndex.index?).getD 0
        match (e.managerAt ref).getPieceState index with
        | .error err => (e, .throw err)
        | .ok piece =>
          if piece.retryCount ≤ cfg.maxRetries then
            match e.resetFailedToMissing ref index with
            | .error err => (e, .throw err)
            | .ok e => e.requestNextGridPiece cfg t result.fileId options
          else (e, .ok .unit)
    | _, _ => (e, .ok .unit)

/-- `queueRequestedPiece`: the pieces a peer asks for are sent one after the other. -/
def queueRequestedPiece (e : Engine σ) (peerId : PeerId) (request : PieceRequestMessage) :
    Engine σ :=
  let queue := (e.pieceSendQueues.get? peerId).getD ⟨[], false⟩
  { e with pieceSendQueues :=
      e.pieceSendQueues.set peerId { queue with jobs := queue.jobs ++ [request] } }

def sendReject (e : Engine σ) (t : Turn) (peerId : PeerId) (request : PieceRequestMessage)
    (reason : String) : Engine σ × Next :=
  e.send t peerId (.PIECE_REJECT request.fileId request.pieceIndex request.requestId reason none)

/-- `sendRequestedPiece` up to the read of the piece. -/
def sendRequestedPiece (e : Engine σ) (t : Turn) (peerId : PeerId)
    (request : PieceRequestMessage) : Engine σ × Next :=
  match e.requireManifest request.fileId with
  | .error err => (e, .throw err)
  | .ok manifest =>
    match request.pieceIndex.index?.bind fun i => (manifest.pieces[i]?).map fun d => (i, d) with
    | none => e.sendReject t peerId request "missing_piece"
    | some (index, piece) =>
      match e.ownerSources.get? request.fileId with
      | some source =>
        let data := slice source.data ((piece.offset : Number) + request.fromOffset)
          ((piece.offset : Number) + (piece.size : Number))
        (e, .await (.settled (match t.storageFailure with
          | some (err, _) => .error err
          | none => .ok (.buffer (some data)))) [.sourceRead peerId request index])
      | none =>
        match e.managers.get? request.fileId with
        | none => e.sendReject t peerId request "missing_piece"
        | some ref =>
          match (e.managerAt ref).getPieceState index with
          | .error err => (e, .throw err)
          | .ok state =>
            if state.status = .verified then
              let (e, next) := e.storageCall t .buffer
                (StorageAdapter.readPiece request.fileId index e.storage)
              (e, next.andThen (.storedRead peerId request index))
            else e.sendReject t peerId request "missing_piece"

def sendChunkHeader (e : Engine σ) (t : Turn) (u : Upload) : Engine σ × Next :=
  let chunk := (u.data.drop (u.chunkIndex * u.chunkSize)).take u.chunkSize
  let (e, next) := e.send t u.peerId (.PIECE_CHUNK_HEADER
    ⟨u.request.fileId, u.pieceIndex, u.chunkIndex, u.totalChunks, u.request.requestId,
      chunk.length⟩)
  (e, next.andThen (.headerSent u))

/-- The chunks of a piece: at least one, also for a piece without bytes. -/
def startUpload (e : Engine σ) (t : Turn) (peerId : PeerId) (request : PieceRequestMessage)
    (index : Nat) (data : ArrayBuffer) : Engine σ × Next :=
  let chunkSize := min e.transferChunkBytes
    (if data.length = 0 then e.transferChunkBytes else data.length)
  let totalChunks := max 1 ((data.length + chunkSize - 1) / chunkSize)
  e.sendChunkHeader t ⟨peerId, request, index, data, chunkSize, totalChunks, 0⟩

def sourceRead (e : Engine σ) (t : Turn) (peerId : PeerId) (request : PieceRequestMessage)
    (index : Nat) : Except Failure Value → Engine σ × Next
  | .error err => (e, .throw err)
  | .ok (.buffer (some data)) => e.startUpload t peerId request index data
  | .ok v => (e, .ok v)

def storedRead (e : Engine σ) (t : Turn) (peerId : PeerId) (request : PieceRequestMessage)
    (index : Nat) : Except Failure Value → Engine σ × Next
  | .error err => (e, .throw err)
  | .ok (.buffer (some stored)) =>
    e.startUpload t peerId request index (slice stored request.fromOffset stored.length)
  | .ok _ => e.sendReject t peerId request "storage_read_failed"

def headerSent (e : Engine σ) (t : Turn) (u : Upload) : Except Failure Value → Engine σ × Next
  | .error err => (e, .throw err)
  | .ok _ =>
    let (e, next) := e.sendBinary t u.peerId
      ((u.data.drop (u.chunkIndex * u.chunkSize)).take u.chunkSize)
    (e, next.andThen (.binarySent u))

def binarySent (e : Engine σ) (t : Turn) (u : Upload) : Except Failure Value → Engine σ × Next
  | .error err => (e, .throw err)
  | .ok _ =>
    if u.chunkIndex + 1 < u.totalChunks then
      e.sendChunkHeader t { u with chunkIndex := u.chunkIndex + 1 }
    else (e, .ok .unit)

/-- The next piece of a peer's queue is sent, when the one before it is done. -/
def startUploadJob (e : Engine σ) (t : Turn) (peerId : PeerId) : Option (Engine σ × Next) :=
  match e.pieceSendQueues.get? peerId with
  | none => none
  | some queue =>
    match queue.jobs with
    | [] => none
    | request :: rest =>
      if queue.running then none
      else
        let e := { e with pieceSendQueues := e.pieceSendQueues.set peerId ⟨rest, true⟩ }
        let (e, next) := e.sendRequestedPiece t peerId request
        some (e, next.andThen (.uploadJob peerId))

/-- The queue forgets a peer when its last job is done; a failed job is reported
like any failed message handler. -/
def uploadJobEnded (e : Engine σ) (peerId : PeerId) (outcome : Except Failure Value) :
    Engine σ × Next :=
  let e := match e.pieceSendQueues.get? peerId with
    | none => e
    | some queue =>
      if queue.jobs = [] then { e with pieceSendQueues := e.pieceSendQueues.delete peerId }
      else { e with pieceSendQueues := e.pieceSendQueues.set peerId { queue with running := false } }
  match outcome with
  | .error err => (e.emit (.pieceRejected "" (-1) err.message), .ok .unit)
  | .ok v => (e, .ok v)

def handleChunkHeader (e : Engine σ) (cfg : Config) (t : Turn) (peerId : PeerId)
    (header : PieceChunkHeaderMessage) : Engine σ × Next :=
  match e.outstandingRequests.get? header.requestId with
  | none => (e, .ok .unit)
  | some active =>
    if active.peerId ≠ peerId ∨ active.fileId ≠ header.fileId ∨
        active.pieceIndex ≠ header.pieceIndex ∨ header.requestId ∈ e.directTombstones then
      (e, .ok .unit)
    else
      match e.pendingChunks.get? peerId with
      | some previous =>
        if previous.same header then (e, .ok .unit)
        else e.rejectIncomingChunk cfg t peerId header
      | none => ({ e with pendingChunks := e.pendingChunks.set peerId header }, .ok .unit)

def handleAck (e : Engine σ) (cfg : Config) (t : Turn) (peerId : PeerId) (requestId : RequestId)
    (ackFileId : FileId) (ackPieceIndex : Number) : Engine σ × Next :=
  match e.outstandingRequests.get? requestId with
  | none => (e.finalizeOrDelete cfg t requestId .acknowledged, .ok .unit)
  | some outstanding =>
    if outstanding.peerId ≠ peerId ∨ outstanding.fileId ≠ ackFileId ∨
        (outstanding.pieceIndex : Number) ≠ ackPieceIndex then (e, .ok .unit)
    else
      let e := e.release outstanding.fileId outstanding.pieceIndex requestId
      let elapsed := max 1 ((t.now : Number) - outstanding.requestedAt)
      let e := { e with
        peerHealth := e.peerHealth.markSuccess cfg.log2 outstanding.peerId 0 elapsed }
      (e.finalizeOrDelete cfg t requestId .acknowledged, .ok .unit)

def handleReject (e : Engine σ) (cfg : Config) (t : Turn) (peerId : PeerId)
    (requestId : RequestId) (reason : Option String) : Engine σ × Next :=
  match e.outstandingRequests.get? requestId with
  | none => (e, .ok .unit)
  | some outstanding =>
    if outstanding.peerId ≠ peerId then (e, .ok .unit)
    else
      let e := e.release outstanding.fileId outstanding.pieceIndex requestId
      let e := { e with peerHealth := e.peerHealth.markReject cfg.log2 outstanding.peerId }
      match e.requireManager outstanding.fileId with
      | .error err => (e, .throw err)
      | .ok ref =>
        match requireStringField reason "reason" with
        | .error err => (e, .throw err)
        | .ok reason =>
          match e.markFailed ref outstanding.pieceIndex reason with
          | .error err => (e, .throw err)
          | .ok e =>
            let (e, finalizedDirect) := e.finalizeDirectRequest cfg t requestId .provider_reject
            if finalizedDirect then (e, .ok .unit)
            else
              let e := { e with outstandingRequests := e.outstandingRequests.delete requestId }
              match (e.managerAt ref).getPieceState outstanding.pieceIndex with
              | .error err => (e, .throw err)
              | .ok piece =>
                if piece.retryCount ≤ cfg.maxRetries then
                  match e.resetFailedToMissing ref outstanding.pieceIndex with
                  | .error err => (e, .throw err)
                  | .ok e => e.requestAgain cfg t outstanding.peerId outstanding.fileId
                      outstanding.gridOptions
                else (e, .ok .unit)

/-- `handleTransportMessage`; a value that is no record, or has no type, is ignored. -/
def handleTransportMessage (e : Engine σ) (cfg : Config) (t : Turn) (peerId : PeerId)
    (message : Option WireMessage) : Engine σ × Next :=
  match message with
  | none => (e, .ok .unit)
  | some m =>
    let e := { e with knownPeers := insertNew e.knownPeers peerId }
    if m.type = "PIECE_REQUEST" then
      match m.parsePieceRequest with
      | .error err => (e, .throw err)
      | .ok request => (e.queueRequestedPiece peerId request, .ok .unit)
    else if m.type = "PIECE_MAP" then
      match m.parsePieceMapBroadcast with
      | .error err => (e, .throw err)
      | .ok map =>
        match e.updatePeerPieceMap peerId map (if peerId = "owner" then .owner else .receiver) with
        | .error err => (e, .throw err)
        | .ok e => (e, .ok .unit)
    else if m.type = "PIECE_CHUNK_HEADER" then
      match m.parseChunkHeader with
      | .error err => (e, .throw err)
      | .ok none => (e, .ok .unit)
      | .ok (some header) => e.handleChunkHeader cfg t peerId header
    else if m.type = "PIECE_ACK" then
      match requireStringField m.requestId "requestId", requireStringField m.fileId "fileId",
          requireNumberField m.pieceIndex "pieceIndex" with
      | .ok requestId, .ok fileId, .ok pieceIndex =>
        e.handleAck cfg t peerId requestId fileId pieceIndex
      | .error err, _, _ => (e, .throw err)
      | _, .error err, _ => (e, .throw err)
      | _, _, .error err => (e, .throw err)
    else if m.type = "PIECE_CANCEL" then
      match requireStringField m.requestId "requestId" with
      | .error err => (e, .throw err)
      | .ok requestId =>
        ({ e with directTombstones := insertNew e.directTombstones requestId }, .ok .unit)
    else if m.type = "PIECE_REJECT" then
      match requireStringField m.requestId "requestId" with
      | .error err => (e, .throw err)
      | .ok requestId => e.handleReject cfg t peerId requestId m.reason
    else (e, .ok .unit)

end Engine

end PonsWarp.Core
