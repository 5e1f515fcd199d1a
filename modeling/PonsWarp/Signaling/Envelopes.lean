import PonsWarp.Data.JsonCopies
import PonsWarp.Signaling.RoomManager

set_option autoImplicit false

/-!
Envelopes as texts: the validators that `encodeSignaling` and `encodeTransfer` put before
`JSON.stringify`, and `decodeSignaling` and `decodeTransfer` behind `JSON.parse`. An error is its
message.
-/

namespace PonsWarp.Signaling.Envelopes

open PonsWarp.Data PonsWarp.Data.Json

inductive TransferMessageType where
  | HELLO | MANIFEST | PIECE_MAP | PIECE_REQUEST | PIECE_CANCEL | PIECE_ACK | PIECE_REJECT
  | RESUME_STATE | RESUME_ACCEPTED | RESUME_REJECTED | ERROR
  deriving DecidableEq, Repr

def TransferMessageType.name : TransferMessageType → String
  | .HELLO => "HELLO"
  | .MANIFEST => "MANIFEST"
  | .PIECE_MAP => "PIECE_MAP"
  | .PIECE_REQUEST => "PIECE_REQUEST"
  | .PIECE_CANCEL => "PIECE_CANCEL"
  | .PIECE_ACK => "PIECE_ACK"
  | .PIECE_REJECT => "PIECE_REJECT"
  | .RESUME_STATE => "RESUME_STATE"
  | .RESUME_ACCEPTED => "RESUME_ACCEPTED"
  | .RESUME_REJECTED => "RESUME_REJECTED"
  | .ERROR => "ERROR"

def SIGNALING_PROTOCOL : String := "ponswarp-grid/signaling"
def TRANSFER_PROTOCOL : String := "ponswarp-grid/transfer"
def PROTOCOL_VERSION : String := "1.0.0"

def SIGNALING_MESSAGE_TYPES : List SignalingMessageType :=
  [.CREATE_SESSION, .SESSION_CREATED, .JOIN_SESSION, .SESSION_JOINED, .PEER_JOINED, .PEER_LEFT,
    .WEBRTC_OFFER, .WEBRTC_ANSWER, .ICE_CANDIDATE, .ERROR]

def TRANSFER_MESSAGE_TYPES : List TransferMessageType :=
  [.HELLO, .MANIFEST, .PIECE_MAP, .PIECE_REQUEST, .PIECE_CANCEL, .PIECE_ACK, .PIECE_REJECT,
    .RESUME_STATE, .RESUME_ACCEPTED, .RESUME_REJECTED, .ERROR]

abbrev Check := Except Text Unit

def check (ok : Bool) (message : Text) : Check := if ok then .ok () else .error message

/-- `value[key]`. -/
def prop (value : Value) (key : String) : Value := value.get (units key)

def hasOwnProperty (value : Value) (key : String) : Bool :=
  match value with
  | .object fields => (fields.map Prod.fst).contains (units key)
  | _ => false

def isTruthy : Value → Bool
  | .undefined | .null => false
  | .bool b => b
  | .number x =>
    match x with
    | .zero _ | .nan => false
    | _ => true
  | .string s => s ≠ []
  | .array _ | .object _ => true

/-- `typeof value === 'string'`. -/
def isString : Value → Bool
  | .string _ => true
  | _ => false

/-- `typeof value === 'number'`. -/
def isNumber : Value → Bool
  | .number _ => true
  | _ => false

/-- `typeof value === 'boolean'`. -/
def isBoolean : Value → Bool
  | .bool _ => true
  | _ => false

def isText (value : Value) (s : String) : Bool :=
  match value with
  | .string t => t = units s
  | _ => false

/-- `value === null || value === undefined`. -/
def isNullish : Value → Bool
  | .undefined | .null => true
  | _ => false

def isRecord : Value → Bool
  | .object _ => true
  | _ => false

def malformed (type detail : String) : Text :=
  units "Malformed " ++ units type ++ units " payload" ++ units detail

def requirePayloadRecord (value : Value) (type : String) : Except Text Value :=
  if isRecord value then .ok value else .error (malformed type "")

def requireString (payload : Value) (key type : String) : Except Text Text :=
  match prop payload key with
  | .string s => if s = [] then .error (malformed type (": missing " ++ key)) else .ok s
  | _ => .error (malformed type (": missing " ++ key))

def requireNumber (payload : Value) (key type : String) : Except Text Double :=
  match prop payload key with
  | .number x => if x.isFinite then .ok x else .error (malformed type (": missing " ++ key))
  | _ => .error (malformed type (": missing " ++ key))

def requireArray (payload : Value) (key type : String) : Except Text (List Value) :=
  match prop payload key with
  | .array items => .ok items
  | _ => .error (malformed type (": missing " ++ key))

def requireRecord (payload : Value) (key type : String) : Except Text Value :=
  if isRecord (prop payload key) then .ok (prop payload key)
  else .error (malformed type (": missing " ++ key))

def validateSdp (value : Value) (expectedType type : String) : Check :=
  check (isText (prop value "type") expectedType && isString (prop value "sdp") &&
    isTruthy (prop value "sdp")) (malformed type ": invalid sdp")

def validateIceCandidate (value : Value) (type : String) : Check := do
  discard <| requireString value "candidate" type
  check (isNullish (prop value "sdpMid") || isString (prop value "sdpMid"))
    (malformed type ": invalid sdpMid")
  check (isNullish (prop value "sdpMLineIndex") || isNumber (prop value "sdpMLineIndex"))
    (malformed type ": invalid sdpMLineIndex")

def validateSupports (value : Value) (type : String) : Check :=
  ["resume", "pieceMap", "binaryFrameV1"].forM fun key =>
    check (isBoolean (prop value key)) (malformed type (": invalid supports." ++ key))

/-- A number that `Number.isInteger` holds of and that is not below zero. -/
def isIndex : Value → Bool
  | .number x => x.isInteger && x.isNonNegative
  | _ => false

def validateNumberArray (values : List Value) (type key : String) : Check :=
  check (values.all isIndex) (malformed type (": invalid " ++ key))

def validatePeers (values : List Value) (type : String) : Check :=
  values.forM fun value => do
    let peer ← requirePayloadRecord value type
    discard <| requireString peer "peerId" type
    discard <| requireString peer "role" type

def validateFileSummaries (values : List Value) (type : String) : Check :=
  values.forM fun value => do
    let file ← requirePayloadRecord value type
    discard <| requireString file "fileId" type
    discard <| requireString file "name" type
    discard <| requireNumber file "size" type
    discard <| requireNumber file "pieceSize" type
    discard <| requireNumber file "pieceCount" type

def validatePieces (values : List Value) (type : String) : Check :=
  values.forM fun value => do
    let piece ← requirePayloadRecord value type
    discard <| requireNumber piece "index" type
    discard <| requireNumber piece "offset" type
    discard <| requireNumber piece "size" type
    check ((prop piece "hash").isUndefined || isString (prop piece "hash"))
      (malformed type ": invalid piece hash")

def validateSessionFileDescriptors (values : List Value) (type : String) : Check :=
  values.forM fun value => do
    let file ← requirePayloadRecord value type
    validateFileSummaries [file] type
    match prop file "pieces" with
    | .array pieces =>
      discard <| requireString file "version" type
      check (isString (prop file "mimeType")) (malformed type ": invalid mimeType")
      validatePieces pieces type
    | _ => pure ()

def validateManifests (values : List Value) (type : String) : Check :=
  values.forM fun value => do
    let file ← requirePayloadRecord value type
    validateFileSummaries [file] type
    discard <| requireString file "version" type
    check (isString (prop file "mimeType")) (malformed type ": invalid mimeType")
    let pieces ← requireArray file "pieces" type
    validatePieces pieces type

def requirePieceRequestLike (payload : Value) (type : String) : Check := do
  discard <| requireString payload "fileId" type
  discard <| requireNumber payload "pieceIndex" type
  discard <| requireString payload "requestId" type

def validateSignalingPayload (envelope : Value) (messageType : SignalingMessageType) : Check := do
  let type := messageType.name
  let payload ← requirePayloadRecord (prop envelope "payload") type
  match messageType with
  | .CREATE_SESSION =>
    discard <| requireString payload "ownerPeerId" type
    let files ← requireArray payload "files" type
    validateSessionFileDescriptors files type
  | .SESSION_CREATED =>
    discard <| requireString payload "ownerPeerId" type
    discard <| requireNumber payload "expiresAt" type
    discard <| requireString payload "shareUrl" type
  | .JOIN_SESSION => discard <| requireString payload "role" type
  | .SESSION_JOINED =>
    discard <| requireString payload "selfPeerId" type
    discard <| requireString payload "ownerPeerId" type
    let peers ← requireArray payload "peers" type
    validatePeers peers type
    let files ← requireArray payload "files" type
    validateSessionFileDescriptors files type
  | .PEER_JOINED | .PEER_LEFT => discard <| requireString payload "peerId" type
  | .WEBRTC_OFFER =>
    let sdp ← requireRecord payload "sdp" type
    validateSdp sdp "offer" type
  | .WEBRTC_ANSWER =>
    let sdp ← requireRecord payload "sdp" type
    validateSdp sdp "answer" type
  | .ICE_CANDIDATE =>
    let candidate ← requireRecord payload "candidate" type
    validateIceCandidate candidate type
  | .ERROR =>
    discard <| requireString payload "code" type
    discard <| requireString payload "message" type

def validateTransferPayload (envelope : Value) (messageType : TransferMessageType) : Check := do
  let type := messageType.name
  let payload ← requirePayloadRecord (prop envelope "payload") type
  match messageType with
  | .HELLO =>
    discard <| requireString payload "role" type
    let supports ← requireRecord payload "supports" type
    validateSupports supports type
  | .MANIFEST =>
    let files ← requireArray payload "files" type
    validateManifests files type
  | .PIECE_MAP =>
    discard <| requireString payload "fileId" type
    let verifiedPieces ← requireArray payload "verifiedPieces" type
    validateNumberArray verifiedPieces type "verifiedPieces"
    discard <| requireNumber payload "pieceCount" type
  | .PIECE_REQUEST =>
    requirePieceRequestLike payload type
    discard <| requireNumber payload "fromOffset" type
  | .PIECE_CANCEL =>
    requirePieceRequestLike payload type
    discard <| requireString payload "reason" type
  | .PIECE_ACK =>
    requirePieceRequestLike payload type
    discard <| requireString payload "status" type
    discard <| requireString payload "hash" type
  | .PIECE_REJECT =>
    requirePieceRequestLike payload type
    discard <| requireString payload "reason" type
  | .RESUME_STATE =>
    discard <| requireString payload "fileId" type
    discard <| requireString payload "manifestHash" type
    let verifiedPieces ← requireArray payload "verifiedPieces" type
    validateNumberArray verifiedPieces type "verifiedPieces"
    discard <| requireNumber payload "missingCount" type
  | .RESUME_ACCEPTED =>
    discard <| requireString payload "fileId" type
    discard <| requireString payload "nextStrategy" type
  | .RESUME_REJECTED =>
    discard <| requireString payload "fileId" type
    discard <| requireString payload "reason" type
  | .ERROR =>
    discard <| requireString payload "code" type
    discard <| requireString payload "message" type

def major (version : Text) : Text := version.takeWhile (· ≠ 46)

def validateCompatibleVersion (version : Value) (protocol : String) : Check :=
  match version with
  | .string text =>
    check (major text = major (units PROTOCOL_VERSION))
      (units ("Unsupported " ++ protocol ++ " protocol major version"))
  | _ => .error (units ("Malformed " ++ protocol ++ " protocol version"))

/-- Reading a property of `null` or `undefined` throws. -/
def readable (envelope : Value) : Check :=
  check (!isNullish envelope)
    (units ("Cannot read properties of " ++
      (if envelope.isUndefined then "undefined" else "null") ++ " (reading 'protocol')"))

/-- The message type of this name. -/
def messageTypeOf {T : Type} (types : List T) (name : T → String) (type : Value)
    (protocol : String) : Except Text T :=
  match type with
  | .string text =>
    match types.find? fun messageType => units (name messageType) = text with
    | some messageType => .ok messageType
    | none => .error (units ("Unknown " ++ protocol ++ " message type: ") ++ text)
  | _ => .error (units ("Malformed " ++ protocol ++ " envelope"))

def validateSignalingEnvelope (envelope : Value) : Check := do
  readable envelope
  check (isText (prop envelope "protocol") SIGNALING_PROTOCOL) (units "Invalid signaling protocol")
  validateCompatibleVersion (prop envelope "version") "signaling"
  check (isTruthy (prop envelope "messageId") && isNumber (prop envelope "timestamp") &&
    isString (prop envelope "type")) (units "Malformed signaling envelope")
  let messageType ← messageTypeOf SIGNALING_MESSAGE_TYPES SignalingMessageType.name
    (prop envelope "type") "signaling"
  check (hasOwnProperty envelope "payload") (units "Malformed signaling envelope payload")
  validateSignalingPayload envelope messageType

def validateTransferEnvelope (envelope : Value) : Check := do
  readable envelope
  check (isText (prop envelope "protocol") TRANSFER_PROTOCOL) (units "Invalid transfer protocol")
  validateCompatibleVersion (prop envelope "version") "transfer"
  check (isTruthy (prop envelope "messageId") && isNumber (prop envelope "timestamp") &&
    isString (prop envelope "type")) (units "Malformed transfer envelope")
  check (isTruthy (prop envelope "sessionId") && isTruthy (prop envelope "fromPeerId"))
    (units "Malformed transfer routing")
  let messageType ← messageTypeOf TRANSFER_MESSAGE_TYPES TransferMessageType.name
    (prop envelope "type") "transfer"
  check (hasOwnProperty envelope "payload") (units "Malformed transfer envelope payload")
  validateTransferPayload envelope messageType

/-- Validated and written; a value that is validated has a text. -/
def encode (format : NumberFormat) (validate : Value → Check) (envelope : Value) :
    Except Text Text := do
  validate envelope
  match stringify format envelope with
  | some text => .ok text
  | none => .error []

def decode (validate : Value → Check) (text : Text) : Except Text Value :=
  match parse text with
  | none => .error (units "SyntaxError")
  | some decoded => do
    validate decoded
    .ok decoded

def encodeSignaling (format : NumberFormat) (envelope : Value) : Except Text Text :=
  encode format validateSignalingEnvelope envelope

def decodeSignaling (text : Text) : Except Text Value := decode validateSignalingEnvelope text

def encodeTransfer (format : NumberFormat) (envelope : Value) : Except Text Text :=
  encode format validateTransferEnvelope envelope

def decodeTransfer (text : Text) : Except Text Value := decode validateTransferEnvelope text

end PonsWarp.Signaling.Envelopes
