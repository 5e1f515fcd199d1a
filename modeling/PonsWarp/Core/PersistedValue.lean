import PonsWarp.Core.Manifest

set_option autoImplicit false

/-!
Persisted state as it is found: any value of the language. The validator looks at some of
its fields and says nothing of the others; what it has looked at is the shape of the value.
-/

namespace PonsWarp.Core

/-- A number of the language. -/
inductive JsNumber where
  | finite (x : Number)
  | nan
  | infinity (negative : Bool)
  deriving DecidableEq, Repr

inductive JsValue where
  | null
  | bool (b : Bool)
  | number (x : JsNumber)
  | string (s : String)
  | array (items : List JsValue)
  | object (fields : List (String × JsValue))
  deriving Repr

namespace JsNumber

def ofNat (n : Nat) : JsNumber := .finite n

def isFinite : JsNumber → Bool
  | .finite _ => true
  | _ => false

/-- `x < 0`; every comparison with `NaN` is false. -/
def isNegative : JsNumber → Bool
  | .finite x => x < 0
  | .nan => false
  | .infinity negative => negative

/-- `x <= 0`. -/
def isNonPositive : JsNumber → Bool
  | .finite x => x ≤ 0
  | .nan => false
  | .infinity negative => negative

/-- The array position that a number names. -/
def index? : JsNumber → Option Nat
  | .finite x => x.index?
  | _ => none

@[simp] theorem index?_ofNat (n : Nat) : (ofNat n).index? = some n := Number.index?_natCast n

theorem index?_eq_some {x : JsNumber} {n : Nat} : x.index? = some n ↔ x = ofNat n := by
  cases x with
  | finite x => simp [index?, ofNat, Number.index?_eq_some]
  | nan => simp [index?, ofNat]
  | infinity negative => simp [index?, ofNat]

theorem ofNat_inj {m n : Nat} : ofNat m = ofNat n ↔ m = n := by
  simp [ofNat]

end JsNumber

namespace JsValue

/-- The text of `String(value)`, when it can be the name of a status: an array of one value
has the text of that value, and the texts of all other values are no such names. -/
def text? : JsValue → Option String
  | .string s => some s
  | .array [item] => item.text?
  | _ => none

def isString (value : JsValue) (s : String) : Bool :=
  match value with
  | .string t => t = s
  | _ => false

def asArray (value : Option JsValue) (reason : String) : Except Failure (List JsValue) :=
  match value with
  | some (.array items) => .ok items
  | _ => .error (throwInvalidResumeState reason)

/-- `isRecord`. -/
def asRecord (value : JsValue) (reason : String) : Except Failure (List (String × JsValue)) :=
  match value with
  | .object fields => .ok fields
  | _ => .error (throwInvalidResumeState reason)

end JsValue

abbrev Fields := List (String × JsValue)

namespace Fields

def field? (fields : Fields) (key : String) : Option JsValue := fields.lookup key

def require (ok : Bool) (reason : String) : Except Failure Unit :=
  if ok then .ok () else .error (throwInvalidResumeState reason)

def isString (fields : Fields) (key s : String) : Bool :=
  (fields.field? key).elim false (·.isString s)

/-- A non-empty string. -/
def string (fields : Fields) (key reason : String) : Except Failure String :=
  match fields.field? key with
  | some (.string s) => if s = "" then .error (throwInvalidResumeState reason) else .ok s
  | _ => .error (throwInvalidResumeState reason)

/-- A number that is not refused. -/
def number (fields : Fields) (key reason : String) (refused : JsNumber → Bool) :
    Except Failure JsNumber :=
  match fields.field? key with
  | some (.number x) => if refused x then .error (throwInvalidResumeState reason) else .ok x
  | _ => .error (throwInvalidResumeState reason)

end Fields

structure PieceDescriptorShape where
  index : JsNumber
  offset : JsNumber
  size : JsNumber
  hash : Option String
  deriving DecidableEq, Repr

structure ManifestShape where
  fileId : FileId
  size : JsNumber
  pieceSize : JsNumber
  pieceCount : JsNumber
  pieces : List PieceDescriptorShape
  deriving DecidableEq, Repr

structure PieceStateShape where
  index : JsNumber
  status : JsValue
  size : JsNumber
  receivedBytes : JsNumber
  retryCount : JsNumber
  deriving Repr

structure PieceMapShape where
  fileId : FileId
  pieces : List PieceStateShape
  deriving Repr

structure SessionShape where
  sessionId : SessionId
  manifests : List ManifestShape
  pieceMaps : List PieceMapShape
  deriving Repr

namespace JsValue

def validatePieceDescriptorShape (value : JsValue) : Except Failure PieceDescriptorShape := do
  let fields ← value.asRecord "piece descriptor must be an object"
  let index ← Fields.number fields "index" "piece index is invalid" (·.isNegative)
  let offset ← Fields.number fields "offset" "piece offset is invalid" (·.isNegative)
  let size ← Fields.number fields "size" "piece size is invalid" (·.isNegative)
  match Fields.field? fields "hash" with
  | none => .ok ⟨index, offset, size, none⟩
  | some (.string hash) => .ok ⟨index, offset, size, some hash⟩
  | some _ => .error (throwInvalidResumeState "piece hash is invalid")

def validateManifestShape (value : JsValue) : Except Failure ManifestShape := do
  let fields ← value.asRecord "manifest must be an object"
  Fields.require (Fields.isString fields "version" "1.0.0") "manifest version is invalid"
  let fileId ← Fields.string fields "fileId" "manifest fileId is required"
  match Fields.field? fields "name" with
  | some (.string _) => pure ()
  | _ => .error (throwInvalidResumeState "manifest name is required")
  let size ← Fields.number fields "size" "manifest size is invalid" (·.isNegative)
  let pieceSize ← Fields.number fields "pieceSize" "manifest pieceSize is invalid" (·.isNonPositive)
  let pieceCount ← Fields.number fields "pieceCount" "manifest pieceCount is invalid" (·.isNegative)
  let items ← asArray (Fields.field? fields "pieces") "manifest pieces are invalid"
  Fields.require (JsNumber.ofNat items.length = pieceCount) "manifest pieces are invalid"
  let pieces ← items.mapM validatePieceDescriptorShape
  .ok ⟨fileId, size, pieceSize, pieceCount, pieces⟩

def statuses : List String :=
  ["missing", "requested", "receiving", "received", "verified", "failed"]

def validatePieceStateShape (value : JsValue) : Except Failure PieceStateShape := do
  let fields ← value.asRecord "piece state must be an object"
  let index ← Fields.number fields "index" "piece state index is invalid" (·.isNegative)
  let status := (Fields.field? fields "status").getD .null
  Fields.require (status.text?.elim false (statuses.contains ·)) "piece state status is invalid"
  let size ← Fields.number fields "size" "piece state size is invalid" (·.isNegative)
  let receivedBytes ← Fields.number fields "receivedBytes" "piece state receivedBytes is invalid"
    (·.isNegative)
  let retryCount ← Fields.number fields "retryCount" "piece state retryCount is invalid"
    (·.isNegative)
  let _ ← Fields.number fields "updatedAt" "piece state updatedAt is invalid" (!·.isFinite)
  .ok ⟨index, status, size, receivedBytes, retryCount⟩

def validatePieceMapShape (value : JsValue) : Except Failure PieceMapShape := do
  let fields ← value.asRecord "piece map must be an object"
  let fileId ← Fields.string fields "fileId" "piece map fileId is required"
  let items ← asArray (Fields.field? fields "pieces") "piece map pieces must be an array"
  let _ ← Fields.number fields "exportedAt" "piece map exportedAt is invalid" (!·.isFinite)
  let pieces ← items.mapM validatePieceStateShape
  .ok ⟨fileId, pieces⟩

def validatePersistedPeerShape (value : JsValue) : Except Failure Unit := do
  let fields ← value.asRecord "peer state must be an object"
  let _ ← Fields.string fields "peerId" "peerId is required"
  Fields.require (Fields.isString fields "role" "owner" || Fields.isString fields "role" "receiver")
    "peer role is invalid"
  let _ ← Fields.number fields "updatedAt" "peer updatedAt is invalid" (!·.isFinite)
  .ok ()

def validatePieceMapForManifest (manifest : ManifestShape) (pieceMap : PieceMapShape) :
    Except Failure Unit :=
  if pieceMap.fileId ≠ manifest.fileId then
    .error (PonsWarpError "resume:manifest_mismatch" "Piece map fileId does not match manifest")
  else if JsNumber.ofNat pieceMap.pieces.length ≠ manifest.pieceCount then
    .error (PonsWarpError "resume:manifest_mismatch"
      "Piece map length does not match manifest piece count")
  else .ok ()

/-- The manifest that a piece map is about. -/
def manifestOf (manifests : List ManifestShape) (pieceMap : PieceMapShape) : Option ManifestShape :=
  manifests.find? fun manifest => manifest.fileId = pieceMap.fileId

def validatePersistedSessionState (state : JsValue) : Except Failure SessionShape := do
  let fields ← state.asRecord "state must be an object"
  if !Fields.isString fields "protocolVersion" CORE_PROTOCOL_VERSION then
    .error (PonsWarpError "resume:protocol_mismatch"
      "Persisted session state protocol version is not supported")
  let _ ← Fields.number fields "schemaVersion" "schemaVersion must be 1" (· ≠ JsNumber.ofNat 1)
  let sessionId ← Fields.string fields "sessionId" "sessionId is required"
  let manifestItems ← asArray (Fields.field? fields "manifests") "manifests must be an array"
  let pieceMapItems ← asArray (Fields.field? fields "pieceMaps") "pieceMaps must be an array"
  Fields.require (Fields.isString fields "mode" "direct" || Fields.isString fields "mode" "grid")
    "mode is invalid"
  let peerItems ← asArray (Fields.field? fields "peers") "peers must be an array"
  let _ ← Fields.number fields "updatedAt" "updatedAt must be a finite number" (!·.isFinite)
  let manifests ← manifestItems.mapM validateManifestShape
  let pieceMaps ← pieceMapItems.mapM validatePieceMapShape
  forEach validatePersistedPeerShape peerItems
  forEach (fun pieceMap =>
    (manifestOf manifests pieceMap).elim
      (.error (throwInvalidResumeState s!"piece map references unknown fileId {pieceMap.fileId}"))
      (validatePieceMapForManifest · pieceMap)) pieceMaps
  .ok ⟨sessionId, manifests, pieceMaps⟩

end JsValue

end PonsWarp.Core
