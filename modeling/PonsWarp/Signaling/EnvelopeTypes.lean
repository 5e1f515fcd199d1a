import PonsWarp.Data.DecimalText
import PonsWarp.Signaling.Envelopes

set_option autoImplicit false

/-!
The types of the envelopes, said without the validators, and what the validators make sure of.
-/

namespace PonsWarp.Signaling.Envelopes

open PonsWarp.Data PonsWarp.Data.Json

/-! The rules for payloads. -/

def IsString (value : Value) : Prop := ∃ s, value = .string s

def IsNumber (value : Value) : Prop := ∃ x, value = .number x

def IsBoolean (value : Value) : Prop := ∃ b, value = .bool b

def IsRecord (value : Value) : Prop := ∃ fields, value = .object fields

def Absent (value : Value) : Prop := value = .undefined

/-- A text that is not empty. -/
def TextField (value : Value) (key : String) : Prop := ∃ s, prop value key = .string s ∧ s ≠ []

def FiniteField (value : Value) (key : String) : Prop :=
  ∃ x, prop value key = .number x ∧ x.isFinite = true

def ListField (value : Value) (key : String) (Item : Value → Prop) : Prop :=
  ∃ items, prop value key = .array items ∧ ∀ item ∈ items, Item item

structure IsPeer (value : Value) : Prop where
  record : IsRecord value
  peerId : TextField value "peerId"
  role : TextField value "role"

structure IsPiece (value : Value) : Prop where
  record : IsRecord value
  index : FiniteField value "index"
  offset : FiniteField value "offset"
  size : FiniteField value "size"
  hash : Absent (prop value "hash") ∨ IsString (prop value "hash")

structure IsFileSummary (value : Value) : Prop where
  record : IsRecord value
  fileId : TextField value "fileId"
  name : TextField value "name"
  size : FiniteField value "size"
  pieceSize : FiniteField value "pieceSize"
  pieceCount : FiniteField value "pieceCount"

structure IsManifest (value : Value) : Prop extends IsFileSummary value where
  version : TextField value "version"
  mimeType : IsString (prop value "mimeType")
  pieces : ListField value "pieces" IsPiece

/-- A summary; with an array of pieces it is a manifest. -/
structure IsSessionFile (value : Value) : Prop extends IsFileSummary value where
  manifest : (∃ items, prop value "pieces" = .array items) → IsManifest value

def IsPieceNumber (value : Value) : Prop :=
  ∃ x, value = .number x ∧ x.isInteger = true ∧ x.isNonNegative = true

structure IsSdp (value : Value) (type : String) : Prop where
  record : IsRecord value
  type : prop value "type" = .string (units type)
  sdp : TextField value "sdp"

structure IsIceCandidate (value : Value) : Prop where
  record : IsRecord value
  candidate : TextField value "candidate"
  sdpMid : Absent (prop value "sdpMid") ∨ prop value "sdpMid" = .null ∨
    IsString (prop value "sdpMid")
  sdpMLineIndex : Absent (prop value "sdpMLineIndex") ∨ prop value "sdpMLineIndex" = .null ∨
    IsNumber (prop value "sdpMLineIndex")

structure IsSupports (value : Value) : Prop where
  record : IsRecord value
  resume : IsBoolean (prop value "resume")
  pieceMap : IsBoolean (prop value "pieceMap")
  binaryFrameV1 : IsBoolean (prop value "binaryFrameV1")

def PieceRequestLike (payload : Value) : Prop :=
  TextField payload "fileId" ∧ FiniteField payload "pieceIndex" ∧ TextField payload "requestId"

def SignalingPayload (payload : Value) : SignalingMessageType → Prop
  | .CREATE_SESSION => TextField payload "ownerPeerId" ∧ ListField payload "files" IsSessionFile
  | .SESSION_CREATED =>
    TextField payload "ownerPeerId" ∧ FiniteField payload "expiresAt" ∧
      TextField payload "shareUrl"
  | .JOIN_SESSION => TextField payload "role"
  | .SESSION_JOINED =>
    TextField payload "selfPeerId" ∧ TextField payload "ownerPeerId" ∧
      ListField payload "peers" IsPeer ∧ ListField payload "files" IsSessionFile
  | .PEER_JOINED | .PEER_LEFT => TextField payload "peerId"
  | .WEBRTC_OFFER => IsSdp (prop payload "sdp") "offer"
  | .WEBRTC_ANSWER => IsSdp (prop payload "sdp") "answer"
  | .ICE_CANDIDATE => IsIceCandidate (prop payload "candidate")
  | .ERROR => TextField payload "code" ∧ TextField payload "message"

def TransferPayload (payload : Value) : TransferMessageType → Prop
  | .HELLO => TextField payload "role" ∧ IsSupports (prop payload "supports")
  | .MANIFEST => ListField payload "files" IsManifest
  | .PIECE_MAP =>
    TextField payload "fileId" ∧ ListField payload "verifiedPieces" IsPieceNumber ∧
      FiniteField payload "pieceCount"
  | .PIECE_REQUEST => PieceRequestLike payload ∧ FiniteField payload "fromOffset"
  | .PIECE_CANCEL => PieceRequestLike payload ∧ TextField payload "reason"
  | .PIECE_ACK =>
    PieceRequestLike payload ∧ TextField payload "status" ∧ TextField payload "hash"
  | .PIECE_REJECT => PieceRequestLike payload ∧ TextField payload "reason"
  | .RESUME_STATE =>
    TextField payload "fileId" ∧ TextField payload "manifestHash" ∧
      ListField payload "verifiedPieces" IsPieceNumber ∧ FiniteField payload "missingCount"
  | .RESUME_ACCEPTED => TextField payload "fileId" ∧ TextField payload "nextStrategy"
  | .RESUME_REJECTED => TextField payload "fileId" ∧ TextField payload "reason"
  | .ERROR => TextField payload "code" ∧ TextField payload "message"

/-! What each check makes sure of. -/

theorem bind_ok {α β : Type} {x : Except Text α} {f : α → Except Text β} {b : β} :
    (x >>= f) = .ok b ↔ ∃ a, x = .ok a ∧ f a = .ok b := by
  cases x with
  | error message => exact iff_of_false (fun h => by cases h) fun ⟨_, h, _⟩ => by cases h
  | ok a => exact ⟨fun h => ⟨a, rfl, h⟩, fun ⟨_, h, hf⟩ => by cases h; exact hf⟩

theorem discard_ok {α : Type} {x : Except Text α} :
    discard x = .ok () ↔ ∃ a, x = .ok a := by
  cases x with
  | error message => exact iff_of_false (fun h => by cases h) fun ⟨_, h⟩ => by cases h
  | ok a => exact iff_of_true rfl ⟨a, rfl⟩

theorem check_ok {ok : Bool} {message : Text} : check ok message = .ok () ↔ ok = true := by
  cases ok <;> simp [check]

/-- One check after another. -/
theorem then_ok {β : Type} {x : Check} {f : Unit → Except Text β} {b : β} :
    (x >>= f) = .ok b ↔ x = .ok () ∧ f () = .ok b := by
  rw [bind_ok]
  exact ⟨fun ⟨_, h, hf⟩ => ⟨h, hf⟩, fun ⟨h, hf⟩ => ⟨(), h, hf⟩⟩

theorem forM_ok {α : Type} {values : List α} {f : α → Check} :
    values.forM f = .ok () ↔ ∀ value ∈ values, f value = .ok () := by
  induction values with
  | nil => exact iff_of_true rfl (by simp)
  | cons value rest ih =>
    rw [List.forall_mem_cons, ← ih]
    exact then_ok

theorem isRecord_iff {value : Value} : isRecord value = true ↔ IsRecord value := by
  cases value <;> simp [isRecord, IsRecord]

theorem isString_iff {value : Value} : isString value = true ↔ IsString value := by
  cases value <;> simp [isString, IsString]

theorem isNumber_iff {value : Value} : isNumber value = true ↔ IsNumber value := by
  cases value <;> simp [isNumber, IsNumber]

theorem isBoolean_iff {value : Value} : isBoolean value = true ↔ IsBoolean value := by
  cases value <;> simp [isBoolean, IsBoolean]

theorem isText_iff {value : Value} {s : String} :
    isText value s = true ↔ value = .string (units s) := by
  cases value <;> simp [isText]

theorem isNullish_iff {value : Value} : isNullish value = true ↔ Absent value ∨ value = .null := by
  cases value <;> simp [isNullish, Absent]

theorem requirePayloadRecord_ok {value record : Value} {type : String} :
    requirePayloadRecord value type = .ok record ↔ record = value ∧ IsRecord value := by
  rw [requirePayloadRecord, ← isRecord_iff]
  cases isRecord value <;> simp [eq_comm]

theorem requireString_ok {payload : Value} {key type : String} :
    (∃ s, requireString payload key type = .ok s) ↔ TextField payload key := by
  rw [requireString, TextField]
  cases prop payload key with
  | string s => by_cases h : s = [] <;> simp [h]
  | _ => simp

theorem requireNumber_ok {payload : Value} {key type : String} :
    (∃ x, requireNumber payload key type = .ok x) ↔ FiniteField payload key := by
  rw [requireNumber, FiniteField]
  cases prop payload key with
  | number x => cases h : x.isFinite <;> simp [h]
  | _ => simp

theorem requireArray_ok {payload : Value} {key type : String} {items : List Value} :
    requireArray payload key type = .ok items ↔ prop payload key = .array items := by
  rw [requireArray]
  cases prop payload key <;> simp

theorem requireRecord_ok {payload record : Value} {key type : String} :
    requireRecord payload key type = .ok record ↔
      record = prop payload key ∧ IsRecord (prop payload key) := by
  rw [requireRecord, ← isRecord_iff]
  cases isRecord (prop payload key) <;> simp [eq_comm]

theorem discard_string {payload : Value} {key type : String} :
    discard (requireString payload key type) = .ok () ↔ TextField payload key := by
  rw [discard_ok, requireString_ok]

theorem discard_number {payload : Value} {key type : String} :
    discard (requireNumber payload key type) = .ok () ↔ FiniteField payload key := by
  rw [discard_ok, requireNumber_ok]

/-- A record that is required, and what is checked of it. -/
theorem payloadRecord_then {value : Value} {type : String} {f : Value → Check} :
    (requirePayloadRecord value type >>= f) = .ok () ↔ IsRecord value ∧ f value = .ok () := by
  rw [bind_ok]
  constructor
  · rintro ⟨record, hrecord, hf⟩
    obtain ⟨rfl, h⟩ := requirePayloadRecord_ok.1 hrecord
    exact ⟨h, hf⟩
  · exact fun ⟨h, hf⟩ => ⟨value, requirePayloadRecord_ok.2 ⟨rfl, h⟩, hf⟩

theorem record_then {payload : Value} {key type : String} {f : Value → Check} :
    (requireRecord payload key type >>= f) = .ok () ↔
      IsRecord (prop payload key) ∧ f (prop payload key) = .ok () := by
  rw [bind_ok]
  constructor
  · rintro ⟨record, hrecord, hf⟩
    obtain ⟨rfl, h⟩ := requireRecord_ok.1 hrecord
    exact ⟨h, hf⟩
  · exact fun ⟨h, hf⟩ => ⟨_, requireRecord_ok.2 ⟨rfl, h⟩, hf⟩

/-- An array that is required, and what is checked of it and after it. -/
theorem array_then {payload : Value} {key type : String} {f : List Value → Check} :
    (requireArray payload key type >>= f) = .ok () ↔
      ∃ items, prop payload key = .array items ∧ f items = .ok () := by
  rw [bind_ok]
  simp only [requireArray_ok]

theorem validateSdp_ok {value : Value} {expectedType type : String} :
    IsRecord value ∧ validateSdp value expectedType type = .ok () ↔ IsSdp value expectedType := by
  rw [validateSdp, check_ok, Bool.and_eq_true, Bool.and_eq_true, isText_iff]
  constructor
  · rintro ⟨h, ⟨htype, hstring⟩, htruthy⟩
    obtain ⟨s, hs⟩ := isString_iff.1 hstring
    rw [hs] at htruthy
    exact ⟨h, htype, s, hs, by simpa [isTruthy] using htruthy⟩
  · rintro ⟨h, htype, s, hs, hne⟩
    simp [h, htype, hs, isString, isTruthy, hne]

theorem validateIceCandidate_ok {value : Value} {type : String} :
    IsRecord value ∧ validateIceCandidate value type = .ok () ↔ IsIceCandidate value := by
  simp only [validateIceCandidate, then_ok, discard_string, check_ok, Bool.or_eq_true,
    isNullish_iff, isString_iff, isNumber_iff, or_assoc]
  exact ⟨fun ⟨h, hcandidate, hmid, hindex⟩ => ⟨h, hcandidate, hmid, hindex⟩,
    fun ⟨h, hcandidate, hmid, hindex⟩ => ⟨h, hcandidate, hmid, hindex⟩⟩

theorem validateSupports_ok {value : Value} {type : String} :
    IsRecord value ∧ validateSupports value type = .ok () ↔ IsSupports value := by
  simp only [validateSupports, forM_ok, check_ok, isBoolean_iff, List.forall_mem_cons]
  exact ⟨fun ⟨h, hresume, hmap, hframe, _⟩ => ⟨h, hresume, hmap, hframe⟩,
    fun ⟨h, hresume, hmap, hframe⟩ => ⟨h, hresume, hmap, hframe, by simp⟩⟩

theorem isIndex_iff {value : Value} : isIndex value = true ↔ IsPieceNumber value := by
  cases value <;> simp [isIndex, IsPieceNumber]

theorem validateNumberArray_ok {values : List Value} {type key : String} :
    validateNumberArray values type key = .ok () ↔ ∀ value ∈ values, IsPieceNumber value := by
  simp only [validateNumberArray, check_ok, List.all_eq_true, isIndex_iff]

theorem validatePeers_ok {values : List Value} {type : String} :
    validatePeers values type = .ok () ↔ ∀ value ∈ values, IsPeer value := by
  simp only [validatePeers, forM_ok, payloadRecord_then, then_ok, discard_string]
  exact forall₂_congr fun value _ =>
    ⟨fun ⟨h, hid, hrole⟩ => ⟨h, hid, hrole⟩, fun ⟨h, hid, hrole⟩ => ⟨h, hid, hrole⟩⟩

theorem validateFileSummaries_ok {values : List Value} {type : String} :
    validateFileSummaries values type = .ok () ↔ ∀ value ∈ values, IsFileSummary value := by
  simp only [validateFileSummaries, forM_ok, payloadRecord_then, then_ok, discard_string,
    discard_number]
  exact forall₂_congr fun value _ => ⟨
    fun ⟨h, hid, hname, hsize, hpiece, hcount⟩ => ⟨h, hid, hname, hsize, hpiece, hcount⟩,
    fun ⟨h, hid, hname, hsize, hpiece, hcount⟩ => ⟨h, hid, hname, hsize, hpiece, hcount⟩⟩

theorem validatePieces_ok {values : List Value} {type : String} :
    validatePieces values type = .ok () ↔ ∀ value ∈ values, IsPiece value := by
  simp only [validatePieces, forM_ok, payloadRecord_then, then_ok, discard_number, check_ok,
    Bool.or_eq_true, Value.isUndefined_iff, isString_iff]
  exact forall₂_congr fun value _ => ⟨
    fun ⟨h, hindex, hoffset, hsize, hhash⟩ => ⟨h, hindex, hoffset, hsize, hhash⟩,
    fun ⟨h, hindex, hoffset, hsize, hhash⟩ => ⟨h, hindex, hoffset, hsize, hhash⟩⟩

theorem validateManifests_ok {values : List Value} {type : String} :
    validateManifests values type = .ok () ↔ ∀ value ∈ values, IsManifest value := by
  simp only [validateManifests, forM_ok, payloadRecord_then, then_ok, validateFileSummaries_ok,
    List.forall_mem_singleton, discard_string, check_ok, isString_iff, array_then,
    validatePieces_ok]
  exact forall₂_congr fun value _ => ⟨
    fun ⟨_, hsummary, hversion, hmime, hpieces⟩ => ⟨hsummary, hversion, hmime, hpieces⟩,
    fun ⟨hsummary, hversion, hmime, hpieces⟩ =>
      ⟨hsummary.record, hsummary, hversion, hmime, hpieces⟩⟩

theorem validateSessionFileDescriptors_ok {values : List Value} {type : String} :
    validateSessionFileDescriptors values type = .ok () ↔
      ∀ value ∈ values, IsSessionFile value := by
  simp only [validateSessionFileDescriptors, forM_ok, payloadRecord_then, then_ok,
    validateFileSummaries_ok, List.forall_mem_singleton]
  refine forall₂_congr fun value _ => ?_
  cases hpieces : prop value "pieces" with
  | array pieces =>
    simp only [then_ok, discard_string, check_ok, isString_iff, validatePieces_ok]
    constructor
    · rintro ⟨-, hsummary, hversion, hmime, hall⟩
      exact ⟨hsummary, fun _ => ⟨hsummary, hversion, hmime, pieces, hpieces, hall⟩⟩
    · rintro ⟨hsummary, hmanifest⟩
      obtain ⟨-, hversion, hmime, items, hitems, hall⟩ := hmanifest ⟨pieces, hpieces⟩
      rw [hpieces] at hitems
      cases hitems
      exact ⟨hsummary.record, hsummary, hversion, hmime, hall⟩
  | _ =>
    constructor
    · rintro ⟨-, hsummary, -⟩
      exact ⟨hsummary, fun ⟨items, hitems⟩ => by rw [hpieces] at hitems; cases hitems⟩
    · rintro ⟨hsummary, -⟩
      exact ⟨hsummary.record, hsummary, rfl⟩

theorem requirePieceRequestLike_ok {payload : Value} {type : String} :
    requirePieceRequestLike payload type = .ok () ↔ PieceRequestLike payload := by
  simp only [requirePieceRequestLike, then_ok, discard_string, discard_number, PieceRequestLike]

/-- What the validators let through is what the rules say, and nothing else. -/
theorem validateSignalingPayload_ok {envelope : Value} {type : SignalingMessageType} :
    validateSignalingPayload envelope type = .ok () ↔ IsRecord (prop envelope "payload") ∧
      SignalingPayload (prop envelope "payload") type := by
  rw [validateSignalingPayload, payloadRecord_then]
  refine and_congr_right fun _ => ?_
  cases type with
  | WEBRTC_OFFER => rw [record_then, validateSdp_ok, SignalingPayload]
  | WEBRTC_ANSWER => rw [record_then, validateSdp_ok, SignalingPayload]
  | ICE_CANDIDATE => rw [record_then, validateIceCandidate_ok, SignalingPayload]
  | SESSION_JOINED =>
    simp only [then_ok, discard_string, array_then, validatePeers_ok,
      validateSessionFileDescriptors_ok, SignalingPayload, ListField]
    constructor
    · rintro ⟨hself, howner, peers, hpeers, hall, hfiles⟩
      exact ⟨hself, howner, ⟨peers, hpeers, hall⟩, hfiles⟩
    · rintro ⟨hself, howner, ⟨peers, hpeers, hall⟩, hfiles⟩
      exact ⟨hself, howner, peers, hpeers, hall, hfiles⟩
  | _ =>
    simp only [then_ok, discard_string, discard_number, array_then,
      validateSessionFileDescriptors_ok, SignalingPayload, ListField]

theorem validateTransferPayload_ok {envelope : Value} {type : TransferMessageType} :
    validateTransferPayload envelope type = .ok () ↔ IsRecord (prop envelope "payload") ∧
      TransferPayload (prop envelope "payload") type := by
  rw [validateTransferPayload, payloadRecord_then]
  refine and_congr_right fun _ => ?_
  cases type with
  | HELLO => rw [then_ok, discard_string, record_then, validateSupports_ok, TransferPayload]
  | PIECE_MAP =>
    simp only [then_ok, discard_string, discard_number, array_then, validateNumberArray_ok,
      TransferPayload, ListField]
    constructor
    · rintro ⟨hfile, pieces, hpieces, hall, hcount⟩
      exact ⟨hfile, ⟨pieces, hpieces, hall⟩, hcount⟩
    · rintro ⟨hfile, ⟨pieces, hpieces, hall⟩, hcount⟩
      exact ⟨hfile, pieces, hpieces, hall, hcount⟩
  | RESUME_STATE =>
    simp only [then_ok, discard_string, discard_number, array_then, validateNumberArray_ok,
      TransferPayload, ListField]
    constructor
    · rintro ⟨hfile, hmanifest, pieces, hpieces, hall, hcount⟩
      exact ⟨hfile, hmanifest, ⟨pieces, hpieces, hall⟩, hcount⟩
    · rintro ⟨hfile, hmanifest, ⟨pieces, hpieces, hall⟩, hcount⟩
      exact ⟨hfile, hmanifest, pieces, hpieces, hall, hcount⟩
  | _ =>
    simp only [then_ok, discard_string, discard_number, array_then, validateManifests_ok,
      requirePieceRequestLike_ok, TransferPayload, ListField]

/-! The envelopes. -/

/-- Absent, or a string. -/
def OptionalString (value : Value) : Prop := Absent value ∨ IsString value

structure SignalingEnvelopeType (envelope : Value) : Prop where
  protocol : prop envelope "protocol" = .string (units SIGNALING_PROTOCOL)
  version : IsString (prop envelope "version")
  messageId : IsString (prop envelope "messageId")
  sessionId : OptionalString (prop envelope "sessionId")
  fromPeerId : OptionalString (prop envelope "fromPeerId")
  toPeerId : OptionalString (prop envelope "toPeerId")
  timestamp : IsNumber (prop envelope "timestamp")
  payload : ∃ type : SignalingMessageType, prop envelope "type" = .string (units type.name) ∧
    IsRecord (prop envelope "payload") ∧ SignalingPayload (prop envelope "payload") type

structure TransferEnvelopeType (envelope : Value) : Prop where
  protocol : prop envelope "protocol" = .string (units TRANSFER_PROTOCOL)
  version : IsString (prop envelope "version")
  messageId : IsString (prop envelope "messageId")
  sessionId : IsString (prop envelope "sessionId")
  fromPeerId : IsString (prop envelope "fromPeerId")
  toPeerId : OptionalString (prop envelope "toPeerId")
  timestamp : IsNumber (prop envelope "timestamp")
  payload : ∃ type : TransferMessageType, prop envelope "type" = .string (units type.name) ∧
    IsRecord (prop envelope "payload") ∧ TransferPayload (prop envelope "payload") type

/-- A version of the same major number. -/
def Compatible (version : Value) : Prop :=
  ∃ text, version = .string text ∧ major text = major (units PROTOCOL_VERSION)

theorem validateCompatibleVersion_ok {version : Value} {protocol : String} :
    validateCompatibleVersion version protocol = .ok () ↔ Compatible version := by
  cases version <;> simp [validateCompatibleVersion, Compatible, check_ok]

theorem readable_ok {envelope : Value} :
    readable envelope = .ok () ↔ isNullish envelope = false := by
  rw [readable, check_ok, Bool.not_eq_true']

theorem messageTypeOf_ok {T : Type} {types : List T} {name : T → String} {value : Value}
    {protocol : String} {type : T} (hall : ∀ a, a ∈ types)
    (hname : ∀ a ∈ types, ∀ b ∈ types, units (name a) = units (name b) → a = b) :
    messageTypeOf types name value protocol = .ok type ↔ value = .string (units (name type)) := by
  cases value with
  | string text =>
    rw [messageTypeOf]
    cases hfind : types.find? fun messageType => units (name messageType) = text with
    | none =>
      have hnone := List.find?_eq_none.1 hfind type (hall type)
      simp only [reduceCtorEq, false_iff, Value.string.injEq]
      rintro rfl
      simp at hnone
    | some found =>
      have htext := List.find?_some hfind
      simp only [decide_eq_true_eq] at htext
      subst htext
      simp only [Except.ok.injEq, Value.string.injEq]
      exact ⟨fun h => by rw [h], hname found (hall found) type (hall type)⟩
  | _ => simp [messageTypeOf]

theorem signalingType_then {value : Value} {f : SignalingMessageType → Check} :
    (messageTypeOf SIGNALING_MESSAGE_TYPES SignalingMessageType.name value "signaling" >>= f) =
      .ok () ↔
      ∃ type : SignalingMessageType, value = .string (units type.name) ∧ f type = .ok () := by
  rw [bind_ok]
  refine exists_congr fun type => and_congr_left fun _ => messageTypeOf_ok (fun a => ?_) ?_
  · cases a <;> decide
  · decide +kernel

theorem transferType_then {value : Value} {f : TransferMessageType → Check} :
    (messageTypeOf TRANSFER_MESSAGE_TYPES TransferMessageType.name value "transfer" >>= f) =
      .ok () ↔
      ∃ type : TransferMessageType, value = .string (units type.name) ∧ f type = .ok () := by
  rw [bind_ok]
  refine exists_congr fun type => and_congr_left fun _ => messageTypeOf_ok (fun a => ?_) ?_
  · cases a <;> decide
  · decide +kernel

theorem prop_of_isNullish {value : Value} (h : isNullish value = true) (key : String) :
    prop value key = .undefined := by
  cases value with
  | undefined => rfl
  | null => rfl
  | _ => cases h

/-- A property that is a record is there. -/
theorem hasOwnProperty_of_isRecord {value : Value} {key : String} (h : IsRecord (prop value key)) :
    hasOwnProperty value key = true := by
  obtain ⟨inner, hinner⟩ := h
  cases value with
  | object fields =>
    rw [prop, Value.get] at hinner
    cases hlookup : fields.lookup (units key) with
    | none => simp [hlookup] at hinner
    | some child =>
      obtain ⟨before, after, rfl, -⟩ := List.lookup_eq_some_iff.1 hlookup
      simp [hasOwnProperty]
  | _ => simp [prop, Value.get] at hinner

/-- What both validators look at. -/
structure Accepted {T : Type} (protocol : String) (name : T → String)
    (Payload : Value → T → Prop) (envelope : Value) : Prop where
  protocol : prop envelope "protocol" = .string (units protocol)
  version : Compatible (prop envelope "version")
  messageId : isTruthy (prop envelope "messageId") = true
  timestamp : IsNumber (prop envelope "timestamp")
  payload : ∃ type, prop envelope "type" = .string (units (name type)) ∧
    IsRecord (prop envelope "payload") ∧ Payload (prop envelope "payload") type

theorem validateSignalingEnvelope_ok {envelope : Value} :
    validateSignalingEnvelope envelope = .ok () ↔
      Accepted SIGNALING_PROTOCOL SignalingMessageType.name SignalingPayload envelope := by
  simp only [validateSignalingEnvelope, then_ok, readable_ok, check_ok, isText_iff,
    validateCompatibleVersion_ok, Bool.and_eq_true, isNumber_iff, isString_iff, signalingType_then,
    validateSignalingPayload_ok]
  constructor
  · rintro ⟨-, hprotocol, hversion, ⟨⟨hmessage, htime⟩, -⟩, type, htype, -, hpayload⟩
    exact ⟨hprotocol, hversion, hmessage, htime, type, htype, hpayload⟩
  · rintro ⟨hprotocol, hversion, hmessage, htime, type, htype, hpayload⟩
    refine ⟨?_, hprotocol, hversion, ⟨⟨hmessage, htime⟩, _, htype⟩, type, htype,
      hasOwnProperty_of_isRecord hpayload.1, hpayload⟩
    by_contra hnull
    rw [prop_of_isNullish (by simpa using hnull)] at hprotocol
    cases hprotocol

theorem validateTransferEnvelope_ok {envelope : Value} :
    validateTransferEnvelope envelope = .ok () ↔
      Accepted TRANSFER_PROTOCOL TransferMessageType.name TransferPayload envelope ∧
        isTruthy (prop envelope "sessionId") = true ∧
        isTruthy (prop envelope "fromPeerId") = true := by
  simp only [validateTransferEnvelope, then_ok, readable_ok, check_ok, isText_iff,
    validateCompatibleVersion_ok, Bool.and_eq_true, isNumber_iff, isString_iff, transferType_then,
    validateTransferPayload_ok]
  constructor
  · rintro ⟨-, hprotocol, hversion, ⟨⟨hmessage, htime⟩, -⟩, hrouting, type, htype, -, hpayload⟩
    exact ⟨⟨hprotocol, hversion, hmessage, htime, type, htype, hpayload⟩, hrouting⟩
  · rintro ⟨⟨hprotocol, hversion, hmessage, htime, type, htype, hpayload⟩, hrouting⟩
    refine ⟨?_, hprotocol, hversion, ⟨⟨hmessage, htime⟩, _, htype⟩, hrouting, type, htype,
      hasOwnProperty_of_isRecord hpayload.1, hpayload⟩
    by_contra hnull
    rw [prop_of_isNullish (by simpa using hnull)] at hprotocol
    cases hprotocol

theorem decode_ok {validate : Value → Check} {text : Text} {envelope : Value} :
    decode validate text = .ok envelope ↔
      parse text = some envelope ∧ validate envelope = .ok () := by
  rw [decode]
  cases parse text with
  | none => simp
  | some decoded =>
    simp only [then_ok, Except.ok.injEq, Option.some.injEq]
    constructor
    · rintro ⟨h, rfl⟩
      exact ⟨rfl, h⟩
    · rintro ⟨rfl, h⟩
      exact ⟨h, rfl⟩

/-- The ids of a signaling message and of its route are texts, where they are there. -/
def SignalingIds (envelope : Value) : Prop :=
  IsString (prop envelope "messageId") ∧ OptionalString (prop envelope "sessionId") ∧
    OptionalString (prop envelope "fromPeerId") ∧ OptionalString (prop envelope "toPeerId")

/-- The ids of a transfer message and of its route are texts; only the receiver's may be missing. -/
def TransferIds (envelope : Value) : Prop :=
  IsString (prop envelope "messageId") ∧ IsString (prop envelope "sessionId") ∧
    IsString (prop envelope "fromPeerId") ∧ OptionalString (prop envelope "toPeerId")

/-- What the signaling validator lets through has its type if the ids are texts. -/
theorem signalingEnvelopeType_iff {envelope : Value}
    (h : validateSignalingEnvelope envelope = .ok ()) :
    SignalingEnvelopeType envelope ↔ SignalingIds envelope := by
  have haccepted := validateSignalingEnvelope_ok.1 h
  obtain ⟨version, hversion, -⟩ := haccepted.version
  constructor
  · exact fun htyped => ⟨htyped.messageId, htyped.sessionId, htyped.fromPeerId, htyped.toPeerId⟩
  · exact fun ⟨hmessage, hsession, hfrom, hto⟩ => ⟨haccepted.protocol, ⟨version, hversion⟩,
      hmessage, hsession, hfrom, hto, haccepted.timestamp, haccepted.payload⟩

theorem transferEnvelopeType_iff {envelope : Value}
    (h : validateTransferEnvelope envelope = .ok ()) :
    TransferEnvelopeType envelope ↔ TransferIds envelope := by
  have haccepted := (validateTransferEnvelope_ok.1 h).1
  obtain ⟨version, hversion, -⟩ := haccepted.version
  constructor
  · exact fun htyped => ⟨htyped.messageId, htyped.sessionId, htyped.fromPeerId, htyped.toPeerId⟩
  · exact fun ⟨hmessage, hsession, hfrom, hto⟩ => ⟨haccepted.protocol, ⟨version, hversion⟩,
      hmessage, hsession, hfrom, hto, haccepted.timestamp, haccepted.payload⟩

/-- A decoder returns the value of the text, and it has its type exactly when the ids of the message
and of its route are texts; the rules for payloads always hold. -/
theorem decoded_envelopes_are_typed (text : Text) (envelope : Value) :
    (decodeSignaling text = .ok envelope →
      parse text = some envelope ∧ (SignalingEnvelopeType envelope ↔ SignalingIds envelope)) ∧
    (decodeTransfer text = .ok envelope →
      parse text = some envelope ∧ (TransferEnvelopeType envelope ↔ TransferIds envelope)) := by
  constructor
  · intro h
    obtain ⟨hparse, haccepted⟩ := decode_ok.1 h
    exact ⟨hparse, signalingEnvelopeType_iff haccepted⟩
  · intro h
    obtain ⟨hparse, haccepted⟩ := decode_ok.1 h
    exact ⟨hparse, transferEnvelopeType_iff haccepted⟩

theorem encode_ok {format : NumberFormat} {validate : Value → Check} {envelope : Value}
    {text : Text} : encode format validate envelope = .ok text ↔
      validate envelope = .ok () ∧ stringify format envelope = some text := by
  rw [encode, then_ok]
  refine and_congr_right fun _ => ?_
  cases stringify format envelope <;> simp

/-- A value of the language: its objects have each key once. -/
abbrev PlainValue := { value : Value // value.Plain }

def joinFields (messageId : Value) (timestamp : Double) : Fields :=
  [(units "protocol", .string (units SIGNALING_PROTOCOL)),
    (units "version", .string (units PROTOCOL_VERSION)), (units "messageId", messageId),
    (units "type", .string (units "JOIN_SESSION")), (units "sessionId", .undefined),
    (units "timestamp", .number timestamp),
    (units "payload", .object [(units "role", .string (units "receiver"))])]

def resumeFields (timestamp : Double) : Fields :=
  [(units "protocol", .string (units TRANSFER_PROTOCOL)),
    (units "version", .string (units PROTOCOL_VERSION)), (units "messageId", .string (units "m")),
    (units "type", .string (units "RESUME_ACCEPTED")), (units "sessionId", .string (units "s")),
    (units "fromPeerId", .string (units "p")), (units "toPeerId", .undefined),
    (units "timestamp", .number timestamp),
    (units "payload", .object [(units "fileId", .string (units "f")),
      (units "nextStrategy", .string (units "rarest"))])]

def joinEnvelope (messageId : PlainValue) (timestamp : Double) : PlainValue :=
  ⟨.object (joinFields messageId.1 timestamp), by
    have hpayload : Value.Plain (.object [(units "role", .string (units "receiver"))]) :=
      Value.plain_object (by decide +kernel) (by simp [Value.plain_string])
    refine Value.plain_object ?_ ?_
    · simp only [joinFields, List.map_cons, List.map_nil]
      decide +kernel
    · simp [joinFields, Value.plain_string, Value.plain_number, Value.plain_undefined, hpayload,
        messageId.2]⟩

def resumeEnvelope (timestamp : Double) : PlainValue :=
  ⟨.object (resumeFields timestamp), by
    have hpayload : Value.Plain (.object [(units "fileId", .string (units "f")),
        (units "nextStrategy", .string (units "rarest"))]) :=
      Value.plain_object (by decide +kernel) (by simp [Value.plain_string])
    refine Value.plain_object ?_ ?_
    · simp only [resumeFields, List.map_cons, List.map_nil]
      decide +kernel
    · simp [resumeFields, Value.plain_string, Value.plain_number, Value.plain_undefined,
        hpayload]⟩

def textId : PlainValue := ⟨.string (units "m"), Value.plain_string _⟩

def truthyId : PlainValue := ⟨.bool true, Value.plain_bool true⟩

theorem exists_text (format : NumberFormat) {envelope : Value} (h : envelope ≠ .undefined) :
    ∃ text, stringify format envelope = some text := by
  cases htext : stringify format envelope with
  | none => exact absurd (stringify_eq_none.1 htext) h
  | some text => exact ⟨text, rfl⟩

/-- A decoder makes the copy of what was written. -/
theorem decode_of_text {format : NumberFormat} {validate : Value → Check} {envelope : PlainValue}
    {text : Text} (h : stringify format envelope.1 = some text) :
    decode validate text = (validate envelope.1.copy >>= fun _ => .ok envelope.1.copy) := by
  rw [decode, parse_stringify envelope.2 h]

theorem decoded_envelopes_are_typed_sample :
    (∃ text envelope, decodeSignaling text = .ok envelope ∧ SignalingEnvelopeType envelope) ∧
    (∃ text envelope, decodeTransfer text = .ok envelope ∧ TransferEnvelopeType envelope) := by
  constructor
  · have hdefined : (joinEnvelope textId (.zero false)).1 ≠ .undefined := fun h => by cases h
    obtain ⟨text, htext⟩ := exists_text exactFormat hdefined
    have hcopy : validateSignalingEnvelope (joinEnvelope textId (.zero false)).1.copy = .ok () := by
      decide +kernel
    have hdecode : decodeSignaling text = .ok (joinEnvelope textId (.zero false)).1.copy := by
      rw [decodeSignaling, decode_of_text htext, hcopy]
      rfl
    exact ⟨text, _, hdecode, ((decoded_envelopes_are_typed text _).1 hdecode).2.2
      ⟨⟨_, rfl⟩, .inl rfl, .inl rfl, .inl rfl⟩⟩
  · have hdefined : (resumeEnvelope (.zero false)).1 ≠ .undefined := fun h => by cases h
    obtain ⟨text, htext⟩ := exists_text exactFormat hdefined
    have hcopy : validateTransferEnvelope (resumeEnvelope (.zero false)).1.copy = .ok () := by
      decide +kernel
    have hdecode : decodeTransfer text = .ok (resumeEnvelope (.zero false)).1.copy := by
      rw [decodeTransfer, decode_of_text htext, hcopy]
      rfl
    exact ⟨text, _, hdecode, ((decoded_envelopes_are_typed text _).2 hdecode).2.2
      ⟨⟨_, rfl⟩, ⟨_, rfl⟩, ⟨_, rfl⟩, .inl rfl⟩⟩

/-- The text that has `"messageId":true`. -/
def joinText : Text := (stringify exactFormat (joinEnvelope truthyId (.zero false)).1).getD []

/-- The id of a message may be `true`. -/
theorem truthy_id_is_decoded : ∃ envelope, decodeSignaling joinText = .ok envelope ∧
    prop envelope "messageId" = .bool true ∧ ¬ SignalingEnvelopeType envelope := by
  have hdefined : (joinEnvelope truthyId (.zero false)).1 ≠ .undefined := fun h => by cases h
  obtain ⟨text, htext⟩ := exists_text exactFormat hdefined
  have hcopy : validateSignalingEnvelope (joinEnvelope truthyId (.zero false)).1.copy = .ok () := by
    decide +kernel
  have hid : prop (joinEnvelope truthyId (.zero false)).1.copy "messageId" = .bool true := rfl
  refine ⟨(joinEnvelope truthyId (.zero false)).1.copy, ?_, hid, fun htyped => ?_⟩
  · rw [joinText, htext, Option.getD_some, decodeSignaling, decode_of_text htext, hcopy]
    rfl
  · obtain ⟨s, hs⟩ := htyped.messageId
    rw [hid] at hs
    cases hs

end PonsWarp.Signaling.Envelopes
