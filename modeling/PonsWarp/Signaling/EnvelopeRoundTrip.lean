import PonsWarp.Signaling.EnvelopeTypes

set_option autoImplicit false

/-!
Envelopes that are encoded and decoded again. What the rules ask of an envelope they find in it
without the fields that are undefined; what else may be lost is at its leaves.
-/

namespace PonsWarp.Signaling.Envelopes

open PonsWarp.Data PonsWarp.Data.Json

/-! What the rules ask of a value is kept. -/

theorem prop_withoutUndefined {value : Value} (h : value.Plain) (key : String) :
    prop value.withoutUndefined key = (prop value key).withoutUndefined :=
  Value.get_withoutUndefined h (units key)

theorem plain_prop {value : Value} (h : value.Plain) (key : String) : (prop value key).Plain :=
  h.get (units key)

theorem IsString.kept {value : Value} (h : IsString value) : IsString value.withoutUndefined := by
  obtain ⟨s, rfl⟩ := h
  exact ⟨s, rfl⟩

theorem IsNumber.kept {value : Value} (h : IsNumber value) : IsNumber value.withoutUndefined := by
  obtain ⟨x, rfl⟩ := h
  exact ⟨x, rfl⟩

theorem IsBoolean.kept {value : Value} (h : IsBoolean value) :
    IsBoolean value.withoutUndefined := by
  obtain ⟨b, rfl⟩ := h
  exact ⟨b, rfl⟩

theorem IsRecord.kept {value : Value} (h : IsRecord value) : IsRecord value.withoutUndefined := by
  obtain ⟨fields, rfl⟩ := h
  exact Value.withoutUndefined_object fields

theorem Absent.kept {value : Value} (h : Absent value) : Absent value.withoutUndefined := by
  cases h
  rfl

theorem isTruthy_withoutUndefined (value : Value) :
    isTruthy value.withoutUndefined = isTruthy value := by
  cases value <;> rfl

theorem text_kept {value : Value} {key : String} {s : Text} (hplain : value.Plain)
    (h : prop value key = .string s) : prop value.withoutUndefined key = .string s := by
  rw [prop_withoutUndefined hplain, h]
  rfl

/-- What is kept of any value is kept of a property. -/
theorem prop_kept (Rule : Value → Prop)
    (hrule : ∀ {value : Value}, Rule value → Rule value.withoutUndefined) {value : Value}
    (hplain : value.Plain) {key : String} (h : Rule (prop value key)) :
    Rule (prop value.withoutUndefined key) := by
  rw [prop_withoutUndefined hplain]
  exact hrule h

theorem TextField.kept {value : Value} {key : String} (h : TextField value key)
    (hplain : value.Plain) : TextField value.withoutUndefined key := by
  obtain ⟨s, hs, hne⟩ := h
  exact ⟨s, text_kept hplain hs, hne⟩

theorem FiniteField.kept {value : Value} {key : String} (h : FiniteField value key)
    (hplain : value.Plain) : FiniteField value.withoutUndefined key := by
  obtain ⟨x, hx, hfinite⟩ := h
  rw [FiniteField, prop_withoutUndefined hplain, hx]
  exact ⟨x, rfl, hfinite⟩

theorem ListField.kept {value : Value} {key : String} {Item : Value → Prop}
    (h : ListField value key Item) (hplain : value.Plain)
    (hitem : ∀ item : Value, item.Plain → Item item → Item item.withoutUndefined) :
    ListField value.withoutUndefined key Item := by
  obtain ⟨items, hitems, hall⟩ := h
  have harray : Value.Plain (.array items) := by
    rw [← hitems]
    exact plain_prop hplain key
  refine ⟨items.map Value.withoutUndefined, ?_, ?_⟩
  · rw [prop_withoutUndefined hplain, hitems, Value.withoutUndefined_array]
  · intro item hmem
    obtain ⟨before, hbefore, rfl⟩ := List.mem_map.1 hmem
    exact hitem before (harray.item hbefore) (hall before hbefore)

theorem IsPeer.kept {value : Value} (hplain : value.Plain) (h : IsPeer value) :
    IsPeer value.withoutUndefined :=
  ⟨h.record.kept, h.peerId.kept hplain, h.role.kept hplain⟩

theorem IsPieceNumber.kept {value : Value} (h : IsPieceNumber value) :
    IsPieceNumber value.withoutUndefined := by
  obtain ⟨x, rfl, hindex⟩ := h
  exact ⟨x, rfl, hindex⟩

theorem IsPiece.kept {value : Value} (hplain : value.Plain) (h : IsPiece value) :
    IsPiece value.withoutUndefined where
  record := h.record.kept
  index := h.index.kept hplain
  offset := h.offset.kept hplain
  size := h.size.kept hplain
  hash := h.hash.imp (prop_kept Absent Absent.kept hplain) (prop_kept IsString IsString.kept hplain)

theorem IsFileSummary.kept {value : Value} (hplain : value.Plain) (h : IsFileSummary value) :
    IsFileSummary value.withoutUndefined where
  record := h.record.kept
  fileId := h.fileId.kept hplain
  name := h.name.kept hplain
  size := h.size.kept hplain
  pieceSize := h.pieceSize.kept hplain
  pieceCount := h.pieceCount.kept hplain

theorem IsManifest.kept {value : Value} (hplain : value.Plain) (h : IsManifest value) :
    IsManifest value.withoutUndefined where
  toIsFileSummary := h.toIsFileSummary.kept hplain
  version := h.version.kept hplain
  mimeType := prop_kept IsString IsString.kept hplain h.mimeType
  pieces := h.pieces.kept hplain fun _ => IsPiece.kept

/-- An array in a value without undefined fields was one before. -/
theorem array_of_withoutUndefined {value : Value}
    (h : ∃ items, value.withoutUndefined = .array items) : ∃ items, value = .array items := by
  obtain ⟨items, hitems⟩ := h
  cases value with
  | array before => exact ⟨before, rfl⟩
  | object fields =>
    obtain ⟨kept, hkept⟩ := Value.withoutUndefined_object fields
    rw [hkept] at hitems
    cases hitems
  | _ => cases hitems

theorem IsSessionFile.kept {value : Value} (hplain : value.Plain) (h : IsSessionFile value) :
    IsSessionFile value.withoutUndefined where
  toIsFileSummary := h.toIsFileSummary.kept hplain
  manifest := fun hpieces => by
    rw [prop_withoutUndefined hplain] at hpieces
    exact (h.manifest (array_of_withoutUndefined hpieces)).kept hplain

theorem IsSdp.kept {value : Value} {type : String} (hplain : value.Plain) (h : IsSdp value type) :
    IsSdp value.withoutUndefined type :=
  ⟨h.record.kept, text_kept hplain h.type, h.sdp.kept hplain⟩

theorem null_kept {value : Value} (h : value = .null) : value.withoutUndefined = .null := by
  rw [h]
  rfl

theorem IsIceCandidate.kept {value : Value} (hplain : value.Plain) (h : IsIceCandidate value) :
    IsIceCandidate value.withoutUndefined where
  record := h.record.kept
  candidate := h.candidate.kept hplain
  sdpMid := h.sdpMid.imp (prop_kept Absent Absent.kept hplain)
    (Or.imp (prop_kept (· = .null) null_kept hplain) (prop_kept IsString IsString.kept hplain))
  sdpMLineIndex := h.sdpMLineIndex.imp (prop_kept Absent Absent.kept hplain)
    (Or.imp (prop_kept (· = .null) null_kept hplain) (prop_kept IsNumber IsNumber.kept hplain))

theorem IsSupports.kept {value : Value} (hplain : value.Plain) (h : IsSupports value) :
    IsSupports value.withoutUndefined where
  record := h.record.kept
  resume := prop_kept IsBoolean IsBoolean.kept hplain h.resume
  pieceMap := prop_kept IsBoolean IsBoolean.kept hplain h.pieceMap
  binaryFrameV1 := prop_kept IsBoolean IsBoolean.kept hplain h.binaryFrameV1

theorem PieceRequestLike.kept {payload : Value} (hplain : payload.Plain)
    (h : PieceRequestLike payload) : PieceRequestLike payload.withoutUndefined := by
  obtain ⟨hfile, hindex, hrequest⟩ := h
  exact ⟨hfile.kept hplain, hindex.kept hplain, hrequest.kept hplain⟩

/-! Payloads and envelopes. -/

theorem SignalingPayload.kept {payload : Value} {type : SignalingMessageType}
    (hplain : payload.Plain) (h : SignalingPayload payload type) :
    SignalingPayload payload.withoutUndefined type := by
  cases type with
  | CREATE_SESSION =>
    exact ⟨h.1.kept hplain, h.2.kept hplain fun _ => IsSessionFile.kept⟩
  | SESSION_CREATED => exact ⟨h.1.kept hplain, h.2.1.kept hplain, h.2.2.kept hplain⟩
  | JOIN_SESSION => exact TextField.kept h hplain
  | SESSION_JOINED =>
    obtain ⟨hself, howner, hpeers, hfiles⟩ := h
    exact ⟨hself.kept hplain, howner.kept hplain, hpeers.kept hplain fun _ => IsPeer.kept,
      hfiles.kept hplain fun _ => IsSessionFile.kept⟩
  | PEER_JOINED => exact TextField.kept h hplain
  | PEER_LEFT => exact TextField.kept h hplain
  | WEBRTC_OFFER =>
    rw [SignalingPayload, prop_withoutUndefined hplain]
    exact IsSdp.kept (plain_prop hplain "sdp") h
  | WEBRTC_ANSWER =>
    rw [SignalingPayload, prop_withoutUndefined hplain]
    exact IsSdp.kept (plain_prop hplain "sdp") h
  | ICE_CANDIDATE =>
    rw [SignalingPayload, prop_withoutUndefined hplain]
    exact IsIceCandidate.kept (plain_prop hplain "candidate") h
  | ERROR => exact ⟨h.1.kept hplain, h.2.kept hplain⟩

theorem TransferPayload.kept {payload : Value} {type : TransferMessageType}
    (hplain : payload.Plain) (h : TransferPayload payload type) :
    TransferPayload payload.withoutUndefined type := by
  cases type with
  | HELLO =>
    refine ⟨h.1.kept hplain, ?_⟩
    rw [prop_withoutUndefined hplain]
    exact h.2.kept (plain_prop hplain "supports")
  | MANIFEST => exact ListField.kept h hplain fun _ => IsManifest.kept
  | PIECE_MAP =>
    obtain ⟨hfile, hpieces, hcount⟩ := h
    exact ⟨hfile.kept hplain, hpieces.kept hplain fun _ _ => IsPieceNumber.kept, hcount.kept hplain⟩
  | PIECE_REQUEST => exact ⟨h.1.kept hplain, h.2.kept hplain⟩
  | PIECE_CANCEL => exact ⟨h.1.kept hplain, h.2.kept hplain⟩
  | PIECE_ACK => exact ⟨h.1.kept hplain, h.2.1.kept hplain, h.2.2.kept hplain⟩
  | PIECE_REJECT => exact ⟨h.1.kept hplain, h.2.kept hplain⟩
  | RESUME_STATE =>
    obtain ⟨hfile, hmanifest, hpieces, hcount⟩ := h
    exact ⟨hfile.kept hplain, hmanifest.kept hplain,
      hpieces.kept hplain fun _ _ => IsPieceNumber.kept, hcount.kept hplain⟩
  | RESUME_ACCEPTED => exact ⟨h.1.kept hplain, h.2.kept hplain⟩
  | RESUME_REJECTED => exact ⟨h.1.kept hplain, h.2.kept hplain⟩
  | ERROR => exact ⟨h.1.kept hplain, h.2.kept hplain⟩

theorem Compatible.kept {version : Value} (h : Compatible version) :
    Compatible version.withoutUndefined := by
  obtain ⟨text, rfl, hmajor⟩ := h
  exact ⟨text, rfl, hmajor⟩

theorem truthy_kept {value : Value} {key : String} (hplain : value.Plain)
    (h : isTruthy (prop value key) = true) :
    isTruthy (prop value.withoutUndefined key) = true := by
  rw [prop_withoutUndefined hplain, isTruthy_withoutUndefined, h]

theorem Accepted.kept {T : Type} {protocol : String} {name : T → String}
    {Payload : Value → T → Prop} {envelope : Value} (hplain : envelope.Plain)
    (hpayload : ∀ {payload : Value} {type : T}, payload.Plain → Payload payload type →
      Payload payload.withoutUndefined type)
    (h : Accepted protocol name Payload envelope) :
    Accepted protocol name Payload envelope.withoutUndefined where
  protocol := text_kept hplain h.protocol
  version := prop_kept Compatible Compatible.kept hplain h.version
  messageId := truthy_kept hplain h.messageId
  timestamp := prop_kept IsNumber IsNumber.kept hplain h.timestamp
  payload := by
    obtain ⟨type, htype, hrecord, hrules⟩ := h.payload
    refine ⟨type, text_kept hplain htype, ?_⟩
    rw [prop_withoutUndefined hplain]
    exact ⟨hrecord.kept, hpayload (plain_prop hplain "payload") hrules⟩

theorem validateSignalingEnvelope_kept {envelope : Value} (hplain : envelope.Plain)
    (h : validateSignalingEnvelope envelope = .ok ()) :
    validateSignalingEnvelope envelope.withoutUndefined = .ok () := by
  rw [validateSignalingEnvelope_ok] at h ⊢
  exact h.kept hplain SignalingPayload.kept

theorem validateTransferEnvelope_kept {envelope : Value} (hplain : envelope.Plain)
    (h : validateTransferEnvelope envelope = .ok ()) :
    validateTransferEnvelope envelope.withoutUndefined = .ok () := by
  rw [validateTransferEnvelope_ok] at h ⊢
  obtain ⟨haccepted, hsession, hfrom⟩ := h
  exact ⟨haccepted.kept hplain TransferPayload.kept, truthy_kept hplain hsession,
    truthy_kept hplain hfrom⟩

/-- No leaf of the value is another once it is written and read. -/
def Lasting (value : Value) : Prop :=
  ∀ leaf, Value.Leaf leaf value → leaf ≠ .undefined ∧ leaf ≠ .number .nan ∧
    (∀ negative, leaf ≠ .number (.infinity negative)) ∧ leaf ≠ .number (.zero true)

/-- With a validator that does not look at undefined fields, what is encoded is decoded as it was
exactly when its leaves last. -/
theorem decode_encode {format : NumberFormat} {validate : Value → Check}
    {envelope : Value} (hplain : envelope.Plain) {text : Text}
    (hkept : validate envelope = .ok () → validate envelope.withoutUndefined = .ok ())
    (h : encode format validate envelope = .ok text) :
    decode validate text = .ok envelope.withoutUndefined ↔ Lasting envelope := by
  obtain ⟨hvalid, htext⟩ := encode_ok.1 h
  have hlasting : Lasting envelope ↔ envelope.copy = envelope.withoutUndefined := by
    rw [Value.copy_eq_iff]
    simp only [Value.leafCopy_eq_self, Lasting]
  rw [decode_ok, parse_stringify hplain htext, Option.some.injEq, hlasting]
  exact and_iff_left (hkept hvalid)

/-- What a validator accepts and an encoder writes comes back without the fields that are
undefined, exactly when no number in it is `NaN`, an infinity or the negative zero, and no item of
an array is undefined. -/
theorem encoded_envelopes_are_decoded (format : NumberFormat) (envelope : PlainValue)
    (text : Text) :
    (encodeSignaling format envelope.1 = .ok text →
      (decodeSignaling text = .ok envelope.1.withoutUndefined ↔ Lasting envelope.1)) ∧
    (encodeTransfer format envelope.1 = .ok text →
      (decodeTransfer text = .ok envelope.1.withoutUndefined ↔ Lasting envelope.1)) :=
  ⟨decode_encode envelope.2 (validateSignalingEnvelope_kept envelope.2),
    decode_encode envelope.2 (validateTransferEnvelope_kept envelope.2)⟩

/-- The time `1700000000000`. -/
def sampleTime : Double :=
  .finite false
    ⟨1700000000000 * 2 ^ 12, -12, by decide, by decide, by decide, by decide, .inl (by decide)⟩

theorem encoded_envelopes_are_decoded_sample :
    (∃ text, encodeSignaling exactFormat (joinEnvelope textId sampleTime).1 = .ok text ∧
      decodeSignaling text = .ok (joinEnvelope textId sampleTime).1.withoutUndefined) ∧
    (∃ text, encodeTransfer exactFormat (resumeEnvelope sampleTime).1 = .ok text ∧
      decodeTransfer text = .ok (resumeEnvelope sampleTime).1.withoutUndefined) := by
  constructor
  · have hlasting : Lasting (joinEnvelope textId sampleTime).1 := by
      simp [Lasting, joinEnvelope, joinFields, textId, sampleTime, Value.leaf_object,
        Value.leaf_string, Value.leaf_number, Value.isUndefined]
    have hvalid : validateSignalingEnvelope (joinEnvelope textId sampleTime).1 = .ok () := by
      decide +kernel
    have hdefined : (joinEnvelope textId sampleTime).1 ≠ .undefined := fun h => by cases h
    obtain ⟨text, htext⟩ := exists_text exactFormat hdefined
    have hencode := encode_ok.2 ⟨hvalid, htext⟩
    exact ⟨text, hencode, ((encoded_envelopes_are_decoded exactFormat
      (joinEnvelope textId sampleTime) text).1 hencode).2 hlasting⟩
  · have hlasting : Lasting (resumeEnvelope sampleTime).1 := by
      simp [Lasting, resumeEnvelope, resumeFields, sampleTime, Value.leaf_object,
        Value.leaf_string, Value.leaf_number, Value.isUndefined]
    have hvalid : validateTransferEnvelope (resumeEnvelope sampleTime).1 = .ok () := by
      decide +kernel
    have hdefined : (resumeEnvelope sampleTime).1 ≠ .undefined := fun h => by cases h
    obtain ⟨text, htext⟩ := exists_text exactFormat hdefined
    have hencode := encode_ok.2 ⟨hvalid, htext⟩
    exact ⟨text, hencode, ((encoded_envelopes_are_decoded exactFormat
      (resumeEnvelope sampleTime) text).2 hencode).2 hlasting⟩

/-- A timestamp that is infinite is written as `null`. -/
theorem infinite_timestamp_is_lost : ∃ text,
    encodeSignaling exactFormat (joinEnvelope textId (.infinity false)).1 = .ok text ∧
      decodeSignaling text = .error (units "Malformed signaling envelope") := by
  have hvalid : validateSignalingEnvelope (joinEnvelope textId (.infinity false)).1 = .ok () := by
    decide +kernel
  have hdefined : (joinEnvelope textId (.infinity false)).1 ≠ .undefined := fun h => by cases h
  obtain ⟨text, htext⟩ := exists_text exactFormat hdefined
  have hcopy : validateSignalingEnvelope (joinEnvelope textId (.infinity false)).1.copy =
      .error (units "Malformed signaling envelope") := by decide +kernel
  refine ⟨text, encode_ok.2 ⟨hvalid, htext⟩, ?_⟩
  rw [decodeSignaling, decode_of_text htext, hcopy]
  rfl

end PonsWarp.Signaling.Envelopes
