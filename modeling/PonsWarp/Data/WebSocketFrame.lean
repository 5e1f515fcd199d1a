import Mathlib.Algebra.Ring.Nat
import Mathlib.Data.List.Basic
import Mathlib.Data.List.Infix
import PonsWarp.Data.Framing

set_option autoImplicit false

/-!
The frames of the WebSocket protocol: how one is laid out in bytes, and a reader that
takes the first frame from a buffer or waits for more.
-/

namespace PonsWarp.Data

def bigEndian : Nat → Nat → List UInt8
  | 0, _ => []
  | width + 1, n => UInt8.ofNat (n / 256 ^ width) :: bigEndian width (n % 256 ^ width)

def fromBigEndian : List UInt8 → Nat
  | [] => 0
  | b :: rest => b.toNat * 256 ^ rest.length + fromBigEndian rest

@[simp] theorem length_bigEndian (width n : Nat) : (bigEndian width n).length = width := by
  induction width generalizing n with
  | zero => rfl
  | succ width ih => simp [bigEndian, ih]

theorem fromBigEndian_bigEndian {width n : Nat} (h : n < 256 ^ width) :
    fromBigEndian (bigEndian width n) = n := by
  induction width generalizing n with
  | zero =>
    have hn : n = 0 := by simpa using h
    simp [hn, bigEndian, fromBigEndian]
  | succ width ih =>
    have hpos : 0 < 256 ^ width := Nat.pow_pos (by decide)
    have hlow : n % 256 ^ width < 256 ^ width := Nat.mod_lt _ hpos
    have hhigh : n / 256 ^ width < 256 := by
      rw [Nat.div_lt_iff_lt_mul hpos, Nat.mul_comm]
      exact h
    have hbyte : (UInt8.ofNat (n / 256 ^ width)).toNat = n / 256 ^ width :=
      UInt8.toNat_ofNat_of_lt hhigh
    rw [bigEndian, fromBigEndian, ih hlow, length_bigEndian, hbyte]
    exact Nat.div_add_mod' n _

theorem fromBigEndian_lt (bytes : List UInt8) : fromBigEndian bytes < 256 ^ bytes.length := by
  induction bytes with
  | nil => exact Nat.one_pos
  | cons b rest ih =>
    have hb : b.toNat + 1 ≤ 256 := b.toNat_lt
    have hle := Nat.mul_le_mul_right (256 ^ rest.length) hb
    rw [Nat.add_mul, Nat.one_mul] at hle
    rw [fromBigEndian, List.length_cons, Nat.pow_succ, Nat.mul_comm (256 ^ rest.length)]
    omega

/-- Exclusive or with the bytes of a mask, over and over. -/
def applyMask (mask payload : List UInt8) : List UInt8 :=
  payload.mapIdx fun i b => b ^^^ mask.getD (i % 4) 0

@[simp] theorem length_applyMask (mask payload : List UInt8) :
    (applyMask mask payload).length = payload.length := by
  simp [applyMask]

theorem applyMask_applyMask (mask payload : List UInt8) :
    applyMask mask (applyMask mask payload) = payload := by
  refine List.ext_getElem (by simp) fun i _ _ => ?_
  simp [applyMask, UInt8.xor_assoc]

/-- What the two ends of a connection tell each other with one frame. -/
structure Frame where
  fin : Bool
  opcode : UInt8
  payload : List UInt8
  deriving DecidableEq

/-- A frame as it is sent, with the mask its sender chose. -/
structure SentFrame where
  frame : Frame
  mask : Option (Fin 4 → UInt8)

/-- The length field of the second byte and the bytes that extend it. -/
def lengthBytes (n : Nat) : UInt8 × List UInt8 :=
  if n < 126 then (UInt8.ofNat n, [])
  else if n ≤ 0xffff then (126, bigEndian 2 n)
  else (127, bigEndian 8 n)

def SentFrame.maskBytes (w : SentFrame) : List UInt8 :=
  match w.mask with
  | none => []
  | some mask => List.ofFn mask

def SentFrame.body (w : SentFrame) : List UInt8 :=
  match w.mask with
  | none => w.frame.payload
  | some mask => applyMask (List.ofFn mask) w.frame.payload

def SentFrame.first (w : SentFrame) : UInt8 := (if w.frame.fin then 0x80 else 0) ||| w.frame.opcode

def SentFrame.second (w : SentFrame) : UInt8 :=
  (if w.mask.isSome then 0x80 else 0) ||| (lengthBytes w.frame.payload.length).1

def SentFrame.encode (w : SentFrame) : List UInt8 :=
  w.first :: w.second :: ((lengthBytes w.frame.payload.length).2 ++ (w.maskBytes ++ w.body))

/-- The payload length that a length field says, and how many bytes extend the field. -/
def readLength (code : UInt8) (rest : List UInt8) : Option (Nat × Nat) :=
  if code = 126 then
    if rest.length < 2 then none else some (fromBigEndian (rest.take 2), 2)
  else if code = 127 then
    if rest.length < 8 then none else some (fromBigEndian (rest.take 8), 8)
  else some (code.toNat, 0)

/-- The first frame of a buffer and its size in bytes, if it is there whole. A payload longer than
the limit is an error as soon as its length is known. -/
def readFrame (limit : Nat) (buffer : List UInt8) : Except Unit (Option (Frame × Nat)) :=
  match buffer with
  | first :: second :: rest =>
    match readLength (second &&& 0x7f) rest with
    | none => .ok none
    | some (length, extended) =>
      if limit < length then .error ()
      else
        let masked := (second &&& 0x80) != 0
        let start := 2 + extended + (if masked then 4 else 0)
        if buffer.length < start + length then .ok none
        else
          let payload := (buffer.drop start).take length
          .ok (some (⟨(first &&& 0x80) != 0, first &&& 0x0f,
            if masked then applyMask ((buffer.drop (2 + extended)).take 4) payload else payload⟩,
            start + length))
  | _ => .ok none

theorem flag_or (flag : Bool) {code : UInt8} (h : code.toNat < 128) :
    ((if flag then 0x80 else 0) ||| code) &&& 0x7f = code ∧
      ((((if flag then 0x80 else 0) ||| code) &&& 0x80) != 0) = flag := by
  have hall : ∀ (flag : Bool) (i : Fin 128),
      ((if flag then 0x80 else 0) ||| UInt8.ofNat i) &&& 0x7f = UInt8.ofNat i ∧
        ((((if flag then 0x80 else 0) ||| UInt8.ofNat i) &&& 0x80) != 0) = flag := by
    decide
  have hcode := hall flag ⟨code.toNat, h⟩
  simpa using hcode

theorem flag_or_opcode (flag : Bool) {opcode : UInt8} (h : opcode.toNat < 16) :
    ((if flag then 0x80 else 0) ||| opcode) &&& 0x0f = opcode := by
  have hall : ∀ (flag : Bool) (i : Fin 16),
      ((if flag then 0x80 else 0) ||| UInt8.ofNat i) &&& 0x0f = UInt8.ofNat i := by
    decide
  have hopcode := hall flag ⟨opcode.toNat, h⟩
  simpa using hopcode

theorem lengthBytes_lt (n : Nat) : (lengthBytes n).1.toNat < 128 := by
  unfold lengthBytes
  split
  · rename_i hshort
    have hbyte : n < 256 := by omega
    have hcode : (UInt8.ofNat n).toNat = n := UInt8.toNat_ofNat_of_lt hbyte
    simp only [hcode]
    omega
  · split
    · simp
    · simp

theorem readLength_lengthBytes {n : Nat} (h : n < 256 ^ 8) (rest : List UInt8) :
    readLength (lengthBytes n).1 ((lengthBytes n).2 ++ rest) =
      some (n, (lengthBytes n).2.length) := by
  unfold lengthBytes
  split
  · rename_i hshort
    have hbyte : n < 256 := by omega
    have hcode : (UInt8.ofNat n).toNat = n := UInt8.toNat_ofNat_of_lt hbyte
    have h126 : UInt8.ofNat n ≠ 126 := by
      intro he
      rw [he] at hcode
      have hval : (126 : UInt8).toNat = 126 := rfl
      omega
    have h127 : UInt8.ofNat n ≠ 127 := by
      intro he
      rw [he] at hcode
      have hval : (127 : UInt8).toNat = 127 := rfl
      omega
    simp [readLength, h126, h127, hcode]
  · split
    · have htake : (bigEndian 2 n ++ rest).take 2 = bigEndian 2 n := by
        rw [List.take_append_of_le_length (by simp), List.take_of_length_le (by simp)]
      have hlong : ¬ (bigEndian 2 n ++ rest).length < 2 := by
        simp only [List.length_append, length_bigEndian]
        omega
      simp only [readLength, if_true, if_neg hlong, htake, length_bigEndian]
      rw [fromBigEndian_bigEndian (by omega)]
    · have htake : (bigEndian 8 n ++ rest).take 8 = bigEndian 8 n := by
        rw [List.take_append_of_le_length (by simp), List.take_of_length_le (by simp)]
      have hlong : ¬ (bigEndian 8 n ++ rest).length < 8 := by
        simp only [List.length_append, length_bigEndian]
        omega
      have hne : ¬ (127 : UInt8) = 126 := by decide
      simp only [readLength, if_neg hne, if_true, if_neg hlong, htake, length_bigEndian]
      rw [fromBigEndian_bigEndian h]

theorem readLength_begun {n : Nat} {part : List UInt8}
    (h : part.length < (lengthBytes n).2.length) : readLength (lengthBytes n).1 part = none := by
  unfold lengthBytes at h ⊢
  split at h
  · simp at h
  · split at h
    · simp only [length_bigEndian] at h
      simp [*, readLength]
    · simp only [length_bigEndian] at h
      simp [*, readLength]

/-- A frame that can be sent: the opcode has four bits, and the payload is not longer than the
limit, which eight bytes can say. -/
structure SentFrame.Legal (limit : Nat) (w : SentFrame) : Prop where
  opcode : w.frame.opcode.toNat < 16
  payload : w.frame.payload.length ≤ limit
  limit : limit < 256 ^ 8

variable {limit : Nat} {w : SentFrame}

@[simp] theorem SentFrame.length_body (w : SentFrame) :
    w.body.length = w.frame.payload.length := by
  unfold SentFrame.body
  split <;> simp

@[simp] theorem SentFrame.length_maskBytes (w : SentFrame) :
    w.maskBytes.length = if w.mask.isSome then 4 else 0 := by
  unfold SentFrame.maskBytes
  split <;> simp [*]

theorem SentFrame.length_encode (w : SentFrame) :
    w.encode.length = 2 + (lengthBytes w.frame.payload.length).2.length +
      (if w.mask.isSome then 4 else 0) + w.frame.payload.length := by
  simp only [SentFrame.encode, List.length_cons, List.length_append, length_maskBytes, length_body]
  omega

theorem SentFrame.encode_ne_nil (w : SentFrame) : w.encode ≠ [] := by simp [SentFrame.encode]

/-- What the reader makes of a buffer that starts with the first two bytes of a frame. -/
theorem readFrame_header (h : w.frame.opcode.toNat < 16) (rest : List UInt8) :
    readFrame limit (w.first :: w.second :: rest) =
      match readLength (lengthBytes w.frame.payload.length).1 rest with
      | none => .ok none
      | some (length, extended) =>
        if limit < length then .error ()
        else
          let start := 2 + extended + (if w.mask.isSome then 4 else 0)
          let buffer := w.first :: w.second :: rest
          if buffer.length < start + length then .ok none
          else
            let payload := (buffer.drop start).take length
            .ok (some (⟨w.frame.fin, w.frame.opcode, if w.mask.isSome then
              applyMask ((buffer.drop (2 + extended)).take 4) payload else payload⟩,
              start + length)) := by
  obtain ⟨hcode, hmasked⟩ := flag_or w.mask.isSome (lengthBytes_lt w.frame.payload.length)
  have hopcode := flag_or_opcode w.frame.fin h
  have hsmall : w.frame.opcode.toNat < 128 := by
    omega
  have hfin := (flag_or w.frame.fin hsmall).2
  unfold readFrame
  simp only [SentFrame.first, SentFrame.second, hcode, hmasked, hopcode, hfin]

/-- The reader takes a whole frame from the front of a buffer. -/
theorem readFrame_encode (h : w.Legal limit) (rest : List UInt8) :
    readFrame limit (w.encode ++ rest) = .ok (some (w.frame, w.encode.length)) := by
  have hlength : w.frame.payload.length < 256 ^ 8 := h.payload.trans_lt h.limit
  set extended := (lengthBytes w.frame.payload.length).2 with hextended
  have hbuffer : w.encode ++ rest =
      w.first :: w.second :: (extended ++ (w.maskBytes ++ (w.body ++ rest))) := by
    simp [SentFrame.encode, hextended]
  have hsize : w.encode.length = 2 + extended.length + (if w.mask.isSome then 4 else 0) +
      w.frame.payload.length := w.length_encode
  have hmask : (w.first :: w.second :: (extended ++ (w.maskBytes ++ (w.body ++ rest)))).drop
      (2 + extended.length) = w.maskBytes ++ (w.body ++ rest) := by
    rw [Nat.add_comm, List.drop_succ_cons, List.drop_succ_cons, List.drop_left]
  have hstart : (w.first :: w.second :: (extended ++ (w.maskBytes ++ (w.body ++ rest)))).drop
      (2 + extended.length + (if w.mask.isSome then 4 else 0)) = w.body ++ rest := by
    rw [← List.drop_drop, hmask, ← w.length_maskBytes, List.drop_left]
  have hpayload : (w.body ++ rest).take w.frame.payload.length = w.body := by
    rw [← w.length_body, List.take_left]
  have hthere : ¬ (w.first :: w.second :: (extended ++ (w.maskBytes ++ (w.body ++ rest)))).length <
      w.encode.length := by
    rw [← hbuffer, List.length_append]
    omega
  rw [hbuffer, readFrame_header h.opcode, hextended, readLength_lengthBytes hlength, ← hextended]
  simp only [if_neg (not_lt.2 h.payload), hstart, hmask, hpayload, ← hsize, if_neg hthere]
  have hcontent : (if w.mask.isSome then applyMask ((w.maskBytes ++ (w.body ++ rest)).take 4) w.body
      else w.body) = w.frame.payload := by
    unfold SentFrame.maskBytes SentFrame.body
    cases w.mask with
    | none => rfl
    | some mask =>
      have htake : (List.ofFn mask ++ (applyMask (List.ofFn mask) w.frame.payload ++ rest)).take 4 =
          List.ofFn mask := by
        rw [List.take_append_of_le_length (by simp), List.take_of_length_le (by simp)]
      simp only [Option.isSome_some, if_true, htake, applyMask_applyMask]
  rw [hcontent]

/-- Of a payload over the limit the header is enough for the error. -/
theorem readFrame_long (hopcode : w.frame.opcode.toNat < 16)
    (hlong : limit < w.frame.payload.length) (h : w.frame.payload.length < 256 ^ 8) :
    readFrame limit w.encode = .error () := by
  rw [SentFrame.encode, readFrame_header hopcode, readLength_lengthBytes h]
  simp only [if_pos hlong]

/-- A frame that is not there whole is waited for. -/
theorem readFrame_begun (h : w.Legal limit) {part : List UInt8} (hpart : part <+: w.encode)
    (hne : part ≠ w.encode) : readFrame limit part = .ok none := by
  have hlength : w.frame.payload.length < 256 ^ 8 := h.payload.trans_lt h.limit
  have hshort : part.length < w.encode.length := by
    have hle := hpart.length_le
    have hneq : part.length ≠ w.encode.length := fun he => hne (hpart.eq_of_length he)
    omega
  rw [SentFrame.encode] at hpart
  cases part with
  | nil => rfl
  | cons first tail =>
    cases tail with
    | nil => rfl
    | cons second rest =>
      obtain ⟨rfl, htail⟩ := List.cons_prefix_cons.1 hpart
      obtain ⟨rfl, hrest⟩ := List.cons_prefix_cons.1 htail
      rw [readFrame_header h.opcode]
      by_cases hextended : rest.length < (lengthBytes w.frame.payload.length).2.length
      · rw [readLength_begun hextended]
      · obtain ⟨more, rfl⟩ : (lengthBytes w.frame.payload.length).2 <+: rest :=
          List.prefix_of_prefix_length_le (List.prefix_append _ _) hrest (not_lt.1 hextended)
        rw [readLength_lengthBytes hlength]
        rw [w.length_encode] at hshort
        simp only [if_neg (not_lt.2 h.payload), if_pos hshort]

/-- A frame that is read is at least its first two bytes and at most the buffer. -/
theorem readFrame_consumed {buffer : List UInt8} {frame : Frame} {consumed : Nat}
    (h : readFrame limit buffer = .ok (some (frame, consumed))) :
    2 ≤ consumed ∧ consumed ≤ buffer.length := by
  unfold readFrame at h
  split at h
  · rename_i first second rest
    split at h
    · cases h
    · rename_i length extended _
      split at h
      · cases h
      · simp only at h
        generalize ((second &&& 0x80) != 0) = masked at h
        by_cases hshort : (first :: second :: rest).length <
            2 + extended + (if masked = true then 4 else 0) + length
        · rw [if_pos hshort] at h
          cases h
        · rw [if_neg hshort] at h
          simp only [Except.ok.injEq, Option.some.injEq, Prod.mk.injEq] at h
          obtain ⟨-, rfl⟩ := h
          exact ⟨by omega, not_lt.1 hshort⟩
  · cases h

theorem readLength_append {code : UInt8} {rest : List UInt8} {found : Nat × Nat}
    (h : readLength code rest = some found) (more : List UInt8) :
    readLength code (rest ++ more) = some found ∧ found.2 ≤ rest.length := by
  unfold readLength at h ⊢
  split at h
  · split at h
    · cases h
    · cases h
      have hlong : ¬ (rest ++ more).length < 2 := by rw [List.length_append]; omega
      rw [if_pos ‹_›, if_neg hlong, List.take_append_of_le_length (by omega)]
      exact ⟨rfl, by dsimp only; omega⟩
  · split at h
    · split at h
      · cases h
      · cases h
        have hlong : ¬ (rest ++ more).length < 8 := by rw [List.length_append]; omega
        rw [if_neg ‹_›, if_pos ‹_›, if_neg hlong, List.take_append_of_le_length (by omega)]
        exact ⟨rfl, by dsimp only; omega⟩
    · cases h
      rw [if_neg ‹_›, if_neg ‹_›]
      exact ⟨rfl, Nat.zero_le _⟩

/-- What has been read, be it a frame or an error, stays so whatever comes behind it. -/
theorem readFrame_append {buffer : List UInt8} (h : readFrame limit buffer ≠ .ok none)
    (more : List UInt8) : readFrame limit (buffer ++ more) = readFrame limit buffer := by
  cases buffer with
  | nil => exact absurd rfl h
  | cons first tail =>
    cases tail with
    | nil => exact absurd rfl h
    | cons second rest =>
      simp only [readFrame, List.cons_append] at h ⊢
      cases hlength : readLength (second &&& 0x7f) rest with
      | none => simp [hlength] at h
      | some found =>
        obtain ⟨length, extended⟩ := found
        obtain ⟨hmore, hextended⟩ := readLength_append hlength more
        simp only [hlength] at h
        simp only [hmore]
        generalize ((second &&& 0x80) != 0) = masked at h ⊢
        by_cases hlimit : limit < length
        · rw [if_pos hlimit, if_pos hlimit]
        · rw [if_neg hlimit] at h ⊢
          rw [if_neg hlimit]
          set start := 2 + extended + (if masked = true then 4 else 0)
          have hwhole : ¬ (first :: second :: rest).length < start + length := by
            intro hshort
            rw [if_pos hshort] at h
            exact h rfl
          have hlonger : ¬ (first :: second :: (rest ++ more)).length < start + length := by
            simp only [List.length_cons, List.length_append] at hwhole ⊢
            omega
          have hsame (offset size : Nat) (hsize : offset + size ≤ start + length) :
              ((first :: second :: (rest ++ more)).drop offset).take size =
                ((first :: second :: rest).drop offset).take size := by
            have happend : first :: second :: (rest ++ more) =
                (first :: second :: rest) ++ more := rfl
            rw [happend, List.drop_append_of_le_length (by omega),
              List.take_append_of_le_length (by rw [List.length_drop]; omega)]
          rw [if_neg hlonger, if_neg hwhole, hsame start length le_rfl]
          cases masked with
          | false => rfl
          | true => rw [hsame (2 + extended) 4 (Nat.le_add_right _ _)]

/-- Nothing is read from what is there of the next frame. -/
theorem readFrame_begins {todo : List SentFrame} {part : List UInt8}
    (hlegal : ∀ w ∈ todo, w.Legal limit) (h : Begins SentFrame.encode todo part) :
    readFrame limit part = .ok none := by
  cases todo with
  | nil =>
    have hnil : part = [] := h
    rw [hnil]
    rfl
  | cons w rest => exact readFrame_begun (hlegal w (by simp)) h.1 h.2

/-- A message and the payloads of the frames that it is sent in. -/
structure Message where
  opcode : UInt8
  first : List UInt8
  rest : List (List UInt8)

namespace Message

def payload (m : Message) : List UInt8 := m.first ++ m.rest.flatten

/-- The frames that continue a message. The last one is final. -/
def continuation : List (List UInt8) → List Frame
  | [] => []
  | part :: rest => ⟨rest.isEmpty, 0, part⟩ :: continuation rest

def frames (m : Message) : List Frame := ⟨m.rest.isEmpty, m.opcode, m.first⟩ :: continuation m.rest

end Message

theorem Message.continuation_opcode {parts : List (List UInt8)} {f : Frame}
    (h : f ∈ Message.continuation parts) : f.opcode = 0 := by
  induction parts with
  | nil => simp [Message.continuation] at h
  | cons part rest ih =>
    rcases List.mem_cons.1 h with rfl | hrest
    · rfl
    · exact ih hrest

def Frame.isData (f : Frame) : Bool := f.opcode < 8

/-- The frames carry the messages, with pings and pongs anywhere between them. -/
structure Carries (limit : Nat) (sent : List SentFrame) (messages : List Message) : Prop where
  legal : ∀ w ∈ sent, w.Legal limit
  data : (sent.map (·.frame)).filter Frame.isData = messages.flatMap Message.frames
  control : ∀ w ∈ sent, w.frame.isData = false →
    (w.frame.opcode = 9 ∨ w.frame.opcode = 10) ∧ w.frame.fin = true ∧ w.frame.payload.length ≤ 125

end PonsWarp.Data
