import PonsWarp.Cli.NodeWebSocketTransport

set_option autoImplicit false

/-!
The frames of a peer connection as they are written and read: one function lays out a frame, and
a loop takes frames from a buffer, at one offset after the other, until the next is not there
whole.
-/

namespace PonsWarp.Data

/-- `buffer.subarray(start, stop)`. -/
def subarray (buffer : List UInt8) (start stop : Nat) : List UInt8 :=
  (buffer.drop start).take (stop - start)

def readUInt16BE (buffer : List UInt8) (offset : Nat) : Nat :=
  fromBigEndian (subarray buffer offset (offset + 2))

def readBigUInt64BE (buffer : List UInt8) (offset : Nat) : Nat :=
  fromBigEndian (subarray buffer offset (offset + 8))

theorem subarray_eq (buffer : List UInt8) (start size : Nat) :
    subarray buffer start (start + size) = (buffer.drop start).take size := by
  simp [subarray]

@[simp] theorem subarray_append (done buffer : List UInt8) (start size : Nat) :
    subarray (done ++ buffer) (done.length + start) (done.length + start + size) =
      (buffer.drop start).take size := by
  rw [subarray_eq, List.drop_length_add_append]

/-- Of the first byte the reader sees the final flag and the opcode. -/
theorem readFrame_first (limit : Nat) {first first' : UInt8}
    (hfin : first &&& 0x80 = first' &&& 0x80) (hopcode : first &&& 0x0f = first' &&& 0x0f)
    (tail : List UInt8) : readFrame limit (first :: tail) = readFrame limit (first' :: tail) := by
  cases tail with
  | nil => rfl
  | cons second rest =>
    have hdrop (n : Nat) : (first :: second :: rest).drop (2 + n) =
        (first' :: second :: rest).drop (2 + n) := by
      rw [Nat.add_comm]
      rfl
    simp only [readFrame, hfin, hopcode, Nat.add_assoc, hdrop, List.length_cons]

theorem exists_cons_cons {buffer : List UInt8} (h : 2 ≤ buffer.length) :
    ∃ first second rest, buffer = first :: second :: rest := by
  cases buffer with
  | nil => simp at h
  | cons first tail =>
    cases tail with
    | nil => simp at h
    | cons second rest => exact ⟨first, second, rest, rfl⟩

theorem readFrame_of_short {limit : Nat} {buffer : List UInt8} (h : buffer.length < 2) :
    readFrame limit buffer = .ok none := by
  cases buffer with
  | nil => rfl
  | cons first tail =>
    cases tail with
    | nil => rfl
    | cons second rest =>
      simp only [List.length_cons] at h
      omega

end PonsWarp.Data

namespace PonsWarp.Cli

open PonsWarp.Data

/-- The payload length that the header at an offset declares, and the size of the header up to
the mask. The loop ends where the header is cut off. -/
def headerAt (buffer : List UInt8) (offset : Nat) : Except String (Option (Nat × Nat)) :=
  let length := (buffer.getD (offset + 1) 0 &&& 0x7f).toNat
  if length = 126 then
    if buffer.length < offset + 4 then .ok none
    else .ok (some (readUInt16BE buffer (offset + 2), 4))
  else if length = 127 then
    if buffer.length < offset + 10 then .ok none
    else
      let big := readBigUInt64BE buffer (offset + 2)
      if MAX_FRAME_PAYLOAD_BYTES < big then .error "WebSocket frame payload too large"
      else .ok (some (big, 10))
  else .ok (some (length, 2))

/-- One turn of the loop: the frame at an offset and its end. -/
def frameAt (buffer : List UInt8) (offset : Nat) : Except String (Option (Frame × Nat)) :=
  let first := buffer.getD offset 0
  let masked := (buffer.getD (offset + 1) 0 &&& 0x80) != 0
  match headerAt buffer offset with
  | .error error => .error error
  | .ok none => .ok none
  | .ok (some (length, headerLength)) =>
    if MAX_FRAME_PAYLOAD_BYTES < length then .error "WebSocket frame payload too large"
    else
      let maskLength := if masked then 4 else 0
      let frameEnd := offset + headerLength + maskLength + length
      if buffer.length < frameEnd then .ok none
      else
        let mask := subarray buffer (offset + headerLength) (offset + headerLength + 4)
        let payload := subarray buffer (offset + headerLength + maskLength) frameEnd
        .ok (some (⟨(first &&& 0x80) != 0, first &&& 0x0f,
          if masked then applyMask mask payload else payload⟩, frameEnd))

/-- The error of the parser. -/
def tooLarge : Except Unit (Option (Frame × Nat)) → Nat → Except String (Option (Frame × Nat))
  | .error _, _ => .error "WebSocket frame payload too large"
  | .ok none, _ => .ok none
  | .ok (some (frame, consumed)), offset => .ok (some (frame, offset + consumed))

theorem getD_append_length (done buffer : List UInt8) (i : Nat) :
    (done ++ buffer).getD (done.length + i) 0 = buffer.getD i 0 := by
  simp [List.getD_eq_getElem?_getD, List.getElem?_append_right]

theorem headerAt_append (done : List UInt8) (first second : UInt8) (rest : List UInt8) :
    headerAt (done ++ first :: second :: rest) done.length =
      match readLength (second &&& 0x7f) rest with
      | none => .ok none
      | some (length, extended) =>
        if second &&& 0x7f = 127 ∧ MAX_FRAME_PAYLOAD_BYTES < length then
          .error "WebSocket frame payload too large"
        else .ok (some (length, 2 + extended)) := by
  have hcode (n : UInt8) : (second &&& 0x7f).toNat = n.toNat ↔ second &&& 0x7f = n :=
    UInt8.toNat_inj
  have h126 : (second &&& 0x7f).toNat = 126 ↔ second &&& 0x7f = 126 := hcode 126
  have h127 : (second &&& 0x7f).toNat = 127 ↔ second &&& 0x7f = 127 := hcode 127
  have hlength (n : Nat) : (done ++ first :: second :: rest).length < done.length + (n + 2) ↔
      rest.length < n := by
    simp only [List.length_append, List.length_cons]
    omega
  simp only [headerAt, getD_append_length, List.getD_cons_succ, List.getD_cons_zero, h126, h127,
    readUInt16BE, readBigUInt64BE, subarray_append, List.drop_succ_cons, List.drop_zero,
    hlength 2, hlength 8, readLength]
  by_cases hshort : second &&& 0x7f = 126
  · have hne : ¬ (126 : UInt8) = 127 := by decide
    simp only [hshort, if_true, hne, false_and, if_false]
    split <;> rfl
  · by_cases hlong : second &&& 0x7f = 127
    · have hne : ¬ (127 : UInt8) = 126 := by decide
      simp only [hlong, hne, if_true, if_false, true_and]
      by_cases hcut : rest.length < 8
      · simp only [if_pos hcut]
      · simp only [if_neg hcut]
    · simp only [hshort, hlong, if_false, false_and]

theorem frameAt_append (done : List UInt8) {buffer : List UInt8} (h : 2 ≤ buffer.length) :
    frameAt (done ++ buffer) done.length =
      tooLarge (readFrame MAX_FRAME_PAYLOAD_BYTES buffer) done.length := by
  obtain ⟨first, second, rest, rfl⟩ := exists_cons_cons h
  have hfirst : (done ++ first :: second :: rest).getD done.length 0 = first :=
    getD_append_length done _ 0
  simp only [frameAt, readFrame, headerAt_append, hfirst, getD_append_length,
    List.getD_cons_succ, List.getD_cons_zero]
  cases hlength : readLength (second &&& 0x7f) rest with
  | none => rfl
  | some found =>
    obtain ⟨length, extended⟩ := found
    generalize ((second &&& 0x80) != 0) = masked
    by_cases hlimit : MAX_FRAME_PAYLOAD_BYTES < length
    · by_cases hlong : second &&& 0x7f = 127
      · simp only [hlimit, hlong, and_true, if_true, tooLarge]
      · simp only [hlimit, hlong, false_and, if_true, if_false, tooLarge]
    · simp only [hlimit, and_false, if_false]
      set start := 2 + extended + (if masked = true then 4 else 0) with hstart
      have hend : done.length + (2 + extended) + (if masked = true then 4 else 0) + length =
          done.length + start + length := by omega
      have hcut : (done ++ first :: second :: rest).length < done.length + start + length ↔
          (first :: second :: rest).length < start + length := by
        simp only [List.length_append]
        omega
      have hbegin : done.length + (2 + extended) + (if masked = true then 4 else 0) =
          done.length + start := by omega
      simp only [hbegin, subarray_append, hcut]
      split
      · rfl
      · simp only [tooLarge, Nat.add_assoc]

theorem frameAt_eq {buffer : List UInt8} {offset : Nat} (h : offset + 2 ≤ buffer.length) :
    frameAt buffer offset =
      tooLarge (readFrame MAX_FRAME_PAYLOAD_BYTES (buffer.drop offset)) offset := by
  have hdone : (buffer.take offset).length = offset := List.length_take_of_le (by omega)
  have hrest : 2 ≤ (buffer.drop offset).length := by
    rw [List.length_drop]
    omega
  have hframe := frameAt_append (buffer.take offset) hrest
  rwa [List.take_append_drop, hdone] at hframe

theorem frameEnd_spec {buffer : List UInt8} {offset frameEnd : Nat} {frame : Frame}
    (h : offset + 2 ≤ buffer.length) (hframe : frameAt buffer offset = .ok (some (frame, frameEnd))) :
    offset < frameEnd ∧ frameEnd ≤ buffer.length := by
  rw [frameAt_eq h] at hframe
  cases hread : readFrame MAX_FRAME_PAYLOAD_BYTES (buffer.drop offset) with
  | error _ => simp [hread, tooLarge] at hframe
  | ok found =>
    cases found with
    | none => simp [hread, tooLarge] at hframe
    | some found =>
      obtain ⟨hpos, hle⟩ := readFrame_consumed hread
      simp only [hread, tooLarge, Except.ok.injEq, Option.some.injEq, Prod.mk.injEq] at hframe
      rw [List.length_drop] at hle
      omega

/-- The loop of `parseFrames` from an offset on. -/
def parseFramesFrom (buffer : List UInt8) (offset : Nat) :
    Except String (List Frame × List UInt8) :=
  if offset + 2 ≤ buffer.length then
    match _h : frameAt buffer offset with
    | .error error => .error error
    | .ok none => .ok ([], buffer.drop offset)
    | .ok (some (frame, frameEnd)) => do
      let (frames, remaining) ← parseFramesFrom buffer frameEnd
      return (frame :: frames, remaining)
  else .ok ([], buffer.drop offset)
termination_by buffer.length - offset
decreasing_by
  obtain ⟨hlt, hle⟩ := frameEnd_spec ‹_› _h
  omega

/-- The offset of the loop does what dropping the parsed bytes does. -/
theorem parseFramesFrom_eq (buffer : List UInt8) (offset : Nat) :
    parseFramesFrom buffer offset = parseFrames (buffer.drop offset) := by
  generalize hleft : buffer.length - offset = left
  induction left using Nat.strongRecOn generalizing offset with
  | ind left ih =>
    unfold parseFramesFrom
    by_cases hhead : offset + 2 ≤ buffer.length
    · rw [if_pos hhead]
      have hframe := frameAt_eq hhead
      cases hread : readFrame MAX_FRAME_PAYLOAD_BYTES (buffer.drop offset) with
      | error _ =>
        rw [parseFrames_error hread]
        split <;> simp_all [tooLarge]
      | ok found =>
        cases found with
        | none =>
          rw [parseFrames_none hread]
          split <;> simp_all [tooLarge]
        | some found =>
          obtain ⟨frame, consumed⟩ := found
          simp only [hread, tooLarge] at hframe
          obtain ⟨hlt, hle⟩ := frameEnd_spec hhead hframe
          have hrest := ih (buffer.length - (offset + consumed)) (by omega) _ rfl
          rw [parseFrames_some hread, List.drop_drop, ← hrest]
          split <;> simp_all
    · have hshort : (buffer.drop offset).length < 2 := by
        rw [List.length_drop]
        omega
      rw [if_neg hhead, parseFrames_none (readFrame_of_short hshort)]

theorem encodeFrame_eq (opcode : UInt8) (payload : List UInt8) :
    encodeFrame opcode payload = (0x80 ||| opcode) :: (lengthBytes payload.length).1 ::
      ((lengthBytes payload.length).2 ++ payload) := by
  simp only [encodeFrame, lengthBytes]
  repeat' split
  all_goals simp

/-- The frame that a payload is sent in. -/
def frameOf (opcode : UInt8) (payload : List UInt8) : Frame := ⟨true, opcode &&& 0x0f, payload⟩

theorem opcode_lt (opcode : UInt8) : (opcode &&& 0x0f).toNat < 16 := by
  rw [UInt8.toNat_and]
  exact Nat.lt_of_le_of_lt Nat.and_le_right (by decide)

/-- Bits of the opcode beyond the lower four are sent and not read. -/
theorem readFrame_encodeFrame (limit : Nat) (opcode : UInt8) (payload : List UInt8) :
    readFrame limit (encodeFrame opcode payload) =
      readFrame limit (SentFrame.mk (frameOf opcode payload) none).encode := by
  have hall : ∀ i : Fin 256, (0x80 ||| UInt8.ofNat i) &&& 0x80 =
        (0x80 ||| (UInt8.ofNat i &&& 0x0f)) &&& 0x80 ∧
      (0x80 ||| UInt8.ofNat i) &&& 0x0f = (0x80 ||| (UInt8.ofNat i &&& 0x0f)) &&& 0x0f := by
    decide +kernel
  have hbits := hall ⟨opcode.toNat, opcode.toNat_lt⟩
  simp only [UInt8.ofNat_toNat] at hbits
  rw [encodeFrame_eq, readFrame_first limit hbits.1 hbits.2]
  simp [SentFrame.encode, SentFrame.first, SentFrame.second, SentFrame.maskBytes, SentFrame.body,
    frameOf]

/-- The frames of a buffer come out the same however it is cut in two. -/
theorem parseFrames_append (buffer more : List UInt8) :
    parseFrames (buffer ++ more) = (do
      let (frames, remaining) ← parseFrames buffer
      let (frames', remaining') ← parseFrames (remaining ++ more)
      return (frames ++ frames', remaining')) := by
  generalize hleft : buffer.length = left
  induction left using Nat.strongRecOn generalizing buffer with
  | ind left ih =>
    cases hread : readFrame MAX_FRAME_PAYLOAD_BYTES buffer with
    | error _ =>
      have hsame := readFrame_append (by rw [hread]; simp) more
      rw [parseFrames_error hread, parseFrames_error (hsame.trans hread)]
      rfl
    | ok found =>
      cases found with
      | none =>
        rw [parseFrames_none hread]
        change parseFrames (buffer ++ more) = parseFrames (buffer ++ more) >>= fun parsed =>
          pure ([] ++ parsed.1, parsed.2)
        cases parseFrames (buffer ++ more) <;> rfl
      | some found =>
        obtain ⟨frame, consumed⟩ := found
        have hsame := readFrame_append (by rw [hread]; simp) more
        obtain ⟨hpos, hle⟩ := readFrame_consumed hread
        rw [parseFrames_some hread, parseFrames_some (hsame.trans hread),
          List.drop_append_of_le_length hle,
          ih (buffer.drop consumed).length (by rw [List.length_drop]; omega) _ rfl]
        cases parseFrames (buffer.drop consumed) with
        | error _ => rfl
        | ok parsed =>
          change _ = parseFrames (parsed.2 ++ more) >>= fun parsed' =>
            pure ((frame :: parsed.1) ++ parsed'.1, parsed'.2)
          change (parseFrames (parsed.2 ++ more) >>= fun parsed' =>
            pure (parsed.1 ++ parsed'.1, parsed'.2)) >>= _ = _
          cases parseFrames (parsed.2 ++ more) <;> rfl

theorem parseFrames_encodeFrame (opcode : UInt8) {payload : List UInt8}
    (hsize : payload.length ≤ MAX_FRAME_PAYLOAD_BYTES) :
    parseFrames (encodeFrame opcode payload) = .ok ([frameOf opcode payload], []) := by
  have hread := readFrame_encode (w := ⟨frameOf opcode payload, none⟩)
    ⟨opcode_lt opcode, hsize, by decide⟩ []
  have hlength : (SentFrame.mk (frameOf opcode payload) none).encode.length =
      (encodeFrame opcode payload).length := by
    rw [encodeFrame_eq]
    simp [SentFrame.encode, SentFrame.maskBytes, frameOf]
  rw [List.append_nil, ← readFrame_encodeFrame, hlength] at hread
  rw [parseFrames_some hread, List.drop_length, parseFrames_none rfl]
  rfl

theorem parseFrames_encodeFrame_long (opcode : UInt8) {payload : List UInt8}
    (hlong : MAX_FRAME_PAYLOAD_BYTES < payload.length) (hsize : payload.length < 256 ^ 8) :
    parseFrames (encodeFrame opcode payload) = .error "WebSocket frame payload too large" := by
  have hread := readFrame_long (w := ⟨frameOf opcode payload, none⟩) (opcode_lt opcode) hlong hsize
  exact parseFrames_error ((readFrame_encodeFrame _ opcode payload).trans hread)

/-- Frames are read as they were sent, in however many parts they come, up to the limit of the
reader. -/
theorem frames_parse_incrementally (sent : List SentFrame) (buffer more : List UInt8)
    (opcode : UInt8) (payload : List UInt8)
    (hopcodes : ∀ w ∈ sent, w.frame.opcode.toNat < 16)
    (hpayloads : ∀ w ∈ sent, w.frame.payload.length ≤ MAX_FRAME_PAYLOAD_BYTES) :
    parseFramesFrom (sent.flatMap SentFrame.encode) 0 = .ok (sent.map (·.frame), []) ∧
    parseFramesFrom (buffer ++ more) 0 = (do
      let (frames, remaining) ← parseFramesFrom buffer 0
      let (frames', remaining') ← parseFramesFrom (remaining ++ more) 0
      return (frames ++ frames', remaining')) ∧
    (payload.length ≤ MAX_FRAME_PAYLOAD_BYTES →
      parseFramesFrom (encodeFrame opcode payload) 0 = .ok ([frameOf opcode payload], [])) ∧
    (MAX_FRAME_PAYLOAD_BYTES < payload.length → payload.length < 256 ^ 8 →
      parseFramesFrom (encodeFrame opcode payload) 0 =
        .error "WebSocket frame payload too large") := by
  simp only [parseFramesFrom_eq, List.drop_zero]
  refine ⟨?_, parseFrames_append buffer more, parseFrames_encodeFrame opcode,
    parseFrames_encodeFrame_long opcode⟩
  have hlegal : ∀ w ∈ sent ++ [], w.Legal MAX_FRAME_PAYLOAD_BYTES := fun w hw =>
    ⟨hopcodes w (by simpa using hw), hpayloads w (by simpa using hw), by decide⟩
  have hbegins : Begins SentFrame.encode [] [] := rfl
  simpa using parseFrames_flatMap hlegal hbegins

theorem frames_parse_incrementally_sample :
    let sent : List SentFrame :=
      [⟨⟨true, 1, [104]⟩, some fun _ => 7⟩, ⟨⟨false, 2, [1, 2]⟩, none⟩]
    parseFramesFrom (sent.flatMap SentFrame.encode) 0 = .ok (sent.map (·.frame), []) :=
  (frames_parse_incrementally
    [⟨⟨true, 1, [104]⟩, some fun _ => 7⟩, ⟨⟨false, 2, [1, 2]⟩, none⟩] [] [] 1 []
    (by decide) (by decide)).1

theorem long_payload_is_not_parsed :
    parseFramesFrom (encodeFrame 2 (List.replicate (MAX_FRAME_PAYLOAD_BYTES + 1) 0)) 0 =
      .error "WebSocket frame payload too large" := by
  rw [parseFramesFrom_eq]
  refine parseFrames_encodeFrame_long 2 ?_ ?_
  · rw [List.length_replicate]
    exact Nat.lt_succ_self _
  · rw [List.length_replicate]
    decide

end PonsWarp.Cli
