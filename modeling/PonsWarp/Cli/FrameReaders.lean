import PonsWarp.Cli.FrameCodec
import PonsWarp.Core.Manifest

set_option autoImplicit false

/-!
The two readers of frames: the signaling server takes one frame at a time from its buffer, a peer
connection all of them in one loop.
-/

namespace PonsWarp.Signaling.FrameReader

open PonsWarp.Data

/-- The payload length that the header declares and where the mask or the payload starts. -/
def readHeader (buffer : List UInt8) : Except String (Option (Nat × Nat)) :=
  let length := (buffer.getD 1 0 &&& 0x7f).toNat
  if length = 126 then
    if buffer.length < 4 then .ok none
    else .ok (some (readUInt16BE buffer 2, 4))
  else if length = 127 then
    if buffer.length < 10 then .ok none
    else
      let bigLength := readBigUInt64BE buffer 2
      if Core.MAX_SAFE_INTEGER < bigLength then .error "WebSocket frame too large"
      else .ok (some (bigLength, 10))
  else .ok (some (length, 2))

/-- The opcode, the payload and how many bytes the frame takes. -/
def readFrame (buffer : List UInt8) : Except String (Option (UInt8 × List UInt8 × Nat)) :=
  let opcode := buffer.getD 0 0 &&& 0x0f
  let masked := (buffer.getD 1 0 &&& 0x80) != 0
  match readHeader buffer with
  | .error error => .error error
  | .ok none => .ok none
  | .ok (some (length, maskOffset)) =>
    let offset := if masked then maskOffset + 4 else maskOffset
    if buffer.length < offset + length then .ok none
    else
      let payload := subarray buffer offset (offset + length)
      let mask := subarray buffer maskOffset (maskOffset + 4)
      .ok (some (opcode, if masked then applyMask mask payload else payload, offset + length))

/-- What the server has of a frame that is read. -/
def seen : Except Unit (Option (Frame × Nat)) → Except String (Option (UInt8 × List UInt8 × Nat))
  | .error _ => .error "WebSocket frame too large"
  | .ok none => .ok none
  | .ok (some (frame, consumed)) => .ok (some (frame.opcode, frame.payload, consumed))

theorem readHeader_eq (first second : UInt8) (rest : List UInt8) :
    readHeader (first :: second :: rest) =
      match readLength (second &&& 0x7f) rest with
      | none => .ok none
      | some (length, extended) =>
        if Core.MAX_SAFE_INTEGER < length then .error "WebSocket frame too large"
        else .ok (some (length, 2 + extended)) := by
  have hcode (n : UInt8) : (second &&& 0x7f).toNat = n.toNat ↔ second &&& 0x7f = n :=
    UInt8.toNat_inj
  have h126 : (second &&& 0x7f).toNat = 126 ↔ second &&& 0x7f = 126 := hcode 126
  have h127 : (second &&& 0x7f).toNat = 127 ↔ second &&& 0x7f = 127 := hcode 127
  have hlength (n : Nat) : (first :: second :: rest).length < n + 2 ↔ rest.length < n := by
    simp only [List.length_cons]
    omega
  have hread (size : Nat) : subarray (first :: second :: rest) 2 (2 + size) = rest.take size :=
    subarray_eq _ 2 size
  simp only [readHeader, List.getD_cons_succ, List.getD_cons_zero, h126, h127, readUInt16BE,
    readBigUInt64BE, hread, hlength 2, hlength 8, readLength]
  by_cases hshort : second &&& 0x7f = 126
  · simp only [hshort, if_true]
    by_cases hcut : rest.length < 2
    · simp only [if_pos hcut]
    · have hlt := fromBigEndian_lt (rest.take 2)
      have hle : 256 ^ (rest.take 2).length ≤ 256 ^ 2 :=
        Nat.pow_le_pow_right (by decide) (List.length_take_le _ _)
      have hsafe : 256 ^ 2 ≤ Core.MAX_SAFE_INTEGER := by decide
      have hlimit : ¬ Core.MAX_SAFE_INTEGER < fromBigEndian (rest.take 2) := by omega
      simp only [if_neg hcut, if_neg hlimit]
  · by_cases hlong : second &&& 0x7f = 127
    · have hne : ¬ (127 : UInt8) = 126 := by decide
      simp only [hlong, hne, if_true, if_false]
      by_cases hcut : rest.length < 8
      · simp only [if_pos hcut]
      · simp only [if_neg hcut]
    · have hcode : (second &&& 0x7f).toNat < 256 := UInt8.toNat_lt _
      have hsafe : 256 ≤ Core.MAX_SAFE_INTEGER := by decide
      have hlimit : ¬ Core.MAX_SAFE_INTEGER < (second &&& 0x7f).toNat := by omega
      simp only [hshort, hlong, if_false, if_neg hlimit]

theorem readFrame_eq {buffer : List UInt8} (h : 2 ≤ buffer.length) :
    readFrame buffer = seen (Data.readFrame Core.MAX_SAFE_INTEGER buffer) := by
  obtain ⟨first, second, rest, rfl⟩ := exists_cons_cons h
  simp only [readFrame, Data.readFrame, readHeader_eq, List.getD_cons_succ, List.getD_cons_zero]
  cases hlength : readLength (second &&& 0x7f) rest with
  | none => rfl
  | some found =>
    obtain ⟨length, extended⟩ := found
    generalize ((second &&& 0x80) != 0) = masked
    by_cases hlimit : Core.MAX_SAFE_INTEGER < length
    · simp only [if_pos hlimit, seen]
    · simp only [if_neg hlimit]
      have hoffset : (if masked then 2 + extended + 4 else 2 + extended) =
          2 + extended + (if masked then 4 else 0) := by
        cases masked <;> rfl
      rw [hoffset, subarray_eq, subarray_eq]
      by_cases hcut : (first :: second :: rest).length <
          2 + extended + (if masked then 4 else 0) + length
      · simp only [if_pos hcut, seen]
      · simp only [if_neg hcut, seen]

theorem consumed_spec {buffer payload : List UInt8} {opcode : UInt8} {consumed : Nat}
    (h : 2 ≤ buffer.length) (hread : readFrame buffer = .ok (some (opcode, payload, consumed))) :
    2 ≤ consumed ∧ consumed ≤ buffer.length := by
  rw [readFrame_eq h] at hread
  cases hframe : Data.readFrame Core.MAX_SAFE_INTEGER buffer with
  | error _ => simp [hframe, seen] at hread
  | ok found =>
    cases found with
    | none => simp [hframe, seen] at hread
    | some found =>
      simp only [hframe, seen, Except.ok.injEq, Option.some.injEq, Prod.mk.injEq] at hread
      obtain ⟨-, -, rfl⟩ := hread
      exact readFrame_consumed hframe

/-- `readFrame` over and over, as `handleData` does. -/
def readFrames (buffer : List UInt8) :
    Except String (List (UInt8 × List UInt8) × List UInt8) :=
  if 2 ≤ buffer.length then
    match _h : readFrame buffer with
    | .error error => .error error
    | .ok none => .ok ([], buffer)
    | .ok (some (opcode, payload, consumed)) => do
      let (frames, remaining) ← readFrames (buffer.drop consumed)
      return ((opcode, payload) :: frames, remaining)
  else .ok ([], buffer)
termination_by buffer.length
decreasing_by
  obtain ⟨hpos, hle⟩ := consumed_spec ‹_› _h
  rw [List.length_drop]
  omega

end PonsWarp.Signaling.FrameReader

namespace PonsWarp.Cli

open PonsWarp.Data

/-- The payload lengths that the headers of a buffer declare, each frame starting where the one
before it ends. -/
def declaredLengths (buffer : List UInt8) : List Nat :=
  match _h : buffer with
  | _ :: second :: rest =>
    match readLength (second &&& 0x7f) rest with
    | none => []
    | some (length, extended) =>
      let size := 2 + extended + (if (second &&& 0x80) != 0 then 4 else 0) + length
      length :: if buffer.length < size then [] else declaredLengths (buffer.drop size)
  | _ => []
termination_by buffer.length
decreasing_by
  simp only [_h, List.length_drop, List.length_cons]
  omega

theorem declaredLengths_cons (first second : UInt8) (rest : List UInt8) :
    declaredLengths (first :: second :: rest) =
      match readLength (second &&& 0x7f) rest with
      | none => []
      | some (length, extended) =>
        let size := 2 + extended + (if (second &&& 0x80) != 0 then 4 else 0) + length
        length :: if (first :: second :: rest).length < size then []
          else declaredLengths ((first :: second :: rest).drop size) := by
  rw [declaredLengths]

/-- A reader looks at the first of the declared lengths, and behind the frame are the others. -/
theorem readFrame_declared {limit limit' : Nat} {buffer : List UInt8}
    (h : ∀ length ∈ declaredLengths buffer, length ≤ limit ∧ length ≤ limit') :
    readFrame limit buffer = readFrame limit' buffer ∧ readFrame limit buffer ≠ .error () ∧
      ∀ frame consumed, readFrame limit buffer = .ok (some (frame, consumed)) →
        ∀ length ∈ declaredLengths (buffer.drop consumed), length ∈ declaredLengths buffer := by
  by_cases hhead : buffer.length < 2
  · simp [readFrame_of_short hhead]
  · obtain ⟨first, second, rest, rfl⟩ := exists_cons_cons (not_lt.1 hhead)
    rw [declaredLengths_cons] at h ⊢
    simp only [readFrame]
    cases hlength : readLength (second &&& 0x7f) rest with
    | none => simp
    | some found =>
      obtain ⟨length, extended⟩ := found
      simp only [hlength] at h
      generalize ((second &&& 0x80) != 0) = masked at h ⊢
      obtain ⟨⟨hle, hle'⟩, -⟩ := List.forall_mem_cons.1 h
      simp only [if_neg (not_lt.2 hle), if_neg (not_lt.2 hle'), true_and]
      by_cases hcut : (first :: second :: rest).length <
          2 + extended + (if masked = true then 4 else 0) + length
      · simp only [if_pos hcut]
        exact ⟨by simp, by simp⟩
      · simp only [if_neg hcut]
        refine ⟨by simp, fun frame consumed hread n hn => ?_⟩
        simp only [Except.ok.injEq, Option.some.injEq, Prod.mk.injEq] at hread
        rw [← hread.2] at hn
        exact List.mem_cons_of_mem _ hn

/-- The frames as the server sees them. -/
def seen (frames : List Frame) : List (UInt8 × List UInt8) :=
  frames.map fun frame => (frame.opcode, frame.payload)

theorem readFrames_none {buffer : List UInt8}
    (h : readFrame Core.MAX_SAFE_INTEGER buffer = .ok none) :
    Signaling.FrameReader.readFrames buffer = .ok ([], buffer) := by
  unfold Signaling.FrameReader.readFrames
  split
  · have hread := Signaling.FrameReader.readFrame_eq ‹_›
    split <;> simp_all [Signaling.FrameReader.seen]
  · rfl

theorem readFrames_some {buffer : List UInt8} {frame : Frame} {consumed : Nat}
    (h : readFrame Core.MAX_SAFE_INTEGER buffer = .ok (some (frame, consumed))) :
    Signaling.FrameReader.readFrames buffer = (do
      let (frames, remaining) ← Signaling.FrameReader.readFrames (buffer.drop consumed)
      return ((frame.opcode, frame.payload) :: frames, remaining)) := by
  obtain ⟨hpos, hle⟩ := readFrame_consumed h
  conv => lhs; unfold Signaling.FrameReader.readFrames
  rw [if_pos (hpos.trans hle)]
  have hread := Signaling.FrameReader.readFrame_eq (hpos.trans hle)
  split <;> simp_all [Signaling.FrameReader.seen]

/-- The two readers take the same frames from a buffer and leave the same bytes. -/
theorem frame_readers_agree (buffer : List UInt8)
    (h : ∀ length ∈ declaredLengths buffer, length ≤ MAX_FRAME_PAYLOAD_BYTES) :
    ∃ frames remaining, parseFramesFrom buffer 0 = .ok (frames, remaining) ∧
      Signaling.FrameReader.readFrames buffer = .ok (seen frames, remaining) := by
  rw [parseFramesFrom_eq, List.drop_zero]
  generalize hleft : buffer.length = left
  induction left using Nat.strongRecOn generalizing buffer with
  | ind left ih =>
    have hsafe : MAX_FRAME_PAYLOAD_BYTES ≤ Core.MAX_SAFE_INTEGER := by decide
    obtain ⟨hsame, hok, hlater⟩ := readFrame_declared
      fun length hlength => ⟨h length hlength, (h length hlength).trans hsafe⟩
    cases hread : readFrame MAX_FRAME_PAYLOAD_BYTES buffer with
    | error _ => exact absurd hread hok
    | ok found =>
      cases found with
      | none =>
        exact ⟨[], buffer, parseFrames_none hread, readFrames_none (hsame.symm.trans hread)⟩
      | some found =>
        obtain ⟨frame, consumed⟩ := found
        obtain ⟨hpos, hle⟩ := readFrame_consumed hread
        obtain ⟨frames, remaining, hparse, hserver⟩ :=
          ih (buffer.drop consumed).length (by rw [List.length_drop]; omega) (buffer.drop consumed)
            (fun length hlength => h length (hlater frame consumed hread length hlength)) rfl
        refine ⟨frame :: frames, remaining, ?_, ?_⟩
        · rw [parseFrames_some hread, hparse]
          rfl
        · rw [readFrames_some (hsame.symm.trans hread), hserver]
          rfl

theorem frame_readers_agree_sample :
    ∃ frames remaining, parseFramesFrom [0x81, 1, 104, 0x82, 5, 1] 0 = .ok (frames, remaining) ∧
      Signaling.FrameReader.readFrames [0x81, 1, 104, 0x82, 5, 1] = .ok (seen frames, remaining) :=
  frame_readers_agree [0x81, 1, 104, 0x82, 5, 1] (by decide +kernel)

end PonsWarp.Cli
