import PonsWarp.Core.Manifest
import PonsWarp.Data.Utf8
import PonsWarp.Data.WebSocketFrame

set_option autoImplicit false

/-!
How the signaling server reads its clients. A message that comes in one frame is handed
on; of one that comes in several, what the first of them holds.
-/

namespace PonsWarp.Signaling

open PonsWarp.Data

/-- What the connection does to the socket and calls. -/
inductive ConnectionEvent
  | write (bytes : List UInt8)
  | onText (text : List Char)
  | onClose
  deriving DecidableEq

def ConnectionEvent.text : ConnectionEvent → Option (List Char)
  | .onText text => some text
  | _ => none

def createFrameHeader (length : Nat) (opcode : UInt8) : List UInt8 :=
  (0x80 ||| opcode) :: (lengthBytes length).1 :: (lengthBytes length).2

/-- A header and its payload are a final frame without a mask. -/
theorem createFrameHeader_append (payload : List UInt8) (opcode : UInt8) :
    createFrameHeader payload.length opcode ++ payload =
      (SentFrame.mk ⟨true, opcode, payload⟩ none).encode := by
  simp [createFrameHeader, SentFrame.encode, SentFrame.first, SentFrame.second,
    SentFrame.maskBytes, SentFrame.body]

structure MinimalWebSocketConnection where
  buffer : List UInt8 := []
  closed : Bool := false
  events : List ConnectionEvent := []
  deriving DecidableEq

namespace MinimalWebSocketConnection

def emit (s : MinimalWebSocketConnection) (events : List ConnectionEvent) :
    MinimalWebSocketConnection :=
  { s with events := s.events ++ events }

def send (s : MinimalWebSocketConnection) (data : List Char) : MinimalWebSocketConnection :=
  if s.closed then s
  else
    let payload := utf8Encode data
    s.emit [.write (createFrameHeader payload.length 0x1 ++ payload)]

def close (s : MinimalWebSocketConnection) (code : Nat) (reason : String) :
    MinimalWebSocketConnection :=
  if s.closed then s
  else
    let payload := bigEndian 2 code ++ utf8Encode reason.toList
    { s with closed := true }.emit
      [.write (createFrameHeader payload.length 0x8 ++ payload), .onClose]

/-- What the connection does with a frame that does not close it. -/
def reactions (frame : Frame) : List ConnectionEvent :=
  if frame.opcode = 0x9 then
    [.write (createFrameHeader frame.payload.length 0xa ++ frame.payload)]
  else if frame.opcode = 0x1 then [.onText (utf8Decode frame.payload)]
  else []

/-- The loop of `handleData`: it takes frames from the buffer while they are there whole. -/
def readFrames (s : MinimalWebSocketConnection) : MinimalWebSocketConnection :=
  if s.buffer.length < 2 then s
  else
    match _h : readFrame Core.MAX_SAFE_INTEGER s.buffer with
    | .error _ => s.close 1002 "protocol error"
    | .ok none => s
    | .ok (some (frame, consumed)) =>
      if frame.opcode = 0x8 then
        { s with buffer := s.buffer.drop consumed }.close 1000 "closed"
      else
        readFrames ({ s with buffer := s.buffer.drop consumed }.emit (reactions frame))
termination_by s.buffer.length
decreasing_by
  obtain ⟨hpos, hle⟩ := readFrame_consumed _h
  simp only [emit, List.length_drop]
  omega

def handleData (s : MinimalWebSocketConnection) (chunk : List UInt8) :
    MinimalWebSocketConnection :=
  readFrames { s with buffer := s.buffer ++ chunk }

/-- The texts that `onText` is called with. -/
def texts (s : MinimalWebSocketConnection) : List (List Char) :=
  s.events.filterMap ConnectionEvent.text

variable {s : MinimalWebSocketConnection}

theorem readFrames_none (h : readFrame Core.MAX_SAFE_INTEGER s.buffer = .ok none) :
    s.readFrames = s := by
  unfold readFrames
  split
  · rfl
  · split
    · simp_all
    · rfl
    · simp_all

theorem readFrames_some {frame : Frame} {consumed : Nat} (hopcode : frame.opcode ≠ 0x8)
    (h : readFrame Core.MAX_SAFE_INTEGER s.buffer = .ok (some (frame, consumed))) :
    s.readFrames =
      readFrames ({ s with buffer := s.buffer.drop consumed }.emit (reactions frame)) := by
  have hlong : ¬ s.buffer.length < 2 := by
    obtain ⟨hpos, hle⟩ := readFrame_consumed h
    omega
  conv => lhs; unfold readFrames
  rw [if_neg hlong]
  split
  · simp_all
  · simp_all
  · simp_all

/-- Frames that are there whole are all read, and what is there of the next one is kept. -/
theorem readFrames_flatMap {whole todo : List SentFrame} {part : List UInt8}
    (hlegal : ∀ w ∈ whole ++ todo, w.Legal Core.MAX_SAFE_INTEGER)
    (hopen : ∀ w ∈ whole, w.frame.opcode ≠ 0x8) (hbegins : Begins SentFrame.encode todo part)
    (hbuffer : s.buffer = whole.flatMap SentFrame.encode ++ part) :
    s.readFrames =
      { s with buffer := part }.emit (whole.flatMap fun (w : SentFrame) => reactions w.frame) := by
  induction whole generalizing s with
  | nil =>
    have hpart : s.buffer = part := by simpa using hbuffer
    have htodo : ∀ w ∈ todo, w.Legal Core.MAX_SAFE_INTEGER := fun w hw => hlegal w (by simp [hw])
    rw [readFrames_none (by rw [hpart]; exact readFrame_begins htodo hbegins), ← hpart]
    simp [emit]
  | cons w whole ih =>
    have hfirst : s.buffer = w.encode ++ (whole.flatMap SentFrame.encode ++ part) := by
      rw [hbuffer, List.flatMap_cons, List.append_assoc]
    have hread : readFrame Core.MAX_SAFE_INTEGER s.buffer = .ok (some (w.frame, w.encode.length)) := by
      rw [hfirst]
      exact readFrame_encode (hlegal w (by simp)) _
    have hdrop : s.buffer.drop w.encode.length = whole.flatMap SentFrame.encode ++ part := by
      rw [hfirst, List.drop_left]
    rw [readFrames_some (hopen w (by simp)) hread, hdrop]
    rw [ih (fun w' hw' => hlegal w' (by simp_all)) (fun w' hw' => hopen w' (by simp [hw'])) rfl]
    simp [emit]

/-- However the stream is cut up, all of its frames are read in the end. -/
theorem foldl_handleData {sent : List SentFrame} {chunks : List (List UInt8)}
    (hlegal : ∀ w ∈ sent, w.Legal Core.MAX_SAFE_INTEGER)
    (hopen : ∀ w ∈ sent, w.frame.opcode ≠ 0x8)
    (hchunks : chunks.flatten = sent.flatMap SentFrame.encode) :
    chunks.foldl handleData {} = { events := sent.flatMap fun (w : SentFrame) => reactions w.frame } := by
  refine foldl_parts handleData (fun whole part =>
    ({ buffer := part, events := whole.flatMap fun (w : SentFrame) => reactions w.frame } :
      MinimalWebSocketConnection)) SentFrame.encode_ne_nil hchunks ?_
  intro before chunk after whole todo part whole' todo' part' _ hcut hcut'
  have hitems : sent = whole ++ (whole' ++ todo') := by rw [hcut.items, hcut'.items]
  have hlegal' : ∀ w ∈ whole' ++ todo', w.Legal Core.MAX_SAFE_INTEGER := by
    intro w hw
    exact hlegal w (by rw [hitems]; exact List.mem_append_right _ hw)
  have hopen' : ∀ w ∈ whole', w.frame.opcode ≠ 0x8 := fun w hw => hopen w (by simp [hitems, hw])
  rw [handleData, readFrames_flatMap hlegal' hopen' hcut'.begins hcut'.bytes]
  simp [emit]

theorem reactions_texts (frame : Frame) : (reactions frame).filterMap ConnectionEvent.text =
    if frame.opcode = 0x1 then [utf8Decode frame.payload] else [] := by
  unfold reactions
  split
  · rename_i hping
    simp [hping, ConnectionEvent.text]
  · split <;> simp [ConnectionEvent.text]

/-- Of a text message the first frame is handed on, and the frames that continue it are not. -/
theorem message_texts {m : Message} (h : m.opcode = 0x1) :
    (m.frames.flatMap fun frame => (reactions frame).filterMap ConnectionEvent.text) =
      [utf8Decode m.first] := by
  have hrest : ((Message.continuation m.rest).flatMap fun frame =>
      (reactions frame).filterMap ConnectionEvent.text) = [] := by
    rw [List.flatMap_eq_nil_iff]
    intro frame hframe
    simp [reactions_texts, Message.continuation_opcode hframe]
  rw [Message.frames, List.flatMap_cons, hrest, reactions_texts, if_pos h, List.append_nil]

theorem texts_of_carries {limit : Nat} {sent : List SentFrame} {messages : List Message}
    (h : Carries limit sent messages) (htext : ∀ m ∈ messages, m.opcode = 0x1) :
    (sent.flatMap fun w => (reactions w.frame).filterMap ConnectionEvent.text) =
      messages.map fun m => utf8Decode m.first := by
  have hdata : ∀ frames : List Frame,
      (frames.flatMap fun frame => (reactions frame).filterMap ConnectionEvent.text) =
        (frames.filter Frame.isData).flatMap
          fun frame => (reactions frame).filterMap ConnectionEvent.text := by
    intro frames
    induction frames with
    | nil => rfl
    | cons frame rest ih =>
      by_cases hframe : frame.isData = true
      · simp [hframe, ih]
      · have hopcode : frame.opcode ≠ 0x1 := by
          intro he
          simp [Frame.isData, he] at hframe
        have hnone : (reactions frame).filterMap ConnectionEvent.text = [] := by
          simp [reactions_texts, hopcode]
        simp [hframe, ih, hnone]
  have hsent : (sent.flatMap fun w => (reactions w.frame).filterMap ConnectionEvent.text) =
      (sent.map (·.frame)).flatMap
        fun frame => (reactions frame).filterMap ConnectionEvent.text := by
    rw [List.flatMap_map]
  rw [hsent, hdata, h.data]
  clear hsent hdata h
  induction messages with
  | nil => rfl
  | cons m rest ih =>
    rw [List.flatMap_cons, List.flatMap_append, message_texts (htext m (by simp)),
      ih fun m' hm' => htext m' (by simp [hm'])]
    rfl

/-- The connection calls `onText` with what the first frame of each message says. -/
theorem foldl_handleData_texts {sent : List SentFrame} {messages : List Message}
    {chunks : List (List UInt8)} (h : Carries Core.MAX_SAFE_INTEGER sent messages)
    (htext : ∀ m ∈ messages, m.opcode = 0x1)
    (hchunks : chunks.flatten = sent.flatMap SentFrame.encode) :
    (chunks.foldl handleData {}).texts = messages.map fun m => utf8Decode m.first := by
  have hopen : ∀ w ∈ sent, w.frame.opcode ≠ 0x8 := by
    intro w hw he
    have hcontrol := (h.control w hw (by simp [Frame.isData, he])).1
    rw [he] at hcontrol
    revert hcontrol
    decide
  rw [foldl_handleData h.legal hopen hchunks, texts, List.filterMap_flatMap]
  exact texts_of_carries h htext

end MinimalWebSocketConnection

/-- What comes after the first frame of the message is empty, or only the end of a last character
that is the replacement character. -/
def StartsWhole (m : Message) : Prop :=
  m.rest.flatten = [] ∨
    ∃ before, m.payload = utf8Encode (before ++ [replacement]) ∧
      (utf8Encode before).length < m.first.length

theorem startsWhole_iff {m : Message} {text : List Char} (h : m.payload = utf8Encode text) :
    StartsWhole m ↔ utf8Decode m.first = text := by
  have hinj : ∀ before, m.payload = utf8Encode (before ++ [replacement]) ↔
      text = before ++ [replacement] := by
    intro before
    rw [h]
    constructor
    · intro he
      have hdecode := congrArg utf8Decode he
      simpa [-utf8Encode_append, utf8Decode_utf8Encode] using hdecode
    · rintro rfl
      rfl
  have hparts : m.first ++ m.rest.flatten = utf8Encode text := h
  rw [utf8Decode_eq_iff hparts, StartsWhole]
  simp only [hinj]

open MinimalWebSocketConnection in
/-- The server reads the texts that a client sends, however they are framed and cut up, if and
only if the first frame of each already holds its text. -/
theorem texts_are_whole_iff {sent : List SentFrame} {messages : List Message}
    {texts : List (List Char)} {chunks : List (List UInt8)}
    (hsent : Carries Core.MAX_SAFE_INTEGER sent messages)
    (htext : ∀ m ∈ messages, m.opcode = 0x1)
    (hpayload : messages.map Message.payload = texts.map utf8Encode)
    (hchunks : chunks.flatten = sent.flatMap SentFrame.encode) :
    (chunks.foldl handleData {}).texts = texts ↔ ∀ m ∈ messages, StartsWhole m := by
  rw [foldl_handleData_texts hsent htext hchunks]
  clear hsent htext hchunks
  induction messages generalizing texts with
  | nil =>
    have hnil : texts = [] := by simpa using hpayload.symm
    simp [hnil]
  | cons m rest ih =>
    cases texts with
    | nil => simp at hpayload
    | cons text texts =>
      obtain ⟨hfirst, hrest⟩ := List.cons_eq_cons.1 hpayload
      rw [List.map_cons, List.cons_eq_cons, ih hrest, ← startsWhole_iff hfirst]
      simp

/-- A ping, and the text "ab" in two frames. -/
def sampleFrames : List SentFrame :=
  [⟨⟨true, 0x9, []⟩, some fun _ => 1⟩, ⟨⟨false, 0x1, [0x61]⟩, some fun _ => 7⟩,
    ⟨⟨true, 0x0, [0x62]⟩, some fun _ => 9⟩]

def sampleMessage : Message := ⟨0x1, [0x61], [[0x62]]⟩

theorem sampleFrames_carries : Carries Core.MAX_SAFE_INTEGER sampleFrames [sampleMessage] := by
  have hcases : ∀ w ∈ sampleFrames,
      w = sampleFrames[0] ∨ w = sampleFrames[1] ∨ w = sampleFrames[2] := by
    intro w hw
    simpa [sampleFrames] using hw
  refine ⟨?_, rfl, ?_⟩
  · intro w hw
    rcases hcases w hw with rfl | rfl | rfl
    · exact ⟨by decide, by decide, by decide⟩
    · exact ⟨by decide, by decide, by decide⟩
    · exact ⟨by decide, by decide, by decide⟩
  · intro w hw hcontrol
    rcases hcases w hw with rfl | rfl | rfl
    · exact ⟨by decide, by decide, by decide⟩
    · exact absurd hcontrol (by decide)
    · exact absurd hcontrol (by decide)

open MinimalWebSocketConnection in
theorem texts_are_whole_sample :
    ([sampleFrames.flatMap SentFrame.encode].foldl handleData {}).texts = [['a', 'b']] ↔
      ∀ m ∈ [sampleMessage], StartsWhole m :=
  texts_are_whole_iff sampleFrames_carries (by decide) (by decide) (by simp)

open MinimalWebSocketConnection in
theorem fragmented_text_is_lost :
    Carries Core.MAX_SAFE_INTEGER sampleFrames [sampleMessage] ∧ sampleMessage.opcode = 0x1 ∧
      sampleMessage.payload = utf8Encode ['a', 'b'] ∧
      ([sampleFrames.flatMap SentFrame.encode].foldl handleData {}).texts ≠ [['a', 'b']] := by
  refine ⟨sampleFrames_carries, rfl, by decide, ?_⟩
  rw [foldl_handleData_texts sampleFrames_carries (by decide) (by simp)]
  decide

end PonsWarp.Signaling
