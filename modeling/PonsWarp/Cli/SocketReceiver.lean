import PonsWarp.Data.Splice
import PonsWarp.Data.Utf8
import PonsWarp.Data.WebSocketFrame

set_option autoImplicit false

/-!
How a peer endpoint reads a connection. The buffer for what has not been parsed yet has
room for the largest frame, and a data event that brings more than fits ends the
connection, even where the frame that is completed by it is within the limits.
-/

namespace PonsWarp.Cli

open PonsWarp.Data

def MAX_FRAME_PAYLOAD_BYTES : Nat := 16 * 1024 * 1024
def MAX_RAW_FRAME_OVERHEAD_BYTES : Nat := 14
def MAX_PENDING_RECEIVE_BYTES : Nat := MAX_FRAME_PAYLOAD_BYTES + MAX_RAW_FRAME_OVERHEAD_BYTES

def parseFrames (buffer : List UInt8) : Except String (List Frame × List UInt8) :=
  match _h : readFrame MAX_FRAME_PAYLOAD_BYTES buffer with
  | .error _ => .error "WebSocket frame payload too large"
  | .ok none => .ok ([], buffer)
  | .ok (some (frame, consumed)) => do
    let (frames, remaining) ← parseFrames (buffer.drop consumed)
    return (frame :: frames, remaining)
termination_by buffer.length
decreasing_by
  obtain ⟨hpos, hle⟩ := readFrame_consumed _h
  simp only [List.length_drop]
  omega

/-- What the handlers of messages and of binary frames are called with. -/
inductive Received (J : Type)
  | message (message : J)
  | binary (frame : List UInt8)
  deriving DecidableEq

/-- A connection beside its receive buffer, with what it has handed on and reported. -/
structure Inbox (J : Type) where
  isOpen : Bool := true
  fragmentedOpcode : Option UInt8 := none
  fragmentedPayload : List UInt8 := []
  received : List (Received J) := []
  errors : List String := []

namespace Inbox

variable {J : Type}

def close (s : Inbox J) : Inbox J := { s with isOpen := false }

def reportError (s : Inbox J) (error : String) : Inbox J := { s with errors := s.errors ++ [error] }

/-- `parse` is `JSON.parse`. -/
def dispatchText (parse : List Char → Except String J) (s : Inbox J) (text : List Char) :
    Inbox J :=
  match parse text with
  | .ok message => { s with received := s.received ++ [.message message] }
  | .error error => (s.reportError error).close

def dispatchBinary (s : Inbox J) (frame : List UInt8) : Inbox J :=
  { s with received := s.received ++ [.binary frame] }

def dispatchFrame (parse : List Char → Except String J) (s : Inbox J) (opcode : UInt8)
    (payload : List UInt8) : Inbox J :=
  if opcode = 0x8 then s.close
  else if opcode = 0x1 then s.dispatchText parse (utf8Decode payload)
  else if opcode = 0x2 then s.dispatchBinary payload
  else s

/-- One turn of the loop over the frames, with the error that it throws. -/
def handleFrame (parse : List Char → Except String J) (s : Inbox J) (frame : Frame) :
    Inbox J × Option String :=
  if frame.opcode = 0x0 then
    match s.fragmentedOpcode with
    | none => (s, some "Unexpected WebSocket continuation frame")
    | some opcode =>
      let fragmentedPayload := s.fragmentedPayload ++ frame.payload
      let s' := { s with fragmentedPayload := fragmentedPayload }
      if MAX_FRAME_PAYLOAD_BYTES < fragmentedPayload.length then
        (s', some "WebSocket message payload too large")
      else if frame.fin then
        ({ s'.dispatchFrame parse opcode fragmentedPayload with
          fragmentedOpcode := none, fragmentedPayload := [] }, none)
      else (s', none)
  else if frame.opcode = 0x1 ∨ frame.opcode = 0x2 then
    if s.fragmentedOpcode.isSome then (s, some "WebSocket fragment already in progress")
    else if frame.fin then (s.dispatchFrame parse frame.opcode frame.payload, none)
    else
      ({ s with fragmentedOpcode := some frame.opcode, fragmentedPayload := frame.payload }, none)
  else (s.dispatchFrame parse frame.opcode frame.payload, none)

def handleFrames (parse : List Char → Except String J) : Inbox J → List Frame →
    Inbox J × Option String
  | s, [] => (s, none)
  | s, frame :: rest =>
    match s.handleFrame parse frame with
    | (s', none) => handleFrames parse s' rest
    | (s', some error) => (s', some error)

end Inbox

structure SocketReceiver (J : Type) where
  pending : List UInt8 := []
  inbox : Inbox J := {}

namespace SocketReceiver

variable {J : Type}

/-- The error is reported and ends the connection. -/
def fail (s : SocketReceiver J) (error : String) : SocketReceiver J :=
  ⟨[], (s.inbox.reportError error).close⟩

def parsePending (parse : List Char → Except String J) (s : SocketReceiver J) :
    SocketReceiver J :=
  match parseFrames s.pending with
  | .error error => s.fail error
  | .ok (frames, remaining) =>
    match s.inbox.handleFrames parse frames with
    | (inbox, none) => ⟨remaining, inbox⟩
    | (inbox, some error) => fail ⟨remaining, inbox⟩ error

def onData (parse : List Char → Except String J) (s : SocketReceiver J) (chunk : List UInt8) :
    SocketReceiver J :=
  if MAX_PENDING_RECEIVE_BYTES < s.pending.length ∨
      MAX_PENDING_RECEIVE_BYTES - s.pending.length < chunk.length then
    s.fail "WebSocket receive buffer too large"
  else parsePending parse { s with pending := s.pending ++ chunk }

/-- The connection starts with what came behind the handshake. -/
def acceptSocketConnection (parse : List Char → Except String J) (initialData : List UInt8) :
    SocketReceiver J :=
  if MAX_PENDING_RECEIVE_BYTES < initialData.length then { inbox := { isOpen := false } }
  else if 0 < initialData.length then parsePending parse { pending := initialData }
  else {}

end SocketReceiver

theorem parseFrames_none {buffer : List UInt8}
    (h : readFrame MAX_FRAME_PAYLOAD_BYTES buffer = .ok none) :
    parseFrames buffer = .ok ([], buffer) := by
  unfold parseFrames
  split <;> simp_all

theorem parseFrames_error {buffer : List UInt8}
    (h : readFrame MAX_FRAME_PAYLOAD_BYTES buffer = .error ()) :
    parseFrames buffer = .error "WebSocket frame payload too large" := by
  unfold parseFrames
  split <;> simp_all

theorem parseFrames_some {buffer : List UInt8} {frame : Frame} {consumed : Nat}
    (h : readFrame MAX_FRAME_PAYLOAD_BYTES buffer = .ok (some (frame, consumed))) :
    parseFrames buffer = (do
      let (frames, remaining) ← parseFrames (buffer.drop consumed)
      return (frame :: frames, remaining)) := by
  conv => lhs; unfold parseFrames
  split <;> simp_all

/-- Of a part of a legal stream the frames that are there whole are parsed, and the rest remains. -/
theorem parseFrames_flatMap {whole todo : List SentFrame} {part : List UInt8}
    (hlegal : ∀ w ∈ whole ++ todo, w.Legal MAX_FRAME_PAYLOAD_BYTES)
    (hbegins : Begins SentFrame.encode todo part) :
    parseFrames (whole.flatMap SentFrame.encode ++ part) = .ok (whole.map (·.frame), part) := by
  induction whole with
  | nil =>
    have htodo : ∀ w ∈ todo, w.Legal MAX_FRAME_PAYLOAD_BYTES := fun w hw => hlegal w (by simp [hw])
    rw [List.flatMap_nil, List.nil_append, parseFrames_none (readFrame_begins htodo hbegins)]
    rfl
  | cons w whole ih =>
    have hread := readFrame_encode (hlegal w (by simp)) (whole.flatMap SentFrame.encode ++ part)
    rw [List.flatMap_cons, List.append_assoc, parseFrames_some hread, List.drop_left,
      ih fun w' hw' => hlegal w' (by simp_all)]
    rfl

/-- A message within the limit and what the handlers are to be called with for it. -/
inductive Delivers {J : Type} (parse : List Char → Except String J) : Message → Received J → Prop
  | text {m : Message} {message : J} (opcode : m.opcode = 0x1)
      (size : m.payload.length ≤ MAX_FRAME_PAYLOAD_BYTES)
      (parsed : parse (utf8Decode m.payload) = .ok message) : Delivers parse m (.message message)
  | binary {m : Message} (opcode : m.opcode = 0x2)
      (size : m.payload.length ≤ MAX_FRAME_PAYLOAD_BYTES) : Delivers parse m (.binary m.payload)

variable {J : Type} {parse : List Char → Except String J}

theorem Delivers.opcode {m : Message} {r : Received J} (h : Delivers parse m r) :
    m.opcode = 0x1 ∨ m.opcode = 0x2 := by
  cases h with
  | text opcode => exact .inl opcode
  | binary opcode => exact .inr opcode

theorem Delivers.size {m : Message} {r : Received J} (h : Delivers parse m r) :
    m.payload.length ≤ MAX_FRAME_PAYLOAD_BYTES := by
  cases h with
  | text _ size => exact size
  | binary _ size => exact size

namespace Inbox

variable {s s' : Inbox J}

theorem dispatchFrame_delivers {m : Message} {r : Received J} (h : Delivers parse m r)
    (s : Inbox J) : s.dispatchFrame parse m.opcode m.payload =
      { s with received := s.received ++ [r] } := by
  cases h with
  | text opcode _ parsed => simp [dispatchFrame, opcode, dispatchText, parsed]
  | binary opcode => simp [dispatchFrame, opcode, dispatchBinary]

theorem handleFrames_append {before after : List Frame}
    (h : handleFrames parse s before = (s', none)) :
    handleFrames parse s (before ++ after) = handleFrames parse s' after := by
  induction before generalizing s with
  | nil =>
    have hs : s = s' := by simpa [handleFrames] using h
    rw [hs, List.nil_append]
  | cons frame rest ih =>
    rw [List.cons_append, handleFrames]
    rw [handleFrames] at h
    cases hframe : s.handleFrame parse frame with
    | mk next error =>
      cases error with
      | none =>
        rw [hframe] at h
        exact ih h
      | some error => simp [hframe] at h

/-- Frames that are handled without an error are so up to any of them. -/
theorem handleFrames_begun {before after : List Frame} {last : Inbox J}
    (h : handleFrames parse s (before ++ after) = (last, none)) :
    ∃ s', handleFrames parse s before = (s', none) ∧ handleFrames parse s' after = (last, none) := by
  induction before generalizing s with
  | nil => exact ⟨s, rfl, h⟩
  | cons frame rest ih =>
    rw [List.cons_append, handleFrames] at h
    cases hframe : s.handleFrame parse frame with
    | mk next error =>
      cases error with
      | none =>
        rw [hframe] at h
        obtain ⟨s', hrest, hafter⟩ := ih h
        exact ⟨s', by simp only [handleFrames, hframe, hrest], hafter⟩
      | some error => simp [hframe] at h

theorem dispatchFrame_closed (h : s.isOpen = false) (opcode : UInt8) (payload : List UInt8) :
    (s.dispatchFrame parse opcode payload).isOpen = false := by
  unfold dispatchFrame
  split
  · rfl
  · split
    · unfold dispatchText
      split
      · exact h
      · rfl
    · split
      · exact h
      · exact h

theorem handleFrame_closed (h : s.isOpen = false) (frame : Frame) :
    (s.handleFrame parse frame).1.isOpen = false := by
  unfold handleFrame
  split
  · split
    · exact h
    · simp only
      split
      · exact h
      · split
        · have hclosed : ({ s with fragmentedPayload := s.fragmentedPayload ++ frame.payload } :
              Inbox J).isOpen = false := h
          exact dispatchFrame_closed hclosed _ _
        · exact h
  · split
    · split
      · exact h
      · split
        · exact dispatchFrame_closed h _ _
        · exact h
    · exact dispatchFrame_closed h _ _

/-- A connection that is closed stays so. -/
theorem handleFrames_closed (h : s.isOpen = false) (frames : List Frame) :
    (s.handleFrames parse frames).1.isOpen = false := by
  induction frames generalizing s with
  | nil => exact h
  | cons frame rest ih =>
    have hframe : (s.handleFrame parse frame).1.isOpen = false := handleFrame_closed h frame
    unfold handleFrames
    split
    · rename_i hstep
      rw [hstep] at hframe
      exact ih hframe
    · rename_i hstep
      rw [hstep] at hframe
      exact hframe

theorem handleFrame_control {frame : Frame} (h : frame.opcode = 0x9 ∨ frame.opcode = 0xa) :
    s.handleFrame parse frame = (s, none) := by
  rcases h with h | h
  · simp [handleFrame, dispatchFrame, h]
  · simp [handleFrame, dispatchFrame, h]

/-- Pings and pongs make no difference. -/
theorem handleFrames_filter {frames : List Frame}
    (h : ∀ frame ∈ frames, frame.isData = false → frame.opcode = 0x9 ∨ frame.opcode = 0xa) :
    s.handleFrames parse frames = s.handleFrames parse (frames.filter Frame.isData) := by
  induction frames generalizing s with
  | nil => rfl
  | cons frame rest ih =>
    have hrest : ∀ s' : Inbox J, s'.handleFrames parse rest =
        s'.handleFrames parse (rest.filter Frame.isData) := by
      intro s'
      exact ih fun frame' hframe' => h frame' (by simp [hframe'])
    cases hdata : frame.isData with
    | false =>
      have hcontrol := h frame (by simp) hdata
      simp only [List.filter_cons, hdata, handleFrames, handleFrame_control hcontrol, hrest]
      rfl
    | true => simp only [List.filter_cons, hdata, if_true, handleFrames, hrest]

/-- The frames that continue a message complete it. -/
theorem handleFrames_continuation {m : Message} {r : Received J} (hm : Delivers parse m r)
    {parts : List (List UInt8)} (hparts : parts ≠ [])
    (hopcode : s.fragmentedOpcode = some m.opcode)
    (hpayload : s.fragmentedPayload ++ parts.flatten = m.payload) :
    s.handleFrames parse (Message.continuation parts) =
      ({ s with fragmentedOpcode := none, fragmentedPayload := [],
                received := s.received ++ [r] }, none) := by
  induction parts generalizing s with
  | nil => exact absurd rfl hparts
  | cons part rest ih =>
    have hsmall : ¬ MAX_FRAME_PAYLOAD_BYTES < (s.fragmentedPayload ++ part).length := by
      have hsize := hm.size
      rw [← hpayload, List.flatten_cons, ← List.append_assoc, List.length_append] at hsize
      omega
    by_cases hlast : rest = []
    · have hall : s.fragmentedPayload ++ part = m.payload := by simpa [hlast] using hpayload
      rw [hall] at hsmall
      simp only [Message.continuation, hlast, List.isEmpty_nil, handleFrames, handleFrame, if_true,
        hopcode, hall, if_neg hsmall, dispatchFrame_delivers hm]
    · have hmore : rest.isEmpty = false := by simpa using hlast
      have hstep : s.handleFrame parse ⟨rest.isEmpty, 0, part⟩ =
          ({ s with fragmentedPayload := s.fragmentedPayload ++ part }, none) := by
        simp only [handleFrame, hopcode, if_true, if_neg hsmall, hmore]
        rfl
      have hjoined : s.fragmentedPayload ++ part ++ rest.flatten = m.payload := by
        simpa using hpayload
      rw [Message.continuation, handleFrames, hstep]
      exact ih (s := { s with fragmentedPayload := s.fragmentedPayload ++ part }) hlast hopcode hjoined

/-- A message is handed on whole, however it is fragmented. -/
theorem handleFrames_message {m : Message} {r : Received J} (hm : Delivers parse m r)
    (hopcode : s.fragmentedOpcode = none) (hpayload : s.fragmentedPayload = []) :
    s.handleFrames parse m.frames = ({ s with received := s.received ++ [r] }, none) := by
  have hne : m.opcode ≠ 0x0 := by
    rcases hm.opcode with h | h
    · rw [h]
      decide
    · rw [h]
      decide
  by_cases hrest : m.rest = []
  · have hall : m.first = m.payload := by simp [Message.payload, hrest]
    have hdispatch := dispatchFrame_delivers hm s
    simp [Message.frames, hrest, Message.continuation, handleFrames, handleFrame, hne, hm.opcode,
      hopcode, hall, hdispatch]
  · have hmore : m.rest.isEmpty = false := by simpa using hrest
    have hstep : s.handleFrame parse ⟨m.rest.isEmpty, m.opcode, m.first⟩ =
        ({ s with fragmentedOpcode := some m.opcode, fragmentedPayload := m.first }, none) := by
      simp [handleFrame, hne, hm.opcode, hopcode, hmore]
    rw [Message.frames, handleFrames, hstep]
    simp only
    rw [handleFrames_continuation hm hrest rfl rfl]
    simp only [← hopcode, ← hpayload]

theorem handleFrames_messages {messages : List Message} {received : List (Received J)}
    (hm : List.Forall₂ (Delivers parse) messages received) (hopcode : s.fragmentedOpcode = none)
    (hpayload : s.fragmentedPayload = []) :
    s.handleFrames parse (messages.flatMap Message.frames) =
      ({ s with received := s.received ++ received }, none) := by
  induction hm generalizing s with
  | nil => simp [handleFrames]
  | cons hfirst _ ih =>
    rename_i m r _ _ _
    have hnext := ih (s := { s with received := s.received ++ [r] }) hopcode hpayload
    rw [List.flatMap_cons, handleFrames_append (handleFrames_message hfirst hopcode hpayload), hnext]
    simp

/-- The frames of legal traffic are handled without an error, and give its messages. -/
theorem handleFrames_carries {sent : List SentFrame} {messages : List Message}
    {received : List (Received J)} (hsent : Carries MAX_FRAME_PAYLOAD_BYTES sent messages)
    (hm : List.Forall₂ (Delivers parse) messages received) :
    handleFrames parse {} (sent.map (·.frame)) = ({ received := received }, none) := by
  have hcontrol : ∀ frame ∈ sent.map (·.frame), frame.isData = false →
      frame.opcode = 0x9 ∨ frame.opcode = 0xa := by
    intro frame hframe hdata
    obtain ⟨w, hw, rfl⟩ := List.mem_map.1 hframe
    exact (hsent.control w hw hdata).1
  rw [handleFrames_filter hcontrol, hsent.data, handleFrames_messages hm rfl rfl]
  rfl

end Inbox

namespace SocketReceiver

variable {s : SocketReceiver J} {sent : List SentFrame} {chunk : List UInt8}

/-- The connection when some frames have arrived whole, and of the next one a part. -/
def reached (parse : List Char → Except String J) (whole : List SentFrame) (part : List UInt8) :
    SocketReceiver J :=
  ⟨part, (({} : Inbox J).handleFrames parse (whole.map (·.frame))).1⟩

theorem onData_fits {bytes : List UInt8} {last : Inbox J} {whole todo whole' todo' : List SentFrame}
    {part part' : List UInt8} (hlegal : ∀ w ∈ sent, w.Legal MAX_FRAME_PAYLOAD_BYTES)
    (hall : Inbox.handleFrames parse {} (sent.map (·.frame)) = (last, none))
    (hcut : Cut SentFrame.encode sent bytes whole todo part)
    (hcut' : Cut SentFrame.encode todo (part ++ chunk) whole' todo' part')
    (hfits : part.length + chunk.length ≤ MAX_PENDING_RECEIVE_BYTES) :
    onData parse (reached parse whole part) chunk = reached parse (whole ++ whole') part' := by
  have hitems : sent = (whole ++ whole') ++ todo' := by
    rw [hcut.items, hcut'.items, List.append_assoc]
  have hlegal' : ∀ w ∈ whole' ++ todo', w.Legal MAX_FRAME_PAYLOAD_BYTES := by
    intro w hw
    exact hlegal w (by rw [hitems, List.append_assoc]; exact List.mem_append_right _ hw)
  rw [hitems, List.map_append, List.map_append] at hall
  obtain ⟨inbox, hboth, -⟩ := Inbox.handleFrames_begun hall
  obtain ⟨before, hbefore, hafter⟩ := Inbox.handleFrames_begun hboth
  have hroom : ¬ (MAX_PENDING_RECEIVE_BYTES < (reached parse whole part).pending.length ∨
      MAX_PENDING_RECEIVE_BYTES - (reached parse whole part).pending.length < chunk.length) := by
    simp only [reached]
    omega
  rw [onData, if_neg hroom]
  simp only [reached, hbefore, parsePending, hcut'.bytes, parseFrames_flatMap hlegal' hcut'.begins,
    hafter, List.map_append, hboth]

theorem onData_overflow (h : MAX_PENDING_RECEIVE_BYTES < s.pending.length + chunk.length) :
    (onData parse s chunk).inbox.isOpen = false := by
  rw [onData, if_pos (by omega)]
  rfl

theorem onData_closed (h : s.inbox.isOpen = false) (chunk : List UInt8) :
    (onData parse s chunk).inbox.isOpen = false := by
  unfold onData
  split
  · rfl
  · unfold parsePending
    split
    · rfl
    · rename_i frames remaining _
      have hframes : (s.inbox.handleFrames parse frames).1.isOpen = false :=
        Inbox.handleFrames_closed h frames
      split
      · rename_i hhandled
        rw [hhandled] at hframes
        exact hframes
      · rfl

theorem foldl_onData_closed (h : s.inbox.isOpen = false) (chunks : List (List UInt8)) :
    (chunks.foldl (onData parse) s).inbox.isOpen = false := by
  induction chunks generalizing s with
  | nil => exact h
  | cons chunk rest ih => exact ih (onData_closed h chunk)

/-- What comes behind the handshake is read as a first data event. -/
theorem acceptSocketConnection_eq {initialData : List UInt8}
    (h : initialData.length ≤ MAX_PENDING_RECEIVE_BYTES) :
    acceptSocketConnection parse initialData = onData parse {} initialData := by
  have hroom : ¬ (MAX_PENDING_RECEIVE_BYTES < ([] : List UInt8).length ∨
      MAX_PENDING_RECEIVE_BYTES - ([] : List UInt8).length < initialData.length) := by
    simp only [List.length_nil]
    omega
  rw [acceptSocketConnection, if_neg (by omega), onData, if_neg hroom]
  cases initialData with
  | nil =>
    have hnone : readFrame MAX_FRAME_PAYLOAD_BYTES [] = .ok none := rfl
    simp [parsePending, parseFrames_none hnone, Inbox.handleFrames]
  | cons b rest => simp

/-- All that a connection receives, from the data behind the handshake on. -/
def receive (parse : List Char → Except String J) (initialData : List UInt8)
    (chunks : List (List UInt8)) : SocketReceiver J :=
  chunks.foldl (onData parse) (acceptSocketConnection parse initialData)

end SocketReceiver

/-- At every data event the buffer has room for what it brings, together with what is there of the
frame that it continues, the frames having these sizes. -/
def HasRoom (sizes : List Nat) (events : List (List UInt8)) : Prop :=
  ∀ before chunk after, events = before ++ chunk :: after →
    unfinished sizes before.flatten.length + chunk.length ≤ MAX_PENDING_RECEIVE_BYTES

namespace SocketReceiver

variable {sent : List SentFrame} {messages : List Message} {received : List (Received J)}
  {initialData : List UInt8} {chunks : List (List UInt8)}

theorem receive_of_hasRoom (hsent : Carries MAX_FRAME_PAYLOAD_BYTES sent messages)
    (hm : List.Forall₂ (Delivers parse) messages received)
    (hchunks : (initialData :: chunks).flatten = sent.flatMap SentFrame.encode)
    (hroom : HasRoom (sent.map fun w => w.encode.length) (initialData :: chunks)) :
    receive parse initialData chunks = { inbox := { received := received } } := by
  have hall := Inbox.handleFrames_carries hsent hm
  have hinitial : initialData.length ≤ MAX_PENDING_RECEIVE_BYTES := by
    have hfirst := hroom [] initialData chunks rfl
    omega
  have hrun := foldl_parts (onData parse) (reached parse) SentFrame.encode_ne_nil hchunks ?_
  · rw [receive, acceptSocketConnection_eq hinitial]
    have hstart : reached parse [] [] = ({} : SocketReceiver J) := rfl
    rw [hstart, List.foldl_cons] at hrun
    rw [hrun, reached, hall]
  · intro before chunk after whole todo part whole' todo' part' hsplit hcut hcut'
    have hfits := hroom before chunk after hsplit
    rw [← hcut.length_part] at hfits
    exact onData_fits hsent.legal hall hcut hcut' hfits

theorem hasRoom_of_isOpen (hsent : Carries MAX_FRAME_PAYLOAD_BYTES sent messages)
    (hm : List.Forall₂ (Delivers parse) messages received)
    (hchunks : (initialData :: chunks).flatten = sent.flatMap SentFrame.encode)
    (hopen : (receive parse initialData chunks).inbox.isOpen = true) :
    HasRoom (sent.map fun w => w.encode.length) (initialData :: chunks) := by
  have hall := Inbox.handleFrames_carries hsent hm
  have hinitial : initialData.length ≤ MAX_PENDING_RECEIVE_BYTES := by
    by_contra hlong
    have hclosed : (acceptSocketConnection parse initialData).inbox.isOpen = false := by
      rw [acceptSocketConnection, if_pos (by omega)]
    rw [receive, foldl_onData_closed hclosed] at hopen
    cases hopen
  have hrun : receive parse initialData chunks =
      (initialData :: chunks).foldl (onData parse) (reached parse [] []) := by
    rw [receive, acceptSocketConnection_eq hinitial]
    rfl
  rw [hrun] at hopen
  generalize initialData :: chunks = events at *
  intro before
  induction h : before.length using Nat.strongRecOn generalizing before with
  | ind n ih =>
    intro chunk after hsplit
    -- the events before this one had room, so it finds the connection where the stream is
    have hprefix : before.flatten <+: sent.flatMap SentFrame.encode := by
      rw [← hchunks, hsplit, List.flatten_append]
      exact List.prefix_append _ _
    obtain ⟨whole, todo, part, hcut, hstate⟩ :=
      exists_foldl_parts (onData parse) (reached parse) SentFrame.encode_ne_nil hprefix (by
        intro before' chunk' after' whole todo part whole' todo' part' hsplit' hcut hcut'
        have hfits := ih before'.length (by rw [← h, hsplit']; simp) before' rfl chunk'
          (after' ++ chunk :: after) (by rw [hsplit, hsplit']; simp)
        rw [← hcut.length_part] at hfits
        exact onData_fits hsent.legal hall hcut hcut' hfits)
    rw [← hcut.length_part]
    by_contra hover
    have hclosed : (onData parse (reached parse whole part) chunk).inbox.isOpen = false :=
      onData_overflow (by simp only [reached]; omega)
    rw [hsplit, List.foldl_append, hstate, List.foldl_cons, foldl_onData_closed hclosed] at hopen
    cases hopen

end SocketReceiver

open SocketReceiver in
/-- Legal traffic is delivered whole, and the connection stays open, if and only if the buffer has
room at every data event. -/
theorem legal_traffic_is_delivered_iff {sent : List SentFrame} {messages : List Message}
    {received : List (Received J)} {initialData : List UInt8} {chunks : List (List UInt8)}
    (hsent : Carries MAX_FRAME_PAYLOAD_BYTES sent messages)
    (hm : List.Forall₂ (Delivers parse) messages received)
    (hchunks : (initialData :: chunks).flatten = sent.flatMap SentFrame.encode) :
    ((receive parse initialData chunks).inbox.received = received ∧
      (receive parse initialData chunks).inbox.isOpen = true) ↔
      HasRoom (sent.map fun w => w.encode.length) (initialData :: chunks) := by
  constructor
  · rintro ⟨-, hopen⟩
    exact hasRoom_of_isOpen hsent hm hchunks hopen
  · intro hroom
    rw [receive_of_hasRoom hsent hm hchunks hroom]
    exact ⟨rfl, rfl⟩

/-- The text "12" in two frames with a ping between them. -/
def sampleText : List SentFrame :=
  [⟨⟨false, 0x1, [0x31]⟩, some fun _ => 7⟩, ⟨⟨true, 0x9, []⟩, some fun _ => 1⟩,
    ⟨⟨true, 0x0, [0x32]⟩, some fun _ => 9⟩]

def sampleParse (text : List Char) : Except String Nat :=
  if text = ['1', '2'] then .ok 12 else .error "Unexpected token"

theorem sampleText_carries :
    Carries MAX_FRAME_PAYLOAD_BYTES sampleText [⟨0x1, [0x31], [[0x32]]⟩] := by
  have hcases : ∀ w ∈ sampleText, w = sampleText[0] ∨ w = sampleText[1] ∨ w = sampleText[2] := by
    intro w hw
    simpa [sampleText] using hw
  refine ⟨?_, rfl, ?_⟩
  · intro w hw
    rcases hcases w hw with rfl | rfl | rfl
    · exact ⟨by decide, by decide, by decide⟩
    · exact ⟨by decide, by decide, by decide⟩
    · exact ⟨by decide, by decide, by decide⟩
  · intro w hw hdata
    rcases hcases w hw with rfl | rfl | rfl
    · exact absurd hdata (by decide)
    · exact ⟨by decide, by decide, by decide⟩
    · exact absurd hdata (by decide)

open SocketReceiver in
theorem legal_traffic_is_delivered_sample :
    ((receive sampleParse [] [sampleText.flatMap SentFrame.encode]).inbox.received =
        [.message 12] ∧
      (receive sampleParse [] [sampleText.flatMap SentFrame.encode]).inbox.isOpen = true) ↔
      HasRoom (sampleText.map fun w => w.encode.length)
        ([] :: [sampleText.flatMap SentFrame.encode]) :=
  legal_traffic_is_delivered_iff sampleText_carries
    (.cons (.text rfl (by decide) (by decide)) .nil) (by simp)

/-- A final binary frame as a client sends it. -/
def binaryFrame (payload : List UInt8) : SentFrame := ⟨⟨true, 0x2, payload⟩, some fun _ => 7⟩

theorem carries_binaryFrames {payloads : List (List UInt8)}
    (h : ∀ payload ∈ payloads, payload.length ≤ MAX_FRAME_PAYLOAD_BYTES) :
    Carries MAX_FRAME_PAYLOAD_BYTES (payloads.map binaryFrame)
      (payloads.map fun payload => ⟨0x2, payload, []⟩) := by
  refine ⟨?_, ?_, ?_⟩
  · intro w hw
    obtain ⟨payload, hpayload, rfl⟩ := List.mem_map.1 hw
    exact ⟨by simp [binaryFrame], h payload hpayload, by decide⟩
  · induction payloads with
    | nil => rfl
    | cons payload rest ih =>
      have hrest := ih fun p hp => h p (by simp [hp])
      rw [List.map_cons, List.map_cons, List.filter_cons, if_pos (by rfl), hrest]
      rfl
  · intro w hw hdata
    obtain ⟨payload, -, rfl⟩ := List.mem_map.1 hw
    simp [binaryFrame, Frame.isData] at hdata

theorem delivers_binary {payloads : List (List UInt8)}
    (h : ∀ payload ∈ payloads, payload.length ≤ MAX_FRAME_PAYLOAD_BYTES) :
    List.Forall₂ (Delivers parse) (payloads.map fun payload => ⟨0x2, payload, []⟩)
      (payloads.map Received.binary) := by
  induction payloads with
  | nil => exact .nil
  | cons payload rest ih =>
    have hfirst : Message.payload ⟨0x2, payload, []⟩ = payload := by simp [Message.payload]
    have hdelivers : Delivers parse ⟨0x2, payload, []⟩ (.binary (Message.payload ⟨0x2, payload, []⟩)) :=
      .binary rfl (by rw [hfirst]; exact h payload (by simp))
    rw [hfirst] at hdelivers
    exact .cons hdelivers (ih fun p hp => h p (by simp [hp]))

/-- Data events of 64 KiB, and one for the rest. -/
def cutUp (stream : List UInt8) (count : Nat) : List (List UInt8) :=
  (List.range count).map fun i => excerpt stream (i * 65536) 65536

theorem length_binaryFrame (payload : List UInt8) : (binaryFrame payload).encode.length =
    6 + (lengthBytes payload.length).2.length + payload.length := by
  rw [SentFrame.length_encode]
  simp only [binaryFrame, Option.isSome_some, if_true]
  omega

/-- A frame of the largest size and a small one behind it. -/
def samplePayloads : List (List UInt8) :=
  [List.replicate MAX_FRAME_PAYLOAD_BYTES 0, List.replicate 100 0]

def sampleStream : List UInt8 := (samplePayloads.map binaryFrame).flatMap SentFrame.encode

theorem samplePayloads_small :
    ∀ payload ∈ samplePayloads, payload.length ≤ MAX_FRAME_PAYLOAD_BYTES := by
  intro payload hpayload
  have hcases : payload = List.replicate MAX_FRAME_PAYLOAD_BYTES 0 ∨
      payload = List.replicate 100 0 := by
    simpa [samplePayloads] using hpayload
  rcases hcases with rfl | rfl
  · rw [List.length_replicate]
  · rw [List.length_replicate]
    decide

theorem samplePayloads_sizes :
    (samplePayloads.map binaryFrame).map (fun w => w.encode.length) = [16777230, 106] := by
  have hlarge : (lengthBytes MAX_FRAME_PAYLOAD_BYTES).2.length = 8 := by
    rw [lengthBytes, if_neg (by decide), if_neg (by decide), length_bigEndian]
  have hsmall : (lengthBytes 100).2.length = 0 := by decide
  simp only [samplePayloads, List.map_cons, List.map_nil, length_binaryFrame,
    List.length_replicate, hlarge, hsmall]
  rfl

theorem length_sampleStream : sampleStream.length = 16777336 := by
  rw [sampleStream, List.length_flatMap, samplePayloads_sizes]
  rfl

/-- The small frame begins in the data event that ends the large one. -/
theorem legal_traffic_is_cut_off :
    Carries MAX_FRAME_PAYLOAD_BYTES (samplePayloads.map binaryFrame)
        (samplePayloads.map fun payload => ⟨0x2, payload, []⟩) ∧
      List.Forall₂ (Delivers fun _ => Except.ok ())
        (samplePayloads.map fun payload => ⟨0x2, payload, []⟩)
        (samplePayloads.map Received.binary) ∧
      (∀ chunk ∈ cutUp sampleStream 257, chunk.length ≤ 64 * 1024) ∧
      (cutUp sampleStream 257).flatten = sampleStream ∧
      (SocketReceiver.receive (fun _ => Except.ok ()) [] (cutUp sampleStream 257)).inbox.isOpen =
        false := by
  have hcarries := carries_binaryFrames samplePayloads_small
  have hdelivers : List.Forall₂ (Delivers fun _ => Except.ok ())
      (samplePayloads.map fun payload => ⟨0x2, payload, []⟩)
      (samplePayloads.map Received.binary) := delivers_binary samplePayloads_small
  have hflatten : (cutUp sampleStream 257).flatten = sampleStream := by
    rw [cutUp, flatten_excerpts, List.take_of_length_le (by rw [length_sampleStream]; decide)]
  refine ⟨hcarries, hdelivers, ?_, hflatten, ?_⟩
  · intro chunk hchunk
    obtain ⟨i, -, rfl⟩ := List.mem_map.1 hchunk
    rw [length_excerpt]
    omega
  · by_contra hopen
    have hroom := SocketReceiver.hasRoom_of_isOpen hcarries hdelivers
      (by rw [List.flatten_cons, List.nil_append, hflatten, sampleStream]) (by simpa using hopen)
    have hsplit : [] :: cutUp sampleStream 257 =
        ([] :: cutUp sampleStream 256) ++ excerpt sampleStream (256 * 65536) 65536 :: [] := by
      simp [cutUp, List.range_succ (n := 256)]
    have hbefore : ([] :: cutUp sampleStream 256).flatten.length = 16777216 := by
      rw [List.flatten_cons, List.nil_append, cutUp, flatten_excerpts, List.length_take,
        length_sampleStream]
      rfl
    have hover := hroom _ _ _ hsplit
    rw [hbefore, samplePayloads_sizes, length_excerpt, length_sampleStream] at hover
    revert hover
    decide

end PonsWarp.Cli
