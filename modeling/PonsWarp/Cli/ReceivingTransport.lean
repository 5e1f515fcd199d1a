import PonsWarp.Cli.OutboundQueue

set_option autoImplicit false

/-!
The receiving side of the transport beside its table of connections. What a connection
makes of its bytes is its own affair; when it has to close, it asks for the connection
that the table has under its peer id.
-/

namespace PonsWarp.Cli

open PonsWarp.Data

/-- What a data event makes a connection do: call the handlers, or end. `failed` is an error that
is thrown out of the loop over the frames. -/
inductive Reaction (J : Type)
  | delivered (received : Received J)
  | closeFrame
  | malformed (error : String)
  | failed (error : String)
  deriving DecidableEq

def Reaction.isFault {J : Type} : Reaction J → Bool
  | .delivered _ => false
  | _ => true

/-- The variables of a raw connection that its listener for data works on. -/
structure Reader where
  pending : List UInt8 := []
  fragmentedOpcode : Option UInt8 := none
  fragmentedPayload : List UInt8 := []
  deriving DecidableEq

namespace Reader

variable {J : Type}

def dispatchText (parse : List Char → Except String J) (text : List Char) : Reaction J :=
  match parse text with
  | .ok message => .delivered (.message message)
  | .error error => .malformed error

def dispatchFrame (parse : List Char → Except String J) (opcode : UInt8) (payload : List UInt8) :
    List (Reaction J) :=
  if opcode = 0x8 then [.closeFrame]
  else if opcode = 0x1 then [dispatchText parse (utf8Decode payload)]
  else if opcode = 0x2 then [.delivered (.binary payload)]
  else []

/-- One turn of the loop over the frames, with what it does or the error that it throws. -/
def handleFrame (parse : List Char → Except String J) (r : Reader) (frame : Frame) :
    Reader × Except String (List (Reaction J)) :=
  if frame.opcode = 0x0 then
    match r.fragmentedOpcode with
    | none => (r, .error "Unexpected WebSocket continuation frame")
    | some opcode =>
      let fragmentedPayload := r.fragmentedPayload ++ frame.payload
      let r' := { r with fragmentedPayload := fragmentedPayload }
      if MAX_FRAME_PAYLOAD_BYTES < fragmentedPayload.length then
        (r', .error "WebSocket message payload too large")
      else if frame.fin then
        ({ r with fragmentedOpcode := none, fragmentedPayload := [] },
          .ok (dispatchFrame parse opcode fragmentedPayload))
      else (r', .ok [])
  else if frame.opcode = 0x1 ∨ frame.opcode = 0x2 then
    if r.fragmentedOpcode.isSome then (r, .error "WebSocket fragment already in progress")
    else if frame.fin then (r, .ok (dispatchFrame parse frame.opcode frame.payload))
    else
      ({ r with fragmentedOpcode := some frame.opcode, fragmentedPayload := frame.payload },
        .ok [])
  else (r, .ok (dispatchFrame parse frame.opcode frame.payload))

/-- The loop, with the `catch` around it. -/
def handleFrames (parse : List Char → Except String J) :
    Reader → List Frame → Reader × List (Reaction J)
  | r, [] => (r, [])
  | r, frame :: rest =>
    match r.handleFrame parse frame with
    | (r', .error error) => ({ r' with pending := [] }, [.failed error])
    | (r', .ok reactions) =>
      let (last, more) := handleFrames parse r' rest
      (last, reactions ++ more)

def parsePending (parse : List Char → Except String J) (r : Reader) : Reader × List (Reaction J) :=
  match parseFrames r.pending with
  | .error error => ({ r with pending := [] }, [.failed error])
  | .ok (frames, remaining) => handleFrames parse { r with pending := remaining } frames

def onData (parse : List Char → Except String J) (r : Reader) (chunk : List UInt8) :
    Reader × List (Reaction J) :=
  if MAX_PENDING_RECEIVE_BYTES < r.pending.length ∨
      MAX_PENDING_RECEIVE_BYTES - r.pending.length < chunk.length then
    ({ r with pending := [] }, [.failed "WebSocket receive buffer too large"])
  else parsePending parse { r with pending := r.pending ++ chunk }

def begin (parse : List Char → Except String J) (initialData : List UInt8) :
    Reader × List (Reaction J) :=
  if 0 < initialData.length then parsePending parse { pending := initialData } else ({}, [])

end Reader

/-- The transport, the variables of its raw connections, and for each connection, by its place
among those made, what it did. -/
structure ReceivingTransport (J : Type) where
  transport : NodeWebSocketTransport := {}
  readers : Nat → Reader := fun _ => {}
  log : List (Nat × Reaction J) := []

inductive ReceiveAction
  | transport (action : TransportAction)
  | accept (sender : String) (initialData : List UInt8)
  | data (connection : Nat) (chunk : List UInt8)
  | message (connection : Nat) (data : Payload)
  deriving DecidableEq

namespace ReceivingTransport

variable {J : Type}

def happened (e : ReceivingTransport J) (i : Nat) : List (Reaction J) :=
  (e.log.filter (·.1 = i)).map (·.2)

/-- `close` is asked for by the peer id, and not for the connection. -/
def react (i : Nat) (peerId : String) (e : ReceivingTransport J) (reaction : Reaction J) :
    ReceivingTransport J :=
  let e := { e with log := e.log ++ [(i, reaction)] }
  match reaction with
  | .delivered _ => e
  | .closeFrame => { e with transport := e.transport.close (some peerId) }
  | .malformed error | .failed error =>
    { e with transport := (e.transport.reportError peerId error).close (some peerId) }

def reactAll (i : Nat) (peerId : String) (e : ReceivingTransport J) (reactions : List (Reaction J)) :
    ReceivingTransport J :=
  reactions.foldl (react i peerId) e

def setReader (e : ReceivingTransport J) (i : Nat) (r : Reader) : ReceivingTransport J :=
  { e with readers := fun j => if j = i then r else e.readers j }

/-- `acceptSocketConnection`, which the two handshakes call with a peer id that is not empty. -/
def acceptSocketConnection (parse : List Char → Except String J) (e : ReceivingTransport J)
    (sender : String) (initialData : List UInt8) : ReceivingTransport J :=
  if sender = "" ∨ MAX_PENDING_RECEIVE_BYTES < initialData.length then e
  else
    let i := e.transport.made.length
    let (r, reactions) := Reader.begin parse initialData
    ({ e with transport := e.transport.step (.accept sender) }.setReader i r).reactAll i sender
      reactions

/-- A raw connection has data as long as its socket is not destroyed. -/
def onData (parse : List Char → Except String J) (e : ReceivingTransport J) (i : Nat)
    (chunk : List UInt8) : ReceivingTransport J :=
  match e.transport.made[i]? with
  | some { kind := .socket, peerId := peerId, live := true, .. } =>
    let (r, reactions) := (e.readers i).onData parse chunk
    (e.setReader i r).reactAll i peerId reactions
  | _ => e

/-- What `handleWebSocketMessage` does. -/
def messageReaction (parse : List Char → Except String J) : Payload → Reaction J
  | .text s => Reader.dispatchText parse s
  | .binary frame => .delivered (.binary frame)

/-- A `WebSocket` has messages as long as it is open. -/
def handleWebSocketMessage (parse : List Char → Except String J) (e : ReceivingTransport J) (i : Nat)
    (data : Payload) : ReceivingTransport J :=
  match e.transport.made[i]? with
  | some { kind := .websocket, peerId := peerId, live := true, .. } =>
    e.react i peerId (messageReaction parse data)
  | _ => e

def step (parse : List Char → Except String J) (e : ReceivingTransport J) :
    ReceiveAction → ReceivingTransport J
  | .transport (.accept sender) => e.acceptSocketConnection parse sender []
  | .transport action => { e with transport := e.transport.step action }
  | .accept sender initialData => e.acceptSocketConnection parse sender initialData
  | .data i chunk => e.onData parse i chunk
  | .message i data => e.handleWebSocketMessage parse i data

variable {parse : List Char → Except String J} {e : ReceivingTransport J} {i : Nat} {c : PeerConnection}

theorem onData_raw (hc : e.transport.made[i]? = some c) (hkind : c.kind = .socket)
    (hlive : c.live = true) (chunk : List UInt8) :
    e.onData parse i chunk = (e.setReader i ((e.readers i).onData parse chunk).1).reactAll i c.peerId
      ((e.readers i).onData parse chunk).2 := by
  cases c
  cases hkind
  cases hlive
  simp only [onData, hc]

theorem onData_other (h : ∀ c : PeerConnection, e.transport.made[i]? = some c → c.kind = .socket →
    c.live = false) (chunk : List UInt8) : e.onData parse i chunk = e := by
  unfold onData
  split
  · rename_i hc
    exact absurd (h _ hc rfl) (by simp)
  · rfl

theorem handleWebSocketMessage_open (hc : e.transport.made[i]? = some c)
    (hkind : c.kind = .websocket) (hlive : c.live = true) (data : Payload) :
    e.handleWebSocketMessage parse i data = e.react i c.peerId (messageReaction parse data) := by
  cases c
  cases hkind
  cases hlive
  simp only [handleWebSocketMessage, hc]

theorem handleWebSocketMessage_other (h : ∀ c : PeerConnection, e.transport.made[i]? = some c →
    c.kind = .websocket → c.live = false) (data : Payload) :
    e.handleWebSocketMessage parse i data = e := by
  unfold handleWebSocketMessage
  split
  · rename_i hc
    exact absurd (h _ hc rfl) (by simp)
  · rfl

/-- An action of the transport that is not the acceptance of a connection is one here too. -/
theorem step_transport {action : TransportAction} (h : ∀ sender, action ≠ .accept sender) :
    e.step parse (.transport action) = { e with transport := e.transport.step action } := by
  cases action with
  | accept sender => exact absurd rfl (h sender)
  | _ => rfl

end ReceivingTransport

/-! ### One connection by itself -/

section

variable {J : Type} {parse : List Char → Except String J}

/-- What a reaction comes to for a connection that closes when it asks for it. -/
def Reaction.apply (s : Inbox J) : Reaction J → Inbox J
  | .delivered received => { s with received := s.received ++ [received] }
  | .closeFrame => s.close
  | .malformed error | .failed error => (s.reportError error).close

namespace Reader

def inbox (r : Reader) (s : Inbox J) : Inbox J :=
  { s with fragmentedOpcode := r.fragmentedOpcode, fragmentedPayload := r.fragmentedPayload }

def receiver (r : Reader) (s : Inbox J) : SocketReceiver J := ⟨r.pending, r.inbox s⟩

variable {r r' : Reader} {s : Inbox J}

theorem inbox_dispatchFrame (parse : List Char → Except String J) (opcode : UInt8) (payload : List UInt8) :
    (r.inbox s).dispatchFrame parse opcode payload =
      r.inbox ((dispatchFrame parse opcode payload).foldl Reaction.apply s) := by
  unfold Inbox.dispatchFrame dispatchFrame
  split
  · rfl
  · split
    · simp only [Inbox.dispatchText, dispatchText, List.foldl_cons, List.foldl_nil]
      cases parse (utf8Decode payload) with
      | ok message => rfl
      | error error => rfl
    · split <;> rfl

theorem inbox_handleFrame (parse : List Char → Except String J) (frame : Frame) :
    (r.inbox s).handleFrame parse frame =
      match r.handleFrame parse frame with
      | (r', .error error) => (r'.inbox s, some error)
      | (r', .ok reactions) => (r'.inbox (reactions.foldl Reaction.apply s), none) := by
  have hopcode : (r.inbox s).fragmentedOpcode = r.fragmentedOpcode := rfl
  have hpayload : (r.inbox s).fragmentedPayload = r.fragmentedPayload := rfl
  unfold Inbox.handleFrame handleFrame
  rw [hopcode, hpayload]
  by_cases hcontinued : frame.opcode = 0x0
  · simp only [hcontinued, if_true]
    cases r.fragmentedOpcode with
    | none => rfl
    | some opcode =>
      simp only
      split
      · rfl
      · split
        · have hdispatch := inbox_dispatchFrame parse (s := s) (r := { r with
            fragmentedOpcode := some opcode
            fragmentedPayload := r.fragmentedPayload ++ frame.payload }) opcode
              (r.fragmentedPayload ++ frame.payload)
          exact congrArg (fun s' : Inbox J => ({ s' with
            fragmentedOpcode := none, fragmentedPayload := [] }, (none : Option String))) hdispatch
        · rfl
  · simp only [hcontinued, if_false]
    split
    · split
      · rfl
      · split
        · rw [inbox_dispatchFrame]
        · rfl
    · rw [inbox_dispatchFrame]

/-- The loop over the frames, with the `catch` around it. -/
theorem inbox_handleFrames (frames : List Frame) :
    (match (r.inbox s).handleFrames parse frames with
      | (s', none) => ⟨r.pending, s'⟩
      | (s', some error) => SocketReceiver.fail ⟨r.pending, s'⟩ error) =
    (r.handleFrames parse frames).1.receiver
      ((r.handleFrames parse frames).2.foldl Reaction.apply s) := by
  induction frames generalizing r s with
  | nil => rfl
  | cons frame rest ih =>
    have hpending : (r.handleFrame parse frame).1.pending = r.pending := by
      unfold handleFrame
      split
      · split
        · rfl
        · simp only
          split
          · rfl
          · split <;> rfl
      · split
        · split
          · rfl
          · split <;> rfl
        · rfl
    have hframe := inbox_handleFrame parse (r := r) (s := s) frame
    rw [Inbox.handleFrames, hframe]
    unfold handleFrames
    cases hstep : r.handleFrame parse frame with
    | mk r' result =>
      rw [hstep] at hpending
      cases result with
      | error error =>
        simp only [List.foldl_cons, List.foldl_nil]
        rfl
      | ok reactions =>
        simp only [List.foldl_append]
        rw [← ih, ← hpending]

theorem receiver_parsePending :
    (r.receiver s).parsePending parse =
      (r.parsePending parse).1.receiver ((r.parsePending parse).2.foldl Reaction.apply s) := by
  have hpending : (r.receiver s).pending = r.pending := rfl
  unfold SocketReceiver.parsePending parsePending
  rw [hpending]
  cases parseFrames r.pending with
  | error error => rfl
  | ok parsed => exact inbox_handleFrames (r := { r with pending := parsed.2 }) parsed.1

/-- Reading is what it was, with the closing taken out of it. -/
theorem receiver_onData (chunk : List UInt8) :
    (r.receiver s).onData parse chunk =
      (r.onData parse chunk).1.receiver ((r.onData parse chunk).2.foldl Reaction.apply s) := by
  have hpending : (r.receiver s).pending = r.pending := rfl
  unfold SocketReceiver.onData onData
  rw [hpending]
  split
  · rfl
  · exact receiver_parsePending (r := { r with pending := r.pending ++ chunk })

end Reader

end

end PonsWarp.Cli
