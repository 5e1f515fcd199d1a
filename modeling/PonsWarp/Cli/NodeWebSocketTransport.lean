import Mathlib.Data.List.Basic
import PonsWarp.Cli.SocketReceiver
import PonsWarp.Data.OrderedMap

set_option autoImplicit false

/-!
The sending side of the transport between two nodes. A call of `send` is charged to the
connection of its peer and waits its turn in the `writeQueue` of that connection; its
charge is released when its promise is settled, or with all others when the connection
closes. What the sockets do is left open: each action is one step of the event loop.
-/

namespace PonsWarp.Cli

open PonsWarp.Data

def MAX_OUTBOUND_QUEUE_BYTES : Nat := MAX_FRAME_PAYLOAD_BYTES + MAX_RAW_FRAME_OVERHEAD_BYTES

def encodeFrame (opcode : UInt8) (payload : List UInt8) : List UInt8 :=
  let length := payload.length
  let header :=
    if length < 126 then [0x80 ||| opcode, UInt8.ofNat length]
    else if length ≤ 0xffff then [0x80 ||| opcode, 126] ++ bigEndian 2 length
    else [0x80 ||| opcode, 127] ++ bigEndian 8 length
  header ++ payload

/-- The text of a message, or the bytes of a frame. -/
inductive Payload
  | text (s : List Char)
  | binary (frame : List UInt8)
  deriving DecidableEq

def Payload.bytes : Payload → List UInt8
  | .text s => utf8Encode s
  | .binary frame => frame

def Payload.opcode : Payload → UInt8
  | .text _ => 0x1
  | .binary _ => 0x2

inductive ConnectionKind
  | socket
  | websocket
  deriving DecidableEq

/-- What is given to `socket.write` or to the `send` of a `WebSocket`. -/
inductive Outgoing
  | frame (bytes : List UInt8)
  | payload (payload : Payload)
  deriving DecidableEq

def Payload.outgoing : ConnectionKind → Payload → Outgoing
  | .socket, payload => .frame (encodeFrame payload.opcode payload.bytes)
  | .websocket, payload => .payload payload

/-- What a send adds to `queuedBytes`. -/
def Payload.charge : ConnectionKind → Payload → Nat
  | .socket, payload => (encodeFrame payload.opcode payload.bytes).length
  | .websocket, payload => payload.bytes.length + MAX_RAW_FRAME_OVERHEAD_BYTES

/-- The promise `write` of a send. -/
inductive Write
  | queued
  | writing
  | settled (failure : Option String)
  deriving DecidableEq

/-- A send that was accepted. `released` is the flag of the reservation that a `WebSocket` has;
`releases` counts how often the charge was taken off `queuedBytes`. -/
structure OutboundSend where
  payload : Payload
  bytes : Nat
  write : Write := .queued
  handed : Bool := false
  released : Bool := false
  releases : Nat := 0
  finished : Bool := false
  deriving DecidableEq

def OutboundSend.IsSettled (s : OutboundSend) : Prop := ∃ failure, s.write = .settled failure

instance (s : OutboundSend) : Decidable s.IsSettled :=
  match h : s.write with
  | .queued => isFalse fun ⟨_, hs⟩ => by rw [h] at hs; cases hs
  | .writing => isFalse fun ⟨_, hs⟩ => by rw [h] at hs; cases hs
  | .settled failure => isTrue ⟨failure, h⟩

/-- `live` says that a socket is not destroyed, or that a `WebSocket` has `readyState` OPEN. The
calls that wait in `writeQueue` are the sends that are not settled, `wire` is what reached the
socket. -/
structure PeerConnection where
  kind : ConnectionKind
  peerId : String
  isOpen : Bool := true
  live : Bool := true
  queuedBytes : Int := 0
  sends : List OutboundSend := []
  pendingSends : List Nat := []
  wire : List Outgoing := []
  deriving DecidableEq

/-- What the socket makes of a write. -/
inductive Answer
  | taken
  | full
  | broken
  | thrown (error : String)
  deriving DecidableEq

namespace PeerConnection

def isConnectionOpen (c : PeerConnection) : Bool :=
  match c.kind with
  | .socket => c.isOpen && c.live
  | .websocket => c.live

def tooLarge (c : PeerConnection) (payload : Payload) : Bool :=
  match c.kind with
  | .socket => MAX_OUTBOUND_QUEUE_BYTES < payload.charge .socket
  | .websocket => MAX_FRAME_PAYLOAD_BYTES < payload.bytes.length

/-- The send is charged and put in the queue, unless there is no room for it. -/
def enqueue (c : PeerConnection) (payload : Payload) : PeerConnection × Option String :=
  let bytes := payload.charge c.kind
  if c.tooLarge payload ∨ MAX_OUTBOUND_QUEUE_BYTES < c.queuedBytes + bytes then
    (c, some "WebSocket outbound queue too large")
  else
    ({ c with
      queuedBytes := c.queuedBytes + bytes
      sends := c.sends ++ [{ payload := payload, bytes := bytes }]
      pendingSends := match c.kind with
        | .socket => c.pendingSends
        | .websocket => c.pendingSends ++ [c.sends.length] }, none)

def settle (c : PeerConnection) (i : Nat) (s : OutboundSend) (failure : Option String) :
    PeerConnection :=
  { c with sends := c.sends.set i { s with write := .settled failure } }

/-- The payload goes to the socket. -/
def hand (c : PeerConnection) (i : Nat) (s : OutboundSend) (write : Write) : PeerConnection :=
  { c with
    sends := c.sends.set i { s with write := write, handed := true }
    wire := c.wire ++ [s.payload.outgoing c.kind] }

/-- The job that a send has put in `writeQueue`, once the jobs before it are done. -/
def runWrite (c : PeerConnection) (i : Nat) (answer : Answer) : PeerConnection :=
  match c.sends[i]? with
  | none => c
  | some s =>
    if s.write = .queued ∧ ∀ earlier ∈ c.sends.take i, earlier.IsSettled then
      match c.kind with
      | .websocket =>
        if c.isConnectionOpen then
          match answer with
          | .thrown error => c.settle i s (some error)
          | _ => c.hand i s (.settled none)
        else c.settle i s (some "Peer WebSocket is not connected")
      | .socket =>
        if c.isConnectionOpen then
          match answer with
          | .taken => c.hand i s (.settled none)
          | .full => c.hand i s .writing
          | .broken =>
            { c.hand i s (.settled (some "Peer socket closed while writing")) with live := false }
          | .thrown error => c.settle i s (some error)
        else c.settle i s (some "Peer socket is not connected")
    else c

/-- The write that waits for its socket is answered. -/
def answerWriting (c : PeerConnection) (failure : Option String) : PeerConnection :=
  { c with sends := c.sends.map fun s =>
      if s.write = .writing then { s with write := .settled failure } else s }

def releaseWebSocketSend (c : PeerConnection) (i : Nat) : PeerConnection :=
  match c.sends[i]? with
  | none => c
  | some s =>
    if s.released then c
    else
      { c with
        sends := c.sends.set i { s with released := true, releases := s.releases + 1 }
        pendingSends := c.pendingSends.erase i
        queuedBytes := c.queuedBytes - s.bytes }

def releaseWebSocketQueue (c : PeerConnection) : PeerConnection :=
  c.pendingSends.foldl releaseWebSocketSend c

def markOver (c : PeerConnection) (i : Nat) : PeerConnection :=
  { c with sends := c.sends.modify i fun s => { s with finished := true } }

/-- The `finally` of `sendRaw`, after which the promise of the caller is settled. -/
def finishSend (c : PeerConnection) (i : Nat) : PeerConnection :=
  match c.sends[i]? with
  | none => c
  | some s =>
    if s.IsSettled ∧ s.finished = false then
      match c.kind with
      | .websocket => (c.releaseWebSocketSend i).markOver i
      | .socket =>
        { c with
          sends := c.sends.set i { s with releases := s.releases + 1, finished := true }
          queuedBytes := c.queuedBytes - s.bytes }
    else c

def closeConnection (c : PeerConnection) : PeerConnection :=
  match c.kind with
  | .socket => { c with isOpen := false, live := false }
  | .websocket => { c.releaseWebSocketQueue with live := false }

/-- The listeners of a connection for the event 'close', and that of a write that waits. -/
def onClose (c : PeerConnection) : PeerConnection :=
  match c.kind with
  | .socket => { c with isOpen := false, live := false }.answerWriting
      (some "Peer socket closed while writing")
  | .websocket => { c with live := false }.releaseWebSocketQueue

/-- The listeners of a raw socket for the event 'error'. -/
def onError (c : PeerConnection) (error : String) : PeerConnection :=
  { c with isOpen := false }.answerWriting (some error)

end PeerConnection

/-- The connections that were ever made, those in the table by their place among them, and the
errors that the handlers were told. -/
structure NodeWebSocketTransport where
  made : List PeerConnection := []
  connections : OrderedMap String Nat := .empty
  errors : List (String × String) := []

inductive TransportAction
  | connect (peerId : String)
  | accept (sender : String)
  | send (peerId : String) (payload : Payload)
  | close (peerId : Option String)
  | run (connection send : Nat) (answer : Answer)
  | finish (connection send : Nat)
  | drainEvent (connection : Nat)
  | errorEvent (connection : Nat) (error : String)
  | closeEvent (connection : Nat)
  | lose (connection : Nat)
  deriving DecidableEq

namespace NodeWebSocketTransport

def add (t : NodeWebSocketTransport) (c : PeerConnection) : NodeWebSocketTransport :=
  { t with made := t.made ++ [c], connections := t.connections.set c.peerId t.made.length }

def update (t : NodeWebSocketTransport) (i : Nat) (f : PeerConnection → PeerConnection) :
    NodeWebSocketTransport :=
  { t with made := t.made.modify i f }

def reportError (t : NodeWebSocketTransport) (peerId error : String) : NodeWebSocketTransport :=
  { t with errors := t.errors ++ [(peerId, error)] }

/-- Take a connection out of the table, unless another one has its place. -/
def forget (t : NodeWebSocketTransport) (i : Nat) : NodeWebSocketTransport :=
  match t.made[i]? with
  | none => t
  | some c =>
    if t.connections.get? c.peerId = some i then
      { t with connections := t.connections.delete c.peerId }
    else t

/-- `sendRaw` up to its first `await`, with the error that it throws there. -/
def sendRaw (t : NodeWebSocketTransport) (peerId : String) (payload : Payload) :
    NodeWebSocketTransport × Option String :=
  match t.connections.get? peerId with
  | none => (t, some ("Peer " ++ peerId ++ " is not connected"))
  | some i =>
    match t.made[i]? with
    | none => (t, some ("Peer " ++ peerId ++ " is not connected"))
    | some c =>
      if c.isConnectionOpen then
        match c.enqueue payload with
        | (_, some error) => (t.reportError peerId error, some error)
        | (c', none) => (t.update i fun _ => c', none)
      else (t, some ("Peer " ++ peerId ++ " is not connected"))

def close (t : NodeWebSocketTransport) (peerId : Option String) : NodeWebSocketTransport :=
  match peerId.filter (· ≠ "") with
  | some peerId =>
    match t.connections.get? peerId with
    | none => t
    | some i =>
      { t.update i (·.closeConnection) with connections := t.connections.delete peerId }
  | none =>
    { t.connections.values.foldl (fun t i => t.update i (·.closeConnection)) t with
      connections := .empty }

/-- `sendRaw` after its `await write`. -/
def finish (t : NodeWebSocketTransport) (i j : Nat) : NodeWebSocketTransport :=
  match t.made[i]? with
  | none => t
  | some c =>
    match c.sends[j]? with
    | some { write := .settled (some error), finished := false, .. } =>
      match c.kind with
      | .websocket => (t.reportError c.peerId error).update i (·.finishSend j)
      | .socket =>
        ((t.reportError c.peerId error).close (some c.peerId)).update i (·.finishSend j)
    | _ => t.update i (·.finishSend j)

def onError (t : NodeWebSocketTransport) (i : Nat) (error : String) : NodeWebSocketTransport :=
  match t.made[i]? with
  | some { kind := .socket, peerId := peerId, .. } =>
    ((t.update i (·.onError error)).reportError peerId error).forget i
  | _ => t

def step (t : NodeWebSocketTransport) : TransportAction → NodeWebSocketTransport
  | .connect peerId => t.add { kind := .websocket, peerId := peerId }
  | .accept sender => t.add { kind := .socket, peerId := sender }
  | .send peerId payload => (t.sendRaw peerId payload).1
  | .close peerId => t.close peerId
  | .run i j answer => t.update i (·.runWrite j answer)
  | .finish i j => t.finish i j
  | .drainEvent i => t.update i (·.answerWriting none)
  | .errorEvent i error => t.onError i error
  | .closeEvent i => (t.update i (·.onClose)).forget i
  | .lose i => t.update i fun c => { c with live := false }

end NodeWebSocketTransport

end PonsWarp.Cli
