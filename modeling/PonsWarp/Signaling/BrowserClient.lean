import Mathlib.Data.List.Basic
import Mathlib.Data.List.GetD

set_option autoImplicit false

/-!
`BrowserSignalingClient`: the sockets it has created, with the listeners it has on them,
the reconnects that wait for their timers, and the handlers of failed reconnects that have
still to run. Everything between two awaits is one step.
-/

namespace PonsWarp.Signaling

inductive SignalingConnectionState where
  | idle | connecting | open | reconnecting | closing | closed | failed
  deriving DecidableEq, Repr

inductive ReadyState where
  | connecting | open | closing | closed
  deriving DecidableEq, Repr

/-- A socket, with what the promise of `openSocket` has for it. -/
structure ClientSocket where
  readyState : ReadyState
  /-- An error event was fired. -/
  failed : Bool
  opened : Bool
  openListener : Bool
  errorListener : Bool
  closeListener : Bool
  /-- `scheduleReconnect` awaits the promise. -/
  awaited : Bool
  deriving DecidableEq, Repr

namespace ClientSocket

def new (awaited : Bool) : ClientSocket := ⟨.connecting, false, false, true, true, true, awaited⟩

/-- Neither closed nor failed. -/
def live (s : ClientSocket) : Bool :=
  (s.readyState = .connecting || s.readyState = .open) && !s.failed

def close (s : ClientSocket) : ClientSocket :=
  if s.readyState = .closed then s else { s with readyState := .closing }

end ClientSocket

structure BrowserSignalingClient where
  state : SignalingConnectionState
  reconnectAttempt : Nat
  reconnectDelaysMs : List Nat
  sockets : List ClientSocket
  socket : Option Nat
  client : Option Nat
  /-- The delays of the reconnects that wait for their timers. -/
  sleeping : List (Option Nat)
  /-- The promises that `scheduleReconnect` awaits, rejected and not yet handled. -/
  rejected : Nat
  deriving DecidableEq, Repr

namespace BrowserSignalingClient

def new (reconnectDelaysMs : List Nat) : BrowserSignalingClient :=
  ⟨.idle, 0, reconnectDelaysMs, [], none, none, [], 0⟩

def modifySocket (c : BrowserSignalingClient) (i : Nat) (f : ClientSocket → ClientSocket) :
    BrowserSignalingClient :=
  { c with sockets := c.sockets.modify i f }

section modifySocket

variable (c : BrowserSignalingClient) (i : Nat) (f : ClientSocket → ClientSocket)

@[simp] theorem modifySocket_state : (c.modifySocket i f).state = c.state := rfl
@[simp] theorem modifySocket_socket : (c.modifySocket i f).socket = c.socket := rfl
@[simp] theorem modifySocket_sleeping : (c.modifySocket i f).sleeping = c.sleeping := rfl
@[simp] theorem modifySocket_rejected : (c.modifySocket i f).rejected = c.rejected := rfl

@[simp] theorem length_modifySocket : (c.modifySocket i f).sockets.length = c.sockets.length := by
  simp [modifySocket]

end modifySocket

def onOpen (c : BrowserSignalingClient) (i : Nat) : BrowserSignalingClient :=
  { c.modifySocket i fun s => { s with opened := true, openListener := false, errorListener := false }
    with reconnectAttempt := 0, state := .open }

def scheduleReconnect (c : BrowserSignalingClient) : BrowserSignalingClient :=
  let delay := c.reconnectDelaysMs[min c.reconnectAttempt (c.reconnectDelaysMs.length - 1)]?
  { c with
    client := none
    reconnectAttempt := c.reconnectAttempt + 1
    state := .reconnecting
    sleeping := c.sleeping ++ [delay] }

def onError (c : BrowserSignalingClient) (i : Nat) (s : ClientSocket) : BrowserSignalingClient :=
  let c := c.modifySocket i fun s => { s with openListener := false, errorListener := false }
  if s.opened then c
  else
    let c := c.modifySocket i fun s => { s with closeListener := false }
    { c with
      state := .failed
      rejected := if s.awaited then c.rejected + 1 else c.rejected }

def onClose (c : BrowserSignalingClient) (i : Nat) : BrowserSignalingClient :=
  let c := c.modifySocket i fun s =>
    { s with openListener := false, errorListener := false, closeListener := false }
  if c.state = .closing ∨ c.state = .closed then c else c.scheduleReconnect

/-- `ready` when the factory returns a socket that is open already. -/
def openSocket (c : BrowserSignalingClient) (openingState : SignalingConnectionState)
    (ready awaited : Bool) : BrowserSignalingClient :=
  let i := c.sockets.length
  let s := ClientSocket.new awaited
  let s := if ready then { s with readyState := .open } else s
  let c := { c with
    state := openingState
    sockets := c.sockets ++ [s]
    socket := some i
    client := some i }
  if ready then c.onOpen i else c

def connect (c : BrowserSignalingClient) (ready : Bool) : BrowserSignalingClient :=
  if c.state = .open ∨ c.state = .connecting then c
  else
    c.openSocket
      (if c.state = .failed ∨ c.state = .closed then .reconnecting else .connecting) ready false

def close (c : BrowserSignalingClient) : BrowserSignalingClient :=
  let c := match c.socket with
    | some i => c.modifySocket i ClientSocket.close
    | none => c
  { c with client := none, socket := none, state := .closed }

inductive Action where
  | connect (ready : Bool)
  | close
  | openEvent (i : Nat)
  | errorEvent (i : Nat)
  | closeEvent (i : Nat)
  /-- The timer of a sleeping reconnect. -/
  | timer (k : Nat) (ready : Bool)
  /-- The handler of a rejected promise. -/
  | caught
  deriving DecidableEq, Repr

/-- A socket fires `open` once, while it is connecting, and nothing after its `close`. -/
def step (c : BrowserSignalingClient) : Action → BrowserSignalingClient
  | .connect ready => c.connect ready
  | .close => c.close
  | .openEvent i =>
    match c.sockets[i]? with
    | none => c
    | some s =>
      if s.readyState = .connecting ∧ s.failed = false then
        let c := c.modifySocket i fun s => { s with readyState := .open }
        if s.openListener then c.onOpen i else c
      else c
  | .errorEvent i =>
    match c.sockets[i]? with
    | none => c
    | some s =>
      if s.readyState = .closed then c
      else
        let c := c.modifySocket i fun s => { s with failed := true }
        if s.errorListener then c.onError i s else c
  | .closeEvent i =>
    match c.sockets[i]? with
    | none => c
    | some s =>
      if s.readyState = .closed then c
      else
        let c := c.modifySocket i fun s => { s with readyState := .closed }
        if s.closeListener then c.onClose i else c
  | .timer k ready =>
    if k < c.sleeping.length then
      { c with sleeping := c.sleeping.eraseIdx k }.openSocket .reconnecting ready true
    else c
  | .caught =>
    if c.rejected = 0 then c
    else
      let c := { c with rejected := c.rejected - 1 }
      if c.state ≠ .closed ∧ c.state ≠ .closing then c.scheduleReconnect else c

end BrowserSignalingClient

end PonsWarp.Signaling
