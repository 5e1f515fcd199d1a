import PonsWarp.Core.Manifest

set_option autoImplicit false

/-!
A data channel with a send queue: the calls that fill it, the pump that hands one payload
after the other to the channel and waits while the channel has too much buffered, and the
events that give up what is queued.
-/

namespace PonsWarp.Webrtc

open PonsWarp.Core

def MIN_PENDING_SEND_BYTES : Nat := 256 * 1024

structure FlowControlProfile where
  highWaterMark : Number
  lowWaterMark : Number

inductive RTCDataChannelState
  | connecting | open | closing | closed
  deriving DecidableEq

/-- Why a send is rejected. `closed`, `errored` and `disposed` are what the drain was waited for
when it happened. -/
inductive SendError
  | exceeded (capacity : Number)
  | notOpen (state : RTCDataChannelState)
  | closed
  | errored
  | disposed
  | thrown (error : String)

/-- A call of `sendText` or `sendBinary`; `id` is the promise that it returned. -/
structure PendingSend (P : Type) where
  id : Nat
  payload : P
  bytes : Nat

/-- Where `drainSendQueue` is suspended, with a send that it has taken from the queue. In
`announcing` the handlers of `watermark` run, in `waiting` there is a drain waiter. -/
inductive Suspended
  | announcing
  | waiting
  | drained
  | refused (error : SendError)
  | writable
  | failed (error : SendError)

structure Pump (P : Type) where
  pending : PendingSend P
  suspended : Suspended

/-- A pump that has a drain waiter is told how the wait ends. -/
def Pump.answer {P : Type} (pump : Pump P) (x : Suspended) : Pump P :=
  match pump.suspended with
  | .waiting => { pump with suspended := x }
  | _ => pump

@[simp] theorem Pump.answer_pending {P : Type} (pump : Pump P) (x : Suspended) :
    (pump.answer x).pending = pump.pending := by
  unfold answer
  split <;> rfl

/-- A call of `channel.send`, with what was buffered when it was made. -/
structure Handed (P : Type) where
  send : PendingSend P
  bufferedAmount : Nat
  threw : Bool

structure DataChannelWrapper (P : Type) where
  flowControl : FlowControlProfile
  readyState : RTCDataChannelState
  bufferedAmount : Nat
  listening : Bool := true
  pendingSends : List (PendingSend P) := []
  pendingSendBytes : Number := 0
  pumpingSends : Bool := false
  watermarkBlocked : Bool := false
  pumps : List (Pump P) := []
  calls : List (PendingSend P) := []
  handed : List (Handed P) := []
  fulfilled : List Nat := []
  rejected : List (Nat × SendError) := []

namespace DataChannelWrapper

variable {P : Type}

def ensureOpen (w : DataChannelWrapper P) : Except SendError Unit :=
  if w.readyState = .open then .ok () else .error (.notOpen w.readyState)

/-- The part of `waitForWritable` before it suspends. -/
def waitForWritable (w : DataChannelWrapper P) : Suspended :=
  match w.ensureOpen with
  | .error error => .failed error
  | .ok () =>
    if (w.bufferedAmount : Number) < w.flowControl.highWaterMark then .writable else .announcing

/-- The head of the loop of `drainSendQueue`. It ends when the queue is empty. -/
def takeNext (w : DataChannelWrapper P) : DataChannelWrapper P :=
  match w.pendingSends with
  | [] => { w with pumpingSends := false }
  | pending :: rest =>
    let suspended := w.waitForWritable
    { w with
      pendingSends := rest
      watermarkBlocked := match suspended with
        | .announcing => true
        | _ => w.watermarkBlocked
      pumps := w.pumps ++ [⟨pending, suspended⟩] }

def pumpSends (w : DataChannelWrapper P) : DataChannelWrapper P :=
  if w.pumpingSends then w else takeNext { w with pumpingSends := true }

def capacity (w : DataChannelWrapper P) : Number :=
  max w.flowControl.highWaterMark (MIN_PENDING_SEND_BYTES : Number)

def reject (w : DataChannelWrapper P) (id : Nat) (error : SendError) : DataChannelWrapper P :=
  { w with rejected := w.rejected ++ [(id, error)] }

def enqueueSend (w : DataChannelWrapper P) (payload : P) (bytes : Nat) : DataChannelWrapper P :=
  let send : PendingSend P := ⟨w.calls.length, payload, bytes⟩
  let called := { w with calls := w.calls ++ [send] }
  if w.capacity < (bytes : Number) ∨ w.capacity < w.pendingSendBytes + bytes then
    called.reject send.id (.exceeded w.capacity)
  else
    pumpSends { called with
      pendingSendBytes := w.pendingSendBytes + bytes
      pendingSends := w.pendingSends ++ [send] }

/-- What a handler of `watermark` or `channel.send` does: whether it throws, and what the channel
has buffered then. -/
structure Outcome where
  threw : Option String
  bufferedAmount : Nat

def suspend (w : DataChannelWrapper P) (i : Nat) (pump : Pump P) (suspended : Suspended) :
    DataChannelWrapper P :=
  { w with pumps := w.pumps.set i ⟨pump.pending, suspended⟩ }

/-- The end of a turn of the loop of `drainSendQueue`, and the head of the next one. -/
def finish (w : DataChannelWrapper P) (i : Nat) (pump : Pump P) : DataChannelWrapper P :=
  takeNext { w with
    pendingSendBytes := w.pendingSendBytes - pump.pending.bytes
    pumps := w.pumps.eraseIdx i }

/-- The pump goes on until it is suspended again. -/
def resume (w : DataChannelWrapper P) (i : Nat) (o : Outcome) : DataChannelWrapper P :=
  match w.pumps[i]? with
  | none => w
  | some pump =>
    match pump.suspended with
    | .announcing =>
      match o.threw with
      | none => w.suspend i pump .waiting
      | some error => w.suspend i pump (.failed (.thrown error))
    | .waiting => w
    | .drained =>
      match w.ensureOpen with
      | .ok () => w.suspend i pump .writable
      | .error error => w.suspend i pump (.failed error)
    | .refused error => w.suspend i pump (.failed error)
    | .writable =>
      let call : Handed P := ⟨pump.pending, w.bufferedAmount, o.threw.isSome⟩
      let sent := { w with handed := w.handed ++ [call], bufferedAmount := o.bufferedAmount }
      match o.threw with
      | none => { sent with fulfilled := w.fulfilled ++ [pump.pending.id] }.finish i pump
      | some error => (sent.reject pump.pending.id (.thrown error)).finish i pump
    | .failed error => (w.reject pump.pending.id error).finish i pump

/-- What is done to each drain waiter. -/
def eachWaiter (w : DataChannelWrapper P) (x : Suspended) : DataChannelWrapper P :=
  { w with pumps := w.pumps.map fun pump => pump.answer x }

def rejectDrainWaiters (w : DataChannelWrapper P) (error : SendError) : DataChannelWrapper P :=
  w.eachWaiter (.refused error)

def rejectPendingSends (w : DataChannelWrapper P) (error : SendError) : DataChannelWrapper P :=
  { w with
    pendingSends := []
    pendingSendBytes := w.pendingSendBytes - (w.pendingSends.map (·.bytes)).sum
    rejected := w.rejected ++ w.pendingSends.map fun item => (item.id, error) }

def handleClose (w : DataChannelWrapper P) : DataChannelWrapper P :=
  (w.rejectDrainWaiters .closed).rejectPendingSends .closed

def handleError (w : DataChannelWrapper P) : DataChannelWrapper P :=
  (w.rejectDrainWaiters .errored).rejectPendingSends .errored

/-- What `resolveIfWritable` makes of a drain waiter. -/
def resolveIfWritable (w : DataChannelWrapper P) : Suspended :=
  if w.readyState ≠ .open then .refused .closed
  else if (w.bufferedAmount : Number) ≤ w.flowControl.lowWaterMark then .drained
  else .waiting

def handleDrain (w : DataChannelWrapper P) : DataChannelWrapper P :=
  let low : Bool := w.watermarkBlocked && (w.bufferedAmount : Number) ≤ w.flowControl.lowWaterMark
  { w with watermarkBlocked := w.watermarkBlocked && !low }.eachWaiter w.resolveIfWritable

def dispose (w : DataChannelWrapper P) : DataChannelWrapper P :=
  ({ w with listening := false }.rejectDrainWaiters .disposed).rejectPendingSends .disposed

inductive Action (P : Type)
  | send (payload : P) (bytes : Nat)
  | resume (i : Nat) (outcome : Outcome)
  | closeEvent
  | errorEvent
  | drainEvent
  | dispose
  | fall (bufferedAmount : Nat)
  | become (readyState : RTCDataChannelState)

/-- The last two are moves of the channel: what is buffered goes out, and the state changes. -/
def step (w : DataChannelWrapper P) : Action P → DataChannelWrapper P
  | .send payload bytes => w.enqueueSend payload bytes
  | .resume i outcome => w.resume i outcome
  | .closeEvent => if w.listening then w.handleClose else w
  | .errorEvent => if w.listening then w.handleError else w
  | .drainEvent => if w.listening then w.handleDrain else w
  | .dispose => w.dispose
  | .fall bufferedAmount => { w with bufferedAmount := min bufferedAmount w.bufferedAmount }
  | .become readyState => { w with readyState := readyState }

end DataChannelWrapper

end PonsWarp.Webrtc
