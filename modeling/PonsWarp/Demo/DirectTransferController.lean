import PonsWarp.Core.Engine
import PonsWarp.Data.Run
import PonsWarp.Demo.RunRecording

set_option autoImplicit false

/-!
`DirectTransferController`, cut at its awaits. A call of `requestWindow` has an entry in `pending`
while its window is open; failures take the entry out in the jobs of one queue. What the engine,
the timers and the caller do comes as moves in any order. The texts that are shown, the metrics
and the contents of the artifact are left out.
-/

namespace PonsWarp.Demo

open PonsWarp.Core PonsWarp.Data

inductive DeferredLifecycleEvent where
  | terminal (event : DirectTerminalEvent)
  | exhausted (event : DirectWindowExhaustedEvent)
  | error (event : DirectLifecycleErrorEvent)
  deriving DecidableEq, Repr

namespace DeferredLifecycleEvent

def windowKey : DeferredLifecycleEvent → String
  | .terminal event => event.windowKey
  | .exhausted event => event.windowKey
  | .error event => event.windowKey

def fileId : DeferredLifecycleEvent → FileId
  | .terminal event => event.fileId
  | .exhausted event => event.fileId
  | .error event => event.fileId

def peerId : DeferredLifecycleEvent → PeerId
  | .terminal event => event.peerId
  | .exhausted event => event.peerId
  | .error event => event.peerId

def controllerId : DeferredLifecycleEvent → Option String
  | .terminal event => event.controllerId
  | .exhausted event => event.controllerId
  | .error event => event.controllerId

def generation : DeferredLifecycleEvent → Nat
  | .terminal event => event.generation
  | .exhausted event => event.generation
  | .error event => event.generation

def terminal? : DeferredLifecycleEvent → Option DirectTerminalEvent
  | .terminal event => some event
  | _ => none

end DeferredLifecycleEvent

/-- What a window is rejected with: errors of the controller, those that the engine throws, and
the `AggregateError` of a failed setup with a failed cleanup. -/
inductive WindowError where
  | timeout
  | exhausted
  | aborted
  | disposed
  | artifactDisposed
  | invalidEvent
  | peer (message : String)
  | windowExhausted (event : DirectWindowExhaustedEvent)
  | lifecycle (event : DirectLifecycleErrorEvent)
  | engine (message : String)
  | setupAndCleanup (error cleanup : WindowError)
  deriving DecidableEq, Repr

/-- A promise with the `resolve` and `reject` of an entry. -/
inductive WindowResult where
  | pending
  | fulfilled (terminals : List DirectTerminalEvent)
  | rejected (error : WindowError)
  deriving DecidableEq, Repr

/-- A promise is settled once. -/
def WindowResult.settle (result next : WindowResult) : WindowResult :=
  match result with
  | .pending => next
  | settled => settled

inductive Timer where
  | running
  | fired
  | cleared
  deriving DecidableEq, Repr

/-- What a call of `requestWindow` awaits: `requestPieceWindow`, the flush after an empty fill,
the job that fails its empty window, its result, or the job of its `catch`. Jobs are named by
their number. -/
inductive Position where
  | requesting
  | flushing
  | emptying (job : Nat)
  | waiting
  | cleaning (job : Nat) (error : WindowError)
  | settled (outcome : Except WindowError (List DirectTerminalEvent))
  deriving DecidableEq

/-- A call of `requestWindow` with its entry, which is there whether or not `pending` has it.
`returned` is the number of pieces that `requestPieceWindow` has scheduled, and `since` the number
of terminal events received before the call; the code does not keep them. -/
structure Active where
  windowKey : String
  fileId : FileId
  peerId : PeerId
  controllerId : String
  generation : Option Nat
  scheduled : Nat
  terminals : List DirectTerminalEvent
  deferred : List DeferredLifecycleEvent
  timer : Timer
  result : WindowResult
  position : Position
  returned : Option Nat
  since : Nat

/-- A job of the cleanup queue. `raisedFor` is the call that a failure was raised for; the code
does not keep it. -/
inductive CleanupJob where
  | failWindow (windowKey : String) (error : WindowError) (state : ControllerState)
      (raisedFor : Nat)
  | dispose
  deriving DecidableEq

/-- A failing job has taken out the entry of `victim` when it comes to its flush. -/
inductive JobStage where
  | queued
  | flushing (victim : Option Nat) (cancelError : Option WindowError)
  | done (victim : Option Nat) (cleanupError : Option WindowError)
  deriving DecidableEq

def JobStage.isDone : JobStage → Bool
  | .done _ _ => true
  | _ => false

def JobStage.victim? : JobStage → Option Nat
  | .queued => none
  | .flushing victim _ => victim
  | .done victim _ => victim

structure Cleanup where
  job : CleanupJob
  stage : JobStage
  deriving DecidableEq

/-- `received` has the terminal events so far; the code does not keep them. -/
structure DirectTransferController where
  pending : OrderedMap String Nat
  calls : List Active
  cleanupQueue : List Cleanup
  state : ControllerState
  disposed : Bool
  artifactDisposed : Bool
  received : List DirectTerminalEvent

def Active.matchesActiveIdentity (active : Active) (event : DeferredLifecycleEvent) : Bool :=
  event.fileId = active.fileId && event.peerId = active.peerId &&
    event.controllerId = some active.controllerId

def Active.matchesActive (active : Active) (event : DeferredLifecycleEvent) : Bool :=
  active.matchesActiveIdentity event && active.generation = some event.generation

/-- The terminal events of a window that are the last of their request. -/
def finals (terminals : List DirectTerminalEvent) : List DirectTerminalEvent :=
  terminals.filter fun item => !item.willRetry

def ControllerState.isEnded : ControllerState → Bool
  | .ended _ => true
  | _ => false

namespace DirectTransferController

def idle : DirectTransferController := ⟨.empty, [], [], .idle, false, false, []⟩

def setCall (id : Nat) (active : Active) (s : DirectTransferController) :
    DirectTransferController :=
  { s with calls := s.calls.set id active }

def setState (state : ControllerState) (s : DirectTransferController) : DirectTransferController :=
  if s.state.isEnded then s else { s with state := state }

/-- `failWindow` up to its `await`. -/
def failWindow (windowKey : String) (error : WindowError) (state : ControllerState)
    (raisedFor : Nat) (s : DirectTransferController) : DirectTransferController :=
  { s with cleanupQueue :=
      s.cleanupQueue ++ [⟨.failWindow windowKey error state raisedFor, .queued⟩] }

/-- The entry in `pending`. -/
def active? (windowKey : String) (s : DirectTransferController) : Option (Nat × Active) :=
  (s.pending.get? windowKey).bind fun id => (s.calls[id]?).map fun active => (id, active)

def completeWindowIfSettled (windowKey : String) (id : Nat) (s : DirectTransferController) :
    DirectTransferController :=
  match s.calls[id]? with
  | none => s
  | some active =>
    if active.scheduled = 0 || (finals active.terminals).length < active.scheduled then s
    else
      ({ s with pending := s.pending.delete windowKey }.setCall id
        { active with
          timer := .cleared
          result := active.result.settle (.fulfilled active.terminals) }).setState .running

section Events

-- `accepts` says of which events the artifact takes a record
variable (accepts : DeferredLifecycleEvent → Bool)

/-- What the handlers of the three kinds of events have in common. The second component says
whether the handler has thrown. -/
def handleWith (event : DeferredLifecycleEvent)
    (react : Nat → Active → DirectTransferController → DirectTransferController)
    (s : DirectTransferController) : DirectTransferController × Bool :=
  match s.active? event.windowKey with
  | none => (s, false)
  | some (id, active) =>
    if active.matchesActiveIdentity event && active.generation = none then
      (s.setCall id { active with deferred := active.deferred ++ [event] }, false)
    else if !active.matchesActive event then (s, false)
    else (react id active s, s.artifactDisposed || !accepts event)

def handleTerminal (event : DirectTerminalEvent) (s : DirectTransferController) :
    DirectTransferController × Bool :=
  handleWith accepts (.terminal event) (fun id active s =>
    let s' := s.setCall id { active with terminals := active.terminals ++ [event] }
    if s.artifactDisposed || !accepts (.terminal event) then s'
    else s'.completeWindowIfSettled event.windowKey id) s

def handleFailure (event : DeferredLifecycleEvent) (error : WindowError)
    (s : DirectTransferController) : DirectTransferController × Bool :=
  handleWith accepts event (fun id _ s =>
    if s.artifactDisposed || !accepts event then s
    else s.failWindow event.windowKey error (.ended .failed) id) s

def handleExhausted (event : DirectWindowExhaustedEvent) (s : DirectTransferController) :
    DirectTransferController × Bool :=
  handleFailure accepts (.exhausted event) (.windowExhausted event) s

def handleError (event : DirectLifecycleErrorEvent) (s : DirectTransferController) :
    DirectTransferController × Bool :=
  handleFailure accepts (.error event) (.lifecycle event) s

def handle (s : DirectTransferController) : DeferredLifecycleEvent →
    DirectTransferController × Bool
  | .terminal event => s.handleTerminal accepts event
  | .exhausted event => s.handleExhausted accepts event
  | .error event => s.handleError accepts event

/-- The deferred events, until a handler throws. -/
def replay : List DeferredLifecycleEvent → DirectTransferController →
    DirectTransferController × Bool
  | [], s => (s, false)
  | event :: rest, s =>
    match s.handle accepts event with
    | (s, true) => (s, true)
    | (s, false) => replay rest s

end Events

/-- The `catch` of `requestWindow`. -/
def caught (id : Nat) (error : WindowError) (s : DirectTransferController) :
    DirectTransferController :=
  match s.calls[id]? with
  | none => s
  | some call =>
    (s.failWindow call.windowKey error (.ended .failed) id).setCall id
      { call with position := .cleaning s.cleanupQueue.length error }

/-- `requestWindow` up to its first `await`. It throws where the controller has ended, or the key
is that of an open window. -/
def requestWindow (peerId : PeerId) (fileId : FileId) (controllerId windowKey : Option String)
    (s : DirectTransferController) : DirectTransferController :=
  if s.disposed || s.state.isEnded then s
  else
    let s := s.setState .starting
    let controllerId := controllerId.getD "browser-direct"
    let windowKey := windowKey.getD (fileId ++ ":" ++ peerId ++ ":" ++ controllerId)
    if s.pending.has windowKey then s
    else
      { s with
        pending := s.pending.set windowKey s.calls.length
        calls := s.calls ++ [⟨windowKey, fileId, peerId, controllerId, none, 0, [], [], .running,
          .pending, .requesting, none, s.received.length⟩] }

/-- The open window with a key learns its generation and how many pieces it waits for; its
deferred events are handled. -/
def fill (accepts : DeferredLifecycleEvent → Bool) (windowKey : String) (scheduled : Nat)
    (generation : Option Nat) (s : DirectTransferController) : DirectTransferController × Bool :=
  match s.active? windowKey with
  | none => (s, false)
  | some (id, active) =>
    match replay accepts active.deferred (s.setCall id
      { active with scheduled := scheduled, generation := generation, deferred := [] }) with
    | (s, true) => (s, true)
    | (s, false) => (s.completeWindowIfSettled windowKey id, false)

/-- `requestPieceWindow` has resolved. An empty fill with nothing outstanding is flushed. -/
def requested (accepts : DeferredLifecycleEvent → Bool) (id scheduled : Nat)
    (generation : Option Nat) (outstanding : Nat) (s : DirectTransferController) :
    DirectTransferController :=
  match s.calls[id]? with
  | none => s
  | some call =>
    if call.position ≠ .requesting then s
    else
      let position := if scheduled = 0 ∧ outstanding = 0 then .flushing else .waiting
      match fill accepts call.windowKey scheduled generation
        (s.setCall id { call with returned := some scheduled, position := position }) with
      | (s, true) => s.caught id .invalidEvent
      | (s, false) => if s.artifactDisposed then s.caught id .artifactDisposed else s

/-- The flush after an empty fill has resolved. -/
def flushed (id outstanding : Nat) (s : DirectTransferController) : DirectTransferController :=
  match s.calls[id]? with
  | none => s
  | some call =>
    if call.position ≠ .flushing then s
    else if outstanding = 0 then
      (s.failWindow call.windowKey .exhausted (.ended .failed) id).setCall id
        { call with position := .emptying s.cleanupQueue.length }
    else
      let s := s.setCall id { call with position := .waiting }
      match s.active? call.windowKey with
      | none => s
      | some (current, active) => s.setCall current { active with scheduled := outstanding }

/-- The engine has rejected what a call awaits. -/
def engineFailed (id : Nat) (message : String) (s : DirectTransferController) :
    DirectTransferController :=
  match s.calls[id]? with
  | none => s
  | some call =>
    if call.position = .requesting ∨ call.position = .flushing then s.caught id (.engine message)
    else s

def cleanupDone (s : DirectTransferController) (job : Nat) : Option (Option WindowError) :=
  match s.cleanupQueue[job]? with
  | some ⟨_, .done _ cleanupError⟩ => some cleanupError
  | _ => none

/-- A call goes on once what it awaits is settled. -/
def resume (id : Nat) (s : DirectTransferController) : DirectTransferController :=
  match s.calls[id]? with
  | none => s
  | some call =>
    match call.position with
    | .emptying job =>
      match s.cleanupDone job with
      | some _ => s.setCall id { call with position := .waiting }
      | none => s
    | .waiting =>
      match call.result with
      | .pending => s
      | .fulfilled terminals => s.setCall id { call with position := .settled (.ok terminals) }
      | .rejected error => s.caught id error
    | .cleaning job error =>
      match s.cleanupDone job with
      | some none => s.setCall id { call with position := .settled (.error error) }
      | some (some cleanup) => s.setCall id
          { call with position := .settled (.error (.setupAndCleanup error cleanup)) }
      | none => s
    | _ => s

def timeout (id : Nat) (s : DirectTransferController) : DirectTransferController :=
  match s.calls[id]? with
  | none => s
  | some call =>
    if call.timer = .running then
      (s.failWindow call.windowKey .timeout (.ended .failed) id).setCall id
        { call with timer := .fired }
    else s

def failEntry (select : Active → Bool) (error : WindowError) (state : ControllerState)
    (s : DirectTransferController) (entry : String × Nat) : DirectTransferController :=
  match s.calls[entry.2]? with
  | none => s
  | some active => if select active then s.failWindow entry.1 error state entry.2 else s

/-- The windows of `pending` for which `select` holds are failed, in order. -/
def failWindows (select : Active → Bool) (error : WindowError) (state : ControllerState)
    (s : DirectTransferController) : DirectTransferController :=
  s.pending.entries.foldl (failEntry select error state) s

def abort (s : DirectTransferController) : DirectTransferController :=
  (s.setState (.ended .cancelled)).failWindows (fun _ => true) .aborted (.ended .cancelled)

/-- An empty peer id is as none. -/
def failPeer (peerId : Option PeerId) (message : String) (s : DirectTransferController) :
    DirectTransferController :=
  s.failWindows (fun active => peerId.getD "" = "" || active.peerId = peerId.getD "")
    (.peer message) (.ended .failed)

/-- The entries of `pending` are rejected. -/
def discard (id : Nat) (call : Active) (s : DirectTransferController) : Active :=
  if s.pending.get? call.windowKey = some id then
    { call with timer := .cleared, result := call.result.settle (.rejected .disposed) }
  else call

/-- `dispose` up to its first `await`. -/
def dispose (outcome : DirectRunOutcome) (s : DirectTransferController) :
    DirectTransferController :=
  if s.disposed then s
  else
    let s := { s with disposed := true }.setState (.ended outcome)
    { s with
      calls := s.calls.mapIdx fun id call => s.discard id call
      pending := .empty
      cleanupQueue := s.cleanupQueue ++ [⟨.dispose, .queued⟩] }

/-- All jobs before this one are done. -/
def atHead (s : DirectTransferController) (job : Nat) : Bool :=
  (s.cleanupQueue.take job).all fun cleanup => cleanup.stage.isDone

def setStage (job : Nat) (task : CleanupJob) (stage : JobStage) (s : DirectTransferController) :
    DirectTransferController :=
  { s with cleanupQueue := s.cleanupQueue.set job ⟨task, stage⟩ }

/-- A job runs up to its flush. -/
def beginCleanup (job : Nat) (cancelError : Option String) (s : DirectTransferController) :
    DirectTransferController :=
  match s.cleanupQueue[job]? with
  | some ⟨.failWindow windowKey error state raisedFor, .queued⟩ =>
    if !s.atHead job then s
    else
      let task := .failWindow windowKey error state raisedFor
      match s.active? windowKey with
      | none => s.setStage job task (.done none none)
      | some (id, active) =>
        ({ s with pending := s.pending.delete windowKey }.setCall id
          { active with timer := .cleared }).setStage job task
            (.flushing (some id) (cancelError.map .engine))
  | some ⟨.dispose, .queued⟩ =>
    if !s.atHead job then s else s.setStage job .dispose (.flushing none (cancelError.map .engine))
  | _ => s

/-- A job runs from its flush to its end. -/
def endCleanup (job : Nat) (flushError : Option String) (s : DirectTransferController) :
    DirectTransferController :=
  match s.cleanupQueue[job]? with
  | some ⟨.failWindow windowKey error state raisedFor, .flushing (some id) cancelError⟩ =>
    let cleanupError := (flushError.map .engine).or cancelError
    let s := s.setState state
    let s := match s.calls[id]? with
      | none => s
      | some active => s.setCall id
          { active with result := active.result.settle (.rejected (cleanupError.getD error)) }
    s.setStage job (.failWindow windowKey error state raisedFor) (.done (some id) cleanupError)
  | some ⟨.dispose, .flushing victim cancelError⟩ =>
    let cleanupError := cancelError.or (flushError.map .engine)
    { s.setStage job .dispose (.done victim cleanupError) with
      artifactDisposed := cleanupError.isNone }
  | _ => s

end DirectTransferController

inductive ControllerMove where
  | requestWindow (peerId : PeerId) (fileId : FileId) (controllerId windowKey : Option String)
  | requested (id scheduled : Nat) (generation : Option Nat) (outstanding : Nat)
  | flushed (id outstanding : Nat)
  | engineFailed (id : Nat) (message : String)
  | resume (id : Nat)
  | event (event : DeferredLifecycleEvent)
  | timeout (id : Nat)
  | abort
  | failPeer (peerId : Option PeerId) (message : String)
  | dispose (outcome : DirectRunOutcome)
  | beginCleanup (job : Nat) (cancelError : Option String)
  | endCleanup (job : Nat) (flushError : Option String)

namespace DirectTransferController

def step (accepts : DeferredLifecycleEvent → Bool) (s : DirectTransferController) :
    ControllerMove → DirectTransferController
  | .requestWindow peerId fileId controllerId windowKey =>
    s.requestWindow peerId fileId controllerId windowKey
  | .requested id scheduled generation outstanding =>
    s.requested accepts id scheduled generation outstanding
  | .flushed id outstanding => s.flushed id outstanding
  | .engineFailed id message => s.engineFailed id message
  | .resume id => s.resume id
  | .event event =>
    (handle accepts { s with received := s.received ++ event.terminal?.toList } event).1
  | .timeout id => s.timeout id
  | .abort => s.abort
  | .failPeer peerId message => s.failPeer peerId message
  | .dispose outcome => s.dispose outcome
  | .beginCleanup job cancelError => s.beginCleanup job cancelError
  | .endCleanup job flushError => s.endCleanup job flushError

end DirectTransferController

/-- The call does not look up its key again. -/
def Active.past (call : Active) : Bool :=
  match call.position, call.result with
  | .settled _, _ => true
  | .cleaning _ _, _ => true
  | .waiting, .fulfilled _ => true
  | .emptying _, .fulfilled _ => true
  | _, _ => false

def Cleanup.awaits (windowKey : String) (cleanup : Cleanup) : Bool :=
  match cleanup with
  | ⟨.failWindow key _ _ _, .queued⟩ => key = windowKey
  | _ => false

namespace DirectTransferController

/-- No failure is queued for the key, and no earlier call with it will look it up. -/
def free (windowKey : String) (s : DirectTransferController) : Bool :=
  s.cleanupQueue.all (fun cleanup => !cleanup.awaits windowKey) &&
    s.calls.all fun call => call.windowKey ≠ windowKey || call.past

/-- A key is used again only when it is free. -/
def reusesFree (s : DirectTransferController) : ControllerMove → Bool
  | .requestWindow peerId fileId controllerId windowKey =>
    let windowKey := windowKey.getD
      (fileId ++ ":" ++ peerId ++ ":" ++ controllerId.getD "browser-direct")
    s.pending.has windowKey || s.free windowKey
  | _ => true

end DirectTransferController

end PonsWarp.Demo
