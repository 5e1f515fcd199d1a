import PonsWarp.Demo.DirectRunArtifact

set_option autoImplicit false

/-!
How the web application records a direct run: an artifact is created, events are appended to it,
and it is completed once the run has been cleaned up.
-/

namespace PonsWarp.Demo

open PonsWarp.Core

inductive DirectRunOutcome
  | succeeded
  | failed
  | cancelled
  deriving DecidableEq

def DirectRunOutcome.text : DirectRunOutcome → String
  | .succeeded => "succeeded"
  | .failed => "failed"
  | .cancelled => "cancelled"

inductive ControllerState
  | idle
  | starting
  | running
  | ended (outcome : DirectRunOutcome)
  deriving DecidableEq

def ControllerState.text : ControllerState → String
  | .idle => "idle"
  | .starting => "starting"
  | .running => "running"
  | .ended outcome => outcome.text

inductive DirectRunPath
  | directHost
  | directSrflx
  | relayUdp
  | relayTcp
  | relayTls
  | unknown
  | unavailable
  deriving DecidableEq

def DirectRunPath.text : DirectRunPath → String
  | .directHost => "direct-host"
  | .directSrflx => "direct-srflx"
  | .relayUdp => "relay-udp"
  | .relayTcp => "relay-tcp"
  | .relayTls => "relay-tls"
  | .unknown => "unknown"
  | .unavailable => "unavailable"

inductive TerminalReason
  | verified
  | acknowledged
  | sendFailed
  | requestTimeout
  | cancelled
  | providerReject
  | hashMismatch
  | invalidChunk
  deriving DecidableEq

def TerminalReason.text : TerminalReason → String
  | .verified => "verified"
  | .acknowledged => "acknowledged"
  | .sendFailed => "send_failed"
  | .requestTimeout => "request_timeout"
  | .cancelled => "cancelled"
  | .providerReject => "provider_reject"
  | .hashMismatch => "hash_mismatch"
  | .invalidChunk => "invalid_chunk"

inductive LifecycleStatus
  | flushStarted
  | flushCompleted
  | disposeCompleted
  deriving DecidableEq

def LifecycleStatus.text : LifecycleStatus → String
  | .flushStarted => "flush_started"
  | .flushCompleted => "flush_completed"
  | .disposeCompleted => "dispose_completed"

inductive Phase
  | send
  | receive
  | storage
  | persist
  | finalize
  deriving DecidableEq

def Phase.text : Phase → String
  | .send => "send"
  | .receive => "receive"
  | .storage => "storage"
  | .persist => "persist"
  | .finalize => "finalize"

inductive WatermarkLevel
  | high
  | low
  deriving DecidableEq

def WatermarkLevel.text : WatermarkLevel → String
  | .high => "high"
  | .low => "low"

inductive ResumeStatus
  | passed
  | failed
  deriving DecidableEq

def ResumeStatus.text : ResumeStatus → String
  | .passed => "passed"
  | .failed => "failed"

/-- An event without its place and time. -/
inductive DirectRunEventKind
  | controller (state : ControllerState)
  | scheduled (requested outstandingAfter : JsNumber)
  | terminal (reason : TerminalReason) (retryCount : JsNumber) (willRetry : Bool)
  | windowExhausted
  | watermark (level : WatermarkLevel) (bufferedAmount highWaterMark lowWaterMark : JsNumber)
  | storageWrite (bytes : JsNumber)
  | resumeValidation (verifiedPieces discardedPieces : JsNumber) (status : ResumeStatus)
  | lifecycle (status : LifecycleStatus) (outstandingDirect activeTimers : JsNumber)
  | directLifecycleError (phase : Phase) (code : String)
  deriving DecidableEq

def DirectRunEventKind.fields : DirectRunEventKind → Fields
  | .controller state => [("type", .string "controller"), ("state", .string state.text)]
  | .scheduled requested outstandingAfter =>
    [("type", .string "scheduled"), ("requested", .number requested),
      ("outstandingAfter", .number outstandingAfter)]
  | .terminal reason retryCount willRetry =>
    [("type", .string "terminal"), ("reason", .string reason.text),
      ("retryCount", .number retryCount), ("willRetry", .bool willRetry)]
  | .windowExhausted => [("type", .string "window_exhausted")]
  | .watermark level bufferedAmount highWaterMark lowWaterMark =>
    [("type", .string "watermark"), ("level", .string level.text),
      ("bufferedAmount", .number bufferedAmount), ("highWaterMark", .number highWaterMark),
      ("lowWaterMark", .number lowWaterMark)]
  | .storageWrite bytes => [("type", .string "storage_write"), ("bytes", .number bytes)]
  | .resumeValidation verifiedPieces discardedPieces status =>
    [("type", .string "resume_validation"), ("verifiedPieces", .number verifiedPieces),
      ("discardedPieces", .number discardedPieces), ("status", .string status.text)]
  | .lifecycle status outstandingDirect activeTimers =>
    [("type", .string "lifecycle"), ("status", .string status.text),
      ("outstandingDirect", .number outstandingDirect), ("activeTimers", .number activeTimers)]
  | .directLifecycleError phase code =>
    [("type", .string "direct_lifecycle_error"), ("phase", .string phase.text),
      ("code", .string code)]

/-- `DirectArtifactEventInput`. -/
structure DirectArtifactEventInput where
  kind : DirectRunEventKind
  atMs : JsNumber
  deriving DecidableEq

structure DirectRunEvent extends DirectArtifactEventInput where
  seq : JsNumber
  deriving DecidableEq

def DirectRunEvent.fields (event : DirectRunEvent) : Fields :=
  ("atMs", .number event.atMs) :: ("seq", .number event.seq) :: event.kind.fields

inductive HashMode
  | sha256
  | none
  deriving DecidableEq

def HashMode.text : HashMode → String
  | .sha256 => "sha256"
  | .none => "none"

structure RunTransfer where
  fileBytes : JsNumber
  pieceBytes : JsNumber
  pieceCount : JsNumber
  hashMode : HashMode

structure RunEnvironment where
  browserFamilyMajor : String
  storageKind : String

structure DirectRunArtifact where
  runId : String
  suiteId : String
  fixtureId : String
  fixtureSha256 : String
  pairId : String
  stratum : String
  attempt : JsNumber
  buildSha : String
  window : JsNumber
  startedAtMs : JsNumber
  endedAtMs : JsNumber
  outcome : DirectRunOutcome
  environment : RunEnvironment
  path : DirectRunPath
  transfer : RunTransfer
  counts : Counts
  events : List DirectRunEvent

/-- The fields of the object that an artifact is. -/
def DirectRunArtifact.fields (a : DirectRunArtifact) : Fields :=
  [("schema", .string SCHEMA), ("runId", .string a.runId), ("suiteId", .string a.suiteId),
    ("fixtureId", .string a.fixtureId), ("fixtureSha256", .string a.fixtureSha256),
    ("pairId", .string a.pairId), ("stratum", .string a.stratum), ("attempt", .number a.attempt),
    ("buildSha", .string a.buildSha), ("window", .number a.window),
    ("startedAtMs", .number a.startedAtMs), ("endedAtMs", .number a.endedAtMs),
    ("outcome", .string a.outcome.text),
    ("environment", .object [("browserFamilyMajor", .string a.environment.browserFamilyMajor),
      ("storageKind", .string a.environment.storageKind)]),
    ("path", .string a.path.text),
    ("transfer", .object [("fileBytes", .number a.transfer.fileBytes),
      ("pieceBytes", .number a.transfer.pieceBytes), ("pieceCount", .number a.transfer.pieceCount),
      ("hashMode", .string a.transfer.hashMode.text)]),
    ("counts", .object (a.counts.entries.map fun (key, n) => (key, .number (.ofNat n)))),
    ("events", .array (a.events.map fun event => .object event.fields))]

def DirectRunArtifact.toValue (a : DirectRunArtifact) : JsValue := .object a.fields

/-- The part of an artifact that a run may be started with. -/
structure Provenance where
  suiteId : Option String
  fixtureId : Option String
  fixtureSha256 : Option String
  pairId : Option String
  stratum : Option String
  attempt : Option JsNumber
  buildSha : Option String
  window : Option JsNumber
  startedAtMs : Option JsNumber
  endedAtMs : Option JsNumber
  outcome : Option DirectRunOutcome
  environment : Option RunEnvironment
  path : Option DirectRunPath
  transfer : Option RunTransfer

/-- The time `now` is that of the clock. -/
def createDirectRunArtifact (runId : String) (provenance : Provenance) (now : JsNumber) :
    Except JsError DirectRunArtifact :=
  if !idPattern runId.toList then .error ⟨"Error", "invalid run id"⟩
  else
    .ok
      { runId
        suiteId := provenance.suiteId.getD "local"
        fixtureId := provenance.fixtureId.getD "direct"
        fixtureSha256 := provenance.fixtureSha256.getD (String.ofList (List.replicate 64 '0'))
        pairId := provenance.pairId.getD "local"
        stratum := provenance.stratum.getD "unavailable"
        attempt := provenance.attempt.getD (.ofNat 1)
        buildSha := provenance.buildSha.getD "local"
        window := provenance.window.getD (.ofNat 1)
        startedAtMs := provenance.startedAtMs.getD now
        endedAtMs := provenance.endedAtMs.getD now
        outcome := provenance.outcome.getD .failed
        environment := provenance.environment.getD ⟨"unknown", "unknown"⟩
        path := provenance.path.getD .unavailable
        transfer := provenance.transfer.getD ⟨.ofNat 0, .ofNat 0, .ofNat 0, .none⟩
        counts := {}
        events := [] }

/-- A time before the start of the run is taken as one that counts from it. -/
def normalizeEvent (event : DirectArtifactEventInput) (startedAtMs : JsNumber) :
    DirectArtifactEventInput :=
  { event with
    atMs := if event.atMs.lt startedAtMs then startedAtMs.add event.atMs else event.atMs }

def DirectRunEventKind.isDispose : DirectRunEventKind → Bool
  | .lifecycle .disposeCompleted _ _ => true
  | _ => false

def appendDirectArtifactEvent (l : Language) (artifact : DirectRunArtifact)
    (event : DirectArtifactEventInput) : Except JsError DirectRunArtifact :=
  if artifact.events.any (·.kind.isDispose) then .error ⟨"Error", "artifact already disposed"⟩
  else
    let next : DirectRunEvent :=
      { normalizeEvent event artifact.startedAtMs with seq := .ofNat (artifact.events.length + 1) }
    if !eventValid l next.fields then .error ⟨"Error", "invalid artifact event"⟩
    else
      let events := artifact.events ++ [next]
      .ok
        { artifact with
          endedAtMs := artifact.endedAtMs.max next.atMs
          counts := deriveCounts (events.map DirectRunEvent.fields)
          events }

structure CleanupEvidence where
  engineDisposed : Bool
  flushCompleted : Bool
  outstandingDirect : JsNumber
  activeTimers : JsNumber

def DirectRunEventKind.isCleanResume (pieceCount : JsNumber) : DirectRunEventKind → Bool
  | .resumeValidation verifiedPieces discardedPieces .passed =>
    verifiedPieces = pieceCount && pieceCount ≠ .nan && discardedPieces = .ofNat 0
  | _ => false

def completeDirectRunArtifact (l : Language) (artifact : DirectRunArtifact)
    (evidence : CleanupEvidence) (outcome : DirectRunOutcome) (finalState : ControllerState)
    (now : JsNumber) : Except JsError DirectRunArtifact :=
  if !evidence.engineDisposed || !evidence.flushCompleted ||
      evidence.outstandingDirect ≠ .ofNat 0 || evidence.activeTimers ≠ .ofNat 0 then
    .error ⟨"Error", "direct cleanup evidence is not clean"⟩
  else if outcome = .succeeded && (JsNumber.ofNat artifact.counts.verified ≠
        artifact.transfer.pieceCount ||
      !artifact.events.any (·.kind.isCleanResume artifact.transfer.pieceCount)) then
    .error
      ⟨"Error", "succeeded direct run requires verified pieces and clean resume validation"⟩
  else do
    let completionAt := now.max artifact.endedAtMs
    let next ←
      if artifact.events.any (·.kind = .controller finalState) then .ok artifact
      else appendDirectArtifactEvent l artifact ⟨.controller finalState, completionAt⟩
    let next ← appendDirectArtifactEvent l next
      ⟨.lifecycle .disposeCompleted evidence.outstandingDirect evidence.activeTimers,
        completionAt⟩
    .ok
      { next with
        outcome
        endedAtMs := (next.events.getLast?.map (·.atMs)).getD .nan
        counts := deriveCounts (next.events.map DirectRunEvent.fields) }

end PonsWarp.Demo
