import PonsWarp.Core.JsConversion

set_option autoImplicit false

/-!
The artifacts of direct runs: the checks of the web application on what claims to be one, and
the counts that the events of a run add up to.
-/

namespace PonsWarp.Demo

open PonsWarp.Core

/-- What the language does: the texts of numbers, and `<` on values that are not two numbers. -/
structure Language where
  numberText : JsNumber → String
  lessThan : Option JsValue → Option JsValue → Bool

/-- `a < b`. -/
def Language.less (l : Language) : Option JsValue → Option JsValue → Bool
  | some (.number x), some (.number y) => x.lt y
  | a, b => l.lessThan a b

/-- `pattern.test(value)`. Where the conversion to a text throws, the test is not passed. -/
def Language.test (l : Language) (pattern : List Char → Bool) : Option JsValue → Bool
  | none => pattern "undefined".toList
  | some value =>
    match value.toText l.numberText with
    | .ok text => pattern text.toList
    | .error _ => false

/-- `/^[A-Za-z0-9._:-]{1,128}$/`. -/
def idPattern (text : List Char) : Bool :=
  1 ≤ text.length && text.length ≤ 128 &&
    text.all fun c => c.isAlphanum || c = '.' || c = '_' || c = ':' || c = '-'

def isLowerHex (c : Char) : Bool := c.isDigit || ('a' ≤ c && c ≤ 'f')

/-- `/^[a-f0-9]{64}$/`. -/
def shaPattern (text : List Char) : Bool := text.length = 64 && text.all isLowerHex

/-- A safe integer that is not negative. -/
def integer : Option JsValue → Bool
  | some (.number x) => x.natural?.isSome
  | _ => false

def isOneOf (value : Option JsValue) (names : List String) : Bool :=
  match value with
  | some (.string s) => names.contains s
  | _ => false

def isBoolean : Option JsValue → Bool
  | some (.bool _) => true
  | _ => false

/-- `value === n`. -/
def isNumber (value : Option JsValue) (n : Nat) : Bool :=
  match value with
  | some (.number x) => x = JsNumber.ofNat n
  | _ => false

/-- `a === b` for values of which one is a number, a string, a truth value or null. -/
def strictEq : Option JsValue → Option JsValue → Bool
  | none, none => true
  | some .null, some .null => true
  | some (.bool a), some (.bool b) => a = b
  | some (.number x), some (.number y) => x = y && x ≠ .nan
  | some (.string s), some (.string t) => s = t
  | _, _ => false

def exactKeys (value : Option JsValue) (keys : List String) : Bool :=
  match value with
  | some (.object fields) =>
    fields.length = keys.length && keys.all fun key => (fields.map Prod.fst).contains key
  | _ => false

/-- A field of a value that may be no object. -/
def property (value : Option JsValue) (key : String) : Option JsValue :=
  match value with
  | some (.object fields) => Fields.field? fields key
  | _ => none

def STATES : List String := ["idle", "starting", "running", "succeeded", "failed", "cancelled"]

def OUTCOMES : List String := ["succeeded", "failed", "cancelled"]

def PATHS : List String :=
  ["direct-host", "direct-srflx", "relay-udp", "relay-tcp", "relay-tls", "unknown", "unavailable"]

def TERMINAL_REASONS : List String :=
  ["verified", "acknowledged", "send_failed", "request_timeout", "cancelled", "provider_reject",
    "hash_mismatch", "invalid_chunk"]

def PHASES : List String := ["send", "receive", "storage", "persist", "finalize"]

def LIFECYCLE_STATUSES : List String := ["flush_started", "flush_completed", "dispose_completed"]

def SCHEMA : String := "ponswarp-grid.direct-transfer-run/v2"

def hasType (event : Fields) (type : String) : Bool := Fields.isString event "type" type

def eventValid (l : Language) (event : Fields) : Bool :=
  let field := Fields.field? event
  integer (field "seq") && integer (field "atMs") &&
    if hasType event "controller" then isOneOf (field "state") STATES
    else if hasType event "scheduled" then
      integer (field "requested") && integer (field "outstandingAfter")
    else if hasType event "terminal" then
      isOneOf (field "reason") TERMINAL_REASONS && integer (field "retryCount") &&
        isBoolean (field "willRetry")
    else if hasType event "window_exhausted" then true
    else if hasType event "watermark" then
      isOneOf (field "level") ["high", "low"] && integer (field "bufferedAmount") &&
        integer (field "highWaterMark") && integer (field "lowWaterMark")
    else if hasType event "storage_write" then integer (field "bytes")
    else if hasType event "resume_validation" then
      integer (field "verifiedPieces") && integer (field "discardedPieces") &&
        isOneOf (field "status") ["passed", "failed"]
    else if hasType event "lifecycle" then
      isOneOf (field "status") LIFECYCLE_STATUSES && integer (field "outstandingDirect") &&
        integer (field "activeTimers")
    else if hasType event "direct_lifecycle_error" then
      isOneOf (field "phase") PHASES && l.test idPattern (field "code")
    else false

def eventKeys (event : Fields) : List String :=
  let common := ["seq", "atMs"]
  if hasType event "controller" then common ++ ["type", "state"]
  else if hasType event "scheduled" then common ++ ["type", "requested", "outstandingAfter"]
  else if hasType event "terminal" then common ++ ["type", "reason", "retryCount", "willRetry"]
  else if hasType event "window_exhausted" then common ++ ["type"]
  else if hasType event "watermark" then
    common ++ ["type", "level", "bufferedAmount", "highWaterMark", "lowWaterMark"]
  else if hasType event "storage_write" then common ++ ["type", "bytes"]
  else if hasType event "resume_validation" then
    common ++ ["type", "verifiedPieces", "discardedPieces", "status"]
  else if hasType event "lifecycle" then
    common ++ ["type", "status", "outstandingDirect", "activeTimers"]
  else if hasType event "direct_lifecycle_error" then common ++ ["type", "phase", "code"]
  else []

structure Counts where
  scheduled : Nat := 0
  verified : Nat := 0
  retries : Nat := 0
  timeouts : Nat := 0
  rejects : Nat := 0
  sendFailures : Nat := 0
  invalidChunks : Nat := 0
  cancellations : Nat := 0
  watermarkHigh : Nat := 0
  watermarkLow : Nat := 0
  storageWrites : Nat := 0
  resumeValidations : Nat := 0
  resumeFailures : Nat := 0
  integrityFailures : Nat := 0
  framingFailures : Nat := 0
  lifecycleLeaks : Nat := 0
  deriving DecidableEq

def Counts.entries (c : Counts) : List (String × Nat) :=
  [("scheduled", c.scheduled), ("verified", c.verified), ("retries", c.retries),
    ("timeouts", c.timeouts), ("rejects", c.rejects), ("sendFailures", c.sendFailures),
    ("invalidChunks", c.invalidChunks), ("cancellations", c.cancellations),
    ("watermarkHigh", c.watermarkHigh), ("watermarkLow", c.watermarkLow),
    ("storageWrites", c.storageWrites), ("resumeValidations", c.resumeValidations),
    ("resumeFailures", c.resumeFailures), ("integrityFailures", c.integrityFailures),
    ("framingFailures", c.framingFailures), ("lifecycleLeaks", c.lifecycleLeaks)]

def COUNT_KEYS : List String :=
  ["scheduled", "verified", "retries", "timeouts", "rejects", "sendFailures", "invalidChunks",
    "cancellations", "watermarkHigh", "watermarkLow", "storageWrites", "resumeValidations",
    "resumeFailures", "integrityFailures", "framingFailures", "lifecycleLeaks"]

/-- Two counts have the same JSON when they have the same fields in the same order. -/
def sameJson (counts : Option JsValue) (c : Counts) : Bool :=
  match counts with
  | some (.object fields) =>
    fields.map (fun (key, value) => (key, match value with | .number x => some x | _ => none)) =
      c.entries.map fun (key, n) => (key, some (JsNumber.ofNat n))
  | _ => false

def naturalField (event : Fields) (key : String) : Nat :=
  match Fields.field? event key with
  | some (.number x) => x.natural?.getD 0
  | _ => 0

def reasonIs (event : Fields) (reason : String) : Nat :=
  (Fields.isString event "reason" reason).toNat

/-- What one event adds to the counts of a run. -/
def countEvent (c : Counts) (event : Fields) : Counts :=
  if hasType event "scheduled" then
    { c with scheduled := c.scheduled + naturalField event "requested" }
  else if hasType event "terminal" then
    { c with
      verified := c.verified + reasonIs event "verified"
      retries := c.retries + ((Fields.field? event "willRetry").elim false (·.isTruthy)).toNat
      timeouts := c.timeouts + reasonIs event "request_timeout"
      rejects := c.rejects + reasonIs event "provider_reject"
      sendFailures := c.sendFailures + reasonIs event "send_failed"
      invalidChunks := c.invalidChunks + reasonIs event "invalid_chunk"
      cancellations := c.cancellations + reasonIs event "cancelled"
      integrityFailures := c.integrityFailures + reasonIs event "hash_mismatch" }
  else if hasType event "watermark" then
    if Fields.isString event "level" "high" then { c with watermarkHigh := c.watermarkHigh + 1 }
    else { c with watermarkLow := c.watermarkLow + 1 }
  else if hasType event "storage_write" then { c with storageWrites := c.storageWrites + 1 }
  else if hasType event "resume_validation" then
    { c with
      resumeValidations := c.resumeValidations + 1
      resumeFailures := c.resumeFailures + (Fields.isString event "status" "failed").toNat }
  else if hasType event "direct_lifecycle_error" then
    let leaked := { c with lifecycleLeaks := c.lifecycleLeaks + 1 }
    if Fields.isString event "phase" "receive" then
      { leaked with framingFailures := c.framingFailures + 1 }
    else if Fields.isString event "phase" "storage" || Fields.isString event "phase" "persist" then
      { leaked with integrityFailures := c.integrityFailures + 1 }
    else leaked
  else c

def countEvents (events : List Fields) : Counts := events.foldl countEvent {}

def isDisposal (event : Fields) : Bool :=
  hasType event "lifecycle" && Fields.isString event "status" "dispose_completed"

def isClean (event : Fields) : Bool :=
  isNumber (Fields.field? event "outstandingDirect") 0 &&
    isNumber (Fields.field? event "activeTimers") 0

def deriveCounts (events : List Fields) : Counts :=
  let counts := countEvents events
  let disposals := events.filter isDisposal
  { counts with
    lifecycleLeaks :=
      if 0 < counts.lifecycleLeaks || disposals.length ≠ 1 || !(disposals.head?.elim false isClean)
      then 1 else 0 }

/-! The parts of `validateDirectRunArtifact`. -/

def ROOT_KEYS : List String :=
  ["schema", "runId", "suiteId", "fixtureId", "fixtureSha256", "pairId", "stratum", "attempt",
    "buildSha", "window", "startedAtMs", "endedAtMs", "outcome", "environment", "path", "transfer",
    "counts", "events"]

def ENVIRONMENT_KEYS : List String := ["browserFamilyMajor", "storageKind"]

def TRANSFER_KEYS : List String := ["fileBytes", "pieceBytes", "pieceCount", "hashMode"]

/-- The events, when each of them is an object. -/
def eventObjects : List JsValue → Option (List Fields)
  | [] => some []
  | .object event :: rest => (eventObjects rest).map (event :: ·)
  | _ :: _ => none

def identityValid (l : Language) (artifact : Fields) : Bool :=
  let field := Fields.field? artifact
  isOneOf (field "schema") [SCHEMA] && l.test idPattern (field "runId") &&
    l.test idPattern (field "suiteId") && l.test idPattern (field "fixtureId") &&
    l.test shaPattern (field "fixtureSha256") && l.test idPattern (field "pairId") &&
    l.test idPattern (field "stratum") && l.test idPattern (field "buildSha") &&
    (isNumber (field "window") 1 || isNumber (field "window") 2) && integer (field "attempt") &&
    !l.less (field "attempt") (some (.number (.ofNat 1))) &&
    !l.less (some (.number (.ofNat 10))) (field "attempt") && integer (field "startedAtMs") &&
    integer (field "endedAtMs") && !l.less (field "endedAtMs") (field "startedAtMs") &&
    isOneOf (field "outcome") OUTCOMES

def settingValid (l : Language) (artifact : Fields) : Bool :=
  let environment := Fields.field? artifact "environment"
  l.test idPattern (property environment "browserFamilyMajor") &&
    l.test idPattern (property environment "storageKind") &&
    isOneOf (Fields.field? artifact "path") PATHS

def transferValid (artifact : Fields) : Bool :=
  let transfer := Fields.field? artifact "transfer"
  integer (property transfer "fileBytes") && integer (property transfer "pieceBytes") &&
    integer (property transfer "pieceCount") &&
    isOneOf (property transfer "hashMode") ["sha256", "none"]

def eventInRun (l : Language) (artifact : Fields) (index : Nat) (event : Fields) : Bool :=
  eventValid l event && isNumber (Fields.field? event "seq") (index + 1) &&
    !l.less (Fields.field? event "atMs") (Fields.field? artifact "startedAtMs") &&
    !l.less (Fields.field? artifact "endedAtMs") (Fields.field? event "atMs")

def lastController (events : List Fields) : Option JsValue :=
  (events.reverse.find? (hasType · "controller")).bind (Fields.field? · "state")

/-- There is one disposal, it is the last event, and the last state of the controller is the
outcome. -/
def finalStateValid (artifact : Fields) (events : List Fields) : Bool :=
  (events.filter isDisposal).length = 1 && events.findIdx isDisposal + 1 = events.length &&
    isOneOf (lastController events) OUTCOMES &&
    strictEq (Fields.field? artifact "outcome") (lastController events)

/-- A resume validation that has found all pieces. -/
def cleanResume (transfer : Option JsValue) (event : Fields) : Bool :=
  hasType event "resume_validation" && Fields.isString event "status" "passed" &&
    strictEq (Fields.field? event "verifiedPieces") (property transfer "pieceCount") &&
    isNumber (Fields.field? event "discardedPieces") 0

/-- The three counts are numbers here, or else not the ones derived in the end. -/
def failureCount (counts : Option JsValue) : JsNumber :=
  ["resumeFailures", "integrityFailures", "framingFailures"].foldl (fun sum key =>
    match property counts key with
    | some (.number x) => sum.add x
    | _ => .nan) (.ofNat 0)

def outcomeValid (artifact : Fields) (events : List Fields) : Bool :=
  let transfer := Fields.field? artifact "transfer"
  let counts := Fields.field? artifact "counts"
  if Fields.isString artifact "outcome" "succeeded" then
    !(JsNumber.ofNat 0).lt (failureCount counts) &&
      strictEq (property counts "verified") (property transfer "pieceCount") &&
      events.any (cleanResume transfer)
  else
    !events.any fun event =>
      hasType event "controller" && Fields.isString event "state" "succeeded"

def validateDirectRunArtifact (l : Language) (value : JsValue) : Bool :=
  match value with
  | .object artifact =>
    exactKeys (some value) ROOT_KEYS &&
      exactKeys (Fields.field? artifact "environment") ENVIRONMENT_KEYS &&
      exactKeys (Fields.field? artifact "transfer") TRANSFER_KEYS &&
      exactKeys (Fields.field? artifact "counts") COUNT_KEYS &&
      match Fields.field? artifact "events" with
      | some (.array items) =>
        match eventObjects items with
        | none => false
        | some events =>
          events.all (fun event => exactKeys (some (.object event)) (eventKeys event)) &&
            identityValid l artifact && settingValid l artifact && transferValid artifact &&
            events ≠ [] && (events.mapIdx (eventInRun l artifact)).all id &&
            finalStateValid artifact events && outcomeValid artifact events &&
            sameJson (Fields.field? artifact "counts") (deriveCounts events)
      | _ => false
  | _ => false

end PonsWarp.Demo
