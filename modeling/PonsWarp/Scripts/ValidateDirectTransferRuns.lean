import PonsWarp.Cli.ShareCodes
import PonsWarp.Demo.DirectRunArtifact

set_option autoImplicit false

/-!
The script of the release gate that checks one run against the manifest of the runs. Where the
script would stop with an exception, the check at hand counts as not passed.
-/

namespace PonsWarp.Scripts

open PonsWarp.Core PonsWarp.Demo PonsWarp.ShareCodes

/-- The error of a check, when it is not passed. -/
def report (failed : Bool) (error : String) : List String := if failed then [error] else []

/-- `/^[a-z][a-z0-9:_-]{0,79}$/`. -/
def symbolicPattern (text : List Char) : Bool :=
  match text with
  | [] => false
  | first :: rest =>
    first.isLower && rest.length ≤ 79 &&
      rest.all fun c => c.isLower || c.isDigit || c = ':' || c = '_' || c = '-'

def safeInteger : Option JsValue → Bool
  | some (.number (.finite x)) => Number.isSafeInteger x
  | _ => false

/-- An element of an object or an array. -/
def element (value : Option JsValue) (key : String) : Option JsValue :=
  match value with
  | some (.object fields) => Fields.field? fields key
  | some (.array items) => (key.toNat?.filter (toString · = key)).bind (items[·]?)
  | _ => none

def exact (value : Option JsValue) (keys : List String) (path : String) : List String :=
  match value with
  | some (.object fields) =>
    ((fields.map Prod.fst).filter (!keys.contains ·)).map (path ++ ": unexpected field " ++ ·) ++
      (keys.filter (!(fields.map Prod.fst).contains ·)).map (path ++ ": missing field " ++ ·)
  | _ => []

/-! Privacy. -/

def utf16Length (text : List Char) : Nat :=
  (text.map fun c => if 0x10000 ≤ c.toNat then 2 else 1).sum

def isHex (c : Char) : Bool := c.isDigit || ('a' ≤ c.toLower && c.toLower ≤ 'f')

/-- One to three digits and a dot, taken off. -/
def afterOctet (text : List Char) : Option (List Char) :=
  let digits := text.takeWhile Char.isDigit
  match text.dropWhile Char.isDigit with
  | '.' :: rest => if digits ≠ [] ∧ digits.length ≤ 3 then some rest else none
  | _ => none

def isIpv4 (text : List Char) : Bool :=
  (((afterOctet text).bind afterOctet).bind afterOctet).elim false fun rest =>
    rest.head?.elim false Char.isDigit

/-- One to four hexadecimal digits and a colon, taken off. -/
def afterHextet (text : List Char) : Option (List Char) :=
  let digits := text.takeWhile isHex
  match text.dropWhile isHex with
  | ':' :: rest => if digits ≠ [] ∧ digits.length ≤ 4 then some rest else none
  | _ => none

def isIpv6 (text : List Char) : Bool := ((afterHextet text).bind afterHextet).isSome

/-- An address within a text, after a space or an equals sign. -/
def isIpv6After : List Char → Bool
  | c :: rest => (isSpace c || c = '=') && isIpv6 rest
  | [] => false

def startsWith (literal : String) (text : List Char) : Bool :=
  (afterLiteral literal.toList text).isSome

/-- A word that is followed by a value. -/
def isAssigned (word : String) (text : List Char) : Bool :=
  (afterLiteral word.toList text).elim false fun rest =>
    (rest.dropWhile isSpace).head?.elim false fun c => c = ':' || c = '='

/-- The alternatives of the pattern for texts, at one position. -/
def isPrivateHere (text : List Char) : Bool :=
  startsWith "http://" text || startsWith "https://" text || startsWith "ws://" text ||
    startsWith "wss://" text || isIpv4 text || isIpv6After text || startsWith "-----BEGIN" text ||
    (afterLiteral "bearer".toList text).elim false (fun rest => rest.head?.elim false isSpace) ||
    isAssigned "token" text || isAssigned "secret" text || isAssigned "password" text ||
    isAssigned "credential" text

def isPrivateText (text : List Char) : Bool :=
  128 < utf16Length text || isIpv6 text || text.tails.any isPrivateHere

def PRIVATE_WORDS : List String :=
  ["token", "secret", "password", "credential", "ip", "address", "peer", "request", "session",
    "filename", "mime", "url", "candidate", "signaling", "error", "hash"]

def isPrivateField (key : String) : Bool :=
  (PRIVATE_WORDS.any fun word => key.toList.tails.any (startsWith word)) &&
    key ≠ "fixtureSha256" && key ≠ "hashMode"

def privacyField (path key : String) : List String :=
  report (isPrivateField key) (path ++ ": privacy field " ++ key)

mutual

def privacy (path : String) : JsValue → List String
  | .string s => report (isPrivateText s.toList) (path ++ ": privacy value")
  | .array items => privacyItems path 0 items
  | .object fields => privacyFields path fields
  | _ => []

def privacyItems (path : String) (index : Nat) : List JsValue → List String
  | [] => []
  | child :: rest =>
    privacyField path (toString index) ++ privacy (path ++ "." ++ toString index) child ++
      privacyItems path (index + 1) rest

def privacyFields (path : String) : List (String × JsValue) → List String
  | [] => []
  | entry :: rest => privacyEntry path entry ++ privacyFields path rest

def privacyEntry (path : String) : String × JsValue → List String
  | (key, child) => privacyField path key ++ privacy (path ++ "." ++ key) child

end

/-! The counts of a run. -/

/-- What an event does: the counts and errors after it, the state of the controller that it sets,
and whether it disposes. -/
structure Derived where
  counts : Counts
  errors : List String
  controller : Option (Option JsValue) := none
  disposed : Bool := false

def deriveEvent (l : Language) (event : Fields) (path : String) (counts : Counts)
    (windowCap : Option JsValue) : Derived :=
  let field := Fields.field? event
  let keys (names : List String) := exact (some (.object event)) (["seq", "atMs", "type"] ++ names)
    path
  if hasType event "controller" then
    { counts
      errors := keys ["state"] ++
        report (!isOneOf (field "state") STATES) (path ++ ": invalid controller state")
      controller := some (field "state") }
  else if hasType event "scheduled" then
    { counts := { counts with scheduled := counts.scheduled + naturalField event "requested" }
      errors := keys ["requested", "outstandingAfter"] ++
        report (!integer (field "requested") || !integer (field "outstandingAfter"))
          (path ++ ": invalid scheduled values") ++
        report (integer (field "outstandingAfter") && l.less windowCap (field "outstandingAfter"))
          (path ++ ": window cap exceeded") }
  else if hasType event "terminal" then
    { counts :=
        { counts with
          verified := counts.verified + reasonIs event "verified"
          retries := counts.retries + ((field "willRetry").elim false (·.isTruthy)).toNat
          timeouts := counts.timeouts + reasonIs event "request_timeout"
          rejects := counts.rejects + reasonIs event "provider_reject"
          sendFailures := counts.sendFailures + reasonIs event "send_failed"
          invalidChunks := counts.invalidChunks + reasonIs event "invalid_chunk"
          cancellations := counts.cancellations + reasonIs event "cancelled"
          integrityFailures := counts.integrityFailures + reasonIs event "hash_mismatch" }
      errors := keys ["reason", "retryCount", "willRetry"] ++
        report (!isOneOf (field "reason") TERMINAL_REASONS) (path ++ ": invalid terminal reason") ++
        report (!integer (field "retryCount") || !isBoolean (field "willRetry"))
          (path ++ ": invalid terminal values") }
  else if hasType event "window_exhausted" then { counts, errors := keys [] }
  else if hasType event "watermark" then
    { counts :=
        { counts with
          watermarkHigh := counts.watermarkHigh + (Fields.isString event "level" "high").toNat
          watermarkLow := counts.watermarkLow + (Fields.isString event "level" "low").toNat }
      errors := keys ["level", "bufferedAmount", "highWaterMark", "lowWaterMark"] ++
        report (!isOneOf (field "level") ["high", "low"] || !integer (field "bufferedAmount") ||
          !integer (field "highWaterMark") || !integer (field "lowWaterMark"))
          (path ++ ": invalid watermark values") }
  else if hasType event "storage_write" then
    { counts := { counts with storageWrites := counts.storageWrites + 1 }
      errors := keys ["bytes"] ++
        report (!integer (field "bytes")) (path ++ ": invalid storage bytes") }
  else if hasType event "resume_validation" then
    { counts :=
        { counts with
          resumeValidations := counts.resumeValidations + 1
          resumeFailures := counts.resumeFailures + (Fields.isString event "status" "failed").toNat }
      errors := keys ["verifiedPieces", "discardedPieces", "status"] ++
        report (!integer (field "verifiedPieces") || !integer (field "discardedPieces") ||
          !isOneOf (field "status") ["passed", "failed"]) (path ++ ": invalid resume validation") }
  else if hasType event "lifecycle" then
    let disposed := Fields.isString event "status" "dispose_completed"
    { counts :=
        { counts with
          lifecycleLeaks := counts.lifecycleLeaks + (disposed && !isClean event).toNat }
      errors := keys ["status", "outstandingDirect", "activeTimers"] ++
        report (!isOneOf (field "status") LIFECYCLE_STATUSES ||
          !integer (field "outstandingDirect") || !integer (field "activeTimers"))
          (path ++ ": invalid lifecycle event")
      disposed }
  else if hasType event "direct_lifecycle_error" then
    { counts :=
        { counts with
          lifecycleLeaks := counts.lifecycleLeaks + 1
          framingFailures := counts.framingFailures +
            (Fields.isString event "phase" "receive").toNat
          integrityFailures := counts.integrityFailures +
            (Fields.isString event "phase" "storage" || Fields.isString event "phase" "persist").toNat }
      errors := keys ["phase", "code"] ++
        report (!isOneOf (field "phase") PHASES || !l.test symbolicPattern (field "code"))
          (path ++ ": invalid lifecycle error") }
  else { counts, errors := [path ++ ": unknown event type"] }

/-- What the events so far have brought. -/
structure Derivation where
  counts : Counts := {}
  errors : List String := []
  lastController : Option JsValue := none
  disposeCount : Nat := 0
  previousSequence : Nat := 0

def deriveStep (l : Language) (file : String) (run : Fields) (windowCap : Option JsValue)
    (d : Derivation) (entry : JsValue × Nat) : Derivation :=
  let path := file ++ ".events[" ++ toString entry.2 ++ "]"
  match entry.1 with
  | .object event =>
    let sequence := d.previousSequence + 1
    let timing := report (!isNumber (Fields.field? event "seq") sequence ||
      !safeInteger (Fields.field? event "atMs") ||
      l.less (Fields.field? event "atMs") (Fields.field? run "startedAtMs") ||
      l.less (Fields.field? run "endedAtMs") (Fields.field? event "atMs"))
      (path ++ ": sequence/timestamp invalid")
    let derived := deriveEvent l event path d.counts windowCap
    { counts := derived.counts
      errors := d.errors ++ timing ++ derived.errors
      lastController := derived.controller.getD d.lastController
      disposeCount := d.disposeCount + derived.disposed.toNat
      previousSequence := sequence }
  | _ => { d with errors := d.errors ++ [path ++ ": object required"] }

def isDisposeEvent : JsValue → Bool
  | .object event => isDisposal event
  | _ => false

def derive (l : Language) (file : String) (run : Fields) (windowCap : Option JsValue) :
    Counts × List String :=
  match Fields.field? run "events" with
  | some (.array events) =>
    let d := events.zipIdx.foldl (deriveStep l file run windowCap) {}
    let disposeEvent := events.find? isDisposeEvent
    (d.counts, d.errors ++
      report (d.disposeCount = 0) (file ++ ": dispose event missing") ++
      report (1 < d.disposeCount) (file ++ ": duplicate dispose event") ++
      report (d.disposeCount = 1 && events.findIdx isDisposeEvent + 1 ≠ events.length)
        (file ++ ": dispose must be final") ++
      report (d.disposeCount = 1 &&
        !(isNumber (property disposeEvent "outstandingDirect") 0 &&
          isNumber (property disposeEvent "activeTimers") 0))
        (file ++ ": dispose must have zero outstanding work") ++
      report (!strictEq d.lastController (Fields.field? run "outcome"))
        (file ++ ": outcome must match final controller state"))
  | _ => ({}, [file ++ ": events must be array"])

def validateCounts (counts : Option JsValue) (derived : Counts) (file : String) : List String :=
  match counts with
  | some (.object fields) =>
    exact counts COUNT_KEYS (file ++ ".counts") ++
      (COUNT_KEYS.flatMap fun key =>
        report (!integer (Fields.field? fields key)) (file ++ ": invalid count " ++ key)) ++
      report (!sameJson counts derived) (file ++ ": counts do not recompute")
  | _ => [file ++ ": counts required"]

/-! One run. -/

/-- `String(run.window)`. -/
def windowKey (l : Language) (run : Fields) : Option String :=
  (Fields.field? run "window").elim (some "undefined") fun window =>
    (window.toText l.numberText).toOption

def findPair (run : Fields) (manifest : JsValue) : Option JsValue :=
  match property (some manifest) "pairs" with
  | some (.array items) =>
    items.find? fun item =>
      strictEq (property (some item) "pairId") (Fields.field? run "pairId")
  | _ => none

def identityErrors (l : Language) (run : Fields) (manifest : JsValue) (file : String) :
    List String :=
  let field := Fields.field? run
  let fixture := property (some manifest) "fixture"
  report (!isOneOf (field "schema") [SCHEMA]) (file ++ ": invalid schema") ++
    report (!l.test idPattern (some (JsValue.coalesce (.string "") [field "runId"])) ||
      !strictEq (field "suiteId") (property (some manifest) "suiteId") ||
      !strictEq (field "fixtureId") (property fixture "fixtureId") ||
      !strictEq (field "fixtureSha256") (property fixture "fixtureSha256") ||
      !strictEq (field "buildSha") (property (some manifest) "buildSha"))
      (file ++ ": provenance mismatch")

def timingErrors (l : Language) (run : Fields) (file : String) : List String :=
  let field := Fields.field? run
  report (!safeInteger (field "attempt") || l.less (field "attempt") (some (.number (.ofNat 1))) ||
    l.less (some (.number (.ofNat 10))) (field "attempt") ||
    !(isNumber (field "window") 1 || isNumber (field "window") 2) ||
    !safeInteger (field "startedAtMs") || !safeInteger (field "endedAtMs") ||
    l.less (field "endedAtMs") (field "startedAtMs")) (file ++ ": invalid timing/attempt/window") ++
    report (!isOneOf (field "outcome") OUTCOMES || !isOneOf (field "path") PATHS)
      (file ++ ": invalid outcome/path")

def transferErrors (run : Fields) (manifest : JsValue) (file : String) : List String :=
  let transfer := Fields.field? run "transfer"
  let fixture := property (some manifest) "fixture"
  report (!integer (property transfer "fileBytes") || !integer (property transfer "pieceBytes") ||
    !integer (property transfer "pieceCount") ||
    !isOneOf (property transfer "hashMode") ["sha256"] ||
    !TRANSFER_KEYS.all fun key => strictEq (property transfer key) (property fixture key))
    (file ++ ": invalid transfer/provenance")

/-- The pair is that of the run. -/
def pairMatches (l : Language) (run : Fields) (pair : JsValue) : Bool :=
  let field := Fields.field? run
  let environment := field "environment"
  pair.isTruthy && strictEq (property (some pair) "stratum") (field "stratum") &&
    strictEq (property (some pair) "browserFamilyMajor")
      (property environment "browserFamilyMajor") &&
    strictEq (property (some pair) "storageKind") (property environment "storageKind") &&
    strictEq (property (some pair) "path") (field "path") &&
    strictEq (field "runId")
      ((windowKey l run).bind (element (property (some pair) "runs"))) &&
    strictEq (field "attempt") (property (some pair) "attempt")

def pairErrors (l : Language) (run : Fields) (manifest : JsValue) (file : String) : List String :=
  report (!(findPair run manifest).elim false (pairMatches l run))
    (file ++ ": pair/provenance mismatch")

def windowCap (l : Language) (run : Fields) (manifest : JsValue) : Option JsValue :=
  (windowKey l run).bind
    (element (property (property (some manifest) "windowPolicy") "maxInFlight"))

def successErrors (run : Fields) (counts : Counts) (file : String) : List String :=
  report (Fields.isString run "outcome" "succeeded" &&
    (!strictEq (some (.number (.ofNat counts.verified)))
        (property (Fields.field? run "transfer") "pieceCount") ||
      counts.resumeValidations < 1 || 0 < counts.resumeFailures))
    (file ++ ": successful outcome requires all pieces verified and passed resume validation")

/-- The errors of `checkRun`. -/
def checkRun (l : Language) (value manifest : JsValue) (file : String) : List String :=
  match value with
  | .object run =>
    let (counts, derived) := derive l file run (windowCap l run manifest)
    exact (some value) ROOT_KEYS file ++ identityErrors l run manifest file ++
      timingErrors l run file ++
      exact (Fields.field? run "environment") ENVIRONMENT_KEYS (file ++ ".environment") ++
      exact (Fields.field? run "transfer") TRANSFER_KEYS (file ++ ".transfer") ++
      transferErrors run manifest file ++ pairErrors l run manifest file ++ derived ++
      validateCounts (Fields.field? run "counts") counts file ++ successErrors run counts file ++
      privacy file value
  | _ => [file ++ ": object required"]

end PonsWarp.Scripts
