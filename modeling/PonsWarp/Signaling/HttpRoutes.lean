import PonsWarp.Data.UriComponent
import PonsWarp.Signaling.ShareRegistry

set_option autoImplicit false

/-!
`handleHttpRequest`: the routes of the signaling server. A handler writes responses and may
end with an error, which rejects its promise; nobody waits for this promise.
-/

namespace PonsWarp.Signaling

open PonsWarp.Core PonsWarp.Data ShareCodes

structure HttpResponse where
  status : Nat
  headers : List (String × String)
  body : JsValue

/-- What a handler has written, and the registry that it leaves. -/
structure Exchange where
  written : List HttpResponse
  shareRegistry : BrowserShareRegistry

/-- How a handler ends. -/
structure Handled where
  exchange : Exchange
  rejection : Option JsError

def writeJson (x : Exchange) (status : Nat) (body : JsValue)
    (headers : List (String × String) := []) : Handled :=
  ⟨{ x with written := x.written ++
    [⟨status, ("content-type", "application/json") :: headers, body⟩] }, none⟩

def NO_CACHE : List (String × String) := [("cache-control", "no-cache")]

def NO_STORE : List (String × String) := [("cache-control", "no-store")]

def uriError : JsError := ⟨"URIError", "URI malformed"⟩

/-! The body of a request. -/

def MAX_BODY_BYTES : Nat := 1000000

/-- The loop over the chunks, which is left when there are too many bytes. -/
def readChunks (failure : Option JsError) (bytes : List UInt8) :
    List (List UInt8) → Except JsError (Option (List UInt8))
  | [] => match failure with
    | some e => .error e
    | none => .ok (some bytes)
  | chunk :: rest =>
    if MAX_BODY_BYTES < (bytes ++ chunk).length then .ok none
    else readChunks failure (bytes ++ chunk) rest

def readJsonBody (r : Runtime) (body : BodyStream) : Except JsError (Option Fields) :=
  match readChunks body.failure [] body.chunks with
  | .error e => .error e
  | .ok none => .ok none
  | .ok (some bytes) =>
    if body.chunks = [] then .ok (some [])
    else match r.parseJson (utf8Decode bytes) with
      | some (.object fields) => .ok (some fields)
      | _ => .ok none

/-! The routes. -/

def handleHealthz (config : HttpServerConfig) (x : Exchange) : Handled :=
  writeJson x 200 (.object [("status", .string "ok"), ("service", .string config.serviceName),
    ("version", .string config.version), ("commitSha", .string config.commitSha)])

def readinessChecks (config : HttpServerConfig) : OrderedMap String ReadinessStatus :=
  config.readinessChecks.entries.foldl (fun checks (name, status) => checks.set name status)
    ((OrderedMap.empty.set "process" .ok).set "websocket" .ok)

def handleReadyz (config : HttpServerConfig) (x : Exchange) : Handled :=
  let checks := readinessChecks config
  let ready := checks.entries.all fun (name, status) =>
    status = .ok || (name = "cleanupScheduler" && status = .disabled)
  writeJson x (if ready then 200 else 503)
    (.object [("status", .string (if ready then "ready" else "not_ready")),
      ("service", .string config.serviceName), ("version", .string config.version),
      ("commitSha", .string config.commitSha), ("domain", .string config.deploymentDomain),
      ("legacyDomain", .string config.legacyDomain),
      ("checks", .object (checks.entries.map fun (name, status) => (name, .string status.text)))])

def handleVersion (config : HttpServerConfig) (x : Exchange) : Handled :=
  writeJson x 200 (.object [("service", .string config.serviceName),
    ("version", .string config.version), ("commitSha", .string config.commitSha),
    ("domain", .string config.deploymentDomain), ("legacyDomain", .string config.legacyDomain)])
    NO_CACHE

/-- What the routes find out about their surroundings: the environment and the clocks. -/
structure Surroundings where
  stunUrl : Option String
  dateNow : Number
  clock : RegistryClock

def iceServer (urls : List String) (credentials : List (String × String)) : JsValue :=
  .object (("urls", .array (urls.map .string)) ::
    credentials.map fun (name, value) => (name, .string value))

def createIceResponse (r : Runtime) (config : HttpServerConfig) (m : Surroundings) : JsValue :=
  let ttlSeconds := if config.turnTtlSeconds.isFinite && !config.turnTtlSeconds.isNonPositive then
    config.turnTtlSeconds else .finite 600
  let stunUrl := m.stunUrl.getD "stun:turn.ponslink.com:3478"
  let stun := if stunUrl = "" then [] else [iceServer [stunUrl] []]
  let turn := match truthy config.turnStaticAuthSecret with
    | none => []
    | some secret =>
      if config.turnUrls = [] then []
      else
        let expiresAt := (JsNumber.finite (m.dateNow / 1000).floor).add ttlSeconds
        let username := r.numberText expiresAt ++ ":grid"
        [iceServer config.turnUrls
          [("username", username), ("credential", r.hmacSha1Base64 secret username)]]
  .object [("iceServers", .array (stun ++ turn)), ("ttlSeconds", .number ttlSeconds),
    ("relayPolicyRecommended", .bool false)]

def postFiles (r : Runtime) (request : IncomingMessage) (x : Exchange) : Handled :=
  match readJsonBody r request.body with
  | .error e => ⟨x, some e⟩
  | .ok body =>
    match body.bind (Fields.field? · "fileId") with
    | some (.string fileId) =>
      writeJson x 200 (.object [("ok", .bool true), ("fileId", .string fileId),
        ("published", .bool true)])
    | _ => writeJson x 400 (.object [("error", .string "invalid_body"),
        ("message", .string "fileId required")])

/-- The texts that a share is published with. -/
structure ShareTexts where
  sessionId : String
  joinUrl : String
  codeRaw : String
  fileId : String
  ownerPeerId : String

def capabilities (body : Fields) : Fields :=
  match Fields.field? body "capabilities" with
  | some (.object fields) => fields
  | _ => []

/-- A text of a share: the first of the fields that is there. -/
def shareText (fields : List (Option JsValue)) : JsValue :=
  JsValue.coalesce (.string "") fields

def sessionIdOf (body : Fields) : JsValue :=
  shareText [Fields.field? (capabilities body) "signalingSessionId",
    Fields.field? body "signalingSessionId"]

def joinUrlOf (body : Fields) : JsValue :=
  shareText [Fields.field? (capabilities body) "joinUrl", Fields.field? body "joinUrl"]

def codeOf (body : Fields) : JsValue :=
  shareText [Fields.field? body "requestedCode", Fields.field? body "code"]

def fileIdOf (body : Fields) : JsValue := shareText [Fields.field? body "fileId"]

def ownerPeerIdOf (body : Fields) : JsValue :=
  shareText [Fields.field? body "createdByNodeId", Fields.field? body "ownerPeerId"]

def shareTexts (r : Runtime) (body : Fields) : Except JsError ShareTexts := do
  let sessionId ← (sessionIdOf body).toText r.numberText
  let joinUrl ← (joinUrlOf body).toText r.numberText
  let codeRaw ← (codeOf body).toText r.numberText
  let fileId ← (fileIdOf body).toText r.numberText
  let ownerPeerId ← (ownerPeerIdOf body).toText r.numberText
  .ok ⟨sessionId, joinUrl, codeRaw, fileId, ownerPeerId⟩

def ttlSeconds (body : Fields) : JsNumber :=
  match Fields.field? body "ttlSeconds" with
  | some (.number x) => if x.isNonPositive || x = .nan then .finite 86400 else x
  | _ => .finite 86400

/-- A number of a share. -/
def shareNumber (r : Runtime) (fields : List (Option JsValue)) : Except JsError JsNumber := do
  let x ← (JsValue.coalesce (.number (.finite 0)) fields).toNumber r.numberText r.textNumber
  .ok x.orZero

def baseUrl (config : HttpServerConfig) : String :=
  String.ofList (stripSlash config.publicBaseUrl.toList)

/-- The arguments of `put`. -/
def shareInput (r : Runtime) (config : HttpServerConfig) (body : Fields) (texts : ShareTexts) :
    Except JsError ShareInput := do
  let caps := capabilities body
  let fileName ← (JsValue.coalesce (.string texts.fileId)
    [Fields.field? body "fileName", Fields.field? caps "fileName"]).toText r.numberText
  let sizeBytes ← shareNumber r [Fields.field? body "sizeBytes", Fields.field? caps "sizeBytes"]
  let pieceSize ← shareNumber r [Fields.field? caps "pieceSize", Fields.field? body "pieceSize"]
  let pieceCount ← shareNumber r [Fields.field? body "pieceCount", Fields.field? caps "pieceCount"]
  .ok { code := texts.codeRaw
        sessionId := texts.sessionId
        fileId := texts.fileId
        fileName
        sizeBytes
        pieceSize
        pieceCount
        ownerPeerId := texts.ownerPeerId
        joinUrl := if texts.joinUrl = "" then baseUrl config ++ "/#/join/" ++ texts.sessionId
          else texts.joinUrl
        ttlMs := (ttlSeconds body).scale 1000 }

def encoded (r : Runtime) (text : String) : Except JsError String :=
  match r.encodeURIComponent text with
  | some text => .ok text
  | none => .error uriError

/-- What is answered when a share is published. -/
def publishedShare (r : Runtime) (config : HttpServerConfig) (record : BrowserShareRecord) :
    Except JsError JsValue := do
  let code ← encoded r record.code
  let session ← encoded r record.sessionId
  let link := baseUrl config ++ "/#/get/" ++ code ++ "?session=" ++ session
  .ok (.object [("code", .string record.code), ("link", .string link), ("getUrl", .string link),
    ("fileId", .string record.fileId), ("signalingSessionId", .string record.sessionId),
    ("joinUrl", .string record.joinUrl), ("expiresAt", .number record.expiresAt)])

/-- What stands between `try` and `catch`, up to the response. -/
def publishShare (r : Runtime) (config : HttpServerConfig) (m : Surroundings) (body : Fields)
    (texts : ShareTexts) (registry : BrowserShareRegistry) :
    Except JsError JsValue × BrowserShareRegistry :=
  match shareInput r config body texts with
  | .error e => (.error e, registry)
  | .ok input =>
    match registry.put r m.clock input with
    | (.error e, registry) => (.error e, registry)
    | (.ok record, registry) => (publishedShare r config record, registry)

def postShares (r : Runtime) (config : HttpServerConfig) (m : Surroundings)
    (request : IncomingMessage) (x : Exchange) : Handled :=
  match readJsonBody r request.body with
  | .error e => ⟨x, some e⟩
  | .ok none => writeJson x 400 (.object [("error", .string "invalid_body")])
  | .ok (some body) =>
    match shareTexts r body with
    | .error e => ⟨x, some e⟩
    | .ok texts =>
      if texts.sessionId = "" ∨ texts.codeRaw = "" ∨ texts.fileId = "" then
        writeJson x 400 (.object [("error", .string "invalid_body"), ("message", .string
          "requestedCode, fileId, capabilities.signalingSessionId required")])
      else
        let (published, registry) := publishShare r config m body texts x.shareRegistry
        let x := { x with shareRegistry := registry }
        match published with
        | .ok answer => writeJson x 200 answer
        | .error e => writeJson x 400 (.object [("error", .string "share_failed"),
            ("message", .string e.message)])

def SHARES : List Char := "/api/grid/v1/shares/".toList

/-- The two first parts of what follows `SHARES`. -/
def shareParts (path : List Char) : List Char × Option (List Char) :=
  let parts := (path.drop SHARES.length).splitOn '/'
  (parts.headD [], parts[1]?)

def shareProviders (record : BrowserShareRecord) : JsValue :=
  .object [("providers", .array [.object [("nodeId", .string record.ownerPeerId),
    ("online", .bool true), ("endpointHints", .array [.object
      [("kind", .string "ponswarp-join"), ("value", .string record.joinUrl)]])]])]

def shareAnswer (record : BrowserShareRecord) : JsValue :=
  .object [("code", .string record.code), ("fileId", .string record.fileId),
    ("name", .string record.fileName), ("fileName", .string record.fileName),
    ("sizeBytes", .number record.sizeBytes), ("signalingSessionId", .string record.sessionId),
    ("sessionId", .string record.sessionId), ("joinUrl", .string record.joinUrl),
    ("capabilities", .object [("browser", .bool true), ("directTransfer", .bool true),
      ("signalingSessionId", .string record.sessionId), ("joinUrl", .string record.joinUrl),
      ("pieceSize", .number record.pieceSize)]),
    ("expiresAt", .number record.expiresAt)]

def getShare (r : Runtime) (m : Surroundings) (path : List Char) (x : Exchange) : Handled :=
  let (codePart, maybeCandidates) := shareParts path
  match decodeURIComponent codePart with
  | none => ⟨x, some uriError⟩
  | some code =>
    let (found, registry) := x.shareRegistry.get r m.clock (String.ofList code)
    let x := { x with shareRegistry := registry }
    match found with
    | none => writeJson x 404 (.object [("error", .string "not_found")])
    | some record =>
      if maybeCandidates = some "candidates".toList then
        writeJson x 200 (shareProviders record) NO_STORE
      else writeJson x 200 (shareAnswer record) NO_STORE

def notImplemented (config : HttpServerConfig) : JsValue :=
  .object [("error", .string "not_implemented"), ("service", .string config.serviceName),
    ("message", .string "Unsupported coordinator route on the TypeScript signaling server."),
    ("expectedExternalService", .string "ponswarp-grid-coordinator")]

/-- The path without the slashes at its end. -/
def routePath (url : Url) : List Char :=
  let path := (url.pathname.toList.reverse.dropWhile (· = '/')).reverse
  if path = [] then ['/'] else path

def FILES_ROUTE : List Char := "/api/grid/v1/workspaces/browser/files".toList

def SHARES_ROUTE : List Char := "/api/grid/v1/workspaces/browser/shares".toList

/-- What is done once the path is known. -/
def handleRoute (r : Runtime) (config : HttpServerConfig) (m : Surroundings)
    (request : IncomingMessage) (path : List Char) (x : Exchange) : Handled :=
  if request.method = some "POST" ∧ path = FILES_ROUTE then postFiles r request x
  else if request.method = some "POST" ∧ path = SHARES_ROUTE then postShares r config m request x
  else if request.method = some "GET" ∧ SHARES <+: path then getShare r m path x
  else if "/api/grid/v1/shares".toList <+: path ∨ "/api/grid/v1/workspaces".toList <+: path then
    writeJson x 501 (notImplemented config)
  else writeJson x 404 (.object [("error", .string "not_found")])

def handleHttpRequest (r : Runtime) (config : HttpServerConfig) (m : Surroundings)
    (request : IncomingMessage) (x : Exchange) : Handled :=
  if request.url = some "/healthz" then handleHealthz config x
  else if request.url = some "/readyz" then handleReadyz config x
  else if request.url = some "/version.json" then handleVersion config x
  else if request.url = some "/api/grid/v1/ice" then
    writeJson x 200 (createIceResponse r config m) NO_CACHE
  else
    match request.parsedUrl r with
    | none => ⟨x, some ⟨"TypeError", "Invalid URL"⟩⟩
    | some url => handleRoute r config m request (routePath url) x

end PonsWarp.Signaling
