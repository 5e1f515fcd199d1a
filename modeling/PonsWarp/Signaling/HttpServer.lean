import Mathlib.Data.List.TakeWhile
import PonsWarp.Cli.ShareCodes
import PonsWarp.Core.JsConversion
import PonsWarp.Signaling.Gateway

set_option autoImplicit false

/-!
The HTTP side of the signaling server: the settings it is made with, what it reads of a
request, and the connections that it takes over for the gateway.
-/

namespace PonsWarp.Signaling

open PonsWarp.Core PonsWarp.Data

/-- What is looked at of a parsed URL. -/
structure Url where
  pathname : String
  searchParams : List (String × String)
  deriving DecidableEq

/-- `searchParams.get`. -/
def Url.param (url : Url) (name : String) : Option String := url.searchParams.lookup name

/-- What the language and its runtime give besides. A URL that is asked for by its path alone, with
no question mark, has no query. -/
structure Runtime extends ShareCodes.Platform where
  requestUrl : String → String → Option Url
  requestUrl_path : ∀ (path : List Char) (host : String) (url : Url), '?' ∉ path →
    requestUrl (String.ofList ('/' :: path)) host = some url → url.searchParams = []
  parseJson : List Char → Option JsValue
  numberText : JsNumber → String
  textNumber : String → JsNumber
  encodeURIComponent : String → Option String
  sha1Base64 : String → String
  hmacSha1Base64 : String → String → String

inductive ReadinessStatus
  | ok
  | degraded
  | disabled
  deriving DecidableEq

def ReadinessStatus.text : ReadinessStatus → String
  | .ok => "ok"
  | .degraded => "degraded"
  | .disabled => "disabled"

/-- `SignalingServerConfig` with what the HTTP side reads of it. -/
structure HttpServerConfig extends SignalingServerConfig where
  allowedOrigins : List String
  serviceName : String
  deploymentDomain : String
  legacyDomain : String
  version : String
  commitSha : String
  readinessChecks : OrderedMap String ReadinessStatus
  turnStaticAuthSecret : Option String
  turnUrls : List String
  turnTtlSeconds : JsNumber
  sessionToken : Option String

/-- The body of a request: the chunks that come, and the error that the stream ends with when it
does not end by itself. -/
structure BodyStream where
  chunks : List (List UInt8)
  failure : Option JsError

structure IncomingMessage where
  method : Option String
  url : Option String
  host : Option String
  origin : Option String
  secWebSocketKey : Option String
  body : BodyStream

def IncomingMessage.parsedUrl (r : Runtime) (request : IncomingMessage) : Option Url :=
  r.requestUrl (request.url.getD "/") ("http://" ++ request.host.getD "localhost")

def isGridWebSocketPath (url : Option String) : Bool :=
  url = some "/ws" || url = some "/ws/" || url = some "/ws/grid" || url = some "/ws/grid/"

def isOriginAllowed (origin : Option String) (allowedOrigins : List String) : Bool :=
  allowedOrigins = [] || origin.elim false (allowedOrigins.contains ·)

structure UpgradeSocket where
  written : List String := []
  destroyed : Bool := false
  deriving DecidableEq

def UpgradeSocket.refuse (socket : UpgradeSocket) (status : String) : UpgradeSocket :=
  { written := socket.written ++ ["HTTP/1.1 " ++ status ++ "\r\n\r\n"], destroyed := true }

def acceptWebSocket (r : Runtime) (key : String) (socket : UpgradeSocket) : UpgradeSocket :=
  let accept := r.sha1Base64 (key ++ "258EAFA5-E914-47DA-95CA-C5AB0DC85B11")
  { socket with written := socket.written ++
      [String.intercalate "\r\n" ["HTTP/1.1 101 Switching Protocols", "Upgrade: websocket",
        "Connection: Upgrade", "Sec-WebSocket-Accept: " ++ accept, "\r\n"]] }

structure Upgrade (F : Type) where
  gateway : SignalingGateway F
  socket : UpgradeSocket

/-- What the token check says to a request: the URL may be none. -/
def checkToken (r : Runtime) (config : HttpServerConfig) (request : IncomingMessage) :
    Except JsError Bool :=
  match truthy config.sessionToken with
  | none => .ok true
  | some token =>
    match request.parsedUrl r with
    | none => .error ⟨"TypeError", "Invalid URL"⟩
    | some url => .ok (url.param "token" = some token)

variable {F : Type}

/-- The listener for `upgrade`. The connection `c` is the one that would be made. -/
def onUpgrade (r : Runtime) (config : HttpServerConfig) (request : IncomingMessage) (m : Moment)
    (c : ConnectionId) (s : Upgrade F) : Except JsError (Upgrade F) :=
  if !isOriginAllowed request.origin config.allowedOrigins then
    .ok { s with socket := s.socket.refuse "403 Forbidden" }
  else
    match checkToken r config request with
    | .error e => .error e
    | .ok false => .ok { s with socket := s.socket.refuse "401 Unauthorized" }
    | .ok true =>
      if !isGridWebSocketPath request.url then
        .ok { s with socket := s.socket.refuse "404 Not Found" }
      else
        match request.secWebSocketKey with
        | none => .ok { s with socket := s.socket.refuse "400 Bad Request" }
        | some key =>
          .ok { gateway := s.gateway.attach m c, socket := acceptWebSocket r key s.socket }

theorem sampleUpper_ascii (c : Char) (_ : c.toNat < 128) : [c.toUpper] = [c.toUpper] := rfl

/-- A runtime that reads one query and no JSON. -/
def sampleRuntime : Runtime where
  upper := fun c => [c.toUpper]
  newUrl := fun _ => none
  sha256 := fun _ => Vector.replicate 32 0
  ascii := sampleUpper_ascii
  requestUrl := fun input _ =>
    some ⟨String.ofList (input.toList.takeWhile (· ≠ '?')),
      if input.toList.dropWhile (· ≠ '?') = "?token=secret".toList then [("token", "secret")]
      else []⟩
  requestUrl_path := by
    intro path host url hpath hurl
    have hdrop : ('/' :: path).dropWhile (· ≠ '?') = [] := by
      rw [List.dropWhile_eq_nil_iff]
      intro c hc
      have hne : c ≠ '?' := by
        rintro rfl
        simp [hpath] at hc
      simpa using hne
    cases hurl
    simp only [String.toList_ofList, hdrop]
    rfl
  parseJson := fun _ => none
  numberText := fun _ => ""
  textNumber := fun _ => .nan
  encodeURIComponent := some
  sha1Base64 := id
  hmacSha1Base64 := fun _ text => text

def sampleConfig : HttpServerConfig where
  publicBaseUrl := "https://grid.test"
  sessionTtlMs := 3600000
  maxPeersPerSession := 16
  maxSessions := 1024
  stalePeerTimeoutMs := 300000
  allowedOrigins := []
  serviceName := "ponswarp-signaling"
  deploymentDomain := ""
  legacyDomain := "warp.ponslink.com"
  version := "0.1.0"
  commitSha := "dev"
  readinessChecks := .empty
  turnStaticAuthSecret := none
  turnUrls := []
  turnTtlSeconds := .finite 600
  sessionToken := some "secret"

def sampleRequest (url : String) : IncomingMessage where
  method := some "GET"
  url := some url
  host := some "grid.test"
  origin := none
  secWebSocketKey := some "dGhlIHNhbXBsZSBub25jZQ=="
  body := ⟨[], none⟩

end PonsWarp.Signaling
