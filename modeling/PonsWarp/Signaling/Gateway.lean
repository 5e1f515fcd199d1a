import PonsWarp.Data.Run
import PonsWarp.Signaling.RoomManager

set_option autoImplicit false

/-!
`SignalingGateway` over the WebSocket connections of the server. Its methods run
without interruption, so a gateway takes one action at a time: a connection is
attached, sends a text, is closed, or the stale ones are cleaned up.
-/

namespace PonsWarp.Signaling

open PonsWarp.Data PonsWarp.Core

abbrev ConnectionId := Nat

structure SignalingServerConfig where
  publicBaseUrl : String
  sessionTtlMs : Number
  maxPeersPerSession : Number
  maxSessions : Number
  stalePeerTimeoutMs : Number

/-- What the outside decides for one action: the clocks of the gateway and of its
room manager, and the random ids. -/
structure Moment where
  now : Number
  roomNow : Number
  sessionUuid : String
  replyUuid : String
  broadcastUuid : String

/-- `MinimalWebSocketConnection`, as far as the gateway knows it. -/
structure Connection where
  peerId : Option PeerId
  sessionId : Option SessionId
  lastSeenAt : Number
  closed : Bool
  deriving DecidableEq

inductive SignalingGatewayEvent (F : Type) where
  | sessionCreated (session : RoomSnapshot F)
  | peerJoined (sessionId : SessionId) (peer : PeerSummary) (peers : List PeerSummary)
  | peerLeft (sessionId : SessionId) (peerId : PeerId)
  | relayed (envelope : SignalingEnvelope F)
  deriving DecidableEq

inductive Effect (F : Type) where
  | send (connection : ConnectionId) (envelope : SignalingEnvelope F)
  | close (connection : ConnectionId) (code : Nat) (reason : String)
  | emit (event : SignalingGatewayEvent F)
  deriving DecidableEq

/-- `peers` is the set of attached connections in the order they were attached. The
fields of a connection outlive its attachment. `bound` lists the identities that
connections took on, the latest last; no method reads it. -/
structure SignalingGateway (F : Type) where
  roomManager : RoomManager F
  peers : List ConnectionId
  connections : OrderedMap ConnectionId Connection
  log : List (Effect F)
  bound : List (ConnectionId × SessionId × PeerId)

variable {F : Type}

namespace SignalingGateway

def new : SignalingGateway F := ⟨⟨.empty⟩, [], .empty, [], []⟩

def connection (g : SignalingGateway F) (c : ConnectionId) : Connection :=
  (g.connections.get? c).getD ⟨none, none, 0, false⟩

def putConnection (g : SignalingGateway F) (c : ConnectionId) (connection : Connection) :
    SignalingGateway F :=
  { g with connections := g.connections.set c connection }

def emit (g : SignalingGateway F) (event : SignalingGatewayEvent F) : SignalingGateway F :=
  { g with log := g.log ++ [.emit event] }

/-- `send` of a connection: a closed one drops the data. -/
def send (g : SignalingGateway F) (c : ConnectionId) (envelope : SignalingEnvelope F) :
    SignalingGateway F :=
  if (g.connection c).closed then g else { g with log := g.log ++ [.send c envelope] }

def attach (g : SignalingGateway F) (m : Moment) (c : ConnectionId) : SignalingGateway F :=
  { g.putConnection c { g.connection c with lastSeenAt := m.now } with
    peers := insertNew g.peers c }

/-- The envelope is sent to each attached connection of the session but those of one peer. -/
def broadcast (g : SignalingGateway F) (sessionId : SessionId) (envelope : SignalingEnvelope F)
    (exceptPeerId : PeerId) : SignalingGateway F :=
  (g.peers.filter fun c => (g.connection c).sessionId = some sessionId ∧
    (g.connection c).peerId ≠ some exceptPeerId).foldl (fun g c => g.send c envelope) g

def broadcastPeerJoined (g : SignalingGateway F) (m : Moment) (sessionId : SessionId)
    (peerId : PeerId) : SignalingGateway F :=
  g.broadcast sessionId ⟨"msg_" ++ m.broadcastUuid, .PEER_JOINED, some sessionId, some peerId, none,
    m.now, .peer peerId (some .receiver)⟩ peerId

def broadcastPeerLeft (g : SignalingGateway F) (m : Moment) (sessionId : SessionId)
    (peerId : PeerId) : SignalingGateway F :=
  g.broadcast sessionId ⟨"msg_" ++ m.broadcastUuid, .PEER_LEFT, some sessionId, some peerId, none,
    m.now, .peer peerId none⟩ peerId

def sendError (g : SignalingGateway F) (m : Moment) (c : ConnectionId)
    (sessionId : Option SessionId) (toPeerId : Option PeerId) (message code : String) :
    SignalingGateway F :=
  g.send c ⟨"msg_" ++ m.replyUuid, .ERROR, sessionId, none, toPeerId, m.now, .error code message⟩

/-- The session and the peer a connection stands for. -/
def binding (g : SignalingGateway F) (c : ConnectionId) : Option (SessionId × PeerId) :=
  match truthy (g.connection c).sessionId, truthy (g.connection c).peerId with
  | some sessionId, some peerId => some (sessionId, peerId)
  | _, _ => none

/-- A peer leaves: the room manager, the others in the room and the listeners hear of it. -/
def leave (g : SignalingGateway F) (m : Moment) (sessionId : SessionId) (peerId : PeerId) :
    SignalingGateway F :=
  { g with roomManager := (g.roomManager.leaveSession sessionId peerId).1 }.broadcastPeerLeft
    m sessionId peerId

def detach (g : SignalingGateway F) (m : Moment) (c : ConnectionId) : SignalingGateway F :=
  let g := { g with peers := g.peers.filter (· ≠ c) }
  match g.binding c with
  | some (sessionId, peerId) => (g.leave m sessionId peerId).emit (.peerLeft sessionId peerId)
  | none => g

/-- `handleClose` of a connection, the first time, with `onClose` of the server. -/
def handleClose (g : SignalingGateway F) (m : Moment) (c : ConnectionId) : SignalingGateway F :=
  if (g.connection c).closed then g
  else (g.putConnection c { g.connection c with closed := true }).detach m c

def close (g : SignalingGateway F) (m : Moment) (c : ConnectionId) (code : Nat)
    (reason : String) : SignalingGateway F :=
  if (g.connection c).closed then g
  else { g with log := g.log ++ [Effect.close c code reason] }.handleClose m c

/-- The loop of `cleanupStalePeers`. -/
def dropStale (m : Moment) (cutoff : Number) :
    List ConnectionId → Nat → SignalingGateway F → SignalingGateway F × Nat
  | [], removed, g => (g, removed)
  | c :: rest, removed, g =>
    if (g.connection c).lastSeenAt ≤ cutoff then
      dropStale m cutoff rest (removed + 1) ((g.close m c 4000 "stale peer").detach m c)
    else dropStale m cutoff rest removed g

def cleanupStalePeers (g : SignalingGateway F) (cfg : SignalingServerConfig) (m : Moment) :
    SignalingGateway F × Nat :=
  let (g, removed) := dropStale m (m.now - cfg.stalePeerTimeoutMs) g.peers 0 g
  let (roomManager, expired) := g.roomManager.cleanupExpired m.roomNow
  ({ g with roomManager := roomManager }, removed + expired)

def bind (g : SignalingGateway F) (c : ConnectionId) (sessionId : SessionId) (peerId : PeerId) :
    SignalingGateway F :=
  { g.putConnection c { g.connection c with peerId := some peerId, sessionId := some sessionId } with
    bound := g.bound ++ [(c, sessionId, peerId)] }

/-- `url.replace(/\/$/, '')` -/
def dropSlash (url : String) : String :=
  if url.toList.getLast? = some '/' then String.ofList url.toList.dropLast else url

def handleCreateSession (g : SignalingGateway F) (cfg : SignalingServerConfig) (m : Moment)
    (c : ConnectionId) (envelope : SignalingEnvelope F) (ownerPeerId : PeerId) (files : List F) :
    SignalingGateway F × Except String Unit :=
  let sessionId := envelope.sessionId.getD ("sess_" ++ m.sessionUuid)
  match g.roomManager.createSession m.roomNow sessionId ownerPeerId files cfg.sessionTtlMs with
  | .error err => (g, .error err)
  | .ok (roomManager, session) =>
    let g := { g with roomManager := roomManager }.bind c sessionId ownerPeerId
    let g := g.send c ⟨"msg_" ++ m.replyUuid, .SESSION_CREATED, some sessionId, some ownerPeerId,
      none, m.now, .created ownerPeerId session.expiresAt
        (dropSlash cfg.publicBaseUrl ++ "/#/join/" ++ sessionId)⟩
    (g.emit (.sessionCreated session), .ok ())

def handleJoinSession (g : SignalingGateway F) (cfg : SignalingServerConfig) (m : Moment)
    (c : ConnectionId) (envelope : SignalingEnvelope F) : SignalingGateway F × Except String Unit :=
  match truthy envelope.sessionId, truthy envelope.fromPeerId with
  | some sessionId, some peerId =>
    match g.roomManager.joinSession m.roomNow sessionId peerId with
    | (roomManager, .error err) => ({ g with roomManager := roomManager }, .error err)
    | (roomManager, .ok session) =>
      if cfg.maxPeersPerSession < session.peers.length then
        ({ g with roomManager := (roomManager.leaveSession sessionId peerId).1 },
         .error "Session peer limit exceeded")
      else
        let g := { g with roomManager := roomManager }.bind c sessionId peerId
        let g := g.send c ⟨"msg_" ++ m.replyUuid, .SESSION_JOINED, some sessionId, some peerId, none,
          m.now, .joined peerId session.ownerPeerId session.peers session.files⟩
        let g := g.broadcastPeerJoined m sessionId peerId
        (g.emit (.peerJoined sessionId ⟨peerId, .receiver⟩ session.peers), .ok ())
  | _, _ => (g, .error "JOIN_SESSION requires sessionId and fromPeerId")

/-- The connection stands for the peer in the session. -/
def standsFor (g : SignalingGateway F) (sessionId : SessionId) (peerId : PeerId)
    (c : ConnectionId) : Bool :=
  (g.connection c).peerId = some peerId && (g.connection c).sessionId = some sessionId

def handleRelay (g : SignalingGateway F) (m : Moment) (envelope : SignalingEnvelope F) :
    SignalingGateway F × Except String Unit :=
  match g.roomManager.relayWebRtc m.roomNow envelope with
  | (roomManager, .error err) => ({ g with roomManager := roomManager }, .error err)
  | (roomManager, .ok relay) =>
    let g := { g with roomManager := roomManager }
    match g.peers.find? (g.standsFor relay.sessionId relay.toPeerId) with
    | none => (g, .error ("Target peer is not connected: " ++ relay.toPeerId))
    | some target => ((g.send target relay.envelope).emit (.relayed relay.envelope), .ok ())

def handleLeave (g : SignalingGateway F) (m : Moment) (c : ConnectionId) (sessionId : SessionId)
    (peerId : PeerId) : SignalingGateway F :=
  let g := g.leave m sessionId peerId
  (g.putConnection c { g.connection c with sessionId := none, peerId := none }).emit
    (.peerLeft sessionId peerId)

/-- `decodeSignaling` lets a `CREATE_SESSION` through with the payload it needs only. -/
def handleEnvelope (g : SignalingGateway F) (cfg : SignalingServerConfig) (m : Moment)
    (c : ConnectionId) (envelope : SignalingEnvelope F) : SignalingGateway F × Except String Unit :=
  match envelope.type, envelope.payload with
  | .CREATE_SESSION, .create ownerPeerId files =>
    g.handleCreateSession cfg m c envelope ownerPeerId files
  | .JOIN_SESSION, _ => g.handleJoinSession cfg m c envelope
  | .WEBRTC_OFFER, _ | .WEBRTC_ANSWER, _ | .ICE_CANDIDATE, _ => g.handleRelay m envelope
  | .PEER_LEFT, _ =>
    match truthy envelope.sessionId, truthy envelope.fromPeerId with
    | some sessionId, some peerId => (g.handleLeave m c sessionId peerId, .ok ())
    | _, _ => (g, .ok ())
  | type, _ =>
    (g.sendError m c envelope.sessionId envelope.fromPeerId
      ("Unsupported client message " ++ type.name) "unsupported_message", .ok ())

/-- `handleText` on what `decodeSignaling` makes of the text. -/
def handleText (g : SignalingGateway F) (cfg : SignalingServerConfig) (m : Moment)
    (c : ConnectionId) (decoded : Except String (SignalingEnvelope F)) : SignalingGateway F :=
  let g := g.putConnection c { g.connection c with lastSeenAt := m.now }
  match decoded with
  | .error err => g.sendError m c none none err "bad_request"
  | .ok envelope =>
    match g.handleEnvelope cfg m c envelope with
    | (g, .error err) => g.sendError m c none none err "bad_request"
    | (g, .ok ()) => g

end SignalingGateway

inductive Action (F : Type) where
  | attach (connection : ConnectionId)
  | text (connection : ConnectionId) (decoded : Except String (SignalingEnvelope F))
  | closed (connection : ConnectionId)
  | cleanup

def SignalingGateway.step (cfg : SignalingServerConfig) (g : SignalingGateway F) :
    Moment × Action F → SignalingGateway F
  | (m, .attach c) => g.attach m c
  | (m, .text c decoded) => g.handleText cfg m c decoded
  | (m, .closed c) => g.handleClose m c
  | (m, .cleanup) => (g.cleanupStalePeers cfg m).1

end PonsWarp.Signaling
