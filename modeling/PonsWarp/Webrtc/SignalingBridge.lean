import PonsWarp.Core.Manifest
import PonsWarp.Data.OrderedMap
import PonsWarp.Data.Run

set_option autoImplicit false

/-!
Offers and answers between browsers, by way of the signaling server. As long as a peer is
offered to, or offers, only once, everything that is done for it is done to the connection
that is registered for it.
-/

namespace PonsWarp.Webrtc

open PonsWarp.Core PonsWarp.Data

inductive Operation
  | createDataChannel | createOffer | createAnswer | setLocalDescription | setRemoteDescription
  | addIceCandidate
  deriving DecidableEq

inductive RelayPayload (D C : Type)
  | sdp (sdp : D)
  | candidate (candidate : C)
  deriving DecidableEq

/-- An operation that is invoked for a remote peer, with the connection that the transport has
registered for the peer then. -/
structure Invocation (D C : Type) where
  operation : Operation
  argument : Option (RelayPayload D C)
  remotePeerId : PeerId
  connection : Nat
  registered : Option Nat
  deriving DecidableEq

structure RelayEnvelope (D C : Type) where
  type : String
  sessionId : String
  fromPeerId : PeerId
  toPeerId : PeerId
  payload : RelayPayload D C
  deriving DecidableEq

/-- What an envelope from the signaling server says. -/
inductive Signal (D C : Type)
  | iceCandidate (candidate : Option C)
  | offer (sdp : D)
  | answer (sdp : D)
  | other (type : String)

/-- The promise that a continuation waits for. -/
inductive Stage (D : Type)
  | offer
  | localOffer (sdp : D)
  | remoteOffer
  | answer
  | localAnswer (sdp : D)
  | remoteAnswer
  | candidate
  deriving DecidableEq

structure Continuation (D : Type) where
  remotePeerId : PeerId
  connection : Nat
  stage : Stage D
  deriving DecidableEq

inductive Settled (D : Type)
  | done
  | described (sdp : D)
  | rejected (error : String)

/-- A wrapper in the transport, with the peers that its local candidates are forwarded to, one for
each handler. -/
structure PeerConnectionWrapper where
  connection : Nat
  forwarders : List PeerId
  deriving DecidableEq

/-- A bridge and its transport. Connections are numbered in the order in which they are created, and
of each `connections` says which peer's wrapper listens to it. -/
structure SignalingBridge (D C : Type) where
  sessionId : String
  selfPeerId : PeerId
  connections : List (Option PeerId) := []
  peers : OrderedMap PeerId PeerConnectionWrapper := OrderedMap.empty
  continuations : List (Continuation D) := []
  invocations : List (Invocation D C) := []
  localCandidates : List (Nat × C) := []
  relayed : List (RelayEnvelope D C) := []
  errors : List (PeerId × String) := []

namespace SignalingBridge

variable {D C : Type}

def registered (s : SignalingBridge D C) (p : PeerId) : Option Nat :=
  (s.peers.get? p).map (·.connection)

def createPeerConnection (s : SignalingBridge D C) : SignalingBridge D C :=
  { s with connections := s.connections ++ [none] }

/-- A peer that is registered already keeps its connection. -/
def ensurePeer (s : SignalingBridge D C) (p : PeerId) (connection : Nat) :
    SignalingBridge D C :=
  match s.peers.get? p with
  | some _ => s
  | none =>
    { s with
      peers := s.peers.set p ⟨connection, []⟩
      connections := s.connections.set connection (some p) }

def forwardIceCandidates (s : SignalingBridge D C) (p : PeerId) : SignalingBridge D C :=
  match s.peers.get? p with
  | some peer => { s with peers := s.peers.set p { peer with forwarders := peer.forwarders ++ [p] } }
  | none => s

def invoke (s : SignalingBridge D C) (operation : Operation) (argument : Option (RelayPayload D C))
    (p : PeerId) (connection : Nat) : SignalingBridge D C :=
  { s with
    invocations := s.invocations ++ [⟨operation, argument, p, connection, s.registered p⟩] }

/-- An operation that returns a promise, and what is to be done when it is settled. -/
def await (s : SignalingBridge D C) (operation : Operation) (argument : Option (RelayPayload D C))
    (k : Continuation D) : SignalingBridge D C :=
  { s.invoke operation argument k.remotePeerId k.connection with
    continuations := s.continuations ++ [k] }

def sendRelay (s : SignalingBridge D C) (type : String) (p : PeerId) (payload : RelayPayload D C) :
    SignalingBridge D C :=
  { s with relayed := s.relayed ++ [⟨type, s.sessionId, s.selfPeerId, p, payload⟩] }

def reportError (s : SignalingBridge D C) (p : PeerId) (error : String) : SignalingBridge D C :=
  { s with errors := s.errors ++ [(p, error)] }

def initiateOffer (s : SignalingBridge D C) (remotePeerId : PeerId) : SignalingBridge D C :=
  let connection := s.connections.length
  let joined := (s.createPeerConnection.ensurePeer remotePeerId connection).forwardIceCandidates
    remotePeerId
  let channel := match joined.registered remotePeerId with
    | some peer => joined.invoke .createDataChannel none remotePeerId peer
    | none => joined
  channel.await .createOffer none ⟨remotePeerId, connection, .offer⟩

def handleSignal (s : SignalingBridge D C) (fromPeerId : PeerId) (signal : Signal D C) :
    SignalingBridge D C :=
  if fromPeerId = s.selfPeerId then s
  else
    match signal with
    | .iceCandidate candidate =>
      match s.registered fromPeerId, candidate with
      | some connection, some candidate =>
        s.await .addIceCandidate (some (.candidate candidate)) ⟨fromPeerId, connection, .candidate⟩
      | _, _ => s
    | .offer sdp =>
      let connection := s.connections.length
      let joined := (s.createPeerConnection.ensurePeer fromPeerId connection).forwardIceCandidates
        fromPeerId
      joined.await .setRemoteDescription (some (.sdp sdp)) ⟨fromPeerId, connection, .remoteOffer⟩
    | .answer sdp =>
      match s.registered fromPeerId with
      | some connection =>
        s.await .setRemoteDescription (some (.sdp sdp)) ⟨fromPeerId, connection, .remoteAnswer⟩
      | none => s
    | .other _ => s

/-- The promise that a continuation waits for is settled. Nothing is done of its own when an
operation of `initiateOffer` fails: the caller is told. -/
def resume (s : SignalingBridge D C) (i : Nat) (result : Settled D) : SignalingBridge D C :=
  match s.continuations[i]? with
  | none => s
  | some k =>
    let s' := { s with continuations := s.continuations.eraseIdx i }
    match k.stage, result with
    | .offer, .described sdp =>
      s'.await .setLocalDescription (some (.sdp sdp)) { k with stage := .localOffer sdp }
    | .localOffer sdp, .done => s'.sendRelay "WEBRTC_OFFER" k.remotePeerId (.sdp sdp)
    | .remoteOffer, .done => s'.await .createAnswer none { k with stage := .answer }
    | .answer, .described sdp =>
      s'.await .setLocalDescription (some (.sdp sdp)) { k with stage := .localAnswer sdp }
    | .localAnswer sdp, .done => s'.sendRelay "WEBRTC_ANSWER" k.remotePeerId (.sdp sdp)
    | .remoteAnswer, .done => s'
    | .candidate, .done => s'
    | .offer, .rejected _ => s'
    | .localOffer _, .rejected _ => s'
    | _, .rejected error => s'.reportError k.remotePeerId error
    | _, _ => s

/-- A connection has found a local candidate, or says that there are no more. -/
def handleIceCandidate (s : SignalingBridge D C) (connection : Nat)
    (candidate : Option C) : SignalingBridge D C :=
  match s.connections[connection]?, candidate with
  | some listener, some candidate =>
    let found := { s with localCandidates := s.localCandidates ++ [(connection, candidate)] }
    let forwarders := match listener.bind s.peers.get? with
      | some peer => peer.forwarders
      | none => []
    forwarders.foldl (fun s' p => s'.sendRelay "ICE_CANDIDATE" p (.candidate candidate)) found
  | _, _ => s

inductive Action (D C : Type)
  | initiateOffer (remotePeerId : PeerId)
  | signal (fromPeerId : PeerId) (signal : Signal D C)
  | settle (i : Nat) (result : Settled D)
  | iceCandidate (connection : Nat) (candidate : Option C)

def step (s : SignalingBridge D C) : Action D C → SignalingBridge D C
  | .initiateOffer remotePeerId => s.initiateOffer remotePeerId
  | .signal fromPeerId signal => s.handleSignal fromPeerId signal
  | .settle i result => s.resume i result
  | .iceCandidate connection candidate => s.handleIceCandidate connection candidate

/-- An offer, from here or from there, is the first one between the two. -/
def FirstOffer (s : SignalingBridge D C) : Action D C → Prop
  | .initiateOffer remotePeerId => s.registered remotePeerId = none
  | .signal fromPeerId (.offer _) => fromPeerId = s.selfPeerId ∨ s.registered fromPeerId = none
  | _ => True

end SignalingBridge

end PonsWarp.Webrtc
