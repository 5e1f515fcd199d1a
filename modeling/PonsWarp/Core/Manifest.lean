import Mathlib.Algebra.Order.Ring.Rat
import Mathlib.Data.Rat.Cast.Order
import PonsWarp.Data.OrderedMap

set_option autoImplicit false

/-!
The data of a session: files, their pieces, and the state that is persisted.
A number read from a peer or from a clock is a finite number of the modelled
language, kept here as a rational; counters and sizes the engine computes
itself are naturals.
-/

namespace PonsWarp.Core

open PonsWarp.Data

abbrev SessionId := String
abbrev PeerId := String
abbrev FileId := String
abbrev RequestId := String
abbrev ArrayBuffer := List UInt8
abbrev Number := ℚ

def MAX_SAFE_INTEGER : Nat := 2 ^ 53 - 1

def Number.isSafeInteger (x : Number) : Bool :=
  x.isInt && decide (-(MAX_SAFE_INTEGER : ℚ) ≤ x) && decide (x ≤ (MAX_SAFE_INTEGER : ℚ))

theorem Number.isSafeInteger_natCast {n : Nat} :
    Number.isSafeInteger (n : Number) = true ↔ n ≤ MAX_SAFE_INTEGER := by
  have hlow : (-(MAX_SAFE_INTEGER : ℚ)) ≤ (n : ℚ) :=
    (neg_nonpos.2 (Nat.cast_nonneg _)).trans (Nat.cast_nonneg _)
  simp [Number.isSafeInteger, Rat.isInt, hlow]

/-- The array position that a number names, when it names one. -/
def Number.index? (x : Number) : Option Nat :=
  if x.isInt ∧ 0 ≤ x then some x.num.toNat else none

theorem Number.index?_eq_some {x : Number} {n : Nat} : index? x = some n ↔ x = (n : ℚ) := by
  unfold index?
  constructor
  · intro h
    split at h
    · rename_i hx
      obtain ⟨hint, hnn⟩ := hx
      cases h
      have hden : x.den = 1 := by simpa [Rat.isInt] using hint
      have hnum : 0 ≤ x.num := Rat.num_nonneg.2 hnn
      have hx : ((x.num : ℤ) : ℚ) = x := (Rat.den_eq_one_iff x).1 hden
      calc x = ((x.num : ℤ) : ℚ) := hx.symm
        _ = (((x.num.toNat : ℕ) : ℤ) : ℚ) := by rw [Int.toNat_of_nonneg hnum]
        _ = ((x.num.toNat : ℕ) : ℚ) := Int.cast_natCast _
    · cases h
  · rintro rfl
    have hnn : (0 : ℚ) ≤ (n : ℚ) := Nat.cast_nonneg n
    simp [Rat.isInt, hnn]

@[simp] theorem Number.index?_natCast (n : Nat) : index? (n : ℚ) = some n :=
  index?_eq_some.2 rfl

/-- The reason of a rejected promise. `code` is there for the engine's own errors. -/
structure Failure where
  code : Option String
  message : String
  deriving DecidableEq, Repr

def PonsWarpError (code message : String) : Failure := ⟨some code, message⟩

inductive PieceStatus where
  | missing | requested | receiving | received | verified | failed
  deriving DecidableEq, Repr

structure PieceDescriptor where
  index : Nat
  offset : Nat
  size : Nat
  hash : Option String
  deriving DecidableEq, Repr

structure FileManifest where
  version : String
  fileId : FileId
  name : String
  size : Nat
  mimeType : String
  pieceSize : Nat
  pieceCount : Nat
  fileHash : Option String
  pieces : List PieceDescriptor
  deriving DecidableEq, Repr

structure PieceState where
  index : Nat
  status : PieceStatus
  size : Nat
  receivedBytes : Nat
  retryCount : Nat
  requestedFrom : Option PeerId
  failureReason : Option String
  deriving DecidableEq, Repr

structure PieceMap where
  fileId : FileId
  pieces : List PieceState
  deriving DecidableEq, Repr

inductive PeerRole where
  | owner | receiver | relay
  deriving DecidableEq, Repr

structure PersistedPeerState where
  peerId : PeerId
  role : PeerRole
  deriving DecidableEq, Repr

def CORE_PROTOCOL_VERSION : String := "ponswarp-grid/1.0.0"

structure PersistedSessionState where
  schemaVersion : Nat
  protocolVersion : String
  sessionId : SessionId
  mode : String
  manifests : List FileManifest
  pieceMaps : List PieceMap
  peers : List PersistedPeerState
  deriving DecidableEq, Repr

/-- `IntegrityChecker.verifyPiece`; `hash` is the digest the checker computes.
A descriptor without a hash, or with an empty one, accepts any data. -/
def verifyPiece (hash : ArrayBuffer → String) (data : ArrayBuffer)
    (descriptor : PieceDescriptor) : Bool :=
  match descriptor.hash with
  | none => true
  | some h =>
    if h = "" then true
    else if data.length ≠ descriptor.size then false
    else hash data = h

def throwInvalidResumeState (reason : String) : Failure :=
  PonsWarpError "resume:state_invalid" ("Persisted session state is invalid: " ++ reason)

def validateManifestShape (m : FileManifest) : Except Failure Unit :=
  if m.version ≠ "1.0.0" then .error (throwInvalidResumeState "manifest version is invalid")
  else if m.fileId = "" then .error (throwInvalidResumeState "manifest fileId is required")
  else if m.pieceSize = 0 then .error (throwInvalidResumeState "manifest pieceSize is invalid")
  else if m.pieces.length ≠ m.pieceCount then
    .error (throwInvalidResumeState "manifest pieces are invalid")
  else .ok ()

def validatePieceMapShape (m : PieceMap) : Except Failure Unit :=
  if m.fileId = "" then .error (throwInvalidResumeState "piece map fileId is required")
  else .ok ()

def validatePersistedPeerShape (p : PersistedPeerState) : Except Failure Unit :=
  if p.peerId = "" then .error (throwInvalidResumeState "peerId is required")
  else if p.role = .relay then .error (throwInvalidResumeState "peer role is invalid")
  else .ok ()

def validatePieceMapForManifest (manifest : FileManifest) (pieceMap : PieceMap) :
    Except Failure Unit :=
  if pieceMap.fileId ≠ manifest.fileId then
    .error (PonsWarpError "resume:manifest_mismatch" "Piece map fileId does not match manifest")
  else if pieceMap.pieces.length ≠ manifest.pieceCount then
    .error (PonsWarpError "resume:manifest_mismatch"
      "Piece map length does not match manifest piece count")
  else .ok ()

/-- Run a check over a list and stop at the first error. -/
def forEach {α : Type} (check : α → Except Failure Unit) : List α → Except Failure Unit
  | [] => .ok ()
  | a :: rest =>
    match check a with
    | .error e => .error e
    | .ok () => forEach check rest

theorem forEach_eq_ok {α : Type} {check : α → Except Failure Unit} {l : List α} :
    forEach check l = .ok () ↔ ∀ a ∈ l, check a = .ok () := by
  induction l with
  | nil => simp [forEach]
  | cons a rest ih =>
    cases h : check a with
    | error e => simp [forEach, h]
    | ok u => simp [forEach, h, ih]

def validatePersistedSessionState (state : PersistedSessionState) : Except Failure Unit :=
  if state.protocolVersion ≠ CORE_PROTOCOL_VERSION then
    .error (PonsWarpError "resume:protocol_mismatch"
      "Persisted session state protocol version is not supported")
  else if state.schemaVersion ≠ 1 then .error (throwInvalidResumeState "schemaVersion must be 1")
  else if state.sessionId = "" then .error (throwInvalidResumeState "sessionId is required")
  else if state.mode ≠ "direct" ∧ state.mode ≠ "grid" then
    .error (throwInvalidResumeState "mode is invalid")
  else
    match forEach validateManifestShape state.manifests with
    | .error e => .error e
    | .ok () =>
      match forEach validatePieceMapShape state.pieceMaps with
      | .error e => .error e
      | .ok () =>
        match forEach validatePersistedPeerShape state.peers with
        | .error e => .error e
        | .ok () =>
          forEach (fun pieceMap =>
            match state.manifests.find? (fun m => m.fileId = pieceMap.fileId) with
            | none => .error (throwInvalidResumeState
                ("piece map references unknown fileId " ++ pieceMap.fileId))
            | some manifest => validatePieceMapForManifest manifest pieceMap) state.pieceMaps

def manifestsEquivalent (a b : FileManifest) : Bool :=
  decide (a.version = b.version) && decide (a.fileId = b.fileId) && decide (a.name = b.name) &&
  decide (a.size = b.size) && decide (a.mimeType = b.mimeType) &&
  decide (a.pieceSize = b.pieceSize) && decide (a.pieceCount = b.pieceCount) &&
  decide (a.fileHash = b.fileHash) && decide (a.pieces = b.pieces)

/-- `mergeManifests`: the persisted manifests first; an incoming one that differs
from a persisted one of the same file is an error. -/
def mergeManifests (persisted incoming : List FileManifest) :
    Except Failure (List FileManifest) :=
  let merged := persisted.foldl (fun m manifest => m.set manifest.fileId manifest)
    (OrderedMap.empty : OrderedMap FileId FileManifest)
  let rec go : OrderedMap FileId FileManifest → List FileManifest →
      Except Failure (List FileManifest)
    | acc, [] => .ok acc.values
    | acc, manifest :: rest =>
      match acc.get? manifest.fileId with
      | some existing =>
        if manifestsEquivalent existing manifest then go acc rest
        else .error (PonsWarpError "resume:manifest_mismatch"
          ("Manifest mismatch for " ++ manifest.fileId))
      | none => go (acc.set manifest.fileId manifest) rest
  go merged incoming

end PonsWarp.Core
