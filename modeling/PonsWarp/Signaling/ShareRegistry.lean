import PonsWarp.Signaling.HttpServer

set_option autoImplicit false

/-!
The registry of the browser shares, which are found under their normalised codes.
-/

namespace PonsWarp.Signaling

open PonsWarp.Core PonsWarp.Data

structure BrowserShareRecord where
  code : String
  sessionId : SessionId
  fileId : FileId
  fileName : String
  sizeBytes : JsNumber
  pieceSize : JsNumber
  pieceCount : JsNumber
  ownerPeerId : PeerId
  joinUrl : String
  expiresAt : JsNumber
  createdAt : Number
  deriving DecidableEq

/-- What `put` takes. -/
structure ShareInput where
  code : String
  sessionId : SessionId
  fileId : FileId
  fileName : String
  sizeBytes : JsNumber
  pieceSize : JsNumber
  pieceCount : JsNumber
  ownerPeerId : PeerId
  joinUrl : String
  ttlMs : JsNumber

structure BrowserShareRegistry where
  byCode : OrderedMap String BrowserShareRecord

/-- The clock at the two times that `put` and `get` look at it. -/
structure RegistryClock where
  atCleanup : Number
  afterwards : Number

namespace BrowserShareRegistry

def cleanup (registry : BrowserShareRegistry) (now : Number) : BrowserShareRegistry :=
  ⟨registry.byCode.deleteAll ((registry.byCode.entries.filter fun (_, record) =>
    record.expiresAt.le (.finite now)).map Prod.fst)⟩

def put (r : Runtime) (clock : RegistryClock) (input : ShareInput)
    (registry : BrowserShareRegistry) : Except JsError BrowserShareRecord × BrowserShareRegistry :=
  let registry := registry.cleanup clock.atCleanup
  let code := String.ofList (r.normalizeCode input.code.toList)
  if code.length < 6 then (.error ⟨"Error", "Share code too short"⟩, registry)
  else
    let createdAt := clock.afterwards
    let record : BrowserShareRecord :=
      { code
        sessionId := input.sessionId
        fileId := input.fileId
        fileName := input.fileName
        sizeBytes := input.sizeBytes
        pieceSize := input.pieceSize
        pieceCount := input.pieceCount
        ownerPeerId := input.ownerPeerId
        joinUrl := input.joinUrl
        createdAt
        expiresAt := (JsNumber.finite createdAt).add (.max (.finite 60000) input.ttlMs) }
    (.ok record, ⟨registry.byCode.set code record⟩)

def get (r : Runtime) (clock : RegistryClock) (code : String) (registry : BrowserShareRegistry) :
    Option BrowserShareRecord × BrowserShareRegistry :=
  let registry := registry.cleanup clock.atCleanup
  let normalized := String.ofList (r.normalizeCode code.toList)
  match registry.byCode.get? normalized with
  | none => (none, registry)
  | some record =>
    if record.expiresAt.le (.finite clock.afterwards) then
      (none, ⟨registry.byCode.delete normalized⟩)
    else (some record, registry)

end BrowserShareRegistry

end PonsWarp.Signaling
