import PonsWarp.Cli.NodeFileStorage
import PonsWarp.Data.Base64url

set_option autoImplicit false

/-!
The descriptor that a sender prints and a receiver joins with.
-/

namespace PonsWarp.Cli

open PonsWarp.Core PonsWarp.Data

structure PeerEndpoint where
  peerId : PeerId
  url : String
  deriving DecidableEq

structure CliSessionDescriptor where
  schemaVersion : Nat
  sessionId : SessionId
  ownerPeerId : PeerId
  ownerEndpoint : PeerEndpoint
  manifests : List FileManifest
  deriving DecidableEq

def JOIN_SCHEME : List Char :=
  ['p', 'o', 'n', 's', 'w', 'a', 'r', 'p', ':', '/', '/', 'j', 'o', 'i', 'n', '/']

def encodeJoinDescriptor (json : Json CliSessionDescriptor) (descriptor : CliSessionDescriptor) :
    String :=
  String.ofList (JOIN_SCHEME ++ Base64url.encode (json.stringify descriptor))

def decodeJoinDescriptor (json : Json CliSessionDescriptor) (value : String) :
    Except Failure CliSessionDescriptor :=
  let text := value.toList
  let encoded := if JOIN_SCHEME.isPrefixOf text then text.drop JOIN_SCHEME.length else text
  match json.parse (Base64url.decode encoded) with
  | .error err => .error err
  | .ok parsed =>
    if parsed.schemaVersion ≠ 1 ∨ parsed.sessionId = "" ∨ parsed.ownerPeerId = "" ∨
        parsed.ownerEndpoint.url = "" then
      .error ⟨none, "Invalid ponswarp join descriptor"⟩
    else .ok parsed

/-- What was printed is read back, unless something that a descriptor needs is missing. -/
theorem decodeJoinDescriptor_encode {json : Json CliSessionDescriptor}
    {descriptor : CliSessionDescriptor}
    (hjson : json.parse (json.stringify descriptor) = .ok descriptor) :
    decodeJoinDescriptor json (encodeJoinDescriptor json descriptor) =
      if descriptor.schemaVersion ≠ 1 ∨ descriptor.sessionId = "" ∨ descriptor.ownerPeerId = "" ∨
          descriptor.ownerEndpoint.url = "" then
        .error ⟨none, "Invalid ponswarp join descriptor"⟩
      else .ok descriptor := by
  have hprefix : JOIN_SCHEME.isPrefixOf (JOIN_SCHEME ++ Base64url.encode (json.stringify descriptor)) =
      true := List.isPrefixOf_iff_prefix.2 (List.prefix_append _ _)
  unfold decodeJoinDescriptor encodeJoinDescriptor
  simp only [String.toList_ofList, hprefix, if_true, List.drop_left, Base64url.decode_encode, hjson]

end PonsWarp.Cli
