import PonsWarp.Cli.JoinDescriptor
import PonsWarp.Core.Machine
import PonsWarp.Data.PosixPath
import PonsWarp.Data.Utf8

set_option autoImplicit false

/-!
What names a file: `share` takes a hash of where it lies and of its size and time, `send` the
place of the manifest in its session, and `get` compares the two.
-/

namespace PonsWarp.Cli

open PonsWarp.Core PonsWarp.Data

/-- A file as the commands find it; `path` is how it is named on the command line. -/
structure FoundFile where
  path : String
  isFile : Bool
  data : ArrayBuffer
  mtimeMs : Number

/-- What the commands take from the process. `showNumber` is `String` of a number, and `hash` that
of the integrity of the engine. -/
structure CliEnvironment where
  cwd : String
  pid : Nat
  sha256 : ArrayBuffer → Vector UInt8 32
  hash : ArrayBuffer → String
  showNumber : Number → String
  json : Json CliSessionDescriptor

structure MeshManifestSummary where
  fileId : FileId
  name : String
  size : Nat
  pieceSize : Nat
  pieceCount : Nat
  deriving DecidableEq

def hexDigit (n : Nat) : Char := if n < 10 then Char.ofNat (48 + n) else Char.ofNat (87 + n)

def hex (bytes : List UInt8) : List Char :=
  bytes.flatMap fun b => [hexDigit (b.toNat / 16), hexDigit (b.toNat % 16)]

def baseName (path : String) : String := String.ofList (Posix.basename path.toList)

def createManifestSummary (env : CliEnvironment) (file : FoundFile) (pieceSize : Nat) :
    Except Failure MeshManifestSummary :=
  let absolutePath := String.ofList (Posix.resolve env.cwd.toList file.path.toList)
  if ¬ file.isFile then .error ⟨none, s!"publish requires a regular file: {file.path}"⟩
  else
    let size := file.data.length
    let identity := s!"{absolutePath}:{size}:{env.showNumber file.mtimeMs}:{pieceSize}"
    let digest := hex (env.sha256 (utf8Encode identity.toList)).toList
    .ok {
      fileId := "file_" ++ String.ofList (digest.take 24)
      name := baseName file.path
      size := size
      pieceSize := pieceSize
      pieceCount := (size + pieceSize - 1) / pieceSize }

/-- The loop of `createSession` over the files. -/
def createManifests (hash : ArrayBuffer → String) (pieceSize : Number) (includeFileHash : Bool) :
    List FileManifest → List Blob → Except Failure (List FileManifest)
  | manifests, [] => .ok manifests
  | manifests, file :: files =>
    match Engine.createManifest hash file pieceSize includeFileHash
        ("file_" ++ manifests.length.repr) with
    | .error err => .error err
    | .ok manifest => createManifests hash pieceSize includeFileHash (manifests ++ [manifest]) files

/-- The descriptor of `runSend`: `sessionId` is that of the command or a random one, `url` that
under which the sender is reached. -/
def sendDescriptor (env : CliEnvironment) (file : FoundFile) (pieceSize : Nat)
    (sessionId : SessionId) (url : String) : Except Failure CliSessionDescriptor :=
  let source : Blob := ⟨baseName file.path, "application/octet-stream", file.data⟩
  let ownerPeerId := "peer_owner_" ++ env.pid.repr
  match createManifests env.hash pieceSize (file.data.length ≤ 256 * 1024 * 1024) [] [source] with
  | .error err => .error err
  | .ok manifests => .ok ⟨1, sessionId, ownerPeerId, ⟨ownerPeerId, url⟩, manifests⟩

/-- What the coordinator tells about a share. -/
structure ResolvedShare where
  fileId : Option FileId
  sizeBytes : Option Nat

/-- The coordinator tells what was registered. -/
def MeshManifestSummary.resolved (summary : MeshManifestSummary) : ResolvedShare :=
  ⟨some summary.fileId, some summary.size⟩

def mismatch (field expected : String) (got : Option String) : Failure :=
  ⟨none, s!"Coordinator candidate descriptor {field} mismatch: expected {expected}, got " ++
    got.getD "missing"⟩

def assertDirectTransferMatchesResolvedShare (json : Json CliSessionDescriptor)
    (resolved : ResolvedShare) (join : String) : Except Failure Unit :=
  match decodeJoinDescriptor json join with
  | .error err => .error err
  | .ok descriptor =>
    let manifest := descriptor.manifests.head?
    let differs := (resolved.fileId.filter (· ≠ "")).filter (some · ≠ manifest.map (·.fileId))
    let resized := resolved.sizeBytes.filter (some · ≠ manifest.map (·.size))
    match differs, resized with
    | some fileId, _ => .error (mismatch "file" fileId (manifest.map (·.fileId)))
    | none, some size => .error (mismatch "size" size.repr (manifest.map (·.size.repr)))
    | none, none => .ok ()

theorem length_hex (bytes : List UInt8) : (hex bytes).length = 2 * bytes.length := by
  induction bytes with
  | nil => rfl
  | cons b rest ih =>
    simp only [hex, List.flatMap_cons, List.length_append, List.length_cons] at ih ⊢
    rw [ih]
    simp
    omega

/-- The first file of a session has its place for its name. -/
theorem createManifests_single {hash : ArrayBuffer → String} {pieceSize : Number}
    {includeFileHash : Bool} {file : Blob} {manifests : List FileManifest}
    (h : createManifests hash pieceSize includeFileHash [] [file] = .ok manifests) :
    manifests.head?.map (·.fileId) = some "file_0" := by
  simp only [createManifests] at h
  split at h
  · cases h
  · rename_i manifest hmanifest
    cases h
    unfold Engine.createManifest at hmanifest
    split at hmanifest
    · cases hmanifest
    · simp only at hmanifest
      split at hmanifest
      · cases hmanifest
      · cases hmanifest
        rfl

/-- The name of a shared file is longer. -/
theorem fileId_ne {env : CliEnvironment} {file : FoundFile} {pieceSize : Nat}
    {summary : MeshManifestSummary} (h : createManifestSummary env file pieceSize = .ok summary) :
    summary.fileId ≠ "file_0" ∧ summary.fileId ≠ "" := by
  unfold createManifestSummary at h
  simp only at h
  split at h
  · cases h
  · cases h
    have hlength : ∀ digest : Vector UInt8 32,
        ("file_" ++ String.ofList ((hex digest.toList).take 24)).toList.length = 29 := by
      intro digest
      have hdigits : (String.ofList ((hex digest.toList).take 24)).toList.length = 24 := by
        rw [String.toList_ofList, List.length_take, length_hex, Vector.length_toList]
        rfl
      rw [String.toList_append, List.length_append, hdigits]
      rfl
    have hlong : ∀ short : String, short.toList.length < 29 → ∀ digest : Vector UInt8 32,
        "file_" ++ String.ofList ((hex digest.toList).take 24) ≠ short := by
      intro short hshort digest he
      rw [← he, hlength digest] at hshort
      exact absurd hshort (lt_irrefl 29)
    exact ⟨hlong "file_0" (by decide) _, hlong "" (by decide) _⟩

/-- A descriptor of which `get` expects another file is refused. -/
theorem assert_ne_ok {json : Json CliSessionDescriptor} {resolved : ResolvedShare} {join : String}
    {fileId : FileId} (hresolved : resolved.fileId = some fileId) (hnamed : fileId ≠ "")
    (h : ∀ descriptor, decodeJoinDescriptor json join = .ok descriptor →
      descriptor.manifests.head?.map (·.fileId) ≠ some fileId) :
    assertDirectTransferMatchesResolvedShare json resolved join ≠ .ok () := by
  unfold assertDirectTransferMatchesResolvedShare
  cases hdecode : decodeJoinDescriptor json join with
  | error err => simp
  | ok descriptor =>
    have hdiffers : some fileId ≠ descriptor.manifests.head?.map (·.fileId) :=
      fun he => h descriptor hdecode he.symm
    have hfilter : (resolved.fileId.filter (· ≠ "")).filter
        (some · ≠ descriptor.manifests.head?.map (·.fileId)) = some fileId := by
      rw [hresolved, Option.filter_some_pos (by simpa using hnamed),
        Option.filter_some_pos (by simpa using hdiffers)]
    simp only [hfilter]
    intro he
    cases he

theorem sent_is_refused {env : CliEnvironment} {file : FoundFile} {pieceSize : Nat}
    {sessionId : SessionId} {url : String} {summary : MeshManifestSummary}
    {descriptor : CliSessionDescriptor}
    (hshare : createManifestSummary env file pieceSize = .ok summary)
    (hsend : sendDescriptor env file pieceSize sessionId url = .ok descriptor)
    (hjson : env.json.parse (env.json.stringify descriptor) = .ok descriptor) :
    assertDirectTransferMatchesResolvedShare env.json summary.resolved
      (encodeJoinDescriptor env.json descriptor) ≠ .ok () := by
  obtain ⟨hother, hnamed⟩ := fileId_ne hshare
  refine assert_ne_ok rfl hnamed ?_
  intro decoded hdecode
  rw [decodeJoinDescriptor_encode hjson] at hdecode
  split at hdecode
  · cases hdecode
  · cases hdecode
    unfold sendDescriptor at hsend
    simp only at hsend
    split at hsend
    · cases hsend
    · rename_i manifests hmanifests
      cases hsend
      rw [createManifests_single hmanifests]
      intro he
      exact hother (Option.some.inj he).symm

/-- A hint with the descriptor that `send` prints for a file is refused by a `get` of that file,
whatever the file, its path and the size of its pieces. -/
theorem shared_file_is_refused (env : CliEnvironment) (file : FoundFile) (pieceSize : Nat)
    (sessionId : SessionId) (url : String) {summary : MeshManifestSummary}
    {descriptor : CliSessionDescriptor}
    (hshare : createManifestSummary env file pieceSize = .ok summary)
    (hsend : sendDescriptor env file pieceSize sessionId url = .ok descriptor)
    (hjson : env.json.parse (env.json.stringify descriptor) = .ok descriptor) :
    assertDirectTransferMatchesResolvedShare env.json summary.resolved
      (encodeJoinDescriptor env.json descriptor) ≠ .ok () :=
  sent_is_refused hshare hsend hjson

namespace Sample

/-- An empty file. -/
def emptyFile : FoundFile := ⟨"a", true, [], 0⟩

def emptyHash : String := "e3b0c44298fc1c149afbf4c8996fb92427ae41e4649b934ca495991b7852b855"

def emptyDescriptor : CliSessionDescriptor :=
  ⟨1, "s", "peer_owner_1", ⟨"peer_owner_1", "ws://127.0.0.1:1/peer/peer_owner_1"⟩,
    [⟨"1.0.0", "file_0", "a", 0, "application/octet-stream", 4, 0, some emptyHash, []⟩]⟩

def emptyText : String :=
  "\x7b\"schemaVersion\":1,\"sessionId\":\"s\",\"ownerPeerId\":\"peer_owner_1\"," ++
    "\"ownerEndpoint\":\x7b\"peerId\":\"peer_owner_1\"," ++
    "\"url\":\"ws://127.0.0.1:1/peer/peer_owner_1\"\x7d," ++
    "\"manifests\":[\x7b\"version\":\"1.0.0\",\"fileId\":\"file_0\",\"name\":\"a\"," ++
    "\"size\":0,\"mimeType\":\"application/octet-stream\",\"pieceSize\":4,\"pieceCount\":0," ++
    "\"fileHash\":\"" ++ emptyHash ++ "\",\"pieces\":[]\x7d]\x7d"

/-- The hash of `/tmp/a:0:0:4`, and the text of the descriptor. -/
def environment : CliEnvironment where
  cwd := "/tmp"
  pid := 1
  sha256 := fun _ => #v[0xf2, 0xa4, 0x1c, 0x52, 0x63, 0x5a, 0xe2, 0x4f, 0xb4, 0x97, 0x38, 0xfd,
    0xc2, 0x94, 0x68, 0xfd, 0xc0, 0x44, 0x17, 0x69, 0x75, 0xc0, 0x88, 0x54, 0xbe, 0xef, 0x8c, 0xc7,
    0xca, 0xf6, 0xe4, 0x00]
  hash := fun _ => emptyHash
  showNumber := fun _ => "0"
  json := {
    stringify := fun _ => utf8Encode emptyText.toList
    parse := fun text => if text = utf8Encode emptyText.toList then .ok emptyDescriptor
      else .error ⟨none, "Unexpected token"⟩ }

theorem empty_is_sent : sendDescriptor environment emptyFile 4 "s"
    "ws://127.0.0.1:1/peer/peer_owner_1" = .ok emptyDescriptor := by decide +kernel

def emptySummary : MeshManifestSummary := ⟨"file_f2a41c52635ae24fb49738fd", "a", 0, 4, 0⟩

theorem empty_is_shared : createManifestSummary environment emptyFile 4 = .ok emptySummary := by
  decide +kernel

theorem empty_is_read : environment.json.parse (environment.json.stringify emptyDescriptor) =
    .ok emptyDescriptor := by
  simp only [environment, if_true]

end Sample

theorem shared_file_is_refused_sample :
    assertDirectTransferMatchesResolvedShare Sample.environment.json
      Sample.emptySummary.resolved
      (encodeJoinDescriptor Sample.environment.json Sample.emptyDescriptor) ≠ .ok () :=
  shared_file_is_refused Sample.environment Sample.emptyFile 4 "s"
    "ws://127.0.0.1:1/peer/peer_owner_1" Sample.empty_is_shared Sample.empty_is_sent Sample.empty_is_read

/-- An empty file is shared and sent, and what is printed for it is taken for another file. -/
theorem empty_file_is_refused :
    ∃ summary descriptor, createManifestSummary Sample.environment Sample.emptyFile 4 = .ok summary ∧
      sendDescriptor Sample.environment Sample.emptyFile 4 "s"
        "ws://127.0.0.1:1/peer/peer_owner_1" = .ok descriptor ∧
      assertDirectTransferMatchesResolvedShare Sample.environment.json summary.resolved
        (encodeJoinDescriptor Sample.environment.json descriptor) ≠ .ok () :=
  ⟨_, _, Sample.empty_is_shared, Sample.empty_is_sent,
    sent_is_refused Sample.empty_is_shared Sample.empty_is_sent Sample.empty_is_read⟩

end PonsWarp.Cli
