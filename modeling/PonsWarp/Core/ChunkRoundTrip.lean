import PonsWarp.Core.Ingress
import PonsWarp.Core.Uploads

set_option autoImplicit false

/-!
A piece on its way in chunks. What one engine sends for a request the other puts together again,
in whatever order the chunks come and whatever comes between them.
-/

namespace PonsWarp.Core

open PonsWarp.Data

namespace Upload

/-- The upload of some bytes before its first chunk. -/
def ofData (transferChunkBytes : Nat) (peerId : PeerId) (request : PieceRequestMessage)
    (index : Nat) (data : ArrayBuffer) : Upload :=
  let chunkSize := min transferChunkBytes
    (if data.length = 0 then transferChunkBytes else data.length)
  ⟨peerId, request, index, data, chunkSize, max 1 ((data.length + chunkSize - 1) / chunkSize), 0⟩

def nth (u : Upload) (i : Nat) : Upload := { u with chunkIndex := i }

/-- The header and the frame of a chunk. -/
def pair (u : Upload) (i : Nat) : PieceChunkHeaderMessage × ArrayBuffer :=
  ((u.nth i).header, (u.nth i).chunk)

def effects (u : Upload) (i : Nat) : List Effect :=
  [.send u.peerId (.PIECE_CHUNK_HEADER (u.nth i).header) none,
    .sendBinary u.peerId (u.nth i).chunk none]

theorem totalChunks_pos (bytes : Nat) (p : PeerId) (request : PieceRequestMessage) (index : Nat)
    (data : ArrayBuffer) : 0 < (ofData bytes p request index data).totalChunks :=
  Nat.lt_of_lt_of_le Nat.one_pos (Nat.le_max_left _ _)

theorem le_chunks {bytes : Nat} (hbytes : 1 ≤ bytes) (p : PeerId) (request : PieceRequestMessage)
    (index : Nat) (data : ArrayBuffer) :
    let u := ofData bytes p request index data
    data.length ≤ u.totalChunks * u.chunkSize := by
  intro u
  set size := u.chunkSize with hsize
  have hpos : 0 < size := by
    simp only [hsize, u, ofData]
    split <;> omega
  have hdiv := Nat.div_add_mod (data.length + size - 1) size
  have hmod := Nat.mod_lt (data.length + size - 1) hpos
  have hle : (data.length + size - 1) / size ≤ u.totalChunks := Nat.le_max_right _ _
  have hmul := Nat.mul_le_mul_right size hle
  rw [Nat.mul_comm] at hdiv
  omega

/-- The chunks one after the other are the bytes. -/
theorem flatMap_chunks {u : Upload} (h : u.data.length ≤ u.totalChunks * u.chunkSize) :
    (List.range u.totalChunks).flatMap (fun i => (u.nth i).chunk) = u.data := by
  have hcount (n : Nat) : (List.range n).flatMap (fun i => (u.nth i).chunk) =
      u.data.take (n * u.chunkSize) := by
    induction n with
    | zero => simp
    | succ n ih =>
      rw [List.range_succ, List.flatMap_append, ih, Nat.succ_mul, List.take_add]
      simp [chunk, nth]
  rw [hcount, List.take_of_length_le h]

end Upload

namespace Engine

variable {σ : Type} [StorageAdapter σ] {cfg : Config} {t : Turn}

/-- A method of one frame runs on while its promises settle. -/
def runTask (cfg : Config) (t : Turn) : Nat → Engine σ × Next → Engine σ × Next
  | n + 1, (e, .await (.settled outcome) [frame]) => runTask cfg t n (e.resume cfg t outcome frame)
  | _, result => result

def logged (e : Engine σ) (effects : List Effect) : Engine σ := { e with log := e.log ++ effects }

omit [StorageAdapter σ] in
@[simp] theorem logged_logged (e : Engine σ) (effects later : List Effect) :
    (e.logged effects).logged later = e.logged (effects ++ later) := by
  simp [logged]

omit [StorageAdapter σ] in
theorem sendChunkHeader_sends {e : Engine σ} {u : Upload} (htransport : e.transport = true)
    (hsend : t.sendFailure u.peerId = none) : e.sendChunkHeader t u =
      (e.logged [.send u.peerId (.PIECE_CHUNK_HEADER u.header) none],
        .await (.settled (.ok .unit)) [.headerSent u]) := by
  simp only [sendChunkHeader, send, if_pos htransport, hsend]
  rfl

omit [StorageAdapter σ] in
theorem headerSent_sends {e : Engine σ} {u : Upload} (htransport : e.transport = true)
    (hsend : t.sendFailure u.peerId = none) (v : Value) : e.headerSent t u (.ok v) =
      (e.logged [.sendBinary u.peerId u.chunk none],
        .await (.settled (.ok .unit)) [.binarySent u]) := by
  simp only [headerSent, sendBinary, if_pos htransport, hsend]
  rfl

theorem runTask_chunk (n : Nat) {e : Engine σ} {u : Upload} (htransport : e.transport = true)
    (hsend : t.sendFailure u.peerId = none) :
    runTask cfg t (n + 2) (e.sendChunkHeader t u) =
      runTask cfg t n ((e.logged (u.effects u.chunkIndex)).binarySent t u (.ok .unit)) := by
  have hframe := headerSent_sends (t := t) (u := u)
    (e := e.logged [.send u.peerId (.PIECE_CHUNK_HEADER u.header) none]) htransport hsend .unit
  rw [sendChunkHeader_sends htransport hsend]
  simp only [runTask, resume, hframe, logged_logged]
  rfl

/-- From one header on, all chunks are sent in their order. -/
theorem runTask_upload (cfg : Config) (n : Nat) {e : Engine σ} {u : Upload} (htransport : e.transport = true)
    (hsend : t.sendFailure u.peerId = none) (hn : u.chunkIndex + (n + 1) = u.totalChunks) :
    runTask cfg t (2 * (n + 1)) (e.sendChunkHeader t u) =
      (e.logged ((List.range' u.chunkIndex (n + 1)).flatMap u.effects), .ok .unit) := by
  induction n generalizing e u with
  | zero =>
    have hlast : ¬ u.chunkIndex + 1 < u.totalChunks := by omega
    rw [runTask_chunk 0 htransport hsend]
    simp only [binarySent, if_neg hlast]
    rfl
  | succ n ih =>
    have hmore : u.chunkIndex + 1 < u.totalChunks := by omega
    have hrest := ih (e := e.logged (u.effects u.chunkIndex)) (u := u.nth (u.chunkIndex + 1))
      htransport hsend (by simp only [Upload.nth]; omega)
    rw [Nat.mul_succ, runTask_chunk _ htransport hsend]
    simp only [binarySent, if_pos hmore]
    rw [List.range'_succ, List.flatMap_cons, ← logged_logged]
    exact hrest

/-- `sendRequestedPiece` reads the piece: from the source of its owner or from the storage. -/
inductive Reads (e : Engine σ) (t : Turn) (request : PieceRequestMessage) (index : Nat)
    (content : ArrayBuffer) : Prop
  | source (manifest : FileManifest) (piece : PieceDescriptor) (source : Blob)
      (hmanifest : e.requireManifest request.fileId = .ok manifest)
      (hindex : request.pieceIndex.index? = some index)
      (hpiece : manifest.pieces[index]? = some piece)
      (hsource : e.ownerSources.get? request.fileId = some source)
      (hcontent : content = (source.data.drop piece.offset).take piece.size)
      (hinside : piece.offset + piece.size ≤ source.data.length)
      (hsettles : t.storageFailure = none)
  | stored (manifest : FileManifest) (piece : PieceDescriptor) (ref : Nat) (state : PieceState)
      (storage : σ)
      (hmanifest : e.requireManifest request.fileId = .ok manifest)
      (hindex : request.pieceIndex.index? = some index)
      (hpiece : manifest.pieces[index]? = some piece)
      (hsource : e.ownerSources.get? request.fileId = none)
      (hmanager : e.managers.get? request.fileId = some ref)
      (hstate : (e.managerAt ref).getPieceState index = .ok state)
      (hverified : state.status = .verified)
      (hread : StorageAdapter.readPiece request.fileId index e.storage =
        (.ok (some content), storage))
      (hsettles : t.storageFailure = none)

end Engine

theorem slicePosition_natCast (length n : Nat) :
    slicePosition length (n : Number) = min length n := by
  have hfloor : Rat.floor (n : Number) = (n : Int) := by
    exact_mod_cast Rat.floor_intCast (n : Int)
  have hpos : (0 : Number) ≤ (n : Number) := Nat.cast_nonneg n
  have hneg : ¬ (n : Int) < 0 := by omega
  simp only [slicePosition, if_pos hpos, hfloor, if_neg hneg, Int.toNat_natCast]

theorem slice_piece {data : ArrayBuffer} {offset size n : Nat} (h : offset + size ≤ data.length)
    (hn : n ≤ size) : slice data ((offset : Number) + (n : Number))
      ((offset : Number) + (size : Number)) = ((data.drop offset).take size).drop n := by
  have hstart : min data.length (offset + n) = offset + n := by omega
  have hstop : min data.length (offset + size) = offset + size := by omega
  have hsize : offset + size - (offset + n) = size - n := by omega
  rw [← Nat.cast_add, ← Nat.cast_add, slice, slicePosition_natCast, slicePosition_natCast, hstart,
    hstop, hsize, List.drop_take, List.drop_drop]

theorem slice_rest {data : ArrayBuffer} {n : Nat} (hn : n ≤ data.length) :
    slice data (n : Number) (data.length : Number) = data.drop n := by
  have hstart : min data.length n = n := by omega
  rw [slice, slicePosition_natCast, slicePosition_natCast, hstart, Nat.min_self,
    List.take_of_length_le (by rw [List.length_drop])]

namespace Engine

variable {σ : Type} [StorageAdapter σ] {cfg : Config} {t : Turn}

/-- Behind the read of the piece its bytes from the asked offset on are sent. -/
theorem Reads.starts {e : Engine σ} {request : PieceRequestMessage} {index k : Nat}
    {content : ArrayBuffer} (h : e.Reads t request index content)
    (hfrom : request.fromOffset = (k : Number)) (hk : k ≤ content.length) (p : PeerId) :
    ∃ storage, ∀ n, runTask cfg t (n + 1) (e.sendRequestedPiece t p request) =
      runTask cfg t n (({ e with storage := storage } : Engine σ).startUpload t p request index
        (content.drop k)) := by
  cases h with
  | source manifest piece source hmanifest hindex hpiece hsource hcontent hinside hsettles =>
    have hsize : k ≤ piece.size := by
      rw [hcontent, List.length_take] at hk
      omega
    refine ⟨e.storage, fun n => ?_⟩
    simp only [sendRequestedPiece, hmanifest, hindex, Option.bind_some, hpiece, Option.map_some,
      hsource, hsettles, runTask, resume, sourceRead, hfrom, slice_piece hinside hsize, hcontent]
  | stored manifest piece ref state storage hmanifest hindex hpiece hsource hmanager hstate
      hverified hread hsettles =>
    refine ⟨storage, fun n => ?_⟩
    simp only [sendRequestedPiece, hmanifest, hindex, Option.bind_some, hpiece, Option.map_some,
      hsource, hmanager, hstate, hverified, if_true, storageCall, hsettles, hread, Next.andThen,
      List.nil_append, runTask, resume, storedRead, hfrom, slice_rest hk]

/-- All chunks of the piece are sent. -/
theorem Reads.sends (cfg : Config) {e : Engine σ} {request : PieceRequestMessage} {index k : Nat}
    {content : ArrayBuffer} (h : e.Reads t request index content)
    (hfrom : request.fromOffset = (k : Number)) (hk : k ≤ content.length) {p : PeerId}
    (htransport : e.transport = true) (hsend : t.sendFailure p = none) :
    ∃ n e', runTask cfg t n (e.sendRequestedPiece t p request) = (e', .ok .unit) ∧
      let u := Upload.ofData e.transferChunkBytes p request index (content.drop k)
      e'.log = e.log ++ (List.range u.totalChunks).flatMap u.effects := by
  obtain ⟨storage, hstart⟩ := h.starts hfrom hk p
  set u := Upload.ofData e.transferChunkBytes p request index (content.drop k) with hu
  have hpos : 0 < u.totalChunks := Upload.totalChunks_pos _ _ _ _ _
  have hcount : u.chunkIndex + (u.totalChunks - 1 + 1) = u.totalChunks := by
    simp only [hu, Upload.ofData] at hpos ⊢
    omega
  have hsent := runTask_upload cfg (u.totalChunks - 1)
    (e := { e with storage := storage }) (u := u) htransport hsend hcount
  refine ⟨_, _, (hstart _).trans hsent, ?_⟩
  change _ = e.log ++ (List.range u.totalChunks).flatMap u.effects
  rw [Nat.sub_add_cancel hpos, List.range_eq_range']
  rfl

end Engine

/-- What an assembly holds of an upload once the chunks at these places have come. -/
structure Collected (u : Upload) (p : PeerId) (got : List Nat) (a : IncomingChunkAssembly) :
    Prop where
  peerId : a.peerId = p
  fileId : a.header.fileId = u.request.fileId
  pieceIndex : a.header.pieceIndex = u.pieceIndex
  totalChunks : a.header.totalChunks = (u.totalChunks : Number)
  chunks : a.chunks =
    (List.range u.totalChunks).map fun i => if i ∈ got then some (u.nth i).chunk else none
  receivedChunks : a.receivedChunks = got.length

theorem collected_nil (u : Upload) (p : PeerId) (i : Nat) :
    Collected u p [] ⟨p, (u.nth i).header, List.replicate u.totalChunks none, 0, 0⟩ where
  peerId := rfl
  fileId := rfl
  pieceIndex := rfl
  totalChunks := rfl
  chunks := by simp
  receivedChunks := rfl

/-- The assembly with one more chunk. -/
def IncomingChunkAssembly.add (a : IncomingChunkAssembly) (i : Nat) (frame : ArrayBuffer) :
    IncomingChunkAssembly :=
  { a with
    chunks := a.chunks.set i (some frame)
    receivedBytes := a.receivedBytes + frame.length
    receivedChunks := a.receivedChunks + 1 }

section collect

variable {u : Upload} {p : PeerId} {got : List Nat} {a : IncomingChunkAssembly} {i : Nat}

theorem Collected.add (h : Collected u p got a) (i : Nat) :
    Collected u p (i :: got) (a.add i (u.nth i).chunk) where
  peerId := h.peerId
  fileId := h.fileId
  pieceIndex := h.pieceIndex
  totalChunks := h.totalChunks
  chunks := by
    rw [IncomingChunkAssembly.add, h.chunks]
    refine List.ext_getElem (by simp) fun j hj _ => ?_
    simp only [List.getElem_set, List.getElem_map, List.getElem_range, List.mem_cons]
    by_cases hij : i = j
    · simp [hij]
    · simp [hij, Ne.symm hij]
  receivedChunks := by simp [IncomingChunkAssembly.add, h.receivedChunks]

theorem Collected.getElem? (h : Collected u p got a) (hi : i < u.totalChunks) :
    (a.chunks[i]?).join = if i ∈ got then some (u.nth i).chunk else none := by
  simp [h.chunks, hi]

theorem assembled_map (f : Nat → ArrayBuffer) (l : List Nat) :
    Engine.assembled (l.map fun i => some (f i)) = some (l.flatMap f) := by
  induction l with
  | nil => rfl
  | cons i rest ih => simp [Engine.assembled, ih]

theorem Collected.assembled (h : Collected u p got a)
    (hall : ∀ i, i < u.totalChunks → i ∈ got)
    (hdata : u.data.length ≤ u.totalChunks * u.chunkSize) :
    Engine.assembled a.chunks = some u.data := by
  have hchunks : a.chunks = (List.range u.totalChunks).map fun i => some (u.nth i).chunk := by
    rw [h.chunks]
    refine List.map_congr_left fun i hi => ?_
    rw [if_pos (hall i (List.mem_range.1 hi))]
  rw [hchunks, assembled_map, Upload.flatMap_chunks hdata]

end collect

namespace Engine

variable {σ : Type} {cfg : Config}

/-- The assembly that a chunk finds or starts. -/
def assemblyFor (e : Engine σ) (u : Upload) (p : PeerId) (i : Nat) : IncomingChunkAssembly :=
  (e.incomingChunks.get? u.request.requestId).getD
    ⟨p, (u.nth i).header, List.replicate u.totalChunks none, 0, 0⟩

/-- A chunk that has not come before. -/
theorem appendIncomingChunk_collects {e : Engine σ} {u : Upload} {p : PeerId} {got : List Nat}
    {i : Nat} (t : Turn) (hcount : u.totalChunks ≤ MAX_ARRAY_LENGTH) (hi : i < u.totalChunks)
    (hnew : i ∉ got) (h : Collected u p got (e.assemblyFor u p i)) :
    e.appendIncomingChunk cfg t p (u.nth i).header (u.nth i).chunk =
      let a := (e.assemblyFor u p i).add i (u.nth i).chunk
      let stored := e.incomingChunks.set u.request.requestId (e.assemblyFor u p i)
      if got.length + 1 < u.totalChunks then
        ({ e with incomingChunks := stored.set u.request.requestId a }, .ok (.buffer none))
      else
        let e := { e with incomingChunks := stored.delete u.request.requestId }
        match assembled a.chunks with
        | some data => (e, .ok (.buffer (some data)))
        | none =>
          let (e, next) := e.rejectIncomingChunk cfg t p (u.nth i).header
          (e, next.andThen .chunkRejected) := by
  have hsafe (n : Nat) (hn : n ≤ MAX_ARRAY_LENGTH) : Number.isSafeInteger (n : Number) = true := by
    rw [Number.isSafeInteger_natCast]
    exact hn.trans (by decide)
  have hindex : Number.isSafeInteger (i : Number) = true := hsafe i (hi.le.trans hcount)
  have hheader : (u.nth i).header = ⟨u.request.fileId, u.pieceIndex, (i : Number),
      (u.totalChunks : Number), u.request.requestId, ((u.nth i).chunk.length : Number)⟩ := rfl
  have hbounds : ¬ (u.totalChunks = 0 ∨ u.totalChunks ≤ i ∨
      ((u.nth i).chunk.length : Number) ≠ ((u.nth i).chunk.length : Number)) := by
    simp only [ne_eq, not_true, or_false]
    omega
  have harray : ¬ ((e.incomingChunks.get? u.request.requestId).isNone = true ∧
      MAX_ARRAY_LENGTH < u.totalChunks) := fun hlong => absurd hlong.2 (by omega)
  have hfits : ¬ ((e.assemblyFor u p i).peerId ≠ p ∨
      (e.assemblyFor u p i).header.fileId ≠ u.request.fileId ∨
      (e.assemblyFor u p i).header.pieceIndex ≠ u.pieceIndex ∨
      (e.assemblyFor u p i).header.totalChunks ≠ (u.totalChunks : Number) ∨
      ((e.assemblyFor u p i).chunks[i]?).join.isSome = true) := by
    simp only [h.peerId, h.fileId, h.pieceIndex, h.totalChunks, h.getElem? hi, if_neg hnew]
    simp
  unfold appendIncomingChunk
  simp only [hheader, if_pos (hsafe _ hcount), if_pos hindex, Number.index?_natCast,
    if_neg hbounds, if_neg harray]
  rw [if_neg (by exact hfits)]
  have hmore : (e.assemblyFor u p i).receivedChunks + 1 < u.totalChunks ↔
      got.length + 1 < u.totalChunks := by rw [h.receivedChunks]
  simp only [← hmore]
  rfl

/-- A first chunk that says there are more chunks than an array has places. -/
theorem appendIncomingChunk_long (cfg : Config) {e : Engine σ} {u : Upload} (t : Turn) (p : PeerId) {i : Nat}
    (hcount : MAX_ARRAY_LENGTH < u.totalChunks) (hsafe : u.totalChunks ≤ MAX_SAFE_INTEGER)
    (hi : i < u.totalChunks) (hnone : e.incomingChunks.get? u.request.requestId = none) :
    e.appendIncomingChunk cfg t p (u.nth i).header (u.nth i).chunk =
      (e, .throw ⟨none, "Invalid array length"⟩) := by
  have hindex : Number.isSafeInteger (i : Number) = true :=
    Number.isSafeInteger_natCast.2 (hi.le.trans hsafe)
  have htotal : Number.isSafeInteger (u.totalChunks : Number) = true :=
    Number.isSafeInteger_natCast.2 hsafe
  have hheader : (u.nth i).header = ⟨u.request.fileId, u.pieceIndex, (i : Number),
      (u.totalChunks : Number), u.request.requestId, ((u.nth i).chunk.length : Number)⟩ := rfl
  have hbounds : ¬ (u.totalChunks = 0 ∨ u.totalChunks ≤ i ∨
      ((u.nth i).chunk.length : Number) ≠ ((u.nth i).chunk.length : Number)) := by
    simp only [ne_eq, not_true, or_false]
    omega
  unfold appendIncomingChunk
  simp only [hheader, if_pos htotal, if_pos hindex, Number.index?_natCast, if_neg hbounds, hnone,
    Option.isNone_none, hcount, and_self, if_true]

/-- Chunks of other requests leave the assembly alone. -/
theorem appendIncomingChunk_other (e : Engine σ) (t : Turn) (p : PeerId)
    (header : PieceChunkHeaderMessage) (frame : ArrayBuffer) {requestId : RequestId}
    (h : header.requestId ≠ requestId) :
    (e.appendIncomingChunk cfg t p header frame).1.incomingChunks.get? requestId =
      e.incomingChunks.get? requestId :=
  (touches_appendIncomingChunk p header frame (S := fun _ _ => True)
    (X := fun x => x = header.requestId) rfl fun _ _ _ => trivial).chunks requestId
      fun hx => h hx.symm

section rejected

variable [StorageAdapter σ] {t : Turn} {G : Grant}

/-- Where no assembly is granted, none comes up. -/
theorem Changes.assembly {e e' : Engine σ} (h : Changes t G e e') {requestId : RequestId}
    (hG : ∀ a, ¬ G (.assembly requestId a)) (hnone : e.incomingChunks.get? requestId = none) :
    e'.incomingChunks.get? requestId = none := by
  refine h.keeps (P := fun e => e.incomingChunks.get? requestId = none) ?_ hnone
  intro e₁ e₂ hchange hnone
  cases hchange with
  | assemblies incoming hnew hlost =>
    refine Option.eq_none_iff_forall_ne_some.2 fun a ha => ?_
    rcases hnew requestId a ha with hold | hgranted
    · simp [hnone] at hold
    · exact hG a hgranted
  | register manifest =>
    simp only [registerManifest]
    split <;> exact hnone
  | _ => exact hnone

/-- A rejected chunk leaves no assembly of its request. -/
theorem incomingChunks_rejectIncomingChunk (e : Engine σ) (p : PeerId)
    (header : PieceChunkHeaderMessage) :
    (e.rejectIncomingChunk cfg t p header).1.incomingChunks.get? header.requestId = none := by
  set e₀ : Engine σ := { e with incomingChunks := e.incomingChunks.delete header.requestId }
    with he₀
  have hdelete : e₀.incomingChunks.delete header.requestId = e.incomingChunks.delete header.requestId :=
    OrderedMap.delete_of_get? (OrderedMap.get?_delete_self _ _)
  have hsame : e.rejectIncomingChunk cfg t p header = e₀.rejectIncomingChunk cfg t p header := by
    unfold rejectIncomingChunk
    simp only [hdelete]
    rfl
  have hdoes : Does cfg t (Grant.reject e₀ t p header) e₀ _ :=
    does_rejectIncomingChunk p header le_rfl
  rw [hsame]
  exact Changes.assembly hdoes.changes (fun a ha => ha) (OrderedMap.get?_delete_self _ _)

/-- Only a chunk that is taken at once leaves an assembly. -/
theorem appendIncomingChunk_rejects {e : Engine σ} {p : PeerId}
    {header : PieceChunkHeaderMessage} {frame : ArrayBuffer} {pending : Pending}
    {frames : List Frame}
    (h : (e.appendIncomingChunk cfg t p header frame).2 = .await pending frames) :
    (e.appendIncomingChunk cfg t p header frame).1.incomingChunks.get? header.requestId = none := by
  generalize hresult : e.appendIncomingChunk cfg t p header frame = result at h ⊢
  have hreject (e₁ : Engine σ) (h₁ : (let (e', next) := e₁.rejectIncomingChunk cfg t p header
      (e', next.andThen .chunkRejected)) = result) :
      result.1.incomingChunks.get? header.requestId = none := by
    rw [← h₁]
    exact incomingChunks_rejectIncomingChunk e₁ p header
  unfold appendIncomingChunk at hresult
  simp only at hresult
  split at hresult
  · split at hresult
    · exact hreject _ hresult
    · split at hresult
      · cases hresult
        cases h
      · split at hresult
        · exact hreject _ hresult
        · split at hresult
          · cases hresult
            cases h
          · split at hresult
            · cases hresult
              cases h
            · exact hreject _ hresult
  · exact hreject _ hresult

end rejected

end Engine

/-- A chunk that is given to `appendIncomingChunk`. -/
structure ChunkDelivery where
  turn : Turn
  peerId : PeerId
  header : PieceChunkHeaderMessage
  frame : ArrayBuffer

namespace Engine

variable {σ : Type}

def deliver (cfg : Config) (e : Engine σ) (d : ChunkDelivery) : Engine σ × Next :=
  e.appendIncomingChunk cfg d.turn d.peerId d.header d.frame

def deliverAll (cfg : Config) (e : Engine σ) (deliveries : List ChunkDelivery) : Engine σ :=
  deliveries.foldl (fun e d => (e.deliver cfg d).1) e

end Engine

/-- The chunk is one of the request. -/
def ChunkDelivery.of (requestId : RequestId) (d : ChunkDelivery) : Bool := d.header.requestId = requestId

/-- The chunks at these places come from the peer, in this order, between chunks of other
requests. -/
def Deliver (u : Upload) (p : PeerId) (order : List Nat) (deliveries : List ChunkDelivery) : Prop :=
  (deliveries.filter (ChunkDelivery.of u.request.requestId)).map
    (fun d => (d.peerId, d.header, d.frame)) = order.map fun i => (p, u.pair i)

section receive

variable {σ : Type} (cfg : Config) {u : Upload} {p : PeerId} {got order : List Nat}

theorem ChunkDelivery.eq_of_pair {d : ChunkDelivery} {i : Nat}
    (h : (d.peerId, d.header, d.frame) = (p, u.pair i)) :
    d = ⟨d.turn, p, (u.nth i).header, (u.nth i).chunk⟩ := by
  obtain ⟨turn, peerId, header, frame⟩ := d
  cases h
  rfl

theorem Deliver.other {d : ChunkDelivery} {rest : List ChunkDelivery} (h : Deliver u p order (d :: rest))
    (hd : d.of u.request.requestId = false) : Deliver u p order rest := by
  rw [Deliver, List.filter_cons_of_neg (by simp [hd])] at h
  exact h

theorem Deliver.first {d : ChunkDelivery} {rest : List ChunkDelivery} (h : Deliver u p order (d :: rest))
    (hd : d.of u.request.requestId) : ∃ i order', order = i :: order' ∧
      d = ⟨d.turn, p, (u.nth i).header, (u.nth i).chunk⟩ ∧ Deliver u p order' rest := by
  rw [Deliver, List.filter_cons_of_pos hd, List.map_cons] at h
  obtain ⟨i, order', rfl, hfirst, hrest⟩ := List.map_eq_cons_iff.1 h.symm
  exact ⟨i, order', rfl, ChunkDelivery.eq_of_pair hfirst.symm, hrest.symm⟩

theorem Deliver.any_iff {rest : List ChunkDelivery} (h : Deliver u p order rest) :
    rest.any (ChunkDelivery.of u.request.requestId) = true ↔ order ≠ [] := by
  have hlength := congrArg List.length h
  simp only [List.length_map] at hlength
  rw [List.any_eq_true, ← List.length_pos_iff, ← hlength, List.length_pos_iff_exists_mem]
  simp [List.mem_filter]

theorem assemblyFor_other {e : Engine σ} {d : ChunkDelivery} (hd : d.of u.request.requestId = false)
    (i : Nat) : (e.deliver cfg d).1.assemblyFor u p i = e.assemblyFor u p i := by
  have hne : d.header.requestId ≠ u.request.requestId := by simpa [ChunkDelivery.of] using hd
  rw [Engine.assemblyFor, Engine.deliver, Engine.appendIncomingChunk_other _ _ _ _ _ hne]
  rfl

/-- A chunk of the upload on its arrival, others to come or not. -/
theorem deliver_chunk (hdata : u.data.length ≤ u.totalChunks * u.chunkSize)
    (hcount : u.totalChunks ≤ Engine.MAX_ARRAY_LENGTH) {i : Nat}
    (hperm : (got ++ i :: order).Perm (List.range u.totalChunks)) {e : Engine σ}
    (h : ∀ i, Collected u p got (e.assemblyFor u p i)) (t : Turn) :
    let result := e.deliver cfg ⟨t, p, (u.nth i).header, (u.nth i).chunk⟩
    (order ≠ [] → result.2 = .ok (.buffer none) ∧
      ∀ j, Collected u p (i :: got) (result.1.assemblyFor u p j)) ∧
    (order = [] → result.2 = .ok (.buffer (some u.data))) := by
  have hi : i < u.totalChunks := List.mem_range.1 (hperm.mem_iff.1 (by simp))
  have hnodup := (hperm.nodup_iff.2 List.nodup_range)
  have hnew : i ∉ got := fun hgot =>
    List.disjoint_of_nodup_append hnodup hgot List.mem_cons_self
  have hlength := hperm.length_eq
  simp only [List.length_append, List.length_cons, List.length_range] at hlength
  have hadd := (h i).add i
  intro result
  have hresult : result = _ := Engine.appendIncomingChunk_collects t hcount hi hnew (h i)
  constructor
  · intro horder
    have hmore : got.length + 1 < u.totalChunks := by
      have hpos := List.length_pos_iff.2 horder
      omega
    simp only [if_pos hmore] at hresult
    rw [hresult]
    refine ⟨rfl, fun j => ?_⟩
    simp only [Engine.assemblyFor, OrderedMap.get?_set_self, Option.getD_some]
    exact hadd
  · rintro rfl
    have hlast : ¬ got.length + 1 < u.totalChunks := by
      simp only [List.length_nil] at hlength
      omega
    have hall : ∀ j, j < u.totalChunks → j ∈ i :: got := fun j hj => by
      have hmem := hperm.mem_iff.2 (List.mem_range.2 hj)
      simpa [or_comm] using hmem
    simp only [if_neg hlast, hadd.assembled hall hdata] at hresult
    rw [hresult]

theorem deliver_last (hdata : u.data.length ≤ u.totalChunks * u.chunkSize)
    (hcount : u.totalChunks ≤ Engine.MAX_ARRAY_LENGTH)
    (hperm : (got ++ order).Perm (List.range u.totalChunks)) {e : Engine σ}
    (hcollected : ∀ i, Collected u p got (e.assemblyFor u p i)) {before after : List ChunkDelivery}
    {d : ChunkDelivery} (h : Deliver u p order (before ++ d :: after))
    (hd : d.of u.request.requestId) :
    ((e.deliverAll cfg before).deliver cfg d).2 =
      .ok (.buffer (if after.any (ChunkDelivery.of u.request.requestId) then none else some u.data)) := by
  induction before generalizing e got order with
  | nil =>
    obtain ⟨i, order', rfl, hpair, hrest⟩ := h.first hd
    obtain ⟨hmore, hlast⟩ := deliver_chunk cfg hdata hcount hperm hcollected d.turn
    have hany := hrest.any_iff
    rw [hpair]
    by_cases horder : order' = []
    · have hnone : after.any (ChunkDelivery.of u.request.requestId) = false := by
        simpa [horder] using hany
      rw [hnone]
      exact hlast horder
    · rw [hany.2 horder]
      exact (hmore horder).1
  | cons d₀ before ih =>
    rw [List.cons_append] at h
    cases hd₀ : d₀.of u.request.requestId with
    | false =>
      refine ih (e := (e.deliver cfg d₀).1) hperm (fun i => ?_) (h.other hd₀)
      rw [assemblyFor_other cfg hd₀]
      exact hcollected i
    | true =>
      obtain ⟨i, order', rfl, hpair, hrest⟩ := h.first hd₀
      have horder : order' ≠ [] := hrest.any_iff.1 (by simp [hd])
      obtain ⟨hmore, -⟩ := deliver_chunk cfg hdata hcount hperm hcollected d₀.turn
      have hnext : (i :: got ++ order').Perm (List.range u.totalChunks) :=
        List.perm_middle.symm.trans hperm
      refine ih (e := (e.deliver cfg d₀).1) hnext ?_ hrest
      rw [hpair]
      exact (hmore horder).2

end receive

/-- The chunks of a piece, from the asked offset on, are put together when the last of them has
come, whatever their order and whatever comes between them; and a rejected chunk leaves nothing of
its request. -/
theorem chunks_round_trip {σ τ : Type} [StorageAdapter σ] [StorageAdapter τ] (cfg : Config)
    (t : Turn) (sender : Engine σ) (receiver : Engine τ) (request : PieceRequestMessage)
    (index k : Nat) (content : ArrayBuffer) (p provider : PeerId) (order : List Nat)
    (deliveries : List ChunkDelivery) (u : Upload)
    (hu : u = .ofData sender.transferChunkBytes p request index (content.drop k))
    (hchunk : 1 ≤ sender.transferChunkBytes) (hreads : sender.Reads t request index content)
    (hfrom : request.fromOffset = (k : Number)) (hk : k ≤ content.length)
    (htransport : sender.transport = true) (hsend : t.sendFailure p = none)
    (hcount : u.totalChunks ≤ Engine.MAX_ARRAY_LENGTH)
    (horder : order.Perm (List.range u.totalChunks)) (hdeliver : Deliver u provider order deliveries)
    (hnone : receiver.incomingChunks.get? request.requestId = none) :
    (∃ n sent, Engine.runTask cfg t n (sender.sendRequestedPiece t p request) = (sent, .ok .unit) ∧
      sent.log = sender.log ++ (List.range u.totalChunks).flatMap u.effects) ∧
    (∀ before d after, deliveries = before ++ d :: after → d.of request.requestId →
      ((receiver.deliverAll cfg before).deliver cfg d).2 =
        .ok (.buffer (if after.any (ChunkDelivery.of request.requestId) then none
          else some (content.drop k)))) ∧
    ∀ (e : Engine τ) (d : ChunkDelivery) (pending : Pending) (frames : List Frame),
      (e.deliver cfg d).2 = .await pending frames →
        (e.deliver cfg d).1.incomingChunks.get? d.header.requestId = none := by
  have hrequest : u.request = request := by rw [hu]; rfl
  have hbytes : u.data = content.drop k := by rw [hu]; rfl
  have hsent := hreads.sends cfg hfrom hk htransport hsend
  rw [← hu] at hsent
  refine ⟨hsent, ?_, fun e d pending frames h => Engine.appendIncomingChunk_rejects h⟩
  rintro before d after rfl hd
  have hcollected (i : Nat) : Collected u provider [] (receiver.assemblyFor u provider i) := by
    rw [Engine.assemblyFor, hrequest, hnone]
    exact collected_nil u provider i
  have hdata : u.data.length ≤ u.totalChunks * u.chunkSize := by
    rw [hu]
    exact Upload.le_chunks hchunk p request index _
  have hperm : ([] ++ order).Perm (List.range u.totalChunks) := horder
  rw [← hrequest] at hd
  have hlast := deliver_last cfg hdata hcount hperm hcollected hdeliver hd
  rwa [hrequest, hbytes] at hlast

namespace Sample

def fourBytes : FileManifest := ⟨"1.0.0", "f", "f", 4, "", 4, 1, none, [⟨0, 0, 4, none⟩]⟩

/-- It sends at most two bytes at a time. -/
def owner : Engine MemoryStorageAdapter :=
  { Engine.new .empty true with
    manifests := OrderedMap.empty.set "f" fourBytes
    ownerSources := OrderedMap.empty.set "f" ⟨"f", "", [1, 2, 3, 4]⟩
    transferChunkBytes := 2 }

def upload : Upload := .ofData 2 "q" ⟨"f", 0, "r", 1⟩ 0 [2, 3, 4]

/-- The second chunk, one that is not asked for, and the first chunk. -/
def mixed : List ChunkDelivery :=
  [⟨turn, "o", (upload.nth 1).header, (upload.nth 1).chunk⟩, ⟨turn, "x", ⟨"f", 0, 0, 2, "s", 1⟩, [7]⟩,
    ⟨turn, "o", (upload.nth 0).header, (upload.nth 0).chunk⟩]

end Sample

theorem chunks_round_trip_sample :
    ((Sample.start.engine.deliverAll Sample.config (Sample.mixed.take 2)).deliver Sample.config
      ⟨Sample.turn, "o", (Sample.upload.nth 0).header, (Sample.upload.nth 0).chunk⟩).2 =
        .ok (.buffer (some [2, 3, 4])) :=
  (chunks_round_trip Sample.config Sample.turn Sample.owner Sample.start.engine
    ⟨"f", 0, "r", 1⟩ 0 1 [1, 2, 3, 4] "q" "o" [1, 0] Sample.mixed Sample.upload rfl (by decide)
    (.source Sample.fourBytes ⟨0, 0, 4, none⟩ ⟨"f", "", [1, 2, 3, 4]⟩ rfl (by decide +kernel) rfl
      rfl rfl (by decide) rfl)
    (by norm_num) (by decide) rfl rfl (by decide) (by decide)
    (by unfold Deliver; decide +kernel) rfl).2.1
      (Sample.mixed.take 2) _ [] rfl (by decide)

/-- Four gibibytes, a byte at a time: the first chunk throws. -/
theorem too_many_chunks_are_refused :
    let u := Upload.ofData 1 "q" ⟨"f", 0, "r", 0⟩ 0 (List.replicate (2 ^ 32) 0)
    ((Engine.new MemoryStorageAdapter.empty true).appendIncomingChunk Sample.config Sample.turn "o"
      (u.nth 0).header (u.nth 0).chunk).2 = .throw ⟨none, "Invalid array length"⟩ := by
  intro u
  have htotal : u.totalChunks = 2 ^ 32 := by
    simp only [u, Upload.ofData, List.length_replicate]
    decide
  have hlong := Engine.appendIncomingChunk_long Sample.config (u := u)
    (e := Engine.new MemoryStorageAdapter.empty true) Sample.turn "o" (i := 0)
    (by rw [htotal]; decide) (by rw [htotal]; decide) (by rw [htotal]; decide) rfl
  rw [hlong]

end PonsWarp.Core
