import PonsWarp.Core.Isolation
import PonsWarp.Core.Uploads

set_option autoImplicit false

/-!
Two engines that are peers of each other. Whatever one of them sends to the other waits on
a channel that keeps the order, until it is delivered; in between both go on with anything
else.
-/

namespace PonsWarp.Core

open PonsWarp.Data

/-- A message as it arrives: the fields that the receiving engine reads. -/
def TransferMessage.wire : TransferMessage → WireMessage
  | .PIECE_REQUEST request =>
    { WireMessage.blank "PIECE_REQUEST" with
      fileId := some request.fileId, pieceIndex := some request.pieceIndex
      requestId := some request.requestId, fromOffset := some request.fromOffset }
  | .PIECE_CHUNK_HEADER header =>
    { WireMessage.blank "PIECE_CHUNK_HEADER" with
      fileId := some header.fileId, pieceIndex := some (header.pieceIndex : Number)
      chunkIndex := some header.chunkIndex, totalChunks := some header.totalChunks
      requestId := some header.requestId, payloadSize := some header.payloadSize }
  | .PIECE_ACK fileId pieceIndex requestId _ =>
    { WireMessage.blank "PIECE_ACK" with
      fileId := some fileId, pieceIndex := some pieceIndex, requestId := some requestId }
  | .PIECE_REJECT fileId pieceIndex requestId reason _ =>
    { WireMessage.blank "PIECE_REJECT" with
      fileId := some fileId, pieceIndex := some pieceIndex, requestId := some requestId
      reason := some reason }
  | .PIECE_MAP map =>
    { WireMessage.blank "PIECE_MAP" with
      fileId := some map.fileId, totalPieces := some map.totalPieces
      generation := some map.generation, updatedAt := some map.updatedAt
      verifiedPieces := some (map.verifiedPieces.map some) }
  | .PIECE_CANCEL fileId pieceIndex requestId =>
    { WireMessage.blank "PIECE_CANCEL" with
      fileId := some fileId, pieceIndex := some (pieceIndex : Number), requestId := some requestId }

def Parcel.arrival (p : PeerId) : Parcel → Action
  | .message m => .message p (some m.wire)
  | .frame bytes _ => .binary p bytes

/-- The peer that a message or a frame comes from. -/
def Action.sender? : Action → Option PeerId
  | .message p _ => some p
  | .binary p _ => some p
  | _ => none

/-- What the two engines are called by each other, and how they are configured. -/
structure Ends where
  provider : PeerId
  receiver : PeerId
  providerConfig : Config
  receiverConfig : Config

structure Link (σ τ : Type) where
  provider : World σ
  receiver : World τ
  forth : List Parcel
  back : List Parcel

def Link.new {σ τ : Type} (provider : σ) (receiver : τ) (providing receiving : Bool) : Link σ τ :=
  ⟨World.new provider providing, World.new receiver receiving, [], []⟩

inductive Move where
  | provider (x : Turn × Action)
  | receiver (x : Turn × Action)
  | toReceiver (t : Turn)
  | toProvider (t : Turn)

theorem TransferMessage.parseChunkHeader_wire {m : TransferMessage} {header : PieceChunkHeaderMessage}
    (htype : m.wire.type = "PIECE_CHUNK_HEADER")
    (h : m.wire.parseChunkHeader = .ok (some header)) : m = .PIECE_CHUNK_HEADER header := by
  cases m with
  | PIECE_CHUNK_HEADER sent =>
    simp only [wire, WireMessage.blank, WireMessage.parseChunkHeader, requireStringField,
      requireNumberField, bind, Except.bind, pure, Except.pure, Number.index?_natCast] at h
    split at h
    · cases h
    · rename_i fileId hfile
      split at hfile
      · cases hfile
      · cases hfile
        split at h
        · cases h
        · rename_i requestId hid
          split at hid
          · cases hid
          · cases hid
            cases h
            rfl
  | _ => simp [wire, WireMessage.blank] at htype

theorem Changes.waiting {σ : Type} [StorageAdapter σ] {t : Turn} {G : Grant} {e e' : Engine σ}
    (hc : Changes t G e e') {p : PeerId} {header : PieceChunkHeaderMessage}
    (h : e'.pendingChunks.get? p = some header) :
    e.pendingChunks.get? p = some header ∨ G (.header p header) := by
  induction hc with
  | refl => exact .inl h
  | tail _ hlast ih =>
    cases hlast with
    | headers pending hnew hlost =>
      obtain hold | hg := hnew p header h
      · exact ih hold
      · exact .inr hg
    | register m _ =>
      refine ih ?_
      unfold Engine.registerManifest at h
      simp only at h
      split at h <;> exact h
    | _ => exact ih h

/-- A header comes to wait by a message of its peer only. -/
theorem World.waiting_step {σ : Type} [StorageAdapter σ] {cfg : Config} {w : World σ} {t : Turn}
    {a : Action} {p : PeerId} {header : PieceChunkHeaderMessage}
    (h : (w.step cfg (t, a)).engine.pendingChunks.get? p = some header) :
    w.engine.pendingChunks.get? p = some header ∨
      ∃ m, a = .message p (some m) ∧ m.type = "PIECE_CHUNK_HEADER" ∧
        m.parseChunkHeader = .ok (some header) := by
  obtain hold | hg := (World.step_spec cfg w t a).changes.waiting h
  · exact .inl hold
  · obtain ⟨m, r, ha, htype, hparse, -, -⟩ := World.grant_header_message hg
    exact .inr ⟨m, ha, htype, hparse⟩

/-- A chunk was taken, and the piece perhaps completed with it. -/
def Next.keeps : Next → Bool
  | .done (.ok (.buffer _)) => true
  | _ => false

/-- The request in whose assembly a frame of the peer would go now. -/
def Engine.files {σ : Type} [StorageAdapter σ] (e : Engine σ) (cfg : Config) (t : Turn)
    (p : PeerId) (bytes : ArrayBuffer) : Option RequestId :=
  if e.subscribed then
    (e.pendingChunks.get? p).bind fun header =>
      if ({ e with pendingChunks := e.pendingChunks.delete p }.appendIncomingChunk cfg t p header
        bytes).2.keeps then some header.requestId else none
  else none

namespace Link

variable {σ τ : Type} [StorageAdapter σ] [StorageAdapter τ]

def stepProvider (n : Ends) (l : Link σ τ) (x : Turn × Action) : Link σ τ :=
  { l with
    provider := l.provider.step n.providerConfig x
    forth := l.forth ++ l.provider.posts n.providerConfig n.receiver x }

def stepReceiver (n : Ends) (l : Link σ τ) (x : Turn × Action) : Link σ τ :=
  { l with
    receiver := l.receiver.step n.receiverConfig x
    back := l.back ++ l.receiver.posts n.receiverConfig n.provider x }

/-- One of the engines does something, or the next parcel is delivered. From each other they
hear through the channels alone. -/
def step (n : Ends) (l : Link σ τ) : Move → Link σ τ
  | .provider x => if x.2.sender? = some n.receiver then l else l.stepProvider n x
  | .receiver x => if x.2.sender? = some n.provider then l else l.stepReceiver n x
  | .toReceiver t =>
    match l.forth with
    | [] => l
    | parcel :: rest => { l with forth := rest }.stepReceiver n (t, parcel.arrival n.provider)
  | .toProvider t =>
    match l.back with
    | [] => l
    | parcel :: rest => { l with back := rest }.stepProvider n (t, parcel.arrival n.receiver)

/-- A frame that goes into the assembly of a request next has been sent under a header of that
request. -/
def Unmixed (n : Ends) (l : Link σ τ) : Prop :=
  ∀ (t : Turn) (bytes : ArrayBuffer) (header : Option PieceChunkHeaderMessage)
    (rest : List Parcel) (requestId : RequestId), l.forth = .frame bytes header :: rest →
    l.receiver.engine.files n.receiverConfig t n.provider bytes = some requestId →
    ∃ h, header = some h ∧ h.requestId = requestId

/-- When a chunk header of the provider arrives, no header of another request is still waiting
for its frame. -/
def Clear (n : Ends) (l : Link σ τ) : Move → Prop
  | .toReceiver _ => ∀ header ∈ l.forth.head?.bind Parcel.header?,
      ∀ waiting ∈ l.receiver.engine.pendingChunks.get? n.provider,
        waiting.requestId = header.requestId
  | _ => True

instance (n : Ends) (l : Link σ τ) : DecidablePred (l.Clear n) := fun move => by
  cases move <;> unfold Clear <;> infer_instance

/-- The frames on their way follow their headers, and a header that waits at the receiver
belongs to the request of the last one that was delivered. -/
structure Orderly (n : Ends) (l : Link σ τ) (current : Option PieceChunkHeaderMessage) :
    Prop where
  parcels : Parcel.InOrder current l.forth
  serial : l.provider.Serial n.receiver (Parcel.last current l.forth)
  waiting : ∀ h, l.receiver.engine.pendingChunks.get? n.provider = some h →
    ∃ c, current = some c ∧ h.requestId = c.requestId

variable {n : Ends} {l : Link σ τ} {current : Option PieceChunkHeaderMessage}

omit [StorageAdapter τ] in
theorem Orderly.stepProvider (h : l.Orderly n current) (x : Turn × Action) :
    (l.stepProvider n x).Orderly n current := by
  have hserial : Parcel.InOrder (Parcel.last current l.forth)
      (l.provider.posts n.providerConfig n.receiver x) ∧
      (l.provider.step n.providerConfig x).Serial n.receiver
        (Parcel.last (Parcel.last current l.forth)
          (l.provider.posts n.providerConfig n.receiver x)) := h.serial.step x
  refine ⟨Parcel.inOrder_append.2 ⟨h.parcels, hserial.1⟩, ?_, h.waiting⟩
  simp only [Link.stepProvider, Parcel.last_append]
  exact hserial.2

omit [StorageAdapter σ] in
theorem Orderly.stepReceiver (h : l.Orderly n current) {x : Turn × Action}
    (hx : x.2.sender? ≠ some n.provider) : (l.stepReceiver n x).Orderly n current := by
  refine ⟨h.parcels, h.serial, fun header hheader => ?_⟩
  obtain hold | ⟨m, ha, -⟩ := World.waiting_step (t := x.1) (a := x.2) hheader
  · exact h.waiting header hold
  · rw [ha] at hx
    exact absurd rfl hx

omit [StorageAdapter σ] in
theorem Orderly.toReceiver (h : l.Orderly n current) {t : Turn} {parcel : Parcel}
    {rest : List Parcel} (hforth : l.forth = parcel :: rest) (hclear : l.Clear n (.toReceiver t)) :
    ({ l with forth := rest }.stepReceiver n (t, parcel.arrival n.provider)).Orderly n
      (parcel.header?.or current) := by
  have hparcels := h.parcels
  have hserial := h.serial
  rw [hforth] at hparcels hserial
  refine ⟨hparcels.2, hserial, fun header hheader => ?_⟩
  obtain hold | ⟨m, ha, htype, hparse⟩ := World.waiting_step hheader
  · cases hnew : parcel.header? with
    | none => exact h.waiting header hold
    | some arrived =>
      refine ⟨arrived, rfl, ?_⟩
      exact hclear arrived (by simp [hforth, hnew]) header hold
  · cases parcel with
    | frame bytes label => cases ha
    | message sent =>
      cases ha
      obtain rfl := TransferMessage.parseChunkHeader_wire htype hparse
      exact ⟨header, rfl, rfl⟩

theorem orderly_step (h : l.Orderly n current) {move : Move} (hclear : l.Clear n move) :
    ∃ current', (l.step n move).Orderly n current' := by
  cases move with
  | provider x =>
    unfold step
    simp only
    split
    · exact ⟨current, h⟩
    · exact ⟨current, h.stepProvider x⟩
  | receiver x =>
    unfold step
    simp only
    split
    · exact ⟨current, h⟩
    · rename_i hx
      exact ⟨current, h.stepReceiver hx⟩
  | toReceiver t =>
    cases hforth : l.forth with
    | nil => exact ⟨current, by simpa [step, hforth] using h⟩
    | cons parcel rest =>
      refine ⟨parcel.header?.or current, ?_⟩
      simpa [step, hforth] using h.toReceiver hforth hclear
  | toProvider t =>
    cases hback : l.back with
    | nil => exact ⟨current, by simpa [step, hback] using h⟩
    | cons parcel rest =>
      have hrest : { l with back := rest }.Orderly n current :=
        ⟨h.parcels, h.serial, h.waiting⟩
      exact ⟨current, by simpa [step, hback] using hrest.stepProvider _⟩

omit [StorageAdapter σ] in
theorem Orderly.unmixed (h : l.Orderly n current) : l.Unmixed n := by
  intro t bytes header rest requestId hforth hfiles
  have hparcels := h.parcels
  rw [hforth] at hparcels
  obtain ⟨⟨rfl, -⟩, -⟩ := hparcels
  unfold Engine.files at hfiles
  split at hfiles
  · obtain ⟨waiting, hwaiting, hid⟩ := Option.bind_eq_some_iff.1 hfiles
    obtain ⟨c, hcurrent, hc⟩ := h.waiting waiting hwaiting
    simp only [Option.ite_none_right_eq_some, Option.some.injEq] at hid
    exact ⟨c, hcurrent, hc.symm.trans hid.2⟩
  · cases hfiles

omit [StorageAdapter σ] [StorageAdapter τ] in
theorem orderly_new (n : Ends) (s : σ) (s' : τ) (providing receiving : Bool) :
    (Link.new s s' providing receiving).Orderly n none := by
  refine ⟨trivial, ⟨?_, ?_, ?_, ?_⟩, ?_⟩
  all_goals simp [Link.new, World.new, Engine.new]

end Link

/-- In every run in which a chunk header arrives only when no header of another request waits at
the receiver, a frame goes into the assembly of a request only when it was sent under a header
of that request. -/
theorem frames_keep_to_their_requests {σ τ : Type} [StorageAdapter σ] [StorageAdapter τ] (n : Ends)
    (s : σ) (s' : τ) (providing receiving : Bool) {l : Link σ τ}
    (hrun : Run (Link.step n) (Link.Clear n) (Link.new s s' providing receiving) l) :
    l.Unmixed n := by
  have horderly : ∃ current, l.Orderly n current := by
    refine Run.invariant (P := fun l : Link σ τ => ∃ current, l.Orderly n current) ?_ hrun
      ⟨none, Link.orderly_new n s s' providing receiving⟩
    rintro l move ⟨current, h⟩ hclear
    exact Link.orderly_step h hclear
  obtain ⟨current, h⟩ := horderly
  exact h.unmixed

namespace Sample

def ends : Ends := ⟨"o", "r", config, config⟩

/-- The manifest of a file of the bytes 1 and 2, in pieces of one byte. -/
def offered : FileManifest :=
  ⟨"1.0.0", "file_0", "f", 2, "", 1, 2, none, [piece, ⟨1, 1, 1, some "other"⟩]⟩

/-- The receiver has asked for both pieces, and the provider starts with the first. -/
def bothAsked : List Move :=
  [.provider (turn, .call (.createSession ⟨"s", 1, false⟩ [⟨"f", "", [1, 2]⟩])),
   .provider (turn, .resume 0), .provider (turn, .resume 0),
   .receiver (turn, .call (.joinSession "s" [offered])),
   .receiver (turn, .resume 0), .receiver (turn, .resume 0),
   .receiver (turn, .call (.requestNextPiece "o" "file_0" none)),
   .receiver (turn, .call (.requestNextPiece "o" "file_0" none)),
   .toProvider turn, .toProvider turn,
   .provider (turn, .upload "r"), .provider (turn, .resume 3)]

def unlinked : Link MemoryStorageAdapter MemoryStorageAdapter := Link.new .empty .empty true true

/-- The first piece has been sent, and its header has arrived. -/
def headerArrived : List Move := bothAsked ++ [.provider (turn, .resume 3), .toReceiver turn]

/-- The send queue is full. -/
def stalled : Turn := { turn with sendFailure := fun _ => some ⟨none, "queue full"⟩ }

/-- The frame of the first piece cannot be sent, the second piece can; both headers have
arrived. -/
def frameLost : List Move := bothAsked ++
  [.provider (stalled, .resume 3), .provider (turn, .resume 3), .provider (turn, .resume 3),
   .provider (turn, .upload "r"), .provider (turn, .resume 4), .provider (turn, .resume 4),
   .toReceiver turn, .toReceiver turn]

end Sample

theorem frames_keep_to_their_requests_sample :
    (steps (Link.step Sample.ends) Sample.unlinked Sample.headerArrived).receiver.engine.files
      Sample.config Sample.turn "o" [1] = some "req_file_0_0_0_a" ∧
    (steps (Link.step Sample.ends) Sample.unlinked Sample.headerArrived).Unmixed Sample.ends := by
  refine ⟨by decide +kernel, ?_⟩
  exact frames_keep_to_their_requests Sample.ends .empty .empty true true
    (run_of_allowed (by decide +kernel))

/-- The frame of the second piece goes into the assembly of the first. -/
theorem lost_frame_mixes_requests :
    Run (Link.step Sample.ends) (fun _ _ => True) Sample.unlinked
      (steps (Link.step Sample.ends) Sample.unlinked Sample.frameLost) ∧
    ¬ (steps (Link.step Sample.ends) Sample.unlinked Sample.frameLost).Unmixed Sample.ends := by
  refine ⟨run_steps _ _, fun h => ?_⟩
  have hforth : (steps (Link.step Sample.ends) Sample.unlinked Sample.frameLost).forth =
      [.frame [2] (some ⟨"file_0", 1, 0, 1, "req_file_0_1_0_a", 1⟩)] := by
    decide +kernel
  have hfiles : (steps (Link.step Sample.ends) Sample.unlinked
      Sample.frameLost).receiver.engine.files Sample.config Sample.turn "o" [2] =
      some "req_file_0_0_0_a" := by
    decide +kernel
  obtain ⟨header, hheader, hid⟩ := h Sample.turn [2] _ [] _ hforth hfiles
  cases hheader
  exact absurd hid (by decide)

end PonsWarp.Core
