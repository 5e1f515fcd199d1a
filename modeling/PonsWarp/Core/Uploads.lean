import PonsWarp.Core.Restores

set_option autoImplicit false

/-!
The pieces that one peer asks for are sent one after the other. Whatever runs in
between, every frame on its way to the peer stands behind the header it was sent under.
-/

namespace PonsWarp.Core

open PonsWarp.Data

/-- The bytes that are sent next. -/
def Upload.chunk (u : Upload) : ArrayBuffer :=
  (u.data.drop (u.chunkIndex * u.chunkSize)).take u.chunkSize

def Upload.header (u : Upload) : PieceChunkHeaderMessage :=
  ⟨u.request.fileId, u.pieceIndex, u.chunkIndex, u.totalChunks, u.request.requestId,
    u.chunk.length⟩

/-- What a channel carries. A frame goes without a label; `header` is the one its sender
has sent it under, which the other end does not see. -/
inductive Parcel where
  | message (message : TransferMessage)
  | frame (bytes : ArrayBuffer) (header : Option PieceChunkHeaderMessage)
  deriving DecidableEq, Repr

namespace Parcel

def header? : Parcel → Option PieceChunkHeaderMessage
  | .message (.PIECE_CHUNK_HEADER header) => some header
  | _ => none

/-- A frame belongs to the header that has gone before it. -/
def Follows (current : Option PieceChunkHeaderMessage) : Parcel → Prop
  | .message _ => True
  | .frame _ header => header = current ∧ current.isSome = true

/-- The last header of the parcels, or the one before them. -/
def last (current : Option PieceChunkHeaderMessage) (parcels : List Parcel) :
    Option PieceChunkHeaderMessage :=
  parcels.foldl (fun header parcel => parcel.header?.or header) current

/-- Every frame belongs to the header before it. -/
def InOrder (current : Option PieceChunkHeaderMessage) : List Parcel → Prop
  | [] => True
  | parcel :: rest => parcel.Follows current ∧ InOrder (parcel.header?.or current) rest

variable {current : Option PieceChunkHeaderMessage}

@[simp] theorem last_nil : last current [] = current := rfl

@[simp] theorem last_cons (parcel : Parcel) (rest : List Parcel) :
    last current (parcel :: rest) = last (parcel.header?.or current) rest := rfl

theorem last_append (sent more : List Parcel) :
    last current (sent ++ more) = last (last current sent) more := by
  simp [last]

theorem inOrder_append {sent more : List Parcel} :
    InOrder current (sent ++ more) ↔ InOrder current sent ∧ InOrder (last current sent) more := by
  induction sent generalizing current with
  | nil => simp [InOrder]
  | cons parcel rest ih => simp [InOrder, ih, and_assoc]

end Parcel

/-- A chunk header or a frame. -/
def Effect.Transfers : Effect → Prop
  | .send _ (.PIECE_CHUNK_HEADER _) _ => True
  | .sendBinary _ _ _ => True
  | _ => False

/-- What of an effect reaches the peer: a send whose promise rejects does not. -/
def Effect.parcel? (peerId : PeerId) (header : Option PieceChunkHeaderMessage) :
    Effect → Option Parcel
  | .send p message none => if p = peerId then some (.message message) else none
  | .sendBinary p bytes none => if p = peerId then some (.frame bytes header) else none
  | _ => none

theorem Effect.parcel?_of_calm {x : Effect} (h : ¬ x.Transfers) {peerId : PeerId}
    {header : Option PieceChunkHeaderMessage} {parcel : Parcel}
    (hx : x.parcel? peerId header = some parcel) :
    parcel.header? = none ∧ ∀ current, parcel.Follows current := by
  cases x with
  | emit event => cases hx
  | sendBinary p bytes failure => exact absurd trivial h
  | send p message failure =>
    cases failure with
    | some err => cases hx
    | none =>
      simp only [parcel?, Option.ite_none_right_eq_some, Option.some.injEq] at hx
      obtain ⟨-, rfl⟩ := hx
      cases message with
      | PIECE_CHUNK_HEADER header => exact absurd trivial h
      | _ => exact ⟨rfl, fun _ => trivial⟩

/-- Apart from headers and frames, nothing that is sent disturbs the order. -/
theorem Effect.parcels_of_calm {l : List Effect} (h : ∀ x ∈ l, ¬ x.Transfers) (peerId : PeerId)
    (header current : Option PieceChunkHeaderMessage) :
    Parcel.InOrder current (l.filterMap (Effect.parcel? peerId header)) ∧
      Parcel.last current (l.filterMap (Effect.parcel? peerId header)) = current := by
  induction l with
  | nil => simp [Parcel.InOrder]
  | cons x rest ih =>
    have hrest := ih fun y hy => h y (List.mem_cons_of_mem _ hy)
    cases hx : x.parcel? peerId header with
    | none => simpa [List.filterMap_cons, hx] using hrest
    | some parcel =>
      obtain ⟨hnone, hfollows⟩ := Effect.parcel?_of_calm (h x List.mem_cons_self) hx
      simp only [List.filterMap_cons, hx, Parcel.InOrder, Parcel.last_cons, hnone, Option.none_or]
      exact ⟨⟨hfollows current, hrest.1⟩, hrest.2⟩

/-- The continuations inside a job that sends a piece to the peer. -/
def Frame.works (p : PeerId) : Frame → Prop
  | .sourceRead q _ _ => q = p
  | .storedRead q _ _ => q = p
  | .headerSent upload => upload.peerId = p
  | .binarySent upload => upload.peerId = p
  | _ => False

def Frame.header? : Frame → Option PieceChunkHeaderMessage
  | .headerSent upload => some upload.header
  | _ => none

/-- The continuations of a job that sends a piece to the peer. -/
inductive Uploading (p : PeerId) : List Frame → Prop
  | ending : Uploading p [.uploadJob p]
  | working (frame : Frame) (h : frame.works p) : Uploading p [frame, .uploadJob p]

/-- Continuations that have to do with no upload. -/
def Unloaded (stack : List Frame) : Prop := ∀ frame ∈ stack, ∀ p, ¬ frame.uploadsTo p

theorem Frame.works.uploadsTo {p : PeerId} {frame : Frame} (h : frame.works p) :
    frame.uploadsTo p := by
  cases frame with
  | sourceRead => exact h
  | storedRead => exact h
  | headerSent => exact h
  | binarySent => exact h
  | _ => exact h.elim

theorem Uploading.not_unloaded {p : PeerId} {stack : List Frame} (h : Uploading p stack) :
    ¬ Unloaded stack := by
  intro hun
  cases h with
  | ending => exact hun _ List.mem_cons_self p rfl
  | working frame hw => exact hun _ List.mem_cons_self p hw.uploadsTo

theorem Uploading.peer {p q : PeerId} {stack : List Frame} (h : Uploading p stack)
    (h' : Uploading q stack) : p = q := by
  cases h with
  | ending =>
    cases h' with
    | ending => rfl
  | working frame hw =>
    cases h' with
    | working _ hw' => rfl

/-- The stack of a task whose first continuation uploads is that of an upload job. -/
theorem Uploading.head {p : PeerId} {frame : Frame} {below : List Frame}
    (h : Unloaded (frame :: below) ∨ ∃ q, Uploading q (frame :: below))
    (hf : frame.uploadsTo p) : Uploading p (frame :: below) := by
  obtain hun | ⟨q, hq⟩ := h
  · exact absurd hf (hun frame List.mem_cons_self p)
  · have hqp : q = p := by
      cases hq with
      | ending => exact hf
      | working _ hw =>
        cases frame with
        | sourceRead => exact hw.symm.trans hf
        | storedRead => exact hw.symm.trans hf
        | headerSent => exact hw.symm.trans hf
        | binarySent => exact hw.symm.trans hf
        | _ => exact hw.elim
    exact hqp ▸ hq

namespace Engine

variable {σ : Type}

/-- A job that sends the peer a piece has started and not ended. -/
def Sending (e : Engine σ) (p : PeerId) : Prop :=
  ∃ queue, e.pieceSendQueues.get? p = some queue ∧ queue.running = true

/-- A stretch of an upload to the peer sends one header, one frame or neither of them. -/
inductive Sends (p : PeerId) (header : Option PieceChunkHeaderMessage) (e : Engine σ) :
    Engine σ × Next → Prop
  | calm (e' : Engine σ) (next : Next) (l : List Effect) (hlog : e'.log = e.log ++ l)
      (hcalm : ∀ x ∈ l, ¬ x.Transfers) (hqueues : e'.pieceSendQueues = e.pieceSendQueues)
      (hnext : next.frames = [] ∨
        ∃ pending frame, next = .await pending [frame] ∧ frame.works p ∧
          (frame.header? = none ∨ ∃ err, pending = .settled (.error err))) :
      Sends p header e (e', next)
  | header (u : Upload) (failure : Option Failure) (outcome : Except Failure Value)
      (hp : u.peerId = p) (ho : failure ≠ none → ∃ err, outcome = .error err) :
      Sends p header e
        ({ e with log := e.log ++ [.send p (.PIECE_CHUNK_HEADER u.header) failure] },
          .await (.settled outcome) [.headerSent u])
  | frame (u : Upload) (failure : Option Failure) (outcome : Except Failure Value)
      (hp : u.peerId = p) (hu : header = some u.header) :
      Sends p header e
        ({ e with log := e.log ++ [.sendBinary p u.chunk failure] },
          .await (.settled outcome) [.binarySent u])

variable {e : Engine σ} {t : Turn} {header : Option PieceChunkHeaderMessage}

theorem Sends.stop (p : PeerId) (outcome : Except Failure Value) :
    e.Sends p header (e, .done outcome) :=
  .calm e _ [] (by simp) (by simp) rfl (.inl rfl)

theorem sends_sendReject (p : PeerId) (request : PieceRequestMessage) (reason : String) :
    e.Sends p header (e.sendReject t p request reason) := by
  unfold sendReject send
  split
  · exact .calm _ _ _ rfl (by simp [Effect.Transfers]) rfl (.inl rfl)
  · exact .stop p _

theorem sends_sendChunkHeader (u : Upload) : e.Sends u.peerId header (e.sendChunkHeader t u) := by
  unfold sendChunkHeader send
  split
  · refine .header u (t.sendFailure u.peerId) _ rfl fun hfail => ?_
    cases hf : t.sendFailure u.peerId with
    | none => exact absurd hf hfail
    | some err => exact ⟨err, rfl⟩
  · exact .calm e _ [] (by simp) (by simp) rfl
      (.inr ⟨_, .headerSent u, rfl, rfl, .inr ⟨_, rfl⟩⟩)

theorem sends_headerSent_error (u : Upload) (err : Failure) :
    e.Sends u.peerId header (e.headerSent t u (.error err)) := .stop _ _

theorem sends_headerSent_ok (u : Upload) (v : Value) :
    e.Sends u.peerId (some u.header) (e.headerSent t u (.ok v)) := by
  unfold headerSent sendBinary
  simp only
  split
  · exact .frame u (t.sendFailure u.peerId) _ rfl rfl
  · exact .calm e _ [] (by simp) (by simp) rfl (.inr ⟨_, .binarySent u, rfl, rfl, .inl rfl⟩)

theorem sends_binarySent (u : Upload) (outcome : Except Failure Value) :
    e.Sends u.peerId header (e.binarySent t u outcome) := by
  unfold binarySent
  cases outcome with
  | error err => exact .stop _ _
  | ok v =>
    simp only
    split
    · exact sends_sendChunkHeader { u with chunkIndex := u.chunkIndex + 1 }
    · exact .stop _ _

theorem sends_startUpload (p : PeerId) (request : PieceRequestMessage) (index : Nat)
    (data : ArrayBuffer) : e.Sends p header (e.startUpload t p request index data) := by
  unfold startUpload
  exact sends_sendChunkHeader ⟨p, request, index, data, _, _, 0⟩

theorem sends_sourceRead (p : PeerId) (request : PieceRequestMessage) (index : Nat)
    (outcome : Except Failure Value) : e.Sends p header (e.sourceRead t p request index outcome) := by
  unfold sourceRead
  split
  · exact .stop p _
  · exact sends_startUpload p request index _
  · exact .stop p _

theorem sends_storedRead (p : PeerId) (request : PieceRequestMessage) (index : Nat)
    (outcome : Except Failure Value) : e.Sends p header (e.storedRead t p request index outcome) := by
  unfold storedRead
  split
  · exact .stop p _
  · exact sends_startUpload p request index _
  · exact sends_sendReject p request _

theorem storageCall_quiet {α : Type} (value : α → Value) (result : Except Failure α × σ) :
    ∃ e' pending, e.storageCall t value result = (e', .await pending []) ∧ e'.log = e.log ∧
      e'.pieceSendQueues = e.pieceSendQueues := by
  unfold storageCall
  split
  · refine ⟨_, _, rfl, ?_, ?_⟩ <;> split <;> rfl
  · exact ⟨_, _, rfl, rfl, rfl⟩

theorem uploadJobEnded_spec (e : Engine σ) (p : PeerId) (outcome : Except Failure Value) :
    ∃ l, (e.uploadJobEnded p outcome).1.log = e.log ++ l ∧ (∀ x ∈ l, ¬ x.Transfers) ∧
      (∃ outcome', (e.uploadJobEnded p outcome).2 = .done outcome') ∧
      ∀ q, q ≠ p → e.Sending q → (e.uploadJobEnded p outcome).1.Sending q := by
  have hother : ∀ e' : Engine σ, (∀ q, q ≠ p →
      e'.pieceSendQueues.get? q = e.pieceSendQueues.get? q) →
      ∀ q, q ≠ p → e.Sending q → e'.Sending q := by
    rintro e' h q hq ⟨queue, hget, hrunning⟩
    exact ⟨queue, by rw [h q hq]; exact hget, hrunning⟩
  unfold uploadJobEnded
  cases hqueue : e.pieceSendQueues.get? p with
  | none =>
    cases outcome with
    | error err =>
      exact ⟨[.emit (.pieceRejected "" (-1) err.message)], rfl, by simp [Effect.Transfers],
        ⟨_, rfl⟩, hother _ fun _ _ => rfl⟩
    | ok v => exact ⟨[], by simp, by simp, ⟨_, rfl⟩, hother _ fun _ _ => rfl⟩
  | some queue =>
    have hset : ∀ q x, q ≠ p →
        (e.pieceSendQueues.set p x).get? q = e.pieceSendQueues.get? q :=
      fun q x hq => OrderedMap.get?_set_of_ne _ _ hq
    have hdelete : ∀ q, q ≠ p → (e.pieceSendQueues.delete p).get? q = e.pieceSendQueues.get? q :=
      fun q hq => OrderedMap.get?_delete_of_ne _ hq
    by_cases hjobs : queue.jobs = []
    · cases outcome with
      | error err =>
        refine ⟨[.emit (.pieceRejected "" (-1) err.message)], ?_, by simp [Effect.Transfers],
          ⟨_, rfl⟩, hother _ fun q hq => ?_⟩
        · simp [hjobs, emit]
        · simp [hjobs, emit, hdelete q hq]
      | ok v =>
        refine ⟨[], ?_, by simp, ⟨_, rfl⟩, hother _ fun q hq => ?_⟩
        · simp [hjobs]
        · simp [hjobs, hdelete q hq]
    · cases outcome with
      | error err =>
        refine ⟨[.emit (.pieceRejected "" (-1) err.message)], ?_, by simp [Effect.Transfers],
          ⟨_, rfl⟩, hother _ fun q hq => ?_⟩
        · simp [hjobs, emit]
        · simp [hjobs, emit, hset q _ hq]
      | ok v =>
        refine ⟨[], ?_, by simp, ⟨_, rfl⟩, hother _ fun q hq => ?_⟩
        · simp [hjobs]
        · simp [hjobs, hset q _ hq]

theorem sends_sendRequestedPiece [StorageAdapter σ] (p : PeerId) (request : PieceRequestMessage) :
    e.Sends p header (e.sendRequestedPiece t p request) := by
  unfold sendRequestedPiece
  split
  · exact .stop p _
  · split
    · exact sends_sendReject p request _
    · rename_i index piece _
      split
      · exact .calm e _ [] (by simp) (by simp) rfl
          (.inr ⟨_, .sourceRead p request index, rfl, rfl, .inl rfl⟩)
      · split
        · exact sends_sendReject p request _
        · split
          · exact .stop p _
          · split
            · obtain ⟨e1, pending, hcall, hlog, hqueues⟩ := storageCall_quiet (e := e) (t := t)
                (fun data => .buffer data) (StorageAdapter.readPiece request.fileId index e.storage)
              rw [hcall]
              exact .calm e1 _ [] (by simp [hlog]) (by simp) hqueues
                (.inr ⟨pending, .storedRead p request index, rfl, rfl, .inl rfl⟩)
            · exact sends_sendReject p request _

/-- A job starts when none is running for its peer. -/
theorem startUploadJob_spec [StorageAdapter σ] {p : PeerId} {result : Engine σ × Next}
    (h : e.startUploadJob t p = some result) :
    ¬ e.Sending p ∧ ∃ (e0 e' : Engine σ) (next : Next), result = (e', next.andThen (.uploadJob p)) ∧
      (∀ header, e0.Sends p header (e', next)) ∧ e0.log = e.log ∧ e0.Sending p ∧
      ∀ q, e.Sending q → e0.Sending q := by
  unfold startUploadJob at h
  cases hqueue : e.pieceSendQueues.get? p with
  | none => simp [hqueue] at h
  | some queue =>
    simp only [hqueue] at h
    cases hjobs : queue.jobs with
    | nil => simp [hjobs] at h
    | cons request rest =>
      simp only [hjobs] at h
      split at h
      · cases h
      · rename_i hidle
        have hstarted : ∀ e0 : Engine σ,
            e0.pieceSendQueues = e.pieceSendQueues.set p ⟨rest, true⟩ → e0.Sending p ∧
              ∀ q, e.Sending q → e0.Sending q := by
          intro e0 he0
          refine ⟨⟨⟨rest, true⟩, by simp [he0], rfl⟩, ?_⟩
          rintro q ⟨queue', hget, hrunning⟩
          by_cases hqp : q = p
          · exact ⟨⟨rest, true⟩, by simp [he0, hqp], rfl⟩
          · exact ⟨queue', by rw [he0, OrderedMap.get?_set_of_ne _ _ hqp]; exact hget, hrunning⟩
        refine ⟨?_, { e with pieceSendQueues := e.pieceSendQueues.set p ⟨rest, true⟩ }, _, _,
          (Option.some.inj h).symm, fun _ => sends_sendRequestedPiece p request, rfl,
          (hstarted _ rfl).1, (hstarted _ rfl).2⟩
        rintro ⟨queue', hget, hrunning⟩
        rw [hqueue] at hget
        cases hget
        exact hidle hrunning

end Engine

/-- A chunk header, a frame, a continuation that sends one, or the queues of the uploads. -/
def Label.Transfers : Label → Prop
  | .effect x => x.Transfers
  | .frame fr => ∃ p, fr.uploadsTo p
  | .uploads => True
  | _ => False

/-- A grant of nothing that transfers a piece. -/
def Grant.Calm (G : Grant) : Prop := ∀ label, label.Transfers → ¬ G label

namespace Grant

variable {σ : Type} {e : Engine σ} {t : Turn} {G G' : Grant}

theorem Calm.sup (h : G.Calm) (h' : G'.Calm) : (G ⊔ G').Calm := by
  rintro label hl (hg | hg)
  · exact h label hl hg
  · exact h' label hl hg

theorem calm_only {label : Label} (h : ¬ label.Transfers) : (Grant.only label).Calm := by
  rintro _ hl rfl
  exact h hl

theorem calm_retire (requestId : RequestId) : (Grant.retire requestId).Calm := by
  intro label hl h
  cases label <;> first | exact h | exact hl

theorem calm_request (p : PeerId) (f : FileId) (options : Option DirectRequestOptions) :
    (Grant.request t p f options).Calm := by
  intro label hl h
  cases label with
  | effect x =>
    obtain ⟨i, rfl⟩ := h
    exact hl
  | frame frame =>
    obtain ⟨ref, scheduled, rfl⟩ := h
    obtain ⟨q, hq⟩ := hl
    exact hq
  | _ => first | exact h | exact hl

theorem calm_grid (f : FileId) (options : GridScheduleOptions) :
    (Grant.grid e t f options).Calm := by
  intro label hl h
  cases label with
  | effect x =>
    obtain ⟨p, i, rfl⟩ := h
    exact hl
  | frame frame =>
    obtain ⟨q, hq⟩ := hl
    obtain ⟨result, rfl⟩ | ⟨result, rfl⟩ := h <;> exact hq
  | _ => first | exact h | exact hl

theorem calm_gridLoop (f : FileId) (options : GridScheduleOptions) (total : Number) :
    (Grant.gridLoop e t f options total).Calm := by
  intro label hl h
  cases label with
  | effect x => exact calm_grid (e := e) f options (.effect x) hl h
  | frame frame =>
    obtain h | ⟨scheduled, rfl⟩ | ⟨scheduled, rfl⟩ := h
    · exact calm_grid (e := e) f options (.frame frame) hl h
    · exact hl.elim fun _ hq => hq
    · exact hl.elim fun _ hq => hq
  | _ => first | exact h | exact hl

theorem calm_filling (window : Nat) (windowKey : String) (p : PeerId) (f : FileId)
    (options : DirectRequestOptions) : (Grant.filling t window windowKey p f options).Calm := by
  rintro label hl (h | ⟨scheduled, rfl⟩)
  · exact calm_request p f _ label hl h
  · exact hl.elim fun _ hp => hp

theorem calm_again (p : PeerId) (f : FileId) (options : Option GridScheduleOptions) :
    (Grant.again e t p f options).Calm := by
  cases options with
  | none => exact calm_request p f none
  | some options => exact calm_grid f options

theorem calm_reject (p : PeerId) (h : PieceChunkHeaderMessage) : (Grant.reject e t p h).Calm := by
  intro label hl hg
  cases label with
  | uploads => exact hg
  | effect x =>
    obtain rfl := hg
    exact hl
  | frame frame =>
    obtain ⟨outstanding, finalized, rfl⟩ := hg
    exact hl.elim fun _ hq => hq
  | _ => exact hl

theorem calm_announce (f : FileId) : (Grant.announce t f).Calm := by
  intro label hl h
  cases label with
  | effect x =>
    obtain ⟨p, map, rfl, -⟩ := h
    exact hl
  | _ => exact h

theorem calm_restoring (f : FileId) : (Grant.restoring f).Calm := by
  intro label hl h
  cases label with
  | frame frame =>
    obtain ⟨p, hp⟩ := hl
    cases frame <;> first | exact hp | exact h
  | _ => exact h

theorem calm_discard (f : FileId) (index : Nat) : (Grant.discard f index).Calm := by
  intro label hl h
  cases label with
  | frame frame => exact calm_restoring f _ hl h
  | erase => exact hl
  | _ => exact h

theorem calm_joining (sessionId : SessionId) (merged : List FileManifest) :
    (Grant.joining sessionId merged).Calm := by
  intro label hl h
  cases label with
  | frame frame =>
    obtain ⟨f, h⟩ | ⟨f, pending, rfl⟩ | rfl := h
    · exact calm_restoring f (.frame frame) hl h
    · exact hl.elim fun _ hp => hp
    · exact hl.elim fun _ hp => hp
  | _ => exact h

theorem calm_creating : Grant.creating.Calm := by
  intro label hl h
  cases label with
  | frame frame =>
    obtain ⟨_, _, _, _, rfl⟩ | ⟨_, _, rfl⟩ := h
    · exact hl.elim fun _ hp => hp
    · exact hl.elim fun _ hp => hp
  | _ => exact h

theorem calm_receive (f : FileId) (pieceIndex : Number) (requestId : RequestId)
    (data : ArrayBuffer) (expected : Option PeerId) :
    (Grant.receive f pieceIndex requestId data expected).Calm := by
  intro label hl h
  cases label with
  | frame frame =>
    obtain ⟨r, rfl, -⟩ := h
    exact hl.elim fun _ hp => hp
  | _ => exact h

theorem calm_assembled (p : PeerId) (h : PieceChunkHeaderMessage) (data : ArrayBuffer) :
    (Grant.assembled e p h data).Calm := by
  intro label hl hg
  cases label with
  | frame frame =>
    obtain ⟨-, ⟨outstanding, -, rfl⟩ | hg⟩ := hg
    · exact hl.elim fun _ hp => hp
    · exact calm_receive _ _ _ _ _ (.frame frame) hl hg
  | _ => exact hg

theorem calm_commit (r : Receipt) : (Grant.commit e t r).Calm := by
  intro label hl h
  cases label with
  | effect x =>
    obtain ⟨p, requestId, rfl⟩ | h := h
    · exact hl
    · exact calm_announce r.fileId (.effect x) hl h
  | frame frame =>
    obtain rfl := h
    exact hl.elim fun _ hp => hp
  | _ => first | exact h | exact hl

theorem calm_binary (p : PeerId) (data : ArrayBuffer) : (Grant.binary e t p data).Calm := by
  intro label hl h
  cases label with
  | uploads =>
    obtain ⟨header, -, -, h⟩ := h
    exact h
  | effect x =>
    obtain ⟨header, -, -, h⟩ := h
    exact calm_reject p header (.effect x) hl h
  | frame frame =>
    obtain ⟨header, -, rfl | ⟨-, rfl | h⟩⟩ := h
    · exact hl.elim fun _ hq => hq
    · exact hl.elim fun _ hq => hq
    · exact calm_reject p header (.frame frame) hl h
  | _ => exact hl

/-- Only a request for a piece reaches the queues. -/
theorem calm_message (p : PeerId) (m : WireMessage) {label : Label} (hl : label.Transfers)
    (hg : Grant.message e t p m label) : label = .uploads ∧ m.type = "PIECE_REQUEST" := by
  obtain ⟨htype, rfl⟩ | ⟨-, map, -, h⟩ | ⟨-, header, -, -, -, ⟨-, rfl⟩ | ⟨previous, -, -, h⟩⟩ |
    ⟨-, requestId, f, i, -, -, -, h⟩ | ⟨-, requestId, -, rfl⟩ | ⟨-, requestId, -, q, -, -, h | h⟩ := hg
  · exact ⟨rfl, htype⟩
  · cases label <;> first | exact h.elim | exact hl.elim
  · exact hl.elim
  · exact absurd h (calm_reject p header label hl)
  · cases label <;> first | exact h.elim | exact hl.elim
  · exact hl.elim
  · exact absurd h (calm_retire requestId label hl)
  · exact absurd h (calm_again _ _ _ label hl)

theorem calm_windowJob (window : Nat) (job : WindowJob) :
    (Grant.windowJob t window job).Calm := by
  cases job with
  | fill p f windowKey options =>
    rintro label hl (h | rfl)
    · exact calm_request _ _ _ label hl h
    · exact hl.elim fun _ hq => hq
  | retry requestId request direct => exact calm_request _ _ _
  | expire requestId => exact calm_retire requestId

end Grant

/-- A call transfers nothing by its first await. -/
theorem Call.grant_calm {σ : Type} (e : Engine σ) (t : Turn) (c : Call) : (c.grant e t).Calm := by
  have hframe : ∀ frame : Frame, (∀ p, ¬ frame.uploadsTo p) → (Grant.only (.frame frame)).Calm :=
    fun frame h => Grant.calm_only fun ⟨p, hp⟩ => h p hp
  cases c with
  | createSession input files => exact (Grant.calm_only id).sup (hframe _ fun _ => id)
  | joinSession sessionId manifests => exact (Grant.calm_only id).sup (hframe _ fun _ => id)
  | requestNextPiece p f options => exact Grant.calm_request p f options
  | requestNextGridPiece f options => exact Grant.calm_grid f options
  | requestGridPieceWindow f options total perPeer => exact Grant.calm_gridLoop f _ _
  | broadcastPieceMap f peers => exact Grant.calm_announce f
  | receivePiece f pieceIndex requestId data expected => exact Grant.calm_receive f _ _ _ _
  | resumeFile f =>
    rintro label hl ⟨manifest, -, h | rfl⟩
    · exact Grant.calm_restoring _ label hl h
    · exact hl.elim fun _ hp => hp
  | cancelCompetingGridRequests f i keep =>
    rintro label hl (h | ⟨x, rfl, -⟩)
    · cases label with
      | effect x =>
        obtain ⟨p, requestId, rfl⟩ := h
        exact hl
      | frame => exact h
      | _ => first | exact h | exact hl
    · exact hl
  | flushDirectLifecycle =>
    rintro label hl (⟨p, -, h⟩ | ⟨windows, rfl⟩)
    · exact Grant.calm_retire p.1 label hl h
    · exact hl.elim fun _ hp => hp
  | dispose =>
    rintro label hl (((⟨p, -, h⟩ | h) | ⟨windows, rfl⟩) | rfl)
    · exact Grant.calm_retire p.1 label hl h
    · cases label <;> first | exact h | exact hl
    · exact hl.elim fun _ hp => hp
    · exact hl.elim fun _ hp => hp
  | expireDirectRequests now =>
    rintro label hl ⟨p, -, h⟩
    exact Grant.calm_retire p.1 label hl h
  | setTransferChunkBytes bytes => exact Grant.calm_only id
  | applyTransferTuning chunkSizeBytes maxBytes => exact Grant.calm_only id
  | setTransport => exact Grant.calm_only id
  | _ =>
    intro label hl h
    cases label <;> first | exact h | exact hl

/-- Outside of uploads no continuation transfers anything. -/
theorem Frame.grant_calm {σ : Type} (e : Engine σ) (t : Turn) {frame : Frame}
    (outcome : Except Failure Value) (hf : ∀ p, ¬ frame.uploadsTo p) :
    (frame.grant e t outcome).Calm := by
  have honly : ∀ next : Frame, (∀ p, ¬ next.uploadsTo p) → (Grant.only (.frame next)).Calm :=
    fun next h => Grant.calm_only fun ⟨p, hp⟩ => h p hp
  have hshut : ∀ G : Grant, (∀ x, ¬ G (.effect x)) → (∀ next, ¬ G (.frame next)) →
      ¬ G .uploads → G.Calm := by
    intro G heffect hframe huploads label hl h
    cases label with
    | effect x => exact heffect x h
    | frame next => exact hframe next h
    | uploads => exact huploads h
    | _ => first | exact h | exact hl
  cases frame with
  | sourceRead p => exact absurd rfl (hf p)
  | storedRead p => exact absurd rfl (hf p)
  | headerSent upload => exact absurd rfl (hf upload.peerId)
  | binarySent upload => exact absurd rfl (hf upload.peerId)
  | uploadJob p => exact absurd rfl (hf p)
  | fillWindow => exact Grant.calm_filling _ _ _ _ _
  | gridSent => exact honly _ fun _ => id
  | gridEndgame => exact Grant.calm_gridLoop _ _ _
  | gridNext => exact Grant.calm_gridLoop _ _ _
  | pieceDeleted => exact honly _ fun _ => id
  | mismatchPersisted => exact (Grant.calm_retire _).sup (hshut _ (fun _ => id) (fun _ => id) id)
  | resumeRead => exact Grant.calm_discard _ _
  | resumeChecked => exact Grant.calm_discard _ _
  | resumeDeleted => exact Grant.calm_restoring _
  | filePersisted => exact (Grant.calm_announce _).sup (honly _ fun _ => id)
  | joinInitialized => exact honly _ fun _ => id
  | createInitialized => exact Grant.calm_creating
  | rejectSent => exact (Grant.calm_again _ _ _).sup (honly _ fun _ => id)
  | responseSent =>
    rintro label hl ⟨options, -, h⟩
    exact Grant.calm_grid _ options label hl h
  | disposeFlushed =>
    obtain err | v := outcome
    · exact fun _ _ hl => hl.elim
    · exact Grant.calm_only id
  | requestSent =>
    cases outcome with
    | error err => exact hshut _ (fun _ => id) (fun _ => id) id
    | ok v => exact honly _ fun _ => id
  | requestPersisted => cases outcome <;> exact hshut _ (fun _ => id) (fun _ => id) id
  | pieceWritten =>
    cases outcome with
    | error err => exact hshut _ (fun _ => id) (fun _ => id) id
    | ok v => exact (Grant.calm_only id).sup (honly _ fun _ => id)
  | piecePersisted r =>
    cases outcome with
    | error err => exact hshut _ (fun _ => id) (fun _ => id) id
    | ok v => exact Grant.calm_commit r
  | pieceChecked r =>
    obtain err | v := outcome
    · exact hshut _ (fun _ => id) (fun _ => id) id
    · cases v with
      | bool b =>
        intro label hl h
        cases b <;> cases label <;> first
          | exact hl
          | exact h
          | (obtain rfl := h; exact hl.elim fun _ hp => hp)
      | _ => exact hshut _ (fun _ => id) (fun _ => id) id
  | fileRestored =>
    obtain err | v := outcome
    · exact hshut _ (fun _ => id) (fun _ => id) id
    · cases v with
      | restored => exact (Grant.calm_only id).sup (honly _ fun _ => id)
      | _ => exact hshut _ (fun _ => id) (fun _ => id) id
  | joinLoaded =>
    obtain err | v := outcome
    · exact hshut _ (fun _ => id) (fun _ => id) id
    · cases v with
      | state =>
        rintro label hl ⟨merged, -, ⟨m, -, rfl⟩ | h⟩
        · exact hl
        · exact Grant.calm_joining _ _ label hl h
      | _ => exact hshut _ (fun _ => id) (fun _ => id) id
  | joinRestored =>
    obtain err | v := outcome
    · exact hshut _ (fun _ => id) (fun _ => id) id
    · cases v with
      | restored => exact (Grant.calm_only id).sup (Grant.calm_joining _ _)
      | _ => exact hshut _ (fun _ => id) (fun _ => id) id
  | createHashed =>
    obtain err | v := outcome
    · exact hshut _ (fun _ => id) (fun _ => id) id
    · cases v with
      | manifest => exact ((Grant.calm_only id).sup (Grant.calm_only id)).sup Grant.calm_creating
      | _ => exact hshut _ (fun _ => id) (fun _ => id) id
  | chunkAppended p header =>
    obtain err | v := outcome
    · exact hshut _ (fun _ => id) (fun _ => id) id
    · cases v with
      | buffer data =>
        cases data with
        | none => exact hshut _ (fun _ => id) (fun _ => id) id
        | some data => exact Grant.calm_assembled p header data
      | _ => exact hshut _ (fun _ => id) (fun _ => id) id
  | pieceReceived p header outstanding =>
    obtain err | v := outcome
    · exact hshut _ (fun _ => id) (fun _ => id) id
    · cases v with
      | received result =>
        refine (Grant.calm_only ?_).sup (honly _ fun _ => id)
        unfold Engine.responseTo
        split <;> exact id
      | _ => exact hshut _ (fun _ => id) (fun _ => id) id
  | _ =>
    obtain err | v := outcome
    · exact hshut _ (fun _ => id) (fun _ => id) id
    · cases v <;> exact hshut _ (fun _ => id) (fun _ => id) id

theorem Changes.queues {σ : Type} [StorageAdapter σ] {t : Turn} {G : Grant} {e e' : Engine σ}
    (h : Changes t G e e') (hg : ¬ G .uploads) : e'.pieceSendQueues = e.pieceSendQueues := by
  induction h with
  | refl => rfl
  | tail _ hc ih =>
    cases hc with
    | uploads queues hu => exact absurd hu hg
    | register m _ =>
      unfold Engine.registerManifest
      simp only
      split <;> exact ih
    | _ => exact ih

/-- A job that is running is not stopped by the requests that queue up behind it. -/
theorem Engine.Sending.message {σ : Type} [StorageAdapter σ] {e : Engine σ} {p q : PeerId}
    (h : e.Sending p) (cfg : Config) (t : Turn) (message : Option WireMessage) :
    (e.handleTransportMessage cfg t q message).1.Sending p := by
  obtain ⟨queue, hget, hrunning⟩ := h
  cases message with
  | none => exact ⟨queue, hget, hrunning⟩
  | some m =>
    by_cases htype : m.type = "PIECE_REQUEST"
    · unfold handleTransportMessage
      simp only [if_pos htype]
      split
      · exact ⟨queue, hget, hrunning⟩
      · unfold queueRequestedPiece Sending
        simp only [OrderedMap.get?_set]
        split
        · rename_i hpq
          subst hpq
          simp only [hget, Option.getD_some]
          exact ⟨_, rfl, hrunning⟩
        · exact ⟨queue, hget, hrunning⟩
    · have hdoes : Does cfg t (Grant.message e t q m) e
          (e.handleTransportMessage cfg t q (some m)) :=
        does_handleTransportMessage q (some m) (by rintro _ ⟨⟩; exact le_rfl)
      have huploads : Label.Transfers .uploads := trivial
      have hqueues := hdoes.changes.queues fun hg =>
        htype (Grant.calm_message q m huploads hg).2
      exact ⟨queue, by rw [hqueues]; exact hget, hrunning⟩

namespace World

variable {σ : Type}

/-- The header of the frame that the action sends, if it sends one. -/
def label (w : World σ) : Action → Option PieceChunkHeaderMessage
  | .resume i => (w.tasks[i]?).bind fun task => task.stack.head?.bind Frame.header?
  | _ => none

/-- What a step puts on the channel to the peer. -/
def posts [StorageAdapter σ] (cfg : Config) (w : World σ) (p : PeerId) (x : Turn × Action) :
    List Parcel :=
  ((w.step cfg x).engine.log.drop w.engine.log.length).filterMap
    (Effect.parcel? p (w.label x.2))

/-- The uploads to the peer run one at a time, and the one that has sent a header was the last
to do so. -/
structure Serial (w : World σ) (p : PeerId) (current : Option PieceChunkHeaderMessage) : Prop where
  shape : ∀ (i : Nat) (task : Task), w.tasks[i]? = some task →
    Unloaded task.stack ∨ ∃ q, Uploading q task.stack
  one : ∀ (i j : Nat) (a b : Task), w.tasks[i]? = some a → w.tasks[j]? = some b →
    Uploading p a.stack → Uploading p b.stack → i = j
  running : ∀ (i : Nat) (task : Task), w.tasks[i]? = some task → Uploading p task.stack →
    w.engine.Sending p
  told : ∀ (i : Nat) (task : Task) (u : Upload) (below : List Frame), w.tasks[i]? = some task →
    task.stack = .headerSent u :: below → u.peerId = p →
    (∃ err, task.pending = .settled (.error err)) ∨ current = some u.header

/-- No task but the one at the position uploads to the peer. -/
def Alone (w : World σ) (p : PeerId) (i : Nat) : Prop :=
  ∀ (j : Nat) (task : Task), j ≠ i → w.tasks[j]? = some task → ¬ Uploading p task.stack

variable {w w' : World σ} {p : PeerId} {current current' : Option PieceChunkHeaderMessage}

theorem Serial.alone (h : w.Serial p current) {i : Nat} {task : Task} (hi : w.tasks[i]? = some task)
    (hup : Uploading p task.stack) : w.Alone p i := by
  intro j b hne hj hb
  exact hne (h.one j i b task hj hi hb hup)

/-- One task changes or is added. -/
theorem Serial.put (h : w.Serial p current) (i : Nat) {task : Task}
    (hother : ∀ j, j ≠ i → w'.tasks[j]? = w.tasks[j]?) (hi : w'.tasks[i]? = some task)
    (hshape : Unloaded task.stack ∨ ∃ q, Uploading q task.stack)
    (hmine : Uploading p task.stack → w'.engine.Sending p ∧ w.Alone p i)
    (hrun : (w.engine.Sending p → w'.engine.Sending p) ∨ w.Alone p i)
    (hcurrent : current' = current ∨ w.Alone p i)
    (htold : ∀ u below, task.stack = .headerSent u :: below → u.peerId = p →
      (∃ err, task.pending = .settled (.error err)) ∨ current' = some u.header) :
    w'.Serial p current' := by
  have hback : ∀ (j : Nat) (b : Task), w'.tasks[j]? = some b →
      (j = i ∧ b = task) ∨ (j ≠ i ∧ w.tasks[j]? = some b) := by
    intro j b hj
    by_cases hji : j = i
    · subst hji
      rw [hi] at hj
      exact .inl ⟨rfl, (Option.some.inj hj).symm⟩
    · exact .inr ⟨hji, (hother j hji).symm.trans hj⟩
  constructor
  · intro j b hj
    obtain ⟨-, rfl⟩ | ⟨-, hold⟩ := hback j b hj
    · exact hshape
    · exact h.shape j b hold
  · intro j k a b hj hk ha hb
    obtain ⟨rfl, rfl⟩ | ⟨hji, hjold⟩ := hback j a hj
    · obtain ⟨rfl, rfl⟩ | ⟨hki, hkold⟩ := hback k b hk
      · rfl
      · exact absurd hb ((hmine ha).2 k b hki hkold)
    · obtain ⟨rfl, rfl⟩ | ⟨hki, hkold⟩ := hback k b hk
      · exact absurd ha ((hmine hb).2 j a hji hjold)
      · exact h.one j k a b hjold hkold ha hb
  · intro j b hj hb
    obtain ⟨rfl, rfl⟩ | ⟨hji, hold⟩ := hback j b hj
    · exact (hmine hb).1
    · obtain hkeep | halone := hrun
      · exact hkeep (h.running j b hold hb)
      · exact absurd hb (halone j b hji hold)
  · intro j b u below hj hstack hp
    obtain ⟨rfl, rfl⟩ | ⟨hji, hold⟩ := hback j b hj
    · exact htold u below hstack hp
    · obtain rfl | halone := hcurrent
      · exact h.told j b u below hold hstack hp
      · have hup : Uploading p b.stack := by
          have hshape := h.shape j b hold
          rw [hstack] at hshape ⊢
          exact Uploading.head hshape hp
        exact absurd hup (halone j b hji hold)

/-- The task that changes or is added uploads nothing. -/
theorem Serial.put_unloaded (h : w.Serial p current) (i : Nat) {task : Task}
    (hother : ∀ j, j ≠ i → w'.tasks[j]? = w.tasks[j]?) (hi : w'.tasks[i]? = some task)
    (hun : Unloaded task.stack) (hrun : w.engine.Sending p → w'.engine.Sending p) :
    w'.Serial p current := by
  refine h.put i hother hi (.inl hun) (fun hup => absurd hun hup.not_unloaded) (.inl hrun)
    (.inl rfl) fun u below hstack _ => ?_
  have htop : Frame.headerSent u ∈ task.stack := by simp [hstack]
  exact absurd rfl (hun _ htop u.peerId)

/-- The engine alone changes. -/
theorem Serial.engine (h : w.Serial p current) (htasks : w'.tasks = w.tasks)
    (hrun : w.engine.Sending p → w'.engine.Sending p) : w'.Serial p current := by
  constructor
  · rw [htasks]
    exact h.shape
  · rw [htasks]
    exact h.one
  · intro i task hi hup
    rw [htasks] at hi
    exact hrun (h.running i task hi hup)
  · rw [htasks]
    exact h.told

variable [StorageAdapter σ] {cfg : Config} {t : Turn} {a : Action}

/-- The action takes an upload further. -/
def Uploads (w : World σ) : Action → Prop
  | .upload _ => True
  | .resume i => ∃ task frame below p, w.tasks[i]? = some task ∧ task.stack = frame :: below ∧
      frame.uploadsTo p
  | _ => False

omit [StorageAdapter σ] in
/-- Outside of uploads a step leaves headers, frames and queues to themselves, but for the
requests that peers send. -/
theorem grant_calm (ha : ¬ w.Uploads a) {label : Label} (hl : label.Transfers)
    (hg : w.grant (t, a) label) : label = .uploads ∧ ∃ p m, a = .message p m := by
  cases a with
  | call c => exact absurd hg (Call.grant_calm _ _ c label hl)
  | message q message =>
    obtain rfl | ⟨m, -, hm⟩ := hg
    · exact hl.elim fun _ hp => hp.elim
    · exact ⟨(Grant.calm_message q m hl hm).1, q, message, rfl⟩
  | binary q data =>
    obtain rfl | hg := hg
    · exact hl.elim fun _ hp => hp.elim
    · exact absurd hg (Grant.calm_binary q data label hl)
  | resume i =>
    obtain ⟨pending, frame, below, outcome, hi, -, hg⟩ := hg
    refine absurd hg (Frame.grant_calm _ _ outcome (fun p hp => ha ?_) label hl)
    exact ⟨_, frame, below, p, hi, rfl, hp⟩
  | window ref =>
    obtain ⟨track, rfl⟩ | ⟨window, job, rest, -, -, -, hg⟩ := hg
    · exact hl.elim fun _ hp => hp.elim
    · exact absurd hg (Grant.calm_windowJob ref job label hl)
  | upload p => exact absurd trivial ha
  | timer k =>
    obtain ⟨requestId, windowKey, -, hg⟩ := hg
    exact absurd hg (Grant.calm_retire requestId label hl)

theorem sending_step (ha : ¬ w.Uploads a) (h : w.engine.Sending p) :
    (w.step cfg (t, a)).engine.Sending p := by
  by_cases hm : ∃ q m, a = .message q m
  · obtain ⟨q, m, rfl⟩ := hm
    unfold step
    simp only [handleMessage]
    split
    · exact h.message cfg t m
    · exact h
  · have huploads : Label.Transfers .uploads := trivial
    have hqueues := (step_spec cfg w t a).changes.queues fun hg =>
      hm (grant_calm ha huploads hg).2
    obtain ⟨queue, hget, hrunning⟩ := h
    exact ⟨queue, by rw [hqueues]; exact hget, hrunning⟩

theorem posts_of_log {x : Turn × Action} {l : List Effect}
    (h : (w.step cfg x).engine.log = w.engine.log ++ l) :
    w.posts cfg p x = l.filterMap (Effect.parcel? p (w.label x.2)) := by
  simp [posts, h]

omit [StorageAdapter σ] in
theorem getElem?_spawn {result : Engine σ × Next} {j : Nat} (hj : j ≠ w.tasks.length) :
    (w.spawn result).tasks[j]? = w.tasks[j]? := by
  by_cases hlt : j < w.tasks.length
  · exact List.getElem?_append_left hlt
  · have hnone : w.tasks[j]? = none := by
      rw [List.getElem?_eq_none_iff]
      omega
    rw [hnone, List.getElem?_eq_none_iff]
    simp only [spawn, List.length_append, List.length_singleton]
    omega

/-- What has to do with no upload keeps the uploads in order. -/
theorem Serial.calm (h : w.Serial p current) (ha : ¬ w.Uploads a) :
    Parcel.InOrder current (w.posts cfg p (t, a)) ∧
      (w.step cfg (t, a)).Serial p (Parcel.last current (w.posts cfg p (t, a))) := by
  have hspec := step_spec cfg w t a
  have hsending : w.engine.Sending p → (w.step cfg (t, a)).engine.Sending p := sending_step ha
  obtain ⟨l, hl, hspeaks⟩ := hspec.changes.log
  have hcalm : ∀ x ∈ l, ¬ x.Transfers := by
    intro x hx hx'
    obtain ⟨event, rfl⟩ | hg := hspeaks x hx
    · exact hx'
    · have hlabel : Label.Transfers (.effect x) := hx'
      cases (grant_calm ha hlabel hg).1
  obtain ⟨horder, hlast⟩ := Effect.parcels_of_calm hcalm p (w.label a) current
  rw [posts_of_log hl, hlast]
  refine ⟨horder, ?_⟩
  have hframes : ∀ frame, w.grant (t, a) (.frame frame) → ∀ q, ¬ frame.uploadsTo q := by
    intro frame hg q hq
    have hlabel : Label.Transfers (.frame frame) := ⟨q, hq⟩
    cases (grant_calm ha hlabel hg).1
  generalize hw' : w.step cfg (t, a) = w' at hspec hsending
  cases hspec with
  | alone _ e fired _ => exact h.engine rfl hsending
  | spawn _ hr result hdoes =>
    have hun : Unloaded (result.2.task []).stack := by
      intro frame hframe
      obtain hnext | hnil := mem_task_stack.1 hframe
      · exact hframes frame (hdoes.frames frame hnext)
      · cases hnil
    refine h.put_unloaded w.tasks.length (fun j hj => getElem?_spawn hj) ?_ hun hsending
    simp [spawn]
  | resume i pending frame below outcome result hi ho hr hdoes =>
    have hstack : Unloaded (frame :: below) := by
      obtain hun | ⟨q, hup⟩ := h.shape i _ hi
      · exact hun
      · obtain ⟨q, hq⟩ : ∃ q, frame.uploadsTo q := by
          cases hup with
          | ending => exact ⟨q, rfl⟩
          | working _ hw => exact ⟨q, hw.uploadsTo⟩
        exact absurd ⟨_, frame, below, q, hi, rfl, hq⟩ ha
    have hun : Unloaded (result.2.task below).stack := by
      intro next hnext
      obtain hnew | hbelow := mem_task_stack.1 hnext
      · exact hframes next ⟨pending, frame, below, outcome, hi, ho, hdoes.frames next hnew⟩
      · exact hstack next (List.mem_cons_of_mem _ hbelow)
    have hlt : i < w.tasks.length := (List.getElem?_eq_some_iff.1 hi).1
    refine h.put_unloaded i (fun j hj => List.getElem?_set_ne (Ne.symm hj)) ?_ hun hsending
    simp [hlt]

omit [StorageAdapter σ] in
/-- A stretch of an upload keeps the uploads in order. -/
theorem Serial.sends (h : w.Serial p current) (i : Nat) {q : PeerId} {e e' : Engine σ} {next : Next}
    {header : Option PieceChunkHeaderMessage} (hs : e.Sends q header (e', next))
    (hlog : e.log = w.engine.log) (hq : q = p → e.Sending q)
    (hkeep : w.engine.Sending p → e.Sending p) (halone : q = p → w.Alone p i)
    (hheader : q = p → header = none ∨ header = current ∨ ∃ outcome, next = .done outcome)
    (hother : ∀ j, j ≠ i → w'.tasks[j]? = w.tasks[j]?)
    (hi : w'.tasks[i]? = some (next.task [.uploadJob q])) (he : w'.engine = e') :
    ∃ l, w'.engine.log = w.engine.log ++ l ∧
      Parcel.InOrder current (l.filterMap (Effect.parcel? p header)) ∧
      w'.Serial p (Parcel.last current (l.filterMap (Effect.parcel? p header))) := by
  have hqueues : e'.pieceSendQueues = e.pieceSendQueues := by
    cases hs with
    | calm _ _ l hlog hcalm hqueues hnext => exact hqueues
    | header u failure outcome hp ho => rfl
    | frame u failure outcome hp hu => rfl
  have hsending : ∀ r, e.Sending r → w'.engine.Sending r := by
    intro r ⟨queue, hget, hrunning⟩
    exact ⟨queue, by rw [he, hqueues]; exact hget, hrunning⟩
  have hup : Uploading q (next.task [.uploadJob q]).stack := by
    cases hs with
    | calm _ _ l hlog hcalm hqueues hnext =>
      obtain hnil | ⟨pending, frame, rfl, hw, -⟩ := hnext
      · cases next with
        | done outcome => exact .ending
        | await pending frames =>
          obtain rfl : frames = [] := hnil
          exact .ending
      · exact .working frame hw
    | header u failure outcome hp ho => exact .working _ hp
    | frame u failure outcome hp hu => exact .working _ hp
  have hput : ∀ current', (current' = current ∨ q = p) →
      (∀ u below, (next.task [.uploadJob q]).stack = .headerSent u :: below → u.peerId = p →
        (∃ err, (next.task [.uploadJob q]).pending = .settled (.error err)) ∨
          current' = some u.header) → w'.Serial p current' := by
    intro current' hcurrent htold
    refine h.put i hother hi (.inr ⟨q, hup⟩) ?_ (.inl fun hp => hsending p (hkeep hp))
      (hcurrent.imp_right halone) htold
    intro hup'
    obtain rfl := hup.peer hup'
    exact ⟨hsending q (hq rfl), halone rfl⟩
  cases hs with
  | calm _ _ l hl hcalm _ hnext =>
    obtain ⟨horder, hlast⟩ := Effect.parcels_of_calm hcalm p header current
    refine ⟨l, by rw [he, hl, hlog], horder, ?_⟩
    rw [hlast]
    refine hput current (.inl rfl) fun u below hstack _ => ?_
    obtain hnil | ⟨pending, frame, rfl, -, hnone | ⟨err, rfl⟩⟩ := hnext
    · cases next with
      | done outcome => cases hstack
      | await pending frames =>
        obtain rfl : frames = [] := hnil
        cases hstack
    · cases hstack
      cases hnone
    · exact .inl ⟨err, rfl⟩
  | header u failure outcome hp ho =>
    refine ⟨[.send q (.PIECE_CHUNK_HEADER u.header) failure], by rw [he, ← hlog], ?_⟩
    by_cases hqp : q = p
    · cases failure with
      | none =>
        have hparcels : [Effect.send q (.PIECE_CHUNK_HEADER u.header) none].filterMap
            (Effect.parcel? p header) = [.message (.PIECE_CHUNK_HEADER u.header)] := by
          simp [Effect.parcel?, hqp]
        rw [hparcels]
        refine ⟨by simp [Parcel.InOrder, Parcel.Follows], hput _ (.inr hqp) ?_⟩
        rintro u' below hstack -
        cases hstack
        exact .inr rfl
      | some err =>
        obtain ⟨err', rfl⟩ := ho (by simp)
        have hparcels : [Effect.send q (.PIECE_CHUNK_HEADER u.header) (some err)].filterMap
            (Effect.parcel? p header) = [] := by
          simp [Effect.parcel?]
        rw [hparcels]
        refine ⟨trivial, hput _ (.inr hqp) ?_⟩
        rintro u' below hstack -
        exact .inl ⟨err', rfl⟩
    · have hparcels : [Effect.send q (.PIECE_CHUNK_HEADER u.header) failure].filterMap
          (Effect.parcel? p header) = [] := by
        cases failure <;> simp [Effect.parcel?, hqp]
      rw [hparcels]
      refine ⟨trivial, hput _ (.inl rfl) ?_⟩
      rintro u' below hstack hu'
      cases hstack
      exact absurd (hp.symm.trans hu') hqp
  | frame u failure outcome hp hu =>
    refine ⟨[.sendBinary q u.chunk failure], by rw [he, ← hlog], ?_⟩
    have htold : ∀ current' u' below, (Next.task (.await (.settled outcome) [.binarySent u])
        [.uploadJob q]).stack = .headerSent u' :: below → u'.peerId = p →
        (∃ err, (Next.task (.await (.settled outcome) [.binarySent u]) [.uploadJob q]).pending =
          .settled (.error err)) ∨ current' = some u'.header := by
      intro current' u' below hstack
      cases hstack
    by_cases hqp : q = p
    · have hcurrent : header = current := by
        obtain hnone | hcurrent | ⟨outcome, hdone⟩ := hheader hqp
        · rw [hu] at hnone
          cases hnone
        · exact hcurrent
        · cases hdone
      cases failure with
      | none =>
        have hparcels : [Effect.sendBinary q u.chunk none].filterMap (Effect.parcel? p header) =
            [.frame u.chunk header] := by
          simp [Effect.parcel?, hqp]
        rw [hparcels]
        refine ⟨⟨⟨hcurrent, ?_⟩, trivial⟩, hput _ (.inr hqp) (htold _)⟩
        rw [← hcurrent, hu]
        rfl
      | some err =>
        have hparcels : [Effect.sendBinary q u.chunk (some err)].filterMap
            (Effect.parcel? p header) = [] := by
          simp [Effect.parcel?]
        rw [hparcels]
        exact ⟨trivial, hput _ (.inr hqp) (htold _)⟩
    · have hparcels : [Effect.sendBinary q u.chunk failure].filterMap
          (Effect.parcel? p header) = [] := by
        cases failure <;> simp [Effect.parcel?, hqp]
      rw [hparcels]
      exact ⟨trivial, hput _ (.inl rfl) (htold _)⟩

omit [StorageAdapter σ] in
theorem Serial.stand (h : w.Serial p current) (hw : w' = w) :
    ∃ l, w'.engine.log = w.engine.log ++ l ∧
      Parcel.InOrder current (l.filterMap (Effect.parcel? p (w.label a))) ∧
      w'.Serial p (Parcel.last current (l.filterMap (Effect.parcel? p (w.label a)))) := by
  subst hw
  exact ⟨[], by simp, trivial, h⟩

/-- A job that starts is the only one that uploads to its peer. -/
theorem Serial.start (h : w.Serial p current) (q : PeerId) :
    ∃ l, (w.step cfg (t, .upload q)).engine.log = w.engine.log ++ l ∧
      Parcel.InOrder current (l.filterMap (Effect.parcel? p (w.label (.upload q)))) ∧
      (w.step cfg (t, .upload q)).Serial p
        (Parcel.last current (l.filterMap (Effect.parcel? p (w.label (.upload q))))) := by
  cases hstart : w.engine.startUploadJob t q with
  | none => exact h.stand (by simp [step, hstart])
  | some result =>
    have hstep : w.step cfg (t, .upload q) = w.spawn result := by simp [step, hstart]
    rw [hstep]
    obtain ⟨hfree, e, e', next, rfl, hsends, hlog, hq, hkeep⟩ := Engine.startUploadJob_spec hstart
    refine h.sends w.tasks.length (hsends (w.label (.upload q))) hlog (fun _ => hq) (hkeep p) ?_
      (fun _ => .inl rfl) (fun j hj => getElem?_spawn hj) ?_ rfl
    · rintro rfl j task - hj hup
      exact hfree (h.running j task hj hup)
    · simp [spawn, Next.task_andThen]

/-- A stretch inside a job. -/
theorem Serial.work (h : w.Serial p current) {i : Nat} {q : PeerId} {pending : Pending}
    {frame : Frame} (hi : w.tasks[i]? = some ⟨pending, [frame, .uploadJob q]⟩)
    (hw : frame.works q) {outcome : Except Failure Value}
    (ho : w.engine.outcome pending = some outcome) :
    ∃ l, (w.step cfg (t, .resume i)).engine.log = w.engine.log ++ l ∧
      Parcel.InOrder current (l.filterMap (Effect.parcel? p (w.label (.resume i)))) ∧
      (w.step cfg (t, .resume i)).Serial p
        (Parcel.last current (l.filterMap (Effect.parcel? p (w.label (.resume i))))) := by
  have hlt : i < w.tasks.length := (List.getElem?_eq_some_iff.1 hi).1
  have hlabel : w.label (.resume i) = frame.header? := by simp [label, hi]
  have hstep : w.step cfg (t, .resume i) =
      { w with
        engine := (w.engine.resume cfg t outcome frame).1
        tasks := w.tasks.set i ((w.engine.resume cfg t outcome frame).2.task [.uploadJob q]) } := by
    simp [step, resumeTask, hi, ho]
  have hup : Uploading q [frame, .uploadJob q] := .working frame hw
  have hsends : w.engine.Sends q (w.label (.resume i)) (w.engine.resume cfg t outcome frame) ∧
      (q = p → w.label (.resume i) = none ∨ w.label (.resume i) = current ∨
        ∃ outcome', (w.engine.resume cfg t outcome frame).2 = .done outcome') := by
    rw [hlabel]
    cases frame with
    | sourceRead r request index =>
      obtain rfl : r = q := hw
      exact ⟨Engine.sends_sourceRead r request index outcome, fun _ => .inl rfl⟩
    | storedRead r request index =>
      obtain rfl : r = q := hw
      exact ⟨Engine.sends_storedRead r request index outcome, fun _ => .inl rfl⟩
    | headerSent u =>
      obtain rfl : u.peerId = q := hw
      cases outcome with
      | error err => exact ⟨Engine.sends_headerSent_error (t := t) u err, fun _ => .inr (.inr ⟨_, rfl⟩)⟩
      | ok v =>
        refine ⟨Engine.sends_headerSent_ok u v, fun hp => .inr (.inl ?_)⟩
        obtain ⟨err, hpending⟩ | hcurrent := h.told i _ u _ hi rfl hp
        · simp only at hpending
          subst hpending
          cases ho
        · exact hcurrent.symm
    | binarySent u =>
      obtain rfl : u.peerId = q := hw
      exact ⟨Engine.sends_binarySent u outcome, fun _ => .inl rfl⟩
    | _ => exact hw.elim
  rw [hstep]
  refine h.sends i hsends.1 rfl ?_ id ?_ hsends.2
    (fun j hj => List.getElem?_set_ne (Ne.symm hj)) (List.getElem?_set_self hlt) rfl
  · rintro rfl
    exact h.running i _ hi hup
  · rintro rfl
    exact h.alone hi hup

/-- The end of a job. -/
theorem Serial.finish (h : w.Serial p current) {i : Nat} {q : PeerId} {pending : Pending}
    (hi : w.tasks[i]? = some ⟨pending, [.uploadJob q]⟩) {outcome : Except Failure Value}
    (ho : w.engine.outcome pending = some outcome) :
    ∃ l, (w.step cfg (t, .resume i)).engine.log = w.engine.log ++ l ∧
      Parcel.InOrder current (l.filterMap (Effect.parcel? p (w.label (.resume i)))) ∧
      (w.step cfg (t, .resume i)).Serial p
        (Parcel.last current (l.filterMap (Effect.parcel? p (w.label (.resume i))))) := by
  have hlt : i < w.tasks.length := (List.getElem?_eq_some_iff.1 hi).1
  have hstep : w.step cfg (t, .resume i) =
      { w with
        engine := (w.engine.uploadJobEnded q outcome).1
        tasks := w.tasks.set i ((w.engine.uploadJobEnded q outcome).2.task []) } := by
    simp [step, resumeTask, hi, ho, Engine.resume]
  obtain ⟨l, hlog, hcalm, hdone, hother⟩ := w.engine.uploadJobEnded_spec q outcome
  obtain ⟨horder, hlast⟩ := Effect.parcels_of_calm hcalm p (w.label (.resume i)) current
  refine ⟨l, by rw [hstep]; exact hlog, horder, ?_⟩
  rw [hlast, hstep]
  obtain ⟨outcome', hdone⟩ := hdone
  have hun : Unloaded ((w.engine.uploadJobEnded q outcome).2.task []).stack := by
    rw [hdone]
    intro frame hframe
    cases hframe
  refine h.put i (fun j hj => List.getElem?_set_ne (Ne.symm hj)) ?_ (.inl hun)
    (fun hup => absurd hun hup.not_unloaded) ?_ (.inl rfl) ?_
  · simp [hlt]
  · by_cases hqp : q = p
    · subst hqp
      exact .inr (h.alone hi .ending)
    · exact .inl (hother p (Ne.symm hqp))
  · rw [hdone]
    rintro u below hstack -
    cases hstack

/-- Whatever a step does, every frame it sends to the peer stands behind its own header. -/
theorem Serial.step (h : w.Serial p current) (x : Turn × Action) :
    Parcel.InOrder current (w.posts cfg p x) ∧
      (w.step cfg x).Serial p (Parcel.last current (w.posts cfg p x)) := by
  obtain ⟨t, a⟩ := x
  by_cases ha : w.Uploads a
  · have hupload : ∃ l, (w.step cfg (t, a)).engine.log = w.engine.log ++ l ∧
        Parcel.InOrder current (l.filterMap (Effect.parcel? p (w.label a))) ∧
        (w.step cfg (t, a)).Serial p
          (Parcel.last current (l.filterMap (Effect.parcel? p (w.label a)))) := by
      cases a with
      | upload q => exact h.start q
      | resume i =>
        obtain ⟨task, frame, below, q, hi, hstack, hq⟩ := ha
        obtain ⟨pending, stack⟩ := task
        obtain rfl : stack = frame :: below := hstack
        cases ho : w.engine.outcome pending with
        | none => exact h.stand (by simp [World.step, resumeTask, hi, ho])
        | some outcome =>
          have hup := Uploading.head (h.shape i _ hi) hq
          cases hup with
          | ending => exact h.finish hi ho
          | working _ hw => exact h.work hi hw ho
      | _ => exact ha.elim
    obtain ⟨l, hlog, horder, hserial⟩ := hupload
    rw [posts_of_log hlog]
    exact ⟨horder, hserial⟩
  · exact h.calm ha

end World

end PonsWarp.Core
