import PonsWarp.Core.Actions
import PonsWarp.Core.Ingress

set_option autoImplicit false

/-!
What the continuations of a message reach. As long as no request id is handed out twice,
they keep to the request and the piece the message is about, whatever happens in between,
up to the rivals of a piece that is settled and the request in place of a refused one.
-/

namespace PonsWarp.Core

open PonsWarp.Data

namespace Engine

variable {σ : Type}

/-- The id has been handed out, and no other peer is asked under it. -/
structure Held (e : Engine σ) (q : PeerId) (x : RequestId) : Prop where
  issued : x ∈ e.issued
  peer : ∀ r, e.outstandingRequests.get? x = some r → r.peerId = q

/-- The position of the heap is used for no other file. -/
structure Only (e : Engine σ) (ref : Nat) (f : FileId) : Prop where
  lt : ref < e.heap.length
  file : ∀ g, e.managers.get? g = some ref → g = f

/-- The request a header belongs to is outstanding. -/
def Active (e : Engine σ) (q : PeerId) (h : PieceChunkHeaderMessage) : Prop :=
  ∃ r, e.outstandingRequests.get? h.requestId = some r ∧ r.peerId = q ∧ r.fileId = h.fileId ∧
    r.pieceIndex = h.pieceIndex

/-- The peer has been asked for the piece. -/
def AskedOf (e : Engine σ) (q : PeerId) (f : FileId) (i : Nat) : Prop :=
  ∃ x r, e.outstandingRequests.get? x = some r ∧ r.peerId = q ∧ r.fileId = f ∧ r.pieceIndex = i

/-- Ids, headers and managers are in order. -/
structure Tidy (e : Engine σ) : Prop where
  issued : ∀ x r, e.outstandingRequests.get? x = some r → x ∈ e.issued
  headers : ∀ p h, e.pendingChunks.get? p = some h → e.Held p h.requestId
  managers : ∀ f ref, e.managers.get? f = some ref → e.Only ref f

end Engine

section

variable {σ : Type} [StorageAdapter σ] {t : Turn} {G : Grant} {e e' : Engine σ}

theorem Change.issued_prefix (hc : Change t G e e') : e.issued <+: e'.issued := by
  cases hc with
  | ask => exact List.prefix_append _ _
  | register m hg =>
    unfold Engine.registerManifest
    simp only
    split <;> exact List.prefix_refl _
  | _ => exact List.prefix_refl _

theorem Changes.issued_prefix (hc : Changes t G e e') : e.issued <+: e'.issued := by
  induction hc with
  | refl => exact List.prefix_refl _
  | tail _ hlast ih => exact ih.trans hlast.issued_prefix

/-- While no id is handed out twice, what every change keeps is kept. -/
theorem Changes.keeps_fresh {P : Engine σ → Prop}
    (hstep : ∀ e e', Change t G e e' → e'.issued.Nodup → P e → P e') (hc : Changes t G e e')
    (hn : e'.issued.Nodup) (h : P e) : P e' := by
  induction hc with
  | refl => exact h
  | tail _ hlast ih =>
    exact hstep _ _ hlast hn (ih (hn.sublist hlast.issued_prefix.sublist))

/-- A request that is outstanding was so before, or its id is new. -/
theorem Change.outstanding (hc : Change t G e e') (hn : e'.issued.Nodup) {x : RequestId}
    {r : OutstandingRequest} (hr : e'.outstandingRequests.get? x = some r) :
    e.outstandingRequests.get? x = some r ∨ (x ∉ e.issued ∧ x ∈ e'.issued) := by
  cases hc with
  | ask ref m p asked q hm hmissing hcurrent hid hg =>
    by_cases hx : x = asked
    · subst hx
      have hfresh := (List.nodup_append.1 hn).2.2
      exact .inr ⟨fun hmem => hfresh x hmem x (by simp) rfl, by simp⟩
    · exact .inl ((OrderedMap.get?_set_of_ne _ _ hx).symm.trans hr)
  | drop dropped hg hrestored => exact .inl (OrderedMap.get?_delete_eq_some.1 hr).2
  | register m hg =>
    unfold Engine.registerManifest at hr
    simp only at hr
    split at hr <;> exact .inl hr
  | dispose hg => exact absurd hr (by simp)
  | _ => exact .inl hr

theorem Change.held {q : PeerId} {x : RequestId} (hc : Change t G e e') (hn : e'.issued.Nodup)
    (h : e.Held q x) : e'.Held q x := by
  refine ⟨hc.issued_prefix.subset h.issued, fun r hr => ?_⟩
  obtain hold | ⟨hnew, -⟩ := hc.outstanding hn hr
  · exact h.peer r hold
  · exact absurd h.issued hnew

theorem Change.inactive {q : PeerId} {h : PieceChunkHeaderMessage} (hc : Change t G e e')
    (hn : e'.issued.Nodup) (hid : h.requestId ∈ e.issued) (ha : ¬ e.Active q h) :
    ¬ e'.Active q h := by
  rintro ⟨r, hr, hmatch⟩
  obtain hold | ⟨hnew, -⟩ := hc.outstanding hn hr
  · exact ha ⟨r, hold, hmatch⟩
  · exact hnew hid

omit [StorageAdapter σ] in
theorem Engine.Only.install {f g : FileId} {ref : Nat} {m : PieceManager} (h : e.Only ref f) :
    (e.installManager g m).Only ref f := by
  refine ⟨?_, fun g' hg' => ?_⟩
  · have hlt := h.lt
    simp only [installManager, List.length_append]
    omega
  · simp only [installManager, OrderedMap.get?_set] at hg'
    split at hg'
    · have hlt := h.lt
      cases hg'
      omega
    · exact h.file g' hg'

theorem Change.only {ref : Nat} {f : FileId} (hc : Change t G e e') (h : e.Only ref f) :
    e'.Only ref f := by
  have hput : ∀ r m, (e.putManager r m).Only ref f :=
    fun r m => ⟨by simpa [Engine.putManager] using h.lt, h.file⟩
  cases hc with
  | fail r i reason m hm => exact hput r m
  | reset r i m hm => exact hput r m
  | verify r i m hm => exact hput r m
  | ask r m => exact ⟨(hput r m).lt, h.file⟩
  | register m hg =>
    unfold Engine.registerManifest
    simp only
    split
    · exact ⟨h.lt, h.file⟩
    · have hinstall := h.install (g := m.fileId) (m := .new m.fileId m.pieces)
      exact ⟨hinstall.lt, hinstall.file⟩
  | install g m hg => exact h.install
  | _ => exact ⟨h.lt, h.file⟩

/-- Every manager in use belongs to one file only. -/
theorem Change.apart (hc : Change t G e e')
    (h : ∀ f ref, e.managers.get? f = some ref → e.Only ref f) :
    ∀ f ref, e'.managers.get? f = some ref → e'.Only ref f := by
  have hnew : ∀ g : FileId, ∀ m : PieceManager, ∀ f ref,
      (e.installManager g m).managers.get? f = some ref → (e.installManager g m).Only ref f := by
    intro g m f ref hf
    simp only [Engine.installManager, OrderedMap.get?_set] at hf
    by_cases hfg : f = g
    · subst hfg
      simp only [if_true, Option.some.injEq] at hf
      subst hf
      refine ⟨by simp [Engine.installManager], fun g' hg' => ?_⟩
      simp only [Engine.installManager, OrderedMap.get?_set] at hg'
      split at hg'
      · assumption
      · have hlt := (h g' _ hg').lt
        omega
    · simp only [hfg, if_false] at hf
      exact (h f ref hf).install
  intro f ref hf
  have honly : e.Only ref f → e'.Only ref f := hc.only
  cases hc with
  | register m hg =>
    unfold Engine.registerManifest at hf honly ⊢
    simp only at hf honly ⊢
    split at hf <;> rename_i hmanager
    · simp only [hmanager] at honly ⊢
      exact honly (h f ref hf)
    · simp only [hmanager] at honly ⊢
      have hmade := hnew m.fileId (.new m.fileId m.pieces) f ref hf
      exact ⟨hmade.lt, hmade.file⟩
  | install g m hg => exact hnew g m f ref hf
  | _ => exact honly (h f ref hf)

theorem Change.tidy (hc : Change t G e e') (hn : e'.issued.Nodup)
    (hheader : ∀ p h, G (.header p h) → e.Held p h.requestId) (h : e.Tidy) : e'.Tidy := by
  refine ⟨fun x r hr => ?_, fun p header hp => ?_, hc.apart h.managers⟩
  · obtain hold | ⟨-, hnew⟩ := hc.outstanding hn hr
    · exact hc.issued_prefix.subset (h.issued x r hold)
    · exact hnew
  · refine hc.held hn ?_
    cases hc with
    | headers pending hnew hlost =>
      obtain hold | hg := hnew p header hp
      · exact h.headers p header hold
      · exact hheader p header hg
    | register m hg =>
      unfold Engine.registerManifest at hp
      simp only at hp
      split at hp <;> exact h.headers p header hp
    | _ => exact h.headers p header hp

end

/-- The receipt is of a piece in `A` that the peer was asked for. -/
structure Receipt.Ours {σ : Type} (e : Engine σ) (q : PeerId) (A : FileId → Nat → Prop)
    (r : Receipt) : Prop where
  piece : A r.fileId r.pieceIndex
  manager : e.Only r.manager r.fileId
  request : e.Held q r.requestId

/-- The continuations of a message of the peer are about pieces in `A`, or belong to the
request in place of a refused one. -/
def Frame.Ours {σ : Type} (e : Engine σ) (q : PeerId) (A : FileId → Nat → Prop) : Frame → Prop
  | .chunkAppended p h => p = q ∧ e.Held q h.requestId ∧
      (A h.fileId h.pieceIndex ∨ ¬ e.Active q h)
  | .pieceChecked r => r.Ours e q A
  | .pieceDeleted r _ => r.Ours e q A
  | .mismatchPersisted r _ => r.Ours e q A
  | .pieceWritten r _ => r.Ours e q A
  | .piecePersisted r _ => r.Ours e q A
  | .mapAnnounced r => A r.fileId r.pieceIndex
  | .pieceReceived _ h _ => A h.fileId h.pieceIndex ∧ e.Held q h.requestId
  | .responseSent result _ => A result.fileId (result.pieceIndex.index?.getD 0)
  | .rejectSent _ h manager _ _ => A h.fileId h.pieceIndex ∧
      ∀ ref, manager = some ref → e.Only ref h.fileId
  | .chunkRejected => True
  | .rejectRequested => True
  | .messageHandled => True
  | .requestSent .. => True
  | .requestPersisted .. => True
  | .gridSent _ => True
  | .gridPersisted _ => True
  | .endgameSent _ => True
  | _ => False

/-- What the piece is received with, if anything. -/
def Except.Ours (A : FileId → Nat → Prop) (outcome : Except Failure Value) : Prop :=
  ∀ result, outcome = .ok (.received result) →
    A result.fileId (result.pieceIndex.index?.getD 0)

structure Task.Ours {σ : Type} (e : Engine σ) (q : PeerId) (A : FileId → Nat → Prop)
    (task : Task) : Prop where
  frames : ∀ frame ∈ task.stack, frame.Ours e q A
  value : ∀ outcome, task.pending = .settled outcome → Except.Ours A outcome

section

variable {σ : Type} [StorageAdapter σ] {cfg : Config} {t : Turn} {G : Grant} {e e' : Engine σ}
variable {q : PeerId} {A : FileId → Nat → Prop}

/-- What belongs to the handling of a message stays so. -/
theorem Frame.Ours.changes {frame : Frame} (hc : Changes t G e e') (hn : e'.issued.Nodup)
    (h : frame.Ours e q A) : frame.Ours e' q A := by
  have hheld : ∀ x, e.Held q x → e'.Held q x :=
    fun x => Changes.keeps_fresh (fun _ _ hc hn => hc.held hn) hc hn
  have honly : ∀ ref f, e.Only ref f → e'.Only ref f :=
    fun ref f => Changes.keeps (fun _ _ hc => hc.only) hc
  have hreceipt : ∀ r : Receipt, r.Ours e q A → r.Ours e' q A :=
    fun r hr => ⟨hr.piece, honly _ _ hr.manager, hheld _ hr.request⟩
  cases frame with
  | chunkAppended p header =>
    obtain ⟨hp, hid, hactive⟩ := h
    refine ⟨hp, hheld _ hid, hactive.imp_right fun ha => ?_⟩
    have hkept : header.requestId ∈ e'.issued ∧ ¬ e'.Active q header :=
      Changes.keeps_fresh (P := fun e => header.requestId ∈ e.issued ∧ ¬ e.Active q header)
        (fun _ _ hc hn hx => ⟨hc.issued_prefix.subset hx.1, hc.inactive hn hx.1 hx.2⟩) hc hn
        ⟨hid.issued, ha⟩
    exact hkept.2
  | pieceChecked r => exact hreceipt r h
  | pieceDeleted r _ => exact hreceipt r h
  | mismatchPersisted r _ => exact hreceipt r h
  | pieceWritten r _ => exact hreceipt r h
  | piecePersisted r _ => exact hreceipt r h
  | pieceReceived p header _ => exact ⟨h.1, hheld _ h.2⟩
  | rejectSent p header manager _ _ => exact ⟨h.1, fun ref href => honly ref _ (h.2 ref href)⟩
  | _ => exact h

theorem Task.Ours.changes {task : Task} (hc : Changes t G e e') (hn : e'.issued.Nodup)
    (h : task.Ours e q A) : task.Ours e' q A :=
  ⟨fun frame hframe => (h.frames frame hframe).changes hc hn, h.value⟩

/-- How a stretch ends: with the outcome of what it awaits, or with its own. -/
def Next.outcome? : Next → Option (Except Failure Value)
  | .await (.settled outcome) _ => some outcome
  | .await (.windows _) _ => none
  | .done outcome => some outcome

def Next.Ours (A : FileId → Nat → Prop) (next : Next) : Prop :=
  ∀ outcome, next.outcome? = some outcome → Except.Ours A outcome

omit [StorageAdapter σ] in
@[simp] theorem Next.outcome?_andThen (next : Next) (frame : Frame) :
    (next.andThen frame).outcome? = next.outcome? := by
  cases next with
  | done outcome => rfl
  | await pending frames => cases pending <;> rfl

omit [StorageAdapter σ] in
theorem Next.mem_frames_andThen {next : Next} {frame fr : Frame}
    (h : fr ∈ (next.andThen frame).frames) : fr ∈ next.frames ∨ fr = frame := by
  cases next with
  | done outcome => exact .inr (List.mem_singleton.1 h)
  | await pending frames => simpa [Next.andThen, Next.frames] using h

theorem Next.Ours.andThen {next : Next} (h : next.Ours A) (frame : Frame) :
    (next.andThen frame).Ours A := by
  intro outcome ho
  exact h outcome (by simpa using ho)

namespace Engine

/-- The pieces and the requests that the handling of a message may touch. -/
def Reach (e : Engine σ) (A : FileId → Nat → Prop) (ref i : Nat) : Prop :=
  ∃ f, A f i ∧ e.Only ref f

/-- The rivals of a piece that has been verified and persisted. -/
def Settles (e : Engine σ) (frame : Frame) (outcome : Except Failure Value) (x : RequestId) :
    Prop :=
  ∃ r outstanding v, frame = .piecePersisted r outstanding ∧ outcome = .ok v ∧ e.Rival r x

end Engine

/-- A continuation of the request made in place of a refused one. -/
def Frame.Replaces : Frame → Prop
  | .requestSent .. => True
  | .requestPersisted .. => True
  | .gridSent _ => True
  | .gridPersisted _ => True
  | .endgameSent _ => True
  | _ => False

namespace Engine

omit [StorageAdapter σ] in
theorem Grant.again_frame {p : PeerId} {f : FileId} {options : Option GridScheduleOptions}
    {next : Frame} (h : Grant.again e t p f options (.frame next)) : next.Replaces := by
  cases options with
  | none =>
    obtain ⟨ref, scheduled, rfl⟩ := h
    trivial
  | some options => obtain ⟨result, rfl⟩ | ⟨result, rfl⟩ := h <;> trivial

end Engine

end

end PonsWarp.Core
