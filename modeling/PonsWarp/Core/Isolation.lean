import PonsWarp.Core.Handling
import PonsWarp.Core.ReceiveFailures

set_option autoImplicit false

/-!
Peers apart from each other. What follows from a message of one peer leaves the requests
at the other peers alone, and the pieces the peer was not asked for, up to the request
that the engine makes in place of a refused one.
-/

namespace PonsWarp.Core

open PonsWarp.Data

namespace Engine

variable {σ : Type}

/-- The requests at other peers than `q` stay as they are, apart from `rival` ones, and so
do the pieces outside `A`. -/
structure Isolated (q : PeerId) (A : FileId → Nat → Prop) (rival : RequestId → Prop)
    (e e' : Engine σ) : Prop where
  requests : ∀ x r, e.outstandingRequests.get? x = some r → r.peerId ≠ q → ¬ rival x →
    e'.outstandingRequests.get? x = some r ∧
      e'.incomingChunks.get? x = e.incomingChunks.get? x ∧
      ∀ f i, e.isExactActiveRequest r.peerId f i x = true →
        e'.isExactActiveRequest r.peerId f i x = true
  pieces : ∀ f i, ¬ A f i → e'.status? f i = e.status? f i

/-- Isolated, up to a request in place of a refused one. -/
def Isolates [StorageAdapter σ] (cfg : Config) (t : Turn) (q : PeerId) (A : FileId → Nat → Prop)
    (rival : RequestId → Prop) (e e' : Engine σ) : Prop :=
  ∃ e1, e.Isolated q A rival e1 ∧
    (e' = e1 ∨ ∃ p f options, e' = (e1.requestAgain cfg t p f options).1)

variable {e e' : Engine σ} {q : PeerId} {A : FileId → Nat → Prop} {rival : RequestId → Prop}
variable {S : Nat → Nat → Prop} {X : RequestId → Prop} {cfg : Config} {t : Turn}

theorem Touches.isolated (h : Touches S X e e')
    (hX : ∀ x r, e.outstandingRequests.get? x = some r → X x → r.peerId = q ∨ rival x)
    (hS : ∀ f i ref, e.managers.get? f = some ref → S ref i → A f i) :
    e.Isolated q A rival e' := by
  constructor
  · intro x r hr hp hrival
    have hx : ¬ X x := fun hx => (hX x r hr hx).elim hp hrival
    refine ⟨(h.outstanding x hx).trans hr, h.chunks x hx, fun f i hactive => ?_⟩
    unfold isExactActiveRequest at hactive ⊢
    simp only [h.outstanding x hx, h.tombstones x hx]
    exact hactive
  · intro f i hA
    unfold status?
    rw [h.managers]
    cases href : e.managers.get? f with
    | none => rfl
    | some ref => exact h.pieces ref i fun hs => hA (hS f i ref href hs)

/-- A reachable position of the heap belongs to a file with a piece in `A`. -/
theorem Reach.piece {f : FileId} {ref i : Nat} (h : e.Reach A ref i)
    (href : e.managers.get? f = some ref) : A f i := by
  obtain ⟨g, hA, honly⟩ := h
  obtain rfl := honly.file f href
  exact hA

/-- Asked of the peer, and in a position that is used for no other file. -/
theorem Tidy.held (he : e.Tidy) {x : RequestId} {r : OutstandingRequest}
    (hr : e.outstandingRequests.get? x = some r) : e.Held r.peerId x := by
  refine ⟨he.issued x r hr, fun r' hr' => ?_⟩
  obtain rfl : r = r' := by simpa [hr] using hr'
  rfl

theorem Active.asked {h : PieceChunkHeaderMessage} (ha : e.Active q h) :
    e.AskedOf q h.fileId h.pieceIndex := by
  obtain ⟨r, hr, hp, hf, hi⟩ := ha
  exact ⟨h.requestId, r, hr, hp, hf, hi⟩

variable [StorageAdapter σ]

theorem Isolates.refl : Isolates cfg t q A rival e e :=
  ⟨e, (Touches.refl (fun _ _ => False) (fun _ => False) e).isolated (by simp) (by simp), .inl rfl⟩

end Engine

theorem Grant.again_header {σ : Type} {e : Engine σ} {t : Turn} {p q : PeerId} {f : FileId}
    {options : Option GridScheduleOptions} {h : PieceChunkHeaderMessage} :
    ¬ Grant.again e t p f options (.header q h) := by
  cases options <;> exact id

/-- No continuation takes in a header. -/
theorem Frame.grant_header {σ : Type} {e : Engine σ} {t : Turn} {frame : Frame}
    {outcome : Except Failure Value} {p : PeerId} {h : PieceChunkHeaderMessage} :
    ¬ frame.grant e t outcome (.header p h) := by
  intro hg
  unfold Frame.grant at hg
  split at hg
  all_goals first
    | exact (show False from hg).elim
    | (simp [Grant.only, Grant.filling, Grant.joined, Grant.request, Grant.joining,
        Grant.creating, Grant.grid, Grant.retire, Grant.lose, Grant.announce] at hg; done)
    | skip
  case _ q header manager outstanding finalized =>
    obtain hagain | hframe := hg
    · exact Grant.again_header hagain
    · cases hframe

/-- A header is taken in from a message of its sender, and for a request that is outstanding
there. -/
theorem World.grant_header_message {σ : Type} [StorageAdapter σ] {w : World σ} {t : Turn}
    {a : Action} {p : PeerId} {h : PieceChunkHeaderMessage} (hg : w.grant (t, a) (.header p h)) :
    ∃ m r, a = .message p (some m) ∧ m.type = "PIECE_CHUNK_HEADER" ∧
      m.parseChunkHeader = .ok (some h) ∧
      w.engine.outstandingRequests.get? h.requestId = some r ∧ r.peerId = p ∧
      r.fileId = h.fileId ∧ r.pieceIndex = h.pieceIndex := by
  cases a with
  | call c =>
    cases c <;> simp [grant, Call.grant, Grant.only, Grant.request, Grant.grid, Grant.gridLoop,
      Grant.receive, Grant.restoring, Grant.cancel, Grant.compete, Grant.expiring, Grant.retire,
      Grant.leases, Grant.map, Grant.announce] at hg
  | message q message =>
    obtain hframe | ⟨m, rfl, hm⟩ := hg
    · cases hframe
    · obtain ⟨-, hl⟩ | ⟨-, map, -, hl⟩ |
        ⟨htype, header, hparse, ⟨r, hr, hmatch⟩, -, ⟨-, hl⟩ | ⟨previous, -, -, hl⟩⟩ |
        ⟨-, requestId, f, i, -, -, -, hl⟩ | ⟨-, requestId, -, hl⟩ | ⟨-, requestId, -, r, -, -, hl⟩ := hm
      · cases hl
      · exact hl.elim
      · cases hl
        exact ⟨m, r, rfl, htype, hparse, hr, hmatch⟩
      · exact hl.elim
      · exact hl.elim
      · cases hl
      · obtain hl | hagain := hl
        · exact hl.elim
        · exact absurd hagain Grant.again_header
  | binary q data =>
    obtain hframe | ⟨header, -, -, hreject⟩ := hg
    · cases hframe
    · exact hreject.elim
  | resume i =>
    obtain ⟨pending, frame, below, outcome, -, -, hframe⟩ := hg
    exact absurd hframe Frame.grant_header
  | window ref =>
    obtain ⟨track, hframe⟩ | ⟨window, job, rest, -, -, -, hjob⟩ := hg
    · cases hframe
    · cases job with
      | fill q f windowKey options =>
        obtain hask | hframe := hjob
        · exact hask.elim
        · cases hframe
      | retry requestId request direct => exact hjob.elim
      | expire requestId => exact hjob.elim
  | upload q => exact hg.elim
  | timer k =>
    obtain ⟨requestId, windowKey, -, hretire⟩ := hg
    exact hretire.elim

theorem World.grant_header {σ : Type} [StorageAdapter σ] {w : World σ} {t : Turn} {a : Action}
    {p : PeerId} {h : PieceChunkHeaderMessage} (hg : w.grant (t, a) (.header p h)) :
    ∃ r, w.engine.outstandingRequests.get? h.requestId = some r ∧ r.peerId = p := by
  obtain ⟨m, r, -, -, -, hr, hp, -⟩ := World.grant_header_message hg
  exact ⟨r, hr, hp⟩

namespace World

variable {σ : Type}

/-- The ids that are handed out in the step are new. -/
def Fresh [StorageAdapter σ] (cfg : Config) (w : World σ) (x : Turn × Action) : Prop :=
  (w.step cfg x).engine.issued.Nodup

instance [StorageAdapter σ] (cfg : Config) (w : World σ) (x : Turn × Action) :
    Decidable (w.Fresh cfg x) :=
  inferInstanceAs (Decidable (w.step cfg x).engine.issued.Nodup)

section

variable [StorageAdapter σ] {cfg : Config} {w w' : World σ} {t : Turn} {a : Action}

theorem Stepped.tidy (h : Stepped cfg w t a w') (hn : w'.engine.issued.Nodup)
    (he : w.engine.Tidy) : w'.engine.Tidy := by
  have hheld : ∀ p header, w.grant (t, a) (.header p header) →
      w.engine.Held p header.requestId := by
    intro p header hg
    obtain ⟨r, hr, rfl⟩ := grant_header hg
    exact he.held hr
  -- the headers a step takes in stay in order while its changes go on
  have hkept : w'.engine.Tidy ∧ ∀ p header, w.grant (t, a) (.header p header) →
      w'.engine.Held p header.requestId :=
    Changes.keeps_fresh (P := fun e => e.Tidy ∧ ∀ p header, w.grant (t, a) (.header p header) →
        e.Held p header.requestId)
      (fun _ _ hc hn h => ⟨hc.tidy hn h.2 h.1, fun p x hg => hc.held hn (h.2 p x hg)⟩)
      h.changes hn ⟨he, hheld⟩
  exact hkept.1

variable {n : Nat} {q : PeerId} {A : FileId → Nat → Prop} {m : Option WireMessage}
variable {data : ArrayBuffer}

theorem step_binary (hs : w.engine.subscribed = true) :
    w.step cfg (t, .binary q data) = w.spawn ((w.engine.handleTransportBinary cfg t q data).1,
      (w.engine.handleTransportBinary cfg t q data).2.andThen .messageHandled) := by
  unfold step
  simp only [handleBinary, hs, if_true]

end

end World

namespace Sample

/-- The other random number that an id can have. -/
def redrawn : Turn := { turn with random := "b" }

/-- The only piece is asked of "o", forgotten in a resume, and asked of "p"; then "o" starts
to send it. -/
def askedTwice : World MemoryStorageAdapter :=
  steps (World.step config) start (joined ++
    [(turn, .call (.requestNextPiece "o" "f" none)), (turn, .resume 1), (turn, .resume 1),
     (turn, .call (.resumeFile "f")), (turn, .resume 2),
     (redrawn, .call (.requestNextPiece "p" "f" none)), (turn, .resume 3), (turn, .resume 3),
     chunkHeader])

def lastFrame : Action := .binary "o" [1]

/-- The piece has arrived and been written, and its state saved. -/
def settled : World MemoryStorageAdapter :=
  steps (World.step config) (askedTwice.step config (turn, lastFrame))
    [(turn, .resume 5), (turn, .resume 5), (turn, .resume 5)]

end Sample

end PonsWarp.Core
