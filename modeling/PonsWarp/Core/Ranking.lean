import PonsWarp.Core.Machine

set_option autoImplicit false

/-!
What `requestNextGridPiece` knows of the missing pieces when it chooses one:
their providers, best first, and the order in which they are tried.
-/

namespace PonsWarp.Core

open PonsWarp.Data

namespace Engine

variable {σ : Type}

/-- The entry of one piece in the ranking. -/
def rankPiece (e : Engine σ) (fileId : FileId) (candidates : List PeerId) (ownerPeerId : PeerId)
    (maxRequestsPerPeer : Number) (active : PeerId → Nat) (now : Number) (piece : PieceState) :
    RankedPiece :=
  let allProviders := e.availability.getProviders fileId piece.index now
  let nonOwner := (allProviders.filter fun p => p.peerId ≠ ownerPeerId).length
  ⟨piece.index, piece.retryCount,
    (e.rankProviders fileId piece.index candidates ownerPeerId maxRequestsPerPeer active now).1,
    if 0 < nonOwner then nonOwner else allProviders.length⟩

variable {e e' : Engine σ} {fileId : FileId} {m : PieceManager} {candidates : List PeerId}
variable {ownerPeerId : PeerId} {cap : Number} {active : PeerId → Nat} {now : Number}

/-- Ranking changes the known peers only, and ranks each missing piece as its manager
has it. -/
theorem rankPieces_spec {missing : List Nat} {ranked : List RankedPiece}
    (h : rankPieces fileId m candidates ownerPeerId cap active now missing e = (e', .ok ranked)) :
    (∃ known, e' = { e with knownPeers := known }) ∧
    ∃ pieces, List.Forall₂ (fun i s => m.requirePiece i = .ok s) missing pieces ∧
      ranked = pieces.map (e.rankPiece fileId candidates ownerPeerId cap active now) := by
  induction missing generalizing e ranked with
  | nil =>
    simp only [rankPieces, Prod.mk.injEq, Except.ok.injEq] at h
    obtain ⟨rfl, rfl⟩ := h
    exact ⟨⟨e.knownPeers, rfl⟩, [], .nil, rfl⟩
  | cons i rest ih =>
    unfold rankPieces at h
    cases hs : m.getPieceState i with
    | error err => simp [hs] at h
    | ok s =>
      have hindex : s.index = i := (PieceManager.requirePiece_eq_ok.1 hs).2
      simp only [hs] at h
      split at h
      · simp at h
      · rename_i e1 more he1
        simp only [Prod.mk.injEq, Except.ok.injEq] at h
        obtain ⟨rfl, rfl⟩ := h
        obtain ⟨⟨known, rfl⟩, pieces, hpieces, rfl⟩ := ih he1
        refine ⟨⟨known, rfl⟩, s :: pieces, .cons hs hpieces, ?_⟩
        subst hindex
        rfl

/-- An error of the ranking is that of a missing piece the manager does not know. -/
theorem rankPieces_error {missing : List Nat} {err : Failure}
    (h : rankPieces fileId m candidates ownerPeerId cap active now missing e = (e', .error err)) :
    ∃ i ∈ missing, m.requirePiece i = .error err := by
  induction missing generalizing e with
  | nil => simp [rankPieces] at h
  | cons i rest ih =>
    unfold rankPieces at h
    cases hs : m.getPieceState i with
    | error err' =>
      simp only [hs, Prod.mk.injEq, Except.error.injEq] at h
      exact ⟨i, List.mem_cons_self, h.2 ▸ hs⟩
    | ok s =>
      simp only [hs] at h
      split at h
      · rename_i e1 err' he1
        simp only [Prod.mk.injEq, Except.error.injEq] at h
        obtain ⟨rfl, rfl⟩ := h
        obtain ⟨j, hj, herr⟩ := ih he1
        exact ⟨j, List.mem_cons_of_mem _ hj, herr⟩
      · simp at h

theorem mem_rankPieces_spec {missing : List Nat} {ranked : List RankedPiece}
    (h : rankPieces fileId m candidates ownerPeerId cap active now missing e = (e', .ok ranked))
    (item : RankedPiece) : item ∈ ranked ↔ ∃ i ∈ missing, ∃ s, m.requirePiece i = .ok s ∧
      item = e.rankPiece fileId candidates ownerPeerId cap active now s := by
  obtain ⟨-, pieces, hpieces, rfl⟩ := rankPieces_spec h
  clear h
  induction hpieces with
  | nil => simp
  | cons hs _ ih =>
    rename_i i s rest more _
    simp only [List.map_cons, List.mem_cons, ih]
    constructor
    · rintro (rfl | ⟨j, hj, s', hs', rfl⟩)
      · exact ⟨i, .inl rfl, s, hs, rfl⟩
      · exact ⟨j, .inr hj, s', hs', rfl⟩
    · rintro ⟨j, rfl | hj, s', hs', rfl⟩
      · rw [hs] at hs'
        cases hs'
        exact .inl rfl
      · exact .inr ⟨j, hj, s', hs', rfl⟩

end Engine

end PonsWarp.Core
