import PonsWarp.Core.MessageChanges

set_option autoImplicit false

/-!
What the handling of a message or a frame leaves alone. Each stretch of it touches the
piece and the request that the message is about, and nothing else, up to the request
that is made in place of a refused one.
-/

namespace PonsWarp.Core

open PonsWarp.Data

namespace Engine

variable {σ : Type}

/-- Only pieces in `S` change their status, and only requests in `X` their place in the
tables. -/
structure Touches (S : Nat → Nat → Prop) (X : RequestId → Prop) (e e' : Engine σ) : Prop where
  managers : e'.managers = e.managers
  pieces : ∀ ref i, ¬ S ref i → (e'.managerAt ref).status? i = (e.managerAt ref).status? i
  outstanding : ∀ x, ¬ X x → e'.outstandingRequests.get? x = e.outstandingRequests.get? x
  chunks : ∀ x, ¬ X x → e'.incomingChunks.get? x = e.incomingChunks.get? x
  tombstones : ∀ x, ¬ X x → (x ∈ e'.directTombstones ↔ x ∈ e.directTombstones)

variable {e e' e'' : Engine σ} {S S' : Nat → Nat → Prop} {X X' : RequestId → Prop}
variable {cfg : Config} {t : Turn}

theorem Touches.refl (S : Nat → Nat → Prop) (X : RequestId → Prop) (e : Engine σ) :
    Touches S X e e :=
  ⟨rfl, fun _ _ _ => rfl, fun _ _ => rfl, fun _ _ => rfl, fun _ _ => Iff.rfl⟩

theorem Touches.trans (h : Touches S X e e') (h' : Touches S X e' e'') : Touches S X e e'' where
  managers := h'.managers.trans h.managers
  pieces := fun ref i hi => (h'.pieces ref i hi).trans (h.pieces ref i hi)
  outstanding := fun x hx => (h'.outstanding x hx).trans (h.outstanding x hx)
  chunks := fun x hx => (h'.chunks x hx).trans (h.chunks x hx)
  tombstones := fun x hx => (h'.tombstones x hx).trans (h.tombstones x hx)

/-- The same tables and managers. -/
theorem Touches.same (S : Nat → Nat → Prop) (X : RequestId → Prop) (hheap : e'.heap = e.heap)
    (hmanagers : e'.managers = e.managers)
    (hout : e'.outstandingRequests = e.outstandingRequests)
    (hchunks : e'.incomingChunks = e.incomingChunks)
    (htomb : e'.directTombstones = e.directTombstones) : Touches S X e e' where
  managers := hmanagers
  pieces := fun ref i _ => by simp only [managerAt, hheap]
  outstanding := fun x _ => by rw [hout]
  chunks := fun x _ => by rw [hchunks]
  tombstones := fun x _ => by rw [htomb]

theorem touches_putManager {ref i : Nat} {m : PieceManager}
    (h : ∀ j, j ≠ i → m.status? j = (e.managerAt ref).status? j) (hS : S ref i) :
    Touches S X e (e.putManager ref m) where
  managers := rfl
  pieces := by
    intro ref' j hj
    rw [managerAt_putManager]
    split
    · rename_i heq
      obtain ⟨rfl, -⟩ := heq
      exact h j fun hji => hj (hji ▸ hS)
    · rfl
  outstanding := fun _ _ => rfl
  chunks := fun _ _ => rfl
  tombstones := fun _ _ => Iff.rfl

theorem touches_onManager {ref i : Nat} {method : PieceManager → Except Failure PieceManager}
    (hmethod : ∀ m m' j, method m = .ok m' → j ≠ i → m'.status? j = m.status? j)
    (h : e.onManager ref method = .ok e') (hS : S ref i) : Touches S X e e' := by
  obtain ⟨m, hm, rfl⟩ := onManager_spec h
  exact touches_putManager (fun j hj => hmethod _ m j hm hj) hS

theorem touches_markFailed {ref i : Nat} {reason : String} (h : e.markFailed ref i reason = .ok e')
    (hS : S ref i) : Touches S X e e' := by
  refine touches_onManager (fun m m' j hm hj => ?_) h hS
  rw [PieceManager.status?_markFailed hm, if_neg hj]

theorem touches_markFailedIfKnown {f : FileId} {i : Nat} {reason : String}
    (h : e.markFailedIfKnown f i reason = .ok e')
    (hS : ∀ ref, e.managers.get? f = some ref → S ref i) : Touches S X e e' := by
  unfold markFailedIfKnown at h
  split at h
  · rename_i ref href
    exact touches_markFailed h (hS ref href)
  · cases h
    exact .refl S X e

/-- A request leaves the tables. -/
theorem touches_delete (requestId : RequestId) (hX : X requestId) :
    Touches S X e { e with outstandingRequests := e.outstandingRequests.delete requestId } where
  managers := rfl
  pieces := fun _ _ _ => rfl
  outstanding := fun _ hx => OrderedMap.get?_delete_of_ne _ fun h => hx (h ▸ hX)
  chunks := fun _ _ => rfl
  tombstones := fun _ _ => Iff.rfl

theorem touches_deleteChunks (requestId : RequestId) (hX : X requestId) :
    Touches S X e { e with incomingChunks := e.incomingChunks.delete requestId } where
  managers := rfl
  pieces := fun _ _ _ => rfl
  outstanding := fun _ _ => rfl
  chunks := fun _ hx => OrderedMap.get?_delete_of_ne _ fun h => hx (h ▸ hX)
  tombstones := fun _ _ => Iff.rfl

theorem touches_setChunks (requestId : RequestId) (a : IncomingChunkAssembly) (hX : X requestId) :
    Touches S X e { e with incomingChunks := e.incomingChunks.set requestId a } where
  managers := rfl
  pieces := fun _ _ _ => rfl
  outstanding := fun _ _ => rfl
  chunks := fun _ hx => OrderedMap.get?_set_of_ne _ _ fun h => hx (h ▸ hX)
  tombstones := fun _ _ => Iff.rfl

theorem touches_enqueueWindow (key : String) (job : WindowJob) :
    Touches S X e (e.enqueueWindow key job) := by
  unfold enqueueWindow
  split
  · split
    · exact .refl S X e
    · exact .same S X rfl rfl rfl rfl rfl
  · exact .refl S X e

/-- Whatever else it does, a stretch that takes one request out of the tables spares the others. -/
theorem touches_retired {requestId : RequestId} (hX : X requestId) (hheap : e'.heap = e.heap)
    (hmanagers : e'.managers = e.managers)
    (hout : e'.outstandingRequests = e.outstandingRequests.delete requestId)
    (hchunks : e'.incomingChunks = e.incomingChunks.delete requestId)
    (htomb : e'.directTombstones = e.directTombstones) : Touches S X e e' :=
  (touches_delete requestId hX).trans ((touches_deleteChunks requestId hX).trans
    (.same S X hheap hmanagers hout hchunks htomb))

theorem touches_finalizeDirectRequest (requestId : RequestId) (status : DirectTerminalReason)
    (hX : X requestId) : Touches S X e (e.finalizeDirectRequest cfg t requestId status).1 := by
  unfold finalizeDirectRequest
  split
  · exact .refl S X e
  · split
    · exact .refl S X e
    · simp only
      split
      · split
        · exact touches_retired hX rfl rfl rfl rfl rfl
        · refine Touches.trans ?_ (touches_enqueueWindow _ _)
          exact touches_retired hX rfl rfl rfl rfl rfl
      · split
        · split
          · split <;> exact touches_retired hX rfl rfl rfl rfl rfl
          · exact touches_retired hX rfl rfl rfl rfl rfl
        · exact touches_retired hX rfl rfl rfl rfl rfl

theorem touches_finalizeOrDelete (requestId : RequestId) (status : DirectTerminalReason)
    (hX : X requestId) : Touches S X e (e.finalizeOrDelete cfg t requestId status) := by
  have hfinal : Touches S X e (e.finalizeDirectRequest cfg t requestId status).1 :=
    touches_finalizeDirectRequest requestId status hX
  unfold finalizeOrDelete
  simp only
  split
  · exact hfinal
  · exact hfinal.trans (touches_delete requestId hX)

theorem touches_send (p : PeerId) (m : TransferMessage) : Touches S X e (e.send t p m).1 := by
  unfold send
  split
  · exact .same S X rfl rfl rfl rfl rfl
  · exact .refl S X e

variable [StorageAdapter σ]

/-- A stretch that spares what it is not about may end with the request that the engine
makes in place of a refused one. -/
def Handles (cfg : Config) (t : Turn) (S : Nat → Nat → Prop) (X : RequestId → Prop)
    (e e' : Engine σ) : Prop :=
  ∃ e1, Touches S X e e1 ∧
    (e' = e1 ∨ ∃ p f options, e' = (e1.requestAgain cfg t p f options).1)

omit [StorageAdapter σ] in
theorem Handles.after (h : Touches S X e e') (h' : Handles cfg t S X e' e'') :
    Handles cfg t S X e e'' := by
  obtain ⟨e1, h1, hthen⟩ := h'
  exact ⟨e1, h.trans h1, hthen⟩

omit [StorageAdapter σ] in
theorem touches_rejectIncomingChunk (p : PeerId) (h : PieceChunkHeaderMessage)
    (hS : ∀ ref, e.managers.get? h.fileId = some ref → S ref h.pieceIndex)
    (hX : X h.requestId) : Touches S X e (e.rejectIncomingChunk cfg t p h).1 := by
  have hchunks : Touches S X e (({ e with
      incomingChunks := e.incomingChunks.delete h.requestId } : Engine σ).release h.fileId
      h.pieceIndex h.requestId) :=
    (touches_deleteChunks h.requestId hX).trans (.same S X rfl rfl rfl rfl rfl)
  unfold rejectIncomingChunk
  simp only
  split
  · exact hchunks
  · rename_i e1 he1
    have hfailed := hchunks.trans (touches_markFailedIfKnown he1 hS)
    have hgone : Touches S X e1 (e1.finalizeOrDelete cfg t h.requestId .invalid_chunk) :=
      touches_finalizeOrDelete _ _ hX
    refine Touches.trans ?_ (touches_send p _)
    refine Touches.trans (hfailed.trans hgone) ?_
    exact .same S X rfl rfl rfl rfl rfl

omit [StorageAdapter σ] in
theorem touches_appendIncomingChunk (p : PeerId) (h : PieceChunkHeaderMessage)
    (data : ArrayBuffer) (hX : X h.requestId)
    (hS : e.refusesChunk p h data = true →
      ∀ ref, e.managers.get? h.fileId = some ref → S ref h.pieceIndex) :
    Touches S X e (e.appendIncomingChunk cfg t p h data).1 := by
  have hreject : e.refusesChunk p h data = true → ∀ e1 : Engine σ, Touches S X e e1 →
      Touches S X e (e1.rejectIncomingChunk cfg t p h).1 := by
    intro hr e1 h1
    exact h1.trans (touches_rejectIncomingChunk p h (h1.managers ▸ hS hr) hX)
  have hset : ∀ a, Touches S X e
      { e with incomingChunks := e.incomingChunks.set h.requestId a } :=
    fun a => touches_setChunks _ a hX
  unfold appendIncomingChunk
  unfold refusesChunk at hreject
  simp only
  split
  · rename_i totalChunks chunkIndex htotal hindex
    simp only [htotal, hindex] at hreject
    split
    · rename_i hbad
      exact hreject (if_pos hbad) e (.refl S X e)
    · rename_i hgood
      rw [if_neg hgood] at hreject
      split
      · exact .refl S X e
      · rename_i hlength
        rw [if_neg hlength] at hreject
        split
        · rename_i hclash
          exact hreject (if_pos hclash) _ (hset _)
        · rename_i hfits
          rw [if_neg hfits] at hreject
          split
          · exact (hset _).trans (touches_setChunks _ _ hX)
          · rename_i hall
            rw [if_neg hall] at hreject
            have htaken := (hset ((e.incomingChunks.get? h.requestId).getD
              ⟨p, h, List.replicate totalChunks none, 0, 0⟩)).trans
                (touches_deleteChunks h.requestId hX)
            split
            · exact htaken
            · rename_i hnone
              exact hreject (by rw [hnone]; rfl) _ htaken
  · rename_i hbad
    refine hreject ?_ e (.refl S X e)
    split
    · rename_i a b ha hb
      exact absurd hb (hbad a b ha)
    · rfl

end Engine

end PonsWarp.Core
