import PonsWarp.Core.Change

set_option autoImplicit false

/-!
The methods that await nothing, as sequences of changes.
-/

namespace PonsWarp.Core

open PonsWarp.Data

namespace PieceManager

theorem markFailed_lt {m m' : PieceManager} {i : Nat} {reason : String}
    (h : m.markFailed i reason = .ok m') : i < m.states.length := by
  unfold markFailed at h
  obtain ⟨s, hs, -⟩ := update_spec (by intro _; rfl) h
  exact (List.getElem?_eq_some_iff.1 (requirePiece_eq_ok.1 hs).1).1

/-- An update that puts a piece in a status that is asked for again, or leaves it alone,
takes no piece off the missing ones. -/
theorem getMissingPieces_update {m m' : PieceManager} {i : Nat} {patch : PieceState → PieceState}
    (hkeep : ∀ s, (patch s).index = s.index)
    (hst : ∀ s, (s.status = .missing ∨ s.status = .failed) →
      ((patch s).status = .missing ∨ (patch s).status = .failed))
    (h : m.update i patch = .ok m') {j : Nat} (hj : j ∈ m.getMissingPieces) :
    j ∈ m'.getMissingPieces := by
  unfold update at h
  cases hr : m.requirePiece i with
  | error e => simp [hr] at h
  | ok s =>
    simp only [hr, Except.ok.injEq] at h
    subst h
    obtain ⟨hget, -⟩ := requirePiece_eq_ok.1 hr
    unfold getMissingPieces at hj ⊢
    obtain ⟨x, hx, rfl⟩ := List.mem_map.1 hj
    obtain ⟨hmem, hxst⟩ := List.mem_filter.1 hx
    obtain ⟨k, hk⟩ := List.mem_iff_getElem?.1 hmem
    by_cases hki : k = i
    · subst hki
      obtain rfl : s = x := by simpa [hget] using hk
      refine List.mem_map.2 ⟨patch s, List.mem_filter.2 ⟨?_, ?_⟩, hkeep s⟩
      · have hlt : k < m.states.length := (List.getElem?_eq_some_iff.1 hget).1
        exact List.mem_of_getElem? (i := k) (by simp [hlt])
      · simpa using hst s (by simpa using hxst)
    · refine List.mem_map.2 ⟨x, List.mem_filter.2 ⟨?_, hxst⟩, rfl⟩
      exact List.mem_of_getElem? (i := k)
        (by rw [List.getElem?_set_ne (fun he => hki he.symm)]; exact hk)

theorem getMissingPieces_markFailed {m m' : PieceManager} {i j : Nat} {reason : String}
    (h : m.markFailed i reason = .ok m') (hj : j ∈ m.getMissingPieces) :
    j ∈ m'.getMissingPieces := by
  unfold markFailed at h
  exact getMissingPieces_update (by intro _; rfl) (by intro _ _; exact .inr rfl) h hj

theorem getMissingPieces_resetFailedToMissing {m m' : PieceManager} {i j : Nat}
    (h : m.resetFailedToMissing i = .ok m') (hj : j ∈ m.getMissingPieces) :
    j ∈ m'.getMissingPieces := by
  unfold resetFailedToMissing at h
  refine getMissingPieces_update ?_ ?_ h hj
  · intro s
    split <;> rfl
  · intro s hs
    split
    · exact .inl rfl
    · exact hs

end PieceManager

/-- A request leaves the tables together with its chunks and headers. -/
def Grant.retire (requestId : RequestId) : Grant
  | .drop x => x = requestId
  | .lostHeader _ h => h.requestId = requestId
  | .lostAssembly x => x = requestId
  | _ => False

/-- A request is dropped although its piece may still be waiting for it. -/
def Grant.lose (requestId : RequestId) : Grant
  | .lose x => x = requestId
  | _ => False

def Grant.only (label : Label) : Grant := fun l => l = label

theorem Grant.only_le {G : Grant} {label : Label} : Grant.only label ≤ G ↔ G label := by
  constructor
  · exact fun h => h label rfl
  · rintro h l rfl
    exact h

namespace Engine

variable {σ : Type} {e e' : Engine σ}

theorem managerAt_putManager (e : Engine σ) (ref ref' : Nat) (m : PieceManager) :
    (e.putManager ref m).managerAt ref' =
      if ref' = ref ∧ ref < e.heap.length then m else e.managerAt ref' := by
  simp only [managerAt, putManager]
  by_cases h : ref' = ref
  · subst h
    by_cases hlt : ref' < e.heap.length
    · simp [hlt]
    · simp [hlt]
  · have hne : ref ≠ ref' := fun he => h he.symm
    simp [h, List.getElem?_set_ne hne]

/-- A manager that is not on the heap has no pieces. -/
theorem lt_of_mem_states {ref i : Nat} (h : i < (e.managerAt ref).states.length) :
    ref < e.heap.length := by
  by_contra hge
  have : e.heap[ref]? = none := List.getElem?_eq_none (not_lt.1 hge)
  simp [managerAt, this] at h

/-- What `markFailed` does to the manager it is called on. -/
theorem markFailed_spec {ref i : Nat} {reason : String} (h : e.markFailed ref i reason = .ok e') :
    ∃ m, (e.managerAt ref).markFailed i reason = .ok m ∧ e' = e.putManager ref m ∧
      ref < e.heap.length := by
  unfold markFailed onManager at h
  cases hm : (e.managerAt ref).markFailed i reason with
  | error err => simp [hm] at h
  | ok m =>
    simp only [hm, Except.ok.injEq] at h
    exact ⟨m, rfl, h.symm, lt_of_mem_states (PieceManager.markFailed_lt hm)⟩

theorem resetFailedToMissing_spec {ref i : Nat} (h : e.resetFailedToMissing ref i = .ok e') :
    ∃ m, (e.managerAt ref).resetFailedToMissing i = .ok m ∧ e' = e.putManager ref m := by
  unfold resetFailedToMissing onManager at h
  cases hm : (e.managerAt ref).resetFailedToMissing i with
  | error err => simp [hm] at h
  | ok m =>
    simp only [hm, Except.ok.injEq] at h
    exact ⟨m, rfl, h.symm⟩

/-- A request whose piece has been marked failed is not waiting any more. -/
theorem restored_of_markFailed {ref i : Nat} {reason : String} {requestId : RequestId}
    (h : e.markFailed ref i reason = .ok e') (hh : e.Holds requestId ref i) :
    e'.Restored requestId := by
  obtain ⟨m, hm, rfl, hlt⟩ := markFailed_spec h
  intro r hr
  obtain ⟨hcur, rfl⟩ := hh r hr
  have hst : m.status? r.pieceIndex = some .failed := by
    rw [PieceManager.status?_markFailed hm, if_pos rfl]
  have hcur' : (e.putManager ref m).managers.get? r.fileId = some ref := hcur
  simp [status?, hcur', managerAt_putManager, hlt, hst]

theorem restored_of_none {requestId : RequestId}
    (h : e.outstandingRequests.get? requestId = none) : e.Restored requestId := by
  intro r hr
  rw [h] at hr
  cases hr

variable [StorageAdapter σ] {cfg : Config} {t : Turn} {G : Grant}

theorem changes_say (l : List Effect) (h : G.speaks l) :
    Changes t G e { e with log := e.log ++ l } :=
  .single (.say e l h)

theorem changes_emit (event : EngineEvent) : Changes t G e (e.emit event) :=
  changes_say [.emit event] (by simp [Grant.speaks])

theorem changes_health (health : PeerHealthTable) :
    Changes t G e { e with peerHealth := health } :=
  .single (.minor e health _ _ _ _ _)

theorem changes_knownPeers (known : List PeerId) :
    Changes t G e { e with knownPeers := known } :=
  .single (.minor e _ known _ _ _ _)

theorem changes_markFailed {ref i : Nat} {reason : String}
    (h : e.markFailed ref i reason = .ok e') (hg : e.Backed ref i ∨ G (.fail ref i)) :
    Changes t G e e' := by
  obtain ⟨m, hm, rfl, -⟩ := markFailed_spec h
  exact .single (.fail e ref i reason m hm hg)

theorem changes_markFailedIfKnown {f : FileId} {i : Nat} {reason : String}
    (h : e.markFailedIfKnown f i reason = .ok e')
    (hg : ∀ ref, e.managers.get? f = some ref → e.Backed ref i ∨ G (.fail ref i)) :
    Changes t G e e' := by
  unfold markFailedIfKnown at h
  cases hm : e.managers.get? f with
  | none =>
    simp only [hm, Except.ok.injEq] at h
    exact h ▸ .refl
  | some ref =>
    simp only [hm] at h
    exact changes_markFailed h (hg ref hm)

theorem changes_resetFailedToMissing {ref i : Nat}
    (h : e.resetFailedToMissing ref i = .ok e') : Changes t G e e' := by
  obtain ⟨m, hm, rfl⟩ := resetFailedToMissing_spec h
  exact .single (.reset e ref i m hm)

theorem changes_release (f : FileId) (i : Nat) (requestId : RequestId) :
    Changes t G e (e.release f i requestId) :=
  .single (.table e _ (fun g n hn => .inl (by simpa using hn))
    fun _ _ _ hl => .inl (PieceAvailabilityTable.getLease_release_le hl))

theorem changes_drop (requestId : RequestId) (hg : G (.drop requestId))
    (hr : e.Restored requestId ∨ G (.lose requestId)) :
    Changes t G e { e with outstandingRequests := e.outstandingRequests.delete requestId } :=
  .single (.drop e requestId hg hr)

theorem changes_dropAssembly (requestId : RequestId) (hg : G (.lostAssembly requestId)) :
    Changes t G e { e with incomingChunks := e.incomingChunks.delete requestId } := by
  refine .single (.assemblies e _ ?_ ?_)
  · intro r a ha
    exact .inl (OrderedMap.get?_delete_eq_some.1 ha).2
  · intro r a ha
    by_cases hr : r = requestId
    · exact .inr (hr ▸ hg)
    · exact .inl (OrderedMap.get?_delete_eq_some.2 ⟨hr, ha⟩)

theorem changes_dropPendingHeaders (requestId : RequestId)
    (hg : ∀ p h, h.requestId = requestId → G (.lostHeader p h)) :
    Changes t G e (e.dropPendingHeaders requestId) := by
  refine .single (.headers e _ ?_ ?_)
  · intro p h hh
    rw [OrderedMap.get?_deleteAll] at hh
    split at hh
    · cases hh
    · exact .inl hh
  · intro p h hh
    rw [OrderedMap.get?_deleteAll]
    by_cases hr : h.requestId = requestId
    · exact .inr (hg p h hr)
    · left
      rw [if_neg, hh]
      intro hmem
      obtain ⟨q, hq, rfl⟩ := List.mem_map.1 hmem
      obtain ⟨hq, hqid⟩ := List.mem_filter.1 hq
      have hget : e.pendingChunks.get? q.1 = some q.2 := OrderedMap.mem_entries_iff.1 hq
      rw [hget] at hh
      cases hh
      exact hr (by simpa using hqid)

theorem changes_retireDirectRequest (requestId : RequestId) (hg : Grant.retire requestId ≤ G)
    (hr : e.Restored requestId ∨ G (.lose requestId)) :
    Changes t G e (e.retireDirectRequest requestId) := by
  have hdrop : Changes t G e
      { e with outstandingRequests := e.outstandingRequests.delete requestId } :=
    changes_drop requestId (hg (.drop requestId) rfl) hr
  have htimer := hdrop.tail (.minor _ e.peerHealth e.knownPeers
    (e.directTimers.delete requestId) e.nextDirectGeneration e.armed e.sessionId)
  have hchunks := htimer.trans (changes_dropAssembly requestId (hg (.lostAssembly requestId) rfl))
  exact hchunks.trans (changes_dropPendingHeaders requestId fun p h hh => hg (.lostHeader p h) hh)

theorem changes_enqueueWindow (key : String) (job : WindowJob)
    (hj : ∀ k, job.key? = some k → k = key) : Changes t G e (e.enqueueWindow key job) := by
  unfold enqueueWindow
  cases hw : e.window? key with
  | none => exact .refl
  | some p =>
    obtain ⟨ref, w⟩ := p
    simp only
    split
    · exact .refl
    · rename_i hlive
      exact .single (.enqueue e key ref w job hw (by simpa using fun h => hlive (.inl h)) hj)

omit [StorageAdapter σ] in
theorem window?_spec {key : String} {ref : Nat} {w : DirectWindow}
    (h : e.window? key = some (ref, w)) :
    e.directWindows.get? key = some ref ∧ e.windowHeap[ref]? = some w := by
  unfold window? at h
  cases hk : e.directWindows.get? key with
  | none => simp [hk] at h
  | some ref' =>
    cases hw : e.windowHeap[ref']? with
    | none => simp [hk, hw] at h
    | some w' =>
      simp only [hk, hw, Option.map_some, Option.some.injEq, Prod.mk.injEq] at h
      obtain ⟨rfl, rfl⟩ := h
      exact ⟨rfl, hw⟩

theorem changes_putWindow {ref : Nat} {w : DirectWindow} (hw : e.windowHeap[ref]? = some w)
    (w' : DirectWindow) (hd : w.disabled = true → w'.disabled = true)
    (hq : w'.queue <:+ w.queue) : Changes t G e (e.putWindow ref w') :=
  .single (.window e ref w w' hw hd hq)

theorem changes_emitDirectLifecycleError (phase : LifecyclePhase)
    (request : Option OutstandingRequest) (requestId : RequestId) (error : Failure) :
    Changes t G e (e.emitDirectLifecycleError t phase request requestId error) := by
  unfold emitDirectLifecycleError
  split
  · exact .refl
  · split
    · exact .refl
    · rename_i direct hd
      split
      · exact .refl
      · refine Relation.ReflTransGen.trans ?_ (changes_emit _)
        cases hw : e.window? direct.windowKey with
        | none => exact .refl
        | some p =>
          obtain ⟨ref, w⟩ := p
          exact changes_putWindow (window?_spec hw).2 _ (fun _ => rfl) (List.suffix_refl _)

theorem changes_finalizeDirectRequest (requestId : RequestId) (status : DirectTerminalReason)
    (hg : Grant.retire requestId ≤ G) (hr : e.Restored requestId ∨ G (.lose requestId)) :
    Changes t G e (e.finalizeDirectRequest cfg t requestId status).1 := by
  unfold finalizeDirectRequest
  split
  · exact .refl
  · split
    · exact .refl
    · rename_i request hrequest direct hdirect
      have hretire : ∀ event, Changes t G e ((e.retireDirectRequest requestId).emit event) :=
        fun event => (changes_retireDirectRequest requestId hg hr).trans (changes_emit event)
      simp only
      split
      · split
        · exact hretire _
        · exact (hretire _).trans
            (changes_enqueueWindow _ _ (by intro k hk; exact (Option.some.inj hk).symm))
      · split
        · split
          · rename_i ref w hw
            split
            · exact hretire _
            · have hput := changes_putWindow (t := t) (G := G) (window?_spec hw).2
                { w with exhausted := true } id (List.suffix_refl _)
              exact (hretire _).trans (hput.trans (changes_emit _))
          · exact hretire _
        · exact hretire _

omit [StorageAdapter σ] in
theorem finalizeDirectRequest_direct {requestId : RequestId} {r : OutstandingRequest}
    {direct : DirectRequest} (status : DirectTerminalReason)
    (hr : e.outstandingRequests.get? requestId = some r) (hd : r.direct = some direct) :
    (e.finalizeDirectRequest cfg t requestId status).2 = true := by
  unfold finalizeDirectRequest
  simp only [hr, hd]
  split
  · split <;> rfl
  · split
    · split
      · split <;> rfl
      · rfl
    · rfl

omit [StorageAdapter σ] in
/-- A request that is not a direct one is left alone. -/
theorem finalizeDirectRequest_other {requestId : RequestId} (status : DirectTerminalReason)
    (h : (e.outstandingRequests.get? requestId).bind (·.direct) = none) :
    e.finalizeDirectRequest cfg t requestId status = (e, false) := by
  unfold finalizeDirectRequest
  cases hr : e.outstandingRequests.get? requestId with
  | none => rfl
  | some r =>
    have hd : r.direct = none := by simpa [hr] using h
    simp only [hd]

omit [StorageAdapter σ] in
/-- After `finalizeDirectRequest` reports failure, nothing has happened. -/
theorem finalizeDirectRequest_false {requestId : RequestId} {status : DirectTerminalReason}
    (h : (e.finalizeDirectRequest cfg t requestId status).2 = false) :
    (e.finalizeDirectRequest cfg t requestId status).1 = e := by
  cases hb : (e.outstandingRequests.get? requestId).bind (·.direct) with
  | none => rw [finalizeDirectRequest_other status hb]
  | some direct =>
    obtain ⟨r, hr, hd⟩ := Option.bind_eq_some_iff.1 hb
    rw [finalizeDirectRequest_direct status hr hd] at h
    cases h

theorem changes_finalizeOrDelete (requestId : RequestId) (status : DirectTerminalReason)
    (hg : Grant.retire requestId ≤ G) (hr : e.Restored requestId ∨ G (.lose requestId)) :
    Changes t G e (e.finalizeOrDelete cfg t requestId status) := by
  unfold finalizeOrDelete
  have hfinal : Changes t G e (e.finalizeDirectRequest cfg t requestId status).1 :=
    changes_finalizeDirectRequest requestId status hg hr
  have hfalse : (e.finalizeDirectRequest cfg t requestId status).2 = false →
      (e.finalizeDirectRequest cfg t requestId status).1 = e := finalizeDirectRequest_false
  cases hf : e.finalizeDirectRequest cfg t requestId status with
  | mk e1 finalized =>
    rw [hf] at hfinal hfalse
    cases finalized with
    | true => simpa using hfinal
    | false =>
      obtain rfl : e1 = e := hfalse rfl
      exact changes_drop requestId (hg (.drop requestId) rfl) hr

theorem changes_addDirectTombstone (requestId : RequestId) (hg : G (.tombstone requestId)) :
    Changes t G e (e.addDirectTombstone cfg requestId) := by
  refine .single (.tombstones e _ ?_)
  intro r hr
  obtain h | rfl := mem_insertNew.1 (List.mem_of_mem_drop hr)
  · exact .inl h
  · exact .inr hg

omit [StorageAdapter σ] in
theorem pruneWindows_le (preserve : Option String) (keys : List String)
    (windows : OrderedMap String Nat) {k : String} {r : Nat}
    (h : (e.pruneWindows cfg preserve keys windows).get? k = some r) :
    windows.get? k = some r := by
  induction keys generalizing windows with
  | nil => exact h
  | cons key rest ih =>
    unfold pruneWindows at h
    split at h
    · exact h
    · split at h
      · exact ih _ h
      · exact (OrderedMap.get?_delete_eq_some.1 (ih _ h)).2

theorem changes_prune (preserve : Option String) :
    Changes t G e (e.pruneDirectLifecycleMetadata cfg preserve) :=
  .single (.prune e _ fun _ _ h => pruneWindows_le preserve _ _ h)

omit [StorageAdapter σ] in
theorem backed_of_get {requestId : RequestId} {r : OutstandingRequest} {ref : Nat}
    (h : e.outstandingRequests.get? requestId = some r) (hm : e.managers.get? r.fileId = some ref) :
    e.Backed ref r.pieceIndex :=
  ⟨requestId, r, h, hm, rfl⟩

omit [StorageAdapter σ] in
/-- Marking the piece of an outstanding request failed, where there is a manager,
leaves the request restored. -/
theorem restored_of_markFailedIfKnown {requestId : RequestId} {r : OutstandingRequest}
    {reason : String} (hr : e.outstandingRequests.get? requestId = some r)
    (h : e.markFailedIfKnown r.fileId r.pieceIndex reason = .ok e') : e'.Restored requestId := by
  unfold markFailedIfKnown at h
  cases hm : e.managers.get? r.fileId with
  | none =>
    simp only [hm, Except.ok.injEq] at h
    subst h
    intro r' hr'
    obtain rfl : r = r' := by simpa [hr] using hr'
    simp [status?, hm]
  | some ref =>
    simp only [hm] at h
    refine restored_of_markFailed h fun r' hr' => ?_
    obtain rfl : r = r' := by simpa [hr] using hr'
    exact ⟨hm, rfl⟩

theorem changes_expireDirectRequest {requestId : RequestId} (hg : Grant.retire requestId ≤ G)
    (h : e.expireDirectRequest cfg t requestId = .ok e') : Changes t G e e' := by
  unfold expireDirectRequest at h
  split at h
  · cases h
    exact .refl
  · rename_i request hrequest
    split at h
    · cases h
      exact .refl
    · split at h
      · cases h
      · rename_i e1 he1
        cases h
        have hfail : Changes t G e e1 :=
          changes_markFailedIfKnown he1 fun ref hm => .inl (backed_of_get hrequest hm)
        have hrestored : e1.Restored requestId := restored_of_markFailedIfKnown hrequest he1
        refine Relation.ReflTransGen.trans ?_
          (changes_finalizeDirectRequest requestId _ hg (.inl hrestored))
        refine Relation.ReflTransGen.trans ?_ (changes_emit _)
        exact hfail.trans (changes_health _)

theorem changes_expireDirectRequests (now : Number) (requests : List (RequestId × OutstandingRequest))
    (hg : ∀ p ∈ requests, Grant.retire p.1 ≤ G) :
    Changes t G e (expireDirectRequests cfg t now requests e).1 := by
  induction requests generalizing e with
  | nil => exact .refl
  | cons p rest ih =>
    obtain ⟨requestId, request⟩ := p
    have ih' := fun e' : Engine σ => ih (e := e') fun p hp => hg p (List.mem_cons_of_mem _ hp)
    unfold expireDirectRequests
    split
    · split
      · split
        · exact .refl
        · rename_i e1 he1
          exact (changes_expireDirectRequest (hg _ List.mem_cons_self) he1).trans (ih' e1)
      · exact ih' e
    · exact ih' e

theorem changes_disableWindows (selector : DirectCancelSelector) (windows : List (String × Nat)) :
    Changes t G e (disableWindows selector windows e).1 := by
  induction windows generalizing e with
  | nil => exact .refl
  | cons p rest ih =>
    obtain ⟨key, ref⟩ := p
    unfold disableWindows
    split
    · exact ih
    · rename_i w hw
      split
      · simp only
        have hput : ∀ generation, Changes t G e
            (e.putWindow ref { w with disabled := true, generation := generation }) :=
          fun generation => changes_putWindow hw _ (fun _ => rfl) (List.suffix_refl _)
        unfold allocateDirectGeneration
        split
        · rename_i err he
          exact hput w.generation
        · rename_i generation e1 he
          split at he
          · cases he
            refine Relation.ReflTransGen.trans ?_ ih
            have hlt : ref < e.windowHeap.length := (List.getElem?_eq_some_iff.1 hw).1
            refine ((hput w.generation).tail (.minor _ e.peerHealth e.knownPeers
              e.directTimers (e.nextDirectGeneration + 1) e.armed
              e.sessionId)).tail (.window _ ref { w with disabled := true } _ ?_ (fun _ => rfl)
              (List.suffix_refl _))
            simp [putWindow, hlt]
          · cases he
      · exact ih

/-- The direct requests that a cancellation selects. -/
def selected (selector : DirectCancelSelector) (requests : List (RequestId × OutstandingRequest))
    (requestId : RequestId) : Prop :=
  ∃ q direct, (requestId, q) ∈ requests ∧ q.direct = some direct ∧
    selector.matchesRequest q direct = true

end Engine

/-- A cancellation takes the selected requests out without restoring their pieces. -/
def Grant.cancel (selector : DirectCancelSelector)
    (requests : List (RequestId × OutstandingRequest)) : Grant
  | .drop x => Engine.selected selector requests x
  | .lose x => Engine.selected selector requests x
  | .tombstone x => Engine.selected selector requests x
  | .lostAssembly x => Engine.selected selector requests x
  | .lostHeader _ h => Engine.selected selector requests h.requestId
  | _ => False

namespace Engine

variable {σ : Type} [StorageAdapter σ] {e e' : Engine σ} {cfg : Config} {t : Turn} {G : Grant}

omit [StorageAdapter σ] in
theorem retire_le_cancel {selector : DirectCancelSelector}
    {requests : List (RequestId × OutstandingRequest)} {x : RequestId}
    (h : selected selector requests x) : Grant.retire x ≤ Grant.cancel selector requests := by
  intro label hl
  cases label with
  | drop y => exact hl ▸ h
  | lostAssembly y => exact hl ▸ h
  | lostHeader p y =>
    have hy : y.requestId = x := hl
    show selected selector requests y.requestId
    rw [hy]
    exact h
  | _ => cases hl

theorem changes_cancelRequests (selector : DirectCancelSelector)
    (all requests : List (RequestId × OutstandingRequest)) (hsub : requests ⊆ all) (count : Nat)
    (hg : Grant.cancel selector all ≤ G) :
    Changes t G e (cancelRequests cfg t selector requests count e).1 := by
  induction requests generalizing e count with
  | nil => exact .refl
  | cons p rest ih =>
    obtain ⟨requestId, request⟩ := p
    have hsub' : rest ⊆ all := fun x hx => hsub (List.mem_cons_of_mem _ hx)
    unfold cancelRequests
    split
    · exact ih hsub' count
    · rename_i direct hdirect
      split
      · rename_i hmatch
        have hsel : selected selector all requestId :=
          ⟨request, direct, hsub List.mem_cons_self, hdirect, hmatch⟩
        refine Relation.ReflTransGen.trans ?_ (ih hsub' _)
        exact (changes_addDirectTombstone requestId (hg (.tombstone _) hsel)).trans
          (changes_finalizeDirectRequest requestId _ ((retire_le_cancel hsel).trans hg)
            (.inr (hg (.lose _) hsel)))
      · exact ih hsub' count

omit [StorageAdapter σ] in
/-- Disabling windows touches no request. -/
theorem disableWindows_outstanding (selector : DirectCancelSelector)
    (windows : List (String × Nat)) :
    (disableWindows selector windows e).1.outstandingRequests = e.outstandingRequests := by
  induction windows generalizing e with
  | nil => rfl
  | cons p rest ih =>
    unfold disableWindows
    split
    · exact ih
    · split
      · unfold allocateDirectGeneration
        simp only
        split
        · rfl
        · rename_i generation e1 he
          split at he
          · cases he
            exact ih
          · cases he
      · exact ih

theorem changes_cancelDirectRequests (selector : DirectCancelSelector)
    (hg : Grant.cancel selector e.outstandingRequests.entries ≤ G) :
    Changes t G e (e.cancelDirectRequests cfg t selector).1 := by
  unfold cancelDirectRequests
  have hdisable : Changes t G e (disableWindows selector e.directWindows.entries e).1 :=
    changes_disableWindows selector e.directWindows.entries
  have hsame := disableWindows_outstanding (e := e) selector e.directWindows.entries
  split
  · rename_i e1 err he
    rwa [he] at hdisable
  · rename_i e1 he
    rw [he] at hdisable hsame
    refine hdisable.trans ((changes_cancelRequests selector _ _ (List.Subset.refl _) 0 ?_).trans
      (changes_prune none))
    rw [hsame]
    exact hg

/-- The requests of a piece that lose against the one that is kept. -/
def competes (f : FileId) (i : Nat) (keep : RequestId)
    (requests : List (RequestId × OutstandingRequest)) (requestId : RequestId) : Prop :=
  ∃ r, (requestId, r) ∈ requests ∧ r.fileId = f ∧ r.pieceIndex = i ∧ requestId ≠ keep

end Engine

def Grant.compete (t : Turn) (f : FileId) (i : Nat) (keep : RequestId)
    (requests : List (RequestId × OutstandingRequest)) : Grant
  | .drop x => Engine.competes f i keep requests x
  | .lostAssembly x => Engine.competes f i keep requests x
  | .tombstone x => Engine.competes f i keep requests x
  | .lostHeader _ h => Engine.competes f i keep requests h.requestId
  | .effect x => ∃ p requestId, x = .send p (.PIECE_CANCEL f i requestId) (t.sendFailure p)
  | _ => False

/-- The requests of expired leases are given up. -/
def Grant.leases (expired : List RequestLease) : Grant
  | .drop x => ∃ l ∈ expired, l.requestId = x
  | .lostAssembly x => ∃ l ∈ expired, l.requestId = x
  | _ => False

/-- A piece map may make the table's entry of its file. -/
def Grant.map (table : PieceAvailabilityTable) (map : PieceMapBroadcast) : Grant
  | .size f n => table.count f = none ∧ validateBroadcast map = .ok () ∧ f = map.fileId ∧
      n = map.totalPieces.index?.getD 0
  | _ => False

namespace Engine

variable {σ : Type} [StorageAdapter σ] {e e' : Engine σ}
variable {cfg : Config} {t : Turn} {G : Grant}

theorem changes_cancelCompeting {f : FileId} {i : Nat} {keep : RequestId}
    (all requests : List (RequestId × OutstandingRequest)) (hsub : requests ⊆ all)
    (hget : ∀ p ∈ requests, ∀ r, e.outstandingRequests.get? p.1 = some r → r = p.2)
    (hg : Grant.compete t f i keep all ≤ G)
    (hr : e.status? f i ≠ some .requested ∨
      ∀ requestId, competes f i keep all requestId → G (.lose requestId)) :
    Changes t G e (cancelCompeting t f i keep requests e).1 := by
  induction requests generalizing e with
  | nil => exact .refl
  | cons p rest ih =>
    obtain ⟨requestId, request⟩ := p
    have hsub' : rest ⊆ all := fun x hx => hsub (List.mem_cons_of_mem _ hx)
    have hget' : ∀ p ∈ rest, ∀ r, e.outstandingRequests.get? p.1 = some r → r = p.2 :=
      fun p hp => hget p (List.mem_cons_of_mem _ hp)
    unfold cancelCompeting
    split
    · exact ih hsub' hget' hr
    · rename_i hmatch
      simp only [not_or, not_not] at hmatch
      obtain ⟨hfile, hindex, hkeep⟩ := hmatch
      have hc : competes f i keep all requestId :=
        ⟨request, hsub List.mem_cons_self, hfile, hindex, hkeep⟩
      have hrest : e.Restored requestId ∨ G (.lose requestId) := by
        refine hr.imp (fun hst r hout => ?_) (fun hlose => hlose requestId hc)
        obtain rfl := hget _ List.mem_cons_self r hout
        rw [hfile, hindex]
        exact hst
      have hdrop : Changes t G e
          { e with outstandingRequests := e.outstandingRequests.delete requestId } :=
        changes_drop requestId (hg (.drop requestId) hc) hrest
      have hchunk := hdrop.trans
        (changes_dropAssembly requestId (hg (.lostAssembly requestId) hc))
      have htomb := hchunk.tail (.tombstones _ (insertNew e.directTombstones requestId) (by
        intro x hx
        obtain hold | rfl := mem_insertNew.1 hx
        · exact .inl hold
        · exact .inr (hg (.tombstone x) hc)))
      have hheader := htomb.trans (changes_dropPendingHeaders requestId (by
        rintro p h rfl
        exact hg (.lostHeader p h) hc))
      simp only
      split
      · refine Relation.ReflTransGen.trans (hheader.trans (changes_say _ ?_)) (ih hsub' ?_ ?_)
        · intro x hx
          obtain rfl := List.mem_singleton.1 hx
          exact .inr (hg (.effect _) ⟨_, _, rfl⟩)
        · intro q hq r hout
          exact hget' q hq r (OrderedMap.get?_delete_eq_some.1 hout).2
        · exact hr
      · exact hheader

omit [StorageAdapter σ] in
theorem get?_of_mem_entries (e : Engine σ) :
    ∀ p ∈ e.outstandingRequests.entries, ∀ r, e.outstandingRequests.get? p.1 = some r →
      r = p.2 := by
  intro p hp r hr
  have hget : e.outstandingRequests.get? p.1 = some p.2 := OrderedMap.mem_entries_iff.1 hp
  exact Option.some.inj (hr.symm.trans hget)

theorem changes_cancelCompetingGridRequests {f : FileId} {i : Nat} {keep : RequestId}
    (hg : Grant.compete t f i keep e.outstandingRequests.entries ≤ G)
    (hr : e.status? f i ≠ some .requested ∨
      ∀ requestId, competes f i keep e.outstandingRequests.entries requestId →
        G (.lose requestId)) :
    Changes t G e (e.cancelCompetingGridRequests t f i keep).1 :=
  changes_cancelCompeting _ _ (List.Subset.refl _) (get?_of_mem_entries e) hg hr

omit [StorageAdapter σ] in
/-- A piece whose manager refuses to mark it failed has no status. -/
theorem status?_of_markFailed_error {f : FileId} {i : Nat} {reason : String} {err : Failure}
    {ref : Nat} (hm : e.managers.get? f = some ref)
    (h : e.markFailed ref i reason = .error err) : e.status? f i = none := by
  simp only [markFailed, onManager, PieceManager.markFailed, PieceManager.update] at h
  simp only [status?, hm, PieceManager.status?]
  cases hr : (e.managerAt ref).requirePiece i with
  | error err' => rfl
  | ok s => simp [hr] at h

omit [StorageAdapter σ] in
theorem restored_of_status {requestId : RequestId} {r : OutstandingRequest}
    (hr : e.outstandingRequests.get? requestId = some r)
    (h : e.status? r.fileId r.pieceIndex = none) : e.Restored requestId := by
  intro r' hr'
  obtain rfl : r = r' := by simpa [hr] using hr'
  simp [h]

theorem changes_expireLeased (expired leases : List RequestLease) (hsub : leases ⊆ expired)
    (hg : Grant.leases expired ≤ G) : Changes t G e (expireLeased cfg leases e).1 := by
  induction leases generalizing e with
  | nil => exact .refl
  | cons lease rest ih =>
    have hsub' : rest ⊆ expired := fun x hx => hsub (List.mem_cons_of_mem _ hx)
    have hdropped : G (.drop lease.requestId) ∧ G (.lostAssembly lease.requestId) :=
      ⟨hg (.drop _) ⟨lease, hsub List.mem_cons_self, rfl⟩,
       hg (.lostAssembly _) ⟨lease, hsub List.mem_cons_self, rfl⟩⟩
    unfold expireLeased
    split
    · exact ih hsub'
    · rename_i outstanding hout
      -- the entry goes first in the code; the piece is marked failed on the way
      have hgive : ∀ e1 : Engine σ, e1.outstandingRequests = e.outstandingRequests →
          e1.incomingChunks = e.incomingChunks → e1.Restored lease.requestId →
          Changes t G e1 { e1 with
            outstandingRequests := e.outstandingRequests.delete lease.requestId
            incomingChunks := e.incomingChunks.delete lease.requestId } := by
        intro e1 ho hi hrestored
        rw [← ho, ← hi]
        exact (changes_drop _ hdropped.1 (.inl hrestored)).trans
          (changes_dropAssembly lease.requestId hdropped.2)
      cases hm : e.managers.get? outstanding.fileId with
      | none =>
        have hstatus : e.status? outstanding.fileId outstanding.pieceIndex = none := by
          simp [status?, hm]
        have hgone := hgive e rfl rfl (restored_of_status hout hstatus)
        simpa [requireManager, hm] using hgone
      | some ref =>
        simp only [requireManager, hm]
        cases hfail : e.markFailed ref outstanding.pieceIndex "request_timeout" with
        | error err =>
          have hstatus := status?_of_markFailed_error hm hfail
          have hgone := hgive e rfl rfl (restored_of_status hout hstatus)
          have hfail' : ({ e with
              outstandingRequests := e.outstandingRequests.delete lease.requestId
              incomingChunks := e.incomingChunks.delete lease.requestId } : Engine σ).markFailed ref
                outstanding.pieceIndex "request_timeout" = .error err := by
            simp only [markFailed, onManager, managerAt] at hfail ⊢
            split at hfail
            · cases hfail
            · rename_i herr
              simp [← hfail]
          simpa [hfail'] using hgone
        | ok e1 =>
          obtain ⟨m, hmark, rfl, -⟩ := markFailed_spec hfail
          have hfailed : Changes t G e (e.putManager ref m) :=
            changes_markFailed hfail (.inl (backed_of_get hout hm))
          have hrestored : (e.putManager ref m).Restored lease.requestId :=
            restored_of_markFailed hfail fun r hr => by
              obtain rfl : outstanding = r := by simpa [hout] using hr
              exact ⟨hm, rfl⟩
          have hgone := hfailed.trans (hgive _ rfl rfl hrestored)
          have hfail' : ({ e with
              outstandingRequests := e.outstandingRequests.delete lease.requestId
              incomingChunks := e.incomingChunks.delete lease.requestId } : Engine σ).markFailed ref
                outstanding.pieceIndex "request_timeout" = .ok ({ e.putManager ref m with
              outstandingRequests := e.outstandingRequests.delete lease.requestId
              incomingChunks := e.incomingChunks.delete lease.requestId }) := by
            have hmark' : (({ e with
              outstandingRequests := e.outstandingRequests.delete lease.requestId
              incomingChunks := e.incomingChunks.delete lease.requestId } :
                Engine σ).managerAt ref).markFailed outstanding.pieceIndex "request_timeout" =
                  .ok m := hmark
            simp only [markFailed, onManager, hmark']
            rfl
          simp only [hfail']
          split
          · exact hgone
          · rename_i e2 he2
            refine Relation.ReflTransGen.trans ?_ (ih hsub')
            refine Relation.ReflTransGen.trans ?_ (changes_emit _)
            exact (hgone.trans (changes_resetFailedToMissing he2)).trans (changes_health _)

theorem changes_expireRequestLeases (now : Number)
    (hg : Grant.leases (e.availability.expireLeases now).1 ≤ G) :
    Changes t G e (e.expireRequestLeases cfg now).1 := by
  unfold expireRequestLeases
  refine Relation.ReflTransGen.trans (.single (.table e _ ?_ ?_))
    (changes_expireLeased _ _ (List.Subset.refl _) hg)
  · intro f n hn
    exact .inl ((PieceAvailabilityTable.count_expireLeases e.availability now f).symm.trans hn)
  · intro f i l hl
    exact .inl (PieceAvailabilityTable.getLease_expireLeases hl)

omit [StorageAdapter σ] in
theorem valid_of_updatePeerPieceMap {table table' : PieceAvailabilityTable} {p : PeerId}
    {role : PeerRole} {map : PieceMapBroadcast} {score : Number} {changed : Bool}
    (h : table.updatePeerPieceMap p role map score = .ok (changed, table')) :
    validateBroadcast map = .ok () := by
  unfold PieceAvailabilityTable.updatePeerPieceMap at h
  cases hv : validateBroadcast map with
  | error err => simp [hv] at h
  | ok u => rfl

/-- The table after a piece map, as a change. -/
theorem changes_tableUpdate {p : PeerId} {role : PeerRole} {map : PieceMapBroadcast}
    {score : Number} {changed : Bool} {table : PieceAvailabilityTable}
    (h : e.availability.updatePeerPieceMap p role map score = .ok (changed, table))
    (hg : Grant.map e.availability map ≤ G) :
    Changes t G e { e with availability := table } := by
  refine .single (.table e table ?_ ?_)
  · intro f n hn
    obtain hold | ⟨hnone, rfl, rfl⟩ := PieceAvailabilityTable.count_updatePeerPieceMap h hn
    · exact .inl hold
    · exact .inr ⟨hnone, hg (.size _ _) ⟨hnone, valid_of_updatePeerPieceMap h, rfl, rfl⟩⟩
  · intro f i l hl
    exact .inl (PieceAvailabilityTable.getLease_updatePeerPieceMap h hl)

theorem changes_updatePeerPieceMap {p : PeerId} {map : PieceMapBroadcast} {role : PeerRole}
    (h : e.updatePeerPieceMap p map role = .ok e')
    (hg : Grant.map e.availability map ≤ G) : Changes t G e e' := by
  unfold updatePeerPieceMap at h
  split at h
  · cases h
  · rename_i changed table htable
    have hupdate : Changes t G e { e with availability := table } :=
      changes_tableUpdate htable hg
    simp only at h
    split at h
    · cases h
      exact hupdate.trans (changes_emit _)
    · cases h
      exact hupdate

theorem changes_exportPieceMapBroadcast (f : FileId) :
    Changes t G e (e.exportPieceMapBroadcast t f).1 := by
  unfold exportPieceMapBroadcast
  split
  · exact .refl
  · have hgeneration := Relation.ReflTransGen.single (Change.generation (t := t) (G := G) e f)
    simp only
    split
    · exact hgeneration
    · exact hgeneration

theorem changes_registerManifests (manifests : List FileManifest)
    (hg : ∀ m ∈ manifests, G (.register m)) :
    Changes t G e (manifests.foldl registerManifest e) := by
  induction manifests generalizing e with
  | nil => exact .refl
  | cons m rest ih =>
    exact Relation.ReflTransGen.trans (.single (.register e m (hg m List.mem_cons_self)))
      (ih fun m' hm' => hg m' (List.mem_cons_of_mem _ hm'))

theorem changes_rankProviders (f : FileId) (i : Nat) (candidates : List PeerId) (owner : PeerId)
    (cap : Number) (active : PeerId → Nat) (now : Number) :
    Changes t G e (e.rankProviders f i candidates owner cap active now).2 :=
  changes_knownPeers _

theorem changes_rankPieces (f : FileId) (m : PieceManager) (candidates : List PeerId)
    (owner : PeerId) (cap : Number) (active : PeerId → Nat) (now : Number) (missing : List Nat) :
    Changes t G e (rankPieces f m candidates owner cap active now missing e).1 := by
  induction missing generalizing e with
  | nil => exact .refl
  | cons i rest ih =>
    unfold rankPieces
    split
    · exact .refl
    · simp only
      have hrank := changes_rankProviders (t := t) (G := G) (e := e) f i candidates owner cap
        active now
      have hrest := hrank.trans ih
      split
      · rename_i e1 err he
        rwa [he] at hrest
      · rename_i e1 more he
        rwa [he] at hrest

omit [StorageAdapter σ] in
/-- The pieces that are ranked are the missing ones. -/
theorem mem_rankPieces {f : FileId} {m : PieceManager} {candidates : List PeerId}
    {owner : PeerId} {cap : Number} {active : PeerId → Nat} {now : Number} {missing : List Nat}
    {ranked : List RankedPiece}
    (h : rankPieces f m candidates owner cap active now missing e = (e', .ok ranked))
    {item : RankedPiece} (hi : item ∈ ranked) : item.index ∈ missing := by
  induction missing generalizing e ranked with
  | nil =>
    simp only [rankPieces, Prod.mk.injEq, Except.ok.injEq] at h
    rw [← h.2] at hi
    cases hi
  | cons i rest ih =>
    unfold rankPieces at h
    split at h
    · simp at h
    · simp only at h
      split at h
      · simp at h
      · rename_i e1 more he
        simp only [Prod.mk.injEq, Except.ok.injEq] at h
        obtain ⟨rfl, rfl⟩ := h
        obtain rfl | hmem := List.mem_cons.1 hi
        · exact List.mem_cons_self
        · exact List.mem_cons_of_mem _ (ih he hmem)

end Engine

end PonsWarp.Core
