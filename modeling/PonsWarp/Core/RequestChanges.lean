import PonsWarp.Core.SyncChanges

set_option autoImplicit false

/-!
The stretches that ask peers for pieces: single requests, windows of direct
requests, and the grid scheduler.
-/

namespace PonsWarp.Core

open PonsWarp.Data

/-- What the entry of a request by `requestNextPiece` says. -/
structure AskedBy (p : PeerId) (f : FileId) (options : Option DirectRequestOptions)
    (r : OutstandingRequest) : Prop where
  file : r.fileId = f
  peer : r.peerId = p
  grid : r.gridOptions = none
  direct : r.direct.map (·.windowKey) =
    options.map fun o => o.windowKey.getD (Engine.defaultWindowKey f p o.controllerId)

/-- A `PIECE_REQUEST` for a peer. -/
def Effect.Requests (x : Effect) : Prop := ∃ p m failure, x = .send p (.PIECE_REQUEST m) failure

/-- The message that asks a peer for a piece. -/
def asksFor (t : Turn) (f : FileId) (p : PeerId) (x : Effect) : Prop :=
  ∃ i : Nat, x = .send p (.PIECE_REQUEST ⟨f, i, t.createRequestId f i, 0⟩) (t.sendFailure p)

def Grant.request (t : Turn) (p : PeerId) (f : FileId) (options : Option DirectRequestOptions) :
    Grant
  | .ask _ _ r => AskedBy p f options r
  | .effect x => asksFor t f p x
  | .frame fr => ∃ ref scheduled,
      fr = .requestSent ref (t.createRequestId f scheduled.piece.index) scheduled
  | _ => False

namespace Engine

variable {σ : Type} {e e' : Engine σ}

/-- Some lease of this request has run out. -/
def LeaseDue (e : Engine σ) (now : Number) (requestId : RequestId) : Prop :=
  ∃ f i l, e.availability.getLease f i = some l ∧ l.requestId = requestId ∧ l.expiresAt ≤ now

end Engine

def GridScheduleOptions.time (options : GridScheduleOptions) (t : Turn) : Number :=
  options.now.getD (t.now : Number)

/-- What scheduling a piece of the grid may do from the tables of `e`. -/
def Grant.grid {σ : Type} (e : Engine σ) (t : Turn) (f : FileId) (options : GridScheduleOptions) :
    Grant
  | .ask _ _ r => r.fileId = f ∧ r.gridOptions = some options ∧ r.direct = none
  | .effect x => ∃ p, asksFor t f p x
  | .frame fr => (∃ result, fr = .gridSent result) ∨ ∃ result, fr = .endgameSent result
  | .drop x => e.LeaseDue (options.time t) x
  | .lostAssembly x => e.LeaseDue (options.time t) x
  | .size g n => g = f ∧ ∃ manifest, e.manifests.get? f = some manifest ∧ n = manifest.pieceCount
  | _ => False

theorem Grant.grid_le {σ : Type} {e e' : Engine σ} {t : Turn} {f : FileId}
    {options : GridScheduleOptions} (hm : e'.manifests = e.manifests)
    (hl : ∀ f i l, e'.availability.getLease f i = some l → e.availability.getLease f i = some l) :
    Grant.grid e' t f options ≤ Grant.grid e t f options := by
  have hdue : ∀ now x, e'.LeaseDue now x → e.LeaseDue now x := by
    rintro now x ⟨g, i, l, hget, hid, hexp⟩
    exact ⟨g, i, l, hl g i l hget, hid, hexp⟩
  intro label hlabel
  cases label with
  | drop x => exact hdue _ _ hlabel
  | lostAssembly x => exact hdue _ _ hlabel
  | size g n =>
    simp only [Grant.grid, hm] at hlabel
    exact hlabel
  | _ => exact hlabel

/-- The frames of the loop of `requestGridPieceWindow`. -/
def Grant.gridLoop {σ : Type} (e : Engine σ) (t : Turn) (f : FileId)
    (options : GridScheduleOptions) (total : Number) : Grant
  | .frame fr => Grant.grid e t f options (.frame fr) ∨
      (∃ scheduled, fr = .gridEndgame f options total scheduled) ∨
      ∃ scheduled, fr = .gridNext f options total scheduled
  | label => Grant.grid e t f options label

theorem Grant.grid_le_gridLoop {σ : Type} {e : Engine σ} {t : Turn} {f : FileId}
    {options : GridScheduleOptions} {total : Number} :
    Grant.grid e t f options ≤ Grant.gridLoop e t f options total := by
  intro label hlabel
  cases label with
  | frame fr => exact .inl hlabel
  | _ => exact hlabel

section

variable {σ : Type} [StorageAdapter σ] {e e' : Engine σ} {t : Turn} {G : Grant}

/-- Without registering or installing a manager, the managers in use stay. -/
theorem Changes.managers (hr : ∀ m, ¬ G (.register m)) (hi : ∀ f m, ¬ G (.install f m))
    (h : Changes t G e e') : e'.managers = e.managers := by
  induction h with
  | refl => rfl
  | tail _ hc ih =>
    cases hc with
    | register m hg => exact absurd hg (hr m)
    | install f m hg => exact absurd hg (hi f m)
    | _ => exact ih

/-- The manifests change only by registering one. -/
theorem Changes.manifests (hr : ∀ m, ¬ G (.register m)) (h : Changes t G e e') :
    e'.manifests = e.manifests := by
  induction h with
  | refl => rfl
  | tail _ hc ih =>
    cases hc with
    | register m hg => exact absurd hg (hr m)
    | _ => exact ih

/-- What is sent in a sequence of changes was granted. -/
theorem Changes.log (h : Changes t G e e') : ∃ l, e'.log = e.log ++ l ∧ G.speaks l := by
  induction h with
  | refl => exact ⟨[], by simp, by simp [Grant.speaks]⟩
  | tail _ hc ih =>
    obtain ⟨l, hl, hspeaks⟩ := ih
    cases hc with
    | say more hmore =>
      refine ⟨l ++ more, by simp [hl], fun x hx => ?_⟩
      exact (List.mem_append.1 hx).elim (hspeaks x) (hmore x)
    | register m hg =>
      refine ⟨l, ?_, hspeaks⟩
      simp only [Engine.registerManifest]
      split <;> exact hl
    | _ => exact ⟨l, hl, hspeaks⟩

/-- A request that is outstanding was so before, or was granted. -/
theorem Changes.entry (h : Changes t G e e') {requestId : RequestId} {r : OutstandingRequest}
    (hr : e'.outstandingRequests.get? requestId = some r) :
    e.outstandingRequests.get? requestId = some r ∨ ∃ ref, G (.ask ref requestId r) := by
  induction h with
  | refl => exact .inl hr
  | tail _ hc ih =>
    cases hc with
    | ask ref m p asked q hm hmissing hcurrent hid hg =>
      simp only [OrderedMap.get?_set] at hr
      split at hr
      · rename_i heq
        cases hr
        exact .inr ⟨ref, heq ▸ hg⟩
      · exact ih hr
    | drop dropped hg hrest =>
      simp only [OrderedMap.get?_delete] at hr
      split at hr
      · cases hr
      · exact ih hr
    | register m hg =>
      refine ih ?_
      simp only [Engine.registerManifest] at hr
      split at hr <;> exact hr
    | dispose hg => cases hr
    | _ => exact ih hr

omit [StorageAdapter σ] in
/-- A manager on the heap keeps its position when others are added. -/
theorem Engine.managerAt_append (e : Engine σ) (m : PieceManager) {ref : Nat}
    (h : ref < e.heap.length) :
    ((e.heap ++ [m])[ref]?).getD ⟨"", []⟩ = e.managerAt ref := by
  simp [Engine.managerAt, List.getElem?_append_left h]

omit [StorageAdapter σ] in
theorem Engine.lt_of_mem_missing {ref i : Nat} (h : i ∈ (e.managerAt ref).getMissingPieces) :
    ref < e.heap.length := by
  by_contra hge
  have hnone : e.heap[ref]? = none := List.getElem?_eq_none (not_lt.1 hge)
  simp [Engine.managerAt, hnone, PieceManager.getMissingPieces] at h

theorem Change.missing (hv : ∀ ref i, ¬ G (.verify ref i)) (ha : ∀ ref id r, ¬ G (.ask ref id r))
    (h : Change t G e e') {ref i : Nat} (hi : i ∈ (e.managerAt ref).getMissingPieces) :
    i ∈ (e'.managerAt ref).getMissingPieces := by
  have hput : ∀ ref' m, (∀ j, j ∈ (e.managerAt ref').getMissingPieces → j ∈ m.getMissingPieces) →
      i ∈ ((e.putManager ref' m).managerAt ref).getMissingPieces := by
    intro ref' m hm
    rw [Engine.managerAt_putManager]
    split
    · rename_i heq
      exact hm i (heq.1 ▸ hi)
    · exact hi
  have hlt := Engine.lt_of_mem_missing hi
  cases h with
  | fail ref' j reason m hm _ =>
    exact hput ref' m fun k hk => PieceManager.getMissingPieces_markFailed hm hk
  | reset ref' j m hm =>
    exact hput ref' m fun k hk => PieceManager.getMissingPieces_resetFailedToMissing hm hk
  | verify ref' j m hm hg => exact absurd hg (hv ref' j)
  | ask ref' m p id r hm hmissing hcurrent hid hg => exact absurd hg (ha ref' id r)
  | register m hg =>
    simp only [Engine.registerManifest]
    split
    · exact hi
    · simp only [Engine.managerAt]
      rw [Engine.managerAt_append _ _ hlt]
      exact hi
  | install f m hg =>
    simp only [Engine.installManager, Engine.managerAt]
    rw [Engine.managerAt_append _ _ hlt]
    exact hi
  | _ => exact hi

/-- A piece that is to be fetched stays so while nothing is requested or verified. -/
theorem Changes.missing (hv : ∀ ref i, ¬ G (.verify ref i)) (ha : ∀ ref id r, ¬ G (.ask ref id r))
    (h : Changes t G e e') {ref i : Nat} (hi : i ∈ (e.managerAt ref).getMissingPieces) :
    i ∈ (e'.managerAt ref).getMissingPieces :=
  Changes.keeps (fun _ _ hc => hc.missing hv ha) h hi

end

theorem PieceAvailabilityTable.mem_expireLeases {table : PieceAvailabilityTable} {now : Number}
    {l : RequestLease} (h : l ∈ (table.expireLeases now).1) :
    ∃ f i, table.getLease f i = some l ∧ l.expiresAt ≤ now := by
  simp only [expireLeases, List.mem_flatMap, List.mem_filterMap] at h
  obtain ⟨file, hfile, piece, hpiece, hexp⟩ := h
  obtain ⟨f, hf⟩ := OrderedMap.mem_values_iff.1 hfile
  obtain ⟨i, hi⟩ := List.mem_iff_getElem?.1 hpiece
  have hl : piece.requestedBy = some l ∧ l.expiresAt ≤ now := by
    unfold expiredLease at hexp
    split at hexp
    · rename_i held hheld
      split at hexp
      · rename_i hle
        cases hexp
        exact ⟨hheld, hle⟩
      · cases hexp
    · cases hexp
  exact ⟨f, i, by simpa [getLease, piece?, hf, hi] using hl.1, hl.2⟩

namespace Engine

variable {σ : Type} [StorageAdapter σ] {e e' : Engine σ}
variable {cfg : Config} {t : Turn} {G : Grant}

theorem does_send (p : PeerId) (message : TransferMessage)
    (hg : G (.effect (.send p message (t.sendFailure p)))) :
    Does cfg t G e (e.send t p message) := by
  unfold send
  split
  · refine .passOn (changes_say _ ?_) _
    intro x hx
    obtain rfl := List.mem_singleton.1 hx
    exact .inr hg
  · exact .stop e _

theorem does_sendBinary (p : PeerId) (frame : ArrayBuffer)
    (hg : G (.effect (.sendBinary p frame (t.sendFailure p)))) :
    Does cfg t G e (e.sendBinary t p frame) := by
  unfold sendBinary
  split
  · refine .passOn (changes_say _ ?_) _
    intro x hx
    obtain rfl := List.mem_singleton.1 hx
    exact .inr hg
  · exact .stop e _

/-- An awaited storage operation leaves the storage alone or has its effect. -/
theorem does_storageCall {α : Type} (value : α → Value) (result : Except Failure α × σ)
    (hc : Changes t G e { e with storage := result.2 }) :
    Does cfg t G e (e.storageCall t value result) := by
  unfold storageCall
  split
  · split
    · exact .passOn hc _
    · exact .passOn .refl _
  · exact .passOn hc _

theorem does_persistState : Does cfg t G e (e.persistState t) := by
  unfold persistState
  split
  · exact .stop e _
  · rename_i s hs
    split
    · exact .stop e _
    · rename_i hne
      exact does_storageCall _ _ (.single (.save e s hs fun he => hne (.inl he)))

/-- The maps a broadcast sends. -/
def announces (t : Turn) (f : FileId) (x : Effect) : Prop :=
  ∃ p map, x = .send p (.PIECE_MAP map) (t.sendFailure p) ∧ map.fileId = f

omit [StorageAdapter σ] in
theorem exportPieceMapBroadcast_fileId {f : FileId} {map : PieceMapBroadcast}
    (h : e.exportPieceMapBroadcast t f = (e', .ok map)) : map.fileId = f := by
  unfold exportPieceMapBroadcast at h
  split at h
  · simp at h
  · simp only at h
    split at h
    · simp at h
    · simp only [Prod.mk.injEq, Except.ok.injEq] at h
      rw [← h.2]

theorem does_broadcastPieceMap (f : FileId) (peers : List PeerId)
    (hg : ∀ x, announces t f x → G (.effect x)) :
    Does cfg t G e (e.broadcastPieceMap t f peers) := by
  unfold broadcastPieceMap
  have hexport := changes_exportPieceMapBroadcast (t := t) (G := G) (e := e) f
  split
  · rename_i e1 err he
    rw [he] at hexport
    exact .done hexport _
  · rename_i e1 map he
    rw [he] at hexport
    split
    · refine .passOn (hexport.trans (changes_say _ ?_)) _
      intro x hx
      obtain ⟨p, hp, rfl⟩ := List.mem_map.1 hx
      exact .inr (hg _ ⟨p, map, rfl, exportPieceMapBroadcast_fileId he⟩)
    · exact .done hexport _

theorem does_sendPieceRequest (p : PeerId) (f : FileId) (i : Nat)
    (hg : ∀ x, asksFor t f p x → G (.effect x)) :
    Does cfg t G e (e.sendPieceRequest t p f i (t.createRequestId f i)) :=
  does_send _ _ (hg _ ⟨i, rfl⟩)

omit [StorageAdapter σ] in
theorem recordRequest_spec (e : Engine σ) (cfg : Config) (t : Turn) (p : PeerId) (f : FileId) (i : Nat) (requestId : RequestId)
    (options : Option DirectRequestOptions) :
    ∃ r, (e.recordRequest cfg t p f i requestId options).outstandingRequests =
        e.outstandingRequests.set requestId r ∧ AskedBy p f options r ∧ r.pieceIndex = i ∧
      (e.recordRequest cfg t p f i requestId options).managers = e.managers := by
  cases options with
  | none => exact ⟨_, rfl, ⟨rfl, rfl, rfl, rfl⟩, rfl, rfl⟩
  | some o =>
    by_cases hw : o.windowKey.getD (defaultWindowKey f p o.controllerId) ≠ "" ∧
        ¬ e.directWindows.has (o.windowKey.getD (defaultWindowKey f p o.controllerId))
    · simp only [recordRequest, if_pos hw]
      exact ⟨_, rfl, ⟨rfl, rfl, rfl, rfl⟩, rfl, rfl⟩
    · simp only [recordRequest, if_neg hw]
      exact ⟨_, rfl, ⟨rfl, rfl, rfl, rfl⟩, rfl, trivial⟩

/-- Requesting a missing piece and recording the request. -/
theorem changes_recordRequest {ref i : Nat} {m : PieceManager} {p : PeerId} {f : FileId}
    {options : Option DirectRequestOptions} (hm : (e.managerAt ref).markRequested i p = .ok m)
    (hmissing : i ∈ (e.managerAt ref).getMissingPieces)
    (hcurrent : e.managers.get? f = some ref) (hg : Grant.request t p f options ≤ G) :
    Changes t G e
      ((e.putManager ref m).recordRequest cfg t p f i (t.createRequestId f i) options) := by
  have hask : ∀ (e1 : Engine σ) (r : OutstandingRequest), e1.heap = e.heap →
      e1.managers = e.managers → AskedBy p f options r → r.pieceIndex = i →
      Change t G e1 { e1.putManager ref m with
        outstandingRequests := e1.outstandingRequests.set (t.createRequestId f i) r
        issued := e1.issued ++ [t.createRequestId f i] } := by
    intro e1 r hheap hmanagers hr hi
    have hat : e1.managerAt ref = e.managerAt ref := by simp only [managerAt, hheap]
    subst hi
    refine .ask e1 ref m p _ r (hat ▸ hm) (hat ▸ hmissing) ?_ ?_ (hg (.ask _ _ _) hr)
    · rw [hmanagers, hr.file, hcurrent]
    · rw [hr.file]
  cases options with
  | none => exact .single (hask e _ rfl rfl ⟨rfl, rfl, rfl, rfl⟩ rfl)
  | some o =>
    by_cases hw : o.windowKey.getD (defaultWindowKey f p o.controllerId) ≠ "" ∧
        ¬ e.directWindows.has (o.windowKey.getD (defaultWindowKey f p o.controllerId))
    · have hw' : o.windowKey.getD (defaultWindowKey f p o.controllerId) ≠ "" ∧
          ¬ (e.putManager ref m).directWindows.has
            (o.windowKey.getD (defaultWindowKey f p o.controllerId)) := hw
      simp only [recordRequest, if_pos hw']
      have hwindow : Changes t G e (e.newWindow
          (o.windowKey.getD (defaultWindowKey f p o.controllerId))
          (freshWindow f p o.controllerId 1 0)) := .single (.newWindow e _ _ rfl)
      exact (hwindow.tail (hask (e.newWindow _ _) _ rfl rfl ⟨rfl, rfl, rfl, rfl⟩ rfl)).tail
        (.minor _ e.peerHealth e.knownPeers
          (e.directTimers.set (t.createRequestId f i) e.armed.length) e.nextDirectGeneration
          (e.armed ++ [(t.createRequestId f i, _)]) e.sessionId)
    · have hw' : ¬ (o.windowKey.getD (defaultWindowKey f p o.controllerId) ≠ "" ∧
          ¬ (e.putManager ref m).directWindows.has
            (o.windowKey.getD (defaultWindowKey f p o.controllerId))) := hw
      simp only [recordRequest, if_neg hw']
      exact (Relation.ReflTransGen.single (hask e _ rfl rfl ⟨rfl, rfl, rfl, rfl⟩ rfl)).tail
        (.minor _ e.peerHealth e.knownPeers
          (e.directTimers.set (t.createRequestId f i) e.armed.length) e.nextDirectGeneration
          (e.armed ++ [(t.createRequestId f i, _)]) e.sessionId)

omit [StorageAdapter σ] in
theorem onManager_spec {ref : Nat} {method : PieceManager → Except Failure PieceManager}
    (h : e.onManager ref method = .ok e') :
    ∃ m, method (e.managerAt ref) = .ok m ∧ e' = e.putManager ref m := by
  unfold onManager at h
  split at h
  · rename_i m hm
    cases h
    exact ⟨m, hm, rfl⟩
  · cases h

omit [StorageAdapter σ] in
theorem send_fst (p : PeerId) (message : TransferMessage) :
    (e.send t p message).1.outstandingRequests = e.outstandingRequests ∧
      (e.send t p message).1.managers = e.managers := by
  unfold send
  split <;> exact ⟨rfl, rfl⟩

omit [StorageAdapter σ] in
theorem requireManifest_eq_ok {f : FileId} {manifest : FileManifest} :
    e.requireManifest f = .ok manifest ↔ e.manifests.get? f = some manifest := by
  unfold requireManifest
  cases e.manifests.get? f <;> simp

omit [StorageAdapter σ] in
theorem requireManager_eq_ok {f : FileId} {ref : Nat} :
    e.requireManager f = .ok ref ↔ e.managers.get? f = some ref := by
  unfold requireManager
  cases e.managers.get? f <;> simp

theorem does_requestNextPiece (p : PeerId) (f : FileId) (options : Option DirectRequestOptions)
    (hg : Grant.request t p f options ≤ G) :
    Does cfg t G e (e.requestNextPiece cfg t p f options) := by
  unfold requestNextPiece
  split
  · exact .stop e _
  · rename_i ref href
    have hcurrent := requireManager_eq_ok.1 href
    split
    · exact .stop e _
    · exact .stop e _
    · rename_i scheduled hnext
      obtain ⟨i, hi, hpiece, -, -⟩ := OwnerFirstScheduler.nextOf_eq_some hnext
      have hindex : scheduled.piece.index = i := (PieceManager.requirePiece_eq_ok.1 hpiece).2
      simp only
      split
      · exact .stop e _
      · split
        · exact .stop e _
        · rename_i e1 he1
          obtain ⟨m, hm, rfl⟩ := onManager_spec he1
          have hrecord : Changes t G e ((e.putManager ref m).recordRequest cfg t p f
              scheduled.piece.index (t.createRequestId f scheduled.piece.index) options) :=
            changes_recordRequest hm (hindex ▸ hi) hcurrent hg
          refine .after hrecord (.andThen
            (does_sendPieceRequest p f _ fun x hx => hg (.effect x) hx) ?_ ?_)
          · exact hg (.frame _) ⟨ref, scheduled, rfl⟩
          · intro pending
            obtain ⟨r, hr, hasked, hri, hmanagers⟩ := (e.putManager ref m).recordRequest_spec cfg t p f scheduled.piece.index
              (t.createRequestId f scheduled.piece.index) options
            obtain ⟨hsent, hsentm⟩ := send_fst (t := t) (e := (e.putManager ref m).recordRequest
              cfg t p f scheduled.piece.index (t.createRequestId f scheduled.piece.index) options) p
              (.PIECE_REQUEST ⟨f, (scheduled.piece.index : Number),
                t.createRequestId f scheduled.piece.index, 0⟩)
            refine ⟨r, ?_, ?_, hri⟩
            · simp [sendPieceRequest, hsent, hr]
            · rw [hasked.file]
              simp only [sendPieceRequest, hsentm, hmanagers]
              exact hcurrent

end Engine

/-- What a failed request may do: its piece is marked failed in the manager the
request was made with, and it leaves the tables. -/
def Grant.giveUp {σ : Type} (e : Engine σ) (ref i : Nat) (requestId : RequestId) : Grant
  | .fail r j => r = ref ∧ j = i
  | .lose x => x = requestId ∧ ¬ e.Holds requestId ref i
  | label => Grant.retire requestId label

theorem Grant.retire_le_giveUp {σ : Type} {e : Engine σ} {ref i : Nat} {requestId : RequestId} :
    Grant.retire requestId ≤ Grant.giveUp e ref i requestId := by
  intro label h
  cases label with
  | fail => cases h
  | lose => cases h
  | _ => exact h

namespace Engine

variable {σ : Type} [StorageAdapter σ] {e e' : Engine σ}
variable {cfg : Config} {t : Turn} {G : Grant}

theorem changes_giveUp {ref i : Nat} {reason : String} {requestId : RequestId}
    (status : DirectTerminalReason) (hg : Grant.giveUp e ref i requestId ≤ G)
    (h : e.markFailed ref i reason = .ok e') :
    Changes t G e (e'.finalizeDirectRequest cfg t requestId status).1 := by
  have hfail : Changes t G e e' := changes_markFailed h (.inr (hg (.fail ref i) ⟨rfl, rfl⟩))
  refine hfail.trans (changes_finalizeDirectRequest requestId status
    (Grant.retire_le_giveUp.trans hg) ?_)
  by_cases hh : e.Holds requestId ref i
  · exact .inl (restored_of_markFailed h hh)
  · exact .inr (hg (.lose requestId) ⟨rfl, hh⟩)

theorem does_requestSent_error (ref : Nat) (requestId : RequestId) (scheduled : ScheduledPiece)
    (err : Failure) (hg : Grant.giveUp e ref scheduled.piece.index requestId ≤ G) :
    Does cfg t G e (e.requestSent cfg t ref requestId scheduled (.error err)) := by
  unfold requestSent
  simp only
  split
  · exact .stop e _
  · rename_i e1 he1
    exact .done (changes_giveUp _ hg he1) _

theorem does_requestSent_ok (ref : Nat) (requestId : RequestId) (scheduled : ScheduledPiece)
    (v : Value) (hg : G (.frame (.requestPersisted ref requestId scheduled))) :
    Does cfg t G e (e.requestSent cfg t ref requestId scheduled (.ok v)) :=
  does_persistState.andThen hg fun _ => trivial

omit [StorageAdapter σ] in
theorem emitDirectLifecycleError_fields (phase : LifecyclePhase)
    (request : Option OutstandingRequest) (requestId : RequestId) (error : Failure) :
    (e.emitDirectLifecycleError t phase request requestId error).heap = e.heap ∧
    (e.emitDirectLifecycleError t phase request requestId error).managers = e.managers ∧
    (e.emitDirectLifecycleError t phase request requestId error).outstandingRequests =
      e.outstandingRequests := by
  unfold emitDirectLifecycleError
  split
  · exact ⟨rfl, rfl, rfl⟩
  · split
    · exact ⟨rfl, rfl, rfl⟩
    · split
      · exact ⟨rfl, rfl, rfl⟩
      · simp only
        split <;> exact ⟨rfl, rfl, rfl⟩

omit [StorageAdapter σ] in
theorem giveUp_lifecycleError (e : Engine σ) (t : Turn) {ref i : Nat} {requestId : RequestId}
    (phase : LifecyclePhase) (request : Option OutstandingRequest) (error : Failure) :
    Grant.giveUp (e.emitDirectLifecycleError t phase request requestId error) ref i requestId =
      Grant.giveUp e ref i requestId := by
  obtain ⟨-, hm, ho⟩ := emitDirectLifecycleError_fields (e := e) (t := t) phase request requestId
    error
  funext label
  cases label with
  | lose x => simp only [Grant.giveUp, Holds, hm, ho]
  | _ => rfl

theorem does_requestPersisted_error (ref : Nat) (requestId : RequestId)
    (scheduled : ScheduledPiece) (err : Failure)
    (hg : Grant.giveUp e ref scheduled.piece.index requestId ≤ G) :
    Does cfg t G e (e.requestPersisted cfg t ref requestId scheduled (.error err)) := by
  unfold requestPersisted
  have hreport := changes_emitDirectLifecycleError (t := t) (G := G) (e := e) .persist
    (e.outstandingRequests.get? requestId) requestId err
  simp only
  split
  · exact .done hreport _
  · rename_i e1 he1
    rw [← giveUp_lifecycleError e t .persist (e.outstandingRequests.get? requestId) err] at hg
    exact .done (hreport.trans (changes_giveUp _ hg he1)) _

theorem does_requestPersisted_ok (ref : Nat) (requestId : RequestId) (scheduled : ScheduledPiece)
    (v : Value) : Does cfg t G e (e.requestPersisted cfg t ref requestId scheduled (.ok v)) :=
  .stop e _

theorem does_fillWindow (window : Nat) (windowKey : String) (p : PeerId) (f : FileId)
    (options : DirectRequestOptions) (scheduled : List ScheduledPiece)
    (hg : Grant.request t p f (some { options with windowKey := some windowKey }) ≤ G)
    (hframe : G (.frame (.fillWindow window windowKey p f options scheduled))) :
    Does cfg t G e (e.fillWindow cfg t window windowKey p f options scheduled) := by
  unfold fillWindow
  simp only
  split
  · exact (does_requestNextPiece p f _ hg).andThen hframe fun _ => trivial
  · exact .stop e _

/-- The options a retry is made with. -/
def retryOptions (direct : DirectRequest) : DirectRequestOptions :=
  ⟨some direct.timeoutMs, direct.controllerId, some direct.windowKey, direct.retryCount + 1⟩

theorem does_retryDirectRequest (requestId : RequestId) (request : OutstandingRequest)
    (direct : DirectRequest)
    (hg : Grant.request t request.peerId request.fileId (some (retryOptions direct)) ≤ G) :
    Does cfg t G e (e.retryDirectRequest cfg t requestId request direct) := by
  unfold retryDirectRequest
  split
  · exact .stop e _
  · split
    · exact .stop e _
    · split
      · exact .stop e _
      · split
        · exact .stop e _
        · split
          · exact .stop e _
          · rename_i e1 he1
            have hreset : Changes t G e e1 := by
              split at he1
              · exact changes_resetFailedToMissing he1
              · cases he1
                exact .refl
            exact .after hreset (does_requestNextPiece _ _ _ hg)

end Engine

/-- What a task of a window may do. -/
def Grant.windowJob (t : Turn) (window : Nat) : WindowJob → Grant
  | .fill p f windowKey options => fun label =>
      Grant.request t p f (some { options with windowKey := some windowKey }) label ∨
      label = .frame (.fillWindow window windowKey p f options [])
  | .retry _ request direct =>
      Grant.request t request.peerId request.fileId (some (Engine.retryOptions direct))
  | .expire requestId => Grant.retire requestId

namespace Engine

variable {σ : Type} [StorageAdapter σ] {e e' : Engine σ}
variable {cfg : Config} {t : Turn} {G : Grant}

theorem does_runWindowJob (window : Nat) (job : WindowJob)
    (hg : Grant.windowJob t window job ≤ G) :
    Does cfg t G e (e.runWindowJob cfg t window job) := by
  cases job with
  | fill p f windowKey options =>
    exact does_fillWindow _ _ _ _ _ _ (fun l hl => hg l (.inl hl)) (hg _ (.inr rfl))
  | retry requestId request direct => exact does_retryDirectRequest _ _ _ hg
  | expire requestId =>
    unfold runWindowJob
    simp only
    split
    · exact .stop e _
    · rename_i e1 he1
      exact .done (changes_expireDirectRequest hg he1) _

/-- Starting the first task of a window that is idle. -/
theorem does_startWindowJob {window : Nat} {result : Engine σ × Next}
    (h : e.startWindowJob cfg t window = some result)
    (hg : ∀ w job rest, e.windowHeap[window]? = some w → w.queue = job :: rest →
      w.disabled = false → Grant.windowJob t window job ≤ G)
    (hframe : ∀ track, G (.frame (.windowJob window track))) : Does cfg t G e result := by
  unfold startWindowJob at h
  split at h
  · cases h
  · rename_i w hw
    split at h
    · cases h
    · rename_i job rest hq
      split at h
      · cases h
      · have hput := changes_putWindow (t := t) (G := G) hw
          { w with queue := rest, running := true } id (by rw [hq]; exact List.suffix_cons job rest)
        simp only at h
        split at h
        · cases h
          exact .after hput ((Does.stop _ _).andThen (hframe _) fun _ => trivial)
        · rename_i hlive
          cases h
          have hd : w.disabled = false := by simpa using fun hdis => hlive (.inl hdis)
          exact .after hput ((does_runWindowJob _ _ (hg w job rest hw hq hd)).andThen (hframe _)
            fun _ => trivial)

theorem does_windowJobEnded (window : Nat) (track : Bool) (outcome : Except Failure Value) :
    Does cfg t G e (e.windowJobEnded window track outcome) := by
  unfold windowJobEnded
  split
  · exact .stop e _
  · rename_i w hw
    refine .done (changes_putWindow hw _ ?_ ?_) _
    · exact id
    · exact List.suffix_refl _

theorem changes_requestPieceWindow (p : PeerId) (f : FileId) (options : DirectRequestOptions)
    (maxInFlight : Option Number) :
    Changes t G e (e.requestPieceWindow cfg p f options maxInFlight).1 := by
  unfold requestPieceWindow
  simp only
  split
  · exact .refl
  · split
    · unfold allocateDirectGeneration
      split
      · exact .refl
      · rename_i generation e1 he
        split at he
        · cases he
          refine Relation.ReflTransGen.trans ?_ (changes_enqueueWindow _ _
            (by intro k hk; exact (Option.some.inj hk).symm))
          refine Relation.ReflTransGen.trans ?_ (changes_prune _)
          refine Relation.ReflTransGen.trans ?_ (.single (.newWindow _ _ _ rfl))
          exact .single (.minor e _ _ _ (e.nextDirectGeneration + 1) _ _)
        · cases he
    · split
      · exact .refl
      · split
        · exact .refl
        · split
          · exact .refl
          · exact changes_enqueueWindow _ _ (by intro k hk; exact (Option.some.inj hk).symm)

end Engine

end PonsWarp.Core
