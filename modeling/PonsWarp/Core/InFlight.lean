import PonsWarp.Core.GridOrder

set_option autoImplicit false

/-!
How many requests of one file are outstanding. A stretch of code adds one at
most; the loop of `requestGridPieceWindow` looks at its cap before it waits, and
what asks behind the wait, or again after a failure, does not.
-/

namespace PonsWarp.Core

open PonsWarp.Data

section

variable {σ : Type}

namespace Engine

variable {e : Engine σ}

/-- The piece has retries left in the manager. -/
def Retries (e : Engine σ) (cfg : Config) (ref index : Nat) : Prop :=
  ∃ piece, (e.managerAt ref).getPieceState index = .ok piece ∧ piece.retryCount ≤ cfg.maxRetries

/-- How many outstanding requests there are of a kind. -/
def countWhere (e : Engine σ) (p : OutstandingRequest → Bool) : Nat :=
  (e.outstandingRequests.values.filter p).length

theorem countWhere_of_table {e e' : Engine σ}
    (h : e'.outstandingRequests = e.outstandingRequests) (p : OutstandingRequest → Bool) :
    e'.countWhere p = e.countWhere p := by
  simp only [countWhere, h]

theorem countWhere_delete_le {e e' : Engine σ} {requestId : RequestId}
    (p : OutstandingRequest → Bool)
    (h : e'.outstandingRequests = e.outstandingRequests.delete requestId) :
    e'.countWhere p ≤ e.countWhere p := by
  have hsub := e.outstandingRequests.values_delete_sublist requestId
  simp only [countWhere, h]
  exact (hsub.filter _).length_le

theorem countWhere_set_le {e e' : Engine σ} {requestId : RequestId} {r : OutstandingRequest}
    (p : OutstandingRequest → Bool)
    (h : e'.outstandingRequests = e.outstandingRequests.set requestId r) :
    e'.countWhere p ≤ e.countWhere p + if p r = true then 1 else 0 := by
  have hperm := (e.outstandingRequests.values_set_perm requestId r).filter p
  have hlength := hperm.length_eq
  have hle : ({ e with outstandingRequests := e.outstandingRequests.delete requestId } :
      Engine σ).countWhere p ≤ e.countWhere p := countWhere_delete_le p rfl
  simp only [countWhere, h] at hle ⊢
  rw [hlength, List.filter_cons]
  by_cases hp : p r = true
  · simpa [hp] using hle
  · simpa [hp] using hle

theorem count_of_table {e e' : Engine σ} (h : e'.outstandingRequests = e.outstandingRequests)
    (f : FileId) : e'.countOutstandingRequests f = e.countOutstandingRequests f :=
  countWhere_of_table h _

theorem count_delete_le {e e' : Engine σ} {requestId : RequestId} (f : FileId)
    (h : e'.outstandingRequests = e.outstandingRequests.delete requestId) :
    e'.countOutstandingRequests f ≤ e.countOutstandingRequests f :=
  countWhere_delete_le _ h

/-- A request that is taken out is not counted any more. -/
theorem count_delete_lt {e e' : Engine σ} {requestId : RequestId} {r : OutstandingRequest}
    (hr : e.outstandingRequests.get? requestId = some r)
    (h : e'.outstandingRequests = e.outstandingRequests.delete requestId) :
    e'.countOutstandingRequests r.fileId < e.countOutstandingRequests r.fileId := by
  have hperm := (OrderedMap.values_delete_perm hr).filter fun q => q.fileId = r.fileId
  have hlength := hperm.length_eq
  simp only [countOutstandingRequests, h]
  simp only [decide_true, List.filter_cons_of_pos, List.length_cons] at hlength
  omega

end Engine

variable [StorageAdapter σ] {e e' : Engine σ} {cfg : Config} {t : Turn} {G : Grant} {f : FileId}

/-- Nothing here asks for a piece of the file. -/
def Grant.Spares (G : Grant) (f : FileId) : Prop := ∀ ref id r, G (.ask ref id r) → r.fileId ≠ f

omit [StorageAdapter σ] in
theorem Grant.Mute.spares (h : G.Mute) (f : FileId) : G.Spares f :=
  fun _ _ _ hg => absurd trivial (h _ hg)

variable {p : OutstandingRequest → Bool}

theorem Change.countWhere_le (hG : ∀ ref id r, G (.ask ref id r) → p r = false)
    (h : Change t G e e') : e'.countWhere p ≤ e.countWhere p := by
  cases h with
  | ask ref m peer requestId r hm hmissing hcurrent hid hg =>
    refine (Engine.countWhere_set_le p rfl).trans ?_
    simp [hG _ _ _ hg]
  | drop requestId => exact Engine.countWhere_delete_le p rfl
  | register m =>
    refine (Engine.countWhere_of_table ?_ p).le
    unfold Engine.registerManifest
    simp only
    split <;> rfl
  | dispose => simp [Engine.countWhere, OrderedMap.empty, OrderedMap.values]
  | _ => exact le_rfl

theorem Changes.countWhere_le (hG : ∀ ref id r, G (.ask ref id r) → p r = false)
    (h : Changes t G e e') : e'.countWhere p ≤ e.countWhere p := by
  induction h with
  | refl => exact le_rfl
  | tail _ hc ih => exact (Change.countWhere_le hG hc).trans ih

theorem Changes.count_le (hG : G.Spares f) (h : Changes t G e e') :
    e'.countOutstandingRequests f ≤ e.countOutstandingRequests f :=
  h.countWhere_le fun ref id r hg => decide_eq_false (hG ref id r hg)

theorem Does.count_le {result : Engine σ × Next} (hG : G.Spares f) (h : Does cfg t G e result) :
    result.1.countOutstandingRequests f ≤ e.countOutstandingRequests f :=
  Changes.count_le hG h.changes

variable {strict : Prop}

/-- A stretch adds one request at most, and of no other kind than it asks for. -/
theorem Paced.countWhere_le_ask (h : Paced cfg t G strict e e') :
    e'.countWhere p ≤ e.countWhere p ∨
    ∃ ref id r, G (.ask ref id r) ∧ p r = true ∧ e'.countWhere p ≤ e.countWhere p + 1 := by
  have hmute : ∀ ref id r, G.mute (.ask ref id r) → p r = false :=
    fun _ _ _ hg => absurd trivial hg.2
  cases h with
  | mute h => exact .inl (h.countWhere_le hmute)
  | @asked e1 e2 ref m r l before hask hg hretry after hl =>
    have h1 := before.countWhere_le hmute
    have h2 : (e1.ask t ref m r).countWhere p ≤ e1.countWhere p + if p r = true then 1 else 0 :=
      Engine.countWhere_set_le p rfl
    have h3 := after.countWhere_le hmute
    have h4 : ({ e2 with log := e2.log ++ l } : Engine σ).countWhere p = e2.countWhere p :=
      Engine.countWhere_of_table rfl p
    by_cases hp : p r = true
    · rw [if_pos hp] at h2
      exact .inr ⟨ref, _, r, hg, hp, by omega⟩
    · rw [if_neg hp] at h2
      exact .inl (by omega)

theorem Paced.countWhere_le_succ (h : Paced cfg t G strict e e') (p : OutstandingRequest → Bool) :
    e'.countWhere p ≤ e.countWhere p + 1 := by
  obtain hle | ⟨ref, id, r, -, -, hle⟩ := h.countWhere_le_ask (p := p)
  · omega
  · exact hle

theorem Paced.count_le_ask (h : Paced cfg t G strict e e') :
    e'.countOutstandingRequests f ≤ e.countOutstandingRequests f ∨
    ∃ ref id r, G (.ask ref id r) ∧ r.fileId = f ∧
      e'.countOutstandingRequests f ≤ e.countOutstandingRequests f + 1 := by
  obtain hle | ⟨ref, id, r, hg, hp, hle⟩ := h.countWhere_le_ask (p := fun r => r.fileId = f)
  · exact .inl hle
  · exact .inr ⟨ref, id, r, hg, of_decide_eq_true hp, hle⟩

theorem Paced.count_le_succ (h : Paced cfg t G strict e e') (f : FileId) :
    e'.countOutstandingRequests f ≤ e.countOutstandingRequests f + 1 := by
  obtain hle | ⟨ref, id, r, -, -, hle⟩ := h.count_le_ask (f := f)
  · omega
  · exact hle

theorem Paced.count_le (h : Paced cfg t G strict e e') (hG : G.Spares f) :
    e'.countOutstandingRequests f ≤ e.countOutstandingRequests f := by
  obtain hle | ⟨ref, id, r, hg, hf, -⟩ := h.count_le_ask (f := f)
  · exact hle
  · exact absurd hf (hG ref id r hg)

omit [StorageAdapter σ] in
theorem Grant.spares_request {p : PeerId} {g : FileId} {options : Option DirectRequestOptions}
    (h : g ≠ f) : (Grant.request t p g options).Spares f :=
  fun _ _ _ hg => (AskedBy.file hg).trans_ne h

omit [StorageAdapter σ] in
theorem Grant.spares_grid {g : FileId} {options : GridScheduleOptions} (h : g ≠ f) :
    (Grant.grid e t g options).Spares f :=
  fun _ _ _ hg => hg.1.trans_ne h

omit [StorageAdapter σ] in
theorem Grant.spares_gridLoop {g : FileId} {options : GridScheduleOptions} {total : Number}
    (h : g ≠ f) : (Grant.gridLoop e t g options total).Spares f :=
  fun _ _ _ hg => hg.1.trans_ne h

omit [StorageAdapter σ] in
theorem Grant.spares_again {p : PeerId} {g : FileId} {options : Option GridScheduleOptions}
    (h : g ≠ f) : (Grant.again e t p g options).Spares f := by
  cases options with
  | none => exact spares_request h
  | some options => exact spares_grid h

end

namespace Engine

variable {σ : Type} [StorageAdapter σ] {e e' : Engine σ} {cfg : Config} {t : Turn} {f : FileId}

omit [StorageAdapter σ] in
theorem missing_of_current {ref : Nat} (href : e.requireManager f = .ok ref) :
    e.missing f = (e.managerAt ref).getMissingPieces := by
  simp only [missing, requireManager_eq_ok.1 href]

omit [StorageAdapter σ] in
/-- Without a missing piece nothing is asked for. -/
theorem requestNextPiece_idle (p : PeerId) (options : Option DirectRequestOptions)
    (h : e.missing f = []) : (e.requestNextPiece cfg t p f options).1 = e := by
  unfold requestNextPiece
  split
  · rfl
  · rename_i ref href
    rw [missing_of_current href] at h
    simp only [OwnerFirstScheduler.next, h, OwnerFirstScheduler.nextOf]

omit [StorageAdapter σ] in
theorem requestNextGridPiece_idle (options : GridScheduleOptions) (h : e.missing f = []) :
    (e.requestNextGridPiece cfg t f options).1 = e := by
  unfold requestNextGridPiece
  split
  · rfl
  · rename_i ref href
    rw [missing_of_current href] at h
    simp only [h, if_true]

theorem count_requestNextPiece (p : PeerId) (g : FileId) (options : Option DirectRequestOptions)
    (h : g = f → e.missing f = []) :
    (e.requestNextPiece cfg t p g options).1.countOutstandingRequests f ≤
      e.countOutstandingRequests f := by
  by_cases hg : g = f
  · subst hg
    rw [requestNextPiece_idle p options (h rfl)]
  · have hpaced : Paced cfg t (Grant.request t p g options) False e
        (e.requestNextPiece cfg t p g options).1 := paced_requestNextPiece p g options le_rfl
    exact hpaced.count_le (Grant.spares_request hg)

theorem count_requestNextGridPiece (g : FileId) (options : GridScheduleOptions)
    (h : g = f → e.missing f = []) :
    (e.requestNextGridPiece cfg t g options).1.countOutstandingRequests f ≤
      e.countOutstandingRequests f := by
  by_cases hg : g = f
  · subst hg
    rw [requestNextGridPiece_idle options (h rfl)]
  · have hpaced : Paced cfg t (Grant.grid e t g options) False e
        (e.requestNextGridPiece cfg t g options).1 := paced_requestNextGridPiece g options le_rfl
    exact hpaced.count_le (Grant.spares_grid hg)

theorem count_requestAgain (p : PeerId) (g : FileId) (options : Option GridScheduleOptions)
    (h : g ≠ f) :
    (e.requestAgain cfg t p g options).1.countOutstandingRequests f ≤
      e.countOutstandingRequests f := by
  have hpaced : Paced cfg t (Grant.again e t p g options) False e
      (e.requestAgain cfg t p g options).1 := paced_requestAgain p g options le_rfl
  exact hpaced.count_le (Grant.spares_again h)

theorem count_requestAgain_succ (p : PeerId) (g : FileId) (options : Option GridScheduleOptions) :
    (e.requestAgain cfg t p g options).1.countOutstandingRequests f ≤
      e.countOutstandingRequests f + 1 := by
  have hpaced : Paced cfg t (Grant.again e t p g options) False e
      (e.requestAgain cfg t p g options).1 := paced_requestAgain p g options le_rfl
  exact hpaced.count_le_succ f

/-- The loop of `requestGridPieceWindow` asks for nothing while its cap is reached. -/
theorem count_gridWindowLoop (g : FileId) (options : GridScheduleOptions) (total : Number)
    (scheduled : List GridScheduleResult)
    (h : g = f → total ≤ (e.countOutstandingRequests f : Number)) :
    (e.gridWindowLoop cfg t g options total scheduled).1.countOutstandingRequests f ≤
      e.countOutstandingRequests f := by
  by_cases hg : g = f
  · subst hg
    unfold gridWindowLoop
    rw [if_neg (not_lt.2 (h rfl))]
  · have hpaced : Paced cfg t (Grant.gridLoop e t g options total) False e
        (e.gridWindowLoop cfg t g options total scheduled).1 :=
      paced_gridWindowLoop g options total scheduled le_rfl False.elim
    exact hpaced.count_le (Grant.spares_gridLoop hg)

theorem count_gridWindowResult (g : FileId) (options : GridScheduleOptions) (total : Number)
    (scheduled : List GridScheduleResult) (result : GridScheduleResult)
    (h : g = f → total ≤ (e.countOutstandingRequests f : Number)) :
    (e.gridWindowResult cfg t g options total scheduled result).1.countOutstandingRequests f ≤
      e.countOutstandingRequests f := by
  unfold gridWindowResult
  split
  · exact count_gridWindowLoop g options total _ h
  · exact le_rfl

theorem count_requestGridPieceWindow (g : FileId) (options : GridScheduleOptions)
    (total perPeer : Option Number)
    (h : g = f → total.getD 1 ≤ (e.countOutstandingRequests f : Number)) :
    (e.requestGridPieceWindow cfg t g options total perPeer).1.countOutstandingRequests f ≤
      e.countOutstandingRequests f := by
  unfold requestGridPieceWindow
  simp only
  split
  · exact le_rfl
  · split
    · exact le_rfl
    · exact count_gridWindowLoop g _ _ _ h

omit [StorageAdapter σ] in
theorem count_finalizeDirectRequest (requestId : RequestId) (status : DirectTerminalReason) :
    (e.finalizeDirectRequest cfg t requestId status).1.countOutstandingRequests f ≤
      e.countOutstandingRequests f := by
  obtain ⟨-, -, htable⟩ := finalizeDirectRequest_fields e cfg t requestId status
  split at htable
  · exact count_delete_le f htable
  · exact (count_of_table htable f).le

/-- A request that is refused makes room for the one that follows it. -/
theorem count_handleReject (p : PeerId) (requestId : RequestId) (reason : Option String) :
    (e.handleReject cfg t p requestId reason).1.countOutstandingRequests f ≤
      e.countOutstandingRequests f := by
  unfold handleReject
  split
  · exact le_rfl
  · rename_i q hq
    split
    · exact le_rfl
    · have hrelease : ({ e.release q.fileId q.pieceIndex requestId with
          peerHealth := e.peerHealth.markReject cfg.log2 q.peerId } :
          Engine σ).countOutstandingRequests f = e.countOutstandingRequests f := rfl
      simp only
      split
      · exact hrelease.le
      · split
        · exact hrelease.le
        · split
          · exact hrelease.le
          · rename_i e1 he1
            obtain ⟨m, -, rfl, -⟩ := markFailed_spec he1
            split
            · exact count_finalizeDirectRequest _ _
            · rename_i hfalse
              rw [finalizeDirectRequest_false (by simpa using hfalse)]
              have hdrop : ∀ e2 : Engine σ, e2.outstandingRequests =
                  e.outstandingRequests.delete requestId →
                  e2.countOutstandingRequests f ≤ e.countOutstandingRequests f :=
                fun e2 h => count_delete_le f h
              split
              · exact hdrop _ rfl
              · split
                · split
                  · exact hdrop _ rfl
                  · rename_i e2 he2
                    obtain ⟨m2, -, rfl⟩ := resetFailedToMissing_spec he2
                    by_cases hf : q.fileId = f
                    · subst hf
                      exact (count_requestAgain_succ _ _ _).trans (count_delete_lt hq rfl)
                    · exact (count_requestAgain _ _ _ hf).trans (hdrop _ rfl)
                · exact hdrop _ rfl

theorem count_fillWindow (window : Nat) (windowKey : String) (p : PeerId) (g : FileId)
    (options : DirectRequestOptions) (scheduled : List ScheduledPiece)
    (h : g = f → e.missing f = []) :
    (e.fillWindow cfg t window windowKey p g options scheduled).1.countOutstandingRequests f ≤
      e.countOutstandingRequests f := by
  unfold fillWindow
  simp only
  split
  · exact count_requestNextPiece p g _ h
  · exact le_rfl

theorem count_persistState (e : Engine σ) (cfg : Config) (t : Turn) :
    (e.persistState t).1.countOutstandingRequests f ≤ e.countOutstandingRequests f := by
  have hdoes : Does cfg t ⊥ e (e.persistState t) := does_persistState
  exact hdoes.count_le fun _ _ _ hg => hg.elim

end Engine

/-- A continuation that asks for a piece of the file without a look at the cap. -/
def Frame.Unchecked {σ : Type} (e : Engine σ) (cfg : Config) (f : FileId) :
    Frame → Except Failure Value → Prop
  | .fillWindow _ _ _ g _ _, .ok (.piece (some _)) => g = f ∧ e.missing f ≠ []
  | .gridEndgame g _ _ _, .ok (.grid none) => g = f ∧ e.missing f ≠ []
  | .responseSent result outstanding, .ok _ =>
    result.fileId = f ∧ result.acknowledged = false ∧ outstanding.gridOptions ≠ none ∧
      ∃ ref, e.managers.get? f = some ref ∧ e.Retries cfg ref (result.pieceIndex.index?.getD 0)
  | .rejectSent _ header manager _ finalizedDirect, .ok _ =>
    header.fileId = f ∧ finalizedDirect = false ∧
      ∃ ref, manager = some ref ∧ e.Retries cfg ref header.pieceIndex
  | _, _ => False

/-- The file and the cap that a continuation of `requestGridPieceWindow` works with. -/
def Frame.loop? : Frame → Option (FileId × Number)
  | .gridEndgame f _ total _ => some (f, total)
  | .gridNext f _ total _ => some (f, total)
  | _ => none

namespace Engine

variable {σ : Type} [StorageAdapter σ] {e : Engine σ} {cfg : Config} {t : Turn} {f : FileId}

theorem count_responseSent (result : PieceReceiveResult) (outstanding : OutstandingRequest)
    (outcome : Except Failure Value)
    (h : ¬ (Frame.responseSent result outstanding).Unchecked e cfg f outcome) :
    (e.responseSent cfg t result outstanding outcome).1.countOutstandingRequests f ≤
      e.countOutstandingRequests f := by
  unfold responseSent
  split
  · exact le_rfl
  · rename_i v
    split
    · rename_i options hack hoptions
      split
      · exact le_rfl
      · rename_i ref href
        simp only
        split
        · exact le_rfl
        · rename_i piece hpiece
          split
          · rename_i hretry
            split
            · exact le_rfl
            · rename_i e1 he1
              have hf : result.fileId ≠ f := by
                rintro rfl
                refine h ⟨rfl, hack, by simp [hoptions], ref, requireManager_eq_ok.1 href, ?_⟩
                exact ⟨piece, hpiece, hretry⟩
              obtain ⟨m, -, rfl⟩ := resetFailedToMissing_spec he1
              exact count_requestNextGridPiece _ _ fun he => absurd he hf
          · exact le_rfl
    · exact le_rfl

theorem count_rejectSent (p : PeerId) (header : PieceChunkHeaderMessage) (manager : Option Nat)
    (outstanding : Option OutstandingRequest) (finalized : Bool) (outcome : Except Failure Value)
    (h : ¬ (Frame.rejectSent p header manager outstanding finalized).Unchecked e cfg f outcome) :
    (e.rejectSent cfg t p header manager outstanding finalized
      outcome).1.countOutstandingRequests f ≤ e.countOutstandingRequests f := by
  have hpersist := count_persistState (f := f)
    (e.emit (.pieceRejected header.fileId header.pieceIndex "invalid_chunk")) cfg t
  unfold rejectSent
  split
  · exact le_rfl
  · simp only
    split
    · exact hpersist
    · rename_i ref
      split
      · exact hpersist
      · rename_i hfinal
        split
        · exact le_rfl
        · rename_i piece hpiece
          split
          · rename_i hretry
            split
            · exact le_rfl
            · rename_i e1 he1
              have hf : header.fileId ≠ f := by
                rintro rfl
                exact h ⟨rfl, by simpa using hfinal, ref, rfl, piece, hpiece, hretry⟩
              obtain ⟨m, -, rfl⟩ := resetFailedToMissing_spec he1
              exact count_requestAgain _ _ _ hf
          · exact hpersist

/-- A continuation that does look at the cap adds nothing while it is reached. -/
theorem count_resume (frame : Frame) (outcome : Except Failure Value)
    (h : ¬ frame.Unchecked e cfg f outcome)
    (hcap : ∀ total, frame.loop? = some (f, total) →
      total ≤ (e.countOutstandingRequests f : Number)) :
    (e.resume cfg t outcome frame).1.countOutstandingRequests f ≤ e.countOutstandingRequests f := by
  by_cases ha : frame.Asking
  · cases frame with
    | fillWindow window windowKey p g options scheduled =>
      show (e.windowFilled cfg t window windowKey p g options scheduled
        outcome).1.countOutstandingRequests f ≤ _
      unfold windowFilled
      split
      · exact le_rfl
      · refine count_fillWindow _ _ _ _ _ _ fun hg => ?_
        by_contra hne
        exact h ⟨hg, hne⟩
      · exact le_rfl
      · exact le_rfl
    | gridEndgame g options total scheduled =>
      have hcap : g = f → total ≤ (e.countOutstandingRequests f : Number) := by
        rintro rfl
        exact hcap total rfl
      show (e.gridEndgame cfg t g options total scheduled
        outcome).1.countOutstandingRequests f ≤ _
      unfold gridEndgame
      split
      · exact le_rfl
      · exact count_gridWindowResult g options total scheduled _ hcap
      · refine count_requestNextGridPiece g options fun hg => ?_
        by_contra hne
        exact h ⟨hg, hne⟩
      · exact le_rfl
    | gridNext g options total scheduled =>
      have hcap : g = f → total ≤ (e.countOutstandingRequests f : Number) := by
        rintro rfl
        exact hcap total rfl
      show (e.gridNext cfg t g options total scheduled outcome).1.countOutstandingRequests f ≤ _
      unfold gridNext
      split
      · exact le_rfl
      · exact count_gridWindowResult g options total scheduled _ hcap
      · exact le_rfl
    | responseSent result outstanding => exact count_responseSent _ _ _ h
    | rejectSent p header manager outstanding finalized => exact count_rejectSent _ _ _ _ _ _ h
    | _ => exact ha.elim
  · have hdoes : Does cfg t (frame.grant e t outcome) e (e.resume cfg t outcome frame) :=
      does_resume frame outcome le_rfl
    exact hdoes.count_le ((Frame.grant_mute ha).spares f)

end Engine

def WindowJob.Unchecked {σ : Type} (e : Engine σ) (f : FileId) : WindowJob → Prop
  | .fill _ g _ _ => g = f ∧ e.missing f ≠ []
  | .retry _ request _ => request.fileId = f
  | .expire _ => False

namespace Engine

variable {σ : Type} [StorageAdapter σ] {e : Engine σ} {cfg : Config} {t : Turn} {f : FileId}

theorem count_runWindowJob (window : Nat) (job : WindowJob) (h : ¬ job.Unchecked e f) :
    (e.runWindowJob cfg t window job).1.countOutstandingRequests f ≤
      e.countOutstandingRequests f := by
  cases job with
  | fill p g windowKey options =>
    refine count_fillWindow _ _ _ _ _ _ fun hg => ?_
    by_contra hne
    exact h ⟨hg, hne⟩
  | retry requestId request direct =>
    have hpaced : Paced cfg t (Grant.request t request.peerId request.fileId
        (some (retryOptions direct))) False e
        (e.retryDirectRequest cfg t requestId request direct).1 :=
      paced_retryDirectRequest requestId request direct le_rfl
    exact hpaced.count_le (Grant.spares_request h)
  | expire requestId =>
    have hdoes : Does cfg t (Grant.retire requestId) e
        (e.runWindowJob cfg t window (.expire requestId)) :=
      does_runWindowJob window (.expire requestId) le_rfl
    exact hdoes.count_le ((Grant.mute_retire requestId).spares f)

theorem count_startWindowJob {window : Nat} {result : Engine σ × Next}
    (h : e.startWindowJob cfg t window = some result)
    (hjob : ∀ w job rest, e.windowHeap[window]? = some w → w.queue = job :: rest →
      ¬ job.Unchecked e f) :
    result.1.countOutstandingRequests f ≤ e.countOutstandingRequests f := by
  unfold startWindowJob at h
  split at h
  · cases h
  · rename_i w hw
    split at h
    · cases h
    · rename_i job rest hq
      split at h
      · cases h
      · simp only at h
        split at h
        · cases h
          exact le_rfl
        · cases h
          exact count_runWindowJob window job (hjob w job rest hw hq)

end Engine

/-- A continuation of the loop keeps its file and its cap. -/
theorem Frame.grant_loop {σ : Type} {e : Engine σ} {t : Turn} {frame next : Frame}
    {outcome : Except Failure Value} {x : FileId × Number}
    (h : frame.grant e t outcome (.frame next)) (hn : next.loop? = some x) :
    frame.loop? = some x := by
  cases next with
  | gridEndgame | gridNext =>
    unfold Frame.grant at h
    split at h
    all_goals first
      | exact (show False from h).elim
      | (simp [Grant.only, Grant.filling, Grant.joined, Grant.request, Grant.joining,
          Grant.creating, Grant.grid, Grant.commit, Grant.corrupt, Grant.accept,
          Grant.retire, Grant.lose, Grant.announce, Grant.assembled, Grant.receive,
          Frame.restores] at h; done)
      | (obtain (⟨_, h⟩ | ⟨_, h⟩) | ⟨_, h⟩ | ⟨_, h⟩ := h <;> cases h <;> exact hn)
      | (obtain h | h := h
         · obtain ⟨_, _, _, h⟩ | ⟨_, h⟩ | ⟨_, h⟩ := Grant.again_frame h <;> cases h
         · cases h)
  | _ => cases hn

theorem Call.grant_loop {σ : Type} {e : Engine σ} {t : Turn} {c : Call} {next : Frame}
    {x : FileId × Number} (h : c.grant e t (.frame next)) (hn : next.loop? = some x) :
    ∃ options total perPeer, c = .requestGridPieceWindow x.1 options total perPeer ∧
      x.2 = total.getD 1 := by
  cases next with
  | gridEndgame | gridNext =>
    cases c with
    | requestGridPieceWindow g options total perPeer =>
      obtain (⟨_, h⟩ | ⟨_, h⟩) | ⟨_, h⟩ | ⟨_, h⟩ := h <;> cases h
      cases hn
      exact ⟨_, _, _, rfl, rfl⟩
    | resumeFile g =>
      obtain ⟨manifest, -, h | h⟩ := h
      · simp [Grant.restoring, Frame.restores] at h
      · cases h
    | _ =>
      first
        | exact (show False from h).elim
        | simp [Call.grant, Grant.only, Grant.request, Grant.grid, Grant.receive, Grant.compete,
            Grant.expiring, Grant.retire, Grant.cancel] at h
  | _ => cases hn

/-- The grid requests for the file come from windows with the cap `n`. -/
def Call.Windowed (f : FileId) (n : Nat) : Call → Prop
  | .requestNextGridPiece g _ => g ≠ f
  | .requestGridPieceWindow g _ total _ => g = f → total.getD 1 = (n : Number)
  | _ => True

namespace World

variable {σ : Type}

def Windowed (f : FileId) (n : Nat) (x : Turn × Action) : Prop :=
  ∀ c, x.2 = .call c → c.Windowed f n

/-- The action asks for a piece of the file without a look at the cap. -/
def Unchecked (w : World σ) (cfg : Config) (f : FileId) : Action → Prop
  | .call (.requestNextPiece _ g _) => g = f ∧ w.engine.missing f ≠ []
  | .resume i => ∃ pending frame below outcome, w.tasks[i]? = some ⟨pending, frame :: below⟩ ∧
      w.engine.outcome pending = some outcome ∧ frame.Unchecked w.engine cfg f outcome
  | .window ref => ∃ window job rest, w.engine.windowHeap[ref]? = some window ∧
      window.queue = job :: rest ∧ job.Unchecked w.engine f
  | _ => False

/-- What does not look at the cap happens below it. -/
def Roomy (w : World σ) (cfg : Config) (f : FileId) (n : Nat) (a : Action) : Prop :=
  w.Unchecked cfg f a → w.engine.countOutstandingRequests f < n

/-- Every loop over the file that is under way has the cap `n`. -/
def Capped (w : World σ) (f : FileId) (n : Nat) : Prop :=
  ∀ frame, w.Holds frame → ∀ total, frame.loop? = some (f, total) → total = (n : Number)

variable [StorageAdapter σ] {cfg : Config} {w : World σ} {t : Turn} {a : Action} {f : FileId}
variable {n : Nat}

theorem Capped.step (h : w.Capped f n) (ha : Windowed f n (t, a)) :
    (w.step cfg (t, a)).Capped f n := by
  intro frame hframe total hloop
  obtain hold | hg := (step_spec cfg w t a).frames hframe
  · exact h frame hold total hloop
  · cases a with
    | call c =>
      obtain ⟨options, cap, perPeer, rfl, rfl⟩ := Call.grant_loop hg hloop
      exact ha _ rfl rfl
    | resume i =>
      obtain ⟨pending, top, below, outcome, hi, -, hg⟩ := hg
      have htop : w.Holds top := ⟨_, List.mem_of_getElem? hi, List.mem_cons_self⟩
      exact h top htop total (Frame.grant_loop hg hloop)
    | _ =>
      have hnext := grant_called (by simp) (by simp) hg
      cases frame with
      | gridEndgame | gridNext => exact absurd trivial hnext
      | _ => cases hloop

/-- While the cap is reached, only what does not look at it can add a request. -/
theorem count_step_full (hw : w.Capped f n) (ha : Windowed f n (t, a))
    (hroom : ¬ w.Unchecked cfg f a) (hfull : n ≤ w.engine.countOutstandingRequests f) :
    (w.step cfg (t, a)).engine.countOutstandingRequests f ≤
      w.engine.countOutstandingRequests f := by
  have hcap : (n : Number) ≤ (w.engine.countOutstandingRequests f : Number) := by
    exact_mod_cast hfull
  have hmute : (w.grant (t, a)).Mute →
      (w.step cfg (t, a)).engine.countOutstandingRequests f ≤
        w.engine.countOutstandingRequests f :=
    fun h => Changes.count_le (h.spares f) (step_spec cfg w t a).changes
  cases a with
  | call c =>
    by_cases hc : c.Asking
    · cases c with
      | requestNextPiece p g options =>
        refine Engine.count_requestNextPiece p g options fun hg => ?_
        by_contra hne
        exact hroom ⟨hg, hne⟩
      | requestNextGridPiece g options =>
        exact Engine.count_requestNextGridPiece g options fun hg => absurd hg (ha _ rfl)
      | requestGridPieceWindow g options total perPeer =>
        refine Engine.count_requestGridPieceWindow g options total perPeer fun hg => ?_
        rw [ha _ rfl hg]
        exact hcap
      | _ => exact hc.elim
    · exact hmute (Call.grant_mute hc)
  | message p message =>
    unfold step
    simp only [handleMessage]
    split
    · cases message with
      | none => exact le_rfl
      | some m =>
        by_cases hreject : m.type = "PIECE_REJECT"
        · simp only [spawn, Engine.handleTransportMessage, hreject, if_false, if_true,
            String.reduceEq]
          split
          · exact le_rfl
          · exact Engine.count_handleReject p _ _
        · have hdoes : Does cfg t (Grant.message w.engine t p m) w.engine
              (w.engine.handleTransportMessage cfg t p (some m)) := by
            refine Engine.does_handleTransportMessage p (some m) fun m' hm' => ?_
            cases hm'
            exact le_rfl
          exact hdoes.count_le ((Grant.mute_message p hreject).spares f)
    · exact le_rfl
  | binary p data => exact hmute ((Grant.mute_only id).sup (Grant.mute_binary p data))
  | resume i =>
    unfold step
    simp only [resumeTask]
    split
    · rename_i pending frame below hi
      split
      · rename_i outcome ho
        refine Engine.count_resume frame outcome (fun h => ?_) fun total hloop => ?_
        · exact hroom ⟨pending, frame, below, outcome, hi, ho, h⟩
        · rw [hw frame ⟨_, List.mem_of_getElem? hi, List.mem_cons_self⟩ total hloop]
          exact hcap
      · exact le_rfl
    · exact le_rfl
  | window ref =>
    unfold step
    cases h : w.engine.startWindowJob cfg t ref with
    | none =>
      simp only [h, Option.map_none, Option.getD_none]
      exact le_rfl
    | some result =>
      simp only [h, Option.map_some, Option.getD_some]
      exact Engine.count_startWindowJob h fun window job rest hwin hq hjob =>
        hroom ⟨window, job, rest, hwin, hq, hjob⟩
  | upload p => exact hmute (Grant.mute_upload p)
  | timer k =>
    refine hmute ?_
    rintro label ⟨requestId, windowKey, -, hl⟩
    exact Grant.mute_retire requestId label hl

theorem count_step (hw : w.Capped f n) (ha : Windowed f n (t, a)) (hroom : w.Roomy cfg f n a)
    (hle : w.engine.countOutstandingRequests f ≤ n) :
    (w.step cfg (t, a)).engine.countOutstandingRequests f ≤ n := by
  by_cases hlt : w.engine.countOutstandingRequests f < n
  · have hpaced : Paced cfg t (w.grant (t, a)) False w.engine (w.step cfg (t, a)).engine :=
      paced_step cfg w t a False.elim
    have hsucc := hpaced.count_le_succ f
    omega
  · have hfull : n ≤ w.engine.countOutstandingRequests f := not_lt.1 hlt
    exact (count_step_full hw ha (fun h => hlt (hroom h)) hfull).trans hle

end World

/-- Along every run in which the grid requests for a file come from windows with the cap
`n`, and what asks without a look at the cap does so below it, the cap is kept. -/
theorem grid_requests_stay_below_cap {σ : Type} [StorageAdapter σ] (cfg : Config) (storage : σ)
    (transport : Bool) (f : FileId) (n : Nat) (w : World σ)
    (h : Run (World.step cfg) (fun v x => World.Windowed f n x ∧ v.Roomy cfg f n x.2)
      (World.new storage transport) w) :
    w.engine.countOutstandingRequests f ≤ n := by
  have hend : w.Capped f n ∧ w.engine.countOutstandingRequests f ≤ n := by
    refine h.invariant (P := fun v => v.Capped f n ∧ v.engine.countOutstandingRequests f ≤ n) ?_ ?_
    · rintro v ⟨t, a⟩ ⟨hcapped, hle⟩ ⟨hwindowed, hroomy⟩
      exact ⟨hcapped.step hwindowed, World.count_step hcapped hwindowed hroomy hle⟩
    · refine ⟨?_, Nat.zero_le n⟩
      rintro frame ⟨task, htask, -⟩
      cases htask
  exact hend.2

namespace Sample

/-- A window of one request in all, two per peer. -/
def oneAtATime : Turn × Action :=
  (turn, .call (.requestGridPieceWindow "f" gridOptions (some 1) (some 2)))

def pairJoined : List (Turn × Action) :=
  [(turn, .call (.joinSession "s" [pair])), (turn, .resume 0), (turn, .resume 0)]

def oneAsked : World MemoryStorageAdapter :=
  steps (World.step config) start (pairJoined ++ [oneAtATime, (turn, .resume 1)])

theorem windowed_oneAtATime : World.Windowed "f" 1 oneAtATime := by
  intro c hc
  cases hc
  exact fun _ => by decide

theorem windowed_resume (i : Nat) : World.Windowed "f" 1 (turn, .resume i) := by
  intro c hc
  cases hc

theorem windowed_join : World.Windowed "f" 1 (turn, .call (.joinSession "s" [pair])) := by
  intro c hc
  cases hc
  trivial

end Sample

/-- One window asks for one piece. -/
theorem grid_requests_stay_below_cap_sample :
    Sample.oneAsked.engine.countOutstandingRequests "f" = 1 ∧
    Sample.oneAsked.engine.countOutstandingRequests "f" ≤ 1 := by
  refine ⟨by decide +kernel, ?_⟩
  refine grid_requests_stay_below_cap Sample.config .empty true "f" 1 _ (run_of_allowed ?_)
  refine ⟨⟨Sample.windowed_join, fun _ => ?_⟩, ⟨Sample.windowed_resume 0, fun _ => ?_⟩,
    ⟨Sample.windowed_resume 0, fun _ => ?_⟩, ⟨Sample.windowed_oneAtATime, fun _ => ?_⟩,
    ⟨Sample.windowed_resume 1, fun _ => ?_⟩, trivial⟩
  all_goals decide +kernel

/-- Two windows look at the cap before either of them has asked. -/
theorem overlapping_windows_exceed_cap :
    ∃ w, Run (World.step Sample.config) (fun _ x => World.Windowed "f" 1 x) Sample.start w ∧
      w.engine.countOutstandingRequests "f" = 2 := by
  refine ⟨steps (World.step Sample.config) Sample.start (Sample.pairJoined ++
    [Sample.oneAtATime, Sample.oneAtATime, (Sample.turn, .resume 1), (Sample.turn, .resume 2)]),
    run_of_allowed ?_, by decide +kernel⟩
  exact ⟨Sample.windowed_join, Sample.windowed_resume 0, Sample.windowed_resume 0,
    Sample.windowed_oneAtATime, Sample.windowed_oneAtATime, Sample.windowed_resume 1,
    Sample.windowed_resume 2, trivial⟩

end PonsWarp.Core
