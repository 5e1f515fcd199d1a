import PonsWarp.Core.RequestChanges

set_option autoImplicit false

/-!
The stretches of the grid scheduler.
-/

namespace PonsWarp.Core

open PonsWarp.Data

namespace Engine

variable {σ : Type} [StorageAdapter σ] {e e' e0 : Engine σ}
variable {cfg : Config} {t : Turn} {G : Grant}

/-- Recording a request of the grid for a missing piece. -/
theorem changes_gridRequest {ref i : Nat} {p : PeerId} {f : FileId} {options : GridScheduleOptions}
    (now : Number) (h : e.onManager ref (fun m => m.markRequested i p) = .ok e')
    (hmissing : i ∈ (e.managerAt ref).getMissingPieces)
    (hcurrent : e.managers.get? f = some ref) (hg : Grant.grid e0 t f options ≤ G) :
    Changes t G e { e' with
      outstandingRequests := e'.outstandingRequests.set (t.createRequestId f i)
        ⟨f, i, p, now, some options, none⟩
      issued := e'.issued ++ [t.createRequestId f i] } := by
  obtain ⟨m, hm, rfl⟩ := onManager_spec h
  exact .single (.ask e ref m p _ ⟨f, i, p, now, some options, none⟩ hm hmissing hcurrent rfl
    (hg (.ask _ _ _) ⟨rfl, rfl, rfl⟩))

theorem does_scheduleRanked (f : FileId) (ref : Nat) (options : GridScheduleOptions) (now : Number)
    (items : List RankedPiece)
    (hmissing : ∀ item ∈ items, item.index ∈ (e.managerAt ref).getMissingPieces)
    (hcurrent : e.managers.get? f = some ref) (hg : Grant.grid e0 t f options ≤ G) :
    Does cfg t G e (e.scheduleRanked cfg t f ref options now items) := by
  induction items with
  | nil => exact .stop e _
  | cons item rest ih =>
    unfold scheduleRanked
    split
    · exact .stop e _
    · split
      · exact ih fun x hx => hmissing x (List.mem_cons_of_mem _ hx)
      · rename_i provider others _
        simp only
        split
        · exact .stop e _
        · rename_i table htable
          have hlease : Changes t G e { e with availability := table } := by
            refine .single (.table e table ?_ ?_)
            · intro g n hn
              exact .inl ((PieceAvailabilityTable.count_lease htable g).symm.trans hn)
            · intro g j l hl
              obtain ⟨rfl, rfl, rfl⟩ | hold := PieceAvailabilityTable.getLease_lease htable hl
              · exact .inr rfl
              · exact .inl hold
          split
          · exact .done hlease _
          · rename_i e1 he1
            have hask := changes_gridRequest now he1
              (hmissing item List.mem_cons_self) hcurrent hg
            refine .after (hlease.trans hask) (Does.andThen (does_sendPieceRequest _ f _ ?_) ?_
              fun _ => trivial)
            · exact fun x hx => hg (.effect x) ⟨_, hx⟩
            · exact hg (.frame _) (.inl ⟨_, rfl⟩)

theorem changes_ensureAvailability {f : FileId} {options : GridScheduleOptions} {now : Number}
    (h : e.ensureAvailability f options now = .ok e')
    (hg : ∀ manifest, e.manifests.get? f = some manifest → G (.size f manifest.pieceCount)) :
    Changes t G e e' := by
  unfold ensureAvailability at h
  split at h
  · cases h
    exact .refl
  · split at h
    · cases h
    · rename_i manifest hmanifest
      split at h
      · cases h
      · rename_i changed table htable
        cases h
        refine changes_tableUpdate htable fun label hlabel => ?_
        cases label with
        | size g n =>
          obtain ⟨-, -, rfl, rfl⟩ := hlabel
          simpa using hg manifest (requireManifest_eq_ok.1 hmanifest)
        | _ => cases hlabel

omit [StorageAdapter σ] in
theorem leases_le_grid {f : FileId} {options : GridScheduleOptions} :
    Grant.leases (e.availability.expireLeases (options.time t)).1 ≤ Grant.grid e t f options := by
  have hdue : ∀ x, (∃ l ∈ (e.availability.expireLeases (options.time t)).1, l.requestId = x) →
      e.LeaseDue (options.time t) x := by
    rintro x ⟨l, hl, rfl⟩
    obtain ⟨g, i, hget, hexp⟩ := PieceAvailabilityTable.mem_expireLeases hl
    exact ⟨g, i, l, hget, rfl, hexp⟩
  intro label hlabel
  cases label with
  | drop x => exact hdue x hlabel
  | lostAssembly x => exact hdue x hlabel
  | _ => cases hlabel

omit [StorageAdapter σ] in
theorem mem_insertionSort_before {item : RankedPiece} {l : List RankedPiece}
    (h : item ∈ l.insertionSort RankedPiece.before) : item ∈ l :=
  (List.perm_insertionSort RankedPiece.before l).mem_iff.1 h

omit [StorageAdapter σ] in
theorem managers_leases {l : List RequestLease} [StorageAdapter σ]
    (h : Changes t (Grant.leases l) e e') : e'.managers = e.managers :=
  h.managers (fun _ => id) (fun _ _ => id)

theorem does_requestNextGridPiece (f : FileId) (options : GridScheduleOptions)
    (hg : Grant.grid e t f options ≤ G) :
    Does cfg t G e (e.requestNextGridPiece cfg t f options) := by
  unfold requestNextGridPiece
  split
  · exact .stop e _
  · rename_i ref href
    have hcurrent := requireManager_eq_ok.1 href
    simp only
    split
    · exact .stop e _
    · have hexpire : Changes t (Grant.leases (e.availability.expireLeases (options.time t)).1) e
          (e.expireRequestLeases cfg (options.time t)).1 := changes_expireRequestLeases _ le_rfl
      split
      · rename_i e1 err he1
        rw [show e.expireRequestLeases cfg (options.time t) = _ from he1] at hexpire
        exact .done (hexpire.mono (leases_le_grid.trans hg)) _
      · rename_i e1 he1
        rw [show e.expireRequestLeases cfg (options.time t) = _ from he1] at hexpire
        have hexpired : Changes t G e e1 := hexpire.mono (leases_le_grid.trans hg)
        split
        · exact .done hexpired _
        · rename_i e2 he2
          have hmanifests : e1.manifests = e.manifests := hexpire.manifests fun _ => id
          have hensure : Changes t (Grant.grid e t f options) e1 e2 :=
            changes_ensureAvailability he2 fun manifest hm => ⟨rfl, manifest, hmanifests ▸ hm, rfl⟩
          have hensured : Changes t G e e2 := hexpired.trans (hensure.mono hg)
          have hrank := changes_rankPieces (t := t) (G := ⊥) (e := e2) f (e2.managerAt ref)
            (candidateSet options) options.ownerPeerId (options.maxRequestsPerPeer.getD 1)
            (activePerPeer e2.outstandingRequests.values) (options.time t)
            (e.managerAt ref).getMissingPieces
          split
          · rename_i e3 err he3
            rw [show rankPieces f (e2.managerAt ref) (candidateSet options) options.ownerPeerId
              (options.maxRequestsPerPeer.getD 1) (activePerPeer e2.outstandingRequests.values)
              (options.time t) (e.managerAt ref).getMissingPieces e2 = _ from he3] at hrank
            exact .done (hensured.trans (hrank.mono bot_le)) _
          · rename_i e3 ranked he3
            rw [show rankPieces f (e2.managerAt ref) (candidateSet options) options.ownerPeerId
              (options.maxRequestsPerPeer.getD 1) (activePerPeer e2.outstandingRequests.values)
              (options.time t) (e.managerAt ref).getMissingPieces e2 = _ from he3] at hrank
            refine .after (hensured.trans (hrank.mono bot_le))
              (does_scheduleRanked f ref options _ _ ?_ ?_ hg)
            · intro item hitem
              have hin := mem_rankPieces he3 (List.mem_of_mem_filter (mem_insertionSort_before hitem))
              have h1 := hexpire.missing (fun _ _ => id) (fun _ _ _ => id) hin
              have h2 : item.index ∈ (e2.managerAt ref).getMissingPieces := by
                unfold ensureAvailability at he2
                split at he2
                · cases he2
                  exact h1
                · split at he2
                  · cases he2
                  · split at he2
                    · cases he2
                    · cases he2
                      exact h1
              exact hrank.missing (fun _ _ => id) (fun _ _ _ => id) h2
            · have h1 : e1.managers = e.managers := managers_leases hexpire
              have h2 : e2.managers = e1.managers :=
                hensure.managers (fun _ => id) (fun _ _ => id)
              have h3 : e3.managers = e2.managers := hrank.managers (fun _ => id) (fun _ _ => id)
              rw [h3, h2, h1]
              exact hcurrent

theorem does_scheduleEndgame (f : FileId) (ref : Nat) (options : GridScheduleOptions)
    (active : PeerId → Nat) (now : Number) (missing : List Nat)
    (hmissing : ∀ i ∈ missing, i ∈ (e.managerAt ref).getMissingPieces)
    (hcurrent : e.managers.get? f = some ref) (hg : Grant.grid e0 t f options ≤ G) :
    Does cfg t G e (e.scheduleEndgame cfg t f ref options active now missing) := by
  induction missing generalizing e with
  | nil => exact .stop e _
  | cons i rest ih =>
    have hrest : ∀ j ∈ rest, j ∈ (e.managerAt ref).getMissingPieces :=
      fun j hj => hmissing j (List.mem_cons_of_mem _ hj)
    unfold scheduleEndgame
    simp only
    split
    · exact ih hrest hcurrent
    · have hrank := changes_rankProviders (t := t) (G := G) (e := e) f i (candidateSet options)
        options.ownerPeerId (options.maxRequestsPerPeer.getD 1) active now
      split
      · exact .after hrank (ih hrest hcurrent)
      · rename_i provider others _
        split
        · exact .done hrank _
        · rename_i e1 he1
          have hask := changes_gridRequest now he1 (hmissing i List.mem_cons_self) hcurrent
            hg
          refine .after (hrank.trans hask) (Does.andThen (does_sendPieceRequest _ f _ ?_) ?_
            fun _ => trivial)
          · exact fun x hx => hg (.effect x) ⟨_, hx⟩
          · exact hg (.frame _) (.inr ⟨_, rfl⟩)

theorem does_maybeScheduleEndgamePiece (f : FileId) (options : GridScheduleOptions)
    (hg : Grant.grid e t f options ≤ G) :
    Does cfg t G e (e.maybeScheduleEndgamePiece cfg t f options) := by
  unfold maybeScheduleEndgamePiece
  split
  · exact .stop e _
  · split
    · exact .stop e _
    · rename_i ref href
      have hcurrent := requireManager_eq_ok.1 href
      simp only
      split
      · exact .stop e _
      · have hexpire : Changes t (Grant.leases (e.availability.expireLeases (options.time t)).1) e
            (e.expireRequestLeases cfg (options.time t)).1 := changes_expireRequestLeases _ le_rfl
        split
        · rename_i e1 err he1
          rw [show e.expireRequestLeases cfg (options.time t) = _ from he1] at hexpire
          exact .done (hexpire.mono (leases_le_grid.trans hg)) _
        · rename_i e1 he1
          rw [show e.expireRequestLeases cfg (options.time t) = _ from he1] at hexpire
          refine .after (hexpire.mono (leases_le_grid.trans hg))
            (does_scheduleEndgame f ref options _ _ _ ?_ ?_ hg)
          · exact fun i hi => hexpire.missing (fun _ _ => id) (fun _ _ _ => id) hi
          · rw [managers_leases hexpire]
            exact hcurrent

theorem does_gridWindowLoop (f : FileId) (options : GridScheduleOptions) (total : Number)
    (scheduled : List GridScheduleResult) (hg : Grant.gridLoop e t f options total ≤ G) :
    Does cfg t G e (e.gridWindowLoop cfg t f options total scheduled) := by
  unfold gridWindowLoop
  split
  · exact (does_maybeScheduleEndgamePiece f options (Grant.grid_le_gridLoop.trans hg)).andThen
      (hg (.frame _) (.inr (.inl ⟨scheduled, rfl⟩))) fun _ => trivial
  · exact .stop e _

theorem does_gridWindowResult (f : FileId) (options : GridScheduleOptions) (total : Number)
    (scheduled : List GridScheduleResult) (result : GridScheduleResult)
    (hg : Grant.gridLoop e t f options total ≤ G) :
    Does cfg t G e (e.gridWindowResult cfg t f options total scheduled result) := by
  unfold gridWindowResult
  split
  · exact does_gridWindowLoop f options total _ hg
  · exact .stop e _

/-- The options `requestGridPieceWindow` schedules with. -/
def gridWindowOptions (options : GridScheduleOptions) (perPeer : Option Number) :
    GridScheduleOptions :=
  { options with
    maxRequestsPerPeer := some (perPeer.getD (options.maxRequestsPerPeer.getD 1)) }

theorem does_requestGridPieceWindow (f : FileId) (options : GridScheduleOptions)
    (total perPeer : Option Number)
    (hg : Grant.gridLoop e t f (gridWindowOptions options perPeer) (total.getD 1) ≤ G) :
    Does cfg t G e (e.requestGridPieceWindow cfg t f options total perPeer) := by
  unfold requestGridPieceWindow
  simp only
  split
  · exact .stop e _
  · split
    · exact .stop e _
    · exact does_gridWindowLoop f _ _ _ hg

theorem does_gridEndgame (f : FileId) (options : GridScheduleOptions) (total : Number)
    (scheduled : List GridScheduleResult) (outcome : Except Failure Value)
    (hg : Grant.gridLoop e t f options total ≤ G) :
    Does cfg t G e (e.gridEndgame cfg t f options total scheduled outcome) := by
  unfold gridEndgame
  split
  · exact .stop e _
  · exact does_gridWindowResult f options total _ _ hg
  · exact (does_requestNextGridPiece f options (Grant.grid_le_gridLoop.trans hg)).andThen
      (hg (.frame _) (.inr (.inr ⟨scheduled, rfl⟩))) fun _ => trivial
  · exact .stop e _

theorem does_gridNext (f : FileId) (options : GridScheduleOptions) (total : Number)
    (scheduled : List GridScheduleResult) (outcome : Except Failure Value)
    (hg : Grant.gridLoop e t f options total ≤ G) :
    Does cfg t G e (e.gridNext cfg t f options total scheduled outcome) := by
  unfold gridNext
  split
  · exact .stop e _
  · exact does_gridWindowResult f options total _ _ hg
  · exact .stop e _

theorem does_gridSent (result : GridScheduleResult) (outcome : Except Failure Value)
    (hg : G (.frame (.gridPersisted result))) :
    Does cfg t G e (e.gridSent t result outcome) := by
  unfold gridSent
  split
  · exact .stop e _
  · exact does_persistState.andThen hg fun _ => trivial

theorem does_thenReturn (v : Value) (outcome : Except Failure Value) :
    Does cfg t G e (e.thenReturn v outcome) := by
  unfold thenReturn
  split <;> exact .stop e _

theorem does_windowFilled (window : Nat) (windowKey : String) (p : PeerId) (f : FileId)
    (options : DirectRequestOptions) (scheduled : List ScheduledPiece)
    (outcome : Except Failure Value)
    (hg : Grant.request t p f (some { options with windowKey := some windowKey }) ≤ G)
    (hframe : ∀ scheduled, G (.frame (.fillWindow window windowKey p f options scheduled))) :
    Does cfg t G e (e.windowFilled cfg t window windowKey p f options scheduled outcome) := by
  unfold windowFilled
  split
  · exact .stop e _
  · exact does_fillWindow _ _ _ _ _ _ hg (hframe _)
  · exact .stop e _
  · exact .stop e _

end Engine

end PonsWarp.Core
