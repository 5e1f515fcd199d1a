import PonsWarp.Core.Disposal
import PonsWarp.Core.GridOrder

set_option autoImplicit false

/-!
The answer `complete` of the grid. It is given when no piece is missing or failed; a piece that
has been asked for, and one that was restored as received, is neither.
-/

namespace PonsWarp.Core

open PonsWarp.Data

namespace PieceManager

variable {m m' : PieceManager} {i : Nat}

/-- No piece is on its way in chunks. The engine never marks one so. -/
def Unreceiving (m : PieceManager) : Prop := ∀ s ∈ m.states, s.status ≠ .receiving

theorem unreceiving_update {patch : PieceState → PieceState}
    (hst : ∀ s, s.status ≠ .receiving → (patch s).status ≠ .receiving)
    (h : m.update i patch = .ok m') (hm : m.Unreceiving) : m'.Unreceiving := by
  unfold update at h
  cases hs : m.requirePiece i with
  | error err => simp [hs] at h
  | ok s =>
    simp only [hs, Except.ok.injEq] at h
    subst h
    intro x hx
    rcases List.mem_or_eq_of_mem_set hx with hold | rfl
    · exact hm x hold
    · exact hst s (hm s (List.mem_of_getElem? (requirePiece_eq_ok.1 hs).1))

theorem unreceiving_new (f : FileId) (pieces : List PieceDescriptor) :
    (new f pieces).Unreceiving := by
  simp [Unreceiving, new]

theorem unreceiving_markRequested {p : PeerId} (h : m.markRequested i p = .ok m')
    (hm : m.Unreceiving) : m'.Unreceiving := unreceiving_update (by simp) h hm

theorem unreceiving_markVerified (h : m.markVerified i = .ok m') (hm : m.Unreceiving) :
    m'.Unreceiving := unreceiving_update (by simp) h hm

theorem unreceiving_markFailed {reason : String} (h : m.markFailed i reason = .ok m')
    (hm : m.Unreceiving) : m'.Unreceiving := unreceiving_update (by simp) h hm

theorem unreceiving_resetFailedToMissing (h : m.resetFailedToMissing i = .ok m')
    (hm : m.Unreceiving) : m'.Unreceiving := by
  refine unreceiving_update (fun s hs => ?_) h hm
  split <;> simp_all

/-- A piece that was on its way when the map was made is missing again. -/
theorem unreceiving_importPieces {l : List PieceState} (h : m.importPieces l = .ok m')
    (hm : m.Unreceiving) : m'.Unreceiving := by
  induction l generalizing m with
  | nil =>
    cases h
    exact hm
  | cons imported rest ih =>
    unfold importPieces at h
    split at h
    · cases h
    · rename_i m1 h1
      refine ih h (unreceiving_update (fun s hs => ?_) h1 hm)
      unfold importPiece
      split <;> simp_all

theorem unreceiving_importPieceMap {pieceMap : PieceMap} (h : m.importPieceMap pieceMap = .ok m')
    (hm : m.Unreceiving) : m'.Unreceiving := by
  unfold importPieceMap at h
  split at h
  · cases h
  · exact unreceiving_importPieces h hm

end PieceManager

section

variable {σ : Type} [StorageAdapter σ] {t : Turn} {G : Grant} {e e' : Engine σ}

theorem Change.unreceiving (hc : Change t G e e')
    (hinstall : ∀ f m, G (.install f m) → m.Unreceiving)
    (h : ∀ m ∈ e.heap, m.Unreceiving) : ∀ m ∈ e'.heap, m.Unreceiving := by
  have hat : ∀ ref, (e.managerAt ref).Unreceiving := by
    intro ref
    unfold Engine.managerAt
    cases href : e.heap[ref]? with
    | none => simp [PieceManager.Unreceiving]
    | some m => exact h m (List.mem_of_getElem? href)
  have hput : ∀ r m, m.Unreceiving → ∀ x ∈ (e.putManager r m).heap, x.Unreceiving := by
    intro r m hm x hx
    rcases List.mem_or_eq_of_mem_set hx with hold | rfl
    · exact h x hold
    · exact hm
  have hadd : ∀ m : PieceManager, m.Unreceiving → ∀ x ∈ e.heap ++ [m], x.Unreceiving := by
    intro m hm x hx
    rcases List.mem_append.1 hx with hold | hnew
    · exact h x hold
    · exact List.mem_singleton.1 hnew ▸ hm
  cases hc with
  | fail r i reason m hm => exact hput r m (PieceManager.unreceiving_markFailed hm (hat r))
  | reset r i m hm => exact hput r m (PieceManager.unreceiving_resetFailedToMissing hm (hat r))
  | verify r i m hm => exact hput r m (PieceManager.unreceiving_markVerified hm (hat r))
  | ask r m p x q hm => exact hput r m (PieceManager.unreceiving_markRequested hm (hat r))
  | register m hg =>
    unfold Engine.registerManifest
    simp only
    split
    · exact h
    · exact hadd _ (PieceManager.unreceiving_new _ _)
  | install f m hg => exact hadd m (hinstall f m hg)
  | _ => exact h

end

namespace World

variable {σ : Type} [StorageAdapter σ] {w : World σ} {cfg : Config} {x : Turn × Action}

/-- Neither the managers in use nor those that are being restored have such a piece. -/
structure Unreceiving (w : World σ) : Prop where
  heap : ∀ m ∈ w.engine.heap, m.Unreceiving
  restores : ∀ task ∈ w.tasks, task.Restores fun _ m => m.Unreceiving

theorem Unreceiving.step (h : w.Unreceiving) : (w.step cfg x).Unreceiving where
  heap := by
    refine Changes.keeps (P := fun e => ∀ m ∈ e.heap, m.Unreceiving) ?_
      (step_spec cfg w x.1 x.2).changes h.heap
    intro e e' hc he
    exact hc.unreceiving (fun f m hg => grant_install h.restores hg) he
  restores := by
    refine step_restores h.restores ?_ ?_
    · intro f manifest pieceMap m _ _ hm
      exact PieceManager.unreceiving_importPieceMap hm (PieceManager.unreceiving_new _ _)
    · intro f i reason m m' m'' hm hfail hreset
      exact PieceManager.unreceiving_resetFailedToMissing hreset
        (PieceManager.unreceiving_markFailed hfail hm)

theorem unreceiving_of_run {storage : σ} {transport : Bool}
    (h : Run (World.step cfg) (fun _ _ => True) (.new storage transport) w) : w.Unreceiving :=
  h.invariant (fun _ _ hw _ => hw.step) ⟨by simp [World.new, Engine.new], by simp [World.new]⟩

end World

/-! ### Where the answer comes from -/

/-- The value does not say that the file is complete. -/
def Value.Unanswered : Value → Prop
  | .grid result => result ≠ some (.idle "complete")
  | .grids results => .idle "complete" ∉ results
  | _ => True

def Pending.Unanswered : Pending → Prop
  | .settled (.ok v) => v.Unanswered
  | _ => True

/-- A continuation of a grid window of the file that knows of no such answer yet. -/
def Frame.Unanswered (f : FileId) : Frame → Prop
  | .gridSent result | .gridPersisted result | .endgameSent result => result ≠ .idle "complete"
  | .gridEndgame g _ _ scheduled | .gridNext g _ _ scheduled =>
    g = f ∧ .idle "complete" ∉ scheduled
  | _ => False

def Next.Unanswered (f : FileId) : Next → Prop
  | .await pending frames => pending.Unanswered ∧ ∀ frame ∈ frames, frame.Unanswered f
  | .done outcome => (Pending.settled outcome).Unanswered

def Task.Unanswered (f : FileId) (task : Task) : Prop :=
  task.pending.Unanswered ∧ ∀ frame ∈ task.stack, frame.Unanswered f

section

variable {f : FileId} {next : Next} {frame : Frame} {below : List Frame}

theorem Next.Unanswered.andThen (h : next.Unanswered f) (hframe : frame.Unanswered f) :
    (next.andThen frame).Unanswered f := by
  cases next with
  | await pending frames =>
    refine ⟨h.1, fun fr hfr => ?_⟩
    rcases List.mem_append.1 hfr with hfr | hfr
    · exact h.2 fr hfr
    · exact List.mem_singleton.1 hfr ▸ hframe
  | done outcome => exact ⟨h, by simpa using hframe⟩

theorem Next.Unanswered.task (h : next.Unanswered f) (hbelow : ∀ fr ∈ below, fr.Unanswered f) :
    (next.task below).Unanswered f := by
  cases next with
  | await pending frames =>
    refine ⟨h.1, fun fr hfr => ?_⟩
    rcases List.mem_append.1 hfr with hfr | hfr
    · exact h.2 fr hfr
    · exact hbelow fr hfr
  | done outcome => exact ⟨h, hbelow⟩

end

namespace Engine

variable {σ : Type} {e : Engine σ} {cfg : Config} {t : Turn} {f : FileId}

/-- No piece of the file is missing or failed, as its manager has it. -/
def NothingMissing (e : Engine σ) (f : FileId) : Prop :=
  ∃ ref, e.managers.get? f = some ref ∧ (e.managerAt ref).getMissingPieces = []

theorem unanswered_send (p : PeerId) (m : TransferMessage) :
    (e.send t p m).2.Unanswered f := by
  unfold send
  split
  · refine ⟨?_, by simp⟩
    cases t.sendFailure p <;> trivial
  · trivial

theorem unanswered_persistState [StorageAdapter σ] : (e.persistState t).2.Unanswered f := by
  unfold persistState
  split
  · trivial
  · split
    · trivial
    · unfold storageCall
      split
      · exact ⟨trivial, by simp⟩
      · refine ⟨?_, by simp⟩
        split <;> trivial

variable [StorageAdapter σ]

omit [StorageAdapter σ] in
theorem unanswered_scheduleRanked (ref : Nat) (options : GridScheduleOptions) (now : Number)
    (pieces : List RankedPiece) :
    (e.scheduleRanked cfg t f ref options now pieces).2.Unanswered f := by
  induction pieces with
  | nil => simp [scheduleRanked, Next.ok, Next.Unanswered, Pending.Unanswered, Value.Unanswered]
  | cons item rest ih =>
    unfold scheduleRanked
    split
    · simp [Next.ok, Next.Unanswered, Pending.Unanswered, Value.Unanswered]
    · split
      · exact ih
      · simp only
        split
        · trivial
        · split
          · trivial
          · exact (unanswered_send _ _).andThen (by simp [Frame.Unanswered])

omit [StorageAdapter σ] in
/-- The answer is given exactly when no piece is missing or failed. -/
theorem requestNextGridPiece_complete_iff (options : GridScheduleOptions) :
    (e.requestNextGridPiece cfg t f options).2.answer? = some (.idle "complete") ↔
      e.NothingMissing f := by
  unfold requestNextGridPiece requireManager
  cases href : e.managers.get? f with
  | none => simp [NothingMissing, href, Next.throw, Next.answer?]
  | some ref =>
    simp only [NothingMissing, href, Option.some.injEq, exists_eq_left']
    split
    · rename_i hnone
      simpa [Next.ok, Next.answer?] using hnone
    · rename_i hsome
      simp only [hsome, iff_false]
      have hun : ∀ next : Next, next.Unanswered f → next.answer? ≠ some (.idle "complete") := by
        intro next h ha
        unfold Next.answer? at ha
        split at ha
        · exact h ha
        · cases ha
      split
      · simp [Next.throw, Next.answer?]
      · split
        · simp [Next.throw, Next.answer?]
        · split
          · simp [Next.throw, Next.answer?]
          · exact hun _ (unanswered_scheduleRanked _ _ _ _)

omit [StorageAdapter σ] in
theorem unanswered_requestNextGridPiece (options : GridScheduleOptions)
    (h : ¬ e.NothingMissing f) : (e.requestNextGridPiece cfg t f options).2.Unanswered f := by
  unfold requestNextGridPiece requireManager
  cases href : e.managers.get? f with
  | none => trivial
  | some ref =>
    simp only
    split
    · rename_i hnone
      exact absurd ⟨ref, href, hnone⟩ h
    · split
      · trivial
      · split
        · trivial
        · split
          · trivial
          · exact unanswered_scheduleRanked _ _ _ _

omit [StorageAdapter σ] in
theorem unanswered_scheduleEndgame (ref : Nat) (options : GridScheduleOptions)
    (active : PeerId → Nat) (now : Number) (indices : List Nat) :
    (e.scheduleEndgame cfg t f ref options active now indices).2.Unanswered f := by
  induction indices generalizing e with
  | nil => simp [scheduleEndgame, Next.ok, Next.Unanswered, Pending.Unanswered, Value.Unanswered]
  | cons i rest ih =>
    unfold scheduleEndgame
    simp only
    split
    · exact ih
    · split
      · exact ih
      · split
        · trivial
        · exact (unanswered_send _ _).andThen (by simp [Frame.Unanswered])

omit [StorageAdapter σ] in
theorem unanswered_maybeScheduleEndgamePiece (options : GridScheduleOptions) :
    (e.maybeScheduleEndgamePiece cfg t f options).2.Unanswered f := by
  have hnone : (Next.ok (.grid none)).Unanswered f := by
    simp [Next.ok, Next.Unanswered, Pending.Unanswered, Value.Unanswered]
  unfold maybeScheduleEndgamePiece
  split
  · exact hnone
  · split
    · trivial
    · simp only
      split
      · exact hnone
      · split
        · trivial
        · exact unanswered_scheduleEndgame _ _ _ _ _

variable {options : GridScheduleOptions} {total : Number} {scheduled : List GridScheduleResult}

omit [StorageAdapter σ] in
theorem unanswered_gridWindowLoop (h : .idle "complete" ∉ scheduled) :
    (e.gridWindowLoop cfg t f options total scheduled).2.Unanswered f := by
  unfold gridWindowLoop
  split
  · exact (unanswered_maybeScheduleEndgamePiece options).andThen ⟨rfl, h⟩
  · exact h

omit [StorageAdapter σ] in
theorem unanswered_gridWindowResult {result : GridScheduleResult}
    (h : .idle "complete" ∉ scheduled) (hr : result ≠ .idle "complete") :
    (e.gridWindowResult cfg t f options total scheduled result).2.Unanswered f := by
  unfold gridWindowResult
  split
  · refine unanswered_gridWindowLoop ?_
    simp only [List.mem_append, List.mem_singleton, not_or]
    exact ⟨h, Ne.symm hr⟩
  · show .idle "complete" ∉ (if scheduled = [] then [result] else scheduled)
    split
    · simpa [eq_comm] using hr
    · exact h

omit [StorageAdapter σ] in
/-- A window learns that the file is complete from `requestNextGridPiece`, when no piece is
missing or failed. -/
theorem unanswered_gridEndgame {outcome : Except Failure Value} (hm : ¬ e.NothingMissing f)
    (ho : (Pending.settled outcome).Unanswered) (h : .idle "complete" ∉ scheduled) :
    (e.gridEndgame cfg t f options total scheduled outcome).2.Unanswered f := by
  unfold gridEndgame
  split
  · trivial
  · rename_i result
    exact unanswered_gridWindowResult h fun hr => ho (hr ▸ rfl)
  · exact (unanswered_requestNextGridPiece options hm).andThen ⟨rfl, h⟩
  · exact ho

omit [StorageAdapter σ] in
theorem unanswered_gridNext {outcome : Except Failure Value}
    (ho : (Pending.settled outcome).Unanswered) (h : .idle "complete" ∉ scheduled) :
    (e.gridNext cfg t f options total scheduled outcome).2.Unanswered f := by
  unfold gridNext
  split
  · trivial
  · rename_i result
    exact unanswered_gridWindowResult h fun hr => ho (hr ▸ rfl)
  · exact ho

/-- A stretch of a window, while there is a piece that is missing or failed. -/
theorem unanswered_resume (cfg : Config) (t : Turn) {outcome : Except Failure Value} {frame : Frame}
    (hm : ¬ e.NothingMissing f) (ho : (Pending.settled outcome).Unanswered)
    (hframe : frame.Unanswered f) : (e.resume cfg t outcome frame).2.Unanswered f := by
  have hreturn : ∀ result : GridScheduleResult, result ≠ .idle "complete" →
      (e.thenReturn (.grid (some result)) outcome).2.Unanswered f := by
    intro result hr
    unfold thenReturn
    split
    · trivial
    · simpa [Next.ok, Next.Unanswered, Pending.Unanswered, Value.Unanswered] using hr
  cases frame with
  | gridSent result =>
    unfold resume gridSent
    simp only
    split
    · trivial
    · exact unanswered_persistState.andThen hframe
  | gridPersisted result => exact hreturn result hframe
  | endgameSent result => exact hreturn result hframe
  | gridEndgame g options total scheduled =>
    obtain ⟨rfl, h⟩ := hframe
    exact unanswered_gridEndgame hm ho h
  | gridNext g options total scheduled =>
    obtain ⟨rfl, h⟩ := hframe
    exact unanswered_gridNext ho h
  | _ => exact hframe.elim

omit [StorageAdapter σ] in
theorem unanswered_requestGridPieceWindow (perPeer total : Option Number) :
    (e.requestGridPieceWindow cfg t f options total perPeer).2.Unanswered f := by
  unfold requestGridPieceWindow
  simp only
  split
  · trivial
  · split
    · trivial
    · exact unanswered_gridWindowLoop (by simp)

/-- The pieces of the file's manifest. -/
def pieces (e : Engine σ) (f : FileId) : List PieceDescriptor :=
  ((e.manifests.get? f).map (·.pieces)).getD []

def AllVerified (e : Engine σ) (f : FileId) : Prop :=
  ∀ d ∈ e.pieces f, e.status? f d.index = some .verified

/-- The manager has every piece of the manifest, and none of them is requested or received. -/
def NoneUnderWay (e : Engine σ) (f : FileId) : Prop :=
  ∀ d ∈ e.pieces f, e.status? f d.index ∉ [none, some .requested, some .received]

instance (e : Engine σ) (f : FileId) : Decidable (e.AllVerified f) :=
  inferInstanceAs (Decidable (∀ _ ∈ _, _))

instance (e : Engine σ) (f : FileId) : Decidable (e.NoneUnderWay f) :=
  inferInstanceAs (Decidable (∀ _ ∈ _, _))

omit [StorageAdapter σ] in
theorem allVerified_iff (hu : ∀ m ∈ e.heap, m.Unreceiving) (h : e.NothingMissing f) :
    e.AllVerified f ↔ e.NoneUnderWay f := by
  obtain ⟨ref, href, hnone⟩ := h
  have hstatus : ∀ i st, e.status? f i = some st →
      st = .verified ∨ st = .requested ∨ st = .received := by
    intro i st hst
    simp only [status?, href] at hst
    have hmissing : ∀ bad, bad = .missing ∨ bad = .failed → st ≠ bad := by
      rintro bad hbad rfl
      have hmem : i ∈ (e.managerAt ref).getMissingPieces :=
        PieceManager.mem_getMissingPieces_of_status (by rcases hbad with rfl | rfl <;> simp [hst])
      simp [hnone] at hmem
    obtain ⟨s, hs, rfl⟩ := PieceManager.status?_eq_some.1 hst
    have hreceiving : s.status ≠ .receiving := by
      have hget := List.mem_of_getElem? (PieceManager.requirePiece_eq_ok.1 hs).1
      unfold managerAt at hget
      cases hm : e.heap[ref]? with
      | none => simp [hm] at hget
      | some m =>
        rw [hm] at hget
        exact hu m (List.mem_of_getElem? hm) s hget
    have hfailed := hmissing .failed (.inr rfl)
    have hgone := hmissing .missing (.inl rfl)
    cases hcase : s.status <;> simp_all
  constructor
  · intro hall d hd
    simp [hall d hd]
  · intro hnone d hd
    have hbad := hnone d hd
    cases hst : e.status? f d.index with
    | none => simp [hst] at hbad
    | some st => rcases hstatus _ _ hst with rfl | rfl | rfl <;> simp_all

end Engine

namespace World

variable {σ : Type} [StorageAdapter σ] {w w' : World σ} {cfg : Config} {t : Turn} {f : FileId}
variable {i : Nat} {task : Task}

/-- While a piece is missing or failed, a window does not come to know the answer. -/
theorem unanswered_step (x : Turn × Action) (hi : w.tasks[i]? = some task)
    (htask : task.Unanswered f) (hm : ¬ w.engine.NothingMissing f) :
    ∃ task', (w.step cfg x).tasks[i]? = some task' ∧ task'.Unanswered f := by
  obtain ⟨t, a⟩ := x
  by_cases ha : a = .resume i
  · subst ha
    obtain ⟨pending, stack⟩ := task
    cases stack with
    | nil => exact ⟨_, by simp [step, resumeTask, hi], htask⟩
    | cons frame below =>
      simp only [step, resumeTask, hi]
      split
      · rename_i outcome ho
        have hout : (Pending.settled outcome).Unanswered := by
          rcases outcome_eq_some ho with rfl | rfl
          · exact htask.1
          · trivial
        have hlt := (List.getElem?_eq_some_iff.1 hi).1
        have hnext := Engine.unanswered_resume cfg t hm hout
          (htask.2 frame List.mem_cons_self)
        refine ⟨_, List.getElem?_set_self hlt, hnext.task fun fr hfr => ?_⟩
        exact htask.2 fr (List.mem_cons_of_mem _ hfr)
      · exact ⟨_, hi, htask⟩
  · exact ⟨task, tasks_step ha hi, htask⟩

/-- A window that has the answer got it at a moment when no piece was missing or failed. -/
theorem answered_at (h : Run (World.step cfg) (fun _ _ => True) w w')
    (hi : w.tasks[i]? = some task) (htask : task.Unanswered f) :
    (∃ task', w'.tasks[i]? = some task' ∧ task'.Unanswered f) ∨
    ∃ v, Run (World.step cfg) (fun _ _ => True) w v ∧
      Run (World.step cfg) (fun _ _ => True) v w' ∧ v.engine.NothingMissing f := by
  induction h with
  | refl => exact .inl ⟨task, hi, htask⟩
  | tail x hrun hx ih =>
    rename_i u
    rcases ih with ⟨task', hi', htask'⟩ | ⟨v, hv, hvu, hm⟩
    · by_cases hm : u.engine.NothingMissing f
      · exact .inr ⟨u, hrun, .tail x (.refl u) hx, hm⟩
      · exact .inl (unanswered_step x hi' htask' hm)
    · exact .inr ⟨v, hv, .tail x hvu hx, hm⟩

end World

/-- `requestNextGridPiece` answers `complete` of a file that is not exactly when no piece is
missing or failed but one is requested, was restored as received, or is unknown to the manager;
and when a window answers so, it passes on such an answer that it got meanwhile. -/
theorem complete_means_verified {σ : Type} [StorageAdapter σ] (cfg : Config) (storage : σ)
    (transport : Bool) (w : World σ)
    (hw : Run (World.step cfg) (fun _ _ => True) (.new storage transport) w) (t : Turn)
    (f : FileId) (options : GridScheduleOptions) :
    (((w.engine.requestNextGridPiece cfg t f options).2.answer? = some (.idle "complete") →
        w.engine.AllVerified f) ↔ (w.engine.NothingMissing f → w.engine.NoneUnderWay f)) ∧
    ∀ total perPeer w' results,
      Run (World.step cfg) (fun _ _ => True)
        (w.step cfg (t, .call (.requestGridPieceWindow f options total perPeer))) w' →
      w'.tasks[w.tasks.length]? = some ⟨.settled (.ok (.grids results)), []⟩ →
      .idle "complete" ∈ results →
      ∃ v, Run (World.step cfg) (fun _ _ => True)
          (w.step cfg (t, .call (.requestGridPieceWindow f options total perPeer))) v ∧
        Run (World.step cfg) (fun _ _ => True) v w' ∧
        (∀ t' options', (v.engine.requestNextGridPiece cfg t' f options').2.answer? =
          some (.idle "complete")) ∧
        (v.engine.AllVerified f ↔ v.engine.NoneUnderWay f) := by
  constructor
  · rw [Engine.requestNextGridPiece_complete_iff]
    have hiff := fun h => Engine.allVerified_iff (f := f) (World.unreceiving_of_run hw).heap h
    exact ⟨fun h hm => (hiff hm).1 (h hm), fun h hm => (hiff hm).2 (h hm)⟩
  · intro total perPeer w' results hrun hi hmem
    have hstart : (w.step cfg (t, .call (.requestGridPieceWindow f options total perPeer))).tasks[
        w.tasks.length]? = some ((w.engine.requestGridPieceWindow cfg t f options total
          perPeer).2.task []) := by
      simp [World.step, Engine.call, World.spawn]
    have hun : ((w.engine.requestGridPieceWindow cfg t f options total perPeer).2.task
        []).Unanswered f :=
      (Engine.unanswered_requestGridPieceWindow perPeer total).task (by simp)
    rcases World.answered_at hrun hstart hun with ⟨task, hi', htask⟩ | ⟨v, hv, hvw, hm⟩
    · rw [hi] at hi'
      cases hi'
      exact absurd hmem htask.1
    · have hreach : Run (World.step cfg) (fun _ _ => True) (.new storage transport) v :=
        (Run.tail _ hw trivial).trans hv
      exact ⟨v, hv, hvw, fun t' options' => Engine.requestNextGridPiece_complete_iff options' |>.2 hm,
        Engine.allVerified_iff (World.unreceiving_of_run hreach).heap hm⟩

namespace Sample

/-- The only piece has been asked for, and then it has come. -/
def askedAndCome : List (Turn × Action) :=
  joined ++ [(turn, .call (.requestNextGridPiece "f" gridOptions)), (turn, .resume 1),
    (turn, .resume 1), (turn, .call (.receivePiece "f" 0 "req_f_0_0_a" [1] none)),
    (turn, .resume 2), (turn, .resume 2), (turn, .resume 2), (turn, .resume 2)]

end Sample

theorem complete_means_verified_sample :
    (steps (World.step Sample.config) Sample.start Sample.askedAndCome).engine.AllVerified "f" := by
  have hiff := (complete_means_verified Sample.config MemoryStorageAdapter.empty true
    (steps (World.step Sample.config) Sample.start Sample.askedAndCome)
    (run_steps Sample.start Sample.askedAndCome) Sample.turn "f" Sample.gridOptions).1
  have hanswer : ((steps (World.step Sample.config) Sample.start
      Sample.askedAndCome).engine.requestNextGridPiece Sample.config Sample.turn "f"
        Sample.gridOptions).2.answer? = some (.idle "complete") := by decide +kernel
  have hnone : (steps (World.step Sample.config) Sample.start
      Sample.askedAndCome).engine.NoneUnderWay "f" := by decide +kernel
  exact hiff.2 (fun _ => hnone) hanswer

/-- The only piece of a file has been asked for, and the grid calls the file complete. -/
theorem requested_piece_is_complete : ¬ ∀ (w : World MemoryStorageAdapter),
    Run (World.step Sample.config) (fun _ _ => True) Sample.start w →
    ∀ (t : Turn) (f : FileId) (options : GridScheduleOptions),
      (w.engine.requestNextGridPiece Sample.config t f options).2.answer? =
        some (.idle "complete") → w.engine.AllVerified f := by
  intro h
  have hall := h _ (run_steps _ (Sample.joined ++
    [(Sample.turn, .call (.requestNextGridPiece "f" Sample.gridOptions))])) Sample.turn "f"
    Sample.gridOptions (by decide +kernel)
  revert hall
  decide +kernel

end PonsWarp.Core
