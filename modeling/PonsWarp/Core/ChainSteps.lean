import Mathlib.Algebra.Order.BigOperators.Group.List
import PonsWarp.Core.WindowChains

set_option autoImplicit false

/-!
What a step of a world does to the chains of its windows. A window runs exactly while one task
has the end of its job before it, so that a job ends only in a chain that is running.
-/

namespace PonsWarp.Core

open PonsWarp.Data

/-- The continuation that comes back to the chain of a window. -/
def Frame.ends (ref : Nat) : Frame → Bool
  | .windowJob r _ => decide (r = ref)
  | _ => false

theorem Frame.ends_iff {frame : Frame} {ref : Nat} :
    frame.ends ref = true ↔ ∃ track, frame = .windowJob ref track := by
  constructor
  · intro h
    cases frame with
    | windowJob r track => exact ⟨track, by rw [of_decide_eq_true h]⟩
    | _ => cases h
  · rintro ⟨track, rfl⟩
    exact decide_eq_true rfl

theorem Next.task_stack (next : Next) (below : List Frame) :
    (next.task below).stack = next.frames ++ below := by
  cases next <;> rfl

theorem Next.frames_andThen (next : Next) (frame : Frame) :
    (next.andThen frame).frames = next.frames ++ [frame] := by
  cases next <;> rfl

/-- No job of a window leaves the end of a job before it. -/
theorem Grant.windowJob_ends {t : Turn} {window ref : Nat} {job : WindowJob} {frame : Frame}
    (h : Grant.windowJob t window job (.frame frame)) : frame.ends ref = false := by
  cases job with
  | fill p f key options =>
    obtain ⟨manager, scheduled, rfl⟩ | h := h
    · rfl
    · cases h
      rfl
  | retry x r d =>
    obtain ⟨manager, scheduled, rfl⟩ := h
    rfl
  | expire x => exact h.elim

theorem sum_map_set {α : Type} (f : α → Nat) {l : List α} {i : Nat} {a : α} (b : α)
    (h : l[i]? = some a) : ((l.set i b).map f).sum + f a = (l.map f).sum + f b := by
  induction l generalizing i with
  | nil => cases h
  | cons x rest ih =>
    cases i with
    | zero =>
      obtain rfl : x = a := Option.some.inj h
      simp only [List.set_cons_zero, List.map_cons, List.sum_cons]
      omega
    | succ i =>
      have hrest := ih h
      simp only [List.set_cons_succ, List.map_cons, List.sum_cons]
      omega

namespace Engine

variable {σ : Type} {e : Engine σ} {cfg : Config} {t : Turn} {P : Prop}

theorem takes_of_put {ref : Nat} {w w' : DirectWindow} {key : String}
    (hw : e.windowHeap[ref]? = some w) (hd : w'.disabled = w.disabled)
    (h : (e.putWindow ref w').ledger.Takes key) : e.ledger.Takes key := by
  obtain ⟨hlive, ref', w1, hw1, hd1⟩ := takes_iff.1 h
  refine takes_iff.2 ⟨hlive, ref', ?_⟩
  obtain ⟨hget, hheap⟩ := window?_spec hw1
  unfold window?
  simp only [show e.directWindows.get? key = some ref' from hget]
  simp only [putWindow, List.getElem?_set] at hheap
  split at hheap
  · rename_i href
    subst href
    split at hheap
    · cases hheap
      exact ⟨w, by rw [hw]; rfl, hd ▸ hd1⟩
    · cases hheap
  · exact ⟨w1, by rw [hheap]; rfl, hd1⟩

/-- The first job of a chain starts, and what it does up to its first await may put in others. -/
theorem lanes_startWindowJob {ref : Nat} {result : Engine σ × Next}
    (h : e.startWindowJob cfg t ref = some result)
    (hP : ∀ w x rest, e.windowHeap[ref]? = some w → w.queue = .expire x :: rest →
      w.running = false → w.disabled = false → e.ledger.Requeues cfg.maxRetries x → P) :
    ∃ w job rest, e.windowHeap[ref]? = some w ∧ w.queue = job :: rest ∧ w.running = false ∧
      Feeding P (e.lanes.set ref (w.lane.start rest)) result.1.lanes := by
  unfold startWindowJob at h
  split at h
  · cases h
  · rename_i w hw
    split at h
    · cases h
    · rename_i job rest hq
      split at h
      · cases h
      · rename_i hrunning
        have hr : w.running = false := by simpa using hrunning
        have hput : (e.putWindow ref { w with queue := rest, running := true }).lanes =
            e.lanes.set ref (w.lane.start rest) := lanes_put e ref _
        have hrun : w.disabled = false →
            Feeds P (e.putWindow ref { w with queue := rest, running := true })
              ((e.putWindow ref { w with queue := rest, running := true }).runWindowJob cfg t ref
                job).1 := by
          intro hd
          refine feeds_runWindowJob _ ref job fun x hx hrequeues => ?_
          subst hx
          obtain ⟨d, hdirect, hcount, hkey, htakes⟩ := hrequeues
          have hdis : ({ w with queue := rest, running := true } : DirectWindow).disabled =
              w.disabled := rfl
          exact hP w x rest hw hq hr hd ⟨d, hdirect, hcount, hkey, takes_of_put hw hdis htakes⟩
        rw [Feeds, hput] at hrun
        refine ⟨w, job, rest, hw, hq, hr, ?_⟩
        simp only at h
        split at h
        · cases h
          exact Relation.ReflTransGen.refl.trans (by rw [← hput])
        · rename_i hlive
          cases h
          exact hrun (by simpa using fun hd => hlive (.inl hd))

/-- The task of a window that starts has the end of its job at the bottom, and only there. -/
theorem ends_startWindowJob [StorageAdapter σ] {ref r : Nat} {result : Engine σ × Next}
    (h : e.startWindowJob cfg t ref = some result) :
    result.2.frames.countP (Frame.ends r) = if r = ref then 1 else 0 := by
  have hlast : ∀ track, [Frame.windowJob ref track].countP (Frame.ends r) =
      if r = ref then 1 else 0 := by
    intro track
    by_cases hr : r = ref
    · simp [Frame.ends, hr]
    · simp [Frame.ends, hr, Ne.symm hr]
  unfold startWindowJob at h
  split at h
  · cases h
  · rename_i w hw
    split at h
    · cases h
    · rename_i job rest hq
      split at h
      · cases h
      · have hrun : Does cfg t (Grant.windowJob t ref job)
            (e.putWindow ref { w with queue := rest, running := true })
            ((e.putWindow ref { w with queue := rest, running := true }).runWindowJob cfg t ref
              job) := does_runWindowJob ref job le_rfl
        have hnone : (((e.putWindow ref { w with queue := rest, running := true }).runWindowJob cfg
            t ref job).2.frames).countP (Frame.ends r) = 0 := by
          refine List.countP_eq_zero.2 fun frame hframe => ?_
          rw [Grant.windowJob_ends (hrun.frames frame hframe)]
          exact Bool.false_ne_true
        simp only at h
        split at h
        · cases h
          rw [Next.frames_andThen, List.countP_append, hlast]
          exact Nat.zero_add _
        · cases h
          rw [Next.frames_andThen, List.countP_append, hlast, hnone, Nat.zero_add]

end Engine

namespace World

variable {σ : Type}

/-- How many tasks have the end of a job of the window before them. -/
def jobs (w : World σ) (ref : Nat) : Nat :=
  (w.tasks.map fun task => task.stack.countP (Frame.ends ref)).sum

theorem jobs_spawn (w : World σ) (result : Engine σ × Next) (ref : Nat) :
    (w.spawn result).jobs ref = w.jobs ref + result.2.frames.countP (Frame.ends ref) := by
  simp [jobs, spawn, Next.task_stack]

theorem jobs_resumed {w : World σ} {i : Nat} {pending : Pending} {top : Frame} {below : List Frame}
    (hi : w.tasks[i]? = some ⟨pending, top :: below⟩) (e : Engine σ) (next : Next) (ref : Nat) :
    ({ w with engine := e, tasks := w.tasks.set i (next.task below) } : World σ).jobs ref +
        (if top.ends ref = true then 1 else 0) =
      w.jobs ref + next.frames.countP (Frame.ends ref) := by
  have hsum := sum_map_set (fun task : Task => task.stack.countP (Frame.ends ref))
    (next.task below) hi
  simp only [Next.task_stack, List.countP_append, List.countP_cons] at hsum
  simp only [jobs]
  omega

theorem jobs_pos {w : World σ} {i ref : Nat} {task : Task} {frame : Frame}
    (hi : w.tasks[i]? = some task) (hframe : frame ∈ task.stack) (h : frame.ends ref = true) :
    0 < w.jobs ref := by
  have hcount : 0 < task.stack.countP (Frame.ends ref) := List.countP_pos_iff.2 ⟨frame, hframe, h⟩
  have hmem : task.stack.countP (Frame.ends ref) ∈
      w.tasks.map fun task => task.stack.countP (Frame.ends ref) :=
    List.mem_map_of_mem (List.mem_of_getElem? hi)
  exact hcount.trans_le (List.le_sum_of_mem hmem)

/-- Every job of a chain is waiting, at work or done, and a chain is at work exactly while one
task has the end of its job before it. -/
structure Orderly (w : World σ) : Prop where
  balanced : ∀ l ∈ w.engine.lanes, l.Balanced
  jobs : ∀ ref, w.jobs ref = runs w.engine.lanes ref

/-- The step may retire a request so that its retry is queued: a send that failed, a mismatch
that was saved, a deadline whose turn has come. -/
def Retries (cfg : Config) (w : World σ) : Action → Prop
  | .resume i => ∃ pending frame below outcome, w.tasks[i]? = some ⟨pending, frame :: below⟩ ∧
      w.engine.outcome pending = some outcome ∧ frame.Retries cfg w.engine.ledger outcome
  | .window ref => ∃ window x rest, w.engine.windowHeap[ref]? = some window ∧
      window.queue = .expire x :: rest ∧ window.running = false ∧ window.disabled = false ∧
      w.engine.ledger.Requeues cfg.maxRetries x
  | .upload _ => False
  | _ => True

/-- Whether the next job of the window is a deadline that queues a retry. -/
def expiresNext (cfg : Config) (w : World σ) (ref : Nat) : Bool :=
  (w.engine.windowHeap[ref]?).any fun window =>
    match window.queue with
    | .expire x :: _ => !window.running && !window.disabled &&
        decide (w.engine.ledger.Requeues cfg.maxRetries x)
    | _ => false

theorem expiresNext_iff {cfg : Config} {w : World σ} {ref : Nat} :
    w.expiresNext cfg ref = true ↔ w.Retries cfg (.window ref) := by
  constructor
  · intro h
    obtain ⟨window, hw, h⟩ := (Option.any_eq_true _ _).1 h
    split at h
    · rename_i x rest hq
      simp only [Bool.and_eq_true, Bool.not_eq_true', decide_eq_true_eq] at h
      exact ⟨window, x, rest, hw, hq, h.1.1, h.1.2, h.2⟩
    · cases h
  · rintro ⟨window, x, rest, hw, hq, hr, hd, h⟩
    simp [expiresNext, hw, hq, hr, hd, h]

/-- Whether the task goes on with the failure of a request that queues a retry. -/
def failsNext (cfg : Config) (w : World σ) (i : Nat) : Bool :=
  match w.tasks[i]? with
  | some ⟨pending, frame :: _⟩ =>
    (w.engine.outcome pending).any fun outcome => decide (frame.Retries cfg w.engine.ledger outcome)
  | _ => false

theorem failsNext_iff {cfg : Config} {w : World σ} {i : Nat} :
    w.failsNext cfg i = true ↔ w.Retries cfg (.resume i) := by
  unfold failsNext
  constructor
  · intro h
    split at h
    · rename_i pending frame below hi
      obtain ⟨outcome, ho, h⟩ := (Option.any_eq_true _ _).1 h
      exact ⟨pending, frame, below, outcome, hi, ho, of_decide_eq_true h⟩
    · cases h
  · rintro ⟨pending, frame, below, outcome, hi, ho, h⟩
    simp [hi, ho, h]

instance (cfg : Config) (w : World σ) (a : Action) : Decidable (w.Retries cfg a) :=
  match a with
  | .resume _ => decidable_of_iff _ failsNext_iff
  | .window _ => decidable_of_iff _ expiresNext_iff
  | .upload _ => inferInstanceAs (Decidable False)
  | .call _ | .message .. | .binary .. | .timer _ => inferInstanceAs (Decidable True)

/-- What a step does to the chains. -/
inductive LaneStep (P : Prop) (w : World σ) (a : Action) (w' : World σ) : Prop
  | feed (hfeed : Engine.Feeds P w.engine w'.engine) (hjobs : ∀ ref, w'.jobs ref = w.jobs ref)
  | start (ref : Nat) (window : DirectWindow) (job : WindowJob) (rest : List WindowJob)
      (ha : a = .window ref) (hw : w.engine.windowHeap[ref]? = some window)
      (hq : window.queue = job :: rest) (hr : window.running = false)
      (hfeed : Feeding P (w.engine.lanes.set ref (window.lane.start rest)) w'.engine.lanes)
      (hjobs : ∀ r, w'.jobs r = w.jobs r + if r = ref then 1 else 0)
  | finish (i ref : Nat) (pending : Pending) (track : Bool) (below : List Frame)
      (window : DirectWindow) (ha : a = .resume i)
      (hi : w.tasks[i]? = some ⟨pending, .windowJob ref track :: below⟩)
      (hw : w.engine.windowHeap[ref]? = some window) (hr : window.running = true)
      (hlanes : w'.engine.lanes = w.engine.lanes.set ref window.lane.finish)
      (hjobs : ∀ r, w'.jobs r + (if r = ref then 1 else 0) = w.jobs r)

section

variable [StorageAdapter σ] {w : World σ} {cfg : Config} {t : Turn} {a : Action} {P : Prop}

omit [StorageAdapter σ] in
/-- The end of a job is only left by the chain itself. -/
theorem ends_granted {frame : Frame} {ref : Nat} (ha : ∀ r, a ≠ .window r)
    (h : w.grant (t, a) (.frame frame)) : frame.ends ref = false := by
  by_contra hends
  obtain ⟨track, rfl⟩ := Frame.ends_iff.1 (by simpa using hends)
  obtain hwindow | ⟨i, pending, below, key, p, f, options, scheduled, more, -, -, hnext⟩ :=
    grant_works h (show (Frame.windowJob ref track).worksFor ref from rfl)
  · exact ha ref hwindow
  · cases hnext

omit [StorageAdapter σ] in
theorem countP_granted {frames : List Frame} (ref : Nat) (ha : ∀ r, a ≠ .window r)
    (h : ∀ frame ∈ frames, w.grant (t, a) (.frame frame)) : frames.countP (Frame.ends ref) = 0 := by
  refine List.countP_eq_zero.2 fun frame hframe => ?_
  rw [ends_granted ha (h frame hframe)]
  exact Bool.false_ne_true

theorem jobs_other (hresume : ∀ i, a ≠ .resume i) (hwindow : ∀ r, a ≠ .window r) (ref : Nat) :
    (w.step cfg (t, a)).jobs ref = w.jobs ref := by
  have hspec := step_spec cfg w t a
  generalize w.step cfg (t, a) = w' at hspec ⊢
  cases hspec with
  | alone _ e fired h => rfl
  | spawn _ hr result h => rw [jobs_spawn, countP_granted ref hwindow h.frames, Nat.add_zero]
  | resume i => exact absurd rfl (hresume i)

omit [StorageAdapter σ] in
/-- A chain whose job is about to end is running. -/
theorem Orderly.running (h : w.Orderly) {i ref : Nat} {task : Task} {track : Bool}
    (hi : w.tasks[i]? = some task) (hframe : .windowJob ref track ∈ task.stack) :
    ∃ window, w.engine.windowHeap[ref]? = some window ∧ window.running = true := by
  have hpos := jobs_pos hi hframe (Frame.ends_iff.2 ⟨track, rfl⟩)
  rw [h.jobs ref] at hpos
  cases hw : w.engine.windowHeap[ref]? with
  | none => simp [runs, Engine.lanes, hw] at hpos
  | some window =>
    refine ⟨window, rfl, ?_⟩
    rw [runs, Engine.getElem?_lanes hw] at hpos
    cases hr : window.running with
    | true => rfl
    | false => simp [DirectWindow.lane, hr] at hpos

theorem lane_step (h : w.Orderly) (hP : w.Retries cfg a → P) :
    LaneStep P w a (w.step cfg (t, a)) := by
  cases a with
  | call c => exact .feed (Engine.feeds_call w.engine c (hP trivial)) (jobs_other (by simp) (by simp))
  | message p message =>
    refine .feed ?_ (jobs_other (by simp) (by simp))
    unfold step
    simp only [handleMessage]
    split
    · exact Engine.feeds_handleTransportMessage w.engine p message (hP trivial)
    · exact .refl
  | binary p data =>
    refine .feed ?_ (jobs_other (by simp) (by simp))
    unfold step
    simp only [handleBinary, Engine.handleTransportBinary]
    split
    · split
      · exact .refl
      · exact (Engine.feeds_appendIncomingChunk _ p _ data (hP trivial)).from_eq rfl
    · exact .refl
  | upload p =>
    refine .feed (.of_eq ?_) (jobs_other (by simp) (by simp))
    unfold step
    simp only [Engine.startUploadJob]
    repeat' split
    all_goals first
      | rfl
      | exact Engine.lanes_sendRequestedPiece ..
  | timer k =>
    refine .feed ?_ (jobs_other (by simp) (by simp))
    unfold step
    simp only [fireTimer]
    split
    · split
      · exact Engine.feeds_timerFired w.engine _ _ (hP trivial)
      · exact .refl
    · exact .refl
  | window ref =>
    unfold step
    cases hstart : w.engine.startWindowJob cfg t ref with
    | none =>
      simp only [hstart, Option.map_none, Option.getD_none]
      exact .feed .refl fun _ => rfl
    | some result =>
      simp only [hstart, Option.map_some, Option.getD_some]
      obtain ⟨window, job, rest, hw, hq, hr, hfeed⟩ := Engine.lanes_startWindowJob hstart
        fun window x rest hw hq hr hd hrequeues => hP ⟨window, x, rest, hw, hq, hr, hd, hrequeues⟩
      refine .start ref window job rest rfl hw hq hr hfeed fun r => ?_
      rw [jobs_spawn, Engine.ends_startWindowJob hstart]
  | resume i =>
    unfold step
    simp only [resumeTask]
    split
    · rename_i pending frame below hi
      split
      · rename_i outcome ho
        have hcount : ∀ ref, (w.engine.resume cfg t outcome frame).2.frames.countP
            (Frame.ends ref) = 0 := fun ref => by
          have hdoes : Does cfg t (frame.grant w.engine t outcome) w.engine
              (w.engine.resume cfg t outcome frame) := Engine.does_resume frame outcome le_rfl
          exact countP_granted (t := t) (a := .resume i) ref (by simp) fun next hnext =>
            ⟨pending, frame, below, outcome, hi, ho, hdoes.frames next hnext⟩
        have hjobs := fun ref => jobs_resumed hi (w.engine.resume cfg t outcome frame).1
          (w.engine.resume cfg t outcome frame).2 ref
        simp only [hcount, Nat.add_zero] at hjobs
        by_cases hjob : ∃ ref track, frame = .windowJob ref track
        · obtain ⟨ref, track, rfl⟩ := hjob
          obtain ⟨window, hw, hr⟩ := h.running hi List.mem_cons_self
          refine .finish i ref pending track below window rfl hi hw hr ?_ fun r => ?_
          · show (w.engine.windowJobEnded ref track outcome).1.lanes = _
            simp only [Engine.windowJobEnded, hw]
            exact Engine.lanes_put w.engine ref _
          · have hr' := hjobs r
            simp only [Frame.ends, decide_eq_true_iff] at hr'
            rw [← hr']
            simp only [eq_comm]
        · have hnot : ∀ ref track, frame ≠ .windowJob ref track :=
            fun ref track heq => hjob ⟨ref, track, heq⟩
          refine .feed (Engine.feeds_resume frame outcome hnot fun hretries =>
            hP ⟨pending, frame, below, outcome, hi, ho, hretries⟩) fun ref => ?_
          have hends : frame.ends ref = false := by
            by_contra hends
            exact hjob ⟨ref, Frame.ends_iff.1 (by simpa using hends)⟩
          have href := hjobs ref
          simp only [hends, Bool.false_eq_true, if_false, Nat.add_zero] at href
          exact href
      · exact .feed .refl fun _ => rfl
    · exact .feed .refl fun _ => rfl

/-- Under a step the chains stay in order. -/
theorem Orderly.step (h : w.Orderly) : (w.step cfg (t, a)).Orderly := by
  have hstep : LaneStep True w a (w.step cfg (t, a)) := lane_step h fun _ => trivial
  cases hstep with
  | feed hfeed hjobs =>
    refine ⟨Feeding.balanced hfeed h.balanced, fun ref => ?_⟩
    rw [hjobs, Feeding.runs hfeed, h.jobs]
  | start ref window job rest ha hw hq hr hfeed hjobs =>
    have hlane := Engine.getElem?_lanes hw
    have hstarted : ∀ l ∈ w.engine.lanes.set ref (window.lane.start rest), l.Balanced := by
      intro l hl
      obtain hold | rfl := List.mem_or_eq_of_mem_set hl
      · exact h.balanced l hold
      · exact (h.balanced _ (List.mem_of_getElem? hlane)).start hq hr
    refine ⟨Feeding.balanced hfeed hstarted, fun r => ?_⟩
    rw [hjobs, Feeding.runs hfeed, runs_set hlane, h.jobs]
    split
    · rename_i hrr
      subst hrr
      simp [runs, hlane, DirectWindow.lane, Lane.start, hr]
    · rfl
  | finish i ref pending track below window ha hi hw hr hlanes hjobs =>
    have hlane := Engine.getElem?_lanes hw
    refine ⟨fun l hl => ?_, fun r => ?_⟩
    · rw [hlanes] at hl
      obtain hold | rfl := List.mem_or_eq_of_mem_set hl
      · exact h.balanced l hold
      · exact (h.balanced _ (List.mem_of_getElem? hlane)).finish hr
    · have hr' := hjobs r
      rw [h.jobs] at hr'
      rw [hlanes, runs_set hlane]
      split at hr'
      · rename_i hrr
        subst hrr
        simp only [runs, hlane, Option.map_some, Option.getD_some, DirectWindow.lane, hr,
          Bool.toNat_true] at hr'
        simp only [if_true, Lane.finish, Bool.toNat_false]
        omega
      · rename_i hrr
        rw [if_neg hrr]
        exact hr'

omit [StorageAdapter σ] in
theorem orderly_new (storage : σ) (transport : Bool) : (World.new storage transport).Orderly :=
  ⟨nofun, fun _ => rfl⟩

end

end World

end PonsWarp.Core
