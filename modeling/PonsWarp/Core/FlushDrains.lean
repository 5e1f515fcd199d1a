import PonsWarp.Core.ChainSteps
import PonsWarp.Core.Disposal

set_option autoImplicit false

/-!
What `flushDirectLifecycle` has waited for when it resolves. It counts the jobs of every chain
once; a job that is put in later, such as the retry of a request that a counted job made, is
not among them.
-/

namespace PonsWarp.Core

open PonsWarp.Data

/-- What goes on by itself: no call, message, frame or timer. -/
def Action.internal : Action → Bool
  | .resume _ | .window _ | .upload _ => true
  | _ => false

namespace Engine

variable {σ : Type} {e e' e1 : Engine σ} {cfg : Config} {t : Turn}

/-- Windows that have fallen out of the table have no work left. -/
def OrphansIdle (e : Engine σ) : Prop :=
  ∀ ref window, e.windowHeap[ref]? = some window → ref ∉ e.directWindows.values →
    window.queue = [] ∧ window.running = false

/-- The table is the same, and so are the chains of the windows outside of it. -/
def KeepsOrphans (e e' : Engine σ) : Prop :=
  e'.directWindows = e.directWindows ∧
    ∀ ref, ref ∉ e.directWindows.values → e'.lanes[ref]? = e.lanes[ref]?

theorem KeepsOrphans.of_eq (hw : e'.directWindows = e.directWindows) (hl : e'.lanes = e.lanes) :
    e.KeepsOrphans e' :=
  ⟨hw, fun _ _ => by rw [hl]⟩

theorem KeepsOrphans.trans (h : e.KeepsOrphans e1) (h' : e1.KeepsOrphans e') :
    e.KeepsOrphans e' := by
  refine ⟨h'.1.trans h.1, fun ref href => ?_⟩
  rw [h'.2 ref (by rwa [h.1]), h.2 ref href]

theorem keepsOrphans_enqueueWindow (e : Engine σ) (key : String) (job : WindowJob) :
    e.KeepsOrphans (e.enqueueWindow key job) := by
  unfold enqueueWindow
  split
  · rename_i ref w hw
    split
    · exact .of_eq rfl rfl
    · refine ⟨rfl, fun ref' href' => ?_⟩
      have hne : ref ≠ ref' := by
        rintro rfl
        exact href' (OrderedMap.mem_values_iff.2 ⟨key, (window?_spec hw).1⟩)
      rw [lanes_put, List.getElem?_set_ne hne]
  · exact .of_eq rfl rfl

theorem keepsOrphans_finalizeDirectRequest (e : Engine σ) (x : RequestId)
    (status : DirectTerminalReason) :
    e.KeepsOrphans (e.finalizeDirectRequest cfg t x status).1 := by
  cases hb : (e.outstandingRequests.get? x).bind (·.direct) with
  | none =>
    rw [finalizeDirectRequest_other status hb]
    exact .of_eq rfl rfl
  | some d =>
    obtain ⟨r, hr, hd⟩ := Option.bind_eq_some_iff.1 hb
    unfold finalizeDirectRequest
    simp only [hr, hd]
    split
    · split
      · exact .of_eq rfl rfl
      · exact KeepsOrphans.trans (.of_eq rfl rfl) (keepsOrphans_enqueueWindow _ _ _)
    · split
      · split
        · rename_i ref w hw
          split
          · exact .of_eq rfl rfl
          · exact .of_eq rfl (lanes_putWindow (window?_spec hw).2 rfl)
        · exact .of_eq rfl rfl
      · exact .of_eq rfl rfl

theorem keepsOrphans_expireDirectRequests (now : Number)
    (requests : List (RequestId × OutstandingRequest)) (e : Engine σ) :
    e.KeepsOrphans (expireDirectRequests cfg t now requests e).1 := by
  induction requests generalizing e with
  | nil => exact .of_eq rfl rfl
  | cons entry rest ih =>
    obtain ⟨x, request⟩ := entry
    unfold expireDirectRequests
    split
    · split
      · split
        · exact .of_eq rfl rfl
        · rename_i e1 he1
          refine KeepsOrphans.trans ?_ (ih e1)
          unfold expireDirectRequest at he1
          split at he1
          · cases he1
            exact .of_eq rfl rfl
          · split at he1
            · cases he1
              exact .of_eq rfl rfl
            · split at he1
              · cases he1
              · rename_i e2 he2
                cases he1
                have hwindows : e2.directWindows = e.directWindows :=
                  congrArg Ledger.windows (ledger_markFailedIfKnown he2)
                have hlanes := lanes_markFailedIfKnown he2
                have hmark : e.KeepsOrphans e2 := .of_eq hwindows hlanes
                exact hmark.trans (KeepsOrphans.trans (.of_eq rfl rfl)
                  (keepsOrphans_finalizeDirectRequest _ x _))
      · exact ih e
    · exact ih e

end Engine

/-- A chain is idle, or was given no more jobs than are waited for. -/
def Draining (waits : List (Nat × Nat)) (lanes : List (Lane WindowJob)) : Prop :=
  ∀ ref l, lanes[ref]? = some l → l.Idle ∨ ∃ n, (ref, n) ∈ waits ∧ l.enqueued ≤ n

theorem Draining.fed {waits : List (Nat × Nat)} {lanes lanes' : List (Lane WindowJob)}
    (h : Draining waits lanes) (hfed : Fed False lanes lanes') : Draining waits lanes' := by
  cases hfed with
  | push i l job hl hp => exact hp.elim
  | make =>
    intro ref l hl
    by_cases hlt : ref < lanes.length
    · exact h ref l (by rwa [List.getElem?_append_left hlt] at hl)
    · rw [List.getElem?_append_right (not_lt.1 hlt)] at hl
      obtain rfl := List.mem_singleton.1 (List.mem_of_getElem? hl)
      exact .inl ⟨rfl, rfl⟩

theorem Draining.feed {waits : List (Nat × Nat)} {lanes lanes' : List (Lane WindowJob)}
    (h : Draining waits lanes) (hfeed : Feeding False lanes lanes') : Draining waits lanes' := by
  induction hfeed with
  | refl => exact h
  | tail _ hlast ih => exact ih.fed hlast

theorem Draining.put {waits : List (Nat × Nat)} {lanes : List (Lane WindowJob)} {ref : Nat}
    {l l' : Lane WindowJob} (h : Draining waits lanes) (hl : lanes[ref]? = some l)
    (hbusy : ¬ l.Idle) (hl' : l'.enqueued = l.enqueued) : Draining waits (lanes.set ref l') := by
  intro r m hm
  have hlt := (List.getElem?_eq_some_iff.1 hl).1
  by_cases hr : r = ref
  · subst hr
    obtain rfl : l' = m := by simpa [hlt] using hm
    rw [hl']
    exact .inr ((h r l hl).resolve_left hbusy)
  · exact h r m (by rwa [List.getElem?_set_ne (Ne.symm hr)] at hm)

namespace World

variable {σ : Type}

/-- The promise that the task computes is fulfilled. -/
def fulfilled (w : World σ) (i : Nat) : Bool :=
  match w.tasks[i]? with
  | some ⟨.settled (.ok _), []⟩ => true
  | _ => false

/-- The retry of the request waits in a chain, or a chain is at work. -/
def RetryOpen (w : World σ) (x : RequestId) : Prop :=
  ∃ window ∈ w.engine.windowHeap, (∃ r d, .retry x r d ∈ window.queue) ∨ window.running = true

/-- No chain has a job left, and every retry that was announced has been made or dropped. -/
structure Drained (w : World σ) : Prop where
  idle : ∀ window ∈ w.engine.windowHeap, window.queue = [] ∧ window.running = false
  retries : ∀ event, Effect.emit (.requestTerminal event) ∈ w.engine.log →
    event.willRetry = true → ¬ w.RetryOpen event.requestId

/-- A flush waits, has failed, or nothing is left to wait for. -/
def Flushing (w : World σ) (i : Nat) : Prop :=
  (∃ waits windows, w.tasks[i]? = some ⟨.windows waits, [.flushed windows]⟩ ∧
    Draining waits w.engine.lanes) ∨
  (∃ err, w.tasks[i]? = some ⟨.settled (.error err), []⟩) ∨
  Draining [] w.engine.lanes

theorem drained {w : World σ} (h : Draining [] w.engine.lanes) : w.Drained := by
  have hidle : ∀ window ∈ w.engine.windowHeap, window.queue = [] ∧ window.running = false := by
    intro window hwindow
    obtain ⟨ref, href⟩ := List.mem_iff_getElem?.1 hwindow
    obtain hidle | ⟨n, hn, -⟩ := h ref window.lane (Engine.getElem?_lanes href)
    · exact hidle
    · cases hn
  refine ⟨hidle, fun event _ _ => ?_⟩
  rintro ⟨window, hwindow, ⟨r, d, hjob⟩ | hr⟩
  · rw [(hidle window hwindow).1] at hjob
    cases hjob
  · rw [(hidle window hwindow).2] at hr
    cases hr

/-- What was waited for is there: the chains that were counted have nothing left. -/
theorem Orderly.drained {w : World σ} (h : w.Orderly) {waits : List (Nat × Nat)}
    (hd : Draining waits w.engine.lanes) {outcome : Except Failure Value}
    (ho : w.engine.outcome (.windows waits) = some outcome) : Draining [] w.engine.lanes := by
  intro ref l hl
  left
  obtain hidle | ⟨n, hn, hle⟩ := hd ref l hl
  · exact hidle
  · unfold Engine.outcome at ho
    simp only at ho
    split at ho
    · rename_i hall
      have hdone := of_decide_eq_true (List.all_eq_true.1 hall (ref, n) hn)
      have hlane : ((w.engine.windowHeap[ref]?).map (·.completed)).getD 0 = l.completed := by
        rw [Engine.lanes, List.getElem?_map, Option.map_eq_some_iff] at hl
        obtain ⟨window, hw, rfl⟩ := hl
        rw [hw]
        rfl
      simp only [hlane] at hdone
      exact (h.balanced l (List.mem_of_getElem? hl)).idle (hle.trans hdone)
    · cases ho

variable [StorageAdapter σ] {w : World σ} {cfg : Config} {t : Turn} {a : Action}

theorem draining_step (h : w.Orderly) {waits : List (Nat × Nat)}
    (hd : Draining waits w.engine.lanes) (hquiet : ¬ w.Retries cfg a) :
    Draining waits (w.step cfg (t, a)).engine.lanes := by
  have hstep : LaneStep False w a (w.step cfg (t, a)) := lane_step h hquiet
  cases hstep with
  | feed hfeed hjobs => exact hd.feed hfeed
  | start ref window job rest ha hw hq hr hfeed hjobs =>
    have hstarted : Draining waits (w.engine.lanes.set ref (window.lane.start rest)) → _ :=
      fun hd' => hd'.feed hfeed
    refine hstarted (hd.put (Engine.getElem?_lanes hw) (fun hidle => ?_) rfl)
    have hempty : window.queue = [] := hidle.1
    rw [hq] at hempty
    cases hempty
  | finish i ref pending track below window ha hi hw hr hlanes hjobs =>
    rw [hlanes]
    refine hd.put (Engine.getElem?_lanes hw) (fun hidle => ?_) rfl
    have hstill : window.running = false := hidle.2
    rw [hr] at hstill
    cases hstill

theorem Flushing.step {i : Nat} (h : w.Flushing i) (horder : w.Orderly)
    (hquiet : ¬ w.Retries cfg a) : (w.step cfg (t, a)).Flushing i := by
  obtain ⟨waits, windows, hi, hd⟩ | ⟨err, hi⟩ | hd := h
  · by_cases ha : a = .resume i
    · cases ho : w.engine.outcome (.windows waits) with
      | none =>
        subst ha
        have hsame : w.step cfg (t, .resume i) = w := by
          simp only [World.step, resumeTask, hi, ho]
        rw [hsame]
        exact .inl ⟨waits, windows, hi, hd⟩
      | some outcome => exact .inr (.inr (draining_step horder (horder.drained hd ho) hquiet))
    · exact .inl ⟨waits, windows, tasks_step ha hi, draining_step horder hd hquiet⟩
  · by_cases ha : a = .resume i
    · subst ha
      have hsame : w.step cfg (t, .resume i) = w := by
        simp only [World.step, resumeTask, hi]
      rw [hsame]
      exact .inr (.inl ⟨err, hi⟩)
    · exact .inr (.inl ⟨err, tasks_step ha hi⟩)
  · exact .inr (.inr (draining_step horder hd hquiet))

/-- A flush counts the jobs of all windows in the table. -/
theorem flushing_call (horphans : w.engine.OrphansIdle) :
    (w.step cfg (t, .call .flushDirectLifecycle)).Flushing w.tasks.length := by
  have hkeeps : w.engine.KeepsOrphans (Engine.expireDirectRequests cfg t t.clock
      w.engine.outstandingRequests.entries w.engine).1 :=
    Engine.keepsOrphans_expireDirectRequests t.clock w.engine.outstandingRequests.entries w.engine
  cases he : Engine.expireDirectRequests cfg t t.clock w.engine.outstandingRequests.entries
      w.engine with
  | mk e1 outcome =>
    rw [he] at hkeeps
    cases outcome with
    | error err =>
      refine .inr (.inl ⟨err, ?_⟩)
      simp [World.step, Engine.call, Engine.flushDirectLifecycle, he, spawn, Next.task, Next.throw]
    | ok u =>
      refine .inl ⟨e1.directWindows.values.map fun ref =>
        (ref, ((e1.windowHeap[ref]?).map (·.enqueued)).getD 0), e1.directWindows.values, ?_, ?_⟩
      · simp [World.step, Engine.call, Engine.flushDirectLifecycle, he, spawn, Next.task]
      · have hengine : (w.step cfg (t, .call .flushDirectLifecycle)).engine = e1 := by
          simp [World.step, Engine.call, Engine.flushDirectLifecycle, he, spawn]
        rw [hengine]
        intro ref l hl
        by_cases hmem : ref ∈ w.engine.directWindows.values
        · right
          rw [Engine.lanes, List.getElem?_map, Option.map_eq_some_iff] at hl
          obtain ⟨window, hw, rfl⟩ := hl
          refine ⟨window.enqueued, List.mem_map.2 ⟨ref, by rwa [hkeeps.1], ?_⟩, le_rfl⟩
          simp [hw]
        · left
          rw [hkeeps.2 ref hmem, Engine.lanes, List.getElem?_map, Option.map_eq_some_iff] at hl
          obtain ⟨window, hw, rfl⟩ := hl
          exact horphans ref window hw hmem

end World

/-- In every run that starts with a flush while no window outside of the table has work left,
and in which no retry is queued while the flush waits, the flush resolves only when the chains
are drained. -/
theorem flush_drains {σ : Type} [StorageAdapter σ] (cfg : Config) (storage : σ) (transport : Bool)
    (v w : World σ) (t : Turn)
    (hv : Run (World.step cfg) (fun _ _ => True) (.new storage transport) v)
    (horphans : v.engine.OrphansIdle)
    (hw : Run (World.step cfg) (fun u x => x.2.internal = true ∧ ¬ u.Retries cfg x.2)
      (v.step cfg (t, .call .flushDirectLifecycle)) w)
    (hresolved : w.fulfilled v.tasks.length = true) : w.Drained := by
  have horder : v.Orderly := hv.invariant (fun u x hu _ => hu.step) (World.orderly_new storage transport)
  have hboth : w.Orderly ∧ w.Flushing v.tasks.length := by
    refine hw.invariant (P := fun u => u.Orderly ∧ u.Flushing v.tasks.length) ?_
      ⟨horder.step, World.flushing_call horphans⟩
    intro u x hu hx
    exact ⟨hu.1.step, hu.2.step hu.1 hx.2⟩
  obtain ⟨waits, windows, hi, -⟩ | ⟨err, hi⟩ | hd := hboth.2
  · simp [World.fulfilled, hi] at hresolved
  · simp [World.fulfilled, hi] at hresolved
  · exact World.drained hd

namespace Sample

/-- A request of the window `w` whose deadline has passed when a flush is called. -/
def overdue : List (Turn × Action) :=
  joined ++ [(turn, .call (.requestNextPiece "o" "f" (some ⟨none, none, some "w", 0⟩))),
    (turn, .resume 1), (turn, .resume 1)]

def late : Turn := { turn with clock := 60000, random := "b" }

def offline : Turn := { late with sendFailure := fun _ => some ⟨none, "offline"⟩ }

def flushing : World MemoryStorageAdapter :=
  (steps (World.step config) start overdue).step config (late, .call .flushDirectLifecycle)

/-- The retry that the flush has queued is made, and the flush goes on. -/
def retried (sending : Turn) : List (Turn × Action) :=
  [(sending, .window 0), (late, .resume 3), (late, .resume 3), (late, .resume 3), (late, .resume 2)]

end Sample

/-- The retry of a request that was overdue is sent, and its chain is idle again. -/
theorem flush_drains_sample :
    (steps (World.step Sample.config) Sample.flushing
      (Sample.retried Sample.late)).engine.outstandingRequests.has "req_f_0_0_b" = true ∧
    (steps (World.step Sample.config) Sample.flushing (Sample.retried Sample.late)).Drained := by
  have hrun : Run (World.step Sample.config)
      (fun u x => x.2.internal = true ∧ ¬ u.Retries Sample.config x.2) Sample.flushing
      (steps (World.step Sample.config) Sample.flushing (Sample.retried Sample.late)) :=
    run_of_allowed (by decide +kernel)
  have hresolved : (steps (World.step Sample.config) Sample.flushing
      (Sample.retried Sample.late)).fulfilled 2 = true := by decide +kernel
  have hbefore : Run (World.step Sample.config) (fun _ _ => True) Sample.start
      (steps (World.step Sample.config) Sample.start Sample.overdue) := run_steps _ _
  refine ⟨by decide +kernel, flush_drains Sample.config MemoryStorageAdapter.empty true
    (steps (World.step Sample.config) Sample.start Sample.overdue) _ Sample.late hbefore ?_ hrun
    hresolved⟩
  -- the one window there is stands in the table
  have hwindows : (steps (World.step Sample.config) Sample.start Sample.overdue).engine.windowHeap.length =
    1 ∧ (steps (World.step Sample.config) Sample.start Sample.overdue).engine.directWindows.values =
      [0] := by decide +kernel
  intro ref window hw hout
  have hlt := (List.getElem?_eq_some_iff.1 hw).1
  rw [hwindows.1] at hlt
  obtain rfl : ref = 0 := by omega
  exact absurd (by rw [hwindows.2]; exact List.mem_singleton_self 0) hout

/-- The retry that a flush has queued cannot be sent either. Its own retry is queued behind what
the flush has counted, and still waits when the flush resolves. -/
theorem flush_leaves_a_retry_behind :
    (∀ x ∈ Sample.retried Sample.offline, x.2.internal = true) ∧
    (steps (World.step Sample.config) Sample.flushing (Sample.retried Sample.offline)).fulfilled
      (steps (World.step Sample.config) Sample.start Sample.overdue).tasks.length = true ∧
    ¬ (steps (World.step Sample.config) Sample.flushing (Sample.retried Sample.offline)).Drained := by
  refine ⟨by decide +kernel, by decide +kernel, fun h => ?_⟩
  have hwaits : ∃ window ∈ (steps (World.step Sample.config) Sample.flushing
      (Sample.retried Sample.offline)).engine.windowHeap, window.queue ≠ [] := by decide +kernel
  obtain ⟨window, hwindow, hne⟩ := hwaits
  exact hne (h.idle window hwindow).1

end PonsWarp.Core
