import PonsWarp.Core.BookedSteps
import PonsWarp.Core.Cancellation
import PonsWarp.Core.Restores

set_option autoImplicit false

/-!
What `dispose` leaves behind. It cancels, waits for the windows, and releases only behind that
wait; what may keep it from there, and what may undo it later, is named here.
-/

namespace PonsWarp.Core

open PonsWarp.Data

namespace Ledger

variable {max : Nat} {P : Entry → Prop} {L L' : Ledger}

/-- Unless a request is made, closed books stay closed. -/
theorem Postings.closed (h : Postings max P L L') (hissued : L'.issued = L.issued)
    (hr : L.requests = .empty) (ht : L.timers = .empty) :
    L'.requests = .empty ∧ L'.timers = .empty := by
  have hkept : L.issued.length ≤ L'.issued.length ∧ (L'.issued.length = L.issued.length →
      L'.requests = .empty ∧ L'.timers = .empty) := by
    refine h.keeps (Q := fun M => L.issued.length ≤ M.issued.length ∧
      (M.issued.length = L.issued.length → M.requests = .empty ∧ M.timers = .empty)) ?_
      ⟨le_rfl, fun _ => ⟨hr, ht⟩⟩
    rintro M M' hpost ⟨hle, hclosed⟩
    cases hpost with
    | ask x r hask =>
      have hgrows : (M.ask x r).issued = M.issued ++ [x] := by
        unfold Ledger.ask
        split <;> rfl
      simp only [hgrows, List.length_append, List.length_singleton]
      exact ⟨by omega, fun h => absurd h (by omega)⟩
    | close x hx =>
      refine ⟨hle, fun h => ?_⟩
      obtain ⟨hr, ht⟩ := hclosed h
      exact ⟨by simp only [hr]; rfl, ht⟩
    | retire x r d event hget =>
      have hissued : (M.retire x r d event).issued = M.issued := by
        unfold Ledger.retire
        simp only
        split <;> simp
      rw [hissued]
      refine ⟨hle, fun h => ?_⟩
      simp [(hclosed h).1] at hget
    | enqueue key job => simpa using ⟨hle, hclosed⟩
    | dispose => exact ⟨hle, fun _ => ⟨rfl, rfl⟩⟩
    | _ => exact ⟨hle, hclosed⟩
  exact hkept.2 (by rw [hissued])

theorem Postings.disposed (h : Postings max P L L') (hd : L.disposed = true) :
    L'.disposed = true := by
  refine h.keeps (Q := fun M => M.disposed = true) ?_ hd
  intro M M' hpost hM
  cases hpost with
  | ask x r =>
    unfold Ledger.ask
    split <;> exact hM
  | retire x r d event =>
    unfold Ledger.retire
    simp only
    split <;> simpa using hM
  | enqueue key job => simpa using hM
  | dispose => rfl
  | _ => exact hM

end Ledger

/-- A change that is not granted to configure or dispose leaves both flags. -/
theorem Changes.flags {σ : Type} [StorageAdapter σ] {t : Turn} {G : Grant} {e e' : Engine σ}
    (h : Changes t G e e') (hconfigure : ¬ G .configure) (hdispose : ¬ G .dispose) :
    e'.subscribed = e.subscribed ∧ e'.disposed = e.disposed := by
  refine h.keeps (P := fun x => x.subscribed = e.subscribed ∧ x.disposed = e.disposed) ?_ ⟨rfl, rfl⟩
  intro x x' hc hx
  cases hc with
  | configure bytes transport subscribed ht hg => exact absurd hg hconfigure
  | dispose hg => exact absurd hg hdispose
  | register manifest =>
    unfold Engine.registerManifest
    simp only
    split <;> exact hx
  | _ => exact hx

namespace Engine

variable {σ : Type} {e e' : Engine σ} {cfg : Config} {t : Turn}

/-- What the disposal of an engine is to leave behind. -/
structure Disposed (e : Engine σ) : Prop where
  disposed : e.disposed = true
  unsubscribed : e.subscribed = false
  requests : e.outstandingRequests = .empty
  timers : e.directTimers = .empty

/-- The selector of `dispose`. -/
def everything : DirectCancelSelector := ⟨none, none, none, none, none⟩

/-- There is a generation left for every window. -/
def HasGenerations (e : Engine σ) : Prop :=
  e.nextDirectGeneration + e.directWindows.size ≤ MAX_SAFE_INTEGER + 1

theorem disableWindows_ok (selector : DirectCancelSelector) (windows : List (String × Nat))
    (h : e.nextDirectGeneration + windows.length ≤ MAX_SAFE_INTEGER + 1) :
    ∃ e', disableWindows selector windows e = (e', .ok ()) := by
  induction windows generalizing e with
  | nil => exact ⟨e, rfl⟩
  | cons entry rest ih =>
    obtain ⟨key, ref⟩ := entry
    simp only [List.length_cons] at h
    unfold disableWindows
    split
    · exact ih (by omega)
    · split
      · have hroom : e.nextDirectGeneration ≤ MAX_SAFE_INTEGER := by omega
        simp only [allocateDirectGeneration, putWindow, hroom, if_true]
        exact ih (by simp only; omega)
      · exact ih (by omega)

theorem matchesRequest_everything (r : OutstandingRequest) (d : DirectRequest) :
    everything.matchesRequest r d = true := by
  simp [everything, DirectCancelSelector.matchesRequest, selects]

/-- The loop leaves no direct request, when it is given all of them. -/
theorem cancelRequests_everything (cfg : Config) (t : Turn)
    (requests : List (RequestId × OutstandingRequest)) (count : Nat)
    (h : ∀ x r, e.outstandingRequests.get? x = some r → r.direct ≠ none → (x, r) ∈ requests) :
    ∀ x r, (cancelRequests cfg t everything requests count e).1.outstandingRequests.get? x =
      some r → r.direct = none := by
  induction requests generalizing e count with
  | nil =>
    intro x r hr
    by_contra hd
    exact absurd (h x r hr hd) (by simp)
  | cons entry rest ih =>
    obtain ⟨y, q⟩ := entry
    unfold cancelRequests
    split
    · rename_i hnone
      refine ih count fun x r hr hd => (List.mem_cons.1 (h x r hr hd)).resolve_left ?_
      rintro ⟨⟩
      exact hd hnone
    · rename_i direct hdirect
      simp only [matchesRequest_everything, if_true]
      refine ih _ fun x r hr hd => ?_
      rw [(finalizeDirectRequest_fields _ cfg t y .cancelled).2.2] at hr
      have hgone : ∀ r', e.outstandingRequests.get? y = some r' → r'.direct ≠ none → x ≠ y := by
        rintro r' hr' hd' rfl
        have hsome : (((e.addDirectTombstone cfg x).outstandingRequests.get? x).bind
            (·.direct)).isSome = true := by
          have hget : (e.addDirectTombstone cfg x).outstandingRequests.get? x = some r' := hr'
          simpa [hget, Option.isSome_iff_ne_none] using hd'
        rw [if_pos hsome] at hr
        exact (OrderedMap.get?_delete_eq_some.1 hr).1 rfl
      have hold : e.outstandingRequests.get? x = some r := by
        split at hr
        · exact (OrderedMap.get?_delete_eq_some.1 hr).2
        · exact hr
      refine (List.mem_cons.1 (h x r hold hd)).resolve_left ?_
      rintro ⟨⟩
      exact hgone q hold hd rfl

theorem expireDirectRequests_none {requests : List (RequestId × OutstandingRequest)} {now : Number}
    (h : ∀ p ∈ requests, p.2.direct = none) :
    expireDirectRequests cfg t now requests e = (e, .ok ()) := by
  induction requests with
  | nil => rfl
  | cons p rest ih =>
    unfold expireDirectRequests
    rw [h p List.mem_cons_self]
    exact ih fun q hq => h q (List.mem_cons_of_mem p hq)

/-- With generations left, `dispose` gets as far as the wait for the windows. -/
theorem dispose_waits (cfg : Config) (t : Turn) (hd : e.disposed = false) (h : e.HasGenerations) :
    ∃ e' waits windows, e.dispose cfg t =
      (e', .await (.windows waits) [.flushed windows, .disposeFlushed]) := by
  obtain ⟨e1, he1⟩ := disableWindows_ok everything e.directWindows.entries h
  have hnone := cancelRequests_everything cfg t e1.outstandingRequests.entries 0
    fun x r hr _ => OrderedMap.mem_entries_iff.2 hr
  unfold dispose
  simp only [hd, Bool.false_eq_true, if_false]
  have hcancel : e.cancelDirectRequests cfg t ⟨none, none, none, none, none⟩ =
      ((cancelRequests cfg t everything e1.outstandingRequests.entries 0 e1).1
        |>.pruneDirectLifecycleMetadata cfg none,
       .ok (cancelRequests cfg t everything e1.outstandingRequests.entries 0 e1).2) := by
    unfold cancelDirectRequests
    rw [show (⟨none, none, none, none, none⟩ : DirectCancelSelector) = everything from rfl, he1]
  rw [hcancel]
  simp only [flushDirectLifecycle]
  rw [expireDirectRequests_none]
  · exact ⟨_, _, _, rfl⟩
  · intro p hp
    exact hnone p.1 p.2 (OrderedMap.mem_entries_iff.1 hp)

end Engine

/-- A transport is set. -/
def Action.setsTransport : Action → Bool
  | .call .setTransport => true
  | _ => false

namespace World

variable {σ : Type} {w : World σ} {cfg : Config} {t : Turn} {a : Action}

/-- An engine that has been disposed is as it was left. -/
def Released (w : World σ) : Prop := w.engine.disposed = true → w.engine.Disposed

/-- The action keeps a `dispose` from its end: there is no generation left for a window, or
a window that it has waited for has recorded an error. -/
def Thwarts (w : World σ) : Action → Prop
  | .call .dispose => ¬ w.engine.HasGenerations
  | .resume i =>
    match w.tasks[i]? with
    | some ⟨_, .flushed windows :: .disposeFlushed :: _⟩ =>
      (w.engine.failedWindow windows).isSome = true
    | _ => False
  | _ => False

instance (w : World σ) : DecidablePred w.Thwarts := fun a => by
  unfold Thwarts
  unfold Engine.HasGenerations
  repeat' split
  all_goals infer_instance

/-- The step makes the run of a `dispose` go wrong: it keeps it from its end or, once the
engine has been disposed, sets a transport or makes a request. -/
def Spoils [StorageAdapter σ] (cfg : Config) (w : World σ) (x : Turn × Action) : Prop :=
  if w.engine.disposed then
    x.2.setsTransport = true ∨ (w.step cfg x).engine.issued ≠ w.engine.issued
  else w.Thwarts x.2

instance [StorageAdapter σ] (cfg : Config) (w : World σ) : DecidablePred (w.Spoils cfg) :=
  fun x => by
    unfold Spoils
    infer_instance

variable [StorageAdapter σ]

theorem step_disposed (h : w.engine.disposed = true) : (w.step cfg (t, a)).engine.disposed = true :=
  (books_step cfg w t a).disposed h

/-- An engine that no request is made of and no transport given stays as it was left. -/
theorem released_of_disposed (h : w.engine.Disposed) (hs : ¬ w.Spoils cfg (t, a)) :
    (w.step cfg (t, a)).engine.Disposed := by
  have hquiet : a.setsTransport = false ∧
      (w.step cfg (t, a)).engine.issued = w.engine.issued := by
    simpa [Spoils, h.disposed] using hs
  obtain ⟨hrequests, htimers⟩ := (books_step cfg w t a).closed hquiet.2 h.requests h.timers
  refine ⟨step_disposed h.disposed, ?_, hrequests, htimers⟩
  by_cases hdispose : w.grant (t, a) .dispose
  · obtain ⟨i, pending, below, v, rfl, hi, ho⟩ := grant_dispose hdispose
    simp [step, resumeTask, hi, ho, Engine.resume, Engine.disposeFlushed]
  · by_cases hconfigure : w.grant (t, a) .configure
    · obtain ⟨bytes, rfl⟩ | ⟨bytes, cap, rfl⟩ | rfl := grant_configure hconfigure
      · exact h.unsubscribed
      · exact h.unsubscribed
      · cases hquiet.1
    · exact ((step_spec cfg w t a).changes.flags hconfigure hdispose).1.trans h.unsubscribed

theorem Released.step (h : w.Released) (hs : ¬ w.Spoils cfg (t, a)) :
    (w.step cfg (t, a)).Released := by
  intro hd
  by_cases hbefore : w.engine.disposed = true
  · exact released_of_disposed (h hbefore) hs
  · have hdispose : w.grant (t, a) .dispose := by
      by_contra hdispose
      by_cases hconfigure : w.grant (t, a) .configure
      · obtain ⟨bytes, rfl⟩ | ⟨bytes, cap, rfl⟩ | rfl := grant_configure hconfigure <;>
          exact hbefore hd
      · exact hbefore (((step_spec cfg w t a).changes.flags hconfigure hdispose).2 ▸ hd)
    obtain ⟨i, pending, below, v, rfl, hi, ho⟩ := grant_dispose hdispose
    simp only [World.step, resumeTask, hi, ho, Engine.resume, Engine.disposeFlushed]
    exact ⟨rfl, rfl, rfl, rfl⟩

/-- The promise of the task has been fulfilled or rejected. -/
def settled (w : World σ) (i : Nat) : Bool := ((w.tasks[i]?).map (·.stack.isEmpty)).getD false

/-- Where the task of a `dispose` is, when nothing has gone wrong: behind it, waiting for the
windows, or with that wait over. -/
def Disposing (w : World σ) (i : Nat) : Prop :=
  w.engine.disposed = true ∨
  (∃ waits windows, w.tasks[i]? = some ⟨.windows waits, [.flushed windows, .disposeFlushed]⟩) ∨
  ∃ v, w.tasks[i]? = some ⟨.settled (.ok v), [.disposeFlushed]⟩

theorem disposing_call (hs : ¬ w.Spoils cfg (t, .call .dispose)) :
    (w.step cfg (t, .call .dispose)).Disposing w.tasks.length := by
  cases hd : w.engine.disposed with
  | true => exact .inl (step_disposed hd)
  | false =>
    have hroom : w.engine.HasGenerations := by
      simpa [Spoils, hd, Thwarts] using hs
    obtain ⟨e', waits, windows, hwaits⟩ := Engine.dispose_waits cfg t hd hroom
    refine .inr (.inl ⟨waits, windows, ?_⟩)
    simp [step, Engine.call, hwaits, spawn, Next.task]

/-- What other actions do, the task is not taken further by them. -/
theorem tasks_step {i : Nat} {task : Task} (ha : a ≠ .resume i) (hi : w.tasks[i]? = some task) :
    (w.step cfg (t, a)).tasks[i]? = some task := by
  have hspec := step_spec cfg w t a
  generalize w.step cfg (t, a) = w' at hspec ⊢
  cases hspec with
  | alone _ e fired h => exact hi
  | spawn _ hr result h =>
    have hlt := (List.getElem?_eq_some_iff.1 hi).1
    simpa [spawn, List.getElem?_append_left hlt] using hi
  | resume j pending frame below outcome result hj ho hr h =>
    have hne : j ≠ i := by
      rintro rfl
      exact ha rfl
    simpa [List.getElem?_set_ne hne] using hi

theorem Disposing.step {i : Nat} (h : w.Disposing i) (hs : ¬ w.Spoils cfg (t, a)) :
    (w.step cfg (t, a)).Disposing i := by
  cases hd : w.engine.disposed with
  | true => exact .inl (step_disposed hd)
  | false =>
    obtain hd' | ⟨waits, windows, hi⟩ | ⟨v, hi⟩ := h
    · simp [hd] at hd'
    · by_cases ha : a = .resume i
      · subst ha
        have hclean : w.engine.failedWindow windows = none := by
          simpa [Spoils, hd, Thwarts, hi] using hs
        have hlt := (List.getElem?_eq_some_iff.1 hi).1
        simp only [World.step, resumeTask, hi]
        split
        · rename_i outcome ho
          obtain hsettled | rfl := outcome_eq_some ho
          · cases hsettled
          · refine .inr (.inr ⟨.unit, ?_⟩)
            simp [Engine.resume, Engine.flushed, hclean, Next.ok, Next.task, hlt]
        · exact .inr (.inl ⟨waits, windows, hi⟩)
      · exact .inr (.inl ⟨waits, windows, tasks_step ha hi⟩)
    · by_cases ha : a = .resume i
      · subst ha
        refine .inl ?_
        simp [World.step, resumeTask, hi, Engine.outcome, Engine.resume, Engine.disposeFlushed]
      · exact .inr (.inr ⟨v, tasks_step ha hi⟩)

/-- What the outside can still do to an engine that was disposed: nothing. -/
theorem deaf (h : w.engine.Disposed) (t : Turn) :
    (∀ p m, w.step cfg (t, .message p m) = w) ∧ (∀ p data, w.step cfg (t, .binary p data) = w) ∧
    ∀ k, w.step cfg (t, .timer k) = w := by
  refine ⟨fun p m => ?_, fun p data => ?_, fun k => ?_⟩
  · simp [step, handleMessage, h.unsubscribed]
  · simp [step, handleBinary, h.unsubscribed]
  · simp only [step, fireTimer, h.timers]
    split
    · simp
    · rfl

end World

/-- In a run in which nothing goes wrong for it, a `dispose` that has settled has disposed the
engine, and no message, frame or timer changes anything any more. -/
theorem dispose_disposes {σ : Type} [StorageAdapter σ] (cfg : Config) (storage : σ)
    (transport : Bool) (w w' : World σ) (t : Turn)
    (hbefore : Run (World.step cfg) (fun v x => ¬ v.Spoils cfg x) (.new storage transport) w)
    (hcall : ¬ w.Spoils cfg (t, .call .dispose))
    (hafter : Run (World.step cfg) (fun v x => ¬ v.Spoils cfg x)
      (w.step cfg (t, .call .dispose)) w')
    (hsettled : w'.settled w.tasks.length = true) :
    w'.engine.Disposed ∧ ∀ t', (∀ p m, w'.step cfg (t', .message p m) = w') ∧
      (∀ p data, w'.step cfg (t', .binary p data) = w') ∧ ∀ k, w'.step cfg (t', .timer k) = w' := by
  have hreleased : w.Released :=
    hbefore.invariant (fun v x hv hs => hv.step hs) fun h => by cases h
  have hboth : w'.Released ∧ w'.Disposing w.tasks.length := by
    refine hafter.invariant (P := fun v => v.Released ∧ v.Disposing w.tasks.length) ?_
      ⟨hreleased.step hcall, World.disposing_call hcall⟩
    intro v x hv hs
    exact ⟨hv.1.step hs, hv.2.step hs⟩
  have hdisposed : w'.engine.Disposed := by
    obtain hd | ⟨waits, windows, hi⟩ | ⟨v, hi⟩ := hboth.2
    · exact hboth.1 hd
    · simp [World.settled, hi] at hsettled
    · simp [World.settled, hi] at hsettled
  exact ⟨hdisposed, World.deaf hdisposed⟩

namespace Sample

/-- A request is made in a window, and what the engine saves behind it gets the outcome. -/
def savedAt (saving : Turn) : List (Turn × Action) :=
  joined ++ [(turn, .call (.requestPieceWindow "o" "f" ⟨none, none, none, 0⟩ none)),
    (turn, .window 0), (saving, .resume 2), (turn, .resume 2), (turn, .resume 2),
    (turn, .resume 2)]

def unsaved : Turn := { turn with storageFailure := some (⟨none, "disk full"⟩, false) }

/-- Of a `dispose` at the end of these actions, the wait and what follows it. -/
def disposal : List (Turn × Action) := [(turn, .resume 3), (turn, .resume 3)]

end Sample

theorem dispose_disposes_sample :
    (steps (World.step Sample.config) ((steps (World.step Sample.config) Sample.start
      (Sample.savedAt Sample.turn)).step Sample.config (Sample.turn, .call .dispose))
        Sample.disposal).engine.Disposed := by
  have hbefore : Allowed (World.step Sample.config) (fun v x => ¬ v.Spoils Sample.config x)
      Sample.start (Sample.savedAt Sample.turn) := by decide +kernel
  have hafter : Allowed (World.step Sample.config) (fun v x => ¬ v.Spoils Sample.config x)
      ((steps (World.step Sample.config) Sample.start (Sample.savedAt Sample.turn)).step
        Sample.config (Sample.turn, .call .dispose)) Sample.disposal := by decide +kernel
  exact (dispose_disposes Sample.config MemoryStorageAdapter.empty true _ _ Sample.turn
    (run_of_allowed hbefore) (by decide +kernel) (run_of_allowed hafter)
    (by decide +kernel)).1

/-- A window that has recorded an error makes `dispose` reject, and the engine goes on. -/
theorem dispose_is_abandoned :
    ∃ w w' : World MemoryStorageAdapter,
      Run (World.step Sample.config) (fun _ _ => True) Sample.start w ∧
      Run (World.step Sample.config) (fun _ _ => True)
        (w.step Sample.config (Sample.turn, .call .dispose)) w' ∧
      w'.settled w.tasks.length = true ∧ w'.engine.disposed = false ∧
      w'.engine.subscribed = true :=
  ⟨_, _, run_steps Sample.start (Sample.savedAt Sample.unsaved),
    run_steps _ Sample.disposal, by decide +kernel, by decide +kernel, by decide +kernel⟩

end PonsWarp.Core
