import PonsWarp.Core.Restores

set_option autoImplicit false

/-!
One promise followed to its end while nothing else runs: every turn is one
stretch of the method it belongs to.
-/

namespace PonsWarp.Core

open PonsWarp.Data

variable {σ : Type} [StorageAdapter σ] {cfg : Config} {ok : Turn → Prop}

/-- A promise that has settled, or that waits for the windows of others, stays as it is. -/
def Engine.follow (cfg : Config) : List Turn → Engine σ → Task → Engine σ × Task
  | [], e, task => (e, task)
  | _ :: _, e, ⟨pending, []⟩ => (e, ⟨pending, []⟩)
  | t :: turns, e, ⟨pending, frame :: below⟩ =>
    match e.outcome pending with
    | none => (e, ⟨pending, frame :: below⟩)
    | some outcome =>
      Engine.follow cfg turns (e.resume cfg t outcome frame).1
        ((e.resume cfg t outcome frame).2.task below)

@[simp] theorem Next.task_await (pending : Pending) (frame : Frame) (below : List Frame) :
    (Next.await pending [frame]).task below = ⟨pending, frame :: below⟩ := rfl

@[simp] theorem Next.task_done (outcome : Except Failure Value) (below : List Frame) :
    (Next.done outcome).task below = ⟨.settled outcome, below⟩ := rfl

namespace Engine

@[simp] theorem follow_nil (e : Engine σ) (task : Task) : e.follow cfg [] task = (e, task) := by
  simp [follow]

@[simp] theorem follow_settled (turns : List Turn) (e : Engine σ) (pending : Pending) :
    e.follow cfg turns ⟨pending, []⟩ = (e, ⟨pending, []⟩) := by
  cases turns <;> simp [follow]

@[simp] theorem follow_cons (t : Turn) (turns : List Turn) (e : Engine σ)
    (outcome : Except Failure Value) (frame : Frame) (below : List Frame) :
    e.follow cfg (t :: turns) ⟨.settled outcome, frame :: below⟩ =
      (e.resume cfg t outcome frame).1.follow cfg turns
        ((e.resume cfg t outcome frame).2.task below) := by
  simp [follow, Engine.outcome]

theorem follow_append (turns more : List Turn) (e : Engine σ) (task : Task) :
    e.follow cfg (turns ++ more) task =
      (e.follow cfg turns task).1.follow cfg more (e.follow cfg turns task).2 := by
  induction turns generalizing e task with
  | nil => simp
  | cons t rest ih =>
    obtain ⟨pending, stack⟩ := task
    cases stack with
    | nil => simp
    | cons frame below =>
      cases hout : e.outcome pending with
      | some outcome => simp only [List.cons_append, follow, hout, ih]
      | none =>
        cases more with
        | nil => simp
        | cons u more => simp [follow, hout]

/-- A method called by another one runs as it would alone; its caller takes over when it
has settled. -/
theorem follow_below (turns : List Turn) (e : Engine σ) (pending : Pending) (stack below : List Frame) :
    (∃ before after e' pending', turns = before ++ after ∧
      e.follow cfg turns ⟨pending, stack⟩ = (e', ⟨pending', []⟩) ∧
      e.follow cfg turns ⟨pending, stack ++ below⟩ = e'.follow cfg after ⟨pending', below⟩) ∨
    ∃ e' pending' frame more,
      e.follow cfg turns ⟨pending, stack⟩ = (e', ⟨pending', frame :: more⟩) ∧
      e.follow cfg turns ⟨pending, stack ++ below⟩ = (e', ⟨pending', frame :: more ++ below⟩) := by
  induction turns generalizing e pending stack with
  | nil =>
    cases stack with
    | nil => exact .inl ⟨[], [], e, pending, rfl, by simp, by simp⟩
    | cons frame more => exact .inr ⟨e, pending, frame, more, by simp, by simp⟩
  | cons t rest ih =>
    cases stack with
    | nil => exact .inl ⟨[], t :: rest, e, pending, rfl, by simp, by simp⟩
    | cons frame more =>
      cases hout : e.outcome pending with
      | none =>
        refine .inr ⟨e, pending, frame, more, ?_, ?_⟩
        · simp [follow, hout]
        · simp [follow, hout]
      | some outcome =>
        have htask : ∀ (next : Next) (a b : List Frame),
            next.task (a ++ b) = ⟨(next.task a).pending, (next.task a).stack ++ b⟩ := by
          intro next a b
          cases next <;> simp [Next.task]
        simp only [List.cons_append, follow, hout, htask]
        rcases ih (e.resume cfg t outcome frame).1
            ((e.resume cfg t outcome frame).2.task more).pending
            ((e.resume cfg t outcome frame).2.task more).stack with
          ⟨before, after, e', pending', rfl, halone, hbelow⟩ | h
        · exact .inl ⟨t :: before, after, e', pending', rfl, halone, hbelow⟩
        · exact .inr h

/-- What every stretch keeps is kept to the end. -/
theorem follow_keeps {P : Engine σ → Prop}
    (hstep : ∀ e t outcome frame, P e → P (Engine.resume e cfg t outcome frame).1)
    (turns : List Turn) (e : Engine σ) (task : Task) (h : P e) : P (e.follow cfg turns task).1 := by
  induction turns generalizing e task with
  | nil => simpa using h
  | cons t rest ih =>
    obtain ⟨pending, stack⟩ := task
    cases stack with
    | nil => simpa using h
    | cons frame below =>
      unfold follow
      cases e.outcome pending with
      | none => exact h
      | some outcome => exact ih _ _ (hstep e t outcome frame h)

/-- So many allowed turns lead from the one promise and engine to the other. -/
def Reaches (cfg : Config) (ok : Turn → Prop) (e : Engine σ) (task : Task) (e' : Engine σ)
    (task' : Task) : Prop :=
  ∃ n, ∀ turns : List Turn, turns.length = n → (∀ t ∈ turns, ok t) →
    e.follow cfg turns task = (e', task')

/-- Every long enough sequence of allowed turns settles the promise with this outcome. -/
def Returns (cfg : Config) (ok : Turn → Prop) (started : Engine σ × Next) (e' : Engine σ)
    (outcome : Except Failure Value) : Prop :=
  ∃ n, ∀ turns : List Turn, n ≤ turns.length → (∀ t ∈ turns, ok t) →
    started.1.follow cfg turns (started.2.task []) = (e', ⟨.settled outcome, []⟩)

variable {e e' e'' : Engine σ} {task task' task'' : Task}

theorem Reaches.refl (e : Engine σ) (task : Task) : Reaches cfg ok e task e task := by
  refine ⟨0, fun turns h _ => ?_⟩
  have hnil : turns = [] := List.length_eq_zero_iff.1 h
  simp [hnil]

theorem Reaches.trans (h : Reaches cfg ok e task e' task')
    (h' : Reaches cfg ok e' task' e'' task'') : Reaches cfg ok e task e'' task'' := by
  obtain ⟨n, hn⟩ := h
  obtain ⟨k, hk⟩ := h'
  refine ⟨n + k, fun turns hlen hok => ?_⟩
  have hsplit : turns = turns.take n ++ turns.drop n := (List.take_append_drop n turns).symm
  have hfirst := hn (turns.take n) (by simp; omega) fun t ht => hok t (List.mem_of_mem_take ht)
  have hrest := hk (turns.drop n) (by simp; omega) fun t ht => hok t (List.mem_of_mem_drop ht)
  rw [hsplit, follow_append, hfirst, hrest]

/-- One stretch behind an await that has settled, whatever turn it gets. -/
theorem Reaches.stretch {outcome : Except Failure Value} {frame : Frame} {below : List Frame}
    (h : ∀ t, ok t → (e.resume cfg t outcome frame).1 = e' ∧
      (e.resume cfg t outcome frame).2.task below = task') :
    Reaches cfg ok e ⟨.settled outcome, frame :: below⟩ e' task' := by
  refine ⟨1, fun turns hlen hok => ?_⟩
  obtain ⟨t, rfl⟩ := List.length_eq_one_iff.1 hlen
  obtain ⟨he, htask⟩ := h t (hok t (by simp))
  simp [he, htask]

theorem Reaches.returns {outcome : Except Failure Value} {started : Engine σ × Next}
    (h : Reaches cfg ok started.1 (started.2.task []) e' ⟨.settled outcome, []⟩) :
    Returns cfg ok started e' outcome := by
  obtain ⟨n, hn⟩ := h
  refine ⟨n, fun turns hlen hok => ?_⟩
  have hsplit : turns = turns.take n ++ turns.drop n := (List.take_append_drop n turns).symm
  have hfirst := hn (turns.take n) (by simp; omega) fun t ht => hok t (List.mem_of_mem_take ht)
  rw [hsplit, follow_append, hfirst, follow_settled]

/-- An engine and an outcome that a promise comes to are the only ones. -/
theorem Returns.unique {started : Engine σ × Next} {outcome outcome' : Except Failure Value}
    (hturn : ∃ t, ok t) (h : Returns cfg ok started e outcome)
    (h' : Returns cfg ok started e' outcome') : e = e' ∧ outcome = outcome' := by
  obtain ⟨n, hn⟩ := h
  obtain ⟨k, hk⟩ := h'
  obtain ⟨t, ht⟩ := hturn
  have hok : ∀ u ∈ List.replicate (n + k) t, ok u := by
    intro u hu
    rw [List.eq_of_mem_replicate hu]
    exact ht
  have hone := hn (List.replicate (n + k) t) (by simp) hok
  have htwo := hk (List.replicate (n + k) t) (by simp) hok
  rw [hone] at htwo
  simpa using htwo

end Engine

/-- In a world, the turns are those in which the promise is the one that is resumed. -/
theorem World.steps_resume (turns : List Turn) (w : World σ) (i : Nat) (task : Task)
    (h : w.tasks[i]? = some task) :
    steps (World.step cfg) w (turns.map fun t => (t, Action.resume i)) =
      { w with
        engine := (w.engine.follow cfg turns task).1
        tasks := w.tasks.set i (w.engine.follow cfg turns task).2 } := by
  have hsame : ∀ (w : World σ) (task : Task), w.tasks[i]? = some task →
      w = { w with tasks := w.tasks.set i task } := by
    intro w task h
    obtain ⟨hlt, hi⟩ := List.getElem?_eq_some_iff.1 h
    simp [← hi]
  induction turns generalizing w task with
  | nil => simpa [steps] using hsame w task h
  | cons t rest ih =>
    have hlt : i < w.tasks.length := (List.getElem?_eq_some_iff.1 h).1
    obtain ⟨pending, stack⟩ := task
    cases stack with
    | nil =>
      have hstep : World.step cfg w (t, .resume i) = w := by simp [World.step, World.resumeTask, h]
      have hrest := ih w ⟨pending, []⟩ h
      simp only [steps, List.map_cons, List.foldl_cons] at hrest ⊢
      rw [hstep, hrest]
      simp
    | cons frame below =>
      cases hout : w.engine.outcome pending with
      | none =>
        have hstep : World.step cfg w (t, .resume i) = w := by
          simp [World.step, World.resumeTask, h, hout]
        have hrest := ih w ⟨pending, frame :: below⟩ h
        have hblocked : ∀ turns, w.engine.follow cfg turns ⟨pending, frame :: below⟩ =
            (w.engine, ⟨pending, frame :: below⟩) := by
          intro turns
          cases turns <;> simp [Engine.follow, hout]
        simp only [steps, List.map_cons, List.foldl_cons] at hrest ⊢
        rw [hstep, hrest, hblocked, hblocked]
      | some outcome =>
        have hstep : World.step cfg w (t, .resume i) =
            { w with
              engine := (w.engine.resume cfg t outcome frame).1
              tasks := w.tasks.set i ((w.engine.resume cfg t outcome frame).2.task below) } := by
          simp [World.step, World.resumeTask, h, hout]
        have hrest := ih { w with
          engine := (w.engine.resume cfg t outcome frame).1
          tasks := w.tasks.set i ((w.engine.resume cfg t outcome frame).2.task below) }
          ((w.engine.resume cfg t outcome frame).2.task below) (by simp [hlt])
        simp only [steps, List.map_cons, List.foldl_cons] at hrest ⊢
        rw [hstep, hrest]
        simp [Engine.follow, hout]

end PonsWarp.Core
