import Mathlib.Data.List.Basic
import Mathlib.Logic.Relation

set_option autoImplicit false

/-!
Queues whose jobs run one at a time, in the order they were put in. A lane counts the jobs
it was given and those it has been through; the job that was put in as the `n`th is found by
these counts for as long as it waits.
-/

namespace PonsWarp.Data

structure Lane (α : Type) where
  queue : List α
  running : Bool
  enqueued : Nat
  completed : Nat

namespace Lane

variable {α : Type}

def empty : Lane α := ⟨[], false, 0, 0⟩

def push (l : Lane α) (job : α) : Lane α :=
  { l with queue := l.queue ++ [job], enqueued := l.enqueued + 1 }

/-- The first job starts; the rest waits on. -/
def start (l : Lane α) (rest : List α) : Lane α := { l with queue := rest, running := true }

def finish (l : Lane α) : Lane α := { l with running := false, completed := l.completed + 1 }

/-- The jobs that have started. -/
def begun (l : Lane α) : Nat := l.completed + l.running.toNat

/-- Every job is waiting, running or done. -/
def Balanced (l : Lane α) : Prop := l.enqueued = l.begun + l.queue.length

def Idle (l : Lane α) : Prop := l.queue = [] ∧ l.running = false

/-- The job waits as number `n`. -/
def Waits (l : Lane α) (n : Nat) (job : α) : Prop :=
  l.begun ≤ n ∧ l.queue[n - l.begun]? = some job

/-- The job waits as number `n`, or the lane has come to that number. -/
def Due (l : Lane α) (n : Nat) (job : α) : Prop := l.Waits n job ∨ n < l.begun

variable {l : Lane α} {job job' : α} {rest : List α} {n : Nat}

theorem balanced_empty : (empty : Lane α).Balanced := rfl

theorem Balanced.push (h : l.Balanced) (job : α) : (l.push job).Balanced := by
  unfold Balanced begun at *
  simp only [Lane.push, List.length_append, List.length_singleton]
  omega

theorem Balanced.start (h : l.Balanced) (hq : l.queue = job :: rest) (hr : l.running = false) :
    (l.start rest).Balanced := by
  unfold Balanced begun at *
  simp only [Lane.start, hq, hr, Bool.toNat_true, Bool.toNat_false, List.length_cons] at *
  omega

theorem Balanced.finish (h : l.Balanced) (hr : l.running = true) : l.finish.Balanced := by
  unfold Balanced begun at *
  simp only [Lane.finish, hr, Bool.toNat_true, Bool.toNat_false] at *
  omega

/-- Nothing is left in a lane that has been through all it was given. -/
theorem Balanced.idle (h : l.Balanced) (hle : l.enqueued ≤ l.completed) : l.Idle := by
  unfold Balanced begun at h
  refine ⟨List.length_eq_zero_iff.1 (by omega), ?_⟩
  cases hr : l.running with
  | false => rfl
  | true =>
    rw [hr, Bool.toNat_true] at h
    omega

/-- The job that is put in last waits under the number of jobs before it. -/
theorem Balanced.waits_push (h : l.Balanced) (job : α) : (l.push job).Waits l.enqueued job := by
  unfold Balanced at h
  have hbegun : (l.push job).begun = l.begun := rfl
  refine ⟨by omega, ?_⟩
  rw [hbegun, h, Nat.add_sub_cancel_left]
  simp [Lane.push]

theorem Waits.push (h : l.Waits n job) (job' : α) : (l.push job').Waits n job := by
  obtain ⟨hle, hget⟩ := h
  refine ⟨hle, ?_⟩
  have hlt := (List.getElem?_eq_some_iff.1 hget).1
  exact (List.getElem?_append_left hlt).trans hget

theorem Waits.finish (h : l.Waits n job) (hr : l.running = true) : l.finish.Waits n job := by
  have hbegun : l.finish.begun = l.begun := by simp [begun, Lane.finish, hr]
  unfold Waits
  rw [hbegun]
  exact h

/-- When a job starts it is the one whose number has come up, or it stays. -/
theorem Waits.start (h : l.Waits n job) (hq : l.queue = job' :: rest) (hr : l.running = false) :
    (n = l.completed ∧ job = job') ∨ (n ≠ l.completed ∧ (l.start rest).Waits n job) := by
  obtain ⟨hle, hget⟩ := h
  simp only [begun, hr, Bool.toNat_false, Nat.add_zero] at hle hget
  by_cases hn : n = l.completed
  · subst hn
    rw [Nat.sub_self, hq, List.getElem?_cons_zero] at hget
    exact .inl ⟨rfl, (Option.some.inj hget).symm⟩
  · refine .inr ⟨hn, ?_⟩
    have hsub : n - l.completed = n - (l.completed + 1) + 1 := by omega
    rw [hsub, hq, List.getElem?_cons_succ] at hget
    exact ⟨by simp only [begun, Lane.start, Bool.toNat_true]; omega, hget⟩

theorem Due.push (h : l.Due n job) (job' : α) : (l.push job').Due n job := by
  rcases h with hwaits | hlt
  · exact .inl (hwaits.push job')
  · exact .inr hlt

theorem Due.start (h : l.Due n job) (hq : l.queue = job' :: rest) (hr : l.running = false) :
    (l.start rest).Due n job := by
  rcases h with hwaits | hlt
  · rcases hwaits.start hq hr with ⟨hn, -⟩ | ⟨-, hwaits⟩
    · right
      simp only [begun, Lane.start, Bool.toNat_true]
      omega
    · exact .inl hwaits
  · right
    simp only [begun, Lane.start, hr, Bool.toNat_true, Bool.toNat_false] at hlt ⊢
    omega

theorem Due.finish (h : l.Due n job) (hr : l.running = true) : l.finish.Due n job := by
  rcases h with hwaits | hlt
  · exact .inl (hwaits.finish hr)
  · right
    simp only [begun, Lane.finish, hr, Bool.toNat_true, Bool.toNat_false] at hlt ⊢
    omega

/-- The job whose turn it is comes first. -/
theorem Due.first (h : l.Due l.completed job) (hr : l.running = false)
    (hne : l.queue ≠ []) : ∃ rest, l.queue = job :: rest := by
  rcases h with ⟨-, hget⟩ | hlt
  · simp only [begun, hr, Bool.toNat_false, Nat.add_zero, Nat.sub_self] at hget
    cases hq : l.queue with
    | nil => exact absurd hq hne
    | cons first rest =>
      rw [hq, List.getElem?_cons_zero] at hget
      exact ⟨rest, by rw [Option.some.inj hget]⟩
  · simp only [begun, hr, Bool.toNat_false] at hlt
    omega

end Lane

/-- A change to the lanes in which no job starts or ends. Jobs are put in only where `P`
holds. -/
inductive Fed {α : Type} (P : Prop) : List (Lane α) → List (Lane α) → Prop
  | push (lanes : List (Lane α)) (i : Nat) (l : Lane α) (job : α) (hl : lanes[i]? = some l)
      (h : P) : Fed P lanes (lanes.set i (l.push job))
  | make (lanes : List (Lane α)) : Fed P lanes (lanes ++ [.empty])

section

variable {α : Type} {P P' : Prop} {lanes lanes' : List (Lane α)} {i n : Nat} {l : Lane α} {job : α}

/-- A lane is still there, with whatever putting jobs in keeps of it. -/
theorem Fed.old {Q : Lane α → Prop} (hQ : P → ∀ l job, Q l → Q (l.push job)) (h : Fed P lanes lanes')
    (hl : ∃ l, lanes[i]? = some l ∧ Q l) : ∃ l, lanes'[i]? = some l ∧ Q l := by
  obtain ⟨l, hl, hq⟩ := hl
  cases h with
  | push j l' job hl' hP =>
    by_cases hji : j = i
    · subst hji
      obtain rfl : l = l' := Option.some.inj (hl.symm.trans hl')
      have hlt := (List.getElem?_eq_some_iff.1 hl).1
      exact ⟨l.push job, List.getElem?_set_self hlt, hQ hP l job hq⟩
    · exact ⟨l, by rw [List.getElem?_set_ne hji, hl], hq⟩
  | make =>
    have hlt := (List.getElem?_eq_some_iff.1 hl).1
    exact ⟨l, by rw [List.getElem?_append_left hlt, hl], hq⟩

/-- What the empty lane has, and putting jobs in keeps, all lanes have. -/
theorem Fed.all {Q : Lane α → Prop} (hQ : P → ∀ l job, Q l → Q (l.push job)) (h0 : Q .empty)
    (h : Fed P lanes lanes') (hall : ∀ l ∈ lanes, Q l) : ∀ l ∈ lanes', Q l := by
  intro l hl
  cases h with
  | push j l' job hl' hP =>
    obtain hold | rfl := List.mem_or_eq_of_mem_set hl
    · exact hall l hold
    · exact hQ hP l' job (hall l' (List.mem_of_getElem? hl'))
  | make =>
    obtain hold | hnew := List.mem_append.1 hl
    · exact hall l hold
    · rw [List.mem_singleton.1 hnew]
      exact h0

abbrev Feeding {α : Type} (P : Prop) : List (Lane α) → List (Lane α) → Prop :=
  Relation.ReflTransGen (Fed P)

theorem Feeding.old {Q : Lane α → Prop} (hQ : P → ∀ l job, Q l → Q (l.push job))
    (h : Feeding P lanes lanes') (hl : ∃ l, lanes[i]? = some l ∧ Q l) :
    ∃ l, lanes'[i]? = some l ∧ Q l := by
  induction h with
  | refl => exact hl
  | tail _ hlast ih => exact hlast.old hQ ih

theorem Feeding.all {Q : Lane α → Prop} (hQ : P → ∀ l job, Q l → Q (l.push job)) (h0 : Q .empty)
    (h : Feeding P lanes lanes') (hall : ∀ l ∈ lanes, Q l) : ∀ l ∈ lanes', Q l := by
  induction h with
  | refl => exact hall
  | tail _ hlast ih => exact hlast.all hQ h0 ih

theorem Feeding.balanced (h : Feeding P lanes lanes') (hall : ∀ l ∈ lanes, l.Balanced) :
    ∀ l ∈ lanes', l.Balanced :=
  h.all (Q := Lane.Balanced) (fun _ _ job hl => hl.push job) Lane.balanced_empty hall

/-- How many jobs of a lane are running. -/
def runs (lanes : List (Lane α)) (i : Nat) : Nat :=
  ((lanes[i]?).map fun l => l.running.toNat).getD 0

theorem runs_set {lanes : List (Lane α)} {i : Nat} {l l' : Lane α} (hl : lanes[i]? = some l)
    (j : Nat) : runs (lanes.set i l') j = if j = i then l'.running.toNat else runs lanes j := by
  have hlt := (List.getElem?_eq_some_iff.1 hl).1
  by_cases hj : j = i
  · subst hj
    simp [runs, hlt]
  · simp [runs, hj, List.getElem?_set_ne (Ne.symm hj)]

theorem Fed.runs (h : Fed P lanes lanes') (i : Nat) :
    Data.runs lanes' i = Data.runs lanes i := by
  cases h with
  | push j l job hl hp =>
    rw [runs_set hl]
    split
    · rename_i hij
      subst hij
      simp [Data.runs, hl, Lane.push]
    · rfl
  | make =>
    by_cases hlt : i < lanes.length
    · simp [Data.runs, List.getElem?_append_left hlt]
    · have hnone : lanes[i]? = none := List.getElem?_eq_none (by omega)
      simp only [Data.runs, List.getElem?_append_right (Nat.le_of_not_lt hlt), hnone]
      cases i - lanes.length <;> rfl

theorem Feeding.runs (h : Feeding P lanes lanes') (i : Nat) :
    Data.runs lanes' i = Data.runs lanes i := by
  induction h with
  | refl => rfl
  | tail _ hlast ih => exact (hlast.runs i).trans ih

end

end PonsWarp.Data
