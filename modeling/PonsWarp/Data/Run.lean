import Mathlib.Data.List.Basic

set_option autoImplicit false

/-!
Runs of a machine given by a step function on labelled moves. A run takes the
moves that `ok` allows in the state they are taken in.
-/

namespace PonsWarp.Data

variable {S L : Type}

inductive Run (step : S → L → S) (ok : S → L → Prop) : S → S → Prop
  | refl (s : S) : Run step ok s s
  | tail {s t : S} (l : L) : Run step ok s t → ok t l → Run step ok s (step t l)

namespace Run

variable {step : S → L → S} {ok ok' : S → L → Prop} {s t u : S}

theorem head (l : L) (hl : ok s l) (h : Run step ok (step s l) t) : Run step ok s t := by
  induction h with
  | refl => exact .tail l (.refl s) hl
  | tail m _ hm ih => exact .tail m ih hm

theorem trans (h : Run step ok s t) (h' : Run step ok t u) : Run step ok s u := by
  induction h' with
  | refl => exact h
  | tail l _ hl ih => exact .tail l ih hl

/-- What every allowed move preserves holds along every run. -/
theorem invariant {P : S → Prop} (hstep : ∀ s l, P s → ok s l → P (step s l))
    (h : Run step ok s t) (h0 : P s) : P t := by
  induction h with
  | refl => exact h0
  | tail l _ hl ih => exact hstep _ l ih hl

end Run

/-- Take the listed moves in order. -/
def steps (step : S → L → S) (s : S) (ls : List L) : S := ls.foldl step s

theorem run_steps {step : S → L → S} (s : S) (ls : List L) :
    Run step (fun _ _ => True) s (steps step s ls) := by
  induction ls generalizing s with
  | nil => exact .refl s
  | cons l rest ih => exact .head l trivial (ih (step s l))

/-- The listed moves are allowed one after the other. -/
def Allowed (step : S → L → S) (ok : S → L → Prop) : S → List L → Prop
  | _, [] => True
  | s, l :: rest => ok s l ∧ Allowed step ok (step s l) rest

instance decidableAllowed (step : S → L → S) (ok : S → L → Prop)
    [∀ s l, Decidable (ok s l)] : ∀ s ls, Decidable (Allowed step ok s ls)
  | _, [] => isTrue trivial
  | s, l :: rest =>
    have := decidableAllowed step ok (step s l) rest
    inferInstanceAs (Decidable (ok s l ∧ Allowed step ok (step s l) rest))

/-- Each listed move is allowed in the state that the moves before it lead to. -/
theorem allowed_iff {step : S → L → S} {ok : S → L → Prop} {s : S} {ls : List L} :
    Allowed step ok s ls ↔
      ∀ before l after, ls = before ++ l :: after → ok (steps step s before) l := by
  induction ls generalizing s with
  | nil => simp [Allowed]
  | cons l rest ih =>
    constructor
    · rintro ⟨hl, hrest⟩ before l' after heq
      cases before with
      | nil =>
        cases heq
        exact hl
      | cons first before =>
        cases heq
        exact ih.1 hrest before l' after rfl
    · intro h
      refine ⟨h [] l rest rfl, ih.2 fun before l' after heq => ?_⟩
      exact h (l :: before) l' after (by rw [heq, List.cons_append])

theorem run_of_allowed {step : S → L → S} {ok : S → L → Prop} {s : S} {ls : List L}
    (h : Allowed step ok s ls) : Run step ok s (steps step s ls) := by
  induction ls generalizing s with
  | nil => exact .refl s
  | cons l rest ih => exact .head l h.1 (ih h.2)

end PonsWarp.Data
