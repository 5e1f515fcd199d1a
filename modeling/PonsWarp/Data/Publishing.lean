import Mathlib.Data.List.Induction
import Mathlib.Data.List.Nodup

set_option autoImplicit false

/-!
Several writers read a value that goes on changing, and each shows what it has read in one
place. What is shown in the end is what was read last, as long as no writer shows an old
reading over a newer one.
-/

namespace PonsWarp.Data

variable {W V : Type}

/-- What was read last, or the value before the first reading. -/
def latest (v : V) (readings : List (W × V)) : V := (readings.getLast?.map Prod.snd).getD v

@[simp] theorem latest_nil (v : V) : latest v ([] : List (W × V)) = v := rfl

@[simp] theorem latest_concat (v : V) (readings : List (W × V)) (r : W × V) :
    latest v (readings ++ [r]) = r.2 := by
  simp [latest]

/-- A reading after that of `w` has been shown, and it is another one. -/
def overtaken [DecidableEq W] [DecidableEq V] (shown : W → Bool) (w : W) : List (W × V) → Bool
  | [] => false
  | (reader, x) :: later =>
    if reader = w then later.any fun r => shown r.1 && decide (r.2 ≠ x)
    else overtaken shown w later

theorem overtaken_append [DecidableEq W] [DecidableEq V] {shown : W → Bool} {w : W} {x : V}
    {before after : List (W × V)} (h : w ∉ before.map Prod.fst) :
    overtaken shown w (before ++ (w, x) :: after) =
      after.any fun r => shown r.1 && decide (r.2 ≠ x) := by
  induction before with
  | nil => simp [overtaken]
  | cons r rest ih =>
    simp only [List.map_cons, List.mem_cons, not_or] at h
    rw [List.cons_append, overtaken, if_neg (Ne.symm h.1)]
    exact ih h.2

/-- `x` was read, and what was read after it and has been shown is the same. -/
def Shown (shown : W → Bool) (v : V) (readings : List (W × V)) (x : V) : Prop :=
  ∃ before after, readings = before ++ after ∧ latest v before = x ∧
    ∀ r ∈ after, shown r.1 = true → r.2 = x

namespace Shown

variable {shown shown' : W → Bool} {v x : V} {readings : List (W × V)}

theorem start (shown : W → Bool) (v : V) : Shown shown v [] v :=
  ⟨[], [], rfl, rfl, by simp⟩

theorem congr (h : Shown shown v readings x)
    (hsame : ∀ r ∈ readings, shown' r.1 = true → shown r.1 = true) : Shown shown' v readings x := by
  obtain ⟨before, after, rfl, hlatest, hafter⟩ := h
  exact ⟨before, after, rfl, hlatest, fun r hr hshown =>
    hafter r hr (hsame r (List.mem_append_right _ hr) hshown)⟩

/-- A writer that is not overtaken shows its reading. -/
theorem publish [DecidableEq W] [DecidableEq V] {w : W} (hread : (w, x) ∈ readings)
    (honce : (readings.map Prod.fst).Nodup) (htimely : overtaken shown w readings = false)
    (hsame : ∀ u, u ≠ w → shown' u = shown u) : Shown shown' v readings x := by
  obtain ⟨before, after, rfl⟩ := List.append_of_mem hread
  rw [List.map_append, List.map_cons, List.nodup_append, List.nodup_cons] at honce
  obtain ⟨-, ⟨hafter, -⟩, hdisjoint⟩ := honce
  have hbefore : w ∉ before.map Prod.fst := fun hw => hdisjoint w hw w List.mem_cons_self rfl
  rw [overtaken_append hbefore, List.any_eq_false] at htimely
  refine ⟨before ++ [(w, x)], after, by simp, latest_concat v before (w, x), fun r hr hshown => ?_⟩
  have hne : r.1 ≠ w := by
    intro heq
    have hmem := List.mem_map_of_mem (f := Prod.fst) hr
    rw [heq] at hmem
    exact hafter hmem
  have hr' := htimely r hr
  rw [hsame r.1 hne] at hshown
  simpa [hshown] using hr'

/-- Once everything that was read has been shown, the last reading is what is there. -/
theorem eq_latest (h : Shown shown v readings x) (hall : ∀ r ∈ readings, shown r.1 = true) :
    x = latest v readings := by
  obtain ⟨before, after, rfl, hlatest, hafter⟩ := h
  induction after using List.reverseRecOn with
  | nil => rw [List.append_nil, hlatest]
  | append_singleton rest r _ =>
    rw [← List.append_assoc, latest_concat]
    have hr : r ∈ rest ++ [r] := by simp
    exact (hafter r hr (hall r (List.mem_append_right _ hr))).symm

end Shown

end PonsWarp.Data
