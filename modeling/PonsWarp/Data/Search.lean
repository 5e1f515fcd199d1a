import Mathlib.Data.List.Basic
import Mathlib.Data.List.Infix

set_option autoImplicit false

/-!
The first place of a pattern in a list, as `indexOf` of the language finds it, and what
it has to do with that in a part of the list.
-/

namespace PonsWarp.Data

variable {α : Type} [DecidableEq α]

def indexOf (pattern : List α) : List α → Option Nat
  | [] => if pattern = [] then some 0 else none
  | a :: rest =>
    if pattern <+: a :: rest then some 0 else (indexOf pattern rest).map (· + 1)

variable {pattern l m : List α} {i j : Nat}

theorem indexOf_spec (h : indexOf pattern l = some i) :
    pattern <+: l.drop i ∧ ∀ j < i, ¬ pattern <+: l.drop j := by
  induction l generalizing i with
  | nil =>
    unfold indexOf at h
    split at h
    · rename_i hp
      cases h
      exact ⟨by simp [hp], by simp⟩
    · cases h
  | cons a rest ih =>
    unfold indexOf at h
    split at h
    · rename_i hp
      cases h
      exact ⟨by simpa using hp, by simp⟩
    · rename_i hp
      obtain ⟨k, hk, rfl⟩ := Option.map_eq_some_iff.1 h
      obtain ⟨hthere, hfirst⟩ := ih hk
      refine ⟨by simpa using hthere, fun j hj => ?_⟩
      cases j with
      | zero => simpa using hp
      | succ j => simpa using hfirst j (by omega)

/-- Where the pattern stands, it is found, there or before. -/
theorem exists_indexOf (h : pattern <+: l.drop j) : ∃ i ≤ j, indexOf pattern l = some i := by
  induction l generalizing j with
  | nil =>
    have hp : pattern = [] := by simpa using h
    exact ⟨0, by omega, by simp [indexOf, hp]⟩
  | cons a rest ih =>
    unfold indexOf
    split
    · exact ⟨0, by omega, rfl⟩
    · rename_i hp
      cases j with
      | zero => exact absurd (by simpa using h) hp
      | succ j =>
        obtain ⟨i, hi, hfound⟩ := ih (j := j) (by simpa using h)
        exact ⟨i + 1, by omega, by rw [hfound]; rfl⟩

theorem indexOf_eq_none : indexOf pattern l = none ↔ ∀ j, ¬ pattern <+: l.drop j := by
  constructor
  · intro h j hj
    obtain ⟨i, -, hi⟩ := exists_indexOf hj
    rw [h] at hi
    cases hi
  · intro h
    cases hfound : indexOf pattern l with
    | none => rfl
    | some i => exact absurd (indexOf_spec hfound).1 (h i)

/-- The place is the one where the pattern stands and did not before. -/
theorem indexOf_eq_some : indexOf pattern l = some i ↔
    pattern <+: l.drop i ∧ ∀ j < i, ¬ pattern <+: l.drop j := by
  constructor
  · exact indexOf_spec
  · rintro ⟨hthere, hfirst⟩
    obtain ⟨k, hk, hfound⟩ := exists_indexOf hthere
    have hki : ¬ k < i := fun hlt => hfirst k hlt (indexOf_spec hfound).1
    rw [hfound, show k = i by omega]

theorem indexOf_le (hne : pattern ≠ []) (h : indexOf pattern l = some i) :
    i + pattern.length ≤ l.length := by
  have hle := (indexOf_spec h).1.length_le
  rw [List.length_drop] at hle
  have hpos := List.length_pos_iff.2 hne
  omega

/-- What is found in a list is found in a longer one. -/
theorem indexOf_append (hne : pattern ≠ []) (h : indexOf pattern l = some i) (m : List α) :
    indexOf pattern (l ++ m) = some i := by
  have hle := indexOf_le hne h
  obtain ⟨hthere, hfirst⟩ := indexOf_spec h
  refine indexOf_eq_some.2 ⟨?_, fun j hj hstands => hfirst j hj ?_⟩
  · rw [List.drop_append_of_le_length (by omega)]
    exact hthere.trans (List.prefix_append _ _)
  · rw [List.drop_append_of_le_length (by omega)] at hstands
    refine List.prefix_of_prefix_length_le hstands (List.prefix_append _ m) ?_
    rw [List.length_drop]
    omega

/-- What is found in a list is found in the part of it that holds it whole. -/
theorem indexOf_of_append (h : indexOf pattern (l ++ m) = some i)
    (hle : i + pattern.length ≤ l.length) : indexOf pattern l = some i := by
  obtain ⟨hthere, hfirst⟩ := indexOf_spec h
  refine indexOf_eq_some.2 ⟨?_, fun j hj hstands => hfirst j hj ?_⟩
  · rw [List.drop_append_of_le_length (by omega)] at hthere
    refine List.prefix_of_prefix_length_le hthere (List.prefix_append _ m) ?_
    rw [List.length_drop]
    omega
  · rw [List.drop_append_of_le_length (by omega)]
    exact hstands.trans (List.prefix_append _ _)

/-- In a list the pattern is found no later than in the end of it. -/
theorem indexOf_append_left (h : indexOf pattern m = some i) (l : List α) :
    ∃ j ≤ l.length + i, indexOf pattern (l ++ m) = some j := by
  refine exists_indexOf ?_
  rw [List.drop_append, Nat.add_sub_cancel_left, List.drop_of_length_le (by omega),
    List.nil_append]
  exact (indexOf_spec h).1

theorem indexOf_eq_none_of_not_mem {a : α} {rest : List α} (h : a ∉ l) :
    indexOf (a :: rest) l = none := by
  refine indexOf_eq_none.2 fun j hj => h ?_
  exact List.mem_of_mem_drop (hj.subset List.mem_cons_self)

end PonsWarp.Data
