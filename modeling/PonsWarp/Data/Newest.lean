import Mathlib.Order.Lattice
import Mathlib.Data.List.Induction

set_option autoImplicit false

/-!
A register that keeps, of all it is offered, what carries the highest stamp. What it
ends with does not depend on the order of the offers, nor on how often each is made.
-/

namespace PonsWarp.Data

variable {S V : Type} [LinearOrder S]

/-- An offer is taken only with a higher stamp than the one that is there. -/
def offer (r : Option (S × V)) (x : S × V) : Option (S × V) :=
  match r with
  | some held => if x.1 ≤ held.1 then some held else some x
  | none => some x

/-- `x` is among the offers and none has a higher stamp. -/
structure Newest (xs : List (S × V)) (x : S × V) : Prop where
  mem : x ∈ xs
  le : ∀ y ∈ xs, y.1 ≤ x.1

theorem Newest.snoc {xs : List (S × V)} {held : S × V} (h : Newest xs held) (x : S × V) :
    ∃ y, offer (some held) x = some y ∧ Newest (xs ++ [x]) y := by
  unfold offer
  simp only
  split
  · rename_i hle
    refine ⟨held, rfl, List.mem_append_left _ h.mem, fun y hy => ?_⟩
    obtain hy | hy := List.mem_append.1 hy
    · exact h.le y hy
    · rw [List.mem_singleton.1 hy]
      exact hle
  · rename_i hlt
    refine ⟨x, rfl, by simp, fun y hy => ?_⟩
    obtain hy | hy := List.mem_append.1 hy
    · exact (h.le y hy).trans (not_le.1 hlt).le
    · rw [List.mem_singleton.1 hy]

/-- After any offers the register is empty or holds the newest of them. -/
theorem offers_newest (xs : List (S × V)) :
    (xs = [] ∧ xs.foldl offer none = none) ∨
      ∃ x, xs.foldl offer none = some x ∧ Newest xs x := by
  induction xs using List.reverseRecOn with
  | nil => exact .inl ⟨rfl, rfl⟩
  | append_singleton xs x ih =>
    right
    rw [List.foldl_append, List.foldl_cons, List.foldl_nil]
    obtain ⟨rfl, hnone⟩ | ⟨held, hheld, hnew⟩ := ih
    · rw [hnone]
      exact ⟨x, rfl, by simp, by simp⟩
    · rw [hheld]
      exact hnew.snoc x

/-- Where a stamp determines the offer, the register holds the one with the highest. -/
theorem offers_eq {xs : List (S × V)} {x : S × V} (hx : Newest xs x)
    (hunique : ∀ y ∈ xs, y.1 = x.1 → y = x) : xs.foldl offer none = some x := by
  obtain ⟨rfl, -⟩ | ⟨y, hy, hnew⟩ := offers_newest xs
  · exact absurd hx.mem List.not_mem_nil
  · have hstamp : y.1 = x.1 := le_antisymm (hx.le y hnew.mem) (hnew.le x hx.mem)
    rw [hy, hunique y hnew.mem hstamp]

end PonsWarp.Data
