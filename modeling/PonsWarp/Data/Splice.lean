import Mathlib.Data.List.Basic
import Mathlib.Data.List.Flatten

set_option autoImplicit false

/-!
Files as lists: resizing, writing at a position, and cutting into pieces of one size.
Writes of parts of one list, in any order and any number of times, can only bring a file
of the same length closer to that list.
-/

namespace PonsWarp.Data

variable {α : Type}

/-- Cut or fill up to a length. -/
def resize (zero : α) (n : Nat) (file : List α) : List α :=
  file.take n ++ List.replicate (n - file.length) zero

/-- Write at a position; what is missing before it is filled up. -/
def splice (zero : α) (file : List α) (offset : Nat) (data : List α) : List α :=
  (resize zero offset file) ++ data ++ file.drop (offset + data.length)

/-- The part of a list from a position on. -/
def excerpt (data : List α) (offset size : Nat) : List α := (data.drop offset).take size

@[simp] theorem length_resize (zero : α) (n : Nat) (file : List α) :
    (resize zero n file).length = n := by
  simp [resize]
  omega

@[simp] theorem length_excerpt (data : List α) (offset size : Nat) :
    (excerpt data offset size).length = min size (data.length - offset) := by
  simp [excerpt]

theorem getElem?_excerpt (data : List α) (offset size j : Nat) :
    (excerpt data offset size)[j]? = if j < size then data[offset + j]? else none := by
  simp [excerpt, List.getElem?_take]

theorem resize_of_le (zero : α) {n : Nat} {file : List α} (h : n ≤ file.length) :
    resize zero n file = file.take n := by
  have hzero : n - file.length = 0 := by omega
  simp [resize, hzero]

theorem length_splice (zero : α) {file data : List α} {offset : Nat}
    (h : offset + data.length ≤ file.length) : (splice zero file offset data).length = file.length := by
  simp only [splice, List.length_append, length_resize, List.length_drop]
  omega

theorem getElem?_splice (zero : α) {file data : List α} {offset : Nat}
    (h : offset + data.length ≤ file.length) (j : Nat) :
    (splice zero file offset data)[j]? =
      if offset ≤ j ∧ j < offset + data.length then data[j - offset]? else file[j]? := by
  have hle : offset ≤ file.length := by omega
  have hlen : (file.take offset).length = offset := by simp [hle]
  rw [splice, resize_of_le zero hle, List.append_assoc, List.getElem?_append, hlen]
  split
  · rename_i hj
    rw [if_neg (by omega), List.getElem?_take, if_pos hj]
  · rename_i hj
    rw [List.getElem?_append]
    split
    · rw [if_pos (by omega)]
    · rw [if_neg (by omega), List.getElem?_drop]
      congr 1
      omega

theorem excerpt_splice_self (zero : α) {file data : List α} {offset : Nat}
    (h : offset + data.length ≤ file.length) :
    excerpt (splice zero file offset data) offset data.length = data := by
  refine List.ext_getElem? fun j => ?_
  rw [getElem?_excerpt]
  split
  · rename_i hj
    rw [getElem?_splice zero h, if_pos (by omega)]
    congr 1
    omega
  · rename_i hj
    rw [List.getElem?_eq_none (by omega)]

theorem excerpt_splice_of_apart (zero : α) {file data : List α} {offset start size : Nat}
    (h : offset + data.length ≤ file.length)
    (hapart : offset + data.length ≤ start ∨ start + size ≤ offset) :
    excerpt (splice zero file offset data) start size = excerpt file start size := by
  refine List.ext_getElem? fun j => ?_
  rw [getElem?_excerpt, getElem?_excerpt]
  split
  · rename_i hj
    rw [getElem?_splice zero h, if_neg (by omega)]
  · rfl

/-- Two files of one length with the same content at some of their positions. -/
structure AgreeOn (P : Nat → Prop) (file data : List α) : Prop where
  length : file.length = data.length
  same : ∀ j, P j → file[j]? = data[j]?

theorem AgreeOn.written {P : Nat → Prop} {file data : List α} (zero : α) (h : AgreeOn P file data)
    (offset size : Nat) (hsize : offset + size ≤ data.length) :
    AgreeOn (fun j => P j ∨ offset ≤ j ∧ j < offset + size)
      (splice zero file offset (excerpt data offset size)) data := by
  have hlen : (excerpt data offset size).length = size := by
    rw [length_excerpt]
    omega
  have hfits : offset + (excerpt data offset size).length ≤ file.length := by
    rw [hlen, h.length]
    exact hsize
  constructor
  · rw [length_splice zero hfits, h.length]
  · intro j hj
    rw [getElem?_splice zero hfits, hlen, getElem?_excerpt]
    split
    · rename_i hin
      rw [if_pos (by omega)]
      congr 1
      omega
    · rename_i hout
      exact h.same j (hj.resolve_right hout)

theorem AgreeOn.mono {P Q : Nat → Prop} {file data : List α} (h : AgreeOn P file data)
    (hsub : ∀ j, Q j → P j) : AgreeOn Q file data :=
  ⟨h.length, fun j hj => h.same j (hsub j hj)⟩

theorem AgreeOn.eq {P : Nat → Prop} {file data : List α} (h : AgreeOn P file data)
    (hall : ∀ j, j < data.length → P j) : file = data := by
  refine List.ext_getElem? fun j => ?_
  by_cases hj : j < data.length
  · exact h.same j (hall j hj)
  · have hlen := h.length
    rw [List.getElem?_eq_none (by omega), List.getElem?_eq_none (by omega)]

/-- The first pieces of a list, one after the other, are what the list begins with. -/
theorem flatten_excerpts (data : List α) (size count : Nat) :
    ((List.range count).map fun i => excerpt data (i * size) size).flatten =
      data.take (count * size) := by
  induction count with
  | zero => simp
  | succ count ih =>
    rw [List.range_succ, List.map_append, List.flatten_append, ih]
    simp only [excerpt, List.map_cons, List.map_nil, List.flatten_cons, List.flatten_nil,
      List.append_nil]
    rw [Nat.succ_mul, List.take_add]

/-- As many pieces as it takes reach the end. -/
theorem le_ceil_mul (n : Nat) {size : Nat} (h : 0 < size) : n ≤ (n + size - 1) / size * size := by
  have hdiv := Nat.div_add_mod (n + size - 1) size
  have hmod := Nat.mod_lt (n + size - 1) h
  rw [Nat.mul_comm] at hdiv
  omega

theorem mul_lt_of_lt_ceil {n size i : Nat} (h : 0 < size) (hi : i < (n + size - 1) / size) :
    i * size < n := by
  have hle : (i + 1) * size ≤ n + size - 1 := (Nat.le_div_iff_mul_le h).1 hi
  rw [Nat.succ_mul] at hle
  omega

end PonsWarp.Data
