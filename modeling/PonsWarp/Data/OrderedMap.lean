import Mathlib.Data.List.Basic
import Mathlib.Data.List.Nodup
import Mathlib.Data.List.Perm.Subperm

set_option autoImplicit false

/-!
Maps and sets that remember the order in which their keys were first added,
as the collections of the modelled language do. Setting a key that is present
keeps its position; deleting and setting it again moves it to the end.
-/

namespace PonsWarp.Data

variable {K V : Type} [DecidableEq K]

def lookup (k : K) : List (K × V) → Option V
  | [] => none
  | (a, v) :: rest => if a = k then some v else lookup k rest

def assign (k : K) (v : V) : List (K × V) → List (K × V)
  | [] => [(k, v)]
  | (a, w) :: rest => if a = k then (k, v) :: rest else (a, w) :: assign k v rest

def remove (k : K) : List (K × V) → List (K × V)
  | [] => []
  | (a, w) :: rest => if a = k then remove k rest else (a, w) :: remove k rest

theorem mem_keys_assign {k a : K} {v : V} {l : List (K × V)} :
    a ∈ (assign k v l).map Prod.fst ↔ a = k ∨ a ∈ l.map Prod.fst := by
  induction l with
  | nil => simp [assign]
  | cons p rest ih =>
    obtain ⟨b, w⟩ := p
    by_cases h : b = k
    · subst h
      simp [assign]
    · simp only [assign, if_neg h, List.map_cons, List.mem_cons, ih]
      tauto

theorem mem_remove {k : K} {p : K × V} {l : List (K × V)} :
    p ∈ remove k l ↔ p ∈ l ∧ p.1 ≠ k := by
  induction l with
  | nil => simp [remove]
  | cons q rest ih =>
    obtain ⟨b, w⟩ := q
    by_cases h : b = k
    · subst h
      simp only [remove, if_true, ih, List.mem_cons]
      constructor
      · rintro ⟨hp, hne⟩
        exact ⟨.inr hp, hne⟩
      · rintro ⟨rfl | hp, hne⟩
        · exact absurd rfl hne
        · exact ⟨hp, hne⟩
    · simp only [remove, if_neg h, List.mem_cons, ih]
      constructor
      · rintro (rfl | ⟨hp, hne⟩)
        · exact ⟨.inl rfl, h⟩
        · exact ⟨.inr hp, hne⟩
      · rintro ⟨rfl | hp, hne⟩
        · exact .inl rfl
        · exact .inr ⟨hp, hne⟩

theorem nodup_assign {k : K} {v : V} {l : List (K × V)} (h : (l.map Prod.fst).Nodup) :
    ((assign k v l).map Prod.fst).Nodup := by
  induction l with
  | nil => simp [assign]
  | cons p rest ih =>
    obtain ⟨b, w⟩ := p
    simp only [List.map_cons, List.nodup_cons] at h
    by_cases hb : b = k
    · subst hb
      simpa [assign] using h
    · simp only [assign, if_neg hb, List.map_cons, List.nodup_cons, mem_keys_assign]
      refine ⟨?_, ih h.2⟩
      rintro (rfl | hmem)
      · exact hb rfl
      · exact h.1 hmem

theorem nodup_remove {k : K} {l : List (K × V)} (h : (l.map Prod.fst).Nodup) :
    ((remove k l).map Prod.fst).Nodup := by
  induction l with
  | nil => simp [remove]
  | cons p rest ih =>
    obtain ⟨b, w⟩ := p
    simp only [List.map_cons, List.nodup_cons] at h
    by_cases hb : b = k
    · simpa [remove, hb] using ih h.2
    · simp only [remove, if_neg hb, List.map_cons, List.nodup_cons]
      refine ⟨?_, ih h.2⟩
      intro hmem
      obtain ⟨q, hq, hq1⟩ := List.mem_map.1 hmem
      exact h.1 (List.mem_map.2 ⟨q, (mem_remove.1 hq).1, hq1⟩)

theorem lookup_eq_some_iff {k : K} {v : V} {l : List (K × V)} (h : (l.map Prod.fst).Nodup) :
    lookup k l = some v ↔ (k, v) ∈ l := by
  induction l with
  | nil => simp [lookup]
  | cons p rest ih =>
    obtain ⟨b, w⟩ := p
    simp only [List.map_cons, List.nodup_cons] at h
    by_cases hb : b = k
    · subst hb
      have hrest : (b, v) ∉ rest := fun hm => h.1 (List.mem_map.2 ⟨(b, v), hm, rfl⟩)
      simp [lookup, hrest, eq_comm]
    · have hne : ¬ k = b := fun he => hb he.symm
      simp [lookup, hb, hne, ih h.2]

structure OrderedMap (K V : Type) where
  entries : List (K × V)
  nodup : (entries.map Prod.fst).Nodup

namespace OrderedMap

def empty : OrderedMap K V := ⟨[], List.nodup_nil⟩

def get? (m : OrderedMap K V) (k : K) : Option V := lookup k m.entries

def has (m : OrderedMap K V) (k : K) : Bool := (m.get? k).isSome

def set (m : OrderedMap K V) (k : K) (v : V) : OrderedMap K V :=
  ⟨assign k v m.entries, nodup_assign m.nodup⟩

def delete (m : OrderedMap K V) (k : K) : OrderedMap K V :=
  ⟨remove k m.entries, nodup_remove m.nodup⟩

def keys (m : OrderedMap K V) : List K := m.entries.map Prod.fst

def values (m : OrderedMap K V) : List V := m.entries.map Prod.snd

def size (m : OrderedMap K V) : Nat := m.entries.length

@[simp] theorem get?_empty (k : K) : (empty : OrderedMap K V).get? k = none := rfl

theorem get?_set (m : OrderedMap K V) (k a : K) (v : V) :
    (m.set k v).get? a = if a = k then some v else m.get? a := by
  simp only [get?, set]
  generalize m.entries = l
  induction l with
  | nil =>
    by_cases h : a = k
    · simp [assign, lookup, h]
    · have h' : ¬ k = a := fun he => h he.symm
      simp [assign, lookup, h, h']
  | cons p rest ih =>
    obtain ⟨b, w⟩ := p
    by_cases hb : b = k
    · subst hb
      by_cases h : a = b
      · simp [assign, lookup, h]
      · have h' : ¬ b = a := fun he => h he.symm
        simp [assign, lookup, h, h']
    · by_cases h : b = a
      · subst h
        simp [assign, lookup, hb]
      · simp [assign, lookup, hb, h, ih]

@[simp] theorem get?_set_self (m : OrderedMap K V) (k : K) (v : V) :
    (m.set k v).get? k = some v := by
  rw [get?_set, if_pos rfl]

theorem get?_set_of_ne (m : OrderedMap K V) {k a : K} (v : V) (h : a ≠ k) :
    (m.set k v).get? a = m.get? a := by
  rw [get?_set, if_neg h]

/-- Setting a key to the value it has changes nothing, also not the order. -/
theorem set_of_get? {m : OrderedMap K V} {k : K} {v : V} (h : m.get? k = some v) :
    m.set k v = m := by
  obtain ⟨l, hl⟩ := m
  simp only [get?] at h
  simp only [set, mk.injEq]
  clear hl
  induction l with
  | nil => simp [lookup] at h
  | cons p rest ih =>
    obtain ⟨b, w⟩ := p
    by_cases hb : b = k
    · simp only [lookup, hb, if_true, Option.some.injEq] at h
      simp [assign, hb, h]
    · simp only [lookup, if_neg hb] at h
      simp [assign, hb, ih h]

theorem set_set (m : OrderedMap K V) (k : K) (v w : V) : (m.set k v).set k w = m.set k w := by
  obtain ⟨l, hl⟩ := m
  simp only [set, mk.injEq]
  clear hl
  induction l with
  | nil => simp [assign]
  | cons p rest ih =>
    obtain ⟨b, x⟩ := p
    by_cases hb : b = k
    · simp [assign, hb]
    · simp [assign, hb, ih]

/-- A key that was added last is taken away again without a trace. -/
theorem delete_set {m : OrderedMap K V} {k : K} {v : V} (h : m.get? k = none) :
    (m.set k v).delete k = m := by
  obtain ⟨l, hl⟩ := m
  simp only [get?] at h
  simp only [set, delete, mk.injEq]
  clear hl
  induction l with
  | nil => simp [assign, remove]
  | cons p rest ih =>
    obtain ⟨b, w⟩ := p
    by_cases hb : b = k
    · simp [lookup, hb] at h
    · simp only [lookup, if_neg hb] at h
      simp [assign, remove, hb, ih h]

theorem delete_of_get? {m : OrderedMap K V} {k : K} (h : m.get? k = none) : m.delete k = m := by
  obtain ⟨l, hl⟩ := m
  simp only [get?] at h
  simp only [delete, mk.injEq]
  clear hl
  induction l with
  | nil => simp [remove]
  | cons p rest ih =>
    obtain ⟨b, w⟩ := p
    by_cases hb : b = k
    · simp [lookup, hb] at h
    · simp only [lookup, if_neg hb] at h
      simp [remove, hb, ih h]

theorem get?_delete (m : OrderedMap K V) (k a : K) :
    (m.delete k).get? a = if a = k then none else m.get? a := by
  simp only [get?, delete]
  generalize m.entries = l
  induction l with
  | nil => simp [remove, lookup]
  | cons p rest ih =>
    obtain ⟨b, w⟩ := p
    by_cases hb : b = k
    · subst hb
      by_cases h : a = b
      · subst h
        simpa [remove] using ih
      · have h' : ¬ b = a := fun he => h he.symm
        simpa [remove, lookup, h, h'] using ih
    · by_cases h : b = a
      · subst h
        simp [remove, lookup, hb]
      · simpa [remove, lookup, hb, h] using ih

@[simp] theorem get?_delete_self (m : OrderedMap K V) (k : K) : (m.delete k).get? k = none := by
  rw [get?_delete, if_pos rfl]

theorem get?_delete_of_ne (m : OrderedMap K V) {k a : K} (h : a ≠ k) :
    (m.delete k).get? a = m.get? a := by
  rw [get?_delete, if_neg h]

theorem get?_delete_eq_some {m : OrderedMap K V} {k a : K} {v : V} :
    (m.delete k).get? a = some v ↔ a ≠ k ∧ m.get? a = some v := by
  rw [get?_delete]
  split <;> simp_all

theorem mem_entries_iff {m : OrderedMap K V} {k : K} {v : V} :
    (k, v) ∈ m.entries ↔ m.get? k = some v :=
  (lookup_eq_some_iff m.nodup).symm

theorem mem_keys_iff {m : OrderedMap K V} {k : K} : k ∈ m.keys ↔ ∃ v, m.get? k = some v := by
  simp [keys, ← mem_entries_iff]

theorem mem_values_iff {m : OrderedMap K V} {v : V} : v ∈ m.values ↔ ∃ k, m.get? k = some v := by
  simp [values, ← mem_entries_iff]

theorem has_iff {m : OrderedMap K V} {k : K} : m.has k = true ↔ ∃ v, m.get? k = some v :=
  Option.isSome_iff_exists

theorem has_eq_false_iff {m : OrderedMap K V} {k : K} : m.has k = false ↔ m.get? k = none := by
  simp [has]

/-- A map without keys of its own is not larger. -/
theorem size_le_of_has {m m' : OrderedMap K V} (h : ∀ k, m'.has k = true → m.has k = true) :
    m'.size ≤ m.size := by
  have hkeys : m'.keys ⊆ m.keys := fun k hk => by
    rw [mem_keys_iff, ← has_iff] at hk ⊢
    exact h k hk
  have hlength := (List.subperm_of_subset m'.nodup hkeys).length_le
  simpa [keys, size] using hlength

theorem size_set_le (m : OrderedMap K V) (k : K) (v : V) : (m.set k v).size ≤ m.size + 1 := by
  simp only [size, set]
  generalize m.entries = l
  induction l with
  | nil => simp [assign]
  | cons p rest ih =>
    obtain ⟨b, w⟩ := p
    by_cases hb : b = k
    · simp [assign, hb]
    · simp only [assign, if_neg hb, List.length_cons]
      omega

omit [DecidableEq K] in
theorem entries_nodup (m : OrderedMap K V) : m.entries.Nodup := m.nodup.of_map _

theorem values_delete_sublist (m : OrderedMap K V) (k : K) :
    (m.delete k).values.Sublist m.values := by
  have h : ∀ l : List (K × V), (remove k l).Sublist l := by
    intro l
    induction l with
    | nil => exact .slnil
    | cons p rest ih =>
      simp only [remove]
      split
      · exact ih.cons _
      · exact ih.cons_cons _
  exact (h m.entries).map Prod.snd

/-- Apart from their order, the values after a key is set are the new one and those of the
other keys. -/
theorem values_set_perm (m : OrderedMap K V) (k : K) (v : V) :
    (m.set k v).values.Perm (v :: (m.delete k).values) := by
  have hnew : (k, v) ∉ (m.delete k).entries := by simp [mem_entries_iff]
  have hentries : (m.set k v).entries.Perm ((k, v) :: (m.delete k).entries) := by
    refine (List.perm_ext_iff_of_nodup (entries_nodup _)
      (List.nodup_cons.2 ⟨hnew, entries_nodup _⟩)).2 ?_
    rintro ⟨a, w⟩
    rw [List.mem_cons, mem_entries_iff, mem_entries_iff, get?_set, get?_delete, Prod.mk.injEq]
    by_cases h : a = k <;> simp [h, eq_comm]
  exact hentries.map Prod.snd

theorem values_delete_perm {m : OrderedMap K V} {k : K} {v : V} (h : m.get? k = some v) :
    m.values.Perm (v :: (m.delete k).values) := by
  have hgone : (k, v) ∉ (m.delete k).entries := by simp [mem_entries_iff]
  have hentries : m.entries.Perm ((k, v) :: (m.delete k).entries) := by
    refine (List.perm_ext_iff_of_nodup (entries_nodup _)
      (List.nodup_cons.2 ⟨hgone, entries_nodup _⟩)).2 ?_
    rintro ⟨a, w⟩
    rw [List.mem_cons, mem_entries_iff, mem_entries_iff, get?_delete, Prod.mk.injEq]
    by_cases ha : a = k
    · subst ha
      simp [h, eq_comm]
    · simp [ha]
  exact hentries.map Prod.snd

/-- Delete every key of a list. -/
def deleteAll (m : OrderedMap K V) (ks : List K) : OrderedMap K V := ks.foldl delete m

theorem get?_deleteAll (m : OrderedMap K V) (ks : List K) (a : K) :
    (m.deleteAll ks).get? a = if a ∈ ks then none else m.get? a := by
  induction ks generalizing m with
  | nil => simp [deleteAll]
  | cons k rest ih =>
    have h := ih (m.delete k)
    simp only [deleteAll, List.foldl_cons] at h ⊢
    rw [h, get?_delete]
    by_cases hr : a ∈ rest <;> by_cases hk : a = k <;> simp [hr, hk]

end OrderedMap

/-- Add to a set kept as a list in the order of addition. -/
def insertNew (l : List K) (a : K) : List K := if a ∈ l then l else l ++ [a]

@[simp] theorem mem_insertNew {l : List K} {a b : K} : b ∈ insertNew l a ↔ b ∈ l ∨ b = a := by
  unfold insertNew
  split
  · constructor
    · exact .inl
    · rintro (h | rfl) <;> assumption
  · simp

theorem nodup_insertNew {l : List K} (h : l.Nodup) (a : K) : (insertNew l a).Nodup := by
  unfold insertNew
  split
  · exact h
  · rename_i hnew
    simpa using h.concat hnew

end PonsWarp.Data
