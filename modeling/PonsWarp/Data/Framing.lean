import Mathlib.Data.List.Basic
import Mathlib.Data.List.Infix

set_option autoImplicit false

/-!
A stream of encoded items that arrives in parts. At every moment some items have
arrived whole, and of the next one a beginning may be there.
-/

namespace PonsWarp.Data

variable {A B : Type} {encode : A → List B}

/-- A beginning of the first item that is not all of it. -/
def Begins (encode : A → List B) : List A → List B → Prop
  | [], part => part = []
  | a :: _, part => part <+: encode a ∧ part ≠ encode a

/-- The items that have arrived with the given bytes, those to come, and what is there of them. -/
structure Cut (encode : A → List B) (items : List A) (bytes : List B) (whole todo : List A)
    (part : List B) : Prop where
  items : items = whole ++ todo
  bytes : bytes = whole.flatMap encode ++ part
  begins : Begins encode todo part

/-- How many bytes of an unfinished item there are after `n` bytes, the items having these sizes. -/
def unfinished : List Nat → Nat → Nat
  | [], n => n
  | size :: rest, n => if n < size then n else unfinished rest (n - size)

theorem exists_cut {items : List A} {bytes : List B} (h : bytes <+: items.flatMap encode) :
    ∃ whole todo part, Cut encode items bytes whole todo part := by
  induction items generalizing bytes with
  | nil =>
    have hnil : bytes = [] := by simpa using h
    exact ⟨[], [], [], rfl, by simp [hnil], rfl⟩
  | cons a rest ih =>
    rw [List.flatMap_cons] at h
    by_cases ha : encode a <+: bytes
    · obtain ⟨more, rfl⟩ := ha
      obtain ⟨whole, todo, part, hitems, hbytes, hbegins⟩ :=
        ih ((List.prefix_append_right_inj _).1 h)
      exact ⟨a :: whole, todo, part, by simp [hitems], by simp [hbytes], hbegins⟩
    · have hpart : bytes <+: encode a := by
        rcases List.prefix_or_prefix_of_prefix h (List.prefix_append _ _) with hle | hle
        · exact hle
        · exact absurd hle ha
      refine ⟨[], a :: rest, bytes, rfl, rfl, hpart, ?_⟩
      rintro rfl
      exact ha (List.prefix_refl _)

namespace Cut

variable {items whole todo whole' todo' : List A} {bytes more part part' : List B}

theorem nil {a : A} {rest : List A} (h : encode a ≠ []) :
    Cut encode (a :: rest) [] [] (a :: rest) [] :=
  ⟨rfl, rfl, List.nil_prefix, fun he => h he.symm⟩

/-- With more bytes, more items arrive. -/
theorem append (h : Cut encode items bytes whole todo part)
    (h' : Cut encode todo (part ++ more) whole' todo' part') :
    Cut encode items (bytes ++ more) (whole ++ whole') todo' part' := by
  refine ⟨?_, ?_, h'.begins⟩
  · rw [h.items, h'.items, List.append_assoc]
  · rw [h.bytes, List.append_assoc, h'.bytes, List.flatMap_append, List.append_assoc]

/-- The bytes of the rest of the stream continue what is there of the next item. -/
theorem rest (h : Cut encode items bytes whole todo part)
    (hmore : bytes ++ more <+: items.flatMap encode) :
    part ++ more <+: todo.flatMap encode := by
  rw [h.items, h.bytes, List.flatMap_append, List.append_assoc] at hmore
  exact (List.prefix_append_right_inj _).1 hmore

theorem length_part (h : Cut encode items bytes whole todo part) :
    part.length = unfinished (items.map fun a => (encode a).length) bytes.length := by
  obtain ⟨rfl, rfl, hbegins⟩ := h
  induction whole with
  | nil =>
    cases todo with
    | nil =>
      have hnil : part = [] := hbegins
      simp [hnil, unfinished]
    | cons a rest =>
      have hlt : part.length < (encode a).length := by
        obtain ⟨hpart, hne⟩ := hbegins
        have hle := hpart.length_le
        have hneq : part.length ≠ (encode a).length := fun he => hne (hpart.eq_of_length he)
        omega
      simp [unfinished, hlt]
  | cons a whole ih =>
    have hge : ¬ ((a :: whole).flatMap encode ++ part).length < (encode a).length := by
      simp
    have hsub : ((a :: whole).flatMap encode ++ part).length - (encode a).length =
        (whole.flatMap encode ++ part).length := by
      simp only [List.flatMap_cons, List.length_append]
      omega
    rw [List.cons_append, List.map_cons, unfinished, if_neg hge, hsub]
    exact ih

/-- When all has arrived, nothing is left to come. -/
theorem complete (h : Cut encode items (items.flatMap encode) whole todo part) :
    whole = items ∧ part = [] := by
  obtain ⟨rfl, hbytes, hbegins⟩ := h
  rw [List.flatMap_append, List.append_cancel_left_eq] at hbytes
  cases todo with
  | nil =>
    have hnil : part = [] := hbegins
    exact ⟨by simp, hnil⟩
  | cons a rest =>
    obtain ⟨hpart, hne⟩ := hbegins
    rw [List.flatMap_cons] at hbytes
    have hle := hpart.length_le
    have hlength := congrArg List.length hbytes
    rw [List.length_append] at hlength
    exact absurd (hpart.eq_of_length (by omega)) hne

end Cut

/-- A receiver that does right by each part of a stream has at every moment received what has
arrived of it, however the stream is cut up. -/
theorem exists_foldl_parts {S : Type} (feed : S → List B → S) (state : List A → List B → S)
    {items : List A} {parts : List (List B)} (hne : ∀ a, encode a ≠ [])
    (hparts : parts.flatten <+: items.flatMap encode)
    (hfeed : ∀ before chunk after whole todo part whole' todo' part',
      parts = before ++ chunk :: after → Cut encode items before.flatten whole todo part →
      Cut encode todo (part ++ chunk) whole' todo' part' →
      feed (state whole part) chunk = state (whole ++ whole') part') :
    ∃ whole todo part, Cut encode items parts.flatten whole todo part ∧
      parts.foldl feed (state [] []) = state whole part := by
  induction parts using List.reverseRecOn with
  | nil =>
    cases items with
    | nil => exact ⟨[], [], [], ⟨rfl, rfl, rfl⟩, rfl⟩
    | cons a rest => exact ⟨[], a :: rest, [], .nil (hne a), rfl⟩
  | append_singleton parts chunk ih =>
    rw [List.flatten_append, List.flatten_singleton] at hparts
    obtain ⟨whole, todo, part, hcut, hstate⟩ :=
      ih ((List.prefix_append _ _).trans hparts) fun before chunk' after whole todo part whole'
        todo' part' hsplit =>
          hfeed before chunk' (after ++ [chunk]) whole todo part whole' todo' part' (by simp [hsplit])
    obtain ⟨whole', todo', part', hcut'⟩ := exists_cut (hcut.rest hparts)
    refine ⟨whole ++ whole', todo', part', ?_, ?_⟩
    · simpa using hcut.append hcut'
    · rw [List.foldl_append, hstate]
      exact hfeed parts chunk [] whole todo part whole' todo' part' rfl hcut hcut'

/-- In the end it has received all. -/
theorem foldl_parts {S : Type} (feed : S → List B → S) (state : List A → List B → S)
    {items : List A} {parts : List (List B)} (hne : ∀ a, encode a ≠ [])
    (hparts : parts.flatten = items.flatMap encode)
    (hfeed : ∀ before chunk after whole todo part whole' todo' part',
      parts = before ++ chunk :: after → Cut encode items before.flatten whole todo part →
      Cut encode todo (part ++ chunk) whole' todo' part' →
      feed (state whole part) chunk = state (whole ++ whole') part') :
    parts.foldl feed (state [] []) = state items [] := by
  obtain ⟨whole, todo, part, hcut, hstate⟩ :=
    exists_foldl_parts feed state hne (by rw [hparts]) hfeed
  rw [hparts] at hcut
  obtain ⟨rfl, rfl⟩ := hcut.complete
  exact hstate

end PonsWarp.Data
