import PonsWarp.Data.OrderedMap

set_option autoImplicit false

/-!
A map that is kept under codes of its keys. As long as no two keys in it share a
code, and none that is looked up has the code of another, it is the map itself.
-/

namespace PonsWarp.Data

variable {A B V : Type} [DecidableEq A] [DecidableEq B]

/-- `m` has the entries of `n` under their codes, each code standing for one key. -/
structure Encodes (code : A → B) (m : OrderedMap B V) (n : OrderedMap A V) : Prop where
  kept : ∀ a v, n.get? a = some v → m.get? (code a) = some v
  only : ∀ b v, m.get? b = some v → ∃ a, code a = b ∧ n.get? a = some v
  one : ∀ a a', n.has a = true → n.has a' = true → code a = code a' → a = a'

/-- No other key of the map has the code of `a`. -/
def Clear (code : A → B) (n : OrderedMap A V) (a : A) : Prop :=
  ∀ a' ∈ n.keys, code a' = code a → a' = a

instance decidableClear (code : A → B) (n : OrderedMap A V) (a : A) :
    Decidable (Clear code n a) :=
  inferInstanceAs (Decidable (∀ a' ∈ n.keys, code a' = code a → a' = a))

namespace Encodes

variable {code : A → B} {m : OrderedMap B V} {n : OrderedMap A V} {a : A}

theorem empty : Encodes code (.empty : OrderedMap B V) .empty :=
  ⟨fun _ _ h => (by cases h), fun _ _ h => (by cases h), fun _ _ h => (by cases h)⟩

theorem get? (h : Encodes code m n) (hc : Clear code n a) : m.get? (code a) = n.get? a := by
  cases hn : n.get? a with
  | some v => exact h.kept a v hn
  | none =>
    by_contra hsome
    obtain ⟨v, hv⟩ := Option.ne_none_iff_exists'.1 hsome
    obtain ⟨a', hcode, ha'⟩ := h.only _ v hv
    have hsame := hc a' (OrderedMap.mem_keys_iff.2 ⟨v, ha'⟩) hcode
    rw [hsame, hn] at ha'
    cases ha'

theorem has (h : Encodes code m n) (hc : Clear code n a) : m.has (code a) = n.has a := by
  simp only [OrderedMap.has, h.get? hc]

theorem set (h : Encodes code m n) (hc : Clear code n a) (v : V) :
    Encodes code (m.set (code a) v) (n.set a v) := by
  have hne : ∀ a', n.has a' = true → a' ≠ a → code a' ≠ code a := fun a' hin hne he =>
    hne (hc a' (OrderedMap.mem_keys_iff.2 (OrderedMap.has_iff.1 hin)) he)
  refine ⟨fun a' w hw => ?_, fun b w hw => ?_, fun a₁ a₂ h₁ h₂ he => ?_⟩
  · by_cases ha : a' = a
    · subst ha
      simpa using hw
    · rw [OrderedMap.get?_set_of_ne _ _ ha] at hw
      rw [OrderedMap.get?_set_of_ne _ _ (hne a' (OrderedMap.has_iff.2 ⟨w, hw⟩) ha)]
      exact h.kept a' w hw
  · by_cases hb : b = code a
    · subst hb
      exact ⟨a, rfl, by simpa using hw⟩
    · rw [OrderedMap.get?_set_of_ne _ _ hb] at hw
      obtain ⟨a', rfl, ha'⟩ := h.only b w hw
      refine ⟨a', rfl, ?_⟩
      rw [OrderedMap.get?_set_of_ne _ _ (fun he => hb (congrArg code he))]
      exact ha'
  · have hold : ∀ a', (n.set a v).has a' = true → a' = a ∨ n.has a' = true := by
      intro a' hin
      by_cases ha : a' = a
      · exact .inl ha
      · rw [OrderedMap.has, OrderedMap.get?_set_of_ne _ _ ha] at hin
        exact .inr hin
    by_cases ha₁ : a₁ = a <;> by_cases ha₂ : a₂ = a
    · rw [ha₁, ha₂]
    · subst ha₁
      exact absurd he.symm (hne a₂ ((hold a₂ h₂).resolve_left ha₂) ha₂)
    · subst ha₂
      exact absurd he (hne a₁ ((hold a₁ h₁).resolve_left ha₁) ha₁)
    · exact h.one a₁ a₂ ((hold a₁ h₁).resolve_left ha₁) ((hold a₂ h₂).resolve_left ha₂) he

theorem delete (h : Encodes code m n) (hc : Clear code n a) :
    Encodes code (m.delete (code a)) (n.delete a) := by
  have hold : ∀ a', (n.delete a).has a' = true → n.has a' = true := by
    intro a' hin
    obtain ⟨w, hw⟩ := OrderedMap.has_iff.1 hin
    exact OrderedMap.has_iff.2 ⟨w, (OrderedMap.get?_delete_eq_some.1 hw).2⟩
  refine ⟨fun a' w hw => ?_, fun b w hw => ?_, fun a₁ a₂ h₁ h₂ he => ?_⟩
  · obtain ⟨hne, hw⟩ := OrderedMap.get?_delete_eq_some.1 hw
    refine OrderedMap.get?_delete_eq_some.2 ⟨fun he => hne ?_, h.kept a' w hw⟩
    exact hc a' (OrderedMap.mem_keys_iff.2 ⟨w, hw⟩) he
  · obtain ⟨hne, hw⟩ := OrderedMap.get?_delete_eq_some.1 hw
    obtain ⟨a', rfl, ha'⟩ := h.only b w hw
    exact ⟨a', rfl, OrderedMap.get?_delete_eq_some.2 ⟨fun he => hne (congrArg code he), ha'⟩⟩
  · exact h.one a₁ a₂ (hold a₁ h₁) (hold a₂ h₂) he

end Encodes

end PonsWarp.Data
