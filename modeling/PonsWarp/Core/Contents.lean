import PonsWarp.Core.Storage

set_option autoImplicit false

/-!
What a storage that does not fail holds: for every file and position the bytes
it would answer a read with. A read changes nothing, and a delete empties one
position.
-/

namespace PonsWarp.Core

open PonsWarp.Data

structure Contents (σ : Type) [StorageAdapter σ] where
  Ready : σ → Prop
  bytes : σ → FileId → Nat → Option ArrayBuffer
  read : ∀ s f i, Ready s → StorageAdapter.readPiece f i s = (.ok (bytes s f i), s)
  delete : ∀ s f i, Ready s → ∃ s', StorageAdapter.deletePiece f i s = (.ok (), s') ∧ Ready s' ∧
    ∀ g j, bytes s' g j = if g = f ∧ j = i then none else bytes s g j

namespace MemoryStorageAdapter

/-- The piece index is what follows the last colon. -/
theorem index_after_colon {f g : List Char} {i j : Nat}
    (h : f ++ ':' :: Nat.toDigits 10 i = g ++ ':' :: Nat.toDigits 10 j) : f = g ∧ i = j := by
  have hdigits : ∀ (f : List Char) (i : Nat),
      ((f ++ ':' :: Nat.toDigits 10 i).reverse.takeWhile (· ≠ ':')).reverse =
        Nat.toDigits 10 i := by
    intro f i
    have hno : ∀ c ∈ (Nat.toDigits 10 i).reverse, (c ≠ ':' : Bool) = true := by
      intro c hc
      have hd : c.isDigit = true :=
        Nat.isDigit_of_mem_toDigits (by decide) (by decide) (List.mem_reverse.1 hc)
      simp only [ne_eq, decide_not, Bool.not_eq_true', decide_eq_false_iff_not]
      rintro rfl
      exact absurd hd (by decide)
    rw [List.reverse_append, List.reverse_cons, List.append_assoc, List.takeWhile_append_of_pos hno]
    simp
  have hij : Nat.toDigits 10 i = Nat.toDigits 10 j := by rw [← hdigits f i, ← hdigits g j, h]
  have hindex : i = j := by
    have hval := congrArg (Nat.ofDigitChars 10 · 0) hij
    simpa using hval
  subst hindex
  exact ⟨List.append_cancel_right h, rfl⟩

/-- In one session, a key names one file and one position. -/
theorem key_inj {session : SessionId} {f g : FileId} {i j : Nat} :
    key session f i = key session g j ↔ f = g ∧ i = j := by
  constructor
  · intro h
    have hl := congrArg String.toList h
    simp only [key, String.toList_append, List.append_assoc, List.append_cancel_left_eq,
      Nat.toList_repr, show ":".toList = [':'] from rfl, List.singleton_append] at hl
    obtain ⟨hf, hi⟩ := index_after_colon (List.cons.inj hl).2
    exact ⟨String.toList_inj.1 hf, hi⟩
  · rintro ⟨rfl, rfl⟩
    rfl

/-- The bytes of the session the adapter is initialized for. -/
def bytes (session : SessionId) (s : MemoryStorageAdapter) (fileId : FileId) (index : Nat) :
    Option ArrayBuffer :=
  s.pieces.get? (key session fileId index)

def contents (session : SessionId) : Contents MemoryStorageAdapter where
  Ready s := s.requireSession = .ok session
  bytes := bytes session
  read s f i h := by simp [StorageAdapter.readPiece, readPiece, h, bytes]
  delete s f i h := by
    refine ⟨{ s with pieces := s.pieces.delete (key session f i) }, ?_, h, fun g j => ?_⟩
    · simp [StorageAdapter.deletePiece, deletePiece, h]
    · simp only [bytes, OrderedMap.get?_delete, key_inj]

end MemoryStorageAdapter

end PonsWarp.Core
