import PonsWarp.Data.Utf8

set_option autoImplicit false

/-!
`encodeURIComponent`: text in characters that mean nothing in a URL.
-/

namespace PonsWarp.Data

def isUnreserved (c : Char) : Bool :=
  c.isAlphanum || c ∈ ['-', '_', '.', '!', '~', '*', '(', ')'] || c.toNat = 39

def upperHexDigit (n : Nat) : Char := if n < 10 then Char.ofNat (48 + n) else Char.ofNat (55 + n)

def percentEncode (b : UInt8) : List Char :=
  ['%', upperHexDigit (b.toNat / 16), upperHexDigit (b.toNat % 16)]

def encodeURIComponent (text : List Char) : List Char :=
  text.flatMap fun c => if isUnreserved c then [c] else (utf8Encode [c]).flatMap percentEncode

def hexValue (c : Char) : Option Nat :=
  if c.isDigit then some (c.toNat - 48)
  else if 'A' ≤ c ∧ c ≤ 'F' then some (c.toNat - 55)
  else if 'a' ≤ c ∧ c ≤ 'f' then some (c.toNat - 87)
  else none

/-- A byte of a text in UTF-8 with no errors. -/
def decodeStrict : Option Begun → UInt8 → Option (List Char × Option Begun)
  | none, b => if (startChar b).1 = [replacement] then none else some (startChar b)
  | some s, b => if s.low ≤ b.toNat ∧ b.toNat ≤ s.high then some (continueChar s b) else none

def decodeEscapes : Option Begun → List Char → Option (List Char)
  | none, [] => some []
  | some _, [] => none
  | s, '%' :: high :: low :: rest => do
    let high ← hexValue high
    let low ← hexValue low
    let (text, next) ← decodeStrict s (UInt8.ofNat (high * 16 + low))
    let more ← decodeEscapes next rest
    some (text ++ more)
  | none, c :: rest => if c = '%' then none else (decodeEscapes none rest).map (c :: ·)
  | some _, _ :: _ => none

/-- `decodeURIComponent`, with no result where it throws. -/
def decodeURIComponent (text : List Char) : Option (List Char) := decodeEscapes none text

theorem isAlphanum_upperHexDigit {n : Nat} (h : n < 16) :
    (upperHexDigit n).isAlphanum = true := by
  have hall : ∀ n : Fin 16, (upperHexDigit n).isAlphanum = true := by decide
  exact hall ⟨n, h⟩

theorem mem_encodeURIComponent {text : List Char} {c : Char} (h : c ∈ encodeURIComponent text) :
    c = '%' ∨ isUnreserved c = true := by
  obtain ⟨d, -, hc⟩ := List.mem_flatMap.1 h
  split at hc
  · rename_i hd
    rw [List.mem_singleton.1 hc]
    exact .inr hd
  · obtain ⟨b, -, hb⟩ := List.mem_flatMap.1 hc
    have hlt := b.toNat_lt
    have hhigh := isAlphanum_upperHexDigit (n := b.toNat / 16) (by omega)
    have hlow := isAlphanum_upperHexDigit (n := b.toNat % 16) (by omega)
    simp only [percentEncode, List.mem_cons, List.not_mem_nil, or_false] at hb
    rcases hb with rfl | rfl | rfl
    · exact .inl rfl
    · exact .inr (by simp [isUnreserved, hhigh])
    · exact .inr (by simp [isUnreserved, hlow])

theorem encodeURIComponent_of_unreserved {text : List Char}
    (h : ∀ c ∈ text, isUnreserved c = true) : encodeURIComponent text = text := by
  induction text with
  | nil => rfl
  | cons c rest ih =>
    simp only [List.forall_mem_cons] at h
    rw [encodeURIComponent, List.flatMap_cons, if_pos h.1]
    exact congrArg (c :: ·) (ih h.2)

end PonsWarp.Data
