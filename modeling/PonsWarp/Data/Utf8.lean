import Mathlib.Data.List.Basic
import Mathlib.Data.List.Infix
import PonsWarp.Data.Framing

set_option autoImplicit false

/-!
Text and its bytes in UTF-8. What is not the encoding of a character decodes to the
replacement character, once for each longest beginning of one.
-/

namespace PonsWarp.Data

def utf8Encode (text : List Char) : List UInt8 := text.flatMap String.utf8EncodeChar

def replacement : Char := Char.ofNat 0xfffd

/-- A character that has begun: how many of its bytes are missing, what the bytes so far say, and
the range that the next one is in. -/
structure Begun where
  missing : Nat
  point : Nat
  low : Nat
  high : Nat
  deriving DecidableEq

def startChar (b : UInt8) : List Char × Option Begun :=
  if b.toNat < 0x80 then ([Char.ofNat b.toNat], none)
  else if b.toNat < 0xc2 then ([replacement], none)
  else if b.toNat < 0xe0 then ([], some ⟨1, b.toNat - 0xc0, 0x80, 0xbf⟩)
  else if b.toNat < 0xf0 then
    ([], some ⟨2, b.toNat - 0xe0, if b.toNat = 0xe0 then 0xa0 else 0x80,
      if b.toNat = 0xed then 0x9f else 0xbf⟩)
  else if b.toNat < 0xf5 then
    ([], some ⟨3, b.toNat - 0xf0, if b.toNat = 0xf0 then 0x90 else 0x80,
      if b.toNat = 0xf4 then 0x8f else 0xbf⟩)
  else ([replacement], none)

/-- A byte that does not continue the character ends it, and is looked at again as a first one. -/
def continueChar (s : Begun) (b : UInt8) : List Char × Option Begun :=
  if s.low ≤ b.toNat ∧ b.toNat ≤ s.high then
    if s.missing = 1 then ([Char.ofNat (s.point * 64 + (b.toNat - 0x80))], none)
    else ([], some ⟨s.missing - 1, s.point * 64 + (b.toNat - 0x80), 0x80, 0xbf⟩)
  else (replacement :: (startChar b).1, (startChar b).2)

def decodeByte : Option Begun → UInt8 → List Char × Option Begun
  | none, b => startChar b
  | some s, b => continueChar s b

def decodeBytes : Option Begun → List UInt8 → List Char × Option Begun
  | s, [] => ([], s)
  | s, b :: rest =>
    let (text, next) := decodeByte s b
    let (more, last) := decodeBytes next rest
    (text ++ more, last)

def utf8Decode (bytes : List UInt8) : List Char :=
  match decodeBytes none bytes with
  | (text, none) => text
  | (text, some _) => text ++ [replacement]

variable {s : Option Begun} {b : UInt8} {c : Char}

theorem decodeBytes_cons {text : List Char} {next : Option Begun} (h : decodeByte s b = (text, next))
    (rest : List UInt8) : decodeBytes s (b :: rest) =
      (text ++ (decodeBytes next rest).1, (decodeBytes next rest).2) := by
  simp [decodeBytes, h]

theorem decodeBytes_append (s : Option Begun) (bytes more : List UInt8) :
    decodeBytes s (bytes ++ more) =
      ((decodeBytes s bytes).1 ++ (decodeBytes (decodeBytes s bytes).2 more).1,
        (decodeBytes (decodeBytes s bytes).2 more).2) := by
  induction bytes generalizing s with
  | nil => simp [decodeBytes]
  | cons b rest ih => simp [decodeBytes, ih]

theorem start_one (h : b.toNat < 0x80) : decodeByte none b = ([Char.ofNat b.toNat], none) := by
  simp [decodeByte, startChar, h]

theorem start_two (h : 0xc2 ≤ b.toNat) (h' : b.toNat < 0xe0) :
    decodeByte none b = ([], some ⟨1, b.toNat - 0xc0, 0x80, 0xbf⟩) := by
  rw [decodeByte, startChar, if_neg (by omega), if_neg (by omega), if_pos h']

theorem start_three (h : 0xe0 ≤ b.toNat) (h' : b.toNat < 0xf0) :
    decodeByte none b = ([], some ⟨2, b.toNat - 0xe0, if b.toNat = 0xe0 then 0xa0 else 0x80,
      if b.toNat = 0xed then 0x9f else 0xbf⟩) := by
  rw [decodeByte, startChar, if_neg (by omega), if_neg (by omega), if_neg (by omega), if_pos h']

theorem start_four (h : 0xf0 ≤ b.toNat) (h' : b.toNat < 0xf5) :
    decodeByte none b = ([], some ⟨3, b.toNat - 0xf0, if b.toNat = 0xf0 then 0x90 else 0x80,
      if b.toNat = 0xf4 then 0x8f else 0xbf⟩) := by
  rw [decodeByte, startChar, if_neg (by omega), if_neg (by omega), if_neg (by omega),
    if_neg (by omega), if_pos h']

theorem continue_more {s : Begun} (hlow : s.low ≤ b.toNat) (hhigh : b.toNat ≤ s.high)
    (hmissing : s.missing ≠ 1) : decodeByte (some s) b =
      ([], some ⟨s.missing - 1, s.point * 64 + (b.toNat - 0x80), 0x80, 0xbf⟩) := by
  simp [decodeByte, continueChar, hlow, hhigh, hmissing]

theorem continue_last {s : Begun} (hlow : s.low ≤ b.toNat) (hhigh : b.toNat ≤ s.high)
    (hmissing : s.missing = 1) : decodeByte (some s) b =
      ([Char.ofNat (s.point * 64 + (b.toNat - 0x80))], none) := by
  simp [decodeByte, continueChar, hlow, hhigh, hmissing]

/-- The bytes are those of one character, and only the last of them completes it. -/
inductive Spells : Option Begun → List UInt8 → Char → Prop
  | last {s : Option Begun} {b : UInt8} {c : Char} (h : decodeByte s b = ([c], none)) :
      Spells s [b] c
  | more {s : Option Begun} {b : UInt8} {c : Char} {next : Begun} {rest : List UInt8}
      (h : decodeByte s b = ([], some next)) (hrest : Spells (some next) rest c) :
      Spells s (b :: rest) c

theorem Spells.decode {bytes : List UInt8} (h : Spells s bytes c) :
    decodeBytes s bytes = ([c], none) := by
  induction h with
  | last h => rw [decodeBytes_cons h]; rfl
  | more h _ ih => rw [decodeBytes_cons h, ih]; rfl

theorem Spells.begun {bytes part : List UInt8} (h : Spells s bytes c) (hpart : part <+: bytes)
    (hne : part ≠ bytes) (hnil : part ≠ []) : ∃ next, decodeBytes s part = ([], some next) := by
  induction h generalizing part with
  | last h =>
    cases part with
    | nil => exact absurd rfl hnil
    | cons b' tail =>
      obtain ⟨rfl, htail⟩ := List.cons_prefix_cons.1 hpart
      have hempty : tail = [] := List.prefix_nil.1 htail
      rw [hempty] at hne
      exact absurd rfl hne
  | @more s b c next rest h _ ih =>
    cases part with
    | nil => exact absurd rfl hnil
    | cons b' tail =>
      obtain ⟨rfl, htail⟩ := List.cons_prefix_cons.1 hpart
      rw [decodeBytes_cons h]
      by_cases hempty : tail = []
      · exact ⟨next, by simp [hempty, decodeBytes]⟩
      · have hrest : tail ≠ rest := fun he => hne (by rw [he])
        obtain ⟨last, hlast⟩ := ih htail hrest hempty
        exact ⟨last, by rw [hlast]; rfl⟩

theorem toNat_byte {n : Nat} (h : n < 256) : (UInt8.ofNat n).toNat = n :=
  UInt8.toNat_ofNat_of_lt h

/-- Every character is spelt by its encoding. -/
theorem spells_utf8EncodeChar (c : Char) : Spells none (String.utf8EncodeChar c) c := by
  have hvalid : c.toNat < 0xd800 ∨ 0xdfff < c.toNat ∧ c.toNat < 0x110000 := c.valid
  have hpoint : ∀ {n : Nat}, n = c.toNat → Char.ofNat n = c := by
    intro n hn
    rw [hn, Char.ofNat_toNat]
  have hval : c.val.toNat = c.toNat := rfl
  unfold String.utf8EncodeChar
  simp only [hval]
  generalize c.toNat = v at *
  split
  · have hb := @toNat_byte v (by omega)
    refine .last ?_
    rw [start_one (by omega), hpoint hb]
  · split
    · have hb := @toNat_byte (v / 64 % 0x20 + 0xc0) (by omega)
      have hb₁ := @toNat_byte (v % 0x40 + 0x80) (by omega)
      refine .more (start_two (by omega) (by omega)) (.last ?_)
      rw [continue_last (by simp only; omega) (by simp only; omega) rfl, hpoint (by simp only; omega)]
    · split
      · have hb := @toNat_byte (v / 4096 % 0x10 + 0xe0) (by omega)
        have hb₁ := @toNat_byte (v / 64 % 0x40 + 0x80) (by omega)
        have hb₂ := @toNat_byte (v % 0x40 + 0x80) (by omega)
        refine .more (start_three (by omega) (by omega)) (.more (continue_more ?_ ?_ (by simp))
          (.last ?_))
        · simp only
          split <;> omega
        · simp only
          split <;> omega
        · rw [continue_last (by simp only; omega) (by simp only; omega) rfl,
            hpoint (by simp only; omega)]
      · have hb := @toNat_byte (v / 262144 % 0x08 + 0xf0) (by omega)
        have hb₁ := @toNat_byte (v / 4096 % 0x40 + 0x80) (by omega)
        have hb₂ := @toNat_byte (v / 64 % 0x40 + 0x80) (by omega)
        have hb₃ := @toNat_byte (v % 0x40 + 0x80) (by omega)
        refine .more (start_four (by omega) (by omega)) (.more (continue_more ?_ ?_ (by simp))
          (.more (continue_more ?_ ?_ (by simp)) (.last ?_)))
        · simp only
          split <;> omega
        · simp only
          split <;> omega
        · simp only
          omega
        · simp only
          omega
        · rw [continue_last (by simp only; omega) (by simp only; omega) rfl,
            hpoint (by simp only; omega)]

@[simp] theorem utf8Encode_nil : utf8Encode [] = [] := rfl

@[simp] theorem utf8Encode_append (text more : List Char) :
    utf8Encode (text ++ more) = utf8Encode text ++ utf8Encode more :=
  List.flatMap_append

theorem decodeBytes_utf8Encode (text : List Char) :
    decodeBytes none (utf8Encode text) = (text, none) := by
  induction text with
  | nil => rfl
  | cons c rest ih =>
    have hsplit : utf8Encode (c :: rest) = String.utf8EncodeChar c ++ utf8Encode rest := by
      simp [utf8Encode]
    rw [hsplit, decodeBytes_append, (spells_utf8EncodeChar c).decode, ih]
    rfl

theorem utf8Decode_utf8Encode (text : List Char) : utf8Decode (utf8Encode text) = text := by
  simp [utf8Decode, decodeBytes_utf8Encode]

/-- Text that breaks off inside a character decodes with the replacement character there. -/
theorem utf8Decode_begun {text : List Char} {part : List UInt8}
    (hpart : part <+: String.utf8EncodeChar c) (hne : part ≠ String.utf8EncodeChar c)
    (hnil : part ≠ []) : utf8Decode (utf8Encode text ++ part) = text ++ [replacement] := by
  obtain ⟨next, hnext⟩ := (spells_utf8EncodeChar c).begun hpart hne hnil
  simp [utf8Decode, decodeBytes_append, decodeBytes_utf8Encode, hnext]

/-- The bytes of a text up to some point decode to all of it when nothing comes after them, or
only the end of a last character that is the replacement character itself. -/
theorem utf8Decode_eq_iff {text : List Char} {first rest : List UInt8}
    (h : first ++ rest = utf8Encode text) :
    utf8Decode first = text ↔ rest = [] ∨
      ∃ before, text = before ++ [replacement] ∧ (utf8Encode before).length < first.length := by
  have hprefix : first <+: text.flatMap String.utf8EncodeChar := ⟨rest, h⟩
  obtain ⟨whole, todo, part, hcut⟩ := exists_cut hprefix
  have hfirst : first = utf8Encode whole ++ part := hcut.bytes
  constructor
  · intro hdecode
    by_cases hnil : part = []
    · rw [hfirst, hnil, List.append_nil, utf8Decode_utf8Encode] at hdecode
      rw [hfirst, hnil, List.append_nil, hdecode] at h
      exact .inl (by simpa using h)
    · cases todo with
      | nil => exact absurd hcut.begins hnil
      | cons c todo =>
        obtain ⟨hpart, hne⟩ := hcut.begins
        rw [hfirst, utf8Decode_begun hpart hne hnil, hcut.items] at hdecode
        refine .inr ⟨whole, ?_, ?_⟩
        · rw [hcut.items, ← hdecode]
        · have hpos := List.length_pos_of_ne_nil hnil
          rw [hfirst, List.length_append]
          omega
  · rintro (hrest | ⟨before, hbefore, hlength⟩)
    · rw [hrest, List.append_nil] at h
      rw [h, utf8Decode_utf8Encode]
    · rw [hbefore, utf8Encode_append] at h
      have hlast : utf8Encode [replacement] = String.utf8EncodeChar replacement := by
        simp [utf8Encode]
      rw [hlast] at h
      obtain ⟨more, rfl⟩ : utf8Encode before <+: first :=
        List.prefix_of_prefix_length_le (List.prefix_append _ _) ⟨rest, h⟩ hlength.le
      have hmore : more ++ rest = String.utf8EncodeChar replacement := by
        rw [List.append_assoc] at h
        exact List.append_cancel_left h
      have hnil : more ≠ [] := by
        intro he
        simp [he] at hlength
      by_cases hall : more = String.utf8EncodeChar replacement
      · rw [hall, ← hlast, ← utf8Encode_append, utf8Decode_utf8Encode, hbefore]
      · rw [utf8Decode_begun ⟨rest, hmore⟩ hall hnil, hbefore]

end PonsWarp.Data
