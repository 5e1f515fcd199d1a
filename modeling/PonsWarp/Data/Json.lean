import PonsWarp.Data.Double
import Mathlib.Data.List.Nodup
import Mathlib.Data.Nat.Digits.Defs

set_option autoImplicit false

/-!
JSON as the language has it: what `JSON.stringify` writes of a value and what `JSON.parse` makes of
a text, code unit by code unit. Which digits a number is written with is left open, but for that
they denote the number.
-/

namespace PonsWarp.Data.Json

/-- A string of the language: its UTF-16 code units, paired or not. -/
abbrev Text := List UInt16

/-- The text of a literal of the basic plane. -/
def units (s : String) : Text := s.toList.map fun c => c.toNat.toUInt16

inductive Value where
  | undefined
  | null
  | bool (b : Bool)
  | number (x : Double)
  | string (s : Text)
  | array (items : List Value)
  | object (fields : List (Text × Value))

abbrev Fields := List (Text × Value)

namespace Value

/-- Induction inwards: into the items of an array and the fields of an object. -/
theorem inward {motive : Value → Prop} (undefined : motive .undefined) (null : motive .null)
    (bool : ∀ b, motive (.bool b)) (number : ∀ x, motive (.number x))
    (string : ∀ s, motive (.string s))
    (array : ∀ items, (∀ item ∈ items, motive item) → motive (.array items))
    (object : ∀ fields : Fields, (∀ entry ∈ fields, motive entry.2) → motive (.object fields))
    (value : Value) : motive value :=
  @Value.rec motive (fun items => ∀ item ∈ items, motive item)
    (fun fields => ∀ entry ∈ fields, motive entry.2) (fun entry => motive entry.2)
    undefined null bool number string array object
    (by simp) (fun _ _ hhead htail => List.forall_mem_cons.2 ⟨hhead, htail⟩)
    (by simp) (fun _ _ hhead htail => List.forall_mem_cons.2 ⟨hhead, htail⟩)
    (fun _ _ hchild => hchild) value

def isUndefined : Value → Bool
  | .undefined => true
  | _ => false

end Value

/-! The text of numbers. -/

def isDigit (c : UInt16) : Bool := 48 ≤ c && c ≤ 57

/-- The units that words and numbers are made of. -/
def isWordUnit (c : UInt16) : Bool :=
  isDigit c || (65 ≤ c && c ≤ 90) || (97 ≤ c && c ≤ 122) || c = 43 || c = 45 || c = 46

/-- Digits without a zero that leads others, taken off. -/
def afterInteger (text : Text) : Option Text :=
  match text with
  | 48 :: rest => some rest
  | c :: rest => if isDigit c then some (rest.dropWhile isDigit) else none
  | [] => none

/-- One digit or more, taken off. -/
def afterDigits (text : Text) : Option Text :=
  match text with
  | c :: rest => if isDigit c then some (rest.dropWhile isDigit) else none
  | [] => none

def afterFraction (text : Text) : Option Text :=
  match text with
  | 46 :: rest => afterDigits rest
  | _ => some text

def afterExponent (text : Text) : Option Text :=
  match text with
  | c :: rest =>
    if c = 69 || c = 101 then
      match rest with
      | sign :: digits =>
        if sign = 43 || sign = 45 then afterDigits digits else afterDigits rest
      | [] => none
    else some text
  | [] => some text

/-- The number literals of JSON that have no sign. -/
def isLiteral (text : Text) : Bool :=
  text.all isWordUnit &&
    ((afterInteger text).bind afterFraction).bind afterExponent = some []

def readDigits (digits : Text) : Nat :=
  Nat.ofDigits 10 (digits.reverse.map fun c => c.toNat - 48)

/-- What a literal without a sign denotes. -/
def literalValue (text : Text) : ℚ :=
  let whole := text.takeWhile isDigit
  let rest := text.dropWhile isDigit
  let hasFraction := rest.head? = some 46
  let fraction := if hasFraction then rest.tail.takeWhile isDigit else []
  let exponentPart := if hasFraction then rest.tail.dropWhile isDigit else rest
  let exponent : Int :=
    match exponentPart with
    | _ :: sign :: digits =>
      if sign = 45 then -readDigits digits
      else if sign = 43 then readDigits digits
      else readDigits (sign :: digits)
    | _ => 0
  readDigits (whole ++ fraction) * 10 ^ (exponent - fraction.length)

/-- The number that a literal is read as. -/
def readLiteral (text : Text) : Double := Double.nearest (literalValue text)

/-- How numbers above zero are written: in a literal that is read as the number. The language has
one way more exactly, the shortest. -/
structure NumberFormat where
  toText : Magnitude → Text
  isLiteral_toText : ∀ x, isLiteral (toText x) = true
  readLiteral_toText : ∀ x, readLiteral (toText x) = .finite false x

/-! `JSON.stringify`. -/

def isHighSurrogate (c : UInt16) : Bool := 0xD800 ≤ c && c ≤ 0xDBFF

def isLowSurrogate (c : UInt16) : Bool := 0xDC00 ≤ c && c ≤ 0xDFFF

def hexDigit (n : Nat) : UInt16 := if n < 10 then UInt16.ofNat (48 + n) else UInt16.ofNat (87 + n)

def unicodeEscape (c : UInt16) : Text :=
  [92, 117, hexDigit (c.toNat / 4096), hexDigit (c.toNat / 256 % 16), hexDigit (c.toNat / 16 % 16),
    hexDigit (c.toNat % 16)]

/-- The units that have an escape of two units, each with its letter. -/
def shortEscapes : List (UInt16 × UInt16) :=
  [(8, 98), (9, 116), (10, 110), (12, 102), (13, 114), (34, 34), (92, 92)]

def quoteUnit (c : UInt16) : Text :=
  match shortEscapes.lookup c with
  | some letter => [92, letter]
  | none =>
    if c < 32 || isHighSurrogate c || isLowSurrogate c then unicodeEscape c else [c]

/-- A pair of surrogates stands for itself; one that is alone is escaped. -/
def quoteUnits : Text → Text
  | c :: d :: rest =>
    if isHighSurrogate c && isLowSurrogate d then c :: d :: quoteUnits rest
    else quoteUnit c ++ quoteUnits (d :: rest)
  | [c] => quoteUnit c
  | [] => []

def quote (s : Text) : Text := 34 :: quoteUnits s ++ [34]

def numberText (format : NumberFormat) : Double → Text
  | .zero _ => units "0"
  | .finite false x => format.toText x
  | .finite true x => 45 :: format.toText x
  | .infinity _ | .nan => units "null"

def commas : List Text → Text
  | [] => []
  | text :: rest => text ++ rest.flatMap (44 :: ·)

mutual

/-- `JSON.stringify`; there is no text of `undefined`. -/
def stringify (format : NumberFormat) : Value → Option Text
  | .undefined => none
  | .null => some (units "null")
  | .bool true => some (units "true")
  | .bool false => some (units "false")
  | .number x => some (numberText format x)
  | .string s => some (quote s)
  | .array items => some (91 :: commas (itemTexts format items) ++ [93])
  | .object fields => some (123 :: commas (fieldTexts format fields) ++ [125])

def itemTexts (format : NumberFormat) : List Value → List Text
  | [] => []
  | item :: rest => (stringify format item).getD (units "null") :: itemTexts format rest

def fieldTexts (format : NumberFormat) : List (Text × Value) → List Text
  | [] => []
  | entry :: rest => (fieldText format entry).toList ++ fieldTexts format rest

def fieldText (format : NumberFormat) : Text × Value → Option Text
  | (key, child) => (stringify format child).map fun text => quote key ++ 58 :: text

end

/-! `JSON.parse`: the units make tokens, and the tokens a value. -/

inductive Token where
  | openArray | closeArray | openObject | closeObject | comma | colon
  | string (s : Text)
  | word (w : Text)
  deriving DecidableEq

inductive Lexer where
  | between
  | word (w : Text)
  | string (s : Text)
  /-- After a backslash. -/
  | escape (s : Text)
  /-- After so many digits of an escape by number. -/
  | hex (s : Text) (count value : Nat)

def isSpace (c : UInt16) : Bool := c = 32 || c = 9 || c = 10 || c = 13

def punctuation : List (UInt16 × Token) :=
  [(91, .openArray), (93, .closeArray), (123, .openObject), (125, .closeObject), (44, .comma),
    (58, .colon)]

def letterEscapes : List (UInt16 × UInt16) :=
  [(98, 8), (116, 9), (110, 10), (102, 12), (114, 13), (34, 34), (92, 92), (47, 47)]

def hexValue (c : UInt16) : Option Nat :=
  if isDigit c then some (c.toNat - 48)
  else if 97 ≤ c && c ≤ 102 then some (c.toNat - 87)
  else if 65 ≤ c && c ≤ 70 then some (c.toNat - 55)
  else none

namespace Lexer

/-- The first unit of a token, or one between tokens. -/
def start (c : UInt16) : Option (Lexer × List Token) :=
  if isSpace c then some (.between, [])
  else if c = 34 then some (.string [], [])
  else if isWordUnit c then some (.word [c], [])
  else (punctuation.lookup c).map fun token => (.between, [token])

def step : Lexer → UInt16 → Option (Lexer × List Token)
  | .between, c => start c
  | .word w, c =>
    if isWordUnit c then some (.word (w ++ [c]), [])
    else (start c).map fun next => (next.1, .word w :: next.2)
  | .string s, c =>
    if c = 34 then some (.between, [.string s])
    else if c = 92 then some (.escape s, [])
    else if c < 32 then none
    else some (.string (s ++ [c]), [])
  | .escape s, c =>
    if c = 117 then some (.hex s 0 0, [])
    else (letterEscapes.lookup c).map fun d => (.string (s ++ [d]), [])
  | .hex s count value, c =>
    (hexValue c).map fun digit =>
      if count = 3 then (.string (s ++ [UInt16.ofNat (16 * value + digit)]), [])
      else (.hex s (count + 1) (16 * value + digit), [])

def finish : Lexer → Option (List Token)
  | .between => some []
  | .word w => some [.word w]
  | _ => none

/-- The tokens of the text that is left. -/
def tokens (lexer : Lexer) : Text → Option (List Token)
  | [] => lexer.finish
  | c :: rest =>
    match lexer.step c with
    | none => none
    | some (next, made) => (next.tokens rest).map (made ++ ·)

end Lexer

/-- A container with a place for the value that is being read. -/
inductive Frame where
  | items (before : List Value)
  | member (before : Fields) (key : Text)

/-- What comes next. -/
inductive Reader where
  | value (stack : List Frame)
  /-- After the bracket that opens an array. -/
  | item (stack : List Frame)
  /-- After a value that is complete. -/
  | follow (v : Value) (stack : List Frame)
  /-- After the brace that opens an object. -/
  | field (stack : List Frame)
  | key (before : Fields) (stack : List Frame)
  | colon (before : Fields) (key : Text) (stack : List Frame)

/-- A key that is there already keeps its place. -/
def setField (fields : Fields) (key : Text) (value : Value) : Fields :=
  if key ∈ fields.map Prod.fst then
    fields.map fun entry => if entry.1 = key then (key, value) else entry
  else fields ++ [(key, value)]

def readWord (w : Text) : Option Value :=
  if w = units "null" then some .null
  else if w = units "true" then some (.bool true)
  else if w = units "false" then some (.bool false)
  else if isLiteral w then some (.number (readLiteral w))
  else if w.head? = some 45 && isLiteral w.tail then some (.number (readLiteral w.tail).neg)
  else none

namespace Reader

def startValue (stack : List Frame) : Token → Option Reader
  | .openArray => some (.item stack)
  | .openObject => some (.field stack)
  | .string s => some (.follow (.string s) stack)
  | .word w => (readWord w).map fun v => .follow v stack
  | _ => none

def step : Reader → Token → Option Reader
  | .value stack, token => startValue stack token
  | .item stack, .closeArray => some (.follow (.array []) stack)
  | .item stack, token => startValue (.items [] :: stack) token
  | .follow v (.items before :: stack), .comma => some (.value (.items (before ++ [v]) :: stack))
  | .follow v (.items before :: stack), .closeArray =>
    some (.follow (.array (before ++ [v])) stack)
  | .follow v (.member before k :: stack), .comma => some (.key (setField before k v) stack)
  | .follow v (.member before k :: stack), .closeObject =>
    some (.follow (.object (setField before k v)) stack)
  | .field stack, .closeObject => some (.follow (.object []) stack)
  | .field stack, .string k => some (.colon [] k stack)
  | .key before stack, .string k => some (.colon before k stack)
  | .colon before k stack, .colon => some (.value (.member before k :: stack))
  | _, _ => none

def finish : Reader → Option Value
  | .follow v [] => some v
  | _ => none

/-- The value that is read when the tokens that are left are these. -/
def run (reader : Reader) : List Token → Option Value
  | [] => reader.finish
  | token :: rest => (reader.step token).bind fun next => next.run rest

/-! Each step, in front of the tokens that are left. -/

section Steps

variable (v : Value) (s k : Text) (items : List Value) (fields : Fields) (stack : List Frame)
  (rest : List Token)

@[simp] theorem run_done : run (.follow v []) [] = some v := rfl

@[simp] theorem run_value_nil : run (.value stack) [] = none := rfl

@[simp] theorem run_string :
    run (.value stack) (.string s :: rest) = run (.follow (.string s) stack) rest := rfl

theorem run_word {w : Text} {v : Value} (h : readWord w = some v) :
    run (.value stack) (.word w :: rest) = run (.follow v stack) rest := by
  rw [run, step, startValue, h]
  rfl

@[simp] theorem run_openArray :
    run (.value stack) (.openArray :: rest) = run (.item stack) rest := rfl

@[simp] theorem run_openObject :
    run (.value stack) (.openObject :: rest) = run (.field stack) rest := rfl

@[simp] theorem run_value_closeArray : run (.value stack) (.closeArray :: rest) = none := rfl

@[simp] theorem run_emptyArray :
    run (.item stack) (.closeArray :: rest) = run (.follow (.array []) stack) rest := rfl

theorem run_item {token : Token} (h : token ≠ .closeArray) :
    run (.item stack) (token :: rest) = run (.value (.items [] :: stack)) (token :: rest) := by
  cases token with
  | closeArray => exact absurd rfl h
  | _ => rfl

@[simp] theorem run_items_comma : run (.follow v (.items items :: stack)) (.comma :: rest) =
    run (.value (.items (items ++ [v]) :: stack)) rest := rfl

@[simp] theorem run_items_close : run (.follow v (.items items :: stack)) (.closeArray :: rest) =
    run (.follow (.array (items ++ [v])) stack) rest := rfl

@[simp] theorem run_emptyObject :
    run (.field stack) (.closeObject :: rest) = run (.follow (.object []) stack) rest := rfl

@[simp] theorem run_field : run (.field stack) (.string k :: .colon :: rest) =
    run (.value (.member [] k :: stack)) rest := rfl

@[simp] theorem run_key : run (.key fields stack) (.string k :: .colon :: rest) =
    run (.value (.member fields k :: stack)) rest := rfl

@[simp] theorem run_member_comma :
    run (.follow v (.member fields k :: stack)) (.comma :: rest) =
      run (.key (setField fields k v) stack) rest := rfl

@[simp] theorem run_member_close :
    run (.follow v (.member fields k :: stack)) (.closeObject :: rest) =
      run (.follow (.object (setField fields k v)) stack) rest := rfl

end Steps

end Reader

/-- `JSON.parse`; there is no value of a text that it refuses. -/
def parse (text : Text) : Option Value :=
  (Lexer.between.tokens text).bind (Reader.run (.value []))

/-! What the lexer makes of the texts of tokens. -/

/-- No word goes on here. -/
def Delimited (rest : Text) : Prop := ∀ c ∈ rest.head?, isWordUnit c = false

theorem delimited_nil : Delimited [] := by simp [Delimited]

theorem punctuation_cases {c : UInt16} {token : Token} (h : punctuation.lookup c = some token) :
    isSpace c = false ∧ c ≠ 34 ∧ isWordUnit c = false := by
  have hall : ∀ entry ∈ punctuation,
      isSpace entry.1 = false ∧ entry.1 ≠ 34 ∧ isWordUnit entry.1 = false := by decide
  obtain ⟨before, after, heq, -⟩ := List.lookup_eq_some_iff.1 h
  exact hall (c, token) (by simp [heq])

theorem delimited_punctuation {c : UInt16} {token : Token} {rest : Text}
    (h : punctuation.lookup c = some token) : Delimited (c :: rest) := by
  simp [Delimited, (punctuation_cases h).2.2]

namespace Lexer

theorem tokens_punctuation {c : UInt16} {token : Token} (h : punctuation.lookup c = some token)
    (rest : Text) : between.tokens (c :: rest) = (between.tokens rest).map (token :: ·) := by
  obtain ⟨hspace, hquote, hword⟩ := punctuation_cases h
  simp [tokens, step, start, hspace, hquote, hword, h]

/-- A word ends where no word goes on. -/
theorem tokens_word (w : Text) {rest : Text} (h : Delimited rest) :
    (word w).tokens rest = (between.tokens rest).map (.word w :: ·) := by
  cases rest with
  | nil => rfl
  | cons c rest =>
    have hc : isWordUnit c = false := by simpa [Delimited] using h
    rw [tokens, tokens, step, step, hc]
    cases start c with
    | none => rfl
    | some next => simp [Option.map_map, Function.comp_def]

theorem tokens_wordUnits (w u rest : Text) (h : ∀ c ∈ u, isWordUnit c = true) :
    (word w).tokens (u ++ rest) = (word (w ++ u)).tokens rest := by
  induction u generalizing w with
  | nil => simp
  | cons c u ih =>
    rw [List.forall_mem_cons] at h
    rw [List.cons_append, tokens, step, if_pos h.1]
    simp [ih (w ++ [c]) h.2]

theorem tokens_plain {c : UInt16} (s rest : Text) (hquote : c ≠ 34) (hslash : c ≠ 92)
    (hlow : ¬ c < 32) : (string s).tokens (c :: rest) = (string (s ++ [c])).tokens rest := by
  simp [tokens, step, hquote, hslash, hlow]

theorem hexValue_hexDigit {n : Nat} (h : n < 16) : hexValue (hexDigit n) = some n := by
  have hall : ∀ n : Fin 16, hexValue (hexDigit n) = some n.val := by decide
  exact hall ⟨n, h⟩

theorem tokens_unicodeEscape (c : UInt16) (s rest : Text) :
    (string s).tokens (unicodeEscape c ++ rest) = (string (s ++ [c])).tokens rest := by
  have hbound := c.toNat_lt
  have hvalue : UInt16.ofNat (16 * (16 * (16 * (c.toNat / 4096) + c.toNat / 256 % 16) +
      c.toNat / 16 % 16) + c.toNat % 16) = c := by
    rw [show 16 * (16 * (16 * (c.toNat / 4096) + c.toNat / 256 % 16) + c.toNat / 16 % 16) +
      c.toNat % 16 = c.toNat by omega, UInt16.ofNat_toNat]
  have h₁ : hexValue (hexDigit (c.toNat / 4096)) = some (c.toNat / 4096) :=
    hexValue_hexDigit (by omega)
  have h₂ : hexValue (hexDigit (c.toNat / 256 % 16)) = some (c.toNat / 256 % 16) :=
    hexValue_hexDigit (by omega)
  have h₃ : hexValue (hexDigit (c.toNat / 16 % 16)) = some (c.toNat / 16 % 16) :=
    hexValue_hexDigit (by omega)
  have h₄ : hexValue (hexDigit (c.toNat % 16)) = some (c.toNat % 16) :=
    hexValue_hexDigit (by omega)
  simp [unicodeEscape, tokens, step, h₁, h₂, h₃, h₄, hvalue, -UInt16.ofNat_add, -UInt16.ofNat_mul]

theorem tokens_quoteUnit (c : UInt16) (s rest : Text) :
    (string s).tokens (quoteUnit c ++ rest) = (string (s ++ [c])).tokens rest := by
  rw [quoteUnit]
  cases hcase : shortEscapes.lookup c with
  | some letter =>
    have hall : (shortEscapes.all fun entry =>
        entry.2 ≠ 117 && letterEscapes.lookup entry.2 = some entry.1) = true := by decide
    obtain ⟨before, after, heq, -⟩ := List.lookup_eq_some_iff.1 hcase
    have hentry := List.all_eq_true.1 hall (c, letter) (by simp [heq])
    obtain ⟨hletter, hlookup⟩ : letter ≠ 117 ∧ letterEscapes.lookup letter = some c := by
      simpa using hentry
    simp [tokens, step, hletter, hlookup]
  | none =>
    by_cases hescape : (c < 32 || isHighSurrogate c || isLowSurrogate c) = true
    · simp only [hescape, if_true]
      exact tokens_unicodeEscape c s rest
    · have hquote : c ≠ 34 := by
        rintro rfl
        exact absurd hcase (by decide)
      have hslash : c ≠ 92 := by
        rintro rfl
        exact absurd hcase (by decide)
      have hlow : ¬ c < 32 := by
        intro h
        exact hescape (by simp [h])
      simp only [hescape]
      exact tokens_plain s rest hquote hslash hlow

theorem surrogate_plain {c : UInt16} (h : 0xD800 ≤ c) : c ≠ 34 ∧ c ≠ 92 ∧ ¬ c < 32 := by
  rw [UInt16.le_iff_toNat_le] at h
  refine ⟨?_, ?_, ?_⟩
  · rintro rfl
    exact absurd h (by decide)
  · rintro rfl
    exact absurd h (by decide)
  · rw [UInt16.lt_iff_toNat_lt]
    change 0xD800 ≤ c.toNat at h
    change ¬ c.toNat < 32
    omega

theorem tokens_quoteUnits (t s rest : Text) :
    (string s).tokens (quoteUnits t ++ rest) = (string (s ++ t)).tokens rest := by
  induction t using quoteUnits.induct generalizing s with
  | case1 c d t hpair ih =>
    have hhigh : isHighSurrogate c = true ∧ isLowSurrogate d = true := by simpa using hpair
    simp only [isHighSurrogate, isLowSurrogate, Bool.and_eq_true, decide_eq_true_eq] at hhigh
    obtain ⟨hquote, hslash, hlow⟩ := surrogate_plain hhigh.1.1
    obtain ⟨hquote', hslash', hlow'⟩ :=
      surrogate_plain (c := d) (UInt16.le_trans (by decide) hhigh.2.1)
    rw [quoteUnits, if_pos hpair, List.cons_append, List.cons_append,
      tokens_plain s _ hquote hslash hlow, tokens_plain _ _ hquote' hslash' hlow', ih]
    simp
  | case2 c d t hpair ih =>
    rw [quoteUnits, if_neg hpair, List.append_assoc, tokens_quoteUnit, ih]
    simp
  | case3 c => exact tokens_quoteUnit c s rest
  | case4 => simp [quoteUnits]

theorem tokens_quote (s rest : Text) :
    between.tokens (quote s ++ rest) = (between.tokens rest).map (.string s :: ·) := by
  have hstart : start 34 = some (.string [], []) := rfl
  have hstring : (string []).tokens (quoteUnits s ++ (34 :: rest)) =
      (between.tokens rest).map (.string s :: ·) := by
    rw [tokens_quoteUnits]
    simp [tokens, step]
  have htext : quote s ++ rest = 34 :: (quoteUnits s ++ 34 :: rest) := by simp [quote]
  rw [htext, tokens, step, hstart]
  simp [hstring, Function.comp_def]

end Lexer

/-! What the reader makes of the tokens, and both together. -/

/-- A text makes these tokens, whatever comes after it that does not go on with its last word. -/
def Lexes (text : Text) (made : List Token) : Prop :=
  ∀ rest, Delimited rest →
    Lexer.between.tokens (text ++ rest) = (Lexer.between.tokens rest).map (made ++ ·)

/-- Tokens that are read as this value, wherever a value stands. -/
def ReadsTokens (made : List Token) (v : Value) : Prop :=
  ∀ stack rest, Reader.run (.value stack) (made ++ rest) =
    Reader.run (.follow v stack) rest

/-- A text that is read as this value. -/
def Reads (text : Text) (v : Value) : Prop :=
  ∃ made, Lexes text made ∧ ReadsTokens made v

theorem lexes_word {w : Text} (hne : w ≠ []) (h : ∀ c ∈ w, isWordUnit c = true) :
    Lexes w [.word w] := by
  intro rest hrest
  obtain ⟨c, u, rfl⟩ := List.exists_cons_of_ne_nil hne
  rw [List.forall_mem_cons] at h
  have hspace : isSpace c = false ∧ c ≠ 34 := by
    constructor
    · by_contra hspace
      simp only [isSpace, Bool.or_eq_true, decide_eq_true_eq, Bool.not_eq_false] at hspace
      obtain ((rfl | rfl) | rfl) | rfl := hspace <;> exact absurd h.1 (by decide)
    · rintro rfl
      exact absurd h.1 (by decide)
  rw [List.cons_append, Lexer.tokens, Lexer.step, Lexer.start, hspace.1, if_neg (by simp),
    if_neg hspace.2, if_pos h.1]
  simp only [Lexer.tokens_wordUnits _ _ _ h.2, Lexer.tokens_word _ hrest]
  simp [Option.map_map, Function.comp_def]

theorem reads_word {w : Text} {v : Value} (hne : w ≠ [])
    (h : ∀ c ∈ w, isWordUnit c = true) (hread : readWord w = some v) : Reads w v :=
  ⟨[.word w], lexes_word hne h, fun stack rest => Reader.run_word stack rest hread⟩

theorem reads_string (s : Text) : Reads (quote s) (.string s) :=
  ⟨[.string s], fun rest _ => by simpa using Lexer.tokens_quote s rest,
    fun stack rest => Reader.run_string s stack rest⟩

/-- What is read as a value is no closing bracket. -/
theorem ReadsTokens.run_item {made : List Token} {v : Value}
    (h : ReadsTokens made v) (stack : List Frame) (rest : List Token) :
    Reader.run (.item stack) (made ++ rest) =
      Reader.run (.follow v (.items [] :: stack)) rest := by
  rw [← h]
  have hsome := h [] []
  cases made with
  | nil => simp at hsome
  | cons token made =>
    by_cases htoken : token = .closeArray
    · subst htoken
      simp at hsome
    · exact Reader.run_item stack _ htoken

theorem lexes_cons {c : UInt16} {token : Token} (hc : punctuation.lookup c = some token)
    {text : Text} {made : List Token} (h : Lexes text made) :
    Lexes (c :: text) (token :: made) := by
  intro rest hrest
  rw [List.cons_append, Lexer.tokens_punctuation hc, h rest hrest, Option.map_map]
  rfl

theorem lexes_append {text text' : Text} {made made' : List Token} (h : Lexes text made)
    (h' : Lexes text' made') (hstart : ∀ rest, Delimited rest → Delimited (text' ++ rest)) :
    Lexes (text ++ text') (made ++ made') := by
  intro rest hrest
  rw [List.append_assoc, h _ (hstart rest hrest), h' rest hrest, Option.map_map]
  simp [Function.comp_def]

theorem lexes_punctuation {c : UInt16} {token : Token} (hc : punctuation.lookup c = some token) :
    Lexes [c] [token] :=
  lexes_cons hc fun rest _ => by simp

theorem lexes_quote (s : Text) {text : Text} {made : List Token} (h : Lexes text made) :
    Lexes (quote s ++ text) (.string s :: made) := by
  intro rest hrest
  rw [List.append_assoc, Lexer.tokens_quote, h rest hrest, Option.map_map]
  rfl

/-- After a value come a comma or what closes its container. -/
theorem delimited_commas (texts : List Text) {c : UInt16} {token : Token}
    (hc : punctuation.lookup c = some token) (rest : Text) :
    Delimited (texts.flatMap (44 :: ·) ++ [c] ++ rest) := by
  cases texts with
  | nil => exact delimited_punctuation hc
  | cons text texts =>
    have hcomma : punctuation.lookup 44 = some Token.comma := by decide
    exact delimited_punctuation hcomma

theorem lexes_commas {texts : List Text} {tokens : List (List Token)}
    (h : List.Forall₂ Lexes texts tokens) {c : UInt16} {token : Token}
    (hc : punctuation.lookup c = some token) :
    Lexes (texts.flatMap (44 :: ·) ++ [c]) (tokens.flatMap (.comma :: ·) ++ [token]) := by
  induction h with
  | nil => exact lexes_punctuation hc
  | @cons text made texts tokens hhead _ ih =>
    have hcomma : punctuation.lookup 44 = some Token.comma := by decide
    simpa using lexes_cons hcomma
      (lexes_append hhead ih fun rest _ => delimited_commas texts hc rest)

/-- The text of a container: its brackets, and what is in it with commas between. -/
theorem lexes_container {texts : List Text} {tokens : List (List Token)}
    (h : List.Forall₂ Lexes texts tokens) {o c : UInt16} {opening closing : Token}
    (ho : punctuation.lookup o = some opening) (hc : punctuation.lookup c = some closing) :
    Lexes (o :: commas texts ++ [c])
      (opening :: (tokens.head?.getD [] ++ tokens.tail.flatMap (.comma :: ·)) ++ [closing]) := by
  cases h with
  | nil => exact lexes_cons ho (lexes_punctuation hc)
  | @cons text made texts tokens hhead htail =>
    simpa [commas] using lexes_cons ho
      (lexes_append hhead (lexes_commas htail hc) fun rest _ => delimited_commas texts hc rest)

/-! Containers are read member by member. -/

theorem run_items {tokens : List (List Token)} {values : List Value}
    (h : List.Forall₂ ReadsTokens tokens values) (before : List Value) (v : Value)
    (stack : List Frame) (rest : List Token) :
    Reader.run (.follow v (.items before :: stack))
        (tokens.flatMap (.comma :: ·) ++ .closeArray :: rest) =
      Reader.run (.follow (.array (before ++ v :: values)) stack) rest := by
  induction h generalizing before v with
  | nil => rfl
  | @cons made w tokens values hhead _ ih =>
    rw [List.flatMap_cons, List.cons_append, List.cons_append, List.append_assoc,
      Reader.run_items_comma, hhead, ih]
    simp

theorem setField_of_notMem {fields : Fields} {key : Text} (v : Value)
    (h : key ∉ fields.map Prod.fst) : setField fields key v = fields ++ [(key, v)] := by
  rw [setField, if_neg h]

/-- The tokens of a field. -/
def ReadsField (made : List Token) (field : Text × Value) : Prop :=
  ∃ child, made = .string field.1 :: .colon :: child ∧ ReadsTokens child field.2

theorem run_fields {tokens : List (List Token)} {fields : Fields}
    (h : List.Forall₂ ReadsField tokens fields) (before : Fields) (key : Text) (v : Value)
    (stack : List Frame) (rest : List Token)
    (hnodup : ((before ++ (key, v) :: fields).map Prod.fst).Nodup) :
    Reader.run (.follow v (.member before key :: stack))
        (tokens.flatMap (.comma :: ·) ++ .closeObject :: rest) =
      Reader.run (.follow (.object (before ++ (key, v) :: fields)) stack) rest := by
  induction h generalizing before key v with
  | nil =>
    have hkey : key ∉ before.map Prod.fst := by
      simp only [List.map_append, List.nodup_append] at hnodup
      exact fun hmem => hnodup.2.2 key hmem key (by simp) rfl
    simp [setField_of_notMem v hkey]
  | @cons made field tokens fields hhead _ ih =>
    have hkey : key ∉ before.map Prod.fst := by
      simp only [List.map_append, List.nodup_append] at hnodup
      exact fun hmem => hnodup.2.2 key hmem key (by simp) rfl
    obtain ⟨child, rfl, hchild⟩ := hhead
    have hnodup' :
        (((before ++ [(key, v)]) ++ (field.1, field.2) :: fields).map Prod.fst).Nodup := by
      simpa using hnodup
    have hrest := ih (before ++ [(key, v)]) field.1 field.2 hnodup'
    simp only [List.flatMap_cons, List.cons_append, List.append_assoc, Reader.run_member_comma,
      Reader.run_key, setField_of_notMem v hkey, hchild _ _] at hrest ⊢
    simpa using hrest

theorem tokens_of_reads {texts : List Text} {values : List Value}
    (h : List.Forall₂ Reads texts values) : ∃ tokens, List.Forall₂ Lexes texts tokens ∧
      List.Forall₂ ReadsTokens tokens values := by
  induction h with
  | nil => exact ⟨[], .nil, .nil⟩
  | cons hhead _ ih =>
    obtain ⟨made, hlexes, hreads⟩ := hhead
    obtain ⟨tokens, htexts, hvalues⟩ := ih
    exact ⟨made :: tokens, .cons hlexes htexts, .cons hreads hvalues⟩

theorem reads_array {texts : List Text} {values : List Value}
    (h : List.Forall₂ Reads texts values) :
    Reads (91 :: commas texts ++ [93]) (.array values) := by
  obtain ⟨tokens, htexts, hvalues⟩ := tokens_of_reads h
  have hopen : punctuation.lookup 91 = some Token.openArray := by decide
  have hclose : punctuation.lookup 93 = some Token.closeArray := by decide
  refine ⟨_, lexes_container htexts hopen hclose, fun stack rest => ?_⟩
  cases hvalues with
  | nil => rfl
  | @cons made v tokens values hhead htail =>
    have hrest := run_items htail [] v stack rest
    simp only [List.head?_cons, Option.getD_some, List.tail_cons, List.cons_append,
      List.append_assoc, Reader.run_openArray, hhead.run_item]
    simpa using hrest

/-- The text of a field. -/
def ReadsMember (text : Text) (field : Text × Value) : Prop :=
  ∃ child, text = quote field.1 ++ 58 :: child ∧ Reads child field.2

theorem tokens_of_members {texts : List Text} {fields : Fields}
    (h : List.Forall₂ ReadsMember texts fields) : ∃ tokens,
      List.Forall₂ Lexes texts tokens ∧ List.Forall₂ ReadsField tokens fields := by
  induction h with
  | nil => exact ⟨[], .nil, .nil⟩
  | @cons text field texts fields hhead _ ih =>
    obtain ⟨child, rfl, made, hlexes, hreads⟩ := hhead
    obtain ⟨tokens, htexts, hfields⟩ := ih
    have hcolon : punctuation.lookup 58 = some Token.colon := by decide
    exact ⟨_ :: tokens, .cons (lexes_quote field.1 (lexes_cons hcolon hlexes)) htexts,
      .cons ⟨made, rfl, hreads⟩ hfields⟩

theorem reads_object {texts : List Text} {fields : Fields}
    (h : List.Forall₂ ReadsMember texts fields) (hnodup : (fields.map Prod.fst).Nodup) :
    Reads (123 :: commas texts ++ [125]) (.object fields) := by
  obtain ⟨tokens, htexts, hfields⟩ := tokens_of_members h
  have hopen : punctuation.lookup 123 = some Token.openObject := by decide
  have hclose : punctuation.lookup 125 = some Token.closeObject := by decide
  refine ⟨_, lexes_container htexts hopen hclose, fun stack rest => ?_⟩
  cases hfields with
  | nil => rfl
  | @cons made field tokens fields hhead htail =>
    obtain ⟨child, rfl, hchild⟩ := hhead
    have hrest := run_fields htail [] field.1 field.2 stack rest (by simpa using hnodup)
    simp only [List.head?_cons, Option.getD_some, List.tail_cons, List.cons_append,
      List.append_assoc, Reader.run_openObject, Reader.run_field, hchild _ _]
    simpa using hrest

/-- A whole text that is read as a value. -/
theorem parse_of_reads {text : Text} {v : Value}
    (h : Reads text v) : parse text = some v := by
  obtain ⟨made, hlexes, hreads⟩ := h
  have htokens := hlexes [] delimited_nil
  have hrun := hreads [] []
  rw [List.append_nil] at htokens hrun
  rw [parse, htokens]
  simpa [Lexer.tokens, Lexer.finish] using hrun

end PonsWarp.Data.Json
