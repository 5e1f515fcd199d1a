import PonsWarp.Core.PersistedValue

set_option autoImplicit false

/-!
What the language does with values that come from JSON: arithmetic, conversions to text and
to numbers, and comparisons.
-/

namespace PonsWarp.Core

/-- What is thrown. -/
structure JsError where
  name : String
  message : String
  deriving DecidableEq

def typeError : JsError := ⟨"TypeError", "Cannot convert object to primitive value"⟩

namespace JsNumber

def add : JsNumber → JsNumber → JsNumber
  | .finite x, .finite y => .finite (x + y)
  | .nan, _ => .nan
  | _, .nan => .nan
  | .infinity a, .infinity b => if a = b then .infinity a else .nan
  | .infinity a, .finite _ => .infinity a
  | .finite _, .infinity b => .infinity b

/-- `x <= y`. -/
def le : JsNumber → JsNumber → Bool
  | .finite x, .finite y => x ≤ y
  | .nan, _ => false
  | _, .nan => false
  | .infinity a, .infinity b => a || !b
  | .infinity a, .finite _ => a
  | .finite _, .infinity b => !b

/-- `x < y`. -/
def lt : JsNumber → JsNumber → Bool
  | .finite x, .finite y => x < y
  | .nan, _ => false
  | _, .nan => false
  | .infinity a, .infinity b => a && !b
  | .infinity a, .finite _ => a
  | .finite _, .infinity b => !b

/-- `Math.max` of two numbers. -/
def max (x y : JsNumber) : JsNumber :=
  if x = .nan ∨ y = .nan then .nan else if x.le y then y else x

/-- The product with a positive number. -/
def scale (k : Number) : JsNumber → JsNumber
  | .finite x => .finite (x * k)
  | x => x

/-- `x || 0`. -/
def orZero (x : JsNumber) : JsNumber := if x = .nan then .finite 0 else x

/-- The natural number that a number is, as far as it is a safe integer. -/
def natural? (x : JsNumber) : Option Nat :=
  match x.index? with
  | some n => if n ≤ MAX_SAFE_INTEGER then some n else none
  | none => none

theorem natural?_eq_some {x : JsNumber} {n : Nat} :
    x.natural? = some n ↔ x = ofNat n ∧ n ≤ MAX_SAFE_INTEGER := by
  unfold natural?
  cases hx : x.index? with
  | none =>
    have hne : x ≠ ofNat n := by
      rintro rfl
      simp at hx
    simp [hne]
  | some k =>
    obtain rfl := index?_eq_some.1 hx
    simp only [ofNat_inj]
    split
    · rename_i hle
      simp only [Option.some.injEq]
      constructor
      · rintro rfl
        exact ⟨rfl, hle⟩
      · exact fun h => h.1
    · rename_i hle
      simp only [reduceCtorEq, false_iff]
      rintro ⟨rfl, hle'⟩
      exact hle hle'

end JsNumber

namespace JsValue

mutual

/-- `String(value)`. The methods of an object are those that all objects have, unless the object
has a value of its own under the name, which is then no function. -/
def toText (numberText : JsNumber → String) : JsValue → Except JsError String
  | .null => .ok "null"
  | .bool b => .ok (if b then "true" else "false")
  | .number x => .ok (numberText x)
  | .string s => .ok s
  | .array items => do
    let texts ← joinTexts numberText items
    .ok (String.intercalate "," texts)
  | .object fields =>
    if (Fields.field? fields "toString").isSome then .error typeError else .ok "[object Object]"

def joinTexts (numberText : JsNumber → String) : List JsValue → Except JsError (List String)
  | [] => .ok []
  | .null :: rest => do
    let texts ← joinTexts numberText rest
    .ok ("" :: texts)
  | item :: rest => do
    let text ← toText numberText item
    let texts ← joinTexts numberText rest
    .ok (text :: texts)

end

/-- `Number(value)`. -/
def toNumber (numberText : JsNumber → String) (textNumber : String → JsNumber) :
    JsValue → Except JsError JsNumber
  | .null => .ok (.finite 0)
  | .bool b => .ok (.finite (if b then 1 else 0))
  | .number x => .ok x
  | .string s => .ok (textNumber s)
  | value => do
    let text ← value.toText numberText
    .ok (textNumber text)

mutual

/-- No object in the value has a `toString` of its own. -/
def hasText : JsValue → Bool
  | .array items => allHaveText items
  | .object fields => (Fields.field? fields "toString").isNone
  | _ => true

def allHaveText : List JsValue → Bool
  | [] => true
  | item :: rest => hasText item && allHaveText rest

end

mutual

theorem isOk_toText (numberText : JsNumber → String) (value : JsValue) :
    (value.toText numberText).isOk = value.hasText := by
  cases value with
  | array items =>
    have hitems := isOk_joinTexts numberText items
    rw [toText, hasText, ← hitems]
    cases joinTexts numberText items <;> rfl
  | object fields =>
    rw [toText, hasText]
    cases Fields.field? fields "toString" <;> rfl
  | _ => rfl

theorem isOk_joinTexts (numberText : JsNumber → String) (items : List JsValue) :
    (joinTexts numberText items).isOk = allHaveText items := by
  cases items with
  | nil => rfl
  | cons item rest =>
    have hitem := isOk_toText numberText item
    have hrest := isOk_joinTexts numberText rest
    rw [allHaveText, ← hitem, ← hrest]
    cases item with
    | null =>
      rw [joinTexts]
      cases joinTexts numberText rest <;> rfl
    | _ =>
      rw [joinTexts]
      · generalize toText numberText _ = text
        cases text with
        | error e => rfl
        | ok text => cases joinTexts numberText rest <;> rfl
      · intro hnull
        cases hnull

end

/-- Whether a value counts as true. -/
def isTruthy : JsValue → Bool
  | .null => false
  | .bool b => b
  | .number x => x ≠ .nan && x ≠ .finite 0
  | .string s => s ≠ ""
  | _ => true

/-- `a ?? b ?? fallback`. -/
def coalesce (fallback : JsValue) : List (Option JsValue) → JsValue
  | [] => fallback
  | none :: rest => coalesce fallback rest
  | some .null :: rest => coalesce fallback rest
  | some value :: _ => value

end JsValue

end PonsWarp.Core
