import PonsWarp.Data.Json
import Mathlib.Algebra.Ring.Int.Parity
import Mathlib.Data.Nat.Digits.Lemmas

set_option autoImplicit false

/-!
A format for numbers that is exact: whole numbers by their digits, as the language has them below
`10 ^ 21`, and the others by a whole number and a power of ten.
-/

namespace PonsWarp.Data.Json

def digitUnit (d : Nat) : UInt16 := UInt16.ofNat (48 + d)

/-- The digits of a number above zero, the leading one first. -/
def decimal (n : Nat) : Text := (Nat.digits 10 n).reverse.map digitUnit

def exactText (x : Magnitude) : Text :=
  let k := x.exponent.natAbs
  if 0 ≤ x.exponent then decimal (x.mantissa * 2 ^ k)
  else if x.mantissa % 2 ^ k = 0 then decimal (x.mantissa / 2 ^ k)
  else decimal (x.mantissa * 5 ^ k) ++ 101 :: 45 :: decimal k

theorem toNat_digitUnit {d : Nat} (h : d < 10) : (digitUnit d).toNat = 48 + d := by
  rw [digitUnit, UInt16.toNat_ofNat']
  omega

theorem isDigit_iff {c : UInt16} : isDigit c = true ↔ 48 ≤ c.toNat ∧ c.toNat ≤ 57 := by
  rw [isDigit, Bool.and_eq_true, decide_eq_true_eq, decide_eq_true_eq, UInt16.le_iff_toNat_le,
    UInt16.le_iff_toNat_le]
  exact Iff.rfl

theorem isWordUnit_of_isDigit {c : UInt16} (h : isDigit c = true) : isWordUnit c = true := by
  simp [isWordUnit, h]

theorem isDigit_decimal (n : Nat) : ∀ c ∈ decimal n, isDigit c = true := by
  intro c hc
  obtain ⟨d, hd, rfl⟩ := List.mem_map.1 hc
  have hten : d < 10 := Nat.digits_lt_base (by decide) (List.mem_reverse.1 hd)
  rw [isDigit_iff, toNat_digitUnit hten]
  omega

theorem readDigits_decimal (n : Nat) : readDigits (decimal n) = n := by
  have hback : (Nat.digits 10 n).map ((fun c => c.toNat - 48) ∘ digitUnit) = Nat.digits 10 n := by
    have hid : ∀ d ∈ Nat.digits 10 n, ((fun c : UInt16 => c.toNat - 48) ∘ digitUnit) d = id d := by
      intro d hd
      simp [toNat_digitUnit (Nat.digits_lt_base (by decide) hd)]
    rw [List.map_congr_left hid, List.map_id]
  rw [readDigits, decimal, ← List.map_reverse, List.reverse_reverse, List.map_map, hback,
    Nat.ofDigits_digits]

/-- The digits of a number above zero start with one above zero. -/
theorem decimal_cons {n : Nat} (h : 0 < n) : ∃ c rest, decimal n = c :: rest ∧ c ≠ 48 ∧
    isDigit c = true ∧ ∀ d ∈ rest, isDigit d = true := by
  have hne : Nat.digits 10 n ≠ [] := Nat.digits_ne_nil_iff_ne_zero.2 h.ne'
  have hlead := Nat.getLast_digit_ne_zero 10 h.ne'
  have htext : decimal n = digitUnit ((Nat.digits 10 n).getLast hne) ::
      (Nat.digits 10 n).dropLast.reverse.map digitUnit := by
    rw [← List.map_cons, ← List.reverse_concat, List.dropLast_append_getLast hne, decimal]
  have hall := isDigit_decimal n
  rw [htext, List.forall_mem_cons] at hall
  refine ⟨_, _, htext, ?_, hall⟩
  intro heq
  have hten := Nat.digits_lt_base (by decide) (List.getLast_mem hne)
  have hnat := congrArg UInt16.toNat heq
  rw [toNat_digitUnit hten] at hnat
  exact hlead (by simpa using hnat)

theorem takeWhile_digits {digits : Text} (h : ∀ c ∈ digits, isDigit c = true) (rest : Text)
    (hrest : ∀ c ∈ rest.head?, isDigit c = false) :
    (digits ++ rest).takeWhile isDigit = digits ∧ (digits ++ rest).dropWhile isDigit = rest := by
  rw [List.takeWhile_append_of_pos h, List.dropWhile_append_of_pos h]
  cases rest with
  | nil => simp
  | cons c rest =>
    have hc : isDigit c = false := hrest c rfl
    simp [hc]

/-- A whole number that a power of ten may follow. -/
theorem literalValue_digits {digits : Text} (h : ∀ c ∈ digits, isDigit c = true) :
    literalValue digits = readDigits digits := by
  obtain ⟨htake, hdrop⟩ := takeWhile_digits h [] (by simp)
  rw [List.append_nil] at htake hdrop
  simp [literalValue, htake, hdrop]

theorem literalValue_exponent {digits power : Text} (h : ∀ c ∈ digits, isDigit c = true) :
    literalValue (digits ++ 101 :: 45 :: power) =
      readDigits digits * 10 ^ (-(readDigits power : Int)) := by
  have hletter : isDigit 101 = false := by decide
  obtain ⟨htake, hdrop⟩ := takeWhile_digits h (101 :: 45 :: power) (by simp [hletter])
  simp [literalValue, htake, hdrop]

theorem isLiteral_decimal {n : Nat} (h : 0 < n) : isLiteral (decimal n) = true := by
  obtain ⟨c, rest, htext, hlead, hc, hrest⟩ := decimal_cons h
  have hdrop := (takeWhile_digits hrest [] (by simp)).2
  rw [List.append_nil] at hdrop
  rw [isLiteral, Bool.and_eq_true, List.all_eq_true]
  refine ⟨fun d hd => isWordUnit_of_isDigit (isDigit_decimal n d hd), ?_⟩
  simp [htext, afterInteger, hc, hdrop, afterFraction, afterExponent]

theorem isLiteral_exponent {n k : Nat} (hn : 0 < n) (hk : 0 < k) :
    isLiteral (decimal n ++ 101 :: 45 :: decimal k) = true := by
  obtain ⟨c, rest, htext, hlead, hc, hrest⟩ := decimal_cons hn
  obtain ⟨c', rest', htext', -, hc', hrest'⟩ := decimal_cons hk
  have hletter : isDigit 101 = false := by decide
  have hdrop := (takeWhile_digits hrest (101 :: 45 :: c' :: rest') (by simp [hletter])).2
  have hdrop' := (takeWhile_digits hrest' [] (by simp)).2
  rw [List.append_nil] at hdrop'
  rw [isLiteral, Bool.and_eq_true, List.all_eq_true]
  constructor
  · intro d hd
    obtain hd | hd := List.mem_append.1 hd
    · exact isWordUnit_of_isDigit (isDigit_decimal n d hd)
    · obtain rfl | hd := List.mem_cons.1 hd
      · decide
      obtain rfl | hd := List.mem_cons.1 hd
      · decide
      exact isWordUnit_of_isDigit (isDigit_decimal k d hd)
  · simp [htext, htext', afterInteger, hc, hdrop, afterFraction, afterExponent,
      afterDigits, hc', hdrop']

theorem exponent_of_neg {x : Magnitude} (h : ¬ 0 ≤ x.exponent) :
    x.exponent = -(x.exponent.natAbs : Int) ∧ 0 < x.exponent.natAbs := by
  omega

theorem isLiteral_exactText (x : Magnitude) : isLiteral (exactText x) = true := by
  have hpos := x.pos
  simp only [exactText]
  split_ifs with hwhole hdvd
  · exact isLiteral_decimal (by positivity)
  · have hle := Nat.le_of_dvd hpos (Nat.dvd_of_mod_eq_zero hdvd)
    exact isLiteral_decimal (Nat.div_pos hle (by positivity))
  · exact isLiteral_exponent (by positivity) (exponent_of_neg hwhole).2

/-- The text is exact. -/
theorem literalValue_exactText (x : Magnitude) : literalValue (exactText x) = x.value := by
  simp only [exactText, Magnitude.value]
  split_ifs with hwhole hdvd
  · rw [literalValue_digits (isDigit_decimal _), readDigits_decimal]
    nth_rewrite 2 [← Int.natAbs_of_nonneg hwhole]
    rw [zpow_natCast, Nat.cast_mul, Nat.cast_pow, Nat.cast_ofNat]
  · obtain ⟨q, hq⟩ := Nat.dvd_of_mod_eq_zero hdvd
    rw [literalValue_digits (isDigit_decimal _), readDigits_decimal]
    nth_rewrite 2 [(exponent_of_neg hwhole).1]
    rw [hq, Nat.mul_div_cancel_left _ (by positivity), zpow_neg, zpow_natCast, Nat.cast_mul,
      Nat.cast_pow, Nat.cast_ofNat]
    field_simp
  · rw [literalValue_exponent (isDigit_decimal _), readDigits_decimal, readDigits_decimal]
    nth_rewrite 3 [(exponent_of_neg hwhole).1]
    rw [zpow_neg, zpow_neg, zpow_natCast, zpow_natCast, Nat.cast_mul, Nat.cast_pow, Nat.cast_ofNat,
      show (10 : ℚ) = 5 * 2 by norm_num, mul_pow]
    field_simp

def exactFormat : NumberFormat where
  toText := exactText
  isLiteral_toText := isLiteral_exactText
  readLiteral_toText x := by
    rw [readLiteral, literalValue_exactText, Double.nearest_value]

end PonsWarp.Data.Json
