import Mathlib.Algebra.Order.Floor.Semifield
import Mathlib.Data.Int.Log
import Mathlib.Data.Rat.Floor

set_option autoImplicit false

/-!
The numbers of IEEE 754 in 64 bits. A finite number is its mantissa and exponent, in the one way
that uses all bits of the mantissa unless the exponent is the least.
-/

namespace PonsWarp.Data

/-- The finite numbers above zero: `mantissa * 2 ^ exponent`. -/
structure Magnitude where
  mantissa : Nat
  exponent : Int
  pos : 0 < mantissa
  bits : mantissa < 2 ^ 53
  low : -1074 ≤ exponent
  high : exponent ≤ 971
  canonical : 2 ^ 52 ≤ mantissa ∨ exponent = -1074
  deriving DecidableEq

inductive Double where
  | nan
  | infinity (negative : Bool)
  | zero (negative : Bool)
  | finite (negative : Bool) (x : Magnitude)
  deriving DecidableEq

namespace Magnitude

def isInteger (x : Magnitude) : Bool :=
  0 ≤ x.exponent || x.mantissa % 2 ^ x.exponent.natAbs = 0

def value (x : Magnitude) : ℚ := x.mantissa * 2 ^ x.exponent

end Magnitude

namespace Double

def isFinite : Double → Bool
  | .zero _ | .finite _ _ => true
  | _ => false

def isInteger : Double → Bool
  | .zero _ => true
  | .finite _ x => x.isInteger
  | _ => false

/-- `x >= 0`, which holds of both zeros and not of `NaN`. -/
def isNonNegative : Double → Bool
  | .zero _ => true
  | .finite negative _ | .infinity negative => !negative
  | .nan => false

def neg : Double → Double
  | .nan => .nan
  | .infinity negative => .infinity (!negative)
  | .zero negative => .zero (!negative)
  | .finite negative x => .finite (!negative) x

/-- The number `m * 2 ^ e`, if there is one; beyond the largest it is infinite. -/
def scaled (m : Nat) (e : Int) : Double :=
  if m = 0 then .zero false
  else if h : 0 < m ∧ m < 2 ^ 53 ∧ -1074 ≤ e ∧ e ≤ 971 ∧ (2 ^ 52 ≤ m ∨ e = -1074) then
    .finite false ⟨m, e, h.1, h.2.1, h.2.2.1, h.2.2.2.1, h.2.2.2.2⟩
  else if h : m = 2 ^ 53 ∧ -1074 ≤ e + 1 ∧ e + 1 ≤ 971 then
    .finite false ⟨2 ^ 52, e + 1, by decide, by decide, h.2.1, h.2.2, .inl le_rfl⟩
  else .infinity false

/-- The natural number next to a number from zero up, the even one of two that are as near. -/
def roundHalfEven (q : ℚ) : Nat :=
  let n := ⌊q⌋₊
  if q - n < 1 / 2 then n
  else if 1 / 2 < q - n then n + 1
  else if n % 2 = 0 then n else n + 1

/-- The number next to a rational from zero up. -/
def nearest (q : ℚ) : Double :=
  if q ≤ 0 then .zero false
  else
    let e := max (Int.log 2 q - 52) (-1074)
    scaled (roundHalfEven (q / 2 ^ e)) e

theorem scaled_magnitude (x : Magnitude) : scaled x.mantissa x.exponent = .finite false x := by
  rw [scaled, if_neg x.pos.ne', dif_pos ⟨x.pos, x.bits, x.low, x.high, x.canonical⟩]

theorem roundHalfEven_natCast (n : Nat) : roundHalfEven n = n := by
  simp [roundHalfEven]

/-- The exponent is found again: a mantissa with all its bits says it, and it is the least
otherwise. -/
theorem exponent_eq (x : Magnitude) :
    max (Int.log 2 x.value - 52) (-1074) = x.exponent := by
  have hpow : (0 : ℚ) < 2 ^ x.exponent := zpow_pos (by norm_num) _
  have hpos : 0 < x.value := mul_pos (Nat.cast_pos.2 x.pos) hpow
  have hhigh : Int.log 2 x.value < 53 + x.exponent := by
    rw [← Int.lt_zpow_iff_log_lt (by decide) hpos, Magnitude.value, Nat.cast_ofNat,
      zpow_add₀ (by norm_num)]
    exact mul_lt_mul_of_pos_right (by exact_mod_cast x.bits) hpow
  obtain hfull | hleast := x.canonical
  · have hlow : 52 + x.exponent ≤ Int.log 2 x.value := by
      rw [← Int.zpow_le_iff_le_log (by decide) hpos, Magnitude.value, Nat.cast_ofNat,
        zpow_add₀ (by norm_num)]
      exact mul_le_mul_of_nonneg_right (by exact_mod_cast hfull) hpow.le
    have hexponent := x.low
    omega
  · omega

/-- What is a number already is next to itself. -/
theorem nearest_value (x : Magnitude) : nearest x.value = .finite false x := by
  have hpow : (2 : ℚ) ^ x.exponent ≠ 0 := zpow_ne_zero _ (by norm_num)
  have hpos : 0 < x.value :=
    mul_pos (Nat.cast_pos.2 x.pos) (zpow_pos (by norm_num) _)
  have hmantissa : x.value / 2 ^ x.exponent = x.mantissa := by
    rw [Magnitude.value, mul_div_assoc, div_self hpow, mul_one]
  simp only [nearest, if_neg (not_le.2 hpos), exponent_eq, hmantissa, roundHalfEven_natCast,
    scaled_magnitude]

end Double

end PonsWarp.Data
