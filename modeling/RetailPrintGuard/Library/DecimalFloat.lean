import Mathlib.Algebra.Order.Group.Nat
import Mathlib.Data.Nat.Log
import Mathlib.Tactic.Positivity
import Mathlib.Tactic.Ring

/-! # Decimal floating point

Signed numbers `coefficient * 10 ^ exponent` under a precision: rounding half
even, quantizing, and the digit counts a bounded decimal column is checked by. -/
namespace RetailPrintGuard.Library.DecimalFloat

structure Decimal where
  negative : Bool := false
  coefficient : Nat
  exponent : Int := 0
deriving DecidableEq

/-- The decimal digits of a number; zero has one. -/
def digitCount (n : Nat) : Nat := (Nat.toDigits 10 n).length

/-- `n / 10 ^ drop`, half even. -/
def roundOff (drop n : Nat) : Nat :=
  let q := n / 10 ^ drop
  let r := n % 10 ^ drop
  if 2 * r < 10 ^ drop then q
  else if 10 ^ drop < 2 * r then q + 1
  else if q % 2 = 0 then q else q + 1

/-- Round to a precision. -/
def fix (precision : Nat) (x : Decimal) : Decimal :=
  if digitCount x.coefficient ≤ precision then x
  else
    let drop := digitCount x.coefficient - precision
    let rounded := roundOff drop x.coefficient
    if digitCount rounded ≤ precision then ⟨x.negative, rounded, x.exponent + drop⟩
    else ⟨x.negative, rounded / 10, x.exponent + drop + 1⟩

/-- The coefficient of a number at another exponent. -/
def rescale (exponent : Int) (x : Decimal) : Nat :=
  if exponent ≤ x.exponent then x.coefficient * 10 ^ (x.exponent - exponent).toNat
  else roundOff (exponent - x.exponent).toNat x.coefficient

/-- Round to an exponent; the result must fit the precision. -/
def quantize (precision : Nat) (exponent : Int) (x : Decimal) : Option Decimal :=
  let coefficient := rescale exponent x
  if digitCount coefficient ≤ precision then some ⟨x.negative, coefficient, exponent⟩ else none

def mul (precision : Nat) (x y : Decimal) : Decimal :=
  fix precision ⟨x.negative != y.negative, x.coefficient * y.coefficient, x.exponent + y.exponent⟩

/-- Divide by a power of ten. -/
def divPow (precision k : Nat) (x : Decimal) : Decimal :=
  fix precision { x with exponent := x.exponent - k }

/-- A number in units of `10 ^ exponent`, for an exponent not above its own. -/
def units (exponent : Int) (x : Decimal) : Int :=
  let n : Int := x.coefficient * 10 ^ (x.exponent - exponent).toNat
  if x.negative then -n else n

/-- A sum has the finer exponent of the two; zero is negative when both are. -/
def add (precision : Nat) (x y : Decimal) : Decimal :=
  let exponent := min x.exponent y.exponent
  let n := units exponent x + units exponent y
  fix precision
    ⟨if n = 0 then x.negative && y.negative else n < 0, n.natAbs, exponent⟩

/-- Comparison by value, whatever the exponents. -/
def equals (x y : Decimal) : Bool :=
  let exponent := min x.exponent y.exponent
  units exponent x == units exponent y

/-- `x ≤ 0` -/
def nonPositive (x : Decimal) : Bool := x.negative || x.coefficient == 0

/-- Drop the trailing zeros of a coefficient, of so many digits. -/
def stripZeros (negative : Bool) : Nat → Nat → Int → Decimal
  | 0, coefficient, exponent => ⟨negative, coefficient, exponent⟩
  | digits + 1, coefficient, exponent =>
    if coefficient % 10 = 0 then stripZeros negative digits (coefficient / 10) (exponent + 1)
    else ⟨negative, coefficient, exponent⟩

/-- Round to the precision and drop trailing zeros; zero has exponent zero. -/
def normalize (precision : Nat) (x : Decimal) : Decimal :=
  let fixed := fix precision x
  if fixed.coefficient = 0 then ⟨x.negative, 0, 0⟩
  else stripZeros x.negative (digitCount fixed.coefficient) fixed.coefficient fixed.exponent

/-! ## Digit bounds -/

/-- The digits behind the point. -/
def decimals (x : Decimal) : Nat := (-x.exponent).toNat

/-- All digits, with the zeros the exponent stands for. -/
def digits (x : Decimal) : Nat :=
  if 0 ≤ x.exponent then digitCount x.coefficient + x.exponent.toNat
  else max (decimals x) (digitCount x.coefficient)

def wholeDigits (x : Decimal) : Nat := digits x - decimals x

/-- A bound that only counts when the normalized number exceeds it too. -/
def exceeds (precision : Nat) (count : Decimal → Nat) (bound : Nat) (x : Decimal) : Bool :=
  bound < count x && bound < count (normalize precision x)

/-- At most `maxDigits` digits, `places` of them behind the point. -/
def accepts (precision maxDigits places : Nat) (x : Decimal) : Bool :=
  !exceeds precision digits maxDigits x && !exceeds precision decimals places x &&
    !exceeds precision wholeDigits (maxDigits - places) x

/-! ## Rounding -/

variable {precision k n drop : Nat} {exponent : Int} {x : Decimal}

theorem digitCount_le_iff (h : 0 < k) : digitCount n ≤ k ↔ n < 10 ^ k :=
  Nat.length_toDigits_le_iff (by decide) h

theorem pow_le_of_lt_digitCount (h : k < digitCount n) (hn : n ≠ 0) : 10 ^ k ≤ n := by
  cases k with
  | zero => exact Nat.one_le_iff_ne_zero.mpr hn
  | succ k =>
    by_contra hlt
    have hle := (digitCount_le_iff (Nat.succ_pos k)).mpr (Nat.lt_of_not_le hlt)
    omega

theorem le_roundOff : n / 10 ^ drop ≤ roundOff drop n := by
  unfold roundOff
  dsimp only
  split_ifs <;> omega

theorem fix_of_lt (hp : 0 < precision) (h : x.coefficient < 10 ^ precision) :
    fix precision x = x := if_pos ((digitCount_le_iff hp).mpr h)

/-- A number that is rounded keeps as many digits as the precision, and no
fewer digits before the point. -/
theorem fix_of_le (hp : 0 < precision) (h : 10 ^ precision ≤ x.coefficient) :
    ∃ drop : Nat, 0 < drop ∧ (fix precision x).exponent = x.exponent + drop ∧
      10 ^ (precision - 1) ≤ (fix precision x).coefficient ∧
      digitCount x.coefficient ≤ precision + drop := by
  have hmany : ¬ digitCount x.coefficient ≤ precision := fun hle =>
    absurd ((digitCount_le_iff hp).mp hle) (by omega)
  obtain ⟨drop, hdrop⟩ : ∃ drop, digitCount x.coefficient = precision + drop :=
    ⟨digitCount x.coefficient - precision, by omega⟩
  have hne : x.coefficient ≠ 0 := by
    have hpow : 0 < 10 ^ precision := by positivity
    omega
  have hlow : 10 ^ (precision - 1) ≤ x.coefficient / 10 ^ drop := by
    rw [Nat.le_div_iff_mul_le (by positivity), ← Nat.pow_add]
    exact pow_le_of_lt_digitCount (by omega) hne
  have hround : 10 ^ (precision - 1) ≤ roundOff drop x.coefficient := hlow.trans le_roundOff
  unfold fix
  rw [if_neg hmany, show digitCount x.coefficient - precision = drop by omega]
  dsimp only
  split
  · exact ⟨drop, by omega, rfl, hround, by omega⟩
  · next hcarry =>
    have hfull : 10 ^ precision ≤ roundOff drop x.coefficient :=
      pow_le_of_lt_digitCount (by omega) (by
        have hpow : 0 < 10 ^ (precision - 1) := by positivity
        omega)
    refine ⟨drop + 1, by omega, by push_cast; ring, ?_, by omega⟩
    rw [Nat.le_div_iff_mul_le (by decide), ← Nat.pow_succ, Nat.succ_eq_add_one,
      Nat.sub_add_cancel hp]
    exact hfull

/-- Quantizing after rounding to the precision only loses numbers that do not
fit: what is kept is exact. -/
theorem quantize_fix (hp : 0 < precision) (hexp : exponent ≤ x.exponent) :
    quantize precision exponent (fix precision x) =
      if x.coefficient * 10 ^ (x.exponent - exponent).toNat < 10 ^ precision then
        some ⟨x.negative, x.coefficient * 10 ^ (x.exponent - exponent).toNat, exponent⟩
      else none := by
  by_cases hfits : x.coefficient < 10 ^ precision
  · rw [fix_of_lt hp hfits]
    simp only [quantize, rescale, if_pos hexp, digitCount_le_iff hp]
  · obtain ⟨drop, hdrop, hexponent, hlow, -⟩ := fix_of_le hp (by omega : 10 ^ precision ≤ x.coefficient)
    have hshift : (x.exponent + drop - exponent).toNat = (x.exponent - exponent).toNat + drop := by
      omega
    have hlong : ¬ (fix precision x).coefficient * 10 ^ (x.exponent + drop - exponent).toNat <
        10 ^ precision := by
      have hten : 10 ≤ 10 ^ (x.exponent + drop - exponent).toNat := by
        rw [hshift]
        calc 10 = 10 ^ 1 := rfl
          _ ≤ 10 ^ ((x.exponent - exponent).toNat + drop) :=
              Nat.pow_le_pow_right (by decide) (by omega)
      have hmul := Nat.mul_le_mul hlow hten
      rw [← Nat.pow_succ, Nat.succ_eq_add_one, Nat.sub_add_cancel hp] at hmul
      exact Nat.not_lt.mpr hmul
    have hwide : ¬ x.coefficient * 10 ^ (x.exponent - exponent).toNat < 10 ^ precision := by
      have hone : 1 ≤ 10 ^ (x.exponent - exponent).toNat := Nat.one_le_pow _ _ (by decide)
      have hmul := Nat.le_mul_of_pos_right x.coefficient hone
      omega
    have hrescale : rescale exponent (fix precision x) =
        (fix precision x).coefficient * 10 ^ (x.exponent + drop - exponent).toNat := by
      rw [rescale, hexponent, if_pos (by omega)]
    rw [if_neg hwide, quantize, hrescale, if_neg ((digitCount_le_iff hp).not.mpr hlong)]

end RetailPrintGuard.Library.DecimalFloat
