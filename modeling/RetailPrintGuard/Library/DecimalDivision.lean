import Mathlib.Algebra.Order.Ring.Rat
import Mathlib.Algebra.Order.Ring.Abs
import RetailPrintGuard.Library.Checks
import RetailPrintGuard.Library.DecimalFloat

/-! # Division of decimals

The quotient of two decimals under a precision, rounding half up to an exponent,
and the number a decimal stands for. -/
namespace RetailPrintGuard.Library.DecimalDivision
open RetailPrintGuard.Library.Checks RetailPrintGuard.Library.DecimalFloat

/-- The number a decimal stands for. -/
def value (x : Decimal) : ℚ :=
  (if x.negative then -1 else 1) * x.coefficient * (10 : ℚ) ^ x.exponent

inductive ArithmeticError where
  | divisionByZero
  | invalidOperation
  deriving DecidableEq

/-- The absolute value, rounded to the precision. -/
def absolute (precision : Nat) (x : Decimal) : Decimal := fix precision { x with negative := false }

/-- Drop trailing zeros of an exact quotient, up to the exponent it ideally has. -/
def toIdeal (ideal : Int) : Nat → Nat → Int → Nat × Int
  | 0, coefficient, exponent => (coefficient, exponent)
  | fuel + 1, coefficient, exponent =>
    if exponent < ideal ∧ coefficient % 10 = 0 then
      toIdeal ideal fuel (coefficient / 10) (exponent + 1)
    else (coefficient, exponent)

/-- The quotient with more digits than the precision, so that rounding it once is right. -/
def div (precision : Nat) (x y : Decimal) : Except ArithmeticError Decimal :=
  if y.coefficient = 0 then .error .divisionByZero
  else
    let negative := x.negative != y.negative
    let ideal := x.exponent - y.exponent
    if x.coefficient = 0 then .ok (fix precision ⟨negative, 0, ideal⟩)
    else
      let shift : Int := digitCount y.coefficient - digitCount x.coefficient + precision + 1
      let dividend := x.coefficient * 10 ^ shift.toNat
      let divisor := y.coefficient * 10 ^ (-shift).toNat
      let quotient := dividend / divisor
      if dividend % divisor = 0 then
        let (coefficient, exponent) :=
          toIdeal ideal (digitCount quotient) quotient (ideal - shift)
        .ok (fix precision ⟨negative, coefficient, exponent⟩)
      else
        -- an inexact quotient never looks like a tie
        let quotient := if quotient % 5 = 0 then quotient + 1 else quotient
        .ok (fix precision ⟨negative, quotient, ideal - shift⟩)

/-- `n / 10 ^ drop`, half up. -/
def roundHalfUp (drop n : Nat) : Nat :=
  if 2 * (n % 10 ^ drop) < 10 ^ drop then n / 10 ^ drop else n / 10 ^ drop + 1

/-- Round half up to an exponent; the result must fit the precision. -/
def quantizeHalfUp (precision : Nat) (exponent : Int) (x : Decimal) :
    Except ArithmeticError Decimal :=
  let coefficient :=
    if exponent ≤ x.exponent then x.coefficient * 10 ^ (x.exponent - exponent).toNat
    else roundHalfUp (exponent - x.exponent).toNat x.coefficient
  if digitCount coefficient ≤ precision then .ok ⟨x.negative, coefficient, exponent⟩
  else .error .invalidOperation

variable {precision : Nat} {x y : Decimal}

theorem coefficient_ne_zero (h : value x ≠ 0) : x.coefficient ≠ 0 := by
  intro hzero
  rw [value, hzero, Nat.cast_zero, mul_zero, zero_mul] at h
  exact h rfl

/-- A number that is rounded to a precision does not vanish. -/
theorem fix_coefficient_ne_zero (hp : 0 < precision) (h : x.coefficient ≠ 0) :
    (fix precision x).coefficient ≠ 0 := by
  obtain hlt | hle := Nat.lt_or_ge x.coefficient (10 ^ precision)
  · rw [fix_of_lt hp hlt]
    exact h
  · obtain ⟨_, -, -, hlow, -⟩ := fix_of_le hp hle
    have hpow : 0 < 10 ^ (precision - 1) := Nat.pow_pos (by decide)
    omega

theorem absolute_coefficient_ne_zero (hp : 0 < precision) (h : value x ≠ 0) :
    (absolute precision x).coefficient ≠ 0 := by
  have hcoefficient : x.coefficient ≠ 0 := coefficient_ne_zero h
  exact @fix_coefficient_ne_zero precision { x with negative := false } hp hcoefficient

theorem never_divisionByZero (h : y.coefficient ≠ 0) :
    Never .divisionByZero (div precision x y) := by
  unfold div
  rw [if_neg h]
  dsimp only
  split
  · exact never_ok _ _
  · split <;> exact never_ok _ _

theorem never_quantizeHalfUp {exponent : Int} :
    Never .divisionByZero (quantizeHalfUp precision exponent x) := by
  unfold quantizeHalfUp
  extract_lets coefficient
  split
  · exact never_ok _ _
  · exact fun h => by cases h

example : div 28 ⟨false, 1000, -2⟩ ⟨false, 30000, -4⟩ =
    .ok ⟨false, 3333333333333333333333333333, -27⟩ := by decide +kernel

example : quantizeHalfUp 28 (-4) ⟨true, 123455, -5⟩ = .ok ⟨true, 12346, -4⟩ := by decide +kernel

end RetailPrintGuard.Library.DecimalDivision
