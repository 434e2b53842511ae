import RetailPrintGuard.Common.PrintedText
import RetailPrintGuard.Library.DecimalFloat

/-! # Amounts

Decimal arithmetic under the default context, and the bounds of a `Money`
field. What raises here is one of two classes: a failed validation is a
`ValueError`, a failed decimal operation is not. -/
namespace RetailPrintGuard.Common.Amounts
open RetailPrintGuard.Common.PrintedText RetailPrintGuard.Library.DecimalFloat

/-- The exception classes the parser worker tells apart. -/
inductive Raised where
  | parserRepositoryError
  | runtimeError
  | typeError
  /-- with its subclasses: a failed validation is one -/
  | valueError
  /-- `decimal.InvalidOperation` and `OverflowError` -/
  | arithmeticError
deriving DecidableEq

/-- `except (ParserRepositoryError, RuntimeError, TypeError, ValueError)` in the worker -/
def Raised.guarded : Raised → Bool
  | parserRepositoryError | runtimeError | typeError | valueError => true
  | arithmeticError => false

/-- `getcontext().prec` -/
def precision : Nat := 28

/-- `int` on decimal digits -/
def natOf (digits : Text) : Nat := digits.foldl (fun n x => 10 * n + (x.toNat - 48)) 0

/-- `Decimal(text)` on a text of the form `[+-]?\d+(\.\d+)?` -/
def decimalOf (text : Text) : Decimal :=
  let body := text.dropWhile fun x => x == '+' || x == '-'
  let whole := body.takeWhile (· != '.')
  let places := (body.dropWhile (· != '.')).drop 1
  { negative := text.head? == some '-'
    coefficient := natOf (whole ++ places)
    exponent := -(places.length : Int) }

/-- `value.quantize(Decimal("0.01"))` -/
def quantizeCents (value : Decimal) : Except Raised Decimal :=
  match quantize precision (-2) value with
  | some cents => .ok cents
  | none => .error .arithmeticError

/-- `_cents` -/
def cents (value : Text) : Except Raised Decimal :=
  quantizeCents (divPow precision 2 (decimalOf value))

/-- `(unit * quantity).quantize(Decimal("0.01"))` -/
def lineTotal (unit quantity : Decimal) : Except Raised Decimal :=
  quantizeCents (mul precision unit quantity)

/-- `_printed_money`, on a text the pattern of printed amounts matches -/
def printedMoney (value : Text) : Decimal :=
  decimalOf (replaceChar ',' '.' (value.filter (· != '.')))

/-- `f"{value:.2f}"` on a number of cents -/
def formatCents (value : Decimal) : Text :=
  let n := value.coefficient
  (if value.negative then ['-'] else []) ++ Nat.toDigits 10 (n / 100) ++ ['.'] ++
    Nat.toDigits 10 (n % 100 / 10) ++ Nat.toDigits 10 (n % 10)

/-- `Money`: `max_digits=19, decimal_places=4` -/
def isMoney (value : Decimal) : Bool := accepts precision 19 4 value

def money (value : Decimal) : Except Raised Decimal :=
  if isMoney value then .ok value else .error .valueError

/-! ## When they raise -/

variable {unit quantity : Decimal}

theorem quantizeCents_fix {x : Decimal} (hexp : x.exponent = -2) :
    quantizeCents (fix precision x) =
      if x.coefficient < 10 ^ 28 then .ok ⟨x.negative, x.coefficient, -2⟩
      else .error .arithmeticError := by
  have h : quantize precision (-2) (fix precision x) =
      if x.coefficient < 10 ^ 28 then some ⟨x.negative, x.coefficient, -2⟩ else none := by
    have hfix := @quantize_fix precision (-2) x (by decide) (by omega)
    simpa [hexp, precision] using hfix
  rw [quantizeCents, h]
  split_ifs <;> rfl

theorem lineTotal_eq (hunit : unit.exponent = -2) (hquantity : quantity.exponent = 0) :
    lineTotal unit quantity =
      if unit.coefficient * quantity.coefficient < 10 ^ 28 then
        .ok ⟨unit.negative != quantity.negative, unit.coefficient * quantity.coefficient, -2⟩
      else .error .arithmeticError :=
  quantizeCents_fix (by simp [hunit, hquantity])

end RetailPrintGuard.Common.Amounts
