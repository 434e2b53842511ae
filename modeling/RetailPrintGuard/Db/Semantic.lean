import Mathlib.Data.List.Infix
import Mathlib.Data.Rat.Floor
import RetailPrintGuard.Common.Runtime
import RetailPrintGuard.Ingestion.Adapters

/-! # Values of parsed documents

What the repository makes of the JSON values of a parsed document before they
become columns. An exception that is not handled on the way is returned by its
name. -/
namespace RetailPrintGuard.Db.Semantic
open RetailPrintGuard.Library RetailPrintGuard.Library.Checks RetailPrintGuard.Common.Formats
open RetailPrintGuard.Ingestion.Adapters (field)

/-- A `Decimal`, its value alone. -/
inductive Number where
  | finite (value : Rat)
  | infinite
  | nan
deriving DecidableEq

/-- What the runtime and the database make of texts. -/
structure Readers where
  codec : Codec
  /-- `Decimal(·)`: nothing where it raises `InvalidOperation` -/
  decimal : String → Option Number
  /-- `datetime.fromisoformat(·)`: nothing where it raises a `ValueError` -/
  fromisoformat : String → Option ParsedTime
  /-- `str.upper` -/
  upper : String → String
  /-- the sort key under which the database compares two texts -/
  collation : String → String

/-- Readers of plain texts, for which no text is a decimal. -/
noncomputable def plainReaders : Readers where
  codec := Common.Runtime.runtime
  decimal _ := none
  fromisoformat := Common.Runtime.readTimestamp
  upper := id
  collation := id

/-- The first and the last microsecond a `datetime` can have. -/
def minMicros : Int := -62135596800000000
def maxMicros : Int := 253402300799999999

/-- `str(value)` -/
def strJson : Json → String
  | .str text => text
  | value => reprJson value

/-- `_first` -/
def first (mapping : Json) (keys : List String) : Json :=
  ((keys.map (field mapping)).find? (· ≠ .null)).getD .null

/-- `_optional_text` -/
def optionalText (value : Json) : Option String :=
  if value = .null ∨ value = .str "" then none else some (strJson value)

/-- `_text` -/
def text (value : Json) (default : String := "") : String :=
  if value = .null then default else strJson value

section
variable (readers : Readers)

/-- `bool(value)` -/
def truthy : Json → Bool
  | .null => false
  | .bool b => b
  | .num n => n != 0
  | .float (.finite text) => readers.codec.floatValue text != 0
  | .float _ => true
  | .str text => text != ""
  | .arr values => !values.isEmpty
  | .obj fields => !fields.isEmpty

/-- `a or b` -/
def orElse (a b : Json) : Json := if truthy readers a then a else b

/-- `_as_decimal` -/
def asDecimal (value : Json) : Option Number :=
  if value = .null ∨ value = .str "" then none else readers.decimal (strJson value)

/-- `int(x)` on a number with a fraction -/
def truncate (x : Rat) : Int := if 0 ≤ x then ⌊x⌋ else -⌊-x⌋

/-- `int(value)` -/
def intOf : Json → Except String Int
  | .num n => .ok n
  | .bool b => .ok (if b then 1 else 0)
  | .float (.finite text) => .ok (truncate (readers.codec.floatValue text))
  | .float (.infinite _) => .error "OverflowError"
  | .float .nan => .error "ValueError"
  | .str text =>
    match readers.codec.intOfText text with
    | some n => .ok n
    | none => .error "ValueError"
  | _ => .error "TypeError"

/-- `_integer_or_none` -/
def integerOrNone (value : Json) : Except String (Option Int) :=
  if value = .null then .ok none
  else
    match intOf readers value with
    | .ok n => .ok (some n)
    | .error name => if name = "OverflowError" then .error name else .ok none

def containsText (word text : String) : Bool := word.toList <:+: text.toList

/-- `_confidence` where the document states none. -/
def evidenceConfidence (evidence : String) : Int :=
  let normalized := readers.upper evidence
  if containsText "CONFIRMED" normalized && !containsText "UNCONFIRMED" normalized then 100
  else if containsText "INFERRED" normalized then 65
  else 25

/-- `_confidence` -/
def confidence (semantic : Json) (evidence : String) : Except String Int :=
  let value := first semantic ["parse_confidence", "confidence"]
  if value = .null then .ok (evidenceConfidence readers evidence)
  else
    match readers.decimal (strJson value) with
    | none | some .nan => .ok (evidenceConfidence readers evidence)
    | some .infinite => .error "OverflowError"
    | some (.finite x) =>
      let percent := if 0 ≤ x ∧ x ≤ 1 then x * 100 else x
      .ok (min 100 (max 0 (truncate percent)))

/-- `list(semantic.get("issues", []))` -/
def issues (semantic : Json) : Except String Unit :=
  match semantic.get? "issues" with
  | none | some (.arr _) | some (.str _) | some (.obj _) => .ok ()
  | _ => .error "TypeError"

/-- `_payment_time`: whether it raises. A time without a timezone is dropped. -/
def paymentTime (value : Json) : Except String (Option Int) :=
  if value = .null then .ok none
  else
    match readers.fromisoformat (strJson value) with
    | none => .ok none
    | some parsed =>
      if parsed.aware = false then .ok none
      else if parsed.micros < minMicros ∨ maxMicros < parsed.micros then .error "OverflowError"
      else .ok (some parsed.micros)

end

/-! ## Columns -/

/-- `String(n)` -/
def within (n : Nat) (text : String) : Bool := text.length ≤ n

def optionalWithin (n : Nat) (text : Option String) : Bool := text.all (within n)

/-- `Text` -/
def inText (text : String) : Bool := text.utf8ByteSize ≤ 65535

/-- `Integer` -/
def inInteger (n : Int) : Bool := -(2 ^ 31) ≤ n && n < 2 ^ 31

/-- `BigInteger` -/
def inBigInteger (n : Int) : Bool := -(2 ^ 63) ≤ n && n < 2 ^ 63

/-- `Numeric(19, 4)`: the amount rounded to four decimals has nineteen digits. -/
def inMoney : Option Number → Bool
  | none => true
  | some (.finite x) => |x| * 10 ^ 4 + 1 / 2 < 10 ^ 19
  | some _ => false

end RetailPrintGuard.Db.Semantic
