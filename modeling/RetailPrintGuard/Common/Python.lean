import Mathlib.Logic.Function.Basic
import Mathlib.Tactic.Positivity

/-! # What the Python runtime provides

Unicode tables, identifiers, clocks and digests are taken from the runtime.
Text handling and identifiers are a parameter (`Runtime`), so that every
result holds for any Unicode database and any identifiers drawn. -/
namespace RetailPrintGuard.Common.Python

/-- A UUID as its 128-bit number: `str` on UUIDs and the `BINARY(16)` column
both order them as numbers. -/
abbrev UUID := Nat

/-- An aware datetime: the instant in microseconds and the UTC offset it is
printed with (zero for every value read from a `UTCDateTime` column). -/
structure Timestamp where
  micros : Int
  utcOffset : Int := 0
deriving DecidableEq

/-- `timedelta(seconds=n)` in microseconds. -/
def seconds (n : Nat) : Int := n * 1000000

/-- `datetime.date()`: the local day. -/
def Timestamp.date (t : Timestamp) : Int := (t.micros + t.utcOffset) / (86400 * 1000000)

/-- `abs((later - earlier).total_seconds())`, in microseconds. -/
def Timestamp.distance (a b : Timestamp) : Nat := (b.micros - a.micros).natAbs

theorem Timestamp.distance_comm (a b : Timestamp) : a.distance b = b.distance a := by
  unfold Timestamp.distance
  omega

/-- An amount of money or a quantity in ten-thousandths (`Money` columns keep
four decimals). -/
abbrev Money := Int

/-- Round `num / den` to the nearest integer, ties to even, as `Decimal`
does under the default context. -/
def roundHalfEven (num den : Int) : Int :=
  let n := num * den.sign
  let d := (den.natAbs : Int)
  let q := n / d
  let r := n % d
  if 2 * r < d then q else if d < 2 * r then q + 1 else if q % 2 = 0 then q else q + 1

/-- `hashlib.sha256(canonical_json(value)).hexdigest()`, kept as the value it
is the digest of: SHA-256 and canonical JSON are taken as injective. -/
structure Digest (α : Type) where
  preimage : α
deriving DecidableEq

/-- The parts of the runtime whose outcome is not fixed by the program. -/
structure Runtime where
  /-- `unicodedata.normalize("NFKD", ·)` -/
  nfkd : String → String
  nfkd_empty : nfkd "" = ""
  /-- `unicodedata.combining(·) != 0` -/
  combining : Char → Bool
  /-- `str.upper` -/
  upper : String → String
  upper_empty : upper "" = ""
  /-- the characters `str.split()` and `str.strip()` drop -/
  isSpace : Char → Bool
  /-- `str.isdigit` on one character -/
  isDigit : Char → Bool
  /-- `\d` in a `re` pattern -/
  isDecimal : Char → Bool
  /-- `int` on one character that `\d` matches -/
  digitValue : Char → Nat := fun char => char.toNat - 48
  /-- `str.isalnum` on one character -/
  isAlnum : Char → Bool := Char.isAlphanum
  /-- `Decimal(·)` on a text, where it is a number -/
  decimal : String → Option Money := fun _ => none
  /-- the amounts of a JSON list of numbers, or of objects with an `amount`,
  from the `str` of the list -/
  amounts : String → Option (List Money) := fun _ => none
  /-- `uuid5(NAMESPACE_URL, ·)` on the name joined from sorted document ids -/
  uuid5 : List UUID → UUID
  uuid5_injective : Function.Injective uuid5
  /-- the `n`-th `uuid4()` drawn for a row -/
  uuid4 : Nat → UUID
  uuid4_injective : Function.Injective uuid4
  /-- `utc_now()` when the `n`-th row is flushed -/
  utcNow : Nat → Timestamp
  /-- the sort key under which the database compares two texts -/
  collation : String → String

namespace Runtime
variable (rt : Runtime)

/-- `str.split()` -/
def words (value : String) : List String :=
  ((value.toList.splitOnP rt.isSpace).filter fun w => !w.isEmpty).map String.ofList

/-- `str.strip()` -/
def strip (value : String) : String :=
  String.ofList ((value.toList.dropWhile rt.isSpace).reverse.dropWhile rt.isSpace).reverse

/-- Case, accents and spacing are folded away; a blank text is absent. -/
def normalise (value : Option String) : Option String :=
  match value with
  | none => none
  | some value =>
    let folded := rt.nfkd value
    let kept := String.ofList (folded.toList.filter fun char => !rt.combining char)
    let result := " ".intercalate (rt.words (rt.upper kept))
    if result = "" then none else some result

@[simp] theorem normalise_none : rt.normalise none = none := rfl

@[simp] theorem normalise_empty : rt.normalise (some "") = none := by
  have hw : rt.words (rt.upper (String.ofList
      ((rt.nfkd "").toList.filter fun char => !rt.combining char))) = [] := by
    rw [rt.nfkd_empty, String.toList_empty, List.filter_nil, String.ofList_nil, rt.upper_empty]
    simp [words]
  simp only [normalise, hw]
  decide

/-- `if value:` on an optional text. -/
def truthy (value : Option String) : Bool := value.any fun v => v != ""

end Runtime

theorem pow_two_odd_inj {a b m n : Nat} (h : 2 ^ a * (2 * m + 1) = 2 ^ b * (2 * n + 1)) :
    a = b ∧ m = n := by
  induction a generalizing b with
  | zero =>
    cases b with
    | zero => simp at h; omega
    | succ b => rw [Nat.pow_succ, Nat.mul_comm (2 ^ b), Nat.mul_assoc] at h; omega
  | succ a ih =>
    cases b with
    | zero => rw [Nat.pow_succ, Nat.mul_comm (2 ^ a), Nat.mul_assoc] at h; omega
    | succ b =>
      rw [Nat.pow_succ, Nat.pow_succ, Nat.mul_comm (2 ^ a), Nat.mul_comm (2 ^ b), Nat.mul_assoc,
        Nat.mul_assoc] at h
      obtain ⟨hab, hmn⟩ := ih (Nat.eq_of_mul_eq_mul_left (by omega) h)
      exact ⟨by omega, hmn⟩

/-- One number for a list of identifiers. -/
def packIds : List UUID → UUID
  | [] => 0
  | a :: as => 2 ^ a * (2 * packIds as + 1)

theorem packIds_injective : Function.Injective packIds := by
  intro l
  induction l with
  | nil =>
    intro l' h
    cases l' with
    | nil => rfl
    | cons b bs =>
      have hb : 2 ^ b * (2 * packIds bs + 1) ≠ 0 := by positivity
      exact absurd h.symm hb
  | cons a as ih =>
    intro l' h
    cases l' with
    | nil =>
      have ha : 2 ^ a * (2 * packIds as + 1) ≠ 0 := by positivity
      exact absurd h ha
    | cons b bs =>
      obtain ⟨hab, hrest⟩ := pow_two_odd_inj h
      rw [hab, ih hrest]

/-- The runtime on ASCII text, with counters for identifiers and a clock that
never moves. -/
def asciiRuntime : Runtime where
  nfkd := id
  nfkd_empty := rfl
  combining _ := false
  upper value := String.ofList (value.toList.map Char.toUpper)
  upper_empty := by decide
  isSpace := Char.isWhitespace
  isDigit := Char.isDigit
  isDecimal := Char.isDigit
  uuid5 := packIds
  uuid5_injective := packIds_injective
  uuid4 := id
  uuid4_injective := Function.injective_id
  utcNow _ := { micros := 0 }
  collation := id

example : asciiRuntime.normalise (some " tavolo  12 ") = some "TAVOLO 12" := by decide +kernel

end RetailPrintGuard.Common.Python
