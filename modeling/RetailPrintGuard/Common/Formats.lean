import RetailPrintGuard.Library.LoadedJson

/-! # Digests, JSON text and printed times

SHA-256, the JSON readers and the parsers of times and addresses are taken from
the runtime, so that every result holds for any of them that reads back what
canonical JSON writes. Texts are sequences of characters: only what recovery
loads may hold a lone surrogate. -/
namespace RetailPrintGuard.Common.Formats
open RetailPrintGuard.Library

abbrev Bytes := List UInt8

def newline : UInt8 := 10

/-- `re.compile(r"^[0-9a-f]\{64}$")` -/
def isSha256 (text : String) : Bool :=
  text.length == 64 && text.toList.all fun c => c.isDigit || ('a' ≤ c && c ≤ 'f')

/-! ## Directions -/

inductive Direction where
  | clientToDevice | deviceToClient
deriving DecidableEq

def Direction.value : Direction → String
  | .clientToDevice => "client_to_device"
  | .deviceToClient => "device_to_client"

/-- A value for each direction. -/
@[ext] structure ByDirection (α : Type) where
  clientToDevice : α
  deviceToClient : α
deriving DecidableEq

namespace ByDirection
variable {α : Type}

def const (a : α) : ByDirection α := ⟨a, a⟩

def get (values : ByDirection α) : Direction → α
  | .clientToDevice => values.clientToDevice
  | .deviceToClient => values.deviceToClient

def set (values : ByDirection α) (direction : Direction) (a : α) : ByDirection α :=
  match direction with
  | .clientToDevice => { values with clientToDevice := a }
  | .deviceToClient => { values with deviceToClient := a }

@[simp] theorem get_const (a : α) (direction : Direction) : (const a).get direction = a := by
  cases direction <;> rfl

@[simp] theorem get_set (values : ByDirection α) (direction other : Direction) (a : α) :
    (values.set direction a).get other = if other = direction then a else values.get other := by
  cases direction <;> cases other <;> rfl

theorem ext_get {values values' : ByDirection α}
    (h : ∀ direction, values.get direction = values'.get direction) : values = values' :=
  ByDirection.ext (h .clientToDevice) (h .deviceToClient)

end ByDirection

/-- A counter for each direction, as a dictionary. -/
def countDocument (counts : ByDirection Nat) : Json :=
  .obj [("client_to_device", .num counts.clientToDevice),
    ("device_to_client", .num counts.deviceToClient)]

def optionalText : Option String → Json
  | none => .null
  | some text => .str text

/-! ## Python's printed values -/

def reprChar (quote c : Char) : List Char :=
  if c = quote ∨ c = '\\' then ['\\', c]
  else if c = '\n' then ['\\', 'n']
  else if c = '\r' then ['\\', 'r']
  else if c = '\t' then ['\\', 't']
  else if c.toNat < 32 ∨ c.toNat = 127 then
    ['\\', 'x', Json.hexDigit (c.toNat / 16), Json.hexDigit c.toNat]
  else [c]

/-- `repr` of a string whose other characters are all printable. -/
def reprText (text : String) : String :=
  let chars := text.toList
  let quote := if chars.contains '\'' && !chars.contains '"' then '"' else '\''
  String.ofList (quote :: chars.flatMap (reprChar quote) ++ [quote])

def reprFloat : JsonFloat → String
  | .finite text => String.ofList text.chars
  | .infinite true => "-inf"
  | .infinite false => "inf"
  | .nan => "nan"

def reprPoint (quote : Char) (point : Nat) : List Char :=
  if isSurrogate point then
    ['\\', 'u', Json.hexDigit (point / 4096), Json.hexDigit (point / 256),
      Json.hexDigit (point / 16), Json.hexDigit point]
  else reprChar quote (Char.ofNat point)

def reprPyText : PyText → String
  | .text value => reprText value
  | .lone points =>
    let quote := if points.1.contains 39 && !points.1.contains 34 then '"' else '\''
    String.ofList (quote :: points.1.flatMap (reprPoint quote) ++ [quote])

mutual
def reprPy : PyJson → String
  | .null => "None"
  | .bool true => "True"
  | .bool false => "False"
  | .num n => toString n
  | .float f => reprFloat f
  | .str text => reprPyText text
  | .arr values => "[" ++ String.intercalate ", " (reprValues values) ++ "]"
  | .obj fields => "\x7b" ++ String.intercalate ", " (reprFields fields) ++ "\x7d"

def reprValues : List PyJson → List String
  | [] => []
  | v :: vs => reprPy v :: reprValues vs

def reprFields : List (PyText × PyJson) → List String
  | [] => []
  | (key, v) :: fs => (reprPyText key ++ ": " ++ reprPy v) :: reprFields fs
end

def reprJson (value : Json) : String := reprPy (.ofJson value)

/-! The texts of numbers without a value are no JSON. -/

mutual
def isJson : Json → Bool
  | .float (.finite _) => true
  | .float _ => false
  | .arr values => areJson values
  | .obj fields => fieldsAreJson fields
  | _ => true

def areJson : List Json → Bool
  | [] => true
  | v :: vs => isJson v && areJson vs

def fieldsAreJson : List (String × Json) → Bool
  | [] => true
  | (_, v) :: fs => isJson v && fieldsAreJson fs
end

/-! ## The runtime -/

/-- A time read by `datetime.fromisoformat`: the instant in microseconds, and
whether it has a timezone. -/
structure ParsedTime where
  micros : Int
  aware : Bool
deriving DecidableEq

/-- `ingestion.dto.Endpoint` -/
structure Endpoint where
  ip : String
  port : Int
deriving DecidableEq

/-- What every reader reads back as it was: no key twice, no floating-point
number, whose text may be another, and no deep nesting. -/
structure Readable (value : Json) : Prop where
  distinct : value.Distinct
  plain : value.plain 8 = true

/-- What `json.loads` returns or raises. -/
inductive Loaded where
  | value (document : PyJson)
  | valueError
  | recursionError

structure Codec where
  /-- `hashlib.sha256(·).hexdigest()` -/
  sha256 : Bytes → String
  sha256_hex : ∀ bytes, isSha256 (sha256 bytes) = true
  /-- `parse_json_bytes`: nothing where it raises -/
  parseJson : Bytes → Option Json
  parseJson_dumps : ∀ v : Json, Readable v → parseJson v.dumps = some v.sortKeys
  parseJson_line : ∀ v : Json, Readable v → parseJson (v.dumps ++ [newline]) = some v.sortKeys
  /-- the keys of an object are in the order of the text -/
  parseJson_keys : ∀ v : Json, v.Distinct → parseJson (v.dumps ++ [newline]) = some v →
    v.sortKeys = v
  /-- `json.loads` on bytes -/
  loads : Bytes → Loaded
  loads_line : ∀ v : Json, Readable v → loads (v.dumps ++ [newline]) = .value (.ofJson v.sortKeys)
  loads_dumps : ∀ v : Json, Readable v → loads v.dumps = .value (.ofJson v.sortKeys)
  loads_prefix : ∀ fields bytes, Readable (.obj fields) → bytes <+: (Json.obj fields).dumps →
    bytes ≠ (Json.obj fields).dumps → loads bytes = .valueError
  /-- `json.loads` on a text read as UTF-8 -/
  loadsText : Bytes → Loaded
  loadsText_line : ∀ v : Json, Readable v →
    loadsText (v.dumps ++ [newline]) = .value (.ofJson v.sortKeys)
  loadsText_nil : loadsText [] = .valueError
  /-- `str` of an object or array goes over the recursion limit -/
  strTooDeep : PyJson → Bool
  /-- `json.dumps` goes over the recursion limit, as it does at one value of an object -/
  dumpsTooDeep : PyJson → Bool
  dumpsTooDeep_shallow : ∀ v : PyJson, v.shallow 8 = true → dumpsTooDeep v = false
  dumpsTooDeep_obj : ∀ fields, dumpsTooDeep (.obj fields) =
    fields.any fun field => dumpsTooDeep (.obj [field])
  /-- `int` of a string: nothing where it raises a `ValueError` -/
  intOfText : String → Option Int
  /-- `datetime.fromisoformat(·.replace("Z", "+00:00"))` -/
  fromisoformat : String → Option ParsedTime
  /-- the number a floating-point text stands for -/
  floatValue : FloatText → Rat
  /-- the texts `uuid.UUID` accepts: digits and signs, among them no full stop and no `l` -/
  isUuid : String → Bool
  isUuid_plain : ∀ text, isUuid text = true → ∀ c ∈ text.toList, c ≠ '.' ∧ c ≠ 'l'
  /-- `str(IPv4Address(·))` -/
  ipv4Address : String → Option String

/-- The document that `json.loads` returns, if UTF-8 has bytes for its texts. -/
def Codec.jsonLoads (fmt : Codec) (bytes : Bytes) : Option Json :=
  match fmt.loads bytes with
  | .value document => document.toJson?
  | _ => none

theorem Codec.jsonLoads_line (fmt : Codec) {v : Json} (h : Readable v) :
    fmt.jsonLoads (v.dumps ++ [newline]) = some v.sortKeys := by
  rw [jsonLoads, fmt.loads_line v h]
  exact PyJson.toJson?_ofJson _

end RetailPrintGuard.Common.Formats
