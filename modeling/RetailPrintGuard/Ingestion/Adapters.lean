import RetailPrintGuard.Common.Formats
import RetailPrintGuard.Library.Checks

/-! # Validation helpers of the adapters

Each reads one JSON value and returns it, or the message of the
`SourceValidationError` it raises. -/
namespace RetailPrintGuard.Ingestion.Adapters
open RetailPrintGuard.Library RetailPrintGuard.Library.Checks RetailPrintGuard.Common.Formats

/-- `value.get(key)`: absent and null are the same. -/
def field (value : Json) (key : String) : Json := (value.get? key).getD .null

def maxInt : Nat := 2 ^ 63 - 1

theorem maxPayloadBytes_pos : 1 ≤ 128 * 1024 * 1024 := by decide

/-- `_mapping` -/
def mapping (value : Json) (label : String) : Except String Json :=
  match value with
  | .obj fields => .ok (.obj fields)
  | _ => .error (label ++ " must be a JSON object")

def requireString (value : Json) (label : String) (maximum : Nat := 4096) : Except String String :=
  match value with
  | .str text =>
    if text = "" ∨ maximum < text.length then
      .error (label ++ " must be a non-empty string up to " ++ toString maximum ++ " characters")
    else .ok text
  | _ => .error (label ++ " must be a non-empty string up to " ++ toString maximum ++ " characters")

def requireOptionalString (value : Json) (label : String) (maximum : Nat := 4096) :
    Except String (Option String) :=
  match value with
  | .null => .ok none
  | value => (requireString value label maximum).map some

def requireInt (value : Json) (label : String) (minimum : Nat := 0) (maximum : Nat := maxInt) :
    Except String Nat :=
  match value with
  | .num n =>
    if (minimum : Int) ≤ n ∧ n ≤ maximum then .ok n.toNat
    else .error (label ++ " must be an integer between " ++ toString minimum ++ " and " ++
      toString maximum)
  | _ => .error (label ++ " must be an integer between " ++ toString minimum ++ " and " ++
      toString maximum)

def requireBool (value : Json) (label : String) : Except String Bool :=
  match value with
  | .bool b => .ok b
  | _ => .error (label ++ " must be a boolean")

def requireSha256 (value : Json) (label : String) : Except String String :=
  match value with
  | .str text =>
    if isSha256 text then .ok text else .error (label ++ " must be a lowercase SHA-256 digest")
  | _ => .error (label ++ " must be a lowercase SHA-256 digest")

section
variable (fmt : Codec)

def requireUuid (value : Json) (label : String) : Except String String := do
  let text ← requireString value label 64
  if fmt.isUuid text then return text else throw (label ++ " must be a UUID")

/-- The instant in microseconds. -/
def parseDatetime (value : Json) (label : String) : Except String Int := do
  let text ← requireString value label 64
  match fmt.fromisoformat text with
  | none => throw (label ++ " must be an ISO-8601 timestamp")
  | some parsed => if parsed.aware then return parsed.micros else throw (label ++ " must include a timezone")

def endpoint (ip port : Json) (label : String) : Except String Endpoint := do
  let text ← requireString ip (label ++ ".ip") 45
  match fmt.ipv4Address text with
  | none => throw (label ++ ".ip must be an IPv4 address")
  | some ip =>
    let port ← requireInt port (label ++ ".port") 1 65535
    return { ip, port }

end

def resolveDevice (devicesByTarget : List (Endpoint × String)) (target : Endpoint) :
    Except String String :=
  match devicesByTarget.lookup target with
  | some deviceId => .ok deviceId
  | none =>
    .error ("captured target endpoint is not mapped to an enabled configured device: " ++
      target.ip ++ ":" ++ toString target.port)

/-! ## What they accept -/

theorem mapping_eq_ok {value value' : Json} {label : String} :
    mapping value label = .ok value' ↔ value' = value ∧ ∃ fields, value = .obj fields := by
  cases value with
  | obj fields => simp [mapping, eq_comm]
  | _ => simp [mapping]

theorem requireString_eq_ok {value : Json} {label text : String} {maximum : Nat} :
    requireString value label maximum = .ok text ↔
      value = .str text ∧ text ≠ "" ∧ text.length ≤ maximum := by
  unfold requireString
  split
  · next s =>
    split
    · next h =>
      constructor
      · intro hc
        cases hc
      · rintro ⟨heq, hne, hle⟩
        cases heq
        rcases h with h | h
        · exact absurd h hne
        · omega
    · next h =>
      constructor
      · intro hc
        cases hc
        exact ⟨rfl, fun hc => h (Or.inl hc), Nat.le_of_not_lt fun hc => h (Or.inr hc)⟩
      · rintro ⟨heq, -⟩
        cases heq
        rfl
  · next h =>
    constructor
    · intro hc
      cases hc
    · rintro ⟨heq, -⟩
      exact absurd heq (h text)

theorem requireInt_eq_ok {value : Json} {label : String} {minimum maximum n : Nat} :
    requireInt value label minimum maximum = .ok n ↔
      value = .num n ∧ minimum ≤ n ∧ n ≤ maximum := by
  unfold requireInt
  split
  · next k =>
    split
    · next h =>
      constructor
      · intro hc
        cases hc
        refine ⟨congrArg _ (Int.toNat_of_nonneg (by omega)).symm, by omega, by omega⟩
      · rintro ⟨heq, hmin, hmax⟩
        cases heq
        rfl
    · next h =>
      constructor
      · intro hc
        cases hc
      · rintro ⟨heq, hmin, hmax⟩
        cases heq
        omega
  · next h =>
    constructor
    · intro hc
      cases hc
    · rintro ⟨heq, -⟩
      exact absurd heq (h n)

theorem requireBool_eq_ok {value : Json} {label : String} {b : Bool} :
    requireBool value label = .ok b ↔ value = .bool b := by
  cases value <;> simp [requireBool]

theorem requireSha256_eq_ok {value : Json} {label text : String} :
    requireSha256 value label = .ok text ↔ value = .str text ∧ isSha256 text = true := by
  cases value with
  | str s =>
    unfold requireSha256
    dsimp only
    split
    · next h =>
      constructor
      · intro hc
        cases hc
        exact ⟨rfl, h⟩
      · rintro ⟨heq, -⟩
        cases heq
        rfl
    · next h =>
      constructor
      · intro hc
        cases hc
      · rintro ⟨heq, htext⟩
        cases heq
        exact absurd htext h
  | _ => simp [requireSha256]

theorem requireOptionalString_eq_ok {value : Json} {label : String} {maximum : Nat}
    {text : Option String} :
    requireOptionalString value label maximum = .ok text ↔
      (value = .null ∧ text = none) ∨
        ∃ s, value = .str s ∧ text = some s ∧ s ≠ "" ∧ s.length ≤ maximum := by
  unfold requireOptionalString
  split
  · simp [eq_comm]
  · next h =>
    constructor
    · intro hok
      cases hread : requireString value label maximum with
      | error e =>
        rw [hread] at hok
        cases hok
      | ok s =>
        rw [hread] at hok
        cases hok
        obtain ⟨hvalue, hne, hle⟩ := requireString_eq_ok.mp hread
        exact Or.inr ⟨s, hvalue, rfl, hne, hle⟩
    · rintro (⟨hvalue, -⟩ | ⟨s, hvalue, htext, hne, hle⟩)
      · exact absurd hvalue h
      · rw [requireString_eq_ok.mpr ⟨hvalue, hne, hle⟩, htext]
        rfl

theorem requireUuid_eq_ok {fmt : Codec} {value : Json} {label text : String} :
    requireUuid fmt value label = .ok text ↔
      value = .str text ∧ text ≠ "" ∧ text.length ≤ 64 ∧ fmt.isUuid text = true := by
  unfold requireUuid
  rw [bind_eq_ok]
  constructor
  · rintro ⟨text', hread, hif⟩
    obtain ⟨hvalue, hne, hle⟩ := requireString_eq_ok.mp hread
    split at hif
    · next huuid =>
      cases hif
      exact ⟨hvalue, hne, hle, huuid⟩
    · cases hif
  · rintro ⟨hvalue, hne, hle, huuid⟩
    exact ⟨text, requireString_eq_ok.mpr ⟨hvalue, hne, hle⟩, if_pos huuid⟩

theorem parseDatetime_eq_ok {fmt : Codec} {value : Json} {label : String} {micros : Int} :
    parseDatetime fmt value label = .ok micros ↔
      ∃ text, value = .str text ∧ text ≠ "" ∧ text.length ≤ 64 ∧
        fmt.fromisoformat text = some ⟨micros, true⟩ := by
  unfold parseDatetime
  rw [bind_eq_ok]
  constructor
  · rintro ⟨text, hread, hparse⟩
    obtain ⟨hvalue, hne, hle⟩ := requireString_eq_ok.mp hread
    refine ⟨text, hvalue, hne, hle, ?_⟩
    split at hparse
    · cases hparse
    · next parsed hparsed =>
      split at hparse
      · next haware =>
        cases hparse
        rw [hparsed, ← haware]
      · cases hparse
  · rintro ⟨text, hvalue, hne, hle, hparsed⟩
    refine ⟨text, requireString_eq_ok.mpr ⟨hvalue, hne, hle⟩, ?_⟩
    rw [hparsed]
    rfl

theorem endpoint_eq_ok {fmt : Codec} {ip port : Json} {label : String} {e : Endpoint} :
    endpoint fmt ip port label = .ok e ↔
      ∃ text n, ip = .str text ∧ text ≠ "" ∧ text.length ≤ 45 ∧
        fmt.ipv4Address text = some e.ip ∧ port = .num (n : Nat) ∧ 1 ≤ n ∧ n ≤ 65535 ∧
        e.port = n := by
  unfold endpoint
  rw [bind_eq_ok]
  constructor
  · rintro ⟨text, hread, hrest⟩
    obtain ⟨hip, hne, hle⟩ := requireString_eq_ok.mp hread
    split at hrest
    · cases hrest
    · next address haddress =>
      obtain ⟨n, hn, hpure⟩ := bind_eq_ok.mp hrest
      obtain ⟨hport, hmin, hmax⟩ := requireInt_eq_ok.mp hn
      cases hpure
      exact ⟨text, n, hip, hne, hle, haddress, hport, hmin, hmax, rfl⟩
  · rintro ⟨text, n, hip, hne, hle, haddress, hport, hmin, hmax, hn⟩
    refine ⟨text, requireString_eq_ok.mpr ⟨hip, hne, hle⟩, ?_⟩
    rw [haddress]
    refine bind_eq_ok.mpr ⟨n, requireInt_eq_ok.mpr ⟨hport, hmin, hmax⟩, pure_eq_ok.mpr ?_⟩
    rw [← hn]

theorem resolveDevice_eq_ok {devices : List (Endpoint × String)} {target : Endpoint}
    {deviceId : String} :
    resolveDevice devices target = .ok deviceId ↔ devices.lookup target = some deviceId := by
  unfold resolveDevice
  split <;> simp [*]

end RetailPrintGuard.Ingestion.Adapters
