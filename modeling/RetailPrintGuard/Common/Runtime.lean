import RetailPrintGuard.Common.Formats
import RetailPrintGuard.Library.Sha256

/-! # A runtime

SHA-256, a reader of canonical JSON, and readers of the times, identifiers and
addresses the proxy writes: one runtime that keeps what every runtime promises. -/
namespace RetailPrintGuard.Common.Runtime
open RetailPrintGuard.Library RetailPrintGuard.Common.Formats

/-! ## Canonical JSON -/

/-- A text without its last line feed. -/
def stripLine (bytes : Bytes) : Bytes :=
  if bytes.getLast? = some newline then bytes.dropLast else bytes

open Classical in
/-- The value a canonical text is of. -/
noncomputable def readCanonical (bytes : Bytes) : Option Json :=
  if h : ∃ v : Json, v.Distinct ∧ v.dumps = stripLine bytes then some (Classical.choose h).sortKeys
  else none

theorem readCanonical_of_strip {v : Json} (h : v.Distinct) {bytes : Bytes}
    (hstrip : stripLine bytes = v.dumps) : readCanonical bytes = some v.sortKeys := by
  have hex : ∃ w : Json, w.Distinct ∧ w.dumps = stripLine bytes := ⟨v, h, hstrip.symm⟩
  rw [readCanonical, dif_pos hex]
  have hsame : (Classical.choose hex).dumps = v.dumps :=
    (Classical.choose_spec hex).2.trans hstrip
  rw [Json.dumps_injOn hsame]

theorem stripLine_dumps (v : Json) : stripLine v.dumps = v.dumps := by
  rw [stripLine, if_neg]
  intro hlast
  have hbyte := Json.dumps_ge v newline (List.mem_of_getLast? hlast)
  exact absurd hbyte (by decide)

theorem stripLine_line (bytes : Bytes) : stripLine (bytes ++ [newline]) = bytes := by
  rw [stripLine, if_pos List.getLast?_concat, List.dropLast_concat]

theorem readCanonical_prefix {fields : List (String × Json)} {bytes : Bytes}
    (h : bytes <+: (Json.obj fields).dumps) (hne : bytes ≠ (Json.obj fields).dumps) :
    readCanonical bytes = none := by
  rw [readCanonical, dif_neg]
  rintro ⟨v, -, hv⟩
  have hstrip : stripLine bytes = bytes := by
    rw [stripLine, if_neg]
    intro hlast
    have hbyte := Json.dumps_ge _ newline (h.subset (List.mem_of_getLast? hlast))
    exact absurd hbyte (by decide)
  rw [hstrip] at hv
  rw [← hv] at h hne
  exact hne (Json.eq_of_dumps_prefix h)

/-! ## Numbers with a fraction -/

/-- The decimal number of a text: its sign, its digits, and its point and exponent. -/
def readFloat (text : FloatText) : Rat :=
  let negative := text.chars.head? = some '-'
  let unsigned := if negative then text.chars.drop 1 else text.chars
  let mantissa := unsigned.takeWhile fun c => c != 'e'
  let exponent := (unsigned.dropWhile fun c => c != 'e').drop 1
  let digits := (mantissa.filter fun c => c != '.').foldl
    (fun n c => 10 * n + (c.toNat - '0'.toNat)) 0
  let decimals := ((mantissa.dropWhile fun c => c != '.').drop 1).length
  let power := exponent.foldl
    (fun n c => if c.isDigit then 10 * n + (c.toNat - '0'.toNat) else n) 0
  let size : Rat := if exponent.head? = some '-' then digits / 10 ^ power else digits * 10 ^ power
  (if negative then -size else size) / 10 ^ decimals

example : readFloat ⟨"-12.5e-01".toList, by decide⟩ = -5 / 4 := by decide +kernel

/-! ## Times, identifiers and addresses -/

def digitsValue (digits : List Char) : Option Nat :=
  if digits.all Char.isDigit then
    some (digits.foldl (fun n c => 10 * n + (c.toNat - '0'.toNat)) 0)
  else none

/-- Days from 1970-01-01 of a date of the proleptic Gregorian calendar. -/
def daysFromEpoch (year month day : Nat) : Int :=
  let y : Int := if month ≤ 2 then (year : Int) - 1 else year
  let era := y / 400
  let yoe := y - era * 400
  let shifted : Int := if month ≤ 2 then (month : Int) + 9 else (month : Int) - 3
  let doy := (153 * shifted + 2) / 5 + (day : Int) - 1
  let doe := yoe * 365 + yoe / 4 - yoe / 100 + doy
  era * 146097 + doe - 719468

def daysInMonth (year month : Nat) : Nat :=
  if month = 2 then if year % 4 = 0 ∧ (year % 100 ≠ 0 ∨ year % 400 = 0) then 29 else 28
  else if month ∈ [4, 6, 9, 11] then 30 else 31

/-- `YYYY-MM-DDTHH:MM:SS.ffffffZ`, the form `utc_now_text` writes. -/
def readTimestamp (text : String) : Option ParsedTime := do
  let chars := text.toList
  let part (start length : Nat) := digitsValue ((chars.drop start).take length)
  guard (chars.length = 27)
  guard ([4, 7, 10, 13, 16, 19, 26].map (fun i => chars.getD i ' ') =
    ['-', '-', 'T', ':', ':', '.', 'Z'])
  let year ← part 0 4
  let month ← part 5 2
  let day ← part 8 2
  let hour ← part 11 2
  let minute ← part 14 2
  let second ← part 17 2
  let micros ← part 20 6
  guard (1 ≤ year ∧ 1 ≤ month ∧ month ≤ 12 ∧ 1 ≤ day ∧ day ≤ daysInMonth year month)
  guard (hour ≤ 23 ∧ minute ≤ 59 ∧ second ≤ 59)
  let seconds := daysFromEpoch year month day * 86400 + hour * 3600 + minute * 60 + second
  return { micros := seconds * 1000000 + micros, aware := true }

def isHexDigit (c : Char) : Bool :=
  c.isDigit || ('a' ≤ c && c ≤ 'f') || ('A' ≤ c && c ≤ 'F')

/-- The form `str(uuid4())` writes. -/
def isCanonicalUuid (text : String) : Bool :=
  let chars := text.toList
  chars.length == 36 && ([8, 13, 18, 23].all fun i => chars.getD i ' ' == '-') &&
    (chars.filter fun c => c != '-').length == 32 &&
    chars.all fun c => c == '-' || isHexDigit c

theorem isCanonicalUuid_plain {text : String} (h : isCanonicalUuid text = true) :
    ∀ c ∈ text.toList, c ≠ '.' ∧ c ≠ 'l' := by
  simp only [isCanonicalUuid, Bool.and_eq_true, List.all_eq_true] at h
  intro c hc
  have hchar := h.2 c hc
  constructor <;> (rintro rfl; revert hchar; decide)

/-- Four decimal numbers below 256 without leading zeros. -/
def readIpv4 (text : String) : Option String :=
  let parts := text.toList.splitOn '.'
  let octet (part : List Char) : Bool :=
    part.length ≤ 3 && (part == ['0'] || part.head? != some '0') && !part.isEmpty &&
      match digitsValue part with
      | some n => n ≤ 255
      | none => false
  if parts.length = 4 ∧ parts.all octet = true then some text else none

/-! ## The runtime -/

theorem isSha256_hexdigest (bytes : Bytes) : isSha256 (Sha256.hexdigest bytes) = true := by
  rw [isSha256, Bool.and_eq_true, beq_iff_eq, List.all_eq_true]
  exact ⟨Sha256.length_hexdigest bytes, Sha256.hexdigest_chars bytes⟩

/-- A canonical text is read, and nothing else. -/
noncomputable def loadCanonical (bytes : Bytes) : Loaded :=
  match readCanonical bytes with
  | some document => .value (.ofJson document)
  | none => .valueError

theorem loadCanonical_of_strip {v : Json} (h : v.Distinct) {bytes : Bytes}
    (hstrip : stripLine bytes = v.dumps) :
    loadCanonical bytes = .value (.ofJson v.sortKeys) := by
  rw [loadCanonical, readCanonical_of_strip h hstrip]

theorem loadCanonical_cut {fields : List (String × Json)} {bytes : Bytes}
    (h : bytes <+: (Json.obj fields).dumps) (hne : bytes ≠ (Json.obj fields).dumps) :
    loadCanonical bytes = .valueError := by
  rw [loadCanonical, readCanonical_prefix h hne]

/-- The levels of nesting that the recursion limit leaves room for. -/
def nestingLimit : Nat := 900

theorem deeper_obj (fields : List (PyText × PyJson)) :
    (!(PyJson.obj fields).shallow nestingLimit) =
      fields.any fun field => !(PyJson.obj [field]).shallow nestingLimit := by
  have hfield : ∀ field : PyText × PyJson,
      (PyJson.obj [field]).shallow nestingLimit = field.2.shallow 899 :=
    fun field => Bool.and_true _
  simp only [hfield]
  exact List.not_all_eq_any_not

noncomputable def runtime : Codec where
  sha256 := Sha256.hexdigest
  sha256_hex := isSha256_hexdigest
  parseJson := readCanonical
  parseJson_dumps v h := readCanonical_of_strip h.distinct (stripLine_dumps v)
  parseJson_line _ h := readCanonical_of_strip h.distinct (stripLine_line _)
  parseJson_keys _ h hread :=
    Option.some.inj ((readCanonical_of_strip h (stripLine_line _)).symm.trans hread)
  loads := loadCanonical
  loads_line _ h := loadCanonical_of_strip h.distinct (stripLine_line _)
  loads_dumps v h := loadCanonical_of_strip h.distinct (stripLine_dumps v)
  loads_prefix _ _ _ := loadCanonical_cut
  loadsText := loadCanonical
  loadsText_line _ h := loadCanonical_of_strip h.distinct (stripLine_line _)
  loadsText_nil := @loadCanonical_cut [] [] List.nil_prefix (by decide)
  strTooDeep value := !value.shallow nestingLimit
  dumpsTooDeep value := !value.shallow nestingLimit
  dumpsTooDeep_shallow _ h := by rw [PyJson.shallow_mono (by decide) h]; rfl
  dumpsTooDeep_obj := deeper_obj
  intOfText text := (digitsValue text.toList).map Int.ofNat
  fromisoformat := readTimestamp
  floatValue := readFloat
  isUuid := isCanonicalUuid
  isUuid_plain _ := isCanonicalUuid_plain
  ipv4Address := readIpv4

example : readTimestamp "1970-01-02T00:00:01.000002Z" = some ⟨86401000002, true⟩ := by
  decide +kernel

end RetailPrintGuard.Common.Runtime
