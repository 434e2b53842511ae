import RetailPrintGuard.Common.Calendar
import RetailPrintGuard.Common.Domain
import RetailPrintGuard.Library.CanonicalJson
import RetailPrintGuard.Library.Checks
import RetailPrintGuard.Library.Sha256

/-! # What the parsers return

Documents with every field a parser sets, and the validation of their fields:
building a line, a payment, a heading or a document raises when a field is out
of its bounds. -/
namespace RetailPrintGuard.Parser.Documents
open RetailPrintGuard.Common.Amounts RetailPrintGuard.Common.Calendar
open RetailPrintGuard.Common.Domain (DocumentType SourceSpan)
open RetailPrintGuard.Common.PrintedText RetailPrintGuard.Common.Python
open RetailPrintGuard.Library RetailPrintGuard.Library.Checks
open RetailPrintGuard.Library.DecimalFloat

abbrev Bytes := List UInt8

/-! ## Where a payload comes from -/

/-- What a parser is given with the bytes, and what it takes from the runtime:
the time zones by name and the name-based identifiers. -/
structure JobContext where
  deviceId : String
  sessionId : Option String := none
  jobId : String
  capturedAt : Timestamp
  manifestSha256 : String
  sourcePath : String
  responseSourcePath : Option String := none
  timezoneName : String := "Europe/Rome"
  zoneInfo : String → Option Zone
  uuid5 : String → UUID

/-! ## Parts of a document -/

structure DocumentLine where
  sequence : Nat
  courseCode : Option Text := none
  itemCode : Option Text := none
  description : Option Text := none
  quantity : Option Decimal := none
  unitPrice : Option Decimal := none
  lineTotal : Option Decimal := none
  state : Option String := none
  rawText : Text
  source : SourceSpan
deriving DecidableEq

structure PaymentRecord where
  method : Option Text := none
  amount : Decimal
deriving DecidableEq

structure ReceiptHeader where
  merchantName : Option Text := none
  legalName : Option Text := none
  addressLines : List Text := []
  phone : Option Text := none
  taxCode : Option Text := none
  vatNumber : Option Text := none
deriving DecidableEq

structure NormalizedDocument where
  id : UUID
  type : DocumentType
  subtype : String
  externalDocumentCode : Option Text := none
  externalDocumentCodeSuffix : Option Text := none
  commercialReferenceCode : Option Text := none
  orderCode : Option Text := none
  tableCode : Option Text := none
  operatorCode : Option Text := none
  receiptHeader : Option ReceiptHeader := none
  applicationTimestamp : Option Timestamp := none
  rchFooterTimestamp : Option Timestamp := none
  rchSerialNumber : Option Text := none
  documentTimestamp : Option Timestamp := none
  grossTotal : Option Decimal := none
  taxTotal : Option Decimal := none
  status : String
  normalizedText : Text
  encoding : String
  parseConfidence : Nat
  evidence : String
  sourcePayloadSha256 : String
  sourcePath : String
  complete : Bool
  warnings : List String := []
  lines : List DocumentLine := []
  payments : List PaymentRecord := []
  rawMetadata : List (String × Json) := []

/-! ## Validation -/

/-- An optional `Money` field. -/
def optionalMoney : Option Decimal → Except Raised (Option Decimal)
  | none => .ok none
  | some value => (money value).map some

def validateLine (line : DocumentLine) : Except Raised DocumentLine := do
  let _ ← optionalMoney line.quantity
  let _ ← optionalMoney line.unitPrice
  let _ ← optionalMoney line.lineTotal
  return line

def validatePayment (payment : PaymentRecord) : Except Raised PaymentRecord := do
  let _ ← money payment.amount
  return payment

/-- `strip_optional_text` and the length bounds of a heading field. -/
def headerField (limit : Nat) (value : Option Text) : Except Raised (Option Text) :=
  match value.map strip with
  | none => .ok none
  | some text =>
    if text.isEmpty then .ok none
    else if text.length ≤ limit then .ok (some text) else .error .valueError

/-- `normalize_address_lines` and the bounds of one line. -/
def headerLine (value : Text) : Except Raised Text :=
  let line := strip value
  if line.isEmpty || 191 < line.length then .error .valueError else .ok line

def validateHeader (header : ReceiptHeader) : Except Raised ReceiptHeader := do
  let merchantName ← headerField 191 header.merchantName
  let legalName ← headerField 191 header.legalName
  let addressLines ← header.addressLines.mapM headerLine
  let phone ← headerField 64 header.phone
  let taxCode ← headerField 32 header.taxCode
  let vatNumber ← headerField 32 header.vatNumber
  raiseIf (8 < addressLines.length) .valueError
  raiseIf (merchantName.isNone ∧ legalName.isNone ∧ addressLines = [] ∧ phone.isNone ∧
    taxCode.isNone ∧ vatNumber.isNone) .valueError
  return { merchantName, legalName, addressLines, phone, taxCode, vatNumber }

/-- Lines, payments and the heading are validated before; of a document only
the totals are left, `net_total` being the same as `gross_total`. -/
def validateDocument (document : NormalizedDocument) : Except Raised NormalizedDocument := do
  let _ ← optionalMoney document.grossTotal
  let _ ← optionalMoney document.taxTotal
  return document

theorem validateLine_eq {line line' : DocumentLine} (h : validateLine line = .ok line') :
    line' = line := by
  unfold validateLine at h
  simp only [bind_eq_ok, pure_eq_ok] at h
  obtain ⟨_, _, _, _, _, _, h⟩ := h
  exact h.symm

end RetailPrintGuard.Parser.Documents
