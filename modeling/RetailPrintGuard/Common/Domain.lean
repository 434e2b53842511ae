import Mathlib.Order.Defs.Unbundled
import RetailPrintGuard.Common.Python

/-! # Protocol-neutral evidence and documents -/
namespace RetailPrintGuard.Common.Domain
open RetailPrintGuard.Common.Python

inductive DocumentType where
  | order | orderChange | kitchenOrder | preBill | managementDocument | commercialDocument
  | shiftEndReport | invoice | conformingCopy | cancellation | refund | reprint | payment
  | deviceResponse | unknown
deriving DecidableEq

namespace DocumentType

/-- `DocumentType.value` -/
def value : DocumentType → String
  | order => "ORDER"
  | orderChange => "ORDER_CHANGE"
  | kitchenOrder => "KITCHEN_ORDER"
  | preBill => "PRE_BILL"
  | managementDocument => "MANAGEMENT_DOCUMENT"
  | commercialDocument => "COMMERCIAL_DOCUMENT"
  | shiftEndReport => "SHIFT_END_REPORT"
  | invoice => "INVOICE"
  | conformingCopy => "CONFORMING_COPY"
  | cancellation => "CANCELLATION"
  | refund => "REFUND"
  | reprint => "REPRINT"
  | payment => "PAYMENT"
  | deviceResponse => "DEVICE_RESPONSE"
  | unknown => "UNKNOWN"

/-- `NON_SALE_DOCUMENT_TYPES` -/
def nonSale : DocumentType → Bool
  | shiftEndReport | invoice => true
  | _ => false

end DocumentType

/-- A value of a JSON object, by what the engines read of it: its truth value
and its `str`. Numbers with a fraction, lists and objects are `other`. -/
inductive MetadataValue where
  | null
  | bool (value : Bool)
  | int (value : Int)
  | str (value : String)
  | other (truthy : Bool) (text : String)
deriving DecidableEq

namespace MetadataValue

/-- `bool(value)` -/
def truthy : MetadataValue → Bool
  | null => false
  | bool value => value
  | int value => value != 0
  | str value => value != ""
  | other truthy _ => truthy

/-- `str(value)` -/
def text : MetadataValue → String
  | null => "None"
  | bool true => "True"
  | bool false => "False"
  | int value => toString value
  | str value => value
  | other _ text => text

end MetadataValue

/-- `raw_metadata`, as its items. -/
abbrev Metadata := List (String × MetadataValue)

/-- `metadata.get(key)` -/
def Metadata.get (metadata : Metadata) (key : String) : MetadataValue :=
  (metadata.lookup key).getD .null

structure SourceSpan where
  direction : String
  offset : Nat
  length : Nat
  frameId : Option String := none
deriving DecidableEq

structure DocumentLine where
  sequence : Nat
  courseCode : Option String := none
  itemCode : Option String := none
  description : Option String := none
  quantity : Option Money := none
  unitPrice : Option Money := none
  originalUnitPrice : Option Money := none
  modifiedUnitPrice : Option Money := none
  discount : Option Money := none
  surcharge : Option Money := none
  taxRate : Option Money := none
  lineTotal : Option Money := none
  state : Option String := none
  cancelled : Bool := false
  removed : Bool := false
  rawText : Option String := none
  source : Option SourceSpan := none
deriving DecidableEq

inductive EvidenceLevel where
  | confirmed | inferred | unknown
deriving DecidableEq

structure PaymentRecord where
  method : Option String := none
  amount : Money
  currency : String := "EUR"
  evidence : EvidenceLevel := .unknown
deriving DecidableEq

/-- The fields of a normalized document the analysis reads. -/
structure NormalizedDocument where
  id : UUID
  sourceDeviceId : String
  sourceSessionId : Option String := none
  sourceJobId : String
  type : DocumentType
  externalDocumentCode : Option String := none
  externalDocumentCodeSuffix : Option String := none
  commercialReferenceCode : Option String := none
  orderCode : Option String := none
  tableCode : Option String := none
  operatorCode : Option String := none
  terminalCode : Option String := none
  documentTimestamp : Option Timestamp := none
  capturedAt : Timestamp
  grossTotal : Option Money := none
  netTotal : Option Money := none
  discountTotal : Option Money := none
  sourcePayloadSha256 : String := ""
  complete : Bool := true
  lines : List DocumentLine := []
  payments : List PaymentRecord := []
  rawMetadata : Metadata := []
deriving DecidableEq

namespace NormalizedDocument

/-- `_document_time`: the printed time, or the capture time. -/
def documentTime (document : NormalizedDocument) : Timestamp :=
  document.documentTimestamp.getD document.capturedAt

/-- `_total`: gross, or net. -/
def total (document : NormalizedDocument) : Option Money :=
  document.grossTotal.or document.netTotal

/-- `bool(raw_metadata.get("economic_close")) or settlement_kind == "ROOM_CHARGE"` -/
def economicClose (document : NormalizedDocument) : Bool :=
  (document.rawMetadata.get "economic_close").truthy ||
    document.rawMetadata.get "settlement_kind" == .str "ROOM_CHARGE"

/-- `(_document_time(item), str(item.id))`, the order both engines sort by. -/
def Precedes (a b : NormalizedDocument) : Prop :=
  a.documentTime.micros < b.documentTime.micros ∨
    (a.documentTime.micros = b.documentTime.micros ∧ a.id ≤ b.id)

instance : DecidableRel Precedes := fun _ _ => inferInstanceAs (Decidable (_ ∨ (_ ∧ _)))

instance : Std.Total Precedes where
  total a b := by unfold Precedes; grind

instance : IsTrans NormalizedDocument Precedes where
  trans a b c := by unfold Precedes; grind

theorem Precedes.id_eq {a b : NormalizedDocument} (h : Precedes a b) (k : Precedes b a) :
    a.id = b.id := by
  unfold Precedes at h k
  grind

end NormalizedDocument

end RetailPrintGuard.Common.Domain
