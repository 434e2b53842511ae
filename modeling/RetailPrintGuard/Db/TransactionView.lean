import RetailPrintGuard.Correlation.Loading
import RetailPrintGuard.Db.LineDiff

/-! # The totals of the transaction view

The read model selects a baseline and the closures of a correlation from its
stored rows, by rules of its own next to those of the correlation engine. -/
namespace RetailPrintGuard.Db.TransactionView
open RetailPrintGuard.Common.Python RetailPrintGuard.Common.Domain
open RetailPrintGuard.Library RetailPrintGuard.Library.ListOrder
open RetailPrintGuard.Correlation.Lines RetailPrintGuard.Correlation.Scoring
open RetailPrintGuard.Correlation.Engine RetailPrintGuard.Correlation.CandidateBatch
open RetailPrintGuard.Correlation.Loading RetailPrintGuard.Db.Models
open RetailPrintGuard.Db.LineDiff

/-- A member document with its latest version, if it has one. -/
structure ViewDocument where
  document : Document
  version : Option DocumentVersion

namespace ViewDocument

/-- `semantics`: a row older than the semantic columns reads the projection. -/
def semantics (item : ViewDocument) : Semantics :=
  match item.version with
  | none => item.document.projection
  | some version => version.semantics.getD item.document.projection

def documentTime (item : ViewDocument) : Timestamp :=
  item.semantics.documentTimestamp.getD item.document.capturedAt

def grossTotal (item : ViewDocument) : Option Money :=
  item.version.bind DocumentVersion.grossTotal

def complete (item : ViewDocument) : Bool := item.version.any DocumentVersion.complete

def lines (item : ViewDocument) : List DocumentLine :=
  (item.version.map fun version => sortedLines version.lines).getD []

/-- `bool(raw_metadata.get("economic_close")) or settlement_kind == "ROOM_CHARGE"` -/
def economicClose (item : ViewDocument) : Bool :=
  item.version.any fun version =>
    (version.rawMetadata.get "economic_close").truthy ||
      version.rawMetadata.get "settlement_kind" == .str "ROOM_CHARGE"

/-- `(document_time(item), item.captured_at, item.id)` -/
def Before (a b : ViewDocument) : Prop :=
  a.documentTime.micros < b.documentTime.micros ∨
    (a.documentTime.micros = b.documentTime.micros ∧
      (a.document.capturedAt.micros < b.document.capturedAt.micros ∨
        (a.document.capturedAt.micros = b.document.capturedAt.micros ∧
          a.document.id ≤ b.document.id)))

instance : DecidableRel Before := fun _ _ => inferInstanceAs (Decidable (_ ∨ _))

instance : Std.Total Before where
  total a b := by unfold Before; grind

instance : IsTrans ViewDocument Before where
  trans a b c := by unfold Before; grind

theorem Before.id_eq {a b : ViewDocument} (h : a.Before b) (k : b.Before a) :
    a.document.id = b.document.id := by
  unfold Before at h k
  grind

end ViewDocument

/-- `(Document.captured_at, Document.id)` -/
def CapturedBefore (a b : Document) : Prop :=
  a.capturedAt.micros < b.capturedAt.micros ∨
    (a.capturedAt.micros = b.capturedAt.micros ∧ a.id ≤ b.id)

instance : DecidableRel CapturedBefore := fun _ _ => inferInstanceAs (Decidable (_ ∨ _))

def viewDocuments (db : Database) (correlation : DocumentCorrelation) : List ViewDocument :=
  ((db.documents.rows.filter fun document =>
    correlation.memberIds.contains document.id).insertionSort CapturedBefore).map
      fun document => ⟨document, latestVersion db document.id⟩

section
variable (rt : Runtime) (matchedCriteria : List String) (documents : List ViewDocument)

/-- `fiscal_documents`: complete commercial documents with a gross total. -/
def fiscalDocuments : List ViewDocument :=
  (documents.filter fun item =>
    item.semantics.documentType == .commercialDocument && item.complete &&
      item.grossTotal.isSome).insertionSort ViewDocument.Before

/-- `economic_closures` -/
def closures : List ViewDocument :=
  documents.filter fun item =>
    item.semantics.documentType == .managementDocument && item.grossTotal.isSome &&
      item.economicClose

def cancellations : List ViewDocument :=
  documents.filter fun item => item.semantics.documentType == .cancellation

def notAfter (item fiscal : ViewDocument) : Bool :=
  item.documentTime.micros ≤ fiscal.documentTime.micros

/-- `prebill_candidates` -/
def prebillCandidates : List ViewDocument :=
  (documents.filter fun item =>
    item.semantics.documentType == .preBill && item.version.isSome &&
      (fiscalDocuments documents).head?.all (notAfter item)).insertionSort ViewDocument.Before

/-- `" ".join(str(table).upper().split())` -/
def upperTable (table : Option String) : Option String := table.map (upperWords rt)

/-- `stored_line_keys` -/
def storedLineKeys (item : ViewDocument) : List String := item.lines.map (storedLineKey rt)

/-- The management documents that stand for a prebill before the fiscal close. -/
def managementCandidates (fiscal : ViewDocument) : List ViewDocument :=
  (documents.filter fun item =>
    item.version.isSome && item.semantics.documentType == .managementDocument && item.complete &&
      item.grossTotal.isSome && item.semantics.commercialReferenceCode.isNone &&
      !item.economicClose && notAfter item fiscal &&
      (upperTable rt fiscal.semantics.tableCode).isSome &&
      upperTable rt item.semantics.tableCode == upperTable rt fiscal.semantics.tableCode &&
      (storedLineKeys rt fiscal).any fun key => (storedLineKeys rt item).contains key
    ).insertionSort ViewDocument.Before

/-- `{"table_sale_sequence", "line_identity_overlap"}.issubset(matched_criteria)` -/
def saleSequenceMatched : Bool :=
  matchedCriteria.contains "table_sale_sequence" && matchedCriteria.contains "line_identity_overlap"

/-- `prebill_document` -/
def baseline : Option ViewDocument :=
  match (prebillCandidates documents).getLast?, (fiscalDocuments documents).head? with
  | some prebill, _ => some prebill
  | none, none => none
  | none, some fiscal =>
    if saleSequenceMatched matchedCriteria then
      (managementCandidates rt documents fiscal).getLast?
    else none

/-- `sum(versions[document.id].gross_total or MONEY_ZERO for document in documents)` -/
def grossSum (items : List ViewDocument) : Money :=
  (items.map fun item => item.grossTotal.getD 0).sum

/-- `observed_final_total` -/
def observedFinalTotal : Option Money :=
  if !(fiscalDocuments documents).isEmpty then some (grossSum (fiscalDocuments documents))
  else if !(closures documents).isEmpty then some (grossSum (closures documents))
  else if !(cancellations documents).isEmpty then some 0
  else none

structure TransactionTotals where
  preBillTotal : Option Money
  fiscalTotal : Option Money
  difference : Option Money
deriving DecidableEq

/-- The totals of `_transaction_view`. -/
def totals : TransactionTotals :=
  let preBillTotal := (baseline rt matchedCriteria documents).bind ViewDocument.grossTotal
  let final := observedFinalTotal documents
  { preBillTotal
    fiscalTotal := final
    difference :=
      match preBillTotal, final with
      | some preBillTotal, some final => some (preBillTotal - final)
      | _, _ => none }

end

def transactionView (rt : Runtime) (db : Database) (correlation : DocumentCorrelation) :
    TransactionTotals :=
  totals rt correlation.matchedCriteria (viewDocuments db correlation)

/-- The documents of the correlation, as the engine loads them. -/
def members (db : Database) (correlation : DocumentCorrelation) : List NormalizedDocument :=
  (loadLatestDocuments db correlation.memberIds).map LoadedDocument.value

/-- Where the view reports a final total, its totals are those of the engine. -/
def TotalsAgree (view : TransactionTotals) (transaction : CorrelatedTransaction) : Prop :=
  ∀ final, view.fiscalTotal = some final →
    view.preBillTotal = transaction.prebillTotal ∧ final = transaction.observedFinalTotal ∧
      view.difference = transaction.differenceAmount

end RetailPrintGuard.Db.TransactionView
