import RetailPrintGuard.Correlation.Engine

/-! # Rules, evidence and findings

What the fraud engine reads and returns. A finding is identified by all its
fields but the time it was opened. -/
namespace RetailPrintGuard.Fraud.Findings
open RetailPrintGuard.Common.Python RetailPrintGuard.Common.Domain
open RetailPrintGuard.Correlation.Lines RetailPrintGuard.Correlation.Engine

/-! ## Rules -/

inductive AlertSeverity where
  | low | medium | high | critical
deriving DecidableEq

inductive RuleCode where
  | modificaPostPreconto | prebillFiscalAmountDrop | itemRemovedAfterPrebill
  | priceReducedAfterPrebill | extremePriceChange | sameReferenceDifferentAmount
  | orderWithoutFiscalClose | fiscalWithoutSourceOrder | excessiveVoidOrCancellation
  | reprintOrCopyAnomaly | documentSequenceGap | duplicateDocument | lateOrderModification
  | negativeOrZeroValueItem | totalLineMismatch | paymentTotalMismatch | unusualOperatorPattern
deriving DecidableEq

/-- A configured number: its value in ten-thousandths and its `str`. -/
structure Parameter where
  value : Int
  text : String
deriving DecidableEq

/-- `int(value)` -/
def Parameter.whole (parameter : Parameter) : Int := parameter.value.tdiv 10000

structure RuleDefinition where
  code : RuleCode
  version : Nat := 1
  enabled : Bool := true
  severity : AlertSeverity
  /-- in ten-thousandths -/
  weight : Int := 10000
  parameters : List (String × Parameter) := []
deriving DecidableEq

/-- `parameters.get(key, default)` -/
def RuleDefinition.parameter (rule : RuleDefinition) (key : String) (default : Parameter) :
    Parameter :=
  (rule.parameters.lookup key).getD default

def defaultRules : List RuleDefinition :=
  [{ code := .modificaPostPreconto
     severity := .high
     parameters := [("minimum_percent", ⟨200000, "20"⟩), ("minimum_amount", ⟨10000, "1.00"⟩)] },
   { code := .prebillFiscalAmountDrop
     severity := .high
     parameters := [("minimum_percent", ⟨200000, "20"⟩), ("minimum_amount", ⟨10000, "1.00"⟩)] },
   { code := .itemRemovedAfterPrebill, severity := .high },
   { code := .priceReducedAfterPrebill, severity := .high },
   { code := .extremePriceChange
     severity := .critical
     parameters := [("minimum_percent", ⟨700000, "70"⟩)] },
   { code := .sameReferenceDifferentAmount
     severity := .high
     parameters := [("minimum_amount", ⟨10000, "1.00"⟩)] },
   { code := .orderWithoutFiscalClose
     severity := .medium
     parameters := [("close_minutes", ⟨1200000, "120"⟩)] },
   { code := .fiscalWithoutSourceOrder, severity := .medium },
   { code := .excessiveVoidOrCancellation
     severity := .high
     parameters := [("minimum_count", ⟨30000, "3"⟩)] },
   { code := .reprintOrCopyAnomaly
     severity := .medium
     parameters := [("maximum_count", ⟨20000, "2"⟩)] },
   { code := .documentSequenceGap, severity := .high },
   { code := .duplicateDocument, severity := .high },
   { code := .lateOrderModification
     severity := .high
     parameters := [("window_minutes", ⟨50000, "5"⟩)] },
   { code := .negativeOrZeroValueItem, severity := .high },
   { code := .totalLineMismatch
     severity := .high
     parameters := [("tolerance", ⟨100, "0.01"⟩)] },
   { code := .paymentTotalMismatch
     severity := .critical
     parameters := [("tolerance", ⟨100, "0.01"⟩)] },
   { code := .unusualOperatorPattern
     severity := .medium
     parameters := [("minimum_transactions", ⟨200000, "20"⟩),
       ("minimum_anomaly_rate", ⟨3000, "0.30"⟩)] }]

/-! ## Order events -/

inductive OrderEventType where
  | orderCreated | itemAdded | itemRemoved | quantityChanged | priceChanged | discountApplied
  | discountRemoved | orderVoided | tableChanged | orderSplit | orderMerged | preBillPrinted
  | fiscalDocumentIssued | paymentRecorded | copyPrinted | orderClosed
deriving DecidableEq

structure OrderEvent where
  id : UUID
  type : OrderEventType
  occurredAt : Timestamp
  sourceDocumentId : Option UUID := none
  details : Metadata := []
deriving DecidableEq

/-! ## Contexts -/

structure OperatorPatternStats where
  operatorCode : String
  transactionCount : Nat
  anomalousTransactionCount : Nat
  voidOrCancellationCount : Nat := 0
deriving DecidableEq

inductive WhitelistScope where
  | global | transaction | device | operator | document | reference
deriving DecidableEq

structure WhitelistEntry where
  id : UUID
  ruleCode : Option RuleCode := none
  scope : WhitelistScope
  scopeValue : String
  reason : String
  validFrom : Timestamp
  validUntil : Option Timestamp := none
deriving DecidableEq

structure FraudContext where
  transaction : CorrelatedTransaction
  orderEvents : List OrderEvent := []
  comparisonDocuments : List NormalizedDocument := []
  operatorStats : Option OperatorPatternStats := none
  whitelistEntries : List WhitelistEntry := []
  evaluatedAt : Timestamp

/-! ## Evidence -/

/-- A numbering series: one device, kind, day and prefix. -/
structure Series where
  sourceDeviceId : String
  documentType : DocumentType
  businessDate : Int
  leading : String
deriving DecidableEq

/-- The evidence records of the rules, by their `kind`. -/
inductive Evidence where
  | postPrebillEconomicOutcome (prebillTotal observedFinalTotal fiscalAggregate differenceAmount
      differencePercent : Int) (fiscalConclusive cancelledOrPartial roomSettlement : Bool)
  | postPrebillLineChange (changeType : LineChangeType) (itemKey : String)
      (description : Option String)
      (quantityBefore quantityAfter unitPriceBefore unitPriceAfter : Option Money)
  | amountComparison (prebillTotal : Option Money) (fiscalAggregate : Money)
      (differenceAmount : Option Money) (differencePercent : Option Int) (splitPayment : Bool)
      (sharedReferences : Option (List (String × List UUID)))
  | lineRemoved (itemKey : String) (description : Option String)
      (quantityBefore totalBefore : Option Money) (source : Option SourceSpan)
  | priceReduction (itemKey : String) (description : Option String)
      (before after difference : Money) (beforeSource afterSource : Option SourceSpan)
  | extremePriceReduction (itemKey : String) (description : Option String) (before after : Money)
      (reductionPercent : Int)
  | missingFiscalClose (lastSourceAt : Timestamp) (thresholdMinutes : Int)
  | orphanFiscalDocument (documentId : UUID) (externalCode : Option String) (total : Option Money)
  | voidFrequency (count : Nat) (threshold : Int) (eventIds cancellationDocumentIds : List UUID)
  | copyOrReprint (documentId : UUID) (type : DocumentType) (capturedAt : Timestamp)
  | sequenceGap (series : Series) (before after missingCount : Nat)
  | duplicateDocument (documentIds : List UUID) (sourceJobIds : List String)
      (externalCode : Option String) (payloadSha256 : String)
  | lateOrderEvent (eventId : UUID) (eventType : OrderEventType) (occurredAt fiscalAt : Timestamp)
      (details : Metadata)
  | nonPositiveItem (documentId : UUID) (lineSequence : Nat) (description : Option String)
      (unitPrice lineTotal : Option Money)
  | totalLineMismatch (documentId : UUID) (declaredTotal lineSum : Money)
      (discountTotal : Option Money) (reconstructibleTotals : List Money) (difference : Money)
  | paymentTotalMismatch (fiscalTotal paymentTotal difference : Money)
      (observedPaymentRecords : Nat)
  /-- the rate is the quotient of the two counts -/
  | operatorPattern (operatorCode : String)
      (transactionCount anomalousTransactionCount voidOrCancellationCount : Nat)
deriving DecidableEq

/-! ## Findings -/

structure FindingData where
  description : String
  explanation : String
  evidence : List Evidence
  score : Int
  confidence : Nat
  documentIds : List UUID := []
deriving DecidableEq

/-- A finding without the time it was opened. -/
structure FindingIdentity where
  ruleCode : RuleCode
  ruleVersion : Nat
  severity : AlertSeverity
  score : Int
  transactionId : UUID
  documentIds : List UUID
  description : String
  explanation : String
  evidence : List Evidence
  confidence : Nat
deriving DecidableEq

structure FraudFinding extends FindingIdentity where
  openedAt : Timestamp
deriving DecidableEq

/-- `finding_fingerprint` -/
def findingFingerprint (finding : FraudFinding) : Digest FindingIdentity :=
  ⟨finding.toFindingIdentity⟩

end RetailPrintGuard.Fraud.Findings
