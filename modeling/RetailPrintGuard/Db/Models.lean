import RetailPrintGuard.Correlation.Engine
import RetailPrintGuard.Library.Table

/-! # The tables the analysis reads and writes

Device and session of a job are immutable and joined into the document row;
the members of a correlation are joined into its row. -/
namespace RetailPrintGuard.Db.Models
open RetailPrintGuard.Common.Python RetailPrintGuard.Common.Domain
open RetailPrintGuard.Correlation.Engine RetailPrintGuard.Library

/-! ## Jobs and documents -/

/-- `PrintJob.status`, by the values analysis tells apart. -/
inductive JobStatus where
  | failed | incomplete | malformed
  | other (name : String)
deriving DecidableEq

inductive ImportStatus where
  | pending | imported | parsed | parseEmpty | parseRetry | parseFailed | failed | quarantined
deriving DecidableEq

inductive ReviewState where
  | pending | verifiedUsable | excluded
deriving DecidableEq

structure PrintJob where
  id : UUID
  deviceId : UUID := 0
  deviceExternalId : String := ""
  sourceSessionId : Option String := none
  sourceJobId : String
  status : JobStatus := .other "COMPLETE"
  captureComplete : Bool := true
  timelineComplete : Bool := true
  importStatus : ImportStatus := .imported
  reviewState : ReviewState := .pending
  analysisExcluded : Bool := false
deriving DecidableEq

/-- The semantic columns analysis reads, on a version or on the projection of
its document. -/
structure Semantics where
  documentType : DocumentType
  externalDocumentCode : Option String := none
  externalDocumentCodeSuffix : Option String := none
  commercialReferenceCode : Option String := none
  orderCode : Option String := none
  tableCode : Option String := none
  operatorCode : Option String := none
  terminalCode : Option String := none
  documentTimestamp : Option Timestamp := none
deriving DecidableEq

structure Document where
  id : UUID
  deviceId : UUID
  deviceExternalId : String
  sourceSessionId : Option String := none
  jobId : UUID
  sourceDocumentKey : UUID
  projection : Semantics
  capturedAt : Timestamp
deriving DecidableEq

structure ParserVersion where
  id : UUID
  name : String
  version : String
  buildSha256 : String
deriving DecidableEq

/-- What a version record hashes; its chain of hashes is kept as the list of
the records. -/
structure VersionRecord where
  documentId : UUID
  versionSequence : Nat
  parser : String
  normalized : NormalizedDocument
deriving DecidableEq

abbrev RecordHash := Digest (List VersionRecord)

structure DocumentVersion where
  id : UUID
  documentId : UUID
  parserVersionId : UUID
  versionSequence : Nat
  parsedAt : Timestamp
  /-- `none` for a row older than the semantic columns: all of them are null. -/
  semantics : Option Semantics
  grossTotal : Option Money := none
  netTotal : Option Money := none
  discountTotal : Option Money := none
  sourcePayloadSha256 : String := ""
  complete : Bool := true
  lines : List DocumentLine := []
  payments : List PaymentRecord := []
  rawMetadata : Metadata := []
  recordHash : RecordHash
deriving DecidableEq

/-! ## Correlations -/

inductive CorrelationStatus where
  | automatic | uncorrelated | superseded
deriving DecidableEq

/-- `status in ("AUTOMATIC", "UNCORRELATED")` -/
def CorrelationStatus.active : CorrelationStatus → Bool
  | automatic | uncorrelated => true
  | superseded => false

inductive MemberRole where
  | source | fiscal | payment | response | auxiliary
deriving DecidableEq

structure DocumentCorrelationMember where
  documentId : UUID
  role : MemberRole
  contributionScore : Nat
  criteria : List String
deriving DecidableEq

/-- One entry of the evidence a correlation was computed from. -/
structure InputEvidence where
  documentId : UUID
  versionId : UUID
  recordHash : RecordHash
deriving DecidableEq

abbrev Fingerprint := Digest (List InputEvidence)

structure DocumentCorrelation where
  id : UUID
  transactionId : UUID
  algorithmVersion : String
  inputFingerprint : Fingerprint
  score : Nat
  status : CorrelationStatus
  matchedCriteria : List String
  unmatchedCriteria : List String
  explanation : String
  createdAt : Timestamp
  members : List DocumentCorrelationMember
deriving DecidableEq

namespace DocumentCorrelation

def memberIds (correlation : DocumentCorrelation) : List UUID :=
  correlation.members.map (·.documentId)

def active (correlation : DocumentCorrelation) : Bool := correlation.status.active

/-- Some member is one of the documents. -/
def overlaps (correlation : DocumentCorrelation) (documentIds : List UUID) : Bool :=
  correlation.memberIds.any fun id => documentIds.contains id

theorem overlaps_iff {correlation : DocumentCorrelation} {documentIds : List UUID} :
    correlation.overlaps documentIds = true ↔
      ∃ id ∈ correlation.memberIds, id ∈ documentIds := by
  simp [overlaps, List.any_eq_true]

def supersede (correlation : DocumentCorrelation) : DocumentCorrelation :=
  { correlation with status := .superseded }

@[simp] theorem supersede_id (correlation : DocumentCorrelation) :
    correlation.supersede.id = correlation.id := rfl

@[simp] theorem supersede_memberIds (correlation : DocumentCorrelation) :
    correlation.supersede.memberIds = correlation.memberIds := rfl

@[simp] theorem supersede_active (correlation : DocumentCorrelation) :
    correlation.supersede.active = false := rfl

end DocumentCorrelation

/-! ## The watermark -/

/-- `PRICE_ATTRIBUTION_ALGORITHM` -/
def priceAttributionAlgorithm : String := "line-price-attribution/1.0.0"

structure WatermarkMetadata where
  lookbackSeconds : Nat
  parserActivationFingerprint : Digest (List (String × UUID))
  correlationAlgorithmVersion : String
  priceAttributionAlgorithmVersion : String
deriving DecidableEq

structure AnalysisWatermark where
  cursorTimestamp : Timestamp
  cursorId : UUID
  processedCount : Nat
  metadata : WatermarkMetadata
deriving DecidableEq

/-! ## The database -/

structure Database where
  jobs : Table PrintJob PrintJob.id := .empty
  documents : Table Document Document.id := .empty
  versions : Table DocumentVersion DocumentVersion.id := .empty
  parserVersions : Table ParserVersion ParserVersion.id := .empty
  /-- `ActiveParserVersion`: parser name and active build. -/
  activeParsers : Table (String × UUID) Prod.fst := .empty
  /-- `PARSER_FAILED` events: the job and the build hash. -/
  parserFailures : List (UUID × String) := []
  /-- the row of the service `correlation` -/
  watermark : Option AnalysisWatermark := none
  correlations : Table DocumentCorrelation DocumentCorrelation.id := .empty
  /-- identifiers drawn for rows so far -/
  drawn : Nat := 0

end RetailPrintGuard.Db.Models
