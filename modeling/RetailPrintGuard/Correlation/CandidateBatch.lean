import RetailPrintGuard.Correlation.Blocking
import RetailPrintGuard.Db.Models

/-! # The documents of a run

`_document_query` returns the current version of every document fit for
analysis, and `_candidate_batch` selects the seeds of a run with an indexed
neighbourhood around them. -/
namespace RetailPrintGuard.Correlation.CandidateBatch
open RetailPrintGuard.Common.Python RetailPrintGuard.Common.Domain
open RetailPrintGuard.Correlation.Scoring RetailPrintGuard.Correlation.Engine
open RetailPrintGuard.Db.Models RetailPrintGuard.Library

/-! ## The document query -/

/-- One row of `_document_query`. -/
structure QueryRow where
  document : Document
  version : DocumentVersion
  job : PrintJob
deriving DecidableEq

def technicallyComplete (job : PrintJob) : Bool :=
  job.captureComplete && job.timelineComplete &&
    (match job.status with
      | .failed | .incomplete | .malformed => false
      | .other _ => true) &&
    match job.importStatus with
    | .failed | .quarantined | .parseRetry | .parseFailed => false
    | _ => true

/-- The job takes part in the analysis. -/
def analysable (job : PrintJob) : Bool :=
  !job.analysisExcluded && (technicallyComplete job || job.reviewState == .verifiedUsable)

/-- `(active == version.parser_version_id).desc()`: no pointer sorts last. -/
def activationRank (db : Database) (version : DocumentVersion) : Nat :=
  match db.parserVersions.find version.parserVersionId with
  | none => 0
  | some parser =>
    match db.activeParsers.find parser.name with
    | none => 0
    | some pointer => if pointer.2 = version.parserVersionId then 2 else 1

/-- The order `_latest_version_id` sorts by. -/
def Newer (db : Database) (a b : DocumentVersion) : Prop :=
  activationRank db b < activationRank db a ∨ (activationRank db a = activationRank db b ∧
    (b.versionSequence < a.versionSequence ∨
      (a.versionSequence = b.versionSequence ∧ b.id ≤ a.id)))

instance (db : Database) : DecidableRel (Newer db) :=
  fun _ _ => inferInstanceAs (Decidable (_ ∨ _))

def latestVersion (db : Database) (documentId : UUID) : Option DocumentVersion :=
  let versions := db.versions.rows.filter fun version => version.documentId == documentId
  (versions.insertionSort (Newer db)).head?

def queryRow (db : Database) (document : Document) : Option QueryRow :=
  match latestVersion db document.id, db.jobs.find document.jobId with
  | some version, some job => if analysable job then some { document, version, job } else none
  | _, _ => none

def documentQuery (db : Database) : List QueryRow := db.documents.rows.filterMap (queryRow db)

/-! ## Loading -/

structure LoadedDocument where
  value : NormalizedDocument
  versionId : UUID
  versionRecordHash : RecordHash
  databaseDeviceId : UUID
  databaseJobId : UUID
deriving DecidableEq

/-- `order_by(DocumentLine.sequence, DocumentLine.id)`: the numbers of a version
are unique. -/
def sortedLines (lines : List DocumentLine) : List DocumentLine :=
  lines.insertionSort fun a b => a.sequence ≤ b.sequence

namespace QueryRow

/-- `_versioned_semantic`: a row older than the semantic columns reads the
projection of its document. -/
def semantics (row : QueryRow) : Semantics := row.version.semantics.getD row.document.projection

def load (row : QueryRow) : LoadedDocument where
  value :=
    { id := row.document.id
      sourceDeviceId := row.document.deviceExternalId
      sourceSessionId := row.document.sourceSessionId
      sourceJobId := row.job.sourceJobId
      type := row.semantics.documentType
      externalDocumentCode := row.semantics.externalDocumentCode
      externalDocumentCodeSuffix := row.semantics.externalDocumentCodeSuffix
      commercialReferenceCode := row.semantics.commercialReferenceCode
      orderCode := row.semantics.orderCode
      tableCode := row.semantics.tableCode
      operatorCode := row.semantics.operatorCode
      terminalCode := row.semantics.terminalCode
      documentTimestamp := row.semantics.documentTimestamp
      capturedAt := row.document.capturedAt
      grossTotal := row.version.grossTotal
      netTotal := row.version.netTotal
      discountTotal := row.version.discountTotal
      sourcePayloadSha256 := row.version.sourcePayloadSha256
      complete := row.version.complete
      lines := sortedLines row.version.lines
      payments := row.version.payments
      rawMetadata := row.version.rawMetadata }
  versionId := row.version.id
  versionRecordHash := row.version.recordHash
  databaseDeviceId := row.document.deviceId
  databaseJobId := row.document.jobId

/-- The document of the row, as the engine sees it. -/
def value (row : QueryRow) : NormalizedDocument := row.load.value

@[simp] theorem load_value (row : QueryRow) : row.load.value = row.value := rfl

@[simp] theorem value_id (row : QueryRow) : row.value.id = row.document.id := rfl

@[simp] theorem value_capturedAt (row : QueryRow) :
    row.value.capturedAt = row.document.capturedAt := rfl

@[simp] theorem value_sourceJobId (row : QueryRow) : row.value.sourceJobId = row.job.sourceJobId :=
  rfl

end QueryRow

/-- `loaded.sort(key=...)` -/
def LoadedBefore (a b : LoadedDocument) : Prop := a.value.Precedes b.value

instance : DecidableRel LoadedBefore := fun _ _ => inferInstanceAs (Decidable (_ ∨ _))

def loadLatestDocuments (db : Database) (documentIds : List UUID) : List LoadedDocument :=
  (((documentQuery db).filter fun row => documentIds.contains row.document.id).map
    QueryRow.load).insertionSort LoadedBefore

/-! ## Seeds -/

/-- The active parser builds, by name. -/
def activationFingerprint (db : Database) : Digest (List (String × UUID)) :=
  ⟨db.activeParsers.rows.insertionSort fun a b => a.1 ≤ b.1⟩

/-- `activation_changed or algorithm_changed or pricing_changed` -/
def stale (db : Database) (watermark : AnalysisWatermark) : Bool :=
  watermark.metadata.parserActivationFingerprint != activationFingerprint db ||
    watermark.metadata.correlationAlgorithmVersion != algorithmVersion ||
    watermark.metadata.priceAttributionAlgorithmVersion != priceAttributionAlgorithm

/-- The document is a member of an active correlation of this algorithm. -/
def correlated (db : Database) (documentId : UUID) : Bool :=
  db.correlations.rows.any fun correlation =>
    correlation.algorithmVersion == algorithmVersion && correlation.active &&
      correlation.memberIds.contains documentId

/-- The version comes after the cursor. -/
def afterCursor (watermark : AnalysisWatermark) (version : DocumentVersion) : Bool :=
  decide (watermark.cursorTimestamp.micros < version.parsedAt.micros) ||
    (version.parsedAt.micros == watermark.cursorTimestamp.micros &&
      decide (watermark.cursorId < version.id))

/-- The `where` clause of the seeds. -/
def seedEligible (db : Database) (lookbackSeconds : Nat) (row : QueryRow) : Bool :=
  match db.watermark with
  | none => true
  | some watermark =>
    stale db watermark ||
      (decide (watermark.cursorTimestamp.micros - seconds lookbackSeconds ≤
          row.version.parsedAt.micros) &&
        (afterCursor watermark row.version || !correlated db row.document.id))

/-- `order_by(parsed_at, DocumentVersion.id)` -/
def ParsedBefore (a b : QueryRow) : Prop :=
  a.version.parsedAt.micros < b.version.parsedAt.micros ∨
    (a.version.parsedAt.micros = b.version.parsedAt.micros ∧ a.version.id ≤ b.version.id)

instance : DecidableRel ParsedBefore := fun _ _ => inferInstanceAs (Decidable (_ ∨ _))

def seedRows (db : Database) (limit lookbackSeconds : Nat) : List QueryRow :=
  (((documentQuery db).filter (seedEligible db lookbackSeconds)).insertionSort ParsedBefore).take
    limit

/-- `seed_ids` -/
def seedIds (db : Database) (limit lookbackSeconds : Nat) : List UUID :=
  (seedRows db limit lookbackSeconds).map fun row => row.document.id

/-! ## The neighbourhood -/

section
variable (rt : Runtime)

/-- `column.in_(codes)`, on a nullable text column. -/
def sqlIn (column : Option String) (codes : List String) : Bool :=
  column.any fun value => codes.any fun code => rt.collation value == rt.collation code

/-- `{value for ... if value}` -/
def codesOf (field : NormalizedDocument → Option String) (seeds : List NormalizedDocument) :
    List String :=
  seeds.filterMap fun seed => (field seed).filter fun value => value != ""

/-- The row matches an indexed key of some seed. -/
def strongBlock (seeds : List NormalizedDocument) (row : QueryRow) : Bool :=
  let externalCodes := codesOf (·.externalDocumentCode) seeds
  let commercialLinkCodes := externalCodes ++ codesOf (·.commercialReferenceCode) seeds
  let commercialReferenceSuffixes := seeds.filterMap fun seed =>
    Blocking.printedCounterSuffix rt seed.commercialReferenceCode
  sqlIn rt row.semantics.orderCode (codesOf (·.orderCode) seeds) ||
    sqlIn rt row.semantics.externalDocumentCode externalCodes ||
    sqlIn rt row.semantics.externalDocumentCode commercialLinkCodes ||
    sqlIn rt row.semantics.commercialReferenceCode commercialLinkCodes ||
    sqlIn rt row.semantics.externalDocumentCodeSuffix commercialReferenceSuffixes ||
    sqlIn rt row.semantics.tableCode (codesOf (·.tableCode) seeds) ||
    sqlIn rt (some row.job.sourceJobId) (codesOf (fun seed => some seed.sourceJobId) seeds)

/-- `captured_at` between `earliest - window` and `latest + window`, over the
times of the seeds. -/
def capturedWithin (seeds : List NormalizedDocument) (lookbackSeconds : Nat)
    (capturedAt : Timestamp) : Bool :=
  let times := seeds.map fun seed => seed.documentTime.micros
  match times.min?, times.max? with
  | some earliest, some latest =>
    decide (earliest - seconds lookbackSeconds ≤ capturedAt.micros) &&
      decide (capturedAt.micros ≤ latest + seconds lookbackSeconds)
  | _, _ => false

/-- The documents of the seed rows. -/
def seedDocuments (db : Database) (limit lookbackSeconds : Nat) : List NormalizedDocument :=
  (loadLatestDocuments db (seedIds db limit lookbackSeconds)).map (·.value)

/-- The `where` clause of the candidates. -/
def candidateRow (db : Database) (limit lookbackSeconds : Nat) (row : QueryRow) : Bool :=
  let seeds := seedDocuments db limit lookbackSeconds
  capturedWithin seeds lookbackSeconds row.document.capturedAt &&
    ((seedIds db limit lookbackSeconds).contains row.document.id || strongBlock rt seeds row)

def candidateIds (db : Database) (limit lookbackSeconds : Nat) : List UUID :=
  ((documentQuery db).filter (candidateRow rt db limit lookbackSeconds)).map fun row =>
    row.document.id

end

/-! ## The batch -/

/-- The cursor on the last seed row, unless it would move back. -/
def advanceWatermark (db : Database) (lookbackSeconds : Nat) (rows : List QueryRow) :
    Option AnalysisWatermark :=
  match rows.getLast? with
  | none => db.watermark
  | some latest =>
    let metadata : WatermarkMetadata :=
      { lookbackSeconds
        parserActivationFingerprint := activationFingerprint db
        correlationAlgorithmVersion := algorithmVersion
        priceAttributionAlgorithmVersion := priceAttributionAlgorithm }
    match db.watermark with
    | none =>
      some
        { cursorTimestamp := latest.version.parsedAt
          cursorId := latest.version.id
          processedCount := rows.length
          metadata }
    | some watermark =>
      if stale db watermark || afterCursor watermark latest.version then
        some
          { cursorTimestamp := latest.version.parsedAt
            cursorId := latest.version.id
            processedCount := watermark.processedCount + rows.length
            metadata }
      else some watermark

structure Batch where
  loaded : List LoadedDocument
  seedIds : List UUID
  watermark : Option AnalysisWatermark

def candidateBatch (rt : Runtime) (db : Database) (limit lookbackSeconds : Nat) : Batch :=
  let rows := seedRows db limit lookbackSeconds
  if rows.isEmpty then { loaded := [], seedIds := [], watermark := db.watermark }
  else
    { loaded := loadLatestDocuments db (candidateIds rt db limit lookbackSeconds)
      seedIds := seedIds db limit lookbackSeconds
      watermark := advanceWatermark db lookbackSeconds rows }

end RetailPrintGuard.Correlation.CandidateBatch
