import RetailPrintGuard.Db.Models

/-! # Storing parser output

One parser transaction stores the documents of a job. A document is found by
its source key, a parse by its parser build and payload; every new parse
appends a version and moves the projection of the document. -/
namespace RetailPrintGuard.Parser.Repository
open RetailPrintGuard.Common.Python RetailPrintGuard.Common.Domain
open RetailPrintGuard.Db.Models RetailPrintGuard.Library

/-- A parsed document with the build of its parser; its id is the source key. -/
structure ParsedDocument where
  value : NormalizedDocument
  parserName : String
  parserVersion : String
  buildSha256 : String

section
variable (rt : Runtime)

/-- The semantic columns of a parsed document. -/
def semanticsOf (parsed : NormalizedDocument) : Semantics where
  documentType := parsed.type
  externalDocumentCode := parsed.externalDocumentCode
  externalDocumentCodeSuffix := parsed.externalDocumentCodeSuffix
  commercialReferenceCode := parsed.commercialReferenceCode
  orderCode := parsed.orderCode
  tableCode := parsed.tableCode
  operatorCode := parsed.operatorCode
  terminalCode := parsed.terminalCode
  documentTimestamp := parsed.documentTimestamp

/-- The document of a source key, inserted when it is new. -/
def upsertDocument (db : Database) (job : PrintJob) (parsed : ParsedDocument) :
    Database × Document :=
  match db.documents.rows.find? fun document =>
      document.jobId == job.id && document.sourceDocumentKey == parsed.value.id with
  | some document => (db, document)
  | none =>
    let document : Document :=
      { id := rt.uuid4 db.drawn
        deviceId := job.deviceId
        deviceExternalId := job.deviceExternalId
        sourceSessionId := job.sourceSessionId
        jobId := job.id
        sourceDocumentKey := parsed.value.id
        projection := semanticsOf parsed.value
        capturedAt := parsed.value.capturedAt }
    ({ db with documents := db.documents.insert document, drawn := db.drawn + 1 }, document)

def upsertParser (db : Database) (parsed : ParsedDocument) : Database × ParserVersion :=
  match db.parserVersions.rows.find? fun parser =>
      parser.name == parsed.parserName && parser.version == parsed.parserVersion &&
        parser.buildSha256 == parsed.buildSha256 with
  | some parser => (db, parser)
  | none =>
    let parser : ParserVersion :=
      { id := rt.uuid4 db.drawn
        name := parsed.parserName
        version := parsed.parserVersion
        buildSha256 := parsed.buildSha256 }
    ({ db with parserVersions := db.parserVersions.insert parser, drawn := db.drawn + 1 }, parser)

/-- `max(version_sequence)` of a document, or zero. -/
def lastSequence (db : Database) (documentId : UUID) : Nat :=
  (((db.versions.rows.filter fun version => version.documentId == documentId).map
    DocumentVersion.versionSequence).max?).getD 0

/-- The records the last version of a document hashes. -/
def lastRecords (db : Database) (documentId : UUID) : List VersionRecord :=
  ((db.versions.rows.find? fun version => version.documentId == documentId &&
    version.versionSequence == lastSequence db documentId).map
      fun version => version.recordHash.preimage).getD []

def appendVersion (db : Database) (document : Document) (parser : ParserVersion)
    (parsed : ParsedDocument) : Database :=
  let versionSequence := lastSequence db document.id + 1
  let version : DocumentVersion :=
    { id := rt.uuid4 db.drawn
      documentId := document.id
      parserVersionId := parser.id
      versionSequence
      parsedAt := rt.utcNow db.drawn
      semantics := some (semanticsOf parsed.value)
      grossTotal := parsed.value.grossTotal
      netTotal := parsed.value.netTotal
      discountTotal := parsed.value.discountTotal
      sourcePayloadSha256 := parsed.value.sourcePayloadSha256
      complete := parsed.value.complete
      lines := parsed.value.lines
      payments := parsed.value.payments
      rawMetadata := parsed.value.rawMetadata
      recordHash :=
        ⟨{ documentId := document.id
           versionSequence
           parser := parsed.parserName ++ ":" ++ parsed.parserVersion
           normalized := parsed.value } :: lastRecords db document.id⟩ }
  { db with
    versions := db.versions.insert version
    documents := db.documents.update
      (fun row =>
        if row.id = document.id then { row with projection := semanticsOf parsed.value } else row)
      (fun row => by split <;> rfl)
    drawn := db.drawn + 1 }

/-- This build has parsed this payload of the document before. -/
def alreadyParsed (db : Database) (document : Document) (parser : ParserVersion)
    (parsed : ParsedDocument) : Bool :=
  db.versions.rows.any fun version =>
    version.documentId == document.id && version.parserVersionId == parser.id &&
      version.sourcePayloadSha256 == parsed.value.sourcePayloadSha256

def storeDocument (job : PrintJob) (db : Database) (parsed : ParsedDocument) : Database :=
  let (withDocument, document) := upsertDocument rt db job parsed
  let (withParser, parser) := upsertParser rt withDocument parsed
  if alreadyParsed withParser document parser parsed then withParser
  else appendVersion rt withParser document parser parsed

/-- The parse is new to its document: its lines are inserted. -/
def appends (job : PrintJob) (db : Database) (parsed : ParsedDocument) : Bool :=
  let (withDocument, document) := upsertDocument rt db job parsed
  let (withParser, parser) := upsertParser rt withDocument parsed
  !alreadyParsed withParser document parser parsed

/-- `UNIQUE(document_version_id, sequence)` of the document lines. -/
def numbered (parsed : ParsedDocument) : Bool :=
  decide (parsed.value.lines.map DocumentLine.sequence).Nodup

/-- No line of the call is refused. -/
def linesAdmitted (job : PrintJob) (db : Database) : List ParsedDocument → Bool
  | [] => true
  | parsed :: rest =>
    (!appends rt job db parsed || numbered parsed) &&
      linesAdmitted job (storeDocument rt job db parsed) rest

/-- The rows of a call that commits. -/
def committed (job : PrintJob) (db : Database) (documents : List ParsedDocument) : Database :=
  let stored := documents.foldl (storeDocument rt job) db
  { stored with
    jobs := stored.jobs.update
      (fun row =>
        if row.id = job.id then
          { row with importStatus := if documents.isEmpty then .parseEmpty else .parsed }
        else row)
      (fun row => by split <;> rfl) }

/-- `store_documents`, or nothing where it raises. -/
def storeTransaction (db : Database) (jobId : UUID) (documents : List ParsedDocument) :
    Option Database :=
  match db.jobs.find jobId with
  | none => none
  | some job => if linesAdmitted rt job db documents then some (committed rt job db documents) else none

/-- The state a call leaves: a call that raises is rolled back whole. -/
def storeDocuments (db : Database) (jobId : UUID) (documents : List ParsedDocument) : Database :=
  (storeTransaction rt db jobId documents).getD db

end

section
variable {rt : Runtime} {db : Database} {jobId : UUID} {documents : List ParsedDocument}

/-- A call leaves the state as it was, or commits the rows of all its documents. -/
theorem storeDocuments_cases {P : Database → Prop} (hrefused : P db)
    (hcommitted : ∀ job, db.jobs.find jobId = some job → P (committed rt job db documents)) :
    P (storeDocuments rt db jobId documents) := by
  unfold storeDocuments storeTransaction
  cases hfind : db.jobs.find jobId with
  | none => exact hrefused
  | some job =>
    dsimp only
    split
    · exact hcommitted job hfind
    · exact hrefused

theorem linesAdmitted_of_numbered {job : PrintJob} (h : ∀ parsed ∈ documents, numbered parsed = true) :
    linesAdmitted rt job db documents = true := by
  induction documents generalizing db with
  | nil => rfl
  | cons parsed rest ih =>
    rw [linesAdmitted, h parsed List.mem_cons_self, Bool.or_true, Bool.true_and]
    exact ih fun other hother => h other (List.mem_cons_of_mem _ hother)

/-- Documents that number their lines apart are stored. -/
theorem storeDocuments_of_numbered {job : PrintJob} (hfind : db.jobs.find jobId = some job)
    (h : ∀ parsed ∈ documents, numbered parsed = true) :
    storeDocuments rt db jobId documents = committed rt job db documents := by
  simp only [storeDocuments, storeTransaction, hfind, linesAdmitted_of_numbered h, if_true,
    Option.getD_some]

end

/-- A parse that raised: the job is retried seven times for each build. -/
def recordFailure (db : Database) (jobId : UUID) (buildHash : String) : Database :=
  match db.jobs.find jobId with
  | none => db
  | some _ =>
    let attempts := (db.parserFailures.filter fun event => event == (jobId, buildHash)).length + 1
    { db with
      jobs := db.jobs.update
        (fun row =>
          if row.id = jobId then
            { row with importStatus := if 8 ≤ attempts then .parseFailed else .parseRetry }
          else row)
        (fun row => by split <;> rfl)
      parserFailures := db.parserFailures ++ [(jobId, buildHash)] }

end RetailPrintGuard.Parser.Repository
