import RetailPrintGuard.Correlation.CandidateBatch

/-! # The correlation worker

One run is one database transaction: retire what became non-sale, correlate
the batch, persist every transaction with a seed. -/
namespace RetailPrintGuard.Correlation.Worker
open RetailPrintGuard.Common.Python RetailPrintGuard.Common.Domain
open RetailPrintGuard.Correlation.Scoring RetailPrintGuard.Correlation.Engine
open RetailPrintGuard.Correlation.CandidateBatch
open RetailPrintGuard.Db.Models RetailPrintGuard.Library

/-! ## Superseding -/

/-- Supersede the correlations a query returns. -/
def supersedeWhere (db : Database) (query : DocumentCorrelation → Bool) : Database :=
  { db with
    correlations := db.correlations.update
      (fun correlation => if query correlation then correlation.supersede else correlation)
      (fun correlation => by split <;> rfl) }

/-- The active correlations a non-sale document is a member of. -/
def nonSaleCorrelation (documentIds : List UUID) (correlation : DocumentCorrelation) : Bool :=
  correlation.active && correlation.overlaps documentIds

def supersedeNonSaleCorrelations (db : Database) (documentIds : List UUID) :
    Database × List UUID :=
  let retired := db.correlations.rows.filter (nonSaleCorrelation documentIds)
  (supersedeWhere db (nonSaleCorrelation documentIds),
    (retired.flatMap DocumentCorrelation.memberIds).dedup)

/-! ## Persisting a transaction -/

def memberRole (document : NormalizedDocument) : MemberRole :=
  if sourceTypes document.type then .source
  else if fiscalTypes document.type then .fiscal
  else if document.type = .payment then .payment
  else if document.type = .deviceResponse then .response
  else .auxiliary

def inputEvidence (loaded : List LoadedDocument) (document : NormalizedDocument) :
    Option InputEvidence :=
  (loaded.find? fun item => item.value.id == document.id).map fun item =>
    { documentId := document.id
      versionId := item.versionId
      recordHash := item.versionRecordHash }

def correlationInputFingerprint (documents : List NormalizedDocument)
    (loaded : List LoadedDocument) : Fingerprint :=
  ⟨(documents.insertionSort fun a b => a.id ≤ b.id).filterMap (inputEvidence loaded)⟩

/-- `max(scores, key=lambda item: item.score, default=None)` -/
def bestScore (scores : List PairScore) : Option PairScore :=
  scores.foldl
    (fun best score =>
      match best with
      | none => some score
      | some current => if current.score < score.score then some score else some current)
    none

section
variable (rt : Runtime) (engine : CorrelationEngine)

def correlationMember (transaction : CorrelatedTransaction) (document : NormalizedDocument) :
    DocumentCorrelationMember :=
  let scores := (transaction.documents.filter fun other => other.id != document.id).map
    fun other => engine.scoreCandidatePair rt document other
  let best := bestScore scores
  { documentId := document.id
    role := memberRole document
    contributionScore := (best.map PairScore.score).getD 0
    criteria := ((best.map PairScore.criteria).getD []).filterMap fun item =>
      if item.matched then some item.name else none }

/-- The row of a transaction that was not seen before. -/
def newCorrelation (db : Database) (transaction : CorrelatedTransaction)
    (fingerprint : Fingerprint) : DocumentCorrelation where
  id := rt.uuid4 db.drawn
  transactionId := transaction.transactionId
  algorithmVersion := algorithmVersion
  inputFingerprint := fingerprint
  score := (transaction.correlation.map CorrelationResult.score).getD 0
  status := if transaction.correlation.isNone then .uncorrelated else .automatic
  matchedCriteria := (transaction.correlation.map CorrelationResult.matchedCriteria).getD []
  unmatchedCriteria := (transaction.correlation.map CorrelationResult.unmatchedCriteria).getD []
  explanation := (transaction.correlation.map CorrelationResult.explanation).getD
    "Documento non correlato ad altre evidenze nella finestra configurata."
  createdAt := rt.utcNow db.drawn
  members := transaction.documents.map (correlationMember rt engine transaction)

/-- The unique key of a correlation. -/
def sameInput (transactionId : UUID) (fingerprint : Fingerprint)
    (correlation : DocumentCorrelation) : Bool :=
  correlation.transactionId == transactionId &&
    correlation.algorithmVersion == algorithmVersion &&
    correlation.inputFingerprint == fingerprint

/-- A superseded correlation the engine has reproduced. -/
def reactivate (transaction : CorrelatedTransaction) (existing : DocumentCorrelation) :
    DocumentCorrelation :=
  if existing.status = .superseded then
    { existing with
      status := if transaction.correlation.isNone then .uncorrelated else .automatic }
  else existing

@[simp] theorem reactivate_id (transaction : CorrelatedTransaction)
    (existing : DocumentCorrelation) : (reactivate transaction existing).id = existing.id := by
  unfold reactivate
  split <;> rfl

def persistCorrelation (db : Database) (transaction : CorrelatedTransaction)
    (loaded : List LoadedDocument) : Database :=
  let fingerprint := correlationInputFingerprint transaction.documents loaded
  match db.correlations.rows.find? (sameInput transaction.transactionId fingerprint) with
  | some existing =>
    let superseded := supersedeWhere db fun correlation =>
      correlation.active && correlation.overlaps transaction.ids && correlation.id != existing.id
    { superseded with
      correlations := superseded.correlations.update
        (fun correlation =>
          if correlation.id = existing.id then reactivate transaction correlation else correlation)
        (fun correlation => by split <;> simp) }
  | none =>
    let superseded := supersedeWhere db fun correlation =>
      correlation.active && correlation.overlaps transaction.ids
    { superseded with
      correlations := superseded.correlations.insert
        (newCorrelation rt engine db transaction fingerprint)
      drawn := db.drawn + 1 }

/-- The persisted transactions are those with a seed. -/
def hasSeed (seedIds : List UUID) (transaction : CorrelatedTransaction) : Bool :=
  transaction.ids.any fun id => seedIds.contains id

/-! ## One run -/

/-- The batch of a run with the members of retired correlations. -/
structure Analysis where
  database : Database
  loaded : List LoadedDocument
  seedIds : List UUID

/-- The batch, and what became non-sale retired. -/
def prepare (db : Database) (maxDocuments : Nat) : Analysis :=
  let batch := candidateBatch rt db maxDocuments engine.timeWindowSeconds
  let nonSaleIds := (batch.loaded.filter fun item => item.value.type.nonSale).map (·.value.id)
  let (retiredDb, retiredIds) := supersedeNonSaleCorrelations db nonSaleIds
  let missing := retiredIds.filter fun id => !(batch.loaded.map (·.value.id)).contains id
  { database := { retiredDb with watermark := batch.watermark }
    loaded :=
      if retiredIds.isEmpty then batch.loaded
      else (batch.loaded ++ loadLatestDocuments db missing).insertionSort LoadedBefore
    seedIds := batch.seedIds ++ retiredIds }

/-- `analysis_loaded`: the sale documents. -/
def Analysis.sales (analysis : Analysis) : List LoadedDocument :=
  analysis.loaded.filter fun item => !item.value.type.nonSale

def Analysis.values (analysis : Analysis) : List NormalizedDocument :=
  analysis.sales.map (·.value)

def Analysis.transactions (analysis : Analysis) : List CorrelatedTransaction :=
  correlateCandidates rt engine analysis.values
    (Blocking.candidatePairs rt analysis.values analysis.seedIds engine.timeWindowSeconds)

def Analysis.persisted (analysis : Analysis) : List CorrelatedTransaction :=
  (analysis.transactions rt engine).filter (hasSeed analysis.seedIds)

def runOnce (db : Database) (maxDocuments : Nat) : Database :=
  let analysis := prepare rt engine db maxDocuments
  (analysis.persisted rt engine).foldl
    (fun db transaction => persistCorrelation rt engine db transaction analysis.sales)
    analysis.database

end

/-! ## Parser activation -/

/-- `activate_parser_version`, once its arguments name an installed build: move
the pointer, and rewind the analysis or carry the cursor over. The pointer is not
flushed when the fingerprint of the active builds is taken. -/
def activateParserVersion (db : Database) (parserName : String) (parserVersionId : UUID)
    (rewind : Bool) : Database :=
  let pointed : Database :=
    { db with
      activeParsers :=
        if (db.activeParsers.find parserName).isSome then
          db.activeParsers.update
            (fun row => if row.1 = parserName then (row.1, parserVersionId) else row)
            (fun row => by split <;> rfl)
        else db.activeParsers.insert (parserName, parserVersionId) }
  { pointed with
    watermark :=
      if rewind then none
      else
        db.watermark.map fun watermark =>
          { watermark with
            metadata :=
              { watermark.metadata with
                parserActivationFingerprint := activationFingerprint db
                correlationAlgorithmVersion := algorithmVersion
                priceAttributionAlgorithmVersion := priceAttributionAlgorithm } } }

end RetailPrintGuard.Correlation.Worker
