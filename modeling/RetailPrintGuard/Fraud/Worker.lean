import RetailPrintGuard.Fraud.FalsePositives
import RetailPrintGuard.System

/-! # The fraud worker

One run evaluates the active correlations, persists what it finds and closes
the alerts of correlations that were replaced. Its whole effect is one
transaction, whose queries see the rows that were flushed. -/
namespace RetailPrintGuard.Fraud.Worker
open RetailPrintGuard.Common.Python RetailPrintGuard.Common.Domain
open RetailPrintGuard.Common.Formats (Codec)
open RetailPrintGuard.Correlation.Scoring RetailPrintGuard.Correlation.Engine
open RetailPrintGuard.Correlation.CandidateBatch RetailPrintGuard.Correlation.Worker
open RetailPrintGuard.Db.Models RetailPrintGuard.Fraud.Findings RetailPrintGuard.Fraud.Evaluation
open RetailPrintGuard.Fraud.Alerts RetailPrintGuard.Fraud.FalsePositives
open RetailPrintGuard.Library RetailPrintGuard.Library.KeyedLog

/-! ## What a run reads -/

/-- What a run finds when it starts. -/
structure RunInput where
  now : Timestamp
  /-- the clock is read again at every reopening -/
  reopenedAt : UUID → Timestamp
  /-- `_ensure_and_load_rules`: the rules with the rows of their versions -/
  ruleRows : List (RuleDefinition × FraudRuleVersion)
  unique : ((ruleRows.map Prod.fst).map RuleDefinition.code).Nodup
  whitelistEntries : List WhitelistEntry := []
  /-- `_load_order_events` -/
  orderEvents : List UUID → List OrderEvent := fun _ => []
  /-- what `_reclassify_known_false_positives` reads -/
  settings : Settings := {}

def RunInput.engine (input : RunInput) : FraudEngine where
  rules := input.ruleRows.map Prod.fst
  unique := input.unique

/-- `rule_rows.get(code)`: the row of the version -/
def RunInput.ruleVersion (input : RunInput) (code : RuleCode) : Option FraudRuleVersion :=
  (input.ruleRows.find? fun row => row.1.code == code).map Prod.snd

/-- `order_by(created_at.desc(), id.desc())` -/
def CreatedAfter (a b : DocumentCorrelation) : Prop :=
  b.createdAt.micros < a.createdAt.micros ∨
    (a.createdAt.micros = b.createdAt.micros ∧ b.id ≤ a.id)

instance : DecidableRel CreatedAfter := fun _ _ => inferInstanceAs (Decidable (_ ∨ (_ ∧ _)))

/-- The first correlation of each transaction. -/
def firstOfTransactions (correlations : List DocumentCorrelation) : List DocumentCorrelation :=
  correlations.pwFilter fun a b => a.transactionId ≠ b.transactionId

/-- `_current_correlations` -/
def currentCorrelations (db : Database) (limit : Option Nat) : List DocumentCorrelation :=
  let rows := (db.correlations.rows.filter fun correlation =>
    correlation.algorithmVersion == algorithmVersion && correlation.active).insertionSort CreatedAfter
  (firstOfTransactions ((limit.elim rows rows.take).reverse)).reverse

/-- One day in microseconds. -/
def day : Int := 86400000000

/-- The documents of the device with the same code within a day. -/
def sameCode (document other : Document) : Bool :=
  other.deviceId == document.deviceId &&
    other.projection.externalDocumentCode == document.projection.externalDocumentCode &&
    decide (document.capturedAt.micros - day ≤ other.capturedAt.micros) &&
    decide (other.capturedAt.micros ≤ document.capturedAt.micros + day)

/-- `comparison_ids` -/
def comparisonIds (db : Database) (memberIds : List UUID) : List UUID :=
  memberIds ++ ((db.documents.rows.filter fun document =>
    memberIds.contains document.id &&
      document.projection.externalDocumentCode.any (· ≠ "")).flatMap fun document =>
    (db.documents.rows.filter (sameCode document)).map Document.id)

/-- `comparison_loaded` -/
def comparisonLoaded (db : Database) (limit : Option Nat) : List LoadedDocument :=
  loadLatestDocuments db
    (comparisonIds db ((currentCorrelations db limit).flatMap DocumentCorrelation.memberIds))

/-- A live alert of another rule than the operator pattern. -/
def anomalous (store : AlertStore) (transactionId : UUID) : Bool :=
  store.alerts.rows.any fun alert => alert.transactionId == transactionId &&
    alert.status.operational && alert.isCanonical && alert.ruleCode != .unusualOperatorPattern

/-- `_operator_statistics`, for one operator -/
def operatorStatistics (store : AlertStore) (correlations : List DocumentCorrelation)
    (loaded : List LoadedDocument) (operatorCode : String) : OperatorPatternStats :=
  let documentsOf (correlation : DocumentCorrelation) : List LoadedDocument :=
    loaded.filter fun item => correlation.memberIds.contains item.value.id &&
      item.value.operatorCode == some operatorCode
  let transactions := ((correlations.filter fun correlation =>
    !(documentsOf correlation).isEmpty).map DocumentCorrelation.transactionId).dedup
  { operatorCode
    transactionCount := transactions.length
    anomalousTransactionCount := (transactions.filter (anomalous store)).length
    voidOrCancellationCount := (correlations.map fun correlation =>
      ((documentsOf correlation).filter fun item =>
        item.value.type == .cancellation || item.value.type == .refund).length).sum }

/-- The device, kind and day a document is compared by. -/
def comparisonKey (document : NormalizedDocument) : String × DocumentType × Int :=
  (document.sourceDeviceId, document.type, document.documentTime.date)

/-- `set(a) == set(b)` -/
def sameIds (a b : List UUID) : Bool := a.all b.contains && b.all a.contains

section
variable (rt : Runtime) (engine : CorrelationEngine)

/-- The members of a correlation, where all of them load and its fingerprint is
that of their current versions. -/
def currentMembers (correlation : DocumentCorrelation) (loaded : List LoadedDocument) :
    Option (List LoadedDocument) :=
  let members := correlation.memberIds.dedup.filterMap fun id =>
    loaded.find? fun item => item.value.id == id
  if members.length ≠ correlation.memberIds.dedup.length then none
  else if correlationInputFingerprint (members.map (·.value)) members ≠
      correlation.inputFingerprint then none
  else some members

/-- The transaction that the engine derives again from the members. -/
def rederived (correlation : DocumentCorrelation) (members : List LoadedDocument) :
    Option CorrelatedTransaction :=
  (correlate rt engine (members.map (·.value))).find? fun transaction =>
    transaction.transactionId == correlation.transactionId &&
      sameIds transaction.ids correlation.memberIds

def contextOf (store : AlertStore) (input : RunInput) (correlations : List DocumentCorrelation)
    (loaded : List LoadedDocument) (correlation : DocumentCorrelation) (transaction : CorrelatedTransaction) : FraudContext where
  transaction
  orderEvents := input.orderEvents correlation.memberIds
  comparisonDocuments := (loaded.map (·.value)).filter fun document =>
    (transaction.documents.map comparisonKey).contains (comparisonKey document)
  operatorStats :=
    ((transaction.documents.filterMap (·.operatorCode)).find? (· ≠ "")).map
      (operatorStatistics store correlations loaded)
  whitelistEntries := input.whitelistEntries
  evaluatedAt := input.now

/-! ## Persisting a finding -/

def findingKey (correlation : DocumentCorrelation) (finding : FraudFinding) : Digest FindingInput :=
  ⟨{ finding := findingFingerprint finding
     correlationAlgorithm := correlation.algorithmVersion
     correlationInput := correlation.inputFingerprint }⟩

/-- `order_by(is_canonical.desc(), opened_at.desc(), id.desc())` -/
def Preferred (a b : FraudAlert) : Prop :=
  (a.isCanonical = true ∧ b.isCanonical = false) ∨
    (a.isCanonical = b.isCanonical ∧
      (b.openedAt.micros < a.openedAt.micros ∨
        (a.openedAt.micros = b.openedAt.micros ∧ b.id ≤ a.id)))

instance : DecidableRel Preferred := fun _ _ => inferInstanceAs (Decidable (_ ∨ (_ ∧ (_ ∨ _))))

def preferred (store : AlertStore) (query : FraudAlert → Bool) : Option FraudAlert :=
  ((store.alerts.rows.filter query).insertionSort Preferred).head?

/-- An alert of the same finding on the same input. -/
def sameFinding (correlation : DocumentCorrelation) (finding : FraudFinding) (alert : FraudAlert) :
    Bool :=
  alert.ruleCode == finding.ruleCode && alert.transactionId == finding.transactionId &&
    alert.findingKey == findingKey correlation finding

/-- The canonical alert of the primary rule on the same correlation. -/
def sameIncident (correlation : DocumentCorrelation) (finding : FraudFinding) (alert : FraudAlert) :
    Bool :=
  finding.ruleCode == .modificaPostPreconto && alert.ruleCode == finding.ruleCode &&
    alert.transactionId == finding.transactionId && alert.correlationId == correlation.id &&
    alert.isCanonical

/-- `existing` -/
def existingAlert (store : AlertStore) (correlation : DocumentCorrelation)
    (finding : FraudFinding) : Option FraudAlert :=
  (preferred store (sameFinding correlation finding)).or
    (preferred store (sameIncident correlation finding))

/-- The document an evidence record names. -/
def namedDocument : Evidence → Option UUID
  | .orphanFiscalDocument documentId .. | .copyOrReprint documentId .. | .nonPositiveItem documentId ..
  | .totalLineMismatch documentId .. => some documentId
  | _ => none

def loadedById (members : List LoadedDocument) (id : UUID) : Option LoadedDocument :=
  members.find? fun item => item.value.id == id

/-- The document of an evidence row: the one it names, or the one in its place. -/
def evidenceDocument (members : List LoadedDocument) (finding : FraudFinding) (evidence : Evidence)
    (position : Nat) : Option LoadedDocument :=
  ((namedDocument evidence).bind (loadedById members)).or
    (finding.documentIds[position]?.bind (loadedById members))

def ruleEvidence (members : List LoadedDocument) (finding : FraudFinding) (alertId : UUID) :
    List EvidenceEntry :=
  finding.evidence.mapIdx fun position evidence =>
    let item := evidenceDocument members finding evidence position
    { alertId
      documentId := item.map (·.value.id)
      printJobId := item.map (·.databaseJobId)
      evidence := .rule evidence }

/-- `role` -/
def referenceRole (document : NormalizedDocument) : String :=
  match document.type with
  | .preBill => "PRE_BILL"
  | .commercialDocument => "COMMERCIAL_CLOSE"
  | .managementDocument =>
    if document.economicClose then "NON_FISCAL_CLOSE"
    else if document.commercialReferenceCode.isSome then "MANAGEMENT_COPY"
    else "MANAGEMENT_PREBILL"
  | _ => "SUPPORTING_DOCUMENT"

/-- The documents that the alert has a reference row of. -/
def referenced (store : AlertStore) (alertId : UUID) : List UUID :=
  (store.evidenceOf alertId).filterMap fun row =>
    match row.evidence with
    | .correlatedDocumentReference .. => row.documentId
    | _ => none

/-- `_append_primary_document_reference_evidence` -/
def referenceEvidence (store : AlertStore) (members : List LoadedDocument) (finding : FraudFinding)
    (alertId : UUID) : List EvidenceEntry :=
  if finding.ruleCode ≠ .modificaPostPreconto then []
  else
    (finding.documentIds.filter fun id => !(referenced store alertId).contains id).filterMap fun id =>
      (loadedById members id).map fun item =>
        { alertId
          documentId := some item.value.id
          printJobId := some item.databaseJobId
          evidence := .correlatedDocumentReference (referenceRole item.value) item.value }

structure Amounts where
  original : Option Money
  final : Option Money
  difference : Option Money
  percent : Option Int

/-- The outcome record of the primary rule. -/
def recordedOutcome (finding : FraudFinding) : Option Amounts :=
  if finding.ruleCode ≠ .modificaPostPreconto then none
  else
    finding.evidence.findSome? fun evidence =>
      match evidence with
      | .postPrebillEconomicOutcome prebillTotal observedFinalTotal _ differenceAmount
          differencePercent .. =>
        some ⟨some prebillTotal, some observedFinalTotal, some differenceAmount,
          some differencePercent⟩
      | _ => none

/-- The amounts of the last prebill and of all closes. -/
def documentAmounts (documents : List NormalizedDocument) : Amounts :=
  let original := ((documents.filter fun document => document.type == .preBill).getLast?).bind
    NormalizedDocument.total
  let fiscals := validFiscalDocuments documents
  let final := if fiscals.isEmpty then none else some (totalOf fiscals)
  let difference := original.bind fun original => final.map fun final => original - final
  { original
    final
    difference
    percent := difference.bind fun difference => original.bind fun original =>
      if original = 0 then none else some (roundHalfEven (difference * 1000000) original) }

def amountsOf (members : List LoadedDocument) (finding : FraudFinding) : Amounts :=
  (recordedOutcome finding).getD
    (documentAmounts (finding.documentIds.filterMap fun id => (loadedById members id).map (·.value)))

/-- `"Whitelist <id>: <reason>"` -/
def whitelistReason (uuidText : UUID → String) (suppression : SuppressedFinding) : String :=
  "Whitelist " ++ uuidText suppression.whitelistId ++ ": " ++ suppression.reason

variable (fmt : Codec) (uuidText : UUID → String) (isoformat : Timestamp → String)

def newAlert (id : UUID) (ruleVersion : FraudRuleVersion) (correlation : DocumentCorrelation) (finding : FraudFinding)
    (members : List LoadedDocument) (suppression : Option SuppressedFinding) : FraudAlert :=
  let amounts := amountsOf members finding
  { id
    ruleCode := finding.ruleCode
    ruleVersion
    correlationId := correlation.id
    transactionId := finding.transactionId
    findingKey := findingKey correlation finding
    severity := finding.severity
    score := finding.score
    status := if suppression.isSome then .justified else .opened
    description := finding.description
    explanation := finding.explanation
    originalAmount := amounts.original
    finalAmount := amounts.final
    differenceAmount := amounts.difference
    differencePercent := amounts.percent
    confidence := finding.confidence
    closedAt := suppression.map fun _ => finding.openedAt
    closureReason := suppression.map (whitelistReason uuidText)
    openedAt := finding.openedAt }

/-- The alert is flushed before its evidence and its history are added. -/
def flushAlert (store : AlertStore) (alert : FraudAlert) : AlertStore :=
  { store with alerts := store.alerts.insert alert }

/-- A new alert with the first row of its history. -/
def insertAlert (store : AlertStore) (alert : FraudAlert) (t : Transition) : AlertStore :=
  { flushAlert store alert with
    history := store.history ++ [t.row fmt uuidText isoformat 1 Common.HashChain.zeroDigest] }

/-- The job named by the last exclusion of the alert. -/
def excludedJob (store : AlertStore) (alertId : UUID) : Option UUID :=
  (latest FraudAlertEvidence.sequence ((store.evidenceOf alertId).filter fun row =>
    match row.evidence with
    | .jobExcluded .. => true
    | _ => false)).bind (·.printJobId)

/-- The alert was closed last by the exclusion of a job. -/
def closedByExclusion (store : AlertStore) (alert : FraudAlert) : Bool :=
  alert.status == .justified &&
    (store.latestHistory alert.id).any fun row => row.event == .jobExcluded

def reopenAlert (store flushed : AlertStore) (alert : FraudAlert)
    (correlation : DocumentCorrelation) (finding : FraudFinding) (now : Timestamp) : AlertStore :=
  ((store.setAlert
      { alert with status := .opened, closedAt := none, closureReason := none }).addEvidence
      (numberFrom (flushed.nextEvidence alert.id)
        [{ alertId := alert.id
           printJobId := excludedJob store alert.id
           evidence := .jobReincluded (findingKey correlation finding) correlation.id }])).addHistory
    fmt uuidText isoformat
    { alertId := alert.id
      event := .autoReopened
      previousStatus := some alert.status
      newStatus := .opened
      reason := some "Finding confermato dal ricalcolo corrente"
      occurredAt := now }

/-- The database the identifiers are drawn from, and the alerts. -/
structure State where
  db : Database := {}
  store : AlertStore := {}

/-- The transaction of a run. A new alert is flushed with all that was written
before it; the rest waits for the next one or for the end. History rows that
wait are of alerts opened or reopened in this run, which no later statement of
it takes for closed by an exclusion. -/
structure Session extends State where
  flushed : AlertStore

/-- `_persist_finding` -/
def persistFinding (s : Session) (input : RunInput) (correlation : DocumentCorrelation)
    (members : List LoadedDocument) (finding : FraudFinding)
    (suppression : Option SuppressedFinding) : Session :=
  match input.ruleVersion finding.ruleCode with
  | none => s
  | some ruleVersion =>
    match existingAlert s.store correlation finding with
    | some existing =>
      let store := s.store.addEvidence (numberFrom (s.flushed.nextEvidence existing.id)
        (referenceEvidence s.flushed members finding existing.id))
      if suppression.isNone && closedByExclusion store existing then
        { s with
          store := reopenAlert fmt uuidText isoformat store s.flushed existing correlation finding
            (input.reopenedAt existing.id) }
      else { s with store }
    | none =>
      let id := rt.uuid4 s.db.drawn
      let alert := newAlert uuidText id ruleVersion correlation finding members suppression
      let flushed := flushAlert s.store alert
      { db := { s.db with drawn := s.db.drawn + 1 }
        flushed
        store := (insertAlert fmt uuidText isoformat s.store alert
          { alertId := id
            event := if suppression.isSome then .suppressed else .opened
            previousStatus := none
            newStatus := alert.status
            reason := suppression.map SuppressedFinding.reason
            occurredAt := finding.openedAt }).addEvidence
          (numberFrom 1 (ruleEvidence members finding id) ++
            numberFrom (flushed.nextEvidence id) (referenceEvidence flushed members finding id)) }

/-! ## Superseded alerts -/

/-- The active correlations that share a document with a replaced one. -/
def replacements (db : Database) (old : DocumentCorrelation) : List DocumentCorrelation :=
  db.correlations.rows.filter fun correlation => correlation.id != old.id &&
    correlation.algorithmVersion == algorithmVersion && correlation.active &&
    correlation.overlaps old.memberIds

/-- Every member loads, and none is a document of a sale. -/
def retiredAsNonSale (db : Database) (old : DocumentCorrelation) : Bool :=
  let latestMembers := loadLatestDocuments db old.memberIds
  latestMembers.length == old.memberIds.dedup.length &&
    latestMembers.all fun item => item.value.type.nonSale

def supersededReason (replaced : Bool) : String :=
  if replaced then
    "Correlazione sostituita da una valutazione corrente di algoritmo, parser o insieme " ++
      "documentale; l'alert originario non rappresenta più lo stato corrente."
  else
    "Il parser corrente ha riclassificato tutte le evidenze della correlazione come documenti " ++
      "non di vendita; l'alert originario non rappresenta più lo stato corrente."

/-- A live alert of a superseded correlation. -/
def staleAlert (db : Database) (alert : FraudAlert) : Bool :=
  alert.status.operational &&
    (db.correlations.find alert.correlationId).any fun old => !old.active

/-- The alert was flushed as a live one of a superseded correlation. -/
def staleRow (db : Database) (flushed : AlertStore) (alert : FraudAlert) : Bool :=
  (flushed.alerts.find alert.id).any (staleAlert db)

/-- One alert of `_resolve_superseded_alerts` -/
def resolveAlert (db : Database) (flushed : AlertStore) (now : Timestamp) (store : AlertStore)
    (alert : FraudAlert) : AlertStore :=
  match db.correlations.find alert.correlationId with
  | none => store
  | some old =>
    if (replacements db old).isEmpty && !retiredAsNonSale db old then store
    else
      store.closeAlert fmt uuidText isoformat flushed alert .justified .autoSuperseded none
        (supersededReason (!(replacements db old).isEmpty)) now none
        (.correlationSuperseded old.id
          (((replacements db old).map DocumentCorrelation.id).insertionSort (· ≤ ·))
          (old.memberIds.dedup.insertionSort (· ≤ ·)) (retiredAsNonSale db old)
          ((loadLatestDocuments db old.memberIds).map (·.value.type)))

/-- `_resolve_superseded_alerts` -/
def resolveSupersededAlerts (s : Session) (now : Timestamp) : AlertStore :=
  (s.store.selected (staleRow s.db s.flushed)).foldl
    (resolveAlert fmt uuidText isoformat s.db s.flushed now) s.store

/-! ## One run -/

/-- One correlation of a run: nothing where a rule raises. -/
def evaluateCorrelation (input : RunInput) (start : AlertStore)
    (correlations : List DocumentCorrelation) (loaded : List LoadedDocument) (s : Session)
    (correlation : DocumentCorrelation) : Option Session :=
  match currentMembers correlation loaded with
  | none => some s
  | some members =>
    match rederived rt engine correlation members with
    | none => some s
    | some transaction =>
      (evaluateWithSuppressions rt uuidText input.engine
        (contextOf start input correlations loaded correlation transaction)).map
        fun evaluation =>
          let found := evaluation.findings.foldl (fun s finding =>
            persistFinding rt fmt uuidText isoformat s input correlation members finding none) s
          evaluation.suppressed.foldl (fun s suppressed =>
            persistFinding rt fmt uuidText isoformat s input correlation members
              suppressed.finding (some suppressed)) found

/-- The alerts a run evaluates on: those of earlier engines are looked at first. -/
def startOf (s : State) (input : RunInput) : AlertStore :=
  reclassifyKnownFalsePositives rt fmt uuidText isoformat s.db input.settings s.store input.now

/-- The session a run starts its evaluation in: reclassified alerts are flushed. -/
def begin (s : State) (input : RunInput) : Session where
  db := s.db
  store := startOf rt fmt uuidText isoformat s input
  flushed := startOf rt fmt uuidText isoformat s input

/-- `run_once`, after its transaction has loaded the rules -/
def runOnce (s : State) (input : RunInput) (maxTransactions : Option Nat) : Option State := do
  let correlations := currentCorrelations s.db maxTransactions
  let evaluated ← correlations.foldlM (evaluateCorrelation rt engine fmt uuidText isoformat input
    (startOf rt fmt uuidText isoformat s input) correlations (comparisonLoaded s.db maxTransactions))
    (begin rt fmt uuidText isoformat s input)
  return {
    db := evaluated.db
    store := resolveSupersededAlerts fmt uuidText isoformat evaluated input.now }

end

end RetailPrintGuard.Fraud.Worker
