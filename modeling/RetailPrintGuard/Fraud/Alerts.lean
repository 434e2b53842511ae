import RetailPrintGuard.Common.HashChain
import RetailPrintGuard.Correlation.Worker
import RetailPrintGuard.Fraud.Evaluation
import RetailPrintGuard.Library.KeyedLog

/-! # Alerts, their evidence and their history

An alert is a row that changes; its evidence and its history are logs that are
appended to. The rule of an alert and its version are joined into its row. -/
namespace RetailPrintGuard.Fraud.Alerts
open RetailPrintGuard.Common.Python RetailPrintGuard.Common.Domain
open RetailPrintGuard.Common.Formats (Codec)
open RetailPrintGuard.Common.HashChain (zeroDigest chainedDigest chainedHash)
open RetailPrintGuard.Correlation.Engine RetailPrintGuard.Correlation.CandidateBatch
open RetailPrintGuard.Db.Models RetailPrintGuard.Fraud.Findings RetailPrintGuard.Fraud.Evaluation
open RetailPrintGuard.Library RetailPrintGuard.Library.HashChain RetailPrintGuard.Library.KeyedLog

/-! ## Rows -/

inductive AlertStatus where
  | opened | underReview | confirmed | falsePositive | justified | closed
deriving DecidableEq

def AlertStatus.value : AlertStatus → String
  | opened => "OPEN"
  | underReview => "UNDER_REVIEW"
  | confirmed => "CONFIRMED"
  | falsePositive => "FALSE_POSITIVE"
  | justified => "JUSTIFIED"
  | closed => "CLOSED"

/-- `OPERATIONAL_ALERT_STATES` -/
def AlertStatus.operational : AlertStatus → Bool
  | opened | underReview | confirmed => true
  | falsePositive | justified | closed => false

inductive HistoryEvent where
  | opened | suppressed | updated | autoFalsePositive | autoSuperseded | jobExcluded | autoReopened
deriving DecidableEq

def HistoryEvent.value : HistoryEvent → String
  | opened => "ALERT_OPENED"
  | suppressed => "ALERT_SUPPRESSED"
  | updated => "ALERT_UPDATED"
  | autoFalsePositive => "ALERT_AUTO_FALSE_POSITIVE"
  | autoSuperseded => "ALERT_AUTO_SUPERSEDED"
  | jobExcluded => "ALERT_JOB_EXCLUDED"
  | autoReopened => "ALERT_AUTO_REOPENED_AFTER_JOB_REVIEW"

/-- What the key of a finding is the digest of. -/
structure FindingInput where
  finding : Digest FindingIdentity
  correlationAlgorithm : String
  correlationInput : Fingerprint
deriving DecidableEq

/-- A row of `fraud_rule_versions`: the engine that wrote it. -/
structure FraudRuleVersion where
  id : UUID
  implementationVersion : String
deriving DecidableEq

structure FraudAlert where
  id : UUID
  ruleCode : RuleCode
  ruleVersion : FraudRuleVersion
  correlationId : UUID
  transactionId : UUID
  findingKey : Digest FindingInput
  severity : AlertSeverity
  score : Int
  status : AlertStatus
  isCanonical : Bool := true
  description : String
  explanation : String
  originalAmount : Option Money
  finalAmount : Option Money
  differenceAmount : Option Money
  /-- in ten-thousandths -/
  differencePercent : Option Int
  confidence : Nat
  assignedToUserId : Option UUID := none
  takenAt : Option Timestamp := none
  closedAt : Option Timestamp
  closureReason : Option String
  openedAt : Timestamp
deriving DecidableEq

/-- The `defect` of an earlier engine that an alert is due to. -/
inductive Defect where
  | operatorRateSelfAmplification
  | auxiliaryPostPrebillAlertNoise
  | printedOutputTreatedAsLateAction (sourceDocumentTypes : List DocumentType)
  | zeroValueTechnicalLineNoise
  | outputArtifactDuplicateNoise (sourceDocumentTypes : List DocumentType)
  | globalFindingOutsideTransaction (correlationMemberCount findingDocumentCount : Nat)
deriving DecidableEq

/-- The `evidence` column, by its `kind`. -/
inductive AlertEvidence where
  | rule (evidence : Evidence)
  | correlatedDocumentReference (role : String) (document : NormalizedDocument)
  | jobExcluded (jobId : UUID) (reason : String)
  | jobReincluded (findingKey : Digest FindingInput) (correlationId : UUID)
  | correlationSuperseded (previousCorrelationId : UUID)
      (replacementCorrelationIds previousDocumentIds : List UUID) (retiredAsNonSale : Bool)
      (currentDocumentTypes : List DocumentType)
  | engineFalsePositive (ruleCode : RuleCode) (previousImplementationVersion : String)
      (defect : Defect)

/-- An evidence row without its number. -/
structure EvidenceEntry where
  alertId : UUID
  documentId : Option UUID := none
  printJobId : Option UUID := none
  evidence : AlertEvidence

structure FraudAlertEvidence extends EvidenceEntry where
  sequence : Nat

/-- What a writer says in the history of an alert. -/
structure Transition where
  alertId : UUID
  actorUserId : Option UUID := none
  event : HistoryEvent
  previousStatus : Option AlertStatus
  newStatus : AlertStatus
  note : Option String := none
  reason : Option String := none
  occurredAt : Timestamp

abbrev HistoryHash := Common.HashChain.Digest

structure FraudAlertHistory extends Transition where
  sequence : Nat
  previousRecordHash : HistoryHash
  recordHash : HistoryHash

def links : Links FraudAlertHistory HistoryHash where
  sequence := FraudAlertHistory.sequence
  previous := FraudAlertHistory.previousRecordHash
  hash := FraudAlertHistory.recordHash

/-- Evidence rows numbered from the given number on. -/
def numberFrom (first : Nat) (entries : List EvidenceEntry) : List FraudAlertEvidence :=
  entries.mapIdx fun position entry => { entry with sequence := first + position }

/-- The tables of the alerts. -/
structure AlertStore where
  alerts : Table FraudAlert FraudAlert.id := .empty
  evidence : List FraudAlertEvidence := []
  history : List FraudAlertHistory := []

namespace AlertStore

def historyOf (store : AlertStore) (alertId : UUID) : List FraudAlertHistory :=
  logOf (fun row => row.alertId) store.history alertId

def evidenceOf (store : AlertStore) (alertId : UUID) : List FraudAlertEvidence :=
  logOf (fun row => row.alertId) store.evidence alertId

/-- `order_by(FraudAlertHistory.sequence.desc()).limit(1)` -/
def latestHistory (store : AlertStore) (alertId : UUID) : Option FraudAlertHistory :=
  latest FraudAlertHistory.sequence (store.historyOf alertId)

/-! ## Writing -/

/-- The row with the id of the alert becomes the alert. -/
def setAlert (store : AlertStore) (alert : FraudAlert) : AlertStore :=
  { store with
    alerts := store.alerts.update (fun row => if row.id = alert.id then alert else row)
      (fun row => by split <;> simp [*]) }

/-- `(select(func.max(FraudAlertEvidence.sequence)) or 0) + 1` -/
def nextEvidence (store : AlertStore) (alertId : UUID) : Nat :=
  lastNumber FraudAlertEvidence.sequence (store.evidenceOf alertId) + 1

def addEvidence (store : AlertStore) (rows : List FraudAlertEvidence) : AlertStore :=
  { store with evidence := store.evidence ++ rows }

end AlertStore

def optionalText (text : Option String) : Json := (text.map Json.str).getD .null

section
variable (fmt : Codec) (uuidText : UUID → String) (isoformat : Timestamp → String)

/-- The `payload` that every writer hashes. -/
def Transition.payload (t : Transition) (sequence : Nat) (previous : HistoryHash) : Json := .obj [
  ("alert_id", .str (uuidText t.alertId)),
  ("sequence", .num sequence),
  ("actor_user_id", optionalText (t.actorUserId.map uuidText)),
  ("event_type", .str t.event.value),
  ("previous_status", optionalText (t.previousStatus.map AlertStatus.value)),
  ("new_status", .str t.newStatus.value),
  ("note", optionalText t.note),
  ("reason", optionalText t.reason),
  ("occurred_at", .str (isoformat t.occurredAt)),
  ("previous_hash", .str previous.text)]

def Transition.row (t : Transition) (sequence : Nat) (previous : HistoryHash) :
    FraudAlertHistory where
  toTransition := t
  sequence
  previousRecordHash := previous
  recordHash := chainedDigest fmt (t.payload uuidText isoformat sequence previous) previous

namespace AlertStore

/-- A history row after the latest one, or the first. -/
def addHistory (store : AlertStore) (t : Transition) : AlertStore :=
  let latest := store.latestHistory t.alertId
  let sequence := ((latest.map FraudAlertHistory.sequence).getD 0) + 1
  let previous := (latest.map FraudAlertHistory.recordHash).getD zeroDigest
  { store with history := store.history ++ [t.row fmt uuidText isoformat sequence previous] }

/-! ## The writers -/

/-- `a or b` -/
def orText (a b : Option String) : Option String := if a.any (· ≠ "") then a else b

structure AlertUpdate where
  status : Option AlertStatus := none
  assignedToMe : Bool := false
  note : Option String := none
  resolutionReason : Option String := none

def AlertUpdate.edit (update : AlertUpdate) (actorId : UUID) (now : Timestamp) (alert : FraudAlert) :
    FraudAlert :=
  let alert :=
    match update.status with
    | none => alert
    | some status =>
      if status.operational then { alert with status, closedAt := none, closureReason := none }
      else
        { alert with
          status
          closedAt := some now
          closureReason := orText update.resolutionReason update.note }
  if update.assignedToMe then { alert with assignedToUserId := some actorId, takenAt := some now }
  else alert

/-- `update_alert` -/
def updateAlert (store : AlertStore) (alertId : UUID) (update : AlertUpdate) (actorId : UUID)
    (now : Timestamp) : AlertStore :=
  match store.alerts.find alertId with
  | none => store
  | some alert =>
    let updated := update.edit actorId now alert
    (store.setAlert updated).addHistory fmt uuidText isoformat
      { alertId := alert.id
        actorUserId := some actorId
        event := .updated
        previousStatus := some alert.status
        newStatus := updated.status
        note := update.note
        reason := update.resolutionReason
        occurredAt := now }

/-- An automatic closure: the row, one evidence row and one history row. The
evidence is numbered after the rows that were flushed. -/
def closeAlert (store flushed : AlertStore) (alert : FraudAlert) (status : AlertStatus)
    (event : HistoryEvent) (actorUserId : Option UUID) (reason : String) (now : Timestamp)
    (printJobId : Option UUID) (evidence : AlertEvidence) : AlertStore :=
  ((store.setAlert
      { alert with status, closedAt := some now, closureReason := some reason }).addEvidence
      (numberFrom (flushed.nextEvidence alert.id)
        [{ alertId := alert.id, printJobId, evidence }])).addHistory fmt uuidText isoformat
    { alertId := alert.id
      actorUserId
      event
      previousStatus := some alert.status
      newStatus := status
      reason := some reason
      occurredAt := now }

/-- `order_by(FraudAlert.opened_at, FraudAlert.id)` -/
def OpenedBefore (a b : FraudAlert) : Prop :=
  a.openedAt.micros < b.openedAt.micros ∨ (a.openedAt.micros = b.openedAt.micros ∧ a.id ≤ b.id)

instance : DecidableRel OpenedBefore := fun _ _ => inferInstanceAs (Decidable (_ ∨ (_ ∧ _)))

/-- The alerts of a query, in the order they are closed in. -/
def selected (store : AlertStore) (query : FraudAlert → Bool) : List FraudAlert :=
  (store.alerts.rows.filter query).insertionSort OpenedBefore

/-- `"Evidenza tecnica esclusa dall'analisi da un amministratore: " + reason` -/
def exclusionReason (reason : String) : String :=
  "Evidenza tecnica esclusa dall'analisi da un amministratore: " ++ reason

/-- The alerts that `_justify_alerts_for_excluded_job` closes. -/
def excludedAlert (correlationIds : List UUID) (alert : FraudAlert) : Bool :=
  correlationIds.contains alert.correlationId && alert.isCanonical && alert.status.operational

/-- `_justify_alerts_for_excluded_job`, from the correlations of the job on -/
def justifyAlertsForExcludedJob (store : AlertStore) (correlationIds : List UUID) (jobId : UUID)
    (actorId : UUID) (reason : String) (occurredAt : Timestamp) : AlertStore :=
  (store.selected (excludedAlert correlationIds)).foldl (fun current alert =>
    current.closeAlert fmt uuidText isoformat store alert .justified .jobExcluded (some actorId)
      (exclusionReason reason) occurredAt (some jobId) (.jobExcluded jobId reason)) store

end AlertStore
end

end RetailPrintGuard.Fraud.Alerts
