import RetailPrintGuard.Fraud.Alerts

/-! # Known false positives

Two earlier engines reported findings that later ones do not. A run looks at
the open alerts of their rule versions before it evaluates anything. -/
namespace RetailPrintGuard.Fraud.FalsePositives
open RetailPrintGuard.Common.Python RetailPrintGuard.Common.Domain
open RetailPrintGuard.Common.Formats (Codec)
open RetailPrintGuard.Db.Models RetailPrintGuard.Fraud.Findings RetailPrintGuard.Fraud.Evaluation
open RetailPrintGuard.Fraud.Rules (technicalNonSaleLine)
open RetailPrintGuard.Fraud.Alerts

/-- The engines whose alerts are looked at. -/
def earlierEngines : List String := ["rpg-fraud-1.0.0", "rpg-fraud-1.1.0"]

/-- The rules whose alerts are looked at. The auxiliary economic rules are those
the primary one takes the place of. -/
def reclassifiedRule (code : RuleCode) : Bool :=
  match code with
  | .duplicateDocument | .unusualOperatorPattern | .lateOrderModification
  | .negativeOrZeroValueItem => true
  | _ => secondaryEconomicRules code

/-- `candidates` -/
def candidate (alert : FraudAlert) : Bool :=
  alert.status == .opened && reclassifiedRule alert.ruleCode &&
    earlierEngines.contains alert.ruleVersion.implementationVersion

/-- The evidence records of the rule that opened the alert. -/
def ruleRecords (store : AlertStore) (alertId : UUID) : List Evidence :=
  (store.evidenceOf alertId).filterMap fun row =>
    match row.evidence with
    | .rule evidence => some evidence
    | _ => none

/-- What the decision reads beside the alerts. -/
structure Settings where
  /-- the `enabled` column of the primary rule -/
  primaryRuleEnabled : Bool := true
  /-- the document a stored order event was read in -/
  eventSource : UUID → Option UUID := fun _ => none

/-- `sorted` on a set of document types -/
def sortedTypes (types : List DocumentType) : List DocumentType :=
  types.dedup.insertionSort fun a b => a.value ≤ b.value

def documentsOf (db : Database) (ids : List UUID) : List Document :=
  db.documents.rows.filter fun document => ids.contains document.id

/-- `output_types` -/
def outputType : DocumentType → Bool
  | .commercialDocument | .managementDocument | .conformingCopy | .reprint | .deviceResponse => true
  | _ => false

/-- Late events that were read in printed output only. -/
def printedOutput (db : Database) (settings : Settings) (records : List Evidence) : Option Defect :=
  let eventIds := records.filterMap fun record =>
    match record with
    | .lateOrderEvent eventId .. => some eventId
    | _ => none
  let types := sortedTypes ((documentsOf db (eventIds.filterMap settings.eventSource)).map
    fun document => document.projection.documentType)
  if !eventIds.isEmpty && !types.isEmpty && types.all outputType then
    some (.printedOutputTreatedAsLateAction types)
  else none

/-- Items without a value on lines that are no articles. -/
def zeroValueLines (rt : Runtime) (records : List Evidence) : Option Defect :=
  let descriptions := records.filterMap fun record =>
    match record with
    | .nonPositiveItem _ _ description .. => description
    | _ => none
  let values := records.flatMap fun record =>
    match record with
    | .nonPositiveItem _ _ _ unitPrice lineTotal => unitPrice.toList ++ lineTotal.toList
    | _ => []
  if !values.isEmpty && values.all (fun value => 0 ≤ value) && !descriptions.isEmpty &&
      descriptions.all (technicalNonSaleLine rt) then
    some .zeroValueTechnicalLineNoise
  else none

/-- `benign_output_types`, and a management copy of a commercial document -/
def outputArtifact (document : Document) : Bool :=
  match document.projection.documentType with
  | .reprint | .conformingCopy | .deviceResponse => true
  | .managementDocument => document.projection.commercialReferenceCode.isSome
  | _ => false

/-- Duplicates that are copies, or that are not of the transaction. -/
def duplicates (db : Database) (correlationId : UUID) (records : List Evidence) : Option Defect :=
  let memberIds := ((db.correlations.find correlationId).map DocumentCorrelation.memberIds).getD []
  let involvedIds := (records.flatMap fun record =>
    match record with
    | .duplicateDocument documentIds .. => documentIds
    | _ => []).dedup
  let involved := documentsOf db involvedIds
  if involvedIds.isEmpty then none
  else if involved.length == involvedIds.length && involved.all outputArtifact then
    some (.outputArtifactDuplicateNoise
      (sortedTypes (involved.map fun document => document.projection.documentType)))
  else if !memberIds.any involvedIds.contains then
    some (.globalFindingOutsideTransaction memberIds.dedup.length involvedIds.length)
  else none

/-- The defect a candidate is due to. -/
def knownDefect (rt : Runtime) (db : Database) (settings : Settings) (store : AlertStore)
    (alert : FraudAlert) : Option Defect :=
  let records := ruleRecords store alert.id
  if alert.ruleCode == .unusualOperatorPattern &&
      alert.ruleVersion.implementationVersion == "rpg-fraud-1.0.0" then
    some .operatorRateSelfAmplification
  else if secondaryEconomicRules alert.ruleCode && settings.primaryRuleEnabled &&
      alert.originalAmount.isSome then
    some .auxiliaryPostPrebillAlertNoise
  else
    match alert.ruleCode with
    | .lateOrderModification => printedOutput db settings records
    | .negativeOrZeroValueItem => zeroValueLines rt records
    | .duplicateDocument => duplicates db alert.correlationId records
    | _ => none

def Defect.reason : Defect → String
  | .operatorRateSelfAmplification =>
    "La versione precedente includeva alert non operativi e la stessa regola nel tasso operatore, " ++
      "producendo auto-amplificazione. Il risultato viene ricalcolato dalla versione corretta."
  | .auxiliaryPostPrebillAlertNoise =>
    "La regola era un sintomo ausiliario della riduzione post-preconto. Nel profilo operativo " ++
      "corrente la perdita viene rappresentata una sola volta da MODIFICA_POST_PRECONTO, " ++
      "rispettandone le soglie di materialita'."
  | .printedOutputTreatedAsLateAction _ =>
    "Gli eventi provenivano esclusivamente da documenti di output o copie stampate dopo la " ++
      "chiusura, non da una modifica POS dell'ordine."
  | .zeroValueTechnicalLineNoise =>
    "L'alert conteneva esclusivamente righe a valore zero, tipiche di footer/proiezioni tecniche " ++
      "riconosciute. Le riduzioni economiche restano coperte dal confronto preconto-chiusura."
  | .outputArtifactDuplicateNoise _ =>
    "Il gruppo era composto esclusivamente da risposte dispositivo o copie/proiezioni di output, " ++
      "non da documenti di vendita duplicati."
  | .globalFindingOutsideTransaction .. =>
    "La precedente valutazione globale ha assegnato alla transazione un gruppo duplicato composto " ++
      "esclusivamente da documenti esterni."

/-- `_reclassify_known_false_positives` -/
def reclassifyKnownFalsePositives (rt : Runtime) (fmt : Codec) (uuidText : UUID → String)
    (isoformat : Timestamp → String) (db : Database) (settings : Settings) (store : AlertStore)
    (now : Timestamp) : AlertStore :=
  (store.selected candidate).foldl (fun current alert =>
    match knownDefect rt db settings store alert with
    | none => current
    | some defect =>
      current.closeAlert fmt uuidText isoformat store alert .falsePositive .autoFalsePositive none
        (Defect.reason defect) now none (.engineFalsePositive alert.ruleCode
          alert.ruleVersion.implementationVersion defect)) store

end RetailPrintGuard.Fraud.FalsePositives
