import RetailPrintGuard.Fraud.RuleVersions
import RetailPrintGuard.Common.Runtime
import RetailPrintGuard.Correlation.Membership
import RetailPrintGuard.Fraud.AlertWriters

/-! # The alerts over whole runs

The transactions of the analysis, the reviews of jobs, the fraud runs and the
decisions of operators follow each other in any order. -/
namespace RetailPrintGuard.Fraud.AlertRuns
open RetailPrintGuard.Common.Python RetailPrintGuard.Common.Domain
open RetailPrintGuard.Common.Formats (Codec)
open RetailPrintGuard.Common.HashChain (zeroDigest chainedHash)
open RetailPrintGuard.Correlation.Scoring RetailPrintGuard.Correlation.CandidateBatch
open RetailPrintGuard.Correlation.Run
open RetailPrintGuard.Db.Models RetailPrintGuard.Db.Repository
open RetailPrintGuard.Fraud.Findings RetailPrintGuard.Fraud.Alerts RetailPrintGuard.Fraud.Alerts.AlertStore
open RetailPrintGuard.Fraud.Rules (minutes)
open RetailPrintGuard.Fraud.Worker RetailPrintGuard.Fraud.AlertWrites
open RetailPrintGuard.Fraud.AlertWriters
open RetailPrintGuard.Library RetailPrintGuard.Library.HashChain RetailPrintGuard.Library.KeyedLog
open RetailPrintGuard.Library.Runs

/-! ## Steps -/

/-- The reviews, which close alerts too, have a step of their own. -/
def isReview : System.Step → Bool
  | .reviewJob .. => true
  | _ => false

inductive Step where
  | analysis (step : { step : System.Step // isReview step = false })
  | reviewJob (jobId : UUID) (action : ReviewAction) (actorId : UUID) (reason : String)
      (occurredAt : Timestamp)
  | fraudRun (input : RunInput) (maxTransactions : Option Nat)
  | updateAlert (alertId : UUID) (update : AlertUpdate) (actorId : UUID) (now : Timestamp)

/-- The correlations of the job, whatever their status. -/
def jobCorrelationIds (db : Database) (jobId : UUID) : List UUID :=
  (db.correlations.rows.filter fun correlation =>
    correlation.overlaps (jobDocumentIds db jobId)).map DocumentCorrelation.id

section
variable (rt : Runtime) (engine : CorrelationEngine)
variable (fmt : Codec) (uuidText : UUID → String) (isoformat : Timestamp → String)

/-- `review_job` -/
def reviewJob (s : State) (jobId : UUID) (action : ReviewAction) (actorId : UUID) (reason : String)
    (occurredAt : Timestamp) : State :=
  match s.db.jobs.find jobId with
  | none => s
  | some job =>
    if technicallyComplete job then s
    else
      { db := Db.Repository.reviewJob s.db jobId action
        store :=
          if action.target.2 then
            s.store.justifyAlertsForExcludedJob fmt uuidText isoformat (jobCorrelationIds s.db jobId)
              jobId actorId reason occurredAt
          else s.store }

/-- A run that raises is rolled back; a limit must be positive. -/
def fraudRun (s : State) (input : RunInput) (maxTransactions : Option Nat) : State :=
  if maxTransactions = some 0 then s
  else (runOnce rt engine fmt uuidText isoformat s input maxTransactions).getD s

def apply (s : State) : Step → State
  | .analysis step => { s with db := System.apply rt engine s.db step.val }
  | .reviewJob jobId action actorId reason occurredAt =>
    reviewJob fmt uuidText isoformat s jobId action actorId reason occurredAt
  | .fraudRun input maxTransactions =>
    fraudRun rt engine fmt uuidText isoformat s input maxTransactions
  | .updateAlert alertId update actorId now =>
    { s with store := s.store.updateAlert fmt uuidText isoformat alertId update actorId now }

/-- The state after a list of steps. -/
def run (steps : List Step) : State := steps.foldl (apply rt engine fmt uuidText isoformat) {}

end

/-- The alert an operator changes in a step. -/
def Step.operated : Step → Option UUID
  | .updateAlert alertId .. => some alertId
  | .analysis _ | .reviewJob .. | .fraudRun .. => none

variable {rt : Runtime} {engine : CorrelationEngine}
variable {fmt : Codec} {uuidText : UUID → String} {isoformat : Timestamp → String}
variable {s : State} {alert : FraudAlert}

/-! ## One step -/

theorem drawn_reviewJob (db : Database) (jobId : UUID) (action : ReviewAction) :
    db.drawn ≤ (Db.Repository.reviewJob db jobId action).drawn := by
  unfold Db.Repository.reviewJob
  split
  · exact le_rfl
  · dsimp only
    split_ifs <;> exact le_rfl

theorem drawn_le_apply (db : Database) (step : System.Step) :
    db.drawn ≤ (System.apply rt engine db step).drawn := by
  cases step with
  | importJob job => exact le_rfl
  | storeDocuments jobId documents =>
    exact (System.keepsAnalysis_storeDocuments jobId documents).drawn
  | recordFailure jobId buildHash => exact (System.keepsAnalysis_recordFailure jobId buildHash).drawn
  | activateParserVersion name versionId rewind => exact le_rfl
  | reviewJob jobId action => exact drawn_reviewJob db jobId action
  | runOnce maxDocuments =>
    rw [System.apply]
    exact drawn_le_runOnce

/-- A step writes alerts as its writers may, and every alert keeps an identifier
drawn for it. -/
structure StepWrites (rt : Runtime) (fmt : Codec) (uuidText : UUID → String)
    (isoformat : Timestamp → String) (operated : Option UUID) (s s' : State) : Prop where
  writes : Writes fmt uuidText isoformat operated s.store s'.store
  drawn : s.db.drawn ≤ s'.db.drawn
  ids : Drawn rt s'

theorem Drawn.mono {db : Database} (h : Drawn rt s) (hdrawn : s.db.drawn ≤ db.drawn) :
    Drawn rt { s with db } := by
  intro alert halert
  obtain ⟨n, hn, hid⟩ := h alert halert
  exact ⟨n, hn.trans_le hdrawn, hid⟩

theorem stepWrites_apply (h : Drawn rt s) (step : Step) :
    StepWrites rt fmt uuidText isoformat step.operated s
      (apply rt engine fmt uuidText isoformat s step) := by
  cases step with
  | analysis step =>
    have hdrawn := @drawn_le_apply rt engine s.db step.val
    exact ⟨Relation.ReflTransGen.refl, hdrawn, Drawn.mono h hdrawn⟩
  | reviewJob jobId action actorId reason occurredAt =>
    unfold apply reviewJob
    dsimp only
    have hrefl : StepWrites rt fmt uuidText isoformat none s s :=
      ⟨Relation.ReflTransGen.refl, le_rfl, h⟩
    cases s.db.jobs.find jobId with
    | none => exact hrefl
    | some job =>
      dsimp only
      split
      · exact hrefl
      · have hdrawn := drawn_reviewJob s.db jobId action
        split
        · obtain ⟨hwrites, hrows⟩ := @justifyAlerts_spec fmt uuidText isoformat s.store none
            (jobCorrelationIds s.db jobId) jobId actorId reason occurredAt
          have hids := ids_of_rows (fun alert => by split <;> rfl) hrows
          exact ⟨hwrites, hdrawn, Drawn.mono (Advances.of_writes h hwrites hids).ids hdrawn⟩
        · exact ⟨Relation.ReflTransGen.refl, hdrawn, Drawn.mono h hdrawn⟩
  | fraudRun input maxTransactions =>
    unfold apply fraudRun
    dsimp only
    split
    · exact ⟨Relation.ReflTransGen.refl, le_rfl, h⟩
    · cases hrun : runOnce rt engine fmt uuidText isoformat s input maxTransactions with
      | none => exact ⟨Relation.ReflTransGen.refl, le_rfl, h⟩
      | some s' =>
        have hadvances := advances_runOnce h hrun
        exact ⟨hadvances.writes, hadvances.drawn, hadvances.ids⟩
  | updateAlert alertId update actorId now =>
    refine ⟨Writes.of_updateAlert alertId update actorId now, le_rfl, fun row hrow => ?_⟩
    obtain ⟨old, hold, hsame⟩ := same_updateAlert hrow
    exact hsame.id_eq ▸ h old hold

/-! ## Every reachable state -/

/-- What the writers keep of their tables. -/
structure Valid (rt : Runtime) (fmt : Codec) (uuidText : UUID → String)
    (isoformat : Timestamp → String) (s : State) : Prop where
  recorded : Recorded fmt uuidText isoformat s.store
  unique : Unique s.store
  ids : Drawn rt s

theorem valid_empty : Valid rt fmt uuidText isoformat {} :=
  ⟨recorded_empty, unique_empty, fun _ h => absurd h List.not_mem_nil⟩

theorem Valid.apply (h : Valid rt fmt uuidText isoformat s) (step : Step) :
    Valid rt fmt uuidText isoformat (apply rt engine fmt uuidText isoformat s step) := by
  have hstep := @stepWrites_apply rt engine fmt uuidText isoformat s h.ids step
  exact ⟨h.recorded.writes hstep.writes, h.unique.writes hstep.writes, hstep.ids⟩

theorem valid_run (steps : List Step) :
    Valid rt fmt uuidText isoformat (run rt engine fmt uuidText isoformat steps) :=
  invariant (Valid rt fmt uuidText isoformat) (fun _ step h => h.apply step) valid_empty steps

theorem Valid.extends (h : Valid rt fmt uuidText isoformat s) (steps : List Step) :
    Extends s.store (steps.foldl (AlertRuns.apply rt engine fmt uuidText isoformat) s).store := by
  induction steps generalizing s with
  | nil => exact Extends.refl s.store
  | cons step steps ih =>
    exact (Extends.of_writes (stepWrites_apply h.ids step).writes).trans (ih (h.apply step))

theorem Valid.settled (h : Valid rt fmt uuidText isoformat s) (hsettled : Settled s.store alert)
    (steps : List Step) (hsteps : ∀ step ∈ steps, step.operated ≠ some alert.id) :
    Settled (steps.foldl (AlertRuns.apply rt engine fmt uuidText isoformat) s).store alert ∧
      (steps.foldl (AlertRuns.apply rt engine fmt uuidText isoformat) s).store.historyOf alert.id =
        s.store.historyOf alert.id := by
  induction steps generalizing s with
  | nil => exact ⟨hsettled, rfl⟩
  | cons step steps ih =>
    obtain ⟨hnext, hhistory⟩ := hsettled.writes
      (@stepWrites_apply rt engine fmt uuidText isoformat s h.ids step).writes
      (hsteps step List.mem_cons_self)
    obtain ⟨hlast, hhistory'⟩ := ih (h.apply step) hnext fun other hother =>
      hsteps other (List.mem_cons_of_mem _ hother)
    exact ⟨hlast, hhistory'.trans hhistory⟩

/-! ## What an auditor finds -/

section
variable (rt : Runtime) (engine : CorrelationEngine)
variable (fmt : Codec) (uuidText : UUID → String) (isoformat : Timestamp → String)

/-- **Every history is a chain.** After steps in any order the rows of an alert
are numbered 1, 2 and so on, each names the hash of the row before it, and its
own hash is that of the payload read back from its columns. -/
theorem histories_chained (steps : List Step) :
    (∀ row ∈ (run rt engine fmt uuidText isoformat steps).store.history,
      ∃ alert ∈ (run rt engine fmt uuidText isoformat steps).store.alerts, alert.id = row.alertId) ∧
    (∀ alertId, Chained links 0 zeroDigest
      ((run rt engine fmt uuidText isoformat steps).store.historyOf alertId)) ∧
    ∀ row ∈ (run rt engine fmt uuidText isoformat steps).store.history,
      chainedHash fmt (row.payload uuidText isoformat row.sequence row.previousRecordHash)
        (some row.previousRecordHash.text) = .ok row.recordHash.text := by
  have hrecorded := (@valid_run rt engine fmt uuidText isoformat steps).recorded
  exact ⟨hrecorded.known, hrecorded.chained, hrecorded.hashed⟩

/-- **Every history is a life of an alert**: it starts with an opening or a
suppression, every row says which status it found, an automatic row closes only
a live alert and reopens only one whose last event was the exclusion of a job,
and the alert is left as its last row says. -/
theorem histories_lawful (steps : List Step) :
    (∀ alertId, Follows (fun latest row => MayFollow latest row.toTransition) none
      ((run rt engine fmt uuidText isoformat steps).store.historyOf alertId)) ∧
    ∀ alert ∈ (run rt engine fmt uuidText isoformat steps).store.alerts,
      ((run rt engine fmt uuidText isoformat steps).store.historyOf alert.id).getLast?.map
        (fun row => row.newStatus) = some alert.status ∧
      alert.closedAt.isNone = alert.status.operational := by
  have hrecorded := (@valid_run rt engine fmt uuidText isoformat steps).recorded
  exact ⟨hrecorded.lawful, fun alert halert => ⟨hrecorded.current alert halert, hrecorded.closed alert halert⟩⟩

/-- **Nothing of an alert is lost.** Whatever follows, the rows of history and
evidence stay where they are, every alert keeps what it was opened with, and
every evidence row is of a stored alert. -/
theorem logs_only_grow (steps more : List Step) :
    Extends (run rt engine fmt uuidText isoformat steps).store
      (run rt engine fmt uuidText isoformat (steps ++ more)).store ∧
    ∀ row ∈ (run rt engine fmt uuidText isoformat (steps ++ more)).store.evidence,
      ∃ alert ∈ (run rt engine fmt uuidText isoformat (steps ++ more)).store.alerts,
        alert.id = row.alertId := by
  refine ⟨?_, (@valid_run rt engine fmt uuidText isoformat (steps ++ more)).recorded.evidenceKnown⟩
  rw [run, run, List.foldl_append]
  exact (valid_run steps).extends more

/-- **A finding is reported once.** No two alerts are of one finding on one
input, and one correlation has one canonical alert of the primary rule. -/
theorem findings_reported_once (steps : List Step) :
    AtMostOne SameFinding (run rt engine fmt uuidText isoformat steps).store ∧
      AtMostOne SameIncident (run rt engine fmt uuidText isoformat steps).store := by
  have hunique := (@valid_run rt engine fmt uuidText isoformat steps).unique
  exact ⟨hunique.finding, hunique.incident⟩

/-- **A decision stands.** An archived alert that was not closed last by the
exclusion of a job stays as it is, history included, until an operator changes
it again: no later run, review or replay of the analysis touches it. -/
theorem settled_alert_stands (steps more : List Step) (alert : FraudAlert)
    (h : Settled (run rt engine fmt uuidText isoformat steps).store alert)
    (hmore : ∀ step ∈ more, step.operated ≠ some alert.id) :
    alert ∈ (run rt engine fmt uuidText isoformat (steps ++ more)).store.alerts ∧
      (run rt engine fmt uuidText isoformat (steps ++ more)).store.historyOf alert.id =
        (run rt engine fmt uuidText isoformat steps).store.historyOf alert.id := by
  have hvalid := @valid_run rt engine fmt uuidText isoformat steps
  rw [run, List.foldl_append]
  exact And.imp_left Settled.mem (hvalid.settled h more hmore)

end

/-! ## A table that is never closed -/

def openPrebill : NormalizedDocument where
  id := 1
  sourceDeviceId := "POS"
  sourceJobId := "J1"
  type := .preBill
  tableCode := some "12"
  capturedAt := { micros := 0 }

/-- A run two hours after the prebill. -/
def closeRun : RunInput where
  now := { micros := minutes 120 }
  reopenedAt _ := { micros := minutes 120 }
  ruleRows := [({ code := .orderWithoutFiscalClose, severity := .medium },
    { id := 7, implementationVersion := RuleVersions.fraudEngineVersion })]
  unique := by decide

/-- The prebill arrives, is correlated, found open and its alert closed. -/
def openTableSteps : List Step :=
  [.analysis ⟨.importJob
      { id := 1, sourceJobId := "J1", captureComplete := false, reviewState := .verifiedUsable }, rfl⟩,
    .analysis ⟨.storeDocuments 1
      [{ value := openPrebill, parserName := "rch", parserVersion := "1.0", buildSha256 := "" }], rfl⟩,
    .analysis ⟨.runOnce 1, rfl⟩,
    .fraudRun closeRun none,
    .updateAlert 4 { status := some .closed } 9 { micros := minutes 130 }]

/-- The same run again, and a review of the job. -/
def laterSteps : List Step :=
  [.analysis ⟨.runOnce 1, rfl⟩, .fraudRun closeRun none,
    .reviewJob 1 .excludeFromAnalysis 9 "test" { micros := minutes 140 }]

/-- The states of the example. -/
noncomputable def sampleRun (steps : List Step) : State :=
  run asciiRuntime standardEngine Common.Runtime.runtime toString (fun time => toString time.micros)
    steps

theorem closedTable_opened : 0 < (sampleRun openTableSteps).store.alerts.rows.length := by
  decide +kernel

noncomputable def closedTable : FraudAlert :=
  (sampleRun openTableSteps).store.alerts.rows.get ⟨0, closedTable_opened⟩

theorem closedTable_settled : Settled (sampleRun openTableSteps).store closedTable :=
  ⟨List.get_mem _ _, by decide +kernel, by decide +kernel⟩

theorem closedTable_stands :
    closedTable ∈ (sampleRun (openTableSteps ++ laterSteps)).store.alerts ∧
      (sampleRun (openTableSteps ++ laterSteps)).store.historyOf closedTable.id =
        (sampleRun openTableSteps).store.historyOf closedTable.id :=
  settled_alert_stands asciiRuntime standardEngine Common.Runtime.runtime toString
    (fun time => toString time.micros) openTableSteps laterSteps closedTable closedTable_settled
    (by decide +kernel)

end RetailPrintGuard.Fraud.AlertRuns
