import RetailPrintGuard.Fraud.AlertWrites

/-! # The writers of alerts -/
namespace RetailPrintGuard.Fraud.AlertWriters
open RetailPrintGuard.Common.Python RetailPrintGuard.Common.Domain
open RetailPrintGuard.Common.Formats (Codec)
open RetailPrintGuard.Correlation.Scoring RetailPrintGuard.Correlation.Engine
open RetailPrintGuard.Correlation.CandidateBatch
open RetailPrintGuard.Db.Models RetailPrintGuard.Fraud.Findings RetailPrintGuard.Fraud.Evaluation
open RetailPrintGuard.Fraud.Alerts RetailPrintGuard.Fraud.Alerts.AlertStore
open RetailPrintGuard.Fraud.FalsePositives RetailPrintGuard.Fraud.Worker RetailPrintGuard.Fraud.AlertWrites
open RetailPrintGuard.Library RetailPrintGuard.Library.KeyedLog RetailPrintGuard.Library.Runs

section
variable {fmt : Codec} {uuidText : UUID → String} {isoformat : Timestamp → String}
variable {store store' flushed : AlertStore} {alert other : FraudAlert} {operated : Option UUID}

/-! ## One alert -/

theorem mem_numberFrom {first : Nat} {entries : List EvidenceEntry} {row : FraudAlertEvidence}
    (h : row ∈ numberFrom first entries) : row.toEvidenceEntry ∈ entries := by
  rw [numberFrom, List.mem_mapIdx] at h
  obtain ⟨position, hlt, rfl⟩ := h
  exact List.getElem_mem hlt

theorem Writes.of_evidence {rows : List FraudAlertEvidence}
    (h : ∀ row ∈ rows, ∃ alert ∈ store.alerts, alert.id = row.alertId) :
    Writes fmt uuidText isoformat operated store (store.addEvidence rows) :=
  Relation.ReflTransGen.single (Write.evidence store rows h)

/-- A change of an alert with evidence rows of it. -/
theorem Writes.of_change {changed : FraudAlert} {t : Transition} {rows : List FraudAlertEvidence}
    (hmem : alert ∈ store.alerts) (hchange : Change alert changed t)
    (hauthorised : Authorised operated store alert t) (hrows : ∀ row ∈ rows, row.alertId = alert.id) :
    Writes fmt uuidText isoformat operated store
      (((store.setAlert changed).addEvidence rows).addHistory fmt uuidText isoformat t) := by
  rw [addEvidence_addHistory]
  refine Relation.ReflTransGen.tail (Relation.ReflTransGen.single
    (Write.change store alert changed t hmem hchange hauthorised))
    (Write.evidence _ rows fun row hrow => ?_)
  have hid := hchange.same.id_eq
  exact ⟨changed, (mem_setAlert hmem hid).mpr (Or.inl rfl), hid.trans (hrows row hrow).symm⟩

theorem alertId_of_single {first : Nat} {entry : EvidenceEntry} {id : UUID} (h : entry.alertId = id) :
    ∀ row ∈ numberFrom first [entry], row.alertId = id := by
  intro row hrow
  rw [← h, ← List.mem_singleton.mp (mem_numberFrom hrow)]

theorem Writes.of_closeAlert {status : AlertStatus} {event : HistoryEvent} {actorUserId : Option UUID}
    {reason : String} {now : Timestamp} {printJobId : Option UUID} {evidence : AlertEvidence}
    (hmem : alert ∈ store.alerts) (hstatus : status.operational = false)
    (hactor : actorUserId.isSome = byUser event)
    (hauthorised : Authorised operated store alert
      { alertId := alert.id
        actorUserId
        event
        previousStatus := some alert.status
        newStatus := status
        reason := some reason
        occurredAt := now }) :
    Writes fmt uuidText isoformat operated store
      (store.closeAlert fmt uuidText isoformat flushed alert status event actorUserId reason now printJobId
        evidence) := by
  unfold closeAlert
  exact Writes.of_change hmem ⟨rfl, rfl, rfl, rfl, hactor, fun _ => hstatus.symm⟩ hauthorised
    (alertId_of_single rfl)

theorem alerts_closeAlert {status : AlertStatus} {event : HistoryEvent} {actorUserId : Option UUID}
    {reason : String} {now : Timestamp} {printJobId : Option UUID} {evidence : AlertEvidence} :
    (store.closeAlert fmt uuidText isoformat flushed alert status event actorUserId reason now printJobId
      evidence).alerts =
      (store.setAlert
        { alert with status, closedAt := some now, closureReason := some reason }).alerts := rfl

theorem sameAlert_edit (update : AlertUpdate) (actorId : UUID) (now : Timestamp) (alert : FraudAlert) :
    SameAlert alert (update.edit actorId now alert) := by
  unfold AlertUpdate.edit
  split
  · split <;> rfl
  · split <;> split <;> rfl

theorem closedWhenArchived_edit (update : AlertUpdate) (actorId : UUID) (now : Timestamp)
    (h : ClosedWhenArchived alert) : ClosedWhenArchived (update.edit actorId now alert) := by
  unfold AlertUpdate.edit
  split
  · split <;> exact h
  · next status _ =>
    cases hstatus : status.operational <;> simp only [] <;> split <;> exact hstatus.symm

theorem Writes.of_updateAlert (alertId : UUID) (update : AlertUpdate) (actorId : UUID)
    (now : Timestamp) :
    Writes fmt uuidText isoformat (some alertId) store
      (store.updateAlert fmt uuidText isoformat alertId update actorId now) := by
  unfold updateAlert
  cases hfind : store.alerts.find alertId with
  | none => exact Relation.ReflTransGen.refl
  | some alert =>
    obtain ⟨hmem, hid⟩ := Table.find_eq_some.mp hfind
    refine Relation.ReflTransGen.single (Write.change store alert _ _ hmem ?_ ?_)
    · exact ⟨sameAlert_edit update actorId now alert, rfl, rfl, rfl, rfl,
        closedWhenArchived_edit update actorId now⟩
    · exact Authorised.operator (congrArg some hid.symm) rfl

theorem same_updateAlert {alertId actorId : UUID} {update : AlertUpdate} {now : Timestamp}
    (h : other ∈ (store.updateAlert fmt uuidText isoformat alertId update actorId now).alerts) :
    ∃ old ∈ store.alerts, SameAlert old other := by
  unfold updateAlert at h
  cases hfind : store.alerts.find alertId with
  | none =>
    rw [hfind] at h
    exact ⟨other, h, SameAlert.refl other⟩
  | some alert =>
    rw [hfind] at h
    have hmem := (Table.find_eq_some.mp hfind).1
    have hsame := sameAlert_edit update actorId now alert
    obtain rfl | ⟨hold, -⟩ := (mem_setAlert hmem hsame.id_eq).mp h
    · exact ⟨alert, hmem, hsame⟩
    · exact ⟨other, hold, SameAlert.refl other⟩

/-- An alert that is opened again. -/
def reopened (alert : FraudAlert) : FraudAlert :=
  { alert with status := .opened, closedAt := none, closureReason := none }

theorem reopened_id (alert : FraudAlert) : (reopened alert).id = alert.id := rfl

theorem alerts_reopenAlert {correlation : DocumentCorrelation} {finding : FraudFinding}
    {now : Timestamp} :
    (reopenAlert fmt uuidText isoformat store flushed alert correlation finding now).alerts =
      (store.setAlert (reopened alert)).alerts := rfl

theorem Writes.of_reopenAlert (correlation : DocumentCorrelation) (finding : FraudFinding)
    (now : Timestamp) (hmem : alert ∈ store.alerts) (hclosed : closedByExclusion store alert = true) :
    Writes fmt uuidText isoformat operated store
      (reopenAlert fmt uuidText isoformat store flushed alert correlation finding now) := by
  unfold reopenAlert
  exact Writes.of_change hmem ⟨rfl, rfl, rfl, rfl, rfl, fun _ => rfl⟩
    (Authorised.reopening rfl hclosed rfl) (alertId_of_single rfl)

/-! ## The alerts of a query -/

theorem mem_selected {query : FraudAlert → Bool} :
    alert ∈ store.selected query ↔ alert ∈ store.alerts ∧ query alert = true := by
  rw [selected, List.mem_insertionSort, List.mem_filter]
  rfl

theorem nodup_selected (query : FraudAlert → Bool) :
    ((store.selected query).map FraudAlert.id).Nodup := by
  have hperm := (List.perm_insertionSort OpenedBefore (store.alerts.rows.filter query)).map FraudAlert.id
  exact hperm.nodup_iff.mpr (store.alerts.primaryKey.sublist (List.filter_sublist.map _))

/-- Setting an alert to itself changes nothing. -/
theorem alerts_setAlert_self (hmem : alert ∈ store.alerts) : (store.setAlert alert).alerts = store.alerts := by
  refine Table.ext ?_
  rw [rows_setAlert]
  refine (List.map_congr_left fun row hrow => ?_).trans (List.map_id _)
  by_cases hid : row.id = alert.id
  · obtain rfl := Table.eq_of_key hrow hmem hid
    exact if_pos rfl
  · exact if_neg hid

/-- A writer that changes one alert at a time changes each of a list in turn. -/
theorem foldl_alerts {alerts : List FraudAlert} {write : AlertStore → FraudAlert → AlertStore}
    {g : FraudAlert → FraudAlert} (hnodup : (alerts.map FraudAlert.id).Nodup)
    (hmem : ∀ alert ∈ alerts, alert ∈ store.alerts) (hg : ∀ alert, (g alert).id = alert.id)
    (hwrite : ∀ current, ∀ alert ∈ alerts, alert ∈ current.alerts →
      Writes fmt uuidText isoformat operated current (write current alert) ∧
        (write current alert).alerts = (current.setAlert (g alert)).alerts) :
    Writes fmt uuidText isoformat operated store (alerts.foldl write store) ∧
      (alerts.foldl write store).alerts.rows =
        store.alerts.rows.map fun row => if row ∈ alerts then g row else row := by
  induction alerts generalizing store with
  | nil => exact ⟨Relation.ReflTransGen.refl, by simp⟩
  | cons alert alerts ih =>
    rw [List.map_cons, List.nodup_cons] at hnodup
    have halert := hmem alert List.mem_cons_self
    obtain ⟨hwrites, halerts⟩ := hwrite store alert List.mem_cons_self halert
    have hother : ∀ row ∈ alerts, row.id ≠ alert.id := fun row hrow heq =>
      hnodup.1 (heq ▸ List.mem_map_of_mem hrow)
    have hrest : ∀ row ∈ alerts, row ∈ (write store alert).alerts := by
      intro row hrow
      rw [halerts]
      exact (mem_setAlert halert (hg alert)).mpr
        (Or.inr ⟨hmem row (List.mem_cons_of_mem _ hrow), hother row hrow⟩)
    obtain ⟨hrestWrites, hrestRows⟩ := ih hnodup.2 hrest fun current row hrow =>
      hwrite current row (List.mem_cons_of_mem _ hrow)
    refine ⟨hwrites.trans hrestWrites, ?_⟩
    rw [List.foldl_cons, hrestRows, halerts, rows_setAlert, List.map_map]
    refine List.map_congr_left fun row hrow => ?_
    by_cases hid : row.id = alert.id
    · -- the alert itself: no other of the list has its id
      obtain rfl := Table.eq_of_key hrow halert hid
      have hnot : g row ∉ alerts := fun hin => hother _ hin (hg row)
      simp [hg, hnot]
    · have hne : row ≠ alert := fun heq => hid (congrArg FraudAlert.id heq)
      simp [hg, hid, hne]

/-- A writer over the alerts of a query rewrites those of its rows. -/
theorem foldl_selected {query : FraudAlert → Bool} {write : AlertStore → FraudAlert → AlertStore}
    {g : FraudAlert → FraudAlert} (hg : ∀ alert, (g alert).id = alert.id)
    (hwrite : ∀ current, ∀ alert ∈ store.alerts, query alert = true → alert ∈ current.alerts →
      Writes fmt uuidText isoformat operated current (write current alert) ∧
        (write current alert).alerts = (current.setAlert (g alert)).alerts) :
    Writes fmt uuidText isoformat operated store ((store.selected query).foldl write store) ∧
      ((store.selected query).foldl write store).alerts.rows =
        store.alerts.rows.map fun row => if query row then g row else row := by
  obtain ⟨hwrites, hrows⟩ := foldl_alerts (nodup_selected query)
    (fun row hrow => (mem_selected.mp hrow).1) hg
    (fun current row hrow => hwrite current row (mem_selected.mp hrow).1 (mem_selected.mp hrow).2)
  refine ⟨hwrites, hrows.trans (List.map_congr_left fun row hrow => ?_)⟩
  have hiff : row ∈ store.selected query ↔ query row = true :=
    mem_selected.trans (and_iff_right hrow)
  simp only [hiff]

/-- An alert that a job was excluded under. -/
def justified (reason : String) (now : Timestamp) (alert : FraudAlert) : FraudAlert :=
  { alert with status := .justified, closedAt := some now, closureReason := some reason }

theorem justifyAlerts_spec (correlationIds : List UUID) (jobId actorId : UUID) (reason : String)
    (now : Timestamp) :
    Writes fmt uuidText isoformat operated store
      (store.justifyAlertsForExcludedJob fmt uuidText isoformat correlationIds jobId actorId reason
        now) ∧
      (store.justifyAlertsForExcludedJob fmt uuidText isoformat correlationIds jobId actorId reason
        now).alerts.rows =
        store.alerts.rows.map fun row =>
          if excludedAlert correlationIds row then justified (exclusionReason reason) now row
          else row := by
  unfold justifyAlertsForExcludedJob
  refine foldl_selected (fun _ => rfl) fun current alert _ hquery hmem => ⟨?_, rfl⟩
  rw [excludedAlert, Bool.and_eq_true] at hquery
  exact Writes.of_closeAlert hmem rfl rfl (Authorised.closure (Or.inr rfl) hquery.2 rfl)

/-- What a run makes of an alert that an earlier engine got wrong. -/
def reclassified (defect : Option Defect) (now : Timestamp) (alert : FraudAlert) : FraudAlert :=
  defect.elim alert fun defect =>
    { alert with
      status := .falsePositive
      closedAt := some now
      closureReason := some (Defect.reason defect) }

theorem reclassified_id (defect : Option Defect) (now : Timestamp) (alert : FraudAlert) :
    (reclassified defect now alert).id = alert.id := by
  cases defect <;> rfl

theorem reclassified_of_live {defect : Option Defect} {now : Timestamp}
    (h : (reclassified defect now alert).status.operational = true) :
    reclassified defect now alert = alert := by
  cases defect with
  | none => rfl
  | some defect => cases h

theorem reclassify_spec (rt : Runtime) (db : Database) (settings : Settings) (now : Timestamp) :
    Writes fmt uuidText isoformat operated store
      (reclassifyKnownFalsePositives rt fmt uuidText isoformat db settings store now) ∧
      (reclassifyKnownFalsePositives rt fmt uuidText isoformat db settings store now).alerts.rows =
        store.alerts.rows.map fun row =>
          if candidate row then reclassified (knownDefect rt db settings store row) now row
          else row := by
  unfold reclassifyKnownFalsePositives
  refine foldl_selected (fun alert => reclassified_id _ now alert) fun current alert _ hquery hmem => ?_
  cases knownDefect rt db settings store alert with
  | none => exact ⟨Relation.ReflTransGen.refl, (alerts_setAlert_self hmem).symm⟩
  | some found =>
    rw [candidate, Bool.and_assoc, Bool.and_eq_true, beq_iff_eq] at hquery
    exact ⟨Writes.of_closeAlert hmem rfl rfl (Authorised.falsePositive rfl hquery.1 rfl), rfl⟩

/-- What a run makes of an alert of a superseded correlation. -/
def resolved (db : Database) (now : Timestamp) (alert : FraudAlert) : FraudAlert :=
  match db.correlations.find alert.correlationId with
  | none => alert
  | some old =>
    if (replacements db old).isEmpty && !retiredAsNonSale db old then alert
    else justified (supersededReason (!(replacements db old).isEmpty)) now alert

theorem resolved_id (db : Database) (now : Timestamp) (alert : FraudAlert) :
    (resolved db now alert).id = alert.id := by
  unfold resolved
  cases db.correlations.find alert.correlationId with
  | none => rfl
  | some old =>
    dsimp only
    split <;> rfl

theorem sameAlert_resolved (db : Database) (now : Timestamp) (alert : FraudAlert) :
    SameAlert alert (resolved db now alert) := by
  unfold resolved
  split
  · exact SameAlert.refl alert
  · split <;> rfl

theorem resolved_of_live {db : Database} {now : Timestamp}
    (h : (resolved db now alert).status.operational = true) : resolved db now alert = alert := by
  unfold resolved at h ⊢
  cases hfind : db.correlations.find alert.correlationId with
  | none => rfl
  | some old =>
    rw [hfind] at h
    dsimp only at h ⊢
    split at h
    · exact if_pos ‹_›
    · cases h

/-- What waits to be flushed: alerts that were reopened, and references. -/
structure Behind (s : Session) : Prop where
  rows : ∀ alert ∈ s.store.alerts, ∃ row ∈ s.flushed.alerts, row.id = alert.id ∧
    (alert = row ∨ alert = reopened row)
  references : ∀ alertId id, id ∈ referenced s.flushed alertId → id ∈ referenced s.store alertId

variable {s : Session}

/-- An alert that was flushed as a live one is live. -/
theorem Behind.live (h : Behind s) (hmem : alert ∈ s.store.alerts)
    (hstale : staleRow s.db s.flushed alert = true) : alert.status.operational = true := by
  obtain ⟨row, hrow, hid, hsame⟩ := h.rows alert hmem
  have hfind : s.flushed.alerts.find alert.id = some row := Table.find_eq_some.mpr ⟨hrow, hid⟩
  rw [staleRow, hfind, Option.any_some, staleAlert, Bool.and_eq_true] at hstale
  obtain rfl | rfl := hsame
  · exact hstale.1
  · rfl

theorem resolveSuperseded_spec (h : Behind s) (now : Timestamp) :
    Writes fmt uuidText isoformat operated s.store
      (resolveSupersededAlerts fmt uuidText isoformat s now) ∧
      (resolveSupersededAlerts fmt uuidText isoformat s now).alerts.rows =
        s.store.alerts.rows.map fun row =>
          if staleRow s.db s.flushed row then resolved s.db now row else row := by
  unfold resolveSupersededAlerts
  refine foldl_selected (resolved_id s.db now) fun current alert hstored hquery hmem => ?_
  unfold resolveAlert resolved
  cases s.db.correlations.find alert.correlationId with
  | none => exact ⟨Relation.ReflTransGen.refl, (alerts_setAlert_self hmem).symm⟩
  | some old =>
    dsimp only
    split
    · exact ⟨Relation.ReflTransGen.refl, (alerts_setAlert_self hmem).symm⟩
    · exact ⟨Writes.of_closeAlert hmem rfl rfl
        (Authorised.closure (Or.inl rfl) (h.live hstored hquery) rfl), rfl⟩

end

/-! ## A finding -/

section
variable {store : AlertStore} {query : FraudAlert → Bool} {alert : FraudAlert}
variable {correlation : DocumentCorrelation} {finding : FraudFinding}

theorem mem_of_preferred (h : preferred store query = some alert) :
    alert ∈ store.alerts ∧ query alert = true := by
  have hmem := List.mem_of_mem_head? h
  rw [List.mem_insertionSort, List.mem_filter] at hmem
  exact hmem

theorem preferred_eq_none (h : preferred store query = none) :
    ∀ alert ∈ store.alerts, query alert = false := by
  intro alert halert
  rw [preferred, List.head?_eq_none_iff] at h
  cases hquery : query alert with
  | false => rfl
  | true =>
    have hmem : alert ∈ (store.alerts.rows.filter query).insertionSort Preferred :=
      (List.mem_insertionSort _).mpr (List.mem_filter.mpr ⟨halert, hquery⟩)
    rw [h] at hmem
    exact absurd hmem List.not_mem_nil

theorem mem_of_existingAlert (h : existingAlert store correlation finding = some alert) :
    alert ∈ store.alerts ∧
      (sameFinding correlation finding alert = true ∨ sameIncident correlation finding alert = true) := by
  rw [existingAlert, Option.or_eq_some_iff] at h
  obtain h | ⟨-, h⟩ := h
  · exact ⟨(mem_of_preferred h).1, Or.inl (mem_of_preferred h).2⟩
  · exact ⟨(mem_of_preferred h).1, Or.inr (mem_of_preferred h).2⟩

/-- Where no alert exists, a new one is the only one of its finding. -/
theorem new_of_existingAlert (h : existingAlert store correlation finding = none)
    {uuidText : UUID → String} {id : UUID} {ruleVersion : FraudRuleVersion}
    {members : List LoadedDocument} {suppression : Option SuppressedFinding} {other : FraudAlert} (hother : other ∈ store.alerts) :
    ¬ SameFinding other (newAlert uuidText id ruleVersion correlation finding members suppression) ∧
      ¬ SameIncident other
        (newAlert uuidText id ruleVersion correlation finding members suppression) := by
  rw [existingAlert, Option.or_eq_none_iff] at h
  constructor
  · intro hsame
    have hfalse := preferred_eq_none h.1 other hother
    simp only [sameFinding, show other.ruleCode = finding.ruleCode from hsame.1,
      show other.transactionId = finding.transactionId from hsame.2.1,
      show other.findingKey = findingKey correlation finding from hsame.2.2, beq_self_eq_true,
      Bool.and_self, Bool.true_eq_false] at hfalse
  · intro hsame
    have hfalse := preferred_eq_none h.2 other hother
    obtain ⟨hcode, hcode', htransaction, hcorrelation, hcanonical, -⟩ := hsame
    have hrule : finding.ruleCode = .modificaPostPreconto := hcode'
    simp only [sameIncident, hrule, hcode,
      show other.transactionId = finding.transactionId from htransaction,
      show other.correlationId = correlation.id from hcorrelation, hcanonical, beq_self_eq_true,
      Bool.and_self, Bool.true_eq_false] at hfalse

end

/-! ## A run -/

/-- Every alert has an identifier that was drawn for it. -/
def Drawn (rt : Runtime) (s : State) : Prop :=
  ∀ alert ∈ s.store.alerts, ∃ n < s.db.drawn, alert.id = rt.uuid4 n

section
variable (rt : Runtime) (fmt : Codec) (uuidText : UUID → String) (isoformat : Timestamp → String)

/-- What a run does: it draws identifiers and writes alerts, on its own. -/
structure Advances (s s' : State) : Prop where
  writes : Writes fmt uuidText isoformat none s.store s'.store
  drawn : s.db.drawn ≤ s'.db.drawn
  db : s'.db = { s.db with drawn := s'.db.drawn }
  ids : Drawn rt s'

end

section
variable {rt : Runtime} {engine : CorrelationEngine}
variable {fmt : Codec} {uuidText : UUID → String} {isoformat : Timestamp → String}
variable {s s' : State} {input : RunInput}

theorem Advances.refl (h : Drawn rt s) : Advances rt fmt uuidText isoformat s s :=
  ⟨Relation.ReflTransGen.refl, le_rfl, rfl, h⟩

theorem Advances.trans {a b c : State} (h : Advances rt fmt uuidText isoformat a b)
    (h' : Advances rt fmt uuidText isoformat b c) : Advances rt fmt uuidText isoformat a c where
  writes := h.writes.trans h'.writes
  drawn := h.drawn.trans h'.drawn
  db := by
    have heq := h'.db
    rw [h.db] at heq
    exact heq
  ids := h'.ids

/-- Writing rows of known alerts draws nothing. -/
theorem Advances.of_writes {store : AlertStore} (h : Drawn rt s)
    (hwrites : Writes fmt uuidText isoformat none s.store store)
    (hids : ∀ alert ∈ store.alerts, ∃ old ∈ s.store.alerts, alert.id = old.id) :
    Advances rt fmt uuidText isoformat s { s with store } := by
  refine ⟨hwrites, le_rfl, rfl, fun alert halert => ?_⟩
  obtain ⟨old, hold, hid⟩ := hids alert halert
  obtain ⟨n, hn, hdrawn⟩ := h old hold
  exact ⟨n, hn, hid.trans hdrawn⟩

theorem ids_of_rows {store store' : AlertStore} {g : FraudAlert → FraudAlert}
    (hg : ∀ alert, (g alert).id = alert.id) (h : store'.alerts.rows = store.alerts.rows.map g) :
    ∀ alert ∈ store'.alerts, ∃ old ∈ store.alerts, alert.id = old.id := by
  intro alert halert
  rw [← Table.mem_rows, h, List.mem_map] at halert
  obtain ⟨old, hold, rfl⟩ := halert
  exact ⟨old, hold, hg old⟩

/-! ## Rows of evidence -/

theorem alertId_of_ruleEvidence {members : List LoadedDocument} {finding : FraudFinding} {id : UUID}
    {entry : EvidenceEntry} (h : entry ∈ ruleEvidence members finding id) : entry.alertId = id := by
  rw [ruleEvidence, List.mem_mapIdx] at h
  obtain ⟨position, hlt, rfl⟩ := h
  rfl

theorem alertId_of_referenceEvidence {members : List LoadedDocument} {finding : FraudFinding} {id : UUID}
    {store : AlertStore} {entry : EvidenceEntry} (h : entry ∈ referenceEvidence store members finding id) :
    entry.alertId = id := by
  unfold referenceEvidence at h
  split at h
  · exact absurd h List.not_mem_nil
  · obtain ⟨document, -, hentry⟩ := List.mem_filterMap.mp h
    obtain ⟨item, -, rfl⟩ := Option.map_eq_some_iff.mp hentry
    rfl

/-- The rows of the evidence of a finding belong to its alert. -/
theorem alertId_of_row {members : List LoadedDocument} {finding : FraudFinding} {id : UUID}
    {flushed : AlertStore} {row : FraudAlertEvidence} (h : row ∈ numberFrom 1 (ruleEvidence members finding id) ++
      numberFrom (flushed.nextEvidence id) (referenceEvidence flushed members finding id)) :
    row.alertId = id := by
  obtain h | h := List.mem_append.mp h
  · exact alertId_of_ruleEvidence (mem_numberFrom h)
  · exact alertId_of_referenceEvidence (mem_numberFrom h)

/-- The reference rows. -/
def isReference : AlertEvidence → Bool
  | .correlatedDocumentReference .. => true
  | _ => false

theorem mem_referenced {store : AlertStore} {alertId id : UUID} : id ∈ referenced store alertId ↔
    ∃ row ∈ store.evidence, row.alertId = alertId ∧ isReference row.evidence = true ∧
      row.documentId = some id := by
  unfold referenced evidenceOf
  simp only [List.mem_filterMap, mem_logOf, and_assoc]
  refine exists_congr fun row => and_congr_right fun _ => and_congr_right fun _ => ?_
  cases row.evidence <;> simp [isReference]

theorem referenced_addEvidence {store : AlertStore} {rows : List FraudAlertEvidence} {alertId id : UUID}
    (h : id ∈ referenced store alertId) : id ∈ referenced (store.addEvidence rows) alertId := by
  rw [mem_referenced] at h ⊢
  obtain ⟨row, hrow, hreference⟩ := h
  exact ⟨row, List.mem_append_left _ hrow, hreference⟩

/-! ## Persisting a finding -/

variable {t : Session}

/-- An alert that exists is opened again where its exclusion was the last thing
that happened to it. -/
theorem Advances.of_existing {store flushed : AlertStore} {alert : FraudAlert} (h : Drawn rt s)
    (hmem : alert ∈ s.store.alerts) (hevidence : Writes fmt uuidText isoformat none s.store store)
    (halerts : store.alerts = s.store.alerts) (hclosed : closedByExclusion store alert = true)
    (correlation : DocumentCorrelation) (finding : FraudFinding) (now : Timestamp) :
    Advances rt fmt uuidText isoformat s
      { s with
        store := reopenAlert fmt uuidText isoformat store flushed alert correlation finding now } := by
  have hmem' : alert ∈ store.alerts := halerts ▸ hmem
  refine Advances.of_writes h
    (hevidence.trans (Writes.of_reopenAlert correlation finding now hmem' hclosed)) ?_
  intro row hrow
  rw [alerts_reopenAlert] at hrow
  obtain rfl | ⟨hrow, -⟩ := (mem_setAlert hmem' (reopened_id alert)).mp hrow
  · exact ⟨alert, hmem, rfl⟩
  · exact ⟨row, halerts ▸ hrow, rfl⟩

/-- A new alert has an identifier no other has, and is the only one of its finding. -/
theorem Advances.of_new {alert : FraudAlert} {rows : List FraudAlertEvidence} {t : Transition}
    (h : Drawn rt s) (hid : alert.id = rt.uuid4 s.db.drawn) (ht : Opening alert t)
    (hnew : ∀ other ∈ s.store.alerts, ¬ SameFinding other alert ∧ ¬ SameIncident other alert)
    (hrows : ∀ row ∈ rows, row.alertId = alert.id) :
    Advances rt fmt uuidText isoformat s
      { db := { s.db with drawn := s.db.drawn + 1 }
        store := (insertAlert fmt uuidText isoformat s.store alert t).addEvidence rows } := by
  have hfresh : ∀ other ∈ s.store.alerts, other.id ≠ alert.id := by
    intro other hother heq
    obtain ⟨n, hn, hdrawn⟩ := h other hother
    exact absurd (rt.uuid4_injective (hdrawn.symm.trans (heq.trans hid))) (Nat.ne_of_lt hn)
  have hmem : alert ∈ (insertAlert fmt uuidText isoformat s.store alert t).alerts :=
    (mem_insertAlert hfresh).mpr (Or.inr rfl)
  have hinsert : Write fmt uuidText isoformat none s.store
      (insertAlert fmt uuidText isoformat s.store alert t) :=
    Write.insert s.store alert t hfresh ht (fun other hother => (hnew other hother).1)
      (fun other hother => (hnew other hother).2)
  refine ⟨Relation.ReflTransGen.head hinsert (Writes.of_evidence fun row hrow => ?_),
    Nat.le_succ _, rfl, ?_⟩
  · exact ⟨alert, hmem, (hrows row hrow).symm⟩
  · intro row hrow
    obtain hold | rfl := Table.mem_of_mem_insert hrow
    · obtain ⟨n, hn, hdrawn⟩ := h row hold
      exact ⟨n, Nat.lt_succ_of_lt hn, hdrawn⟩
    · exact ⟨s.db.drawn, Nat.lt_succ_self _, hid⟩

theorem advances_persistFinding (h : Drawn rt t.toState) (correlation : DocumentCorrelation)
    (members : List LoadedDocument) (finding : FraudFinding)
    (suppression : Option SuppressedFinding) :
    Advances rt fmt uuidText isoformat t.toState
      (persistFinding rt fmt uuidText isoformat t input correlation members finding
        suppression).toState := by
  unfold persistFinding
  cases input.ruleVersion finding.ruleCode with
  | none => exact Advances.refl h
  | some ruleVersion =>
    dsimp only
    cases hexisting : existingAlert t.store correlation finding with
    | some alert =>
      have hmem := (mem_of_existingAlert hexisting).1
      have hevidence : Writes fmt uuidText isoformat none t.store (t.store.addEvidence
          (numberFrom (t.flushed.nextEvidence alert.id)
            (referenceEvidence t.flushed members finding alert.id))) :=
        Writes.of_evidence fun row hrow =>
          ⟨alert, hmem, (alertId_of_referenceEvidence (mem_numberFrom hrow)).symm⟩
      dsimp only
      split
      · next hreopens =>
        rw [Bool.and_eq_true] at hreopens
        exact Advances.of_existing h hmem hevidence rfl hreopens.2 correlation finding _
      · exact Advances.of_writes h hevidence fun row hrow => ⟨row, hrow, rfl⟩
    | none =>
      refine Advances.of_new h rfl ⟨rfl, rfl, rfl, ?_, rfl, ?_⟩
        (fun other hother => new_of_existingAlert hexisting hother)
        (fun row hrow => alertId_of_row hrow)
      · cases suppression with
        | none => exact Or.inl ⟨rfl, rfl⟩
        | some suppressed => exact Or.inr ⟨rfl, rfl⟩
      · cases suppression <;> rfl

/-- What a finding leaves to be flushed. -/
theorem Behind.persistFinding (h : Behind t) {correlation : DocumentCorrelation}
    {members : List LoadedDocument} {finding : FraudFinding} {suppression : Option SuppressedFinding} :
    Behind (persistFinding rt fmt uuidText isoformat t input correlation members finding suppression) := by
  unfold Worker.persistFinding
  cases input.ruleVersion finding.ruleCode with
  | none => exact h
  | some ruleVersion =>
    dsimp only
    cases hexisting : existingAlert t.store correlation finding with
    | none =>
      exact ⟨fun row hrow => ⟨row, hrow, rfl, Or.inl rfl⟩, fun alertId id hid => referenced_addEvidence hid⟩
    | some alert =>
      have hmem := (mem_of_existingAlert hexisting).1
      dsimp only
      split
      · refine ⟨fun row hrow => ?_, fun alertId id hid =>
          referenced_addEvidence (referenced_addEvidence (h.references alertId id hid))⟩
        obtain rfl | ⟨hrow, -⟩ := (mem_setAlert hmem (reopened_id alert)).mp hrow
        · obtain ⟨old, hold, hid, hsame⟩ := h.rows alert hmem
          refine ⟨old, hold, hid, Or.inr ?_⟩
          obtain rfl | rfl := hsame <;> rfl
        · exact h.rows row hrow
      · exact ⟨h.rows, fun alertId id hid => referenced_addEvidence (h.references alertId id hid)⟩

/-! ## One run -/

theorem transactionId_of_candidate {fraudEngine : FraudEngine} {context : FraudContext}
    {candidates : List FraudFinding} (h : evaluateCandidates rt fraudEngine context = some candidates)
    {finding : FraudFinding} (hf : finding ∈ candidates) :
    finding.transactionId = context.transaction.transactionId := by
  obtain ⟨rule, -, -, hfinding⟩ := mem_evaluateCandidates h hf
  obtain ⟨data, -, rfl⟩ := Option.map_eq_some_iff.mp hfinding
  rfl

theorem transactionId_of_rederived {correlation : DocumentCorrelation} {members : List LoadedDocument}
    {transaction : CorrelatedTransaction}
    (h : rederived rt engine correlation members = some transaction) :
    transaction.transactionId = correlation.transactionId := by
  have hsame := List.find?_some h
  rw [Bool.and_eq_true, beq_iff_eq] at hsame
  exact hsame.1

/-- What every finding of a correlation keeps, its evaluation keeps. -/
theorem invariant_of_evaluateCorrelation {P : Session → Prop} {start : AlertStore}
    {correlations : List DocumentCorrelation} {loaded : List LoadedDocument}
    {correlation : DocumentCorrelation} {t' : Session}
    (hpersist : ∀ members transaction evaluation, currentMembers correlation loaded = some members →
      rederived rt engine correlation members = some transaction →
      evaluateWithSuppressions rt uuidText input.engine
        (contextOf start input correlations loaded correlation transaction) = some evaluation →
      ∀ finding suppression, finding.transactionId = correlation.transactionId →
        (suppression = none → finding ∈ evaluation.findings) → ∀ s, P s →
          P (persistFinding rt fmt uuidText isoformat s input correlation members finding suppression))
    (h : P t)
    (ht : evaluateCorrelation rt engine fmt uuidText isoformat input start correlations loaded t
      correlation = some t') : P t' := by
  unfold evaluateCorrelation at ht
  cases hmembers : currentMembers correlation loaded with
  | none =>
    simp only [hmembers, Option.some.injEq] at ht
    exact ht ▸ h
  | some members =>
    cases htransaction : rederived rt engine correlation members with
    | none =>
      simp only [hmembers, htransaction, Option.some.injEq] at ht
      exact ht ▸ h
    | some transaction =>
      simp only [hmembers, htransaction] at ht
      obtain ⟨evaluation, hevaluation, rfl⟩ := Option.map_eq_some_iff.mp ht
      have hstep := hpersist members transaction evaluation hmembers htransaction hevaluation
      obtain ⟨candidates, hcandidates, rfl⟩ := Option.map_eq_some_iff.mp hevaluation
      have hids : ∀ finding ∈ candidates, finding.transactionId = correlation.transactionId :=
        fun finding hfinding => (transactionId_of_candidate hcandidates hfinding).trans
          (transactionId_of_rederived htransaction)
      refine invariant_of_mem P (fun suppressed hsuppressed s hs => ?_) ?_
      · obtain ⟨finding, hfinding, hentry⟩ := List.mem_filterMap.mp hsuppressed
        obtain ⟨entry, -, rfl⟩ := Option.map_eq_some_iff.mp hentry
        exact hstep finding _ (hids finding hfinding) (fun hnone => absurd hnone (Option.some_ne_none _)) s hs
      · exact invariant_of_mem P (fun finding hfinding s hs => hstep finding none
          (hids finding (List.mem_of_mem_filter hfinding)) (fun _ => hfinding) s hs) h

theorem Behind.evaluateCorrelation {start : AlertStore} {correlations : List DocumentCorrelation}
    {loaded : List LoadedDocument} {correlation : DocumentCorrelation} {t' : Session} (h : Behind t)
    (ht : evaluateCorrelation rt engine fmt uuidText isoformat input start correlations loaded t
      correlation = some t') : Behind t' :=
  invariant_of_evaluateCorrelation (fun _ _ _ _ _ _ _ _ _ _ _ hs => hs.persistFinding) h ht

theorem advances_evaluateCorrelation {start : AlertStore} {correlations : List DocumentCorrelation}
    {loaded : List LoadedDocument} {correlation : DocumentCorrelation} {t' : Session}
    (h : Advances rt fmt uuidText isoformat s t.toState)
    (ht : evaluateCorrelation rt engine fmt uuidText isoformat input start correlations loaded t
      correlation = some t') : Advances rt fmt uuidText isoformat s t'.toState :=
  invariant_of_evaluateCorrelation (P := fun t => Advances rt fmt uuidText isoformat s t.toState)
    (fun members _ _ _ _ _ finding suppression _ _ _ hs =>
      hs.trans (advances_persistFinding hs.ids correlation members finding suppression)) h ht

/-- A session starts with everything flushed. -/
theorem behind_begin : Behind (begin rt fmt uuidText isoformat s input) :=
  ⟨fun row hrow => ⟨row, hrow, rfl, Or.inl rfl⟩, fun _ _ hid => hid⟩

theorem Advances.startOf (h : Drawn rt s) : Advances rt fmt uuidText isoformat s
    { s with store := startOf rt fmt uuidText isoformat s input } := by
  obtain ⟨hwrites, hrows⟩ := @reclassify_spec fmt uuidText isoformat s.store none rt s.db input.settings
    input.now
  refine Advances.of_writes h hwrites (ids_of_rows (fun alert => ?_) hrows)
  split
  · exact reclassified_id _ _ alert
  · rfl

/-- The session of a run that is committed, before what was superseded is resolved. -/
structure Evaluated (rt : Runtime) (engine : CorrelationEngine) (fmt : Codec)
    (uuidText : UUID → String) (isoformat : Timestamp → String) (s : State) (input : RunInput)
    (maxTransactions : Option Nat) (t : Session) : Prop where
  evaluated : (currentCorrelations s.db maxTransactions).foldlM
    (evaluateCorrelation rt engine fmt uuidText isoformat input
      (startOf rt fmt uuidText isoformat s input) (currentCorrelations s.db maxTransactions)
      (comparisonLoaded s.db maxTransactions)) (begin rt fmt uuidText isoformat s input) = some t
  behind : Behind t

theorem runOnce_eq_some {maxTransactions : Option Nat}
    (hs : runOnce rt engine fmt uuidText isoformat s input maxTransactions = some s') :
    ∃ t, Evaluated rt engine fmt uuidText isoformat s input maxTransactions t ∧
      s' = { db := t.db, store := resolveSupersededAlerts fmt uuidText isoformat t input.now } := by
  simp only [runOnce, Option.bind_eq_bind, Option.bind_eq_some_iff, Option.pure_def,
    Option.some.injEq] at hs
  obtain ⟨t, ht, rfl⟩ := hs
  exact ⟨t, ⟨ht, invariant_of_foldlM Behind (fun _ _ _ _ hs hb => hb.evaluateCorrelation hs)
    behind_begin ht⟩, rfl⟩

theorem Evaluated.advances {maxTransactions : Option Nat} (h : Drawn rt s)
    (ht : Evaluated rt engine fmt uuidText isoformat s input maxTransactions t) :
    Advances rt fmt uuidText isoformat s t.toState :=
  invariant_of_foldlM (fun t : Session => Advances rt fmt uuidText isoformat s t.toState)
    (fun _ _ _ _ hs ha => advances_evaluateCorrelation ha hs) (Advances.startOf h) ht.evaluated

/-- A run that is committed only draws identifiers and writes alerts. -/
theorem advances_runOnce {maxTransactions : Option Nat} (h : Drawn rt s)
    (hs : runOnce rt engine fmt uuidText isoformat s input maxTransactions = some s') :
    Advances rt fmt uuidText isoformat s s' := by
  obtain ⟨t, ht, rfl⟩ := runOnce_eq_some hs
  have hadvances := ht.advances h
  obtain ⟨hresolved, hrows⟩ := @resolveSuperseded_spec fmt uuidText isoformat none t ht.behind input.now
  refine hadvances.trans (Advances.of_writes hadvances.ids hresolved
    (ids_of_rows (fun alert => ?_) hrows))
  split
  · exact resolved_id _ _ alert
  · rfl

end

end RetailPrintGuard.Fraud.AlertWriters
