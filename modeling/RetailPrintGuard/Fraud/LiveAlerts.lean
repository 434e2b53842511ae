import RetailPrintGuard.Correlation.Current
import RetailPrintGuard.Fraud.AlertRuns

/-! # What live alerts rest on

A run opens and reopens alerts only for what its rules find in the current
evidence of an active correlation. -/
namespace RetailPrintGuard.Fraud.LiveAlerts
open RetailPrintGuard.Common.Python RetailPrintGuard.Common.Domain
open RetailPrintGuard.Common.Formats (Codec)
open RetailPrintGuard.Correlation.Scoring RetailPrintGuard.Correlation.Engine
open RetailPrintGuard.Correlation.Acceptance
open RetailPrintGuard.Correlation.CandidateBatch RetailPrintGuard.Correlation.Loading
open RetailPrintGuard.Correlation.Worker RetailPrintGuard.Correlation.Current
open RetailPrintGuard.Db.Models RetailPrintGuard.Fraud.Findings RetailPrintGuard.Fraud.Evaluation
open RetailPrintGuard.Fraud.Alerts RetailPrintGuard.Fraud.Alerts.AlertStore
open RetailPrintGuard.Fraud.FalsePositives RetailPrintGuard.Fraud.Worker RetailPrintGuard.Fraud.AlertWrites
open RetailPrintGuard.Fraud.AlertWriters RetailPrintGuard.Fraud.AlertRuns
open RetailPrintGuard.Library RetailPrintGuard.Library.KeyedLog RetailPrintGuard.Library.Runs

variable {rt : Runtime} {engine : CorrelationEngine}
variable {fmt : Codec} {uuidText : UUID → String} {isoformat : Timestamp → String}
variable {db : Database} {correlation : DocumentCorrelation}

/-! ## The evidence of a run -/

theorem mem_currentCorrelations {limit : Option Nat} (h : correlation ∈ currentCorrelations db limit) :
    correlation ∈ db.correlations ∧ correlation.algorithmVersion = algorithmVersion ∧
      correlation.active = true := by
  rw [currentCorrelations, List.mem_reverse] at h
  have hrows := List.pwFilter_subset _ h
  rw [List.mem_reverse] at hrows
  have hsorted : correlation ∈ (db.correlations.rows.filter fun row =>
      row.algorithmVersion == algorithmVersion && row.active).insertionSort CreatedAfter := by
    cases limit with
    | none => exact hrows
    | some n => exact List.mem_of_mem_take hrows
  rw [List.mem_insertionSort, List.mem_filter, Bool.and_eq_true, beq_iff_eq] at hsorted
  exact hsorted

theorem map_filterMap_eq {α β : Type} {f : α → Option β} {g : β → α} {l : List α}
    (h : ∀ a ∈ l, ∃ b, f a = some b ∧ g b = a) : (l.filterMap f).map g = l := by
  induction l with
  | nil => rfl
  | cons a l ih =>
    obtain ⟨b, hf, hg⟩ := h a List.mem_cons_self
    rw [List.filterMap_cons_some hf, List.map_cons, hg, ih fun c hc => h c (List.mem_cons_of_mem _ hc)]

/-- The loaded documents of a correlation. -/
def membersOf (correlation : DocumentCorrelation) (loaded : List LoadedDocument) :
    List LoadedDocument :=
  correlation.memberIds.dedup.filterMap fun id => loaded.find? fun item => item.value.id == id

/-- Every member is loaded from its row. -/
def AllFound (db : Database) (correlation : DocumentCorrelation) (loaded : List LoadedDocument) : Prop :=
  ∀ id ∈ correlation.memberIds.dedup, ∃ row ∈ documentQuery db,
    loaded.find? (fun item => item.value.id == id) = some row.load ∧ row.document.id = id

variable {ids : List UUID} {members : List LoadedDocument}

theorem currentMembers_spec
    (h : currentMembers correlation (loadLatestDocuments db ids) = some members) :
    members = membersOf correlation (loadLatestDocuments db ids) ∧
      AllFound db correlation (loadLatestDocuments db ids) ∧
      correlationInputFingerprint (members.map (·.value)) members = correlation.inputFingerprint := by
  unfold currentMembers at h
  dsimp only at h
  split at h
  · cases h
  · next hlength =>
    split at h
    · cases h
    · next hfingerprint =>
      obtain rfl := Option.some.inj h
      rw [not_not] at hlength hfingerprint
      refine ⟨rfl, fun id hid => ?_, hfingerprint⟩
      rw [List.filterMap_length_eq_length] at hlength
      obtain ⟨item, hitem⟩ := Option.isSome_iff_exists.mp (hlength id hid)
      obtain ⟨row, hrow, -, rfl⟩ := mem_loadLatestDocuments.mp (List.mem_of_find?_eq_some hitem)
      exact ⟨row, hrow, hitem, by simpa using List.find?_some hitem⟩

theorem AllFound.mem_iff (h : AllFound db correlation (loadLatestDocuments db ids)) (item : LoadedDocument) :
    item ∈ membersOf correlation (loadLatestDocuments db ids) ↔
      item ∈ loadLatestDocuments db correlation.memberIds := by
  rw [membersOf, List.mem_filterMap, mem_loadLatestDocuments]
  constructor
  · intro hm
    obtain ⟨id, hid, hitem⟩ := hm
    obtain ⟨row, hrow, hfound, rfl⟩ := h id hid
    obtain rfl := Option.some.inj (hfound.symm.trans hitem)
    exact ⟨row, hrow, List.mem_dedup.mp hid, rfl⟩
  · intro hm
    obtain ⟨row, hrow, hid, rfl⟩ := hm
    obtain ⟨other, hother, hfound, hotherId⟩ := h _ (List.mem_dedup.mpr hid)
    cases eq_of_documentId hother hrow hotherId
    exact ⟨row.document.id, List.mem_dedup.mpr hid, hfound⟩

theorem AllFound.nodup (h : AllFound db correlation (loadLatestDocuments db ids)) :
    ((membersOf correlation (loadLatestDocuments db ids)).map fun item => item.value.id).Nodup := by
  have hids : (membersOf correlation (loadLatestDocuments db ids)).map (fun item => item.value.id) =
      correlation.memberIds.dedup :=
    map_filterMap_eq fun id hid => by
      obtain ⟨row, -, hfound, hrowId⟩ := h id hid
      exact ⟨row.load, hfound, hrowId⟩
  rw [hids]
  exact List.nodup_dedup _

/-- Members loaded with others are those the correlation loads alone, and it is current. -/
theorem mem_currentMembers
    (h : currentMembers correlation (loadLatestDocuments db ids) = some members) :
    CurrentInput db correlation ∧
      ∀ item, item ∈ members ↔ item ∈ loadLatestDocuments db correlation.memberIds := by
  obtain ⟨rfl, hfound, hfingerprint⟩ := currentMembers_spec h
  refine ⟨⟨allLoaded_iff.mpr fun id hid => ?_, ?_⟩, hfound.mem_iff⟩
  · obtain ⟨row, hrow, -, hrowId⟩ := hfound id (List.mem_dedup.mpr hid)
    exact ⟨row, hrow, hrowId⟩
  · rw [← hfingerprint, currentFingerprint]
    refine fingerprint_congr ?_ ?_ (fun document => ?_) fun document hdocument => ?_
    · rw [DistinctIds, List.map_map]
      exact nodup_loadLatestDocuments _
    · rw [DistinctIds, List.map_map]
      exact hfound.nodup
    · simp only [List.mem_map, hfound.mem_iff]
    · obtain ⟨item, hitem, rfl⟩ := List.mem_map.mp hdocument
      rw [inputEvidence_of_mem (nodup_loadLatestDocuments _) hitem rfl,
        inputEvidence_of_mem hfound.nodup ((hfound.mem_iff item).mpr hitem) rfl]

/-! ## What a finding does to the alerts -/

variable {s : Session} {input : RunInput} {finding : FraudFinding}
variable {suppression : Option SuppressedFinding}

/-- A finding leaves the alerts alone, reopens one, or adds one and flushes it. -/
theorem alerts_persistFinding :
    ((persistFinding rt fmt uuidText isoformat s input correlation members finding
        suppression).store.alerts = s.store.alerts ∧
      (persistFinding rt fmt uuidText isoformat s input correlation members finding
        suppression).flushed = s.flushed) ∨
    (∃ existing, existingAlert s.store correlation finding = some existing ∧ suppression = none ∧
      (persistFinding rt fmt uuidText isoformat s input correlation members finding
        suppression).store.alerts = (s.store.setAlert (reopened existing)).alerts ∧
      (persistFinding rt fmt uuidText isoformat s input correlation members finding
        suppression).flushed = s.flushed) ∨
    ∃ ruleVersion, input.ruleVersion finding.ruleCode = some ruleVersion ∧
      existingAlert s.store correlation finding = none ∧
      (persistFinding rt fmt uuidText isoformat s input correlation members finding
        suppression).store.alerts = s.store.alerts.insert (newAlert uuidText (rt.uuid4 s.db.drawn)
          ruleVersion correlation finding members suppression) ∧
      (persistFinding rt fmt uuidText isoformat s input correlation members finding
        suppression).flushed.alerts = s.store.alerts.insert (newAlert uuidText (rt.uuid4 s.db.drawn)
          ruleVersion correlation finding members suppression) := by
  unfold persistFinding
  cases hversion : input.ruleVersion finding.ruleCode with
  | none => exact Or.inl ⟨rfl, rfl⟩
  | some ruleVersion =>
    dsimp only
    cases hexisting : existingAlert s.store correlation finding with
    | none => exact Or.inr (Or.inr ⟨ruleVersion, rfl, rfl, rfl, rfl⟩)
    | some existing =>
      dsimp only
      split
      · next hreopens =>
        rw [Bool.and_eq_true] at hreopens
        exact Or.inr (Or.inl ⟨existing, rfl, Option.isNone_iff_eq_none.mp hreopens.1, rfl, rfl⟩)
      · exact Or.inl ⟨rfl, rfl⟩

/-! ## One run -/

section
variable (rt : Runtime) (engine : CorrelationEngine) (fmt : Codec) (uuidText : UUID → String)
variable (isoformat : Timestamp → String)

/-- What a rule of the run makes of a correlation: the context is that of the run. -/
def Found (s : State) (input : RunInput) (limit : Option Nat) (correlation : DocumentCorrelation)
    (finding : FraudFinding) : Prop :=
  ∃ members transaction evaluation,
    (∀ item, item ∈ members ↔ item ∈ loadLatestDocuments s.db correlation.memberIds) ∧
      rederived rt engine correlation members = some transaction ∧
      evaluateWithSuppressions rt uuidText input.engine
        (contextOf (startOf rt fmt uuidText isoformat s input) input (currentCorrelations s.db limit)
          (comparisonLoaded s.db limit) correlation transaction) = some evaluation ∧
      finding ∈ evaluation.findings

/-- A finding of a rule in the current evidence of an active correlation. -/
structure Evident (s : State) (input : RunInput) (limit : Option Nat)
    (correlation : DocumentCorrelation) (finding : FraudFinding) : Prop where
  mem : correlation ∈ s.db.correlations
  active : correlation.active = true
  current : CurrentInput s.db correlation
  found : Found rt engine fmt uuidText isoformat s input limit correlation finding

/-- The alert is the one a run finds for the finding. -/
def Reports (correlation : DocumentCorrelation) (finding : FraudFinding) (alert : FraudAlert) : Prop :=
  sameFinding correlation finding alert = true ∨ sameIncident correlation finding alert = true

/-- The live alerts were live before, or report what the rules find now. -/
def Explained (s : State) (input : RunInput) (limit : Option Nat) (store : AlertStore) : Prop :=
  ∀ alert ∈ store.alerts, alert.status.operational = true →
    (∃ old ∈ s.store.alerts, old.id = alert.id ∧ old.status.operational = true) ∨
      ∃ correlation finding,
        Evident rt engine fmt uuidText isoformat s input limit correlation finding ∧
          Reports correlation finding alert

end

variable {start : State} {current s' : Session} {store : AlertStore} {limit : Option Nat}

/-- Rewriting rows without making one live explains as much. -/
theorem Explained.of_rows {g : FraudAlert → FraudAlert}
    (h : Explained rt engine fmt uuidText isoformat start input limit store)
    {store' : AlertStore} (hrows : store'.alerts.rows = store.alerts.rows.map g)
    (hg : ∀ alert, (g alert).status.operational = true → g alert = alert) :
    Explained rt engine fmt uuidText isoformat start input limit store' := by
  intro alert halert hlive
  rw [← Table.mem_rows, hrows, List.mem_map] at halert
  obtain ⟨old, hold, rfl⟩ := halert
  have hsame := hg old hlive
  rw [hsame] at hlive ⊢
  exact h old hold hlive

theorem Explained.persistFinding (suppression : Option SuppressedFinding)
    (h : Explained rt engine fmt uuidText isoformat start input limit current.store)
    (hfinding : suppression = none →
      Evident rt engine fmt uuidText isoformat start input limit correlation finding) :
    Explained rt engine fmt uuidText isoformat start input limit
      (persistFinding rt fmt uuidText isoformat current input correlation members finding
        suppression).store := by
  intro alert halert hlive
  obtain ⟨hsame, -⟩ | ⟨existing, hexisting, hnone, hset, -⟩ | ⟨ruleVersion, -, -, hinsert, -⟩ :=
    @alerts_persistFinding rt fmt uuidText isoformat correlation members current input finding
      suppression
  · rw [hsame] at halert
    exact h alert halert hlive
  · obtain ⟨hmem, hreports⟩ := mem_of_existingAlert hexisting
    rw [hset] at halert
    obtain rfl | ⟨hold, -⟩ := (mem_setAlert hmem (reopened_id existing)).mp halert
    · exact Or.inr ⟨correlation, finding, hfinding hnone, hreports⟩
    · exact h alert hold hlive
  · rw [hinsert] at halert
    obtain hold | rfl := Table.mem_of_mem_insert halert
    · exact h alert hold hlive
    · cases suppression with
      | none =>
        refine Or.inr ⟨correlation, finding, hfinding rfl, Or.inl ?_⟩
        simp [sameFinding, newAlert]
      | some suppressed => cases hlive

theorem Explained.evaluateCorrelation
    (h : Explained rt engine fmt uuidText isoformat start input limit current.store)
    (hmem : correlation ∈ start.db.correlations) (hactive : correlation.active = true)
    (hs : evaluateCorrelation rt engine fmt uuidText isoformat input
      (startOf rt fmt uuidText isoformat start input) (currentCorrelations start.db limit)
      (comparisonLoaded start.db limit) current correlation = some s') :
    Explained rt engine fmt uuidText isoformat start input limit s'.store := by
  refine invariant_of_evaluateCorrelation (P := fun s : Session =>
    Explained rt engine fmt uuidText isoformat start input limit s.store)
    (fun members transaction evaluation hmembers htransaction hevaluation finding suppression _ hfinding
      s hs => hs.persistFinding suppression fun hnone => ?_) h hs
  -- suppressed findings open nothing
  obtain ⟨hcurrent, hload⟩ := mem_currentMembers hmembers
  exact ⟨hmem, hactive, hcurrent, members, transaction, evaluation, hload, htransaction, hevaluation,
    hfinding hnone⟩

/-- **A live alert has a reason.** After a run an alert is live only where it was
live before, or where a rule finds it in the current evidence of an active
correlation, derived again from exactly that evidence. -/
theorem live_alerts_explained (rt : Runtime) (engine : CorrelationEngine) (fmt : Codec)
    (uuidText : UUID → String) (isoformat : Timestamp → String) (s : State) (input : RunInput)
    (maxTransactions : Option Nat) (s' : State)
    (hs : Worker.runOnce rt engine fmt uuidText isoformat s input maxTransactions = some s') :
    Explained rt engine fmt uuidText isoformat s input maxTransactions s'.store := by
  obtain ⟨t, ht, rfl⟩ := runOnce_eq_some hs
  obtain ⟨-, hrows⟩ := @reclassify_spec fmt uuidText isoformat s.store none rt s.db input.settings
    input.now
  have hstart : Explained rt engine fmt uuidText isoformat s input maxTransactions
      (startOf rt fmt uuidText isoformat s input) := by
    have hbefore : Explained rt engine fmt uuidText isoformat s input maxTransactions s.store :=
      fun alert halert hlive => Or.inl ⟨alert, halert, rfl, hlive⟩
    refine hbefore.of_rows hrows fun alert hlive => ?_
    split at hlive
    · rw [if_pos ‹_›]
      exact reclassified_of_live hlive
    · exact if_neg ‹_›
  have hrun := invariant_of_foldlM (fun t : Session =>
    Explained rt engine fmt uuidText isoformat s input maxTransactions t.store)
    (fun correlation hmem _ _ hs he => he.evaluateCorrelation (mem_currentCorrelations hmem).1
      (mem_currentCorrelations hmem).2.2 hs) hstart ht.evaluated
  obtain ⟨-, hrows⟩ := @resolveSuperseded_spec fmt uuidText isoformat none t ht.behind input.now
  refine hrun.of_rows hrows fun alert hlive => ?_
  split at hlive
  · rw [if_pos ‹_›]
    exact resolved_of_live hlive
  · exact if_neg ‹_›

/-- The state the first run of the example finds. -/
noncomputable def openTable : State := sampleRun (openTableSteps.take 3)

theorem openTable_evaluated : (Worker.runOnce asciiRuntime standardEngine Common.Runtime.runtime
    toString (fun time => toString time.micros) openTable closeRun none).isSome = true := by
  decide +kernel

noncomputable def evaluatedTable : State := Option.get _ openTable_evaluated

theorem openTable_explained : Explained asciiRuntime standardEngine Common.Runtime.runtime toString
    (fun time => toString time.micros) openTable closeRun none evaluatedTable.store :=
  live_alerts_explained asciiRuntime standardEngine Common.Runtime.runtime toString
    (fun time => toString time.micros) openTable closeRun none evaluatedTable
    (Option.some_get openTable_evaluated).symm

end RetailPrintGuard.Fraud.LiveAlerts
