import Mathlib.Data.List.Find
import RetailPrintGuard.Fraud.Calls

/-! # Polling

The worker runs again and again. As long as no deadline passes, runs over the
same evidence come to rest. -/
namespace RetailPrintGuard.Fraud.Polling
open RetailPrintGuard.Common.Python RetailPrintGuard.Common.Domain
open RetailPrintGuard.Common.Formats (Codec)
open RetailPrintGuard.Correlation.Scoring RetailPrintGuard.Correlation.Engine
open RetailPrintGuard.Correlation.CandidateBatch RetailPrintGuard.Correlation.Loading
open RetailPrintGuard.Correlation.Partition RetailPrintGuard.Correlation.Acceptance
open RetailPrintGuard.Db.Models RetailPrintGuard.Fraud.Findings RetailPrintGuard.Fraud.Evaluation
open RetailPrintGuard.Fraud.Rules
open RetailPrintGuard.Fraud.Alerts RetailPrintGuard.Fraud.Alerts.AlertStore
open RetailPrintGuard.Fraud.Worker RetailPrintGuard.Fraud.AlertWrites
open RetailPrintGuard.Fraud.AlertWriters RetailPrintGuard.Fraud.AlertRuns
open RetailPrintGuard.Fraud.LiveAlerts RetailPrintGuard.Fraud.ExcludedJobs
open RetailPrintGuard.Fraud.Superseded
open RetailPrintGuard.Fraud.FalsePositives RetailPrintGuard.Fraud.Calls
open RetailPrintGuard.Library RetailPrintGuard.Library.KeyedLog RetailPrintGuard.Library.Runs
open RetailPrintGuard.Library.Settling

variable {rt : Runtime} {engine : CorrelationEngine}
variable {fmt : Codec} {uuidText : UUID → String} {isoformat : Timestamp → String}
variable {s s' : State} {t : Session} {store store' start start' flushed : AlertStore}
variable {input first later : RunInput}
variable {call : Call} {db : Database} {limit : Option Nat}

/-! ## Resolving what was superseded -/

theorem latestHistory_addHistory (t : Transition) :
    (store.addHistory fmt uuidText isoformat t).latestHistory t.alertId =
      some (nextRow fmt uuidText isoformat store t) := by
  have hlog : (store.addHistory fmt uuidText isoformat t).historyOf t.alertId =
      store.historyOf t.alertId ++ [nextRow fmt uuidText isoformat store t] :=
    logOf_concat_self store.history (nextRow fmt uuidText isoformat store t)
  rw [latestHistory, hlog]
  exact latest_concat rfl

/-- A closure can only be undone where it was the exclusion of a job. -/
theorem closedByExclusion_closeAlert {alert changed : FraudAlert} {reason : String} {now : Timestamp}
    {status : AlertStatus} {evidence : AlertEvidence} (hid : changed.id = alert.id) :
    closedByExclusion (store.closeAlert fmt uuidText isoformat flushed alert status .autoSuperseded none reason
      now none evidence) changed = false := by
  have hlatest := fun current : AlertStore => @latestHistory_addHistory fmt uuidText isoformat current
    { alertId := alert.id
      event := .autoSuperseded
      previousStatus := some alert.status
      newStatus := status
      reason := some reason
      occurredAt := now }
  unfold closedByExclusion closeAlert
  rw [hid, hlatest, Option.any_some]
  exact Bool.and_false _

/-- What resolving leaves as it is: the alerts that can be reopened, and the references. -/
structure Leaves (store store' : AlertStore) : Prop where
  reopenable : ∀ alert ∈ store'.alerts, closedByExclusion store' alert = true →
    alert ∈ store.alerts ∧ closedByExclusion store alert = true
  referenced : ∀ alertId id, id ∈ referenced store' alertId ↔ id ∈ referenced store alertId

theorem Leaves.closeAlert (h : Leaves store store') {alert : FraudAlert} {reason : String}
    {now : Timestamp} {evidence : AlertEvidence} (hevidence : isReference evidence = false) :
    Leaves store (store'.closeAlert fmt uuidText isoformat flushed alert .justified .autoSuperseded none reason
      now none evidence) := by
  constructor
  · intro row hrow hclosed
    rw [← Table.mem_rows, alerts_closeAlert, rows_setAlert, List.mem_map] at hrow
    obtain ⟨old, hold, rfl⟩ := hrow
    by_cases hid : old.id = alert.id
    · rw [if_pos hid, closedByExclusion_closeAlert (by rfl)] at hclosed
      cases hclosed
    · rw [if_neg hid] at hclosed ⊢
      refine h.reopenable old hold ?_
      have hhistory : (store'.closeAlert fmt uuidText isoformat flushed alert .justified .autoSuperseded
          none reason now none evidence).historyOf old.id = store'.historyOf old.id :=
        logOf_concat_of_ne (Ne.symm hid)
      unfold closedByExclusion latestHistory at hclosed ⊢
      rw [hhistory] at hclosed
      exact hclosed
  · intro alertId id
    exact (@mem_referenced_other (store'.setAlert _) _ _ _ _ hevidence).trans
      (h.referenced alertId id)

theorem leaves_resolve (now : Timestamp) :
    Leaves t.store (resolveSupersededAlerts fmt uuidText isoformat t now) := by
  refine invariant_of_mem (Leaves t.store) (fun alert _ current hcurrent => ?_)
    ⟨fun _ hmem hclosed => ⟨hmem, hclosed⟩, fun _ _ => Iff.rfl⟩
  unfold resolveAlert
  cases t.db.correlations.find alert.correlationId with
  | none => exact hcurrent
  | some old =>
    dsimp only
    split
    · exact hcurrent
    · exact hcurrent.closeAlert rfl

/-- Resolving takes no finding its alert. -/
theorem handled_resolve (hbehind : Behind t) (h : Handled input t.store call) (now : Timestamp) :
    Handled input (resolveSupersededAlerts fmt uuidText isoformat t now) call := by
  obtain hnone | ⟨existing, hexisting, hclosed, hevidence⟩ := h
  · exact Or.inl hnone
  · have hleaves := @leaves_resolve fmt uuidText isoformat t now
    have hrows := (@resolveSuperseded_spec fmt uuidText isoformat none t hbehind now).2
    have hsame : ∀ alert, SameAlert alert
        (if staleRow t.db t.flushed alert then resolved t.db now alert else alert) := by
      intro alert
      split
      · exact sameAlert_resolved t.db now alert
      · exact SameAlert.refl alert
    have hfound : existingAlert _ call.correlation call.finding = _ :=
      existingAlert_of_rows (fun alert _ => hsame alert) hrows call.finding
    rw [hexisting, Option.map_some] at hfound
    refine Or.inr ⟨_, hfound, ?_, ?_⟩
    · cases hsuppression : call.suppression.isNone with
      | false => rfl
      | true =>
        rw [hsuppression, Bool.true_and] at hclosed
        rw [Bool.true_and, ← Bool.not_eq_true]
        intro hreopens
        obtain ⟨hmem, hbefore⟩ := hleaves.reopenable _ (mem_of_existingAlert hfound).1 hreopens
        have heq := Table.eq_of_key hmem (mem_of_existingAlert hexisting).1 (hsame existing).id_eq
        rw [heq, hclosed] at hbefore
        cases hbefore
    · rw [(hsame existing).id_eq, ← hevidence]
      exact referenceEvidence_congr (hleaves.referenced existing.id)

/-- A stale alert that a run has left live has nothing to be replaced by. -/
theorem find_of_stale (h : NoneSuperseded s) {alert : FraudAlert} (hmem : alert ∈ s.store.alerts)
    (hstale : staleAlert s.db alert = true) : ∃ old,
      s.db.correlations.find alert.correlationId = some old ∧ replacements s.db old = [] ∧
        retiredAsNonSale s.db old = false := by
  rw [staleAlert, Bool.and_eq_true] at hstale
  cases hfind : s.db.correlations.find alert.correlationId with
  | none => simp [hfind] at hstale
  | some old =>
    obtain ⟨hold, hid⟩ := Table.find_eq_some.mp hfind
    have hactive : old.active = false := by simpa [hfind] using hstale.2
    exact ⟨old, rfl, h alert hmem hstale.1 old hold hid hactive⟩

theorem resolved_of_noneSuperseded (h : NoneSuperseded s) {alert : FraudAlert}
    (hmem : alert ∈ s.store.alerts) (now : Timestamp) (hstale : staleAlert s.db alert = true) :
    resolved s.db now alert = alert := by
  obtain ⟨old, hfind, hnone, hretired⟩ := find_of_stale h hmem hstale
  simp [resolved, hfind, hnone, hretired]

/-- The session of a state, in which nothing waits to be flushed. -/
def opened (s : State) : Session := { s with flushed := s.store }

/-- Where a run has resolved everything, resolving again changes nothing. -/
theorem resolve_of_noneSuperseded (h : NoneSuperseded s) (now : Timestamp) :
    resolveSupersededAlerts fmt uuidText isoformat (opened s) now = s.store := by
  refine invariant_of_mem (· = s.store) (fun alert halert current hcurrent => ?_) rfl
  obtain ⟨hmem, hstale⟩ := mem_selected.mp halert
  have hrow : s.store.alerts.find alert.id = some alert := Table.find_eq_some.mpr ⟨hmem, rfl⟩
  have hlive : staleAlert s.db alert = true := by simpa [staleRow, opened, hrow] using hstale
  obtain ⟨old, hfind, hnone, hretired⟩ := find_of_stale h hmem hlive
  simp [resolveAlert, opened, hfind, hnone, hretired, hcurrent]

/-- An alert that was flushed as one of a superseded correlation still is one. -/
theorem stale_of_staleRow (hbehind : Behind t) {alert : FraudAlert} (hmem : alert ∈ t.store.alerts)
    (h : staleRow t.db t.flushed alert = true) : staleAlert t.db alert = true := by
  have hlive := hbehind.live hmem h
  obtain ⟨row, hrow, hid, hsame⟩ := hbehind.rows alert hmem
  have hfind : t.flushed.alerts.find alert.id = some row := Table.find_eq_some.mpr ⟨hrow, hid⟩
  rw [staleRow, hfind, Option.any_some, staleAlert, Bool.and_eq_true] at h
  have hcorrelation : alert.correlationId = row.correlationId := by
    obtain rfl | rfl := hsame <;> rfl
  rw [staleAlert, hlive, hcorrelation, h.2]
  rfl

/-! ## Alerts of earlier engines -/

/-- The rule version is one whose alerts a run looks at. -/
def earlier (version : FraudRuleVersion) : Bool := earlierEngines.contains version.implementationVersion

/-- No alert is of an earlier engine. -/
def NoneEarlier (store : AlertStore) : Prop :=
  ∀ alert ∈ store.alerts, earlier alert.ruleVersion = false

/-- No rule of the run is of an earlier engine. -/
def CurrentRules (input : RunInput) : Prop := ∀ row ∈ input.ruleRows, earlier row.2 = false

/-- Where no alert is of an earlier engine, nothing is reclassified. -/
theorem startOf_of_noneEarlier (h : NoneEarlier s.store) :
    startOf rt fmt uuidText isoformat s input = s.store := by
  refine invariant_of_mem (· = s.store) (fun alert halert current _ => ?_) rfl
  obtain ⟨hmem, hcandidate⟩ := mem_selected.mp halert
  rw [candidate, Bool.and_eq_true] at hcandidate
  have hearlier : earlier alert.ruleVersion = true := hcandidate.2
  rw [h alert hmem] at hearlier
  cases hearlier

theorem begin_of_noneEarlier (h : NoneEarlier s.store) :
    begin rt fmt uuidText isoformat s input = opened s := by
  rw [begin, startOf_of_noneEarlier h]
  rfl

theorem earlier_of_ruleVersion {code : RuleCode} {ruleVersion : FraudRuleVersion}
    (h : CurrentRules input) (hversion : input.ruleVersion code = some ruleVersion) :
    earlier ruleVersion = false := by
  obtain ⟨row, hfind, rfl⟩ := Option.map_eq_some_iff.mp hversion
  exact h row (List.mem_of_find?_eq_some hfind)

theorem NoneEarlier.of_same (h : NoneEarlier store)
    (hsame : ∀ alert ∈ store'.alerts, ∃ old ∈ store.alerts, SameAlert old alert) :
    NoneEarlier store' := by
  intro alert halert
  obtain ⟨old, hold, hchanged⟩ := hsame alert halert
  rw [hchanged]
  exact h old hold

theorem NoneEarlier.persist (hcurrent : CurrentRules input) (hdrawn : Drawn rt t.toState)
    (h : NoneEarlier t.store) : NoneEarlier (persist rt uuidText fmt isoformat input t call).store := by
  obtain ⟨hsame, -⟩ | ⟨existing, hexisting, -, hset, -⟩ | ⟨ruleVersion, hversion, -, hinsert, -⟩ :=
    @alerts_persistFinding rt fmt uuidText isoformat call.correlation call.members t input call.finding
      call.suppression
  · exact fun alert halert => h alert (hsame ▸ halert)
  · have hmem := (mem_of_existingAlert hexisting).1
    intro alert halert
    have hmem' : alert ∈ (t.store.setAlert (reopened existing)).alerts := hset ▸ halert
    obtain rfl | ⟨hold, -⟩ := (mem_setAlert hmem (reopened_id existing)).mp hmem'
    · exact h existing hmem
    · exact h alert hold
  · intro alert halert
    have hmem' : alert ∈ t.store.alerts.insert _ := hinsert ▸ halert
    obtain hold | rfl := (Table.mem_insert (fresh_of_drawn hdrawn)).mp hmem'
    · exact h alert hold
    · exact earlier_of_ruleVersion hcurrent hversion

/-! ## Times between which no deadline passes -/

/-- The entry is in force at the time. -/
def inForce (time : Timestamp) (entry : WhitelistEntry) : Bool :=
  !(time.micros < entry.validFrom.micros ||
    entry.validUntil.any (fun until_ => until_.micros < time.micros))

/-- The document has waited for its close as long as the rule allows. -/
def overdue (time : Timestamp) (rule : RuleDefinition) (document : NormalizedDocument) : Bool :=
  decide (minutes (rule.parameter "close_minutes" ⟨1200000, "120"⟩).whole ≤
    time.micros - document.documentTime.micros)

/-- A run with the same settings, at a time by which no whitelist entry has
started or ended and no document has become overdue. -/
structure Alike (db : Database) (first later : RunInput) : Prop where
  rules : later.ruleRows = first.ruleRows
  whitelist : later.whitelistEntries = first.whitelistEntries
  events : later.orderEvents = first.orderEvents
  inForce : ∀ entry ∈ first.whitelistEntries, inForce later.now entry = inForce first.now entry
  overdue : ∀ rule ∈ first.engine.rules, rule.code = .orderWithoutFiscalClose →
    ∀ row ∈ documentQuery db, overdue later.now rule row.value = overdue first.now rule row.value

theorem Alike.engine_eq (h : Alike db first later) : later.engine = first.engine := by
  simp only [RunInput.engine, h.rules]

theorem Alike.currentRules (h : Alike db first later) (hrules : CurrentRules first) :
    CurrentRules later := by
  unfold CurrentRules
  rw [h.rules]
  exact hrules

theorem Alike.ruleVersion_eq (h : Alike db first later) : later.ruleVersion = first.ruleVersion := by
  funext code
  rw [RunInput.ruleVersion, h.rules, RunInput.ruleVersion]

/-- The context of one run in another, but for the clock and the operators. -/
def laterContext (context : FraudContext) (stats : Option OperatorPatternStats) (time : Timestamp) :
    FraudContext :=
  { context with operatorStats := stats, evaluatedAt := time }

section
variable {context : FraudContext} {stats : Option OperatorPatternStats} {time : Timestamp}
variable {rule : RuleDefinition} {finding : FraudFinding}

theorem latestTime_mem {times : List Timestamp} {latest : Timestamp} (h : latestTime times = some latest) :
    latest ∈ times := by
  cases times with
  | nil => cases h
  | cons time times =>
    obtain rfl := Option.some.inj h
    refine invariant_of_mem (· ∈ time :: times) (fun next hnext best hbest => ?_) List.mem_cons_self
    split
    · exact List.mem_cons_of_mem _ hnext
    · exact hbest

/-- A rule says the same later, where its deadlines have not passed and it is not
about operators that others were found at in between. -/
theorem handler_later_eq (hstats : rule.code = .unusualOperatorPattern → stats = context.operatorStats)
    (hoverdue : rule.code = .orderWithoutFiscalClose → ∀ document ∈ context.transaction.documents,
      overdue time rule document = overdue context.evaluatedAt rule document) :
    handler rt rule.code (laterContext context stats time) rule = handler rt rule.code context rule := by
  cases hcode : rule.code
  case orderWithoutFiscalClose =>
    simp only [handler, orderWithoutFiscalClose, laterContext]
    cases hlatest : latestTime ((context.transaction.documents.filter fun document =>
        document.type == .order || document.type == .preBill).map NormalizedDocument.documentTime) with
    | none => rfl
    | some latest =>
      obtain ⟨document, hdocument, rfl⟩ := List.mem_map.mp (latestTime_mem hlatest)
      have hsame := hoverdue hcode document (List.mem_of_mem_filter hdocument)
      rw [overdue, overdue, decide_eq_decide] at hsame
      simp only [← not_le, hsame]
  case unusualOperatorPattern =>
    rw [hstats hcode]
    rfl
  all_goals rfl

/-- Findings of the rule are candidates of the transaction. -/
def kept (fraudEngine : FraudEngine) (context : FraudContext) (code : RuleCode) : Bool :=
  !(!context.transaction.documents.isEmpty &&
      context.transaction.documents.all fun document => document.type.nonSale) &&
    !(primaryApplies fraudEngine context && secondaryEconomicRules code)

theorem mem_candidates {fraudEngine : FraudEngine} {findings : List FraudFinding}
    (h : evaluateCandidates rt fraudEngine context = some findings) :
    finding ∈ findings ↔ kept fraudEngine context finding.ruleCode = true ∧
      ∃ rule ∈ fraudEngine.rules, rule.enabled = true ∧ ruleFinding rt context rule = some finding := by
  have hfound : finding ∈ (fraudEngine.rules.filter RuleDefinition.enabled).filterMap
      (ruleFinding rt context) ↔ ∃ rule ∈ fraudEngine.rules, rule.enabled = true ∧
        ruleFinding rt context rule = some finding := by
    simp [List.mem_filterMap, and_assoc]
  simp only [evaluateCandidates] at h
  split at h
  · next hnone =>
    obtain rfl := Option.some.inj h
    simp [kept, hnone]
  · next hsale =>
    rw [Bool.not_eq_true] at hsale
    split at h
    · cases h
    · split at h
      · next happlies =>
        obtain rfl := Option.some.inj h
        rw [List.mem_filter, hfound]
        simp [kept, hsale, happlies, and_comm]
      · next happlies =>
        obtain rfl := Option.some.inj h
        rw [hfound]
        simp [kept, hsale, happlies]

/-- A candidate of a later run has one of the first run to go with it. -/
theorem candidate_before {fraudEngine : FraudEngine} {findings others : List FraudFinding}
    (hbefore : evaluateCandidates rt fraudEngine context = some findings)
    (hlater : evaluateCandidates rt fraudEngine (laterContext context stats time) = some others)
    (hmem : finding ∈ others)
    (hrules : ∀ rule ∈ fraudEngine.rules, rule.code = finding.ruleCode →
      handler rt rule.code (laterContext context stats time) rule = handler rt rule.code context rule) :
    ∃ before ∈ findings, before.toFindingIdentity = finding.toFindingIdentity := by
  obtain ⟨hkept, rule, hrule, henabled, hfinding⟩ := (mem_candidates hlater).mp hmem
  obtain ⟨data, hdata, rfl⟩ := Option.map_eq_some_iff.mp hfinding
  rw [hrules rule hrule rfl] at hdata
  have hfound : ruleFinding rt context rule = some _ := Option.map_eq_some_iff.mpr ⟨data, hdata, rfl⟩
  refine ⟨_, (mem_candidates hbefore).mpr ⟨?_, rule, hrule, henabled, hfound⟩, rfl⟩
  exact hkept

/-- Whether a rule raises depends on the transaction. -/
theorem isSome_candidates (fraudEngine : FraudEngine) :
    (evaluateCandidates rt fraudEngine (laterContext context stats time)).isSome =
      (evaluateCandidates rt fraudEngine context).isSome := by
  have hraise : handlerRaises (laterContext context stats time) = handlerRaises context := rfl
  have htransaction : (laterContext context stats time).transaction = context.transaction := rfl
  simp only [evaluateCandidates, hraise, htransaction]
  split
  · rfl
  · split
    · rfl
    · split <;> split <;> rfl

theorem suppressing_later {other : FraudFinding} (hforce : ∀ entry ∈ context.whitelistEntries,
      inForce time entry = inForce context.evaluatedAt entry) (hcode : finding.ruleCode = other.ruleCode) :
    suppressing rt uuidText (laterContext context stats time) finding =
      suppressing rt uuidText context other := by
  have hmatches : ∀ entry ∈ context.whitelistEntries,
      whitelistMatches rt uuidText (laterContext context stats time) finding entry =
        whitelistMatches rt uuidText context other entry := by
    intro entry hentry
    have hsame := hforce entry hentry
    unfold inForce at hsame
    have htime : (laterContext context stats time).evaluatedAt = time := rfl
    have htransaction : (laterContext context stats time).transaction = context.transaction := rfl
    simp only [whitelistMatches, htime, htransaction, hcode, Bool.not_inj hsame]
  unfold suppressing
  have hentries : (laterContext context stats time).whitelistEntries = context.whitelistEntries := rfl
  rw [hentries]
  refine List.find?_congr fun entry hentry => ?_
  exact hmatches entry ((List.mem_insertionSort _).mp hentry)

end

/-! ## The calls of a later run -/

/-- The alerts of other rules than the operator pattern. -/
def otherRule (alert : FraudAlert) : Bool := alert.ruleCode != .unusualOperatorPattern

theorem anomalous_congr (h : start'.alerts.rows.filter otherRule = start.alerts.rows.filter otherRule)
    (transactionId : UUID) : anomalous start' transactionId = anomalous start transactionId := by
  have hany : ∀ current : AlertStore, anomalous current transactionId =
      (current.alerts.rows.filter otherRule).any fun alert => alert.transactionId == transactionId &&
        alert.status.operational && alert.isCanonical := by
    intro current
    rw [List.any_filter]
    refine congrArg (List.any _) (funext fun alert => ?_)
    rw [otherRule, Bool.and_comm (alert.ruleCode != _)]
  rw [hany, hany, h]

/-- The stored rows that a document comes from. -/
theorem row_of_document {correlation : DocumentCorrelation} {members : List LoadedDocument}
    {transaction : CorrelatedTransaction} {document : NormalizedDocument}
    (h : currentSale rt engine (comparisonLoaded db limit) correlation = some (members, transaction))
    (hd : document ∈ transaction.documents) : ∃ row ∈ documentQuery db, row.value = document := by
  obtain ⟨found, hmembers, hderived⟩ := Option.bind_eq_some_iff.mp h
  obtain ⟨derived, hfind, hpair⟩ := Option.map_eq_some_iff.mp hderived
  obtain ⟨rfl, rfl⟩ := Prod.mk.inj hpair
  obtain ⟨seed, -, rfl⟩ := mem_correlatePairs.mp (List.mem_of_find?_eq_some hfind)
  rw [buildTransaction_documents, mem_sortDocuments, mem_classOf, mem_sortDocuments] at hd
  obtain ⟨item, hitem, rfl⟩ := List.mem_map.mp hd.1
  have hload := ((mem_currentMembers hmembers).2 item).mp hitem
  obtain ⟨row, hrow, -, rfl⟩ := mem_loadLatestDocuments.mp hload
  exact ⟨row, hrow, rfl⟩

/-- Two calls that persist the same. -/
structure SameCall (a b : Call) : Prop where
  correlation : a.correlation = b.correlation
  members : a.members = b.members
  finding : a.finding.toFindingIdentity = b.finding.toFindingIdentity
  suppression : a.suppression.isNone = b.suppression.isNone

theorem handled_of_same {a b : Call} (h : Handled first store a) (hsame : SameCall a b)
    (hversion : later.ruleVersion = first.ruleVersion) : Handled later store b := by
  obtain ⟨correlation, members, ⟨identity, time⟩, suppression⟩ := a
  obtain ⟨correlation', members', ⟨identity', time'⟩, suppression'⟩ := b
  obtain ⟨hcorrelation, hmembers, hfinding, hsuppression⟩ := hsame
  dsimp only at hcorrelation hmembers hfinding hsuppression
  subst hcorrelation hmembers hfinding
  unfold Handled at h ⊢
  rw [hversion, ← hsuppression]
  exact h

theorem contextOf_later (h : Alike db first later) {correlations : List DocumentCorrelation}
    {loaded : List LoadedDocument} {correlation : DocumentCorrelation}
    {transaction : CorrelatedTransaction} :
    contextOf start' later correlations loaded correlation transaction =
      laterContext (contextOf start first correlations loaded correlation transaction)
        (contextOf start' later correlations loaded correlation transaction).operatorStats later.now := by
  simp only [contextOf, laterContext, h.events, h.whitelist]

theorem operatorStats_later {correlations : List DocumentCorrelation} {loaded : List LoadedDocument}
    {correlation : DocumentCorrelation} {transaction : CorrelatedTransaction}
    (h : ∀ id, anomalous start' id = anomalous start id) :
    (contextOf start' later correlations loaded correlation transaction).operatorStats =
      (contextOf start first correlations loaded correlation transaction).operatorStats := by
  have hsame : operatorStatistics start' correlations loaded =
      operatorStatistics start correlations loaded := by
    funext operatorCode
    simp only [operatorStatistics, (funext h : anomalous start' = anomalous start)]
  simp only [contextOf, hsame]

theorem isSome_planned (h : Alike db first later) (correlation : DocumentCorrelation) :
    (planned rt engine uuidText start' later db limit correlation).isSome =
      (planned rt engine uuidText start first db limit correlation).isSome := by
  unfold planned correlationCalls evaluateWithSuppressions
  cases currentSale rt engine (comparisonLoaded db limit) correlation with
  | none => rfl
  | some sale =>
    simp only [Option.isSome_map]
    rw [contextOf_later h, h.engine_eq, isSome_candidates]

theorem evaluates_later (h : Alike db first later) :
    evaluates rt engine uuidText start' later db limit =
      evaluates rt engine uuidText start first db limit := by
  unfold evaluates
  exact congrArg _ (funext fun correlation => isSome_planned h correlation)

/-- What a later run finds, the first run has found, unless it is about an operator. -/
theorem callOf_before (h : Alike db first later)
    (hevaluates : evaluates rt engine uuidText start first db limit = true)
    (hcall : CallOf rt engine uuidText start' later db limit call)
    (hstats : call.finding.ruleCode = .unusualOperatorPattern →
      ∀ id, anomalous start' id = anomalous start id) :
    ∃ before, CallOf rt engine uuidText start first db limit before ∧ SameCall before call := by
  obtain ⟨hmem, transaction, others, hsale, hothers, hfinding, hsuppression⟩ := hcall
  have hsome := List.all_eq_true.mp hevaluates _ hmem
  simp only [planned, correlationCalls, hsale, evaluateWithSuppressions, Option.isSome_map] at hsome
  obtain ⟨findings, hfindings⟩ := Option.isSome_iff_exists.mp hsome
  rw [@contextOf_later start _ _ _ _ h, h.engine_eq] at hothers
  rw [@contextOf_later start _ _ _ _ h] at hsuppression
  obtain ⟨before, hbefore, hsame⟩ := candidate_before hfindings hothers hfinding fun rule hrule hcode =>
    handler_later_eq (fun hpattern => operatorStats_later (hstats (hcode.symm.trans hpattern)))
      fun hclose document hdocument => by
        obtain ⟨row, hrow, rfl⟩ := row_of_document hsale hdocument
        exact h.overdue rule hrule hclose row hrow
  have hcode : call.finding.ruleCode = before.ruleCode := congrArg FindingIdentity.ruleCode hsame.symm
  have hforce : ∀ entry ∈ first.whitelistEntries, inForce later.now entry = inForce first.now entry :=
    h.inForce
  rw [suppressing_later hforce hcode] at hsuppression
  refine ⟨{ correlation := call.correlation
            members := call.members
            finding := before
            suppression := (suppressing rt uuidText (contextOf start first (currentCorrelations db limit)
              (comparisonLoaded db limit) call.correlation transaction) before).map fun entry =>
                { finding := before, whitelistId := entry.id, reason := entry.reason } },
    ⟨hmem, transaction, findings, hsale, hfindings, hbefore, rfl⟩, rfl, rfl, hsame, ?_⟩
  simp [hsuppression]

/-! ## Runs -/

theorem evaluates_drawn (drawn : Nat) : evaluates rt engine uuidText start input { db with drawn } limit =
    evaluates rt engine uuidText start input db limit := rfl

theorem callOf_drawn (drawn : Nat) :
    CallOf rt engine uuidText start input { db with drawn } limit call ↔
      CallOf rt engine uuidText start input db limit call := by
  rw [← mem_callsOf, ← mem_callsOf]
  rfl

theorem running_begin (h : Drawn rt s) : Running rt (begin rt fmt uuidText isoformat s input) :=
  ⟨(Advances.startOf h).ids, behind_begin⟩

theorem running_opened (h : Drawn rt s) : Running rt (opened s) :=
  ⟨h, fun row hrow => ⟨row, hrow, rfl, Or.inl rfl⟩, fun _ _ hid => hid⟩

/-- After a run every finding of it has its alert. -/
theorem handled_after (h : Drawn rt s)
    (hs : runOnce rt engine fmt uuidText isoformat s input limit = some s')
    (hcall : CallOf rt engine uuidText (startOf rt fmt uuidText isoformat s input) input s.db limit call) :
    Handled input s'.store call := by
  rw [runOnce_eq] at hs
  split at hs
  · obtain rfl := Option.some.inj hs
    have hbegin := @running_begin rt fmt uuidText isoformat s input h
    exact handled_resolve (running_persisted hbegin _).behind ((settles_persist input).run hbegin
      uniqueKeys_callsOf call (mem_callsOf.mpr hcall)) _
  · cases hs

/-- A run over alerts of the current engine starts with all of them as they are. -/
theorem runOnce_of_noneEarlier (h : NoneEarlier s.store) :
    runOnce rt engine fmt uuidText isoformat s input limit =
      if evaluates rt engine uuidText s.store input s.db limit then
        let evaluated := (callsOf rt engine uuidText s.store input s.db limit).foldl
          (persist rt uuidText fmt isoformat input) (opened s)
        some { db := evaluated.db
               store := resolveSupersededAlerts fmt uuidText isoformat evaluated input.now }
      else none := by
  rw [runOnce_eq, startOf_of_noneEarlier h, begin_of_noneEarlier h]

/-- Where all findings have their alerts, a run changes nothing. -/
theorem runOnce_of_handled (hnone : NoneSuperseded s) (hcurrent : NoneEarlier s.store)
    (hevaluates : evaluates rt engine uuidText s.store input s.db limit = true)
    (h : ∀ call, CallOf rt engine uuidText s.store input s.db limit call → Handled input s.store call) :
    runOnce rt engine fmt uuidText isoformat s input limit = some s := by
  have hcalls : (callsOf rt engine uuidText s.store input s.db limit).foldl
      (persist rt uuidText fmt isoformat input) (opened s) = opened s :=
    (rests_persist input).run_of_idle fun call hcall => h call (mem_callsOf.mp hcall)
  rw [runOnce_of_noneEarlier hcurrent, if_pos hevaluates]
  dsimp only
  rw [hcalls, resolve_of_noneSuperseded hnone]
  rfl

theorem filter_otherKeys {key : RuleCode × UUID} (h : OtherKeys key store store')
    (hkey : key.1 = .unusualOperatorPattern) :
    store'.alerts.rows.filter otherRule = store.alerts.rows.filter otherRule := by
  have hother : ∀ row, otherRule row = true → decide (alertKey row ≠ key) = true := by
    intro row hrow
    refine decide_eq_true fun heq => ?_
    have hcode : row.ruleCode = key.1 := congrArg Prod.fst heq
    simp [otherRule, hcode, hkey] at hrow
  exact filter_congr_within h.alerts (fun row _ => hother row) (fun row _ => hother row)

theorem persist_pattern (h : Running rt t) {calls : List Call}
    (hcalls : ∀ call ∈ calls, call.finding.ruleCode = .unusualOperatorPattern) :
    (calls.foldl (persist rt uuidText fmt isoformat input) t).store.alerts.rows.filter otherRule =
      t.store.alerts.rows.filter otherRule := by
  refine (invariant_of_mem (fun u : Session => Running rt u ∧
    u.store.alerts.rows.filter otherRule = t.store.alerts.rows.filter otherRule)
    (fun call hcall u hu => ?_) ⟨h, rfl⟩).2
  have hother := @otherKeys_persist rt fmt uuidText isoformat u input call hu.1.drawn
  exact ⟨hu.1.persist, (filter_otherKeys hother (hcalls call hcall)).trans hu.2⟩

/-- Resolving again changes no alert that was there before. -/
theorem filter_resolve (hnone : NoneSuperseded s) (hbehind : Behind t)
    (hcorrelations : t.db = { s.db with drawn := t.db.drawn })
    (h : t.store.alerts.rows.filter otherRule = s.store.alerts.rows.filter otherRule) (now : Timestamp) :
    (resolveSupersededAlerts fmt uuidText isoformat t now).alerts.rows.filter otherRule =
      s.store.alerts.rows.filter otherRule := by
  have hrows := (@resolveSuperseded_spec fmt uuidText isoformat none t hbehind now).2
  have hother : ∀ alert, otherRule (if staleRow t.db t.flushed alert then resolved t.db now alert
      else alert) = otherRule alert := by
    intro alert
    split
    · rw [sameAlert_resolved t.db now alert]
      rfl
    · rfl
  rw [hrows, List.filter_map, show otherRule ∘ _ = otherRule from funext hother, ← h]
  refine (List.map_congr_left fun row hrow => ?_).trans (List.map_id _)
  dsimp only [id]
  split
  · next hstale =>
    have hlive := stale_of_staleRow hbehind (List.mem_of_mem_filter hrow) hstale
    rw [h] at hrow
    rw [hcorrelations] at hlive ⊢
    exact resolved_of_noneSuperseded hnone (List.mem_of_mem_filter hrow) now hlive
  · rfl

/-- Where the findings of the other rules have their alerts, a run writes alerts
of the operator pattern only. -/
theorem others_kept (h : Drawn rt s) (hnone : NoneSuperseded s) (hcurrent : NoneEarlier s.store)
    (hhandled : ∀ call, CallOf rt engine uuidText s.store input s.db limit call →
      call.finding.ruleCode ≠ .unusualOperatorPattern → Handled input s.store call)
    (hs : runOnce rt engine fmt uuidText isoformat s input limit = some s') :
    s'.store.alerts.rows.filter otherRule = s.store.alerts.rows.filter otherRule := by
  have hdb := (advances_runOnce h hs).db
  rw [runOnce_of_noneEarlier hcurrent] at hs
  split at hs
  · obtain rfl := Option.some.inj hs
    have hopened := running_opened h
    have hleft : (callsOf rt engine uuidText s.store input s.db limit).foldl
        (persist rt uuidText fmt isoformat input) (opened s) = _ :=
      (rests_persist input).leave_out hopened
        (fun call => call.finding.ruleCode != .unusualOperatorPattern)
        (fun call hcall hcode => hhandled call (mem_callsOf.mp hcall) (by simpa using hcode))
        (fun a _ b _ ha hb hkey => by
          have hcode : b.finding.ruleCode = a.finding.ruleCode := congrArg Prod.fst hkey
          rw [hcode, ha] at hb
          cases hb)
    dsimp only at hdb ⊢
    rw [hleft] at hdb ⊢
    have hpattern := @persist_pattern rt fmt uuidText isoformat (opened s) input hopened
      ((callsOf rt engine uuidText s.store input s.db limit).filter fun call =>
        !(call.finding.ruleCode != .unusualOperatorPattern))
      fun call hcall => by simpa using (List.mem_filter.mp hcall).2
    exact filter_resolve hnone (running_persisted hopened _).behind hdb hpattern input.now
  · cases hs

/-! ## Coming to rest -/

section
variable (rt engine fmt uuidText isoformat)

/-- The state after fraud runs that follow some steps. -/
def polled (steps : List Step) (limit : Option Nat) (inputs : List RunInput) : State :=
  run rt engine fmt uuidText isoformat (steps ++ inputs.map fun input => .fraudRun input limit)

end

theorem polled_eq (steps : List Step) (limit : Option Nat) (inputs : List RunInput) :
    polled rt engine fmt uuidText isoformat steps limit inputs =
      inputs.foldl (fun s input => fraudRun rt engine fmt uuidText isoformat s input limit)
        (run rt engine fmt uuidText isoformat steps) := by
  rw [polled, run, List.foldl_append, List.foldl_map]
  rfl

/-- Runs that are both alike to the first are alike. -/
theorem Alike.between {second : RunInput} (h : Alike db first second) (h' : Alike db first later) :
    Alike db second later where
  rules := h'.rules.trans h.rules.symm
  whitelist := h'.whitelist.trans h.whitelist.symm
  events := h'.events.trans h.events.symm
  inForce entry hentry := by
    rw [h.whitelist] at hentry
    exact (h'.inForce entry hentry).trans (h.inForce entry hentry).symm
  overdue rule hrule hcode row hrow := by
    rw [h.engine_eq] at hrule
    exact (h'.overdue rule hrule hcode row hrow).trans (h.overdue rule hrule hcode row hrow).symm

theorem callOf_of_advances (h : Advances rt fmt uuidText isoformat s s') :
    CallOf rt engine uuidText start input s'.db limit call ↔
      CallOf rt engine uuidText start input s.db limit call := by
  rw [h.db]
  exact callOf_drawn _

theorem evaluates_of_advances (h : Advances rt fmt uuidText isoformat s s') :
    evaluates rt engine uuidText start input s'.db limit =
      evaluates rt engine uuidText start input s.db limit := by
  rw [h.db]
  exact evaluates_drawn _

/-- A run is rolled back exactly where a rule raises. -/
theorem isSome_runOnce : (runOnce rt engine fmt uuidText isoformat s input limit).isSome =
    evaluates rt engine uuidText (startOf rt fmt uuidText isoformat s input) input s.db limit := by
  rw [runOnce_eq]
  split
  · next h => exact h.symm
  · next h => simpa using h

theorem isSome_later (h : Alike s.db first later) (hadvances : Advances rt fmt uuidText isoformat s s') :
    (runOnce rt engine fmt uuidText isoformat s' later limit).isSome =
      (runOnce rt engine fmt uuidText isoformat s first limit).isSome := by
  rw [isSome_runOnce, isSome_runOnce, evaluates_of_advances hadvances]
  exact evaluates_later h

/-- What holds of a state whose alerts are all of the current engine. -/
structure Pollable (rt : Runtime) (s : State) : Prop where
  drawn : Drawn rt s
  anchored : Anchored rt s.db s.store
  current : NoneEarlier s.store

theorem Pollable.runOnce (h : Pollable rt s) (hrules : CurrentRules input)
    (hs : Worker.runOnce rt engine fmt uuidText isoformat s input limit = some s') : Pollable rt s' := by
  refine ⟨(advances_runOnce h.drawn hs).ids, h.anchored.runOnce h.drawn hs, ?_⟩
  rw [runOnce_of_noneEarlier h.current] at hs
  split at hs
  · obtain rfl := Option.some.inj hs
    have hopened := running_opened h.drawn
    have hpersisted : NoneEarlier ((callsOf rt engine uuidText s.store input s.db limit).foldl
        (persist rt uuidText fmt isoformat input) (opened s)).store :=
      (invariant_of_mem (fun u : Session => Running rt u ∧ NoneEarlier u.store)
        (fun call _ u hu => ⟨hu.1.persist, hu.2.persist hrules hu.1.drawn⟩) ⟨hopened, h.current⟩).2
    refine NoneEarlier.of_same hpersisted fun alert halert => ?_
    obtain ⟨old, hold, hsame, -⟩ := resolved_weakens (running_persisted hopened _).behind input.now alert halert
    exact ⟨old, hold, hsame⟩
  · cases hs

/-- After two runs nothing is left to do, and the second has written alerts of
the operator pattern only. -/
theorem rests_after_two {second poll : RunInput} {s₁ s₂ : State} (h : Pollable rt s)
    (hrules : CurrentRules first) (hsecond : Alike s.db first second)
    (hs₁ : runOnce rt engine fmt uuidText isoformat s first limit = some s₁)
    (hs₂ : runOnce rt engine fmt uuidText isoformat s₁ second limit = some s₂) :
    s₂.store.alerts.rows.filter otherRule = s₁.store.alerts.rows.filter otherRule ∧
      (Alike s.db first poll → runOnce rt engine fmt uuidText isoformat s₂ poll limit = some s₂) := by
  have h₁ := h.runOnce hrules hs₁
  have h₂ := h₁.runOnce (hsecond.currentRules hrules) hs₂
  have hadvances₁ := advances_runOnce h.drawn hs₁
  have hadvances₂ := advances_runOnce h₁.drawn hs₂
  have hevaluates₁ := isSome_runOnce.symm.trans (congrArg Option.isSome hs₁)
  have hevaluates₂ : evaluates rt engine uuidText s₁.store second s.db limit = true :=
    (evaluates_later hsecond).trans hevaluates₁
  have hkept : s₂.store.alerts.rows.filter otherRule = s₁.store.alerts.rows.filter otherRule := by
    refine others_kept h₁.drawn (h.anchored.noneSuperseded h.drawn hs₁) h₁.current
      (fun call hcall hcode => ?_) hs₂
    obtain ⟨before, hbefore, hsame⟩ := callOf_before hsecond hevaluates₁
      ((callOf_of_advances hadvances₁).mp hcall) fun hpattern => absurd hpattern hcode
    exact handled_of_same (handled_after h.drawn hs₁ hbefore) hsame hsecond.ruleVersion_eq
  refine ⟨hkept, fun hpoll => ?_⟩
  have hbetween := hsecond.between hpoll
  refine runOnce_of_handled (h₁.anchored.noneSuperseded h₁.drawn hs₂) h₂.current ?_
    fun call hcall => ?_
  · rw [evaluates_of_advances hadvances₂, evaluates_of_advances hadvances₁]
    exact (evaluates_later hbetween).trans hevaluates₂
  · -- what it finds, the second run has found, about the operators too
    obtain ⟨before, hbefore, hsame⟩ := callOf_before hbetween hevaluates₂
      ((callOf_of_advances hadvances₁).mp ((callOf_of_advances hadvances₂).mp hcall))
      fun _ => anomalous_congr hkept
    have hhandled : Handled second s₂.store before := by
      refine handled_after h₁.drawn hs₂ ?_
      rw [startOf_of_noneEarlier h₁.current]
      exact (callOf_of_advances hadvances₁).mpr hbefore
    exact handled_of_same hhandled hsame hbetween.ruleVersion_eq

theorem fraudRun_of_some (hlimit : limit ≠ some 0)
    (h : runOnce rt engine fmt uuidText isoformat s input limit = some s') :
    fraudRun rt engine fmt uuidText isoformat s input limit = s' := by
  simp [fraudRun, hlimit, h]

theorem fraudRun_of_none (h : runOnce rt engine fmt uuidText isoformat s input limit = none) :
    fraudRun rt engine fmt uuidText isoformat s input limit = s := by
  simp [fraudRun, h]

theorem fraudRuns_rest {second : RunInput} (h : Pollable rt s) (hrules : CurrentRules first)
    (hsecond : Alike s.db first second) :
    (fraudRun rt engine fmt uuidText isoformat (fraudRun rt engine fmt uuidText isoformat s first limit)
        second limit).store.alerts.rows.filter otherRule =
      (fraudRun rt engine fmt uuidText isoformat s first limit).store.alerts.rows.filter otherRule ∧
    ∀ poll, Alike s.db first poll →
      fraudRun rt engine fmt uuidText isoformat (fraudRun rt engine fmt uuidText isoformat
          (fraudRun rt engine fmt uuidText isoformat s first limit) second limit) poll limit =
        fraudRun rt engine fmt uuidText isoformat (fraudRun rt engine fmt uuidText isoformat s first limit)
          second limit := by
  by_cases hlimit : limit = some 0
  · simp [fraudRun, hlimit]
  · cases hs₁ : runOnce rt engine fmt uuidText isoformat s first limit with
    | none =>
      -- a rule raises in every run
      have hnone : ∀ poll, Alike s.db first poll →
          fraudRun rt engine fmt uuidText isoformat s poll limit = s := by
        intro poll hpoll
        have hsome := (isSome_later hpoll (Advances.refl h.drawn)).trans (congrArg Option.isSome hs₁)
        exact fraudRun_of_none (Option.not_isSome_iff_eq_none.mp (by simp [hsome]))
      rw [fraudRun_of_none hs₁, hnone second hsecond]
      exact ⟨rfl, hnone⟩
    | some s₁ =>
      have hsome := (isSome_later hsecond (advances_runOnce h.drawn hs₁)).trans
        (congrArg Option.isSome hs₁)
      obtain ⟨s₂, hs₂⟩ := Option.isSome_iff_exists.mp hsome
      rw [fraudRun_of_some hlimit hs₁, fraudRun_of_some hlimit hs₂]
      exact ⟨(@rests_after_two _ _ _ _ _ _ _ _ _ second _ _ h hrules hsecond hs₁ hs₂).1,
        fun poll hpoll => fraudRun_of_some hlimit ((rests_after_two h hrules hsecond hs₁ hs₂).2 hpoll)⟩

/-- **Polling comes to rest.** After steps in any order that leave no alert of an
earlier engine, fraud runs follow each other with the same settings, at whatever
times no deadline passes between: the first two may write, the second only
alerts of the operator pattern, and no later run changes anything, neither an
alert nor its evidence nor its history. -/
theorem polling_comes_to_rest (rt : Runtime) (engine : CorrelationEngine) (fmt : Codec)
    (uuidText : UUID → String) (isoformat : Timestamp → String) (steps : List Step) (limit : Option Nat)
    (first second : RunInput) (polls : List RunInput)
    (hcurrent : NoneEarlier (run rt engine fmt uuidText isoformat steps).store)
    (hrules : CurrentRules first) (hpolls : ∀ poll ∈ second :: polls,
      Alike (run rt engine fmt uuidText isoformat steps).db first poll) :
    polled rt engine fmt uuidText isoformat steps limit (first :: second :: polls) =
      polled rt engine fmt uuidText isoformat steps limit [first, second] ∧
    (polled rt engine fmt uuidText isoformat steps limit [first, second]).store.alerts.rows.filter
        otherRule =
      (polled rt engine fmt uuidText isoformat steps limit [first]).store.alerts.rows.filter otherRule := by
  have hdrawn := (@valid_run rt engine fmt uuidText isoformat steps).ids
  obtain ⟨hkept, hrest⟩ := @fraudRuns_rest rt engine fmt uuidText isoformat _ first limit second
    ⟨hdrawn, anchored_run steps, hcurrent⟩ hrules (hpolls second List.mem_cons_self)
  simp only [polled_eq, List.foldl_cons, List.foldl_nil]
  refine ⟨?_, hkept⟩
  exact invariant_of_mem (· = _) (fun poll hpoll s hs => by
    rw [hs]
    exact hrest poll (hpolls poll (List.mem_cons_of_mem _ hpoll))) rfl

/-! ## The open table, polled -/

/-- The run of the open table at a later minute. -/
def pollAt (minute : Int) : RunInput := { closeRun with now := { micros := minutes minute } }

theorem alike_pollAt {minute : Int} (h : ∀ rule ∈ closeRun.engine.rules,
    rule.code = .orderWithoutFiscalClose → ∀ row ∈ documentQuery openTable.db,
      overdue (pollAt minute).now rule row.value = overdue closeRun.now rule row.value) :
    Alike openTable.db closeRun (pollAt minute) :=
  ⟨rfl, rfl, rfl, fun _ hentry => absurd hentry List.not_mem_nil, h⟩

theorem openTable_rests :
    polled asciiRuntime standardEngine Common.Runtime.runtime toString (fun time => toString time.micros)
        (openTableSteps.take 3) none [closeRun, pollAt 130, pollAt 140] =
      polled asciiRuntime standardEngine Common.Runtime.runtime toString
        (fun time => toString time.micros) (openTableSteps.take 3) none [closeRun, pollAt 130] := by
  refine (polling_comes_to_rest asciiRuntime standardEngine Common.Runtime.runtime toString
    (fun time => toString time.micros) (openTableSteps.take 3) none closeRun (pollAt 130) [pollAt 140]
    (show ∀ alert ∈ (run asciiRuntime standardEngine Common.Runtime.runtime toString
      (fun time => toString time.micros) (openTableSteps.take 3)).store.alerts.rows,
        earlier alert.ruleVersion = false by decide +kernel)
    (show ∀ row ∈ closeRun.ruleRows, earlier row.2 = false by decide +kernel) fun poll hpoll => ?_).1
  obtain rfl | hpoll := List.mem_cons.mp hpoll
  · exact alike_pollAt (by decide +kernel)
  · obtain rfl := List.mem_singleton.mp hpoll
    exact alike_pollAt (by decide +kernel)

end RetailPrintGuard.Fraud.Polling
