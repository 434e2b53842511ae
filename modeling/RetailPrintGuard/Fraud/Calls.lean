import RetailPrintGuard.Fraud.Superseded
import RetailPrintGuard.Library.Settling

/-! # The findings of a run, one by one

What a run finds is a list of calls, no two of one rule and transaction. A call
writes its own alert only, and once that is there, making the call again
changes nothing. -/
namespace RetailPrintGuard.Fraud.Calls
open RetailPrintGuard.Common.Python RetailPrintGuard.Common.Domain
open RetailPrintGuard.Common.Formats (Codec)
open RetailPrintGuard.Correlation.Scoring RetailPrintGuard.Correlation.Engine
open RetailPrintGuard.Correlation.CandidateBatch RetailPrintGuard.Correlation.Loading
open RetailPrintGuard.Db.Models RetailPrintGuard.Fraud.Findings RetailPrintGuard.Fraud.Evaluation
open RetailPrintGuard.Fraud.Alerts RetailPrintGuard.Fraud.Alerts.AlertStore
open RetailPrintGuard.Fraud.Worker RetailPrintGuard.Fraud.AlertWrites
open RetailPrintGuard.Fraud.AlertWriters RetailPrintGuard.Fraud.AlertRuns
open RetailPrintGuard.Fraud.LiveAlerts
open RetailPrintGuard.Library RetailPrintGuard.Library.KeyedLog RetailPrintGuard.Library.Runs
open RetailPrintGuard.Library.Settling

/-! ## The calls of a run -/

/-- A finding that a run persists. -/
structure Call where
  correlation : DocumentCorrelation
  members : List LoadedDocument
  finding : FraudFinding
  suppression : Option SuppressedFinding

def Call.key (call : Call) : RuleCode × UUID := (call.finding.ruleCode, call.finding.transactionId)

def alertKey (alert : FraudAlert) : RuleCode × UUID := (alert.ruleCode, alert.transactionId)

section
variable (rt : Runtime) (engine : CorrelationEngine) (uuidText : UUID → String)

/-- The members of a correlation that is current, and the transaction they derive. -/
def currentSale (loaded : List LoadedDocument) (correlation : DocumentCorrelation) :
    Option (List LoadedDocument × CorrelatedTransaction) :=
  (currentMembers correlation loaded).bind fun members =>
    (rederived rt engine correlation members).map fun transaction => (members, transaction)

/-- What one correlation asks for: nothing where a rule raises. -/
def correlationCalls (start : AlertStore) (input : RunInput) (correlations : List DocumentCorrelation)
    (loaded : List LoadedDocument) (correlation : DocumentCorrelation) : Option (List Call) :=
  match currentSale rt engine loaded correlation with
  | none => some []
  | some (members, transaction) =>
    (evaluateWithSuppressions rt uuidText input.engine
      (contextOf start input correlations loaded correlation transaction)).map fun evaluation =>
        evaluation.findings.map (fun finding => ⟨correlation, members, finding, none⟩) ++
          evaluation.suppressed.map fun suppressed =>
            ⟨correlation, members, suppressed.finding, some suppressed⟩

/-- The calls of each correlation of a run. -/
def planned (start : AlertStore) (input : RunInput) (db : Database) (limit : Option Nat) :
    DocumentCorrelation → Option (List Call) :=
  correlationCalls rt engine uuidText start input (currentCorrelations db limit) (comparisonLoaded db limit)

/-- No rule raises. -/
def evaluates (start : AlertStore) (input : RunInput) (db : Database) (limit : Option Nat) : Bool :=
  (currentCorrelations db limit).all fun correlation =>
    (planned rt engine uuidText start input db limit correlation).isSome

def callsOf (start : AlertStore) (input : RunInput) (db : Database) (limit : Option Nat) : List Call :=
  (currentCorrelations db limit).flatMap fun correlation =>
    (planned rt engine uuidText start input db limit correlation).getD []

variable (fmt : Codec) (isoformat : Timestamp → String)

def persist (input : RunInput) (t : Session) (call : Call) : Session :=
  persistFinding rt fmt uuidText isoformat t input call.correlation call.members call.finding
    call.suppression

end

variable {rt : Runtime} {engine : CorrelationEngine}
variable {fmt : Codec} {uuidText : UUID → String} {isoformat : Timestamp → String}
variable {s s' : State} {t t' : Session} {store store' start flushed : AlertStore} {input : RunInput}
variable {call : Call}
variable {db : Database} {limit : Option Nat} {correlation : DocumentCorrelation}

/-- A run persists its calls in order and then resolves what was superseded. -/
theorem runOnce_eq : runOnce rt engine fmt uuidText isoformat s input limit =
    if evaluates rt engine uuidText (startOf rt fmt uuidText isoformat s input) input s.db limit then
      let evaluated := (callsOf rt engine uuidText (startOf rt fmt uuidText isoformat s input) input s.db
        limit).foldl (persist rt uuidText fmt isoformat input) (begin rt fmt uuidText isoformat s input)
      some { db := evaluated.db
             store := resolveSupersededAlerts fmt uuidText isoformat evaluated input.now }
    else none := by
  have hstep : ∀ start correlations loaded, evaluateCorrelation rt engine fmt uuidText isoformat input
      start correlations loaded = fun t correlation =>
        (correlationCalls rt engine uuidText start input correlations loaded correlation).map
          fun calls => calls.foldl (persist rt uuidText fmt isoformat input) t := by
    intro start correlations loaded
    funext t correlation
    unfold evaluateCorrelation correlationCalls currentSale
    cases currentMembers correlation loaded with
    | none => rfl
    | some members =>
      cases hderived : rederived rt engine correlation members with
      | none => simp [hderived]
      | some transaction =>
        simp [hderived, Function.comp_def, List.foldl_append, List.foldl_map, persist]
  unfold runOnce
  simp only [hstep, foldlM_planned]
  unfold evaluates callsOf planned
  split <;> rfl

/-- Where a call of a run comes from. -/
structure CallOf (rt : Runtime) (engine : CorrelationEngine) (uuidText : UUID → String)
    (start : AlertStore) (input : RunInput) (db : Database) (limit : Option Nat) (call : Call) : Prop where
  mem : call.correlation ∈ currentCorrelations db limit
  found : ∃ transaction candidates,
    currentSale rt engine (comparisonLoaded db limit) call.correlation = some (call.members, transaction) ∧
      evaluateCandidates rt input.engine (contextOf start input (currentCorrelations db limit)
        (comparisonLoaded db limit) call.correlation transaction) = some candidates ∧
      call.finding ∈ candidates ∧
      call.suppression = (suppressing rt uuidText (contextOf start input (currentCorrelations db limit)
        (comparisonLoaded db limit) call.correlation transaction) call.finding).map fun entry =>
          { finding := call.finding, whitelistId := entry.id, reason := entry.reason }

/-- The calls of one correlation of a run. -/
theorem mem_planned (hmem : correlation ∈ currentCorrelations db limit) :
    call ∈ (planned rt engine uuidText start input db limit correlation).getD [] ↔
      call.correlation = correlation ∧ CallOf rt engine uuidText start input db limit call := by
  obtain ⟨c, m, finding, suppression⟩ := call
  unfold planned correlationCalls evaluateWithSuppressions
  constructor
  · intro h
    cases hsale : currentSale rt engine (comparisonLoaded db limit) correlation with
    | none => simp [hsale] at h
    | some sale =>
      obtain ⟨members, transaction⟩ := sale
      cases hcandidates : evaluateCandidates rt input.engine (contextOf start input
          (currentCorrelations db limit) (comparisonLoaded db limit) correlation transaction) with
      | none => simp [hsale, hcandidates] at h
      | some candidates =>
        simp only [hsale, hcandidates, Option.map_some, Option.getD_some, List.mem_append, List.mem_map,
          List.mem_filter, List.mem_filterMap, Option.isNone_iff_eq_none, Call.mk.injEq] at h
        obtain ⟨f, ⟨hf, hnone⟩, rfl, rfl, rfl, rfl⟩ | ⟨_, ⟨f, hf, hsome⟩, rfl, rfl, rfl, rfl⟩ := h
        · exact ⟨rfl, hmem, transaction, candidates, hsale, hcandidates, hf, by rw [hnone]; rfl⟩
        · obtain ⟨entry, hentry, rfl⟩ := Option.map_eq_some_iff.mp hsome
          exact ⟨rfl, hmem, transaction, candidates, hsale, hcandidates, hf, by rw [hentry]; rfl⟩
  · intro h
    obtain ⟨rfl, -, transaction, candidates, hsale, hcandidates, hf, hs⟩ := h
    simp only [hsale, hcandidates, Option.map_some, Option.getD_some, List.mem_append, List.mem_map,
      List.mem_filter, List.mem_filterMap, Option.isNone_iff_eq_none, Call.mk.injEq, true_and]
    cases hentry : suppressing rt uuidText (contextOf start input (currentCorrelations db limit)
        (comparisonLoaded db limit) c transaction) finding with
    | none =>
      rw [hentry] at hs
      exact Or.inl ⟨finding, ⟨hf, hentry⟩, rfl, hs.symm⟩
    | some entry =>
      rw [hentry] at hs
      exact Or.inr ⟨_, ⟨finding, hf, by rw [hentry]; rfl⟩, rfl, hs.symm⟩

theorem mem_callsOf : call ∈ callsOf rt engine uuidText start input db limit ↔
    CallOf rt engine uuidText start input db limit call := by
  unfold callsOf
  rw [List.mem_flatMap]
  constructor
  · intro h
    obtain ⟨correlation, hmem, hcall⟩ := h
    exact ((mem_planned hmem).mp hcall).2
  · intro h
    exact ⟨call.correlation, h.mem, (mem_planned h.mem).mpr ⟨rfl, h⟩⟩

/-! ## One call for each rule and transaction -/

theorem eq_of_transactionId {a b : DocumentCorrelation} (ha : a ∈ currentCorrelations db limit)
    (hb : b ∈ currentCorrelations db limit) (h : a.transactionId = b.transactionId) : a = b := by
  have hdistinct : ((currentCorrelations db limit).map DocumentCorrelation.transactionId).Nodup := by
    unfold currentCorrelations firstOfTransactions
    rw [List.map_reverse, List.nodup_reverse, List.Nodup, List.pairwise_map]
    exact List.pairwise_pwFilter _
  exact List.inj_on_of_nodup_map hdistinct ha hb h

theorem transactionId_of_sale {loaded members : List LoadedDocument} {transaction : CorrelatedTransaction}
    (h : currentSale rt engine loaded correlation = some (members, transaction)) :
    transaction.transactionId = correlation.transactionId := by
  obtain ⟨found, -, hderived⟩ := Option.bind_eq_some_iff.mp h
  obtain ⟨derived, hfind, hpair⟩ := Option.map_eq_some_iff.mp hderived
  obtain ⟨rfl, rfl⟩ := Prod.mk.inj hpair
  have hsame := List.find?_some hfind
  rw [Bool.and_eq_true, beq_iff_eq] at hsame
  exact hsame.1

/-- No run asks twice about one rule and transaction. -/
theorem uniqueKeys_callsOf : UniqueKeys Call.key (callsOf rt engine uuidText start input db limit) := by
  intro a ha b hb hkey
  obtain ⟨hmem, transaction, candidates, hsale, hcandidates, hfinding, hsuppression⟩ := mem_callsOf.mp ha
  obtain ⟨hmem', transaction', candidates', hsale', hcandidates', hfinding', hsuppression'⟩ :=
    mem_callsOf.mp hb
  obtain ⟨hcode, htransaction⟩ := Prod.mk.inj hkey
  have hcorrelation : a.correlation = b.correlation := by
    refine eq_of_transactionId hmem hmem' ?_
    rw [← transactionId_of_sale hsale, ← transactionId_of_sale hsale']
    exact (transactionId_of_candidate hcandidates hfinding).symm.trans
      (htransaction.trans (transactionId_of_candidate hcandidates' hfinding'))
  obtain ⟨c, members, finding, suppression⟩ := a
  obtain ⟨c', members', finding', suppression'⟩ := b
  dsimp only at *
  subst hcorrelation
  obtain ⟨rfl, rfl⟩ := Prod.mk.inj (Option.some.inj (hsale.symm.trans hsale'))
  obtain rfl := Option.some.inj (hcandidates.symm.trans hcandidates')
  obtain rfl := eq_of_ruleCode hcandidates hfinding hfinding' hcode
  rw [hsuppression, hsuppression']

/-! ## One alert at a time -/

/-- A query within another finds the same where that does. -/
theorem filter_congr_within {p q : FraudAlert → Bool}
    (h : store'.alerts.rows.filter p = store.alerts.rows.filter p)
    (hold : ∀ row ∈ store.alerts, q row = true → p row = true)
    (hnew : ∀ row ∈ store'.alerts, q row = true → p row = true) :
    store'.alerts.rows.filter q = store.alerts.rows.filter q := by
  have hwithin : ∀ current : AlertStore, (∀ row ∈ current.alerts, q row = true → p row = true) →
      current.alerts.rows.filter q = (current.alerts.rows.filter p).filter q := by
    intro current hcurrent
    rw [List.filter_filter]
    refine List.filter_congr fun row hrow => ?_
    cases hq : q row with
    | false => rfl
    | true => exact (hcurrent row hrow hq).symm
  rw [hwithin store' hnew, hwithin store hold, h]

/-- No row of another alert differs. -/
structure OnlyAlert (id : UUID) (store store' : AlertStore) : Prop where
  alerts : (store'.alerts.rows.filter fun row => row.id ≠ id) =
    store.alerts.rows.filter fun row => row.id ≠ id
  history : ∀ other, other ≠ id → store'.historyOf other = store.historyOf other
  evidence : ∀ other, other ≠ id → store'.evidenceOf other = store.evidenceOf other

section
variable {id : UUID}

theorem OnlyAlert.trans {a b c : AlertStore} (h : OnlyAlert id a b) (h' : OnlyAlert id b c) :
    OnlyAlert id a c where
  alerts := h'.alerts.trans h.alerts
  history other hne := (h'.history other hne).trans (h.history other hne)
  evidence other hne := (h'.evidence other hne).trans (h.evidence other hne)

theorem onlyAlert_addEvidence {rows : List FraudAlertEvidence} (h : ∀ row ∈ rows, row.alertId = id) :
    OnlyAlert id store (store.addEvidence rows) := by
  refine ⟨rfl, fun _ _ => rfl, fun other hne => ?_⟩
  have hnone : logOf (fun row => row.alertId) rows other = [] :=
    logOf_eq_nil fun row hrow => (h row hrow).trans_ne hne.symm
  rw [evidenceOf, evidenceOf]
  exact (logOf_append _ _ _).trans (by rw [hnone, List.append_nil])

theorem onlyAlert_setAlert {changed : FraudAlert} (h : changed.id = id) :
    OnlyAlert id store (store.setAlert changed) := by
  subst h
  refine ⟨?_, fun _ _ => rfl, fun _ _ => rfl⟩
  rw [rows_setAlert]
  induction store.alerts.rows with
  | nil => rfl
  | cons row rows ih =>
    by_cases hid : row.id = changed.id <;> simpa [hid] using ih

theorem onlyAlert_addHistory {t : Transition} (h : t.alertId = id) :
    OnlyAlert id store (store.addHistory fmt uuidText isoformat t) :=
  ⟨rfl, fun _ hne => logOf_concat_of_ne (h.trans_ne hne.symm), fun _ _ => rfl⟩

theorem onlyAlert_reopenAlert {alert : FraudAlert} {finding : FraudFinding} {now : Timestamp} :
    OnlyAlert alert.id store
      (reopenAlert fmt uuidText isoformat store flushed alert correlation finding now) := by
  have hset : OnlyAlert alert.id store (store.setAlert (reopened alert)) := onlyAlert_setAlert rfl
  unfold reopenAlert
  exact hset.trans (OnlyAlert.trans (onlyAlert_addEvidence (alertId_of_single rfl))
    (onlyAlert_addHistory (by rfl)))

theorem onlyAlert_insertAlert {alert : FraudAlert} {t : Transition} (halert : alert.id = id)
    (h : t.alertId = id) : OnlyAlert id store (insertAlert fmt uuidText isoformat store alert t) :=
  ⟨Table.filter_insert (by simp [halert]), fun _ hne => logOf_concat_of_ne (h.trans_ne hne.symm),
    fun _ _ => rfl⟩

end

/-- No row of an alert of another key differs. -/
structure OtherKeys (key : RuleCode × UUID) (store store' : AlertStore) : Prop where
  alerts : (store'.alerts.rows.filter fun row => alertKey row ≠ key) =
    store.alerts.rows.filter fun row => alertKey row ≠ key
  history : ∀ alert ∈ store.alerts, alertKey alert ≠ key →
    store'.historyOf alert.id = store.historyOf alert.id
  evidence : ∀ alert ∈ store.alerts, alertKey alert ≠ key →
    store'.evidenceOf alert.id = store.evidenceOf alert.id

theorem OtherKeys.refl (key : RuleCode × UUID) (store : AlertStore) : OtherKeys key store store :=
  ⟨rfl, fun _ _ _ => rfl, fun _ _ _ => rfl⟩

/-- A write of one alert, before and after which it has the key. -/
theorem OnlyAlert.otherKeys {id : UUID} {key : RuleCode × UUID} (h : OnlyAlert id store store')
    (hold : ∀ row ∈ store.alerts, row.id = id → alertKey row = key)
    (hnew : ∀ row ∈ store'.alerts, row.id = id → alertKey row = key) : OtherKeys key store store' := by
  refine ⟨filter_congr_within h.alerts (fun row hrow hkey => ?_) (fun row hrow hkey => ?_),
    fun alert halert hkey => h.history _ fun hid => hkey (hold alert halert hid),
    fun alert halert hkey => h.evidence _ fun hid => hkey (hold alert halert hid)⟩
  · exact decide_eq_true fun hid => of_decide_eq_true hkey (hold row hrow hid)
  · exact decide_eq_true fun hid => of_decide_eq_true hkey (hnew row hrow hid)

theorem alertKey_of_reports {alert : FraudAlert} (h : Reports call.correlation call.finding alert) :
    alertKey alert = call.key := by
  obtain hfinding | hincident := h
  · simp only [sameFinding, Bool.and_eq_true, beq_iff_eq] at hfinding
    exact Prod.ext hfinding.1.1 hfinding.1.2
  · simp only [sameIncident, Bool.and_eq_true, beq_iff_eq] at hincident
    exact Prod.ext hincident.1.1.1.2 hincident.1.1.2

/-- The identifier of a new alert is taken by no other. -/
theorem fresh_of_drawn (h : Drawn rt s) : ∀ row ∈ s.store.alerts, row.id ≠ rt.uuid4 s.db.drawn := by
  intro row hrow heq
  obtain ⟨n, hn, hdrawn⟩ := h row hrow
  exact absurd (rt.uuid4_injective (hdrawn.symm.trans heq)) (Nat.ne_of_lt hn)

/-- A call writes alerts of its own key only. -/
theorem otherKeys_persist (h : Drawn rt t.toState) :
    OtherKeys call.key t.store (persist rt uuidText fmt isoformat input t call).store := by
  unfold persist persistFinding
  cases input.ruleVersion call.finding.ruleCode with
  | none => exact OtherKeys.refl _ _
  | some ruleVersion =>
    dsimp only
    cases hexisting : existingAlert t.store call.correlation call.finding with
    | some existing =>
      have hmem := (mem_of_existingAlert hexisting).1
      have hkey := alertKey_of_reports (mem_of_existingAlert hexisting).2
      have hold : ∀ row ∈ t.store.alerts, row.id = existing.id → alertKey row = call.key := by
        intro row hrow hid
        obtain rfl := Table.eq_of_key hrow hmem hid
        exact hkey
      have hevidence : OnlyAlert existing.id t.store (t.store.addEvidence
          (numberFrom (t.flushed.nextEvidence existing.id)
            (referenceEvidence t.flushed call.members call.finding existing.id))) :=
        onlyAlert_addEvidence fun row hrow => alertId_of_referenceEvidence (mem_numberFrom hrow)
      dsimp only
      split
      · refine (hevidence.trans onlyAlert_reopenAlert).otherKeys hold fun row hrow hid => ?_
        obtain rfl | ⟨-, hne⟩ := (mem_setAlert hmem (reopened_id existing)).mp hrow
        · exact hkey
        · exact absurd hid hne
      · exact hevidence.otherKeys hold fun row hrow hid => hold row hrow hid
    | none =>
      have hfresh := fresh_of_drawn h
      dsimp only
      refine OnlyAlert.otherKeys ((onlyAlert_insertAlert rfl rfl).trans
        (onlyAlert_addEvidence fun row hrow => alertId_of_row hrow))
        (fun row hrow hid => absurd hid (hfresh row hrow)) fun row hrow hid => ?_
      obtain hrow | rfl := Table.mem_of_mem_insert hrow
      · exact absurd hid (hfresh row hrow)
      · rfl

/-! ## Findings that have their alert -/

/-- The finding has its alert, with nothing to reopen and nothing to add to it. -/
def Handled (input : RunInput) (store : AlertStore) (call : Call) : Prop :=
  input.ruleVersion call.finding.ruleCode = none ∨
    ∃ existing, existingAlert store call.correlation call.finding = some existing ∧
      (call.suppression.isNone && closedByExclusion store existing) = false ∧
      referenceEvidence store call.members call.finding existing.id = []

theorem mem_referenced_addEvidence {rows : List FraudAlertEvidence} {alertId id : UUID} :
    id ∈ referenced (store.addEvidence rows) alertId ↔ id ∈ referenced store alertId ∨
      ∃ row ∈ rows, row.alertId = alertId ∧ isReference row.evidence = true ∧ row.documentId = some id := by
  rw [mem_referenced, mem_referenced]
  simp [AlertStore.addEvidence, or_and_right, exists_or]

/-- Rows of another kind refer to nothing. -/
theorem mem_referenced_other {first : Nat} {entry : EvidenceEntry} {alertId id : UUID}
    (h : isReference entry.evidence = false) :
    id ∈ referenced (store.addEvidence (numberFrom first [entry])) alertId ↔
      id ∈ referenced store alertId := by
  rw [mem_referenced_addEvidence]
  refine or_iff_left fun hadded => ?_
  obtain ⟨row, hrow, -, hreference, -⟩ := hadded
  rw [List.mem_singleton.mp (mem_numberFrom hrow), h] at hreference
  cases hreference

theorem mem_referenceEvidence {members : List LoadedDocument} {finding : FraudFinding} {alertId : UUID}
    {entry : EvidenceEntry} : entry ∈ referenceEvidence store members finding alertId ↔
      finding.ruleCode = .modificaPostPreconto ∧ ∃ id ∈ finding.documentIds,
        id ∉ referenced store alertId ∧ ∃ item, loadedById members id = some item ∧
          entry = { alertId
                    documentId := some item.value.id
                    printJobId := some item.databaseJobId
                    evidence := .correlatedDocumentReference (referenceRole item.value) item.value } := by
  unfold referenceEvidence
  split
  · next hrule => simp [hrule]
  · next hrule =>
    rw [not_not] at hrule
    simp only [hrule, true_and, List.mem_filterMap, List.mem_filter, Option.map_eq_some_iff, and_assoc]
    refine exists_congr fun id => and_congr_right fun _ => and_congr (by simp) ?_
    exact exists_congr fun item => and_congr_right fun _ => eq_comm

/-- Once the reference rows that were missing are added, none is. -/
theorem referenceEvidence_again {members : List LoadedDocument} {finding : FraudFinding} {alertId : UUID}
    {rows : List FraudAlertEvidence}
    (hflushed : ∀ id, id ∈ referenced flushed alertId → id ∈ referenced store alertId)
    (h : ∀ entry ∈ referenceEvidence flushed members finding alertId,
      ∃ row ∈ rows, row.toEvidenceEntry = entry) :
    referenceEvidence (store.addEvidence rows) members finding alertId = [] := by
  rw [List.eq_nil_iff_forall_not_mem]
  intro entry hentry
  obtain ⟨hrule, id, hid, hmissing, item, hitem, rfl⟩ := mem_referenceEvidence.mp hentry
  rw [mem_referenced_addEvidence, not_or] at hmissing
  obtain ⟨row, hrow, hadded⟩ := h _ (mem_referenceEvidence.mpr
    ⟨hrule, id, hid, fun hid => hmissing.1 (hflushed id hid), item, hitem, rfl⟩)
  have hsame : item.value.id = id := by simpa using List.find?_some hitem
  refine hmissing.2 ⟨row, hrow, ?_⟩
  rw [hadded, hsame]
  exact ⟨rfl, rfl, rfl⟩

theorem exists_of_mem_entries {first : Nat} {entries : List EvidenceEntry} {entry : EvidenceEntry}
    (h : entry ∈ entries) : ∃ row ∈ numberFrom first entries, row.toEvidenceEntry = entry := by
  obtain ⟨position, hlt, rfl⟩ := List.getElem_of_mem h
  exact ⟨_, List.mem_mapIdx.mpr ⟨position, hlt, rfl⟩, rfl⟩

theorem referenceEvidence_congr {members : List LoadedDocument} {finding : FraudFinding} {alertId : UUID}
    (h : ∀ id, id ∈ referenced store' alertId ↔ id ∈ referenced store alertId) :
    referenceEvidence store' members finding alertId = referenceEvidence store members finding alertId := by
  unfold referenceEvidence
  split
  · rfl
  · congr 1
    refine List.filter_congr fun id _ => ?_
    simp [h]

/-! ## The alert a finding has -/

/-- What decides which alert a finding has. -/
theorem preferred_of_rows {g : FraudAlert → FraudAlert} {query : FraudAlert → Bool}
    (hsame : ∀ alert ∈ store.alerts, SameAlert alert (g alert))
    (hquery : ∀ alert changed, SameAlert alert changed → query changed = query alert)
    (hrows : store'.alerts.rows = store.alerts.rows.map g) :
    preferred store' query = (preferred store query).map g := by
  have hfilter : store'.alerts.rows.filter query = (store.alerts.rows.filter query).map g := by
    rw [hrows, List.filter_map]
    congr 1
    exact List.filter_congr fun row hrow => hquery row (g row) (hsame row hrow)
  have hmem : ∀ row ∈ store.alerts.rows.filter query, SameAlert row (g row) :=
    fun row hrow => hsame row (List.mem_of_mem_filter hrow)
  unfold preferred
  rw [hfilter, ← List.map_insertionSort Preferred Preferred g _ fun a ha b hb => ?_, List.head?_map]
  rw [hmem a ha, hmem b hb]
  rfl

theorem existingAlert_of_rows {g : FraudAlert → FraudAlert}
    (hsame : ∀ alert ∈ store.alerts, SameAlert alert (g alert))
    (hrows : store'.alerts.rows = store.alerts.rows.map g) (finding : FraudFinding) :
    existingAlert store' correlation finding = (existingAlert store correlation finding).map g := by
  have hfinding : ∀ alert changed, SameAlert alert changed →
      sameFinding correlation finding changed = sameFinding correlation finding alert := by
    intro alert changed hchanged
    rw [hchanged]
    rfl
  have hincident : ∀ alert changed, SameAlert alert changed →
      sameIncident correlation finding changed = sameIncident correlation finding alert := by
    intro alert changed hchanged
    rw [hchanged]
    rfl
  unfold existingAlert
  rw [preferred_of_rows hsame hfinding hrows, preferred_of_rows hsame hincident hrows]
  cases preferred store (sameFinding correlation finding) <;> rfl

/-- A finding keeps its alert when one is reopened. -/
theorem existingAlert_reopenAlert {existing : FraudAlert} {c : DocumentCorrelation} {f finding : FraudFinding}
    {now : Timestamp} (hmem : existing ∈ store.alerts) :
    existingAlert (reopenAlert fmt uuidText isoformat store flushed existing c f now) correlation
        finding =
      (existingAlert store correlation finding).map fun row =>
        if row.id = existing.id then reopened existing else row := by
  refine existingAlert_of_rows (fun row hrow => ?_) rfl finding
  split
  · next hid =>
    obtain rfl := Table.eq_of_key hrow hmem hid
    rfl
  · exact SameAlert.refl row

theorem existingAlert_of_alerts (h : store'.alerts = store.alerts) (finding : FraudFinding) :
    existingAlert store' correlation finding = existingAlert store correlation finding := by
  unfold existingAlert preferred
  rw [h]

theorem existingAlert_of_otherKeys {key : RuleCode × UUID} (h : OtherKeys key store store')
    (hne : call.key ≠ key) : existingAlert store' call.correlation call.finding =
      existingAlert store call.correlation call.finding := by
  have hpreferred : ∀ query : FraudAlert → Bool, (∀ row, query row = true → alertKey row = call.key) →
      preferred store' query = preferred store query := by
    intro query hquery
    have hother : ∀ row, query row = true → decide (alertKey row ≠ key) = true :=
      fun row hrow => decide_eq_true ((hquery row hrow).trans_ne hne)
    unfold preferred
    rw [filter_congr_within h.alerts (fun row _ => hother row) (fun row _ => hother row)]
  unfold existingAlert
  rw [hpreferred _ fun row hrow => alertKey_of_reports (Or.inl hrow),
    hpreferred _ fun row hrow => alertKey_of_reports (Or.inr hrow)]

theorem Handled.other {key : RuleCode × UUID} (h : Handled input store call)
    (hother : OtherKeys key store store') (hne : call.key ≠ key) : Handled input store' call := by
  obtain hnone | ⟨existing, hexisting, hclosed, hevidence⟩ := h
  · exact Or.inl hnone
  · have hmem := (mem_of_existingAlert hexisting).1
    have hkey := (alertKey_of_reports (mem_of_existingAlert hexisting).2).trans_ne hne
    refine Or.inr ⟨existing, (existingAlert_of_otherKeys hother hne).trans hexisting, ?_, ?_⟩
    · unfold closedByExclusion latestHistory at hclosed ⊢
      rw [hother.history existing hmem hkey]
      exact hclosed
    · rw [← hevidence]
      refine referenceEvidence_congr fun id => ?_
      unfold referenced
      rw [hother.evidence existing hmem hkey]

/-- What is persisted has its alert. -/
theorem handled_persist (h : Drawn rt t.toState) (hbehind : Behind t) :
    Handled input (persist rt uuidText fmt isoformat input t call).store call := by
  unfold persist persistFinding
  cases hversion : input.ruleVersion call.finding.ruleCode with
  | none => exact Or.inl hversion
  | some ruleVersion =>
    refine Or.inr ?_
    dsimp only
    cases hexisting : existingAlert t.store call.correlation call.finding with
    | some existing =>
      have hmem := (mem_of_existingAlert hexisting).1
      have hadded : referenceEvidence (t.store.addEvidence (numberFrom (t.flushed.nextEvidence existing.id)
          (referenceEvidence t.flushed call.members call.finding existing.id))) call.members call.finding
          existing.id = [] :=
        referenceEvidence_again (hbehind.references existing.id) fun entry => exists_of_mem_entries
      have hexisting' : ∀ rows, existingAlert (t.store.addEvidence rows) call.correlation call.finding =
          some existing := fun rows => (existingAlert_of_alerts rfl call.finding).trans hexisting
      dsimp only
      split
      · -- reopened, it is not closed by an exclusion any more
        refine ⟨reopened existing, ?_, ?_, ?_⟩
        · refine (existingAlert_reopenAlert (show existing ∈ (t.store.addEvidence _).alerts from hmem)).trans ?_
          rw [hexisting', Option.map_some, if_pos rfl]
        · simp [closedByExclusion, reopened]
        · rw [← hadded]
          refine referenceEvidence_congr fun id => ?_
          exact @mem_referenced_other (setAlert _ (reopened existing)) _ _ _ _ rfl
      · next hclosed =>
        exact ⟨existing, hexisting' _, Bool.eq_false_iff.mpr hclosed, hadded⟩
    | none =>
      have hfresh := fresh_of_drawn h
      dsimp only
      rw [existingAlert, Option.or_eq_none_iff] at hexisting
      refine ⟨newAlert uuidText (rt.uuid4 t.db.drawn) ruleVersion call.correlation call.finding
        call.members call.suppression, ?_, ?_, ?_⟩
      · have hnone : t.store.alerts.rows.filter (sameFinding call.correlation call.finding) = [] :=
          List.filter_eq_nil_iff.mpr fun row hrow => by
            simp [preferred_eq_none hexisting.1 row hrow]
        rw [existingAlert, preferred, alerts_addEvidence, show (insertAlert _ _ _ t.store _ _).alerts =
          t.store.alerts.insert _ from rfl, Table.insert_of_fresh hfresh, List.filter_append, hnone]
        simp [sameFinding, newAlert]
      · cases call.suppression <;> simp [closedByExclusion, newAlert]
      · refine @referenceEvidence_again _ (flushAlert t.store (newAlert uuidText (rt.uuid4 t.db.drawn)
          ruleVersion call.correlation call.finding call.members call.suppression)) _ _ _ _
          (fun id hid => hid) fun entry hentry => ?_
        obtain ⟨row, hrow, hadded⟩ := exists_of_mem_entries hentry
        exact ⟨row, List.mem_append_right _ hrow, hadded⟩

/-- The session of a run as it goes on. -/
structure Running (rt : Runtime) (t : Session) : Prop where
  drawn : Drawn rt t.toState
  behind : Behind t

theorem Running.persist (h : Running rt t) :
    Running rt (persist rt uuidText fmt isoformat input t call) :=
  ⟨(@advances_persistFinding rt fmt uuidText isoformat input t h.drawn call.correlation call.members
    call.finding call.suppression).ids, h.behind.persistFinding⟩

theorem running_persisted (h : Running rt t) (calls : List Call) :
    Running rt (calls.foldl (persist rt uuidText fmt isoformat input) t) :=
  invariant_of_mem (Running rt) (fun _ _ _ ht => ht.persist) h

/-- A call gets its finding an alert, and leaves those of other findings alone. -/
theorem settles_persist (input : RunInput) : Settles (Running rt)
    (persist rt uuidText fmt isoformat input) Call.key fun t call => Handled input t.store call where
  keeps _ _ h := h.persist
  settles _ _ h := handled_persist h.drawn h.behind
  other _ _ _ h hne hdone := hdone.other (otherKeys_persist h.drawn) (Ne.symm hne)

/-! ## Findings that a session has nothing to write for -/

/-- The finding has its alert, and what it refers to was flushed. -/
def Idle (input : RunInput) (t : Session) (call : Call) : Prop :=
  input.ruleVersion call.finding.ruleCode = none ∨
    ∃ existing, existingAlert t.store call.correlation call.finding = some existing ∧
      (call.suppression.isNone && closedByExclusion t.store existing) = false ∧
      referenceEvidence t.flushed call.members call.finding existing.id = []

theorem persist_of_idle (h : Idle input t call) :
    persist rt uuidText fmt isoformat input t call = t := by
  unfold persist persistFinding
  cases hversion : input.ruleVersion call.finding.ruleCode with
  | none => rfl
  | some ruleVersion =>
    obtain hnone | ⟨existing, hexisting, hclosed, hevidence⟩ := h
    · rw [hversion] at hnone
      cases hnone
    · have hnothing : ∀ store : AlertStore, ∀ first, store.addEvidence (numberFrom first []) = store :=
        fun store first => by simp [AlertStore.addEvidence, numberFrom]
      simp only [hexisting, hevidence, hnothing, hclosed]
      rfl

/-- What was flushed of an alert stays flushed. -/
theorem referenced_flushed_persist (h : Behind t) {alertId id : UUID} (hid : id ∈ referenced t.flushed alertId) :
    id ∈ referenced (persist rt uuidText fmt isoformat input t call).flushed alertId := by
  unfold persist persistFinding
  cases input.ruleVersion call.finding.ruleCode with
  | none => exact hid
  | some ruleVersion =>
    dsimp only
    cases existingAlert t.store call.correlation call.finding with
    | none => exact h.references alertId id hid
    | some existing =>
      dsimp only
      split <;> exact hid

theorem Idle.other {other : Call} (h : Idle input t call) (ht : Running rt t) (hne : other.key ≠ call.key) :
    Idle input (persist rt uuidText fmt isoformat input t other) call := by
  obtain hnone | ⟨existing, hexisting, hclosed, hevidence⟩ := h
  · exact Or.inl hnone
  · have hother := @otherKeys_persist rt fmt uuidText isoformat t input other ht.drawn
    have hmem := (mem_of_existingAlert hexisting).1
    have hkey := (alertKey_of_reports (mem_of_existingAlert hexisting).2).trans_ne (Ne.symm hne)
    refine Or.inr ⟨existing, (existingAlert_of_otherKeys hother (Ne.symm hne)).trans hexisting, ?_, ?_⟩
    · unfold closedByExclusion latestHistory at hclosed ⊢
      rw [hother.history existing hmem hkey]
      exact hclosed
    · rw [List.eq_nil_iff_forall_not_mem]
      intro entry hentry
      obtain ⟨hrule, id, hid, hmissing, item, hitem, rfl⟩ := mem_referenceEvidence.mp hentry
      have hbefore := mem_referenceEvidence.mpr ⟨hrule, id, hid,
        fun hid => hmissing (referenced_flushed_persist ht.behind hid), item, hitem, rfl⟩
      rw [hevidence] at hbefore
      exact absurd hbefore List.not_mem_nil

theorem rests_persist (input : RunInput) : Rests (Running rt) (persist rt uuidText fmt isoformat input)
    Call.key (Idle input) where
  keeps _ _ h := h.persist
  other _ _ _ h hne hidle := hidle.other h hne
  rest _ _ h := persist_of_idle h

end RetailPrintGuard.Fraud.Calls
