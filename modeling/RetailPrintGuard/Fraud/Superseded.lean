import RetailPrintGuard.Fraud.ExcludedJobs

/-! # Alerts of superseded correlations

A run resolves the live alerts of correlations that were replaced, as they were
flushed. An alert that waits to be flushed was reopened for a finding of an
active correlation, and that correlation is its own. -/
namespace RetailPrintGuard.Fraud.Superseded
open RetailPrintGuard.Common.Python RetailPrintGuard.Common.Domain
open RetailPrintGuard.Common.Formats (Codec)
open RetailPrintGuard.Correlation.Scoring RetailPrintGuard.Correlation.Engine
open RetailPrintGuard.Correlation.CandidateBatch
open RetailPrintGuard.Correlation.Worker RetailPrintGuard.Correlation.Persistence
open RetailPrintGuard.Correlation.Run RetailPrintGuard.Correlation.Membership
open RetailPrintGuard.Db.Models RetailPrintGuard.Db.Repository RetailPrintGuard.Parser.Repository
open RetailPrintGuard.Fraud.Findings RetailPrintGuard.Fraud.Evaluation
open RetailPrintGuard.Fraud.Alerts RetailPrintGuard.Fraud.Alerts.AlertStore
open RetailPrintGuard.Fraud.Worker RetailPrintGuard.Fraud.AlertWrites
open RetailPrintGuard.Fraud.AlertWriters RetailPrintGuard.Fraud.AlertRuns
open RetailPrintGuard.Fraud.LiveAlerts RetailPrintGuard.Fraud.ExcludedJobs
open RetailPrintGuard.Library RetailPrintGuard.Library.Runs

variable {rt : Runtime} {engine : CorrelationEngine}
variable {fmt : Codec} {uuidText : UUID → String} {isoformat : Timestamp → String}
variable {db db' : Database} {correlation : DocumentCorrelation} {store store' : AlertStore}
variable {s s' : State} {t : Session} {input : RunInput} {limit : Option Nat}

/-! ## One correlation for each input -/

/-- The unique key of the correlations. -/
def OneForInput (db : Database) : Prop :=
  ∀ a ∈ db.correlations, ∀ b ∈ db.correlations, a.transactionId = b.transactionId →
    a.inputFingerprint = b.inputFingerprint → a = b

theorem oneForInput_empty : OneForInput {} := fun _ h => absurd h (Table.not_mem_empty _)

theorem OneForInput.of_eq (h : OneForInput db) (hc : db'.correlations = db.correlations) :
    OneForInput db' := by
  unfold OneForInput
  rw [hc]
  exact h

/-- Rewriting rows keeps the key. -/
theorem OneForInput.of_rows {g : DocumentCorrelation → DocumentCorrelation} (h : OneForInput db)
    (hg : ∀ c, SameMembers c (g c)) (hrows : ∀ c ∈ db'.correlations, ∃ old ∈ db.correlations, g old = c) :
    OneForInput db' := by
  intro a ha b hb htransaction hinput
  obtain ⟨a, hold, rfl⟩ := hrows a ha
  obtain ⟨b, hold', rfl⟩ := hrows b hb
  rw [(hg a).transactionId, (hg b).transactionId] at htransaction
  rw [(hg a).inputFingerprint, (hg b).inputFingerprint] at hinput
  rw [h a hold b hold' htransaction hinput]

theorem OneForInput.supersedeWhere (h : OneForInput db) (query : DocumentCorrelation → Bool) :
    OneForInput (supersedeWhere db query) := by
  refine h.of_rows (g := fun c => if query c then c.supersede else c) (fun c => ?_)
    fun c hc => mem_supersedeWhere.mp hc
  split
  · exact ⟨rfl, rfl, rfl⟩
  · exact SameMembers.refl c

theorem OneForInput.persistCorrelation {transaction : CorrelatedTransaction} {loaded : List LoadedDocument}
    (h : OneForInput db) (hs : Sound rt db) :
    OneForInput (persistCorrelation rt engine db transaction loaded) := by
  unfold Correlation.Worker.persistCorrelation
  dsimp only
  split
  · next existing _ =>
    refine OneForInput.of_rows (h.supersedeWhere _)
      (g := fun c => if c.id = existing.id then reactivate transaction c else c) (fun c => ?_)
      fun c hc => List.mem_map.mp hc
    split
    · exact ⟨reactivate_memberIds c, reactivate_transactionId c, reactivate_fingerprint c⟩
    · exact SameMembers.refl c
  · next hnone =>
    have hold := h.supersedeWhere fun c => c.active && c.overlaps transaction.ids
    -- no row has the key of the new one
    have hother : ∀ c ∈ (Correlation.Worker.supersedeWhere db fun c =>
          c.active && c.overlaps transaction.ids).correlations,
        c.transactionId = transaction.transactionId →
        c.inputFingerprint ≠ correlationInputFingerprint transaction.documents loaded := by
      intro c hc htransaction hinput
      obtain ⟨old, hmem, rfl⟩ := mem_supersedeWhere.mp hc
      have hsame : SameMembers old (if old.active && old.overlaps transaction.ids then old.supersede
          else old) := by
        split
        · exact ⟨rfl, rfl, rfl⟩
        · exact SameMembers.refl old
      rw [hsame.transactionId] at htransaction
      rw [hsame.inputFingerprint] at hinput
      refine List.find?_eq_none.mp hnone old hmem ?_
      simp [sameInput, hs.algorithm old hmem, htransaction, hinput]
    intro a ha b hb htransaction hinput
    obtain ha | rfl := Table.mem_of_mem_insert ha
    · obtain hb | rfl := Table.mem_of_mem_insert hb
      · exact hold a ha b hb htransaction hinput
      · exact absurd hinput (hother a ha htransaction)
    · obtain hb | rfl := Table.mem_of_mem_insert hb
      · exact absurd hinput.symm (hother b hb htransaction.symm)
      · rfl

theorem OneForInput.runOnce (h : OneForInput db) (hs : Sound rt db) (maxDocuments : Nat) :
    OneForInput (Correlation.Worker.runOnce rt engine db maxDocuments) := by
  have hstart : OneForInput (prepare rt engine db maxDocuments).database := h.supersedeWhere _
  refine (invariant_of_mem (fun d => OneForInput d ∧ Sound rt d) (fun transaction htransaction d hd => ?_)
    ⟨hstart, sound_prepare hs⟩).1
  obtain ⟨current, hpersisted⟩ :=
    persist_spec engine hd.2 (covered_transaction (mem_persisted.mp htransaction).1)
  exact ⟨hd.1.persistCorrelation hd.2, hpersisted.sound⟩

theorem OneForInput.reviewJob (h : OneForInput db) (jobId : UUID) (action : ReviewAction) :
    OneForInput (Db.Repository.reviewJob db jobId action) := by
  unfold Db.Repository.reviewJob
  split
  · exact h
  · dsimp only
    split_ifs
    · exact h
    · exact @OneForInput.supersedeWhere { db with jobs := _ } (h.of_eq rfl) _
    · exact h.of_eq rfl

theorem OneForInput.apply (h : OneForInput db) (hs : Sound rt db) (step : System.Step) :
    OneForInput (System.apply rt engine db step) := by
  cases step with
  | importJob job => exact h.of_eq rfl
  | storeDocuments jobId documents =>
    exact h.of_eq (System.keepsAnalysis_storeDocuments jobId documents).correlations
  | recordFailure jobId buildHash =>
    exact h.of_eq (System.keepsAnalysis_recordFailure jobId buildHash).correlations
  | activateParserVersion name versionId rewind => exact h.of_eq rfl
  | reviewJob jobId action => exact h.reviewJob jobId action
  | runOnce maxDocuments =>
    rw [System.apply]
    exact h.runOnce hs maxDocuments

/-! ## The correlation of an alert -/

/-- Every alert was found in a stored correlation, and its input has no other. -/
structure Anchored (rt : Runtime) (db : Database) (store : AlertStore) : Prop where
  sound : Sound rt db
  one : OneForInput db
  grounded : Grounded db store

theorem anchored_empty : Anchored rt {} {} :=
  ⟨sound_empty rt, oneForInput_empty, fun _ h => absurd h List.not_mem_nil⟩

/-- What is written to an alert leaves it where it is. -/
theorem Anchored.of_same (h : Anchored rt db store)
    (hsame : ∀ alert ∈ store'.alerts, ∃ old ∈ store.alerts, SameAlert old alert) :
    Anchored rt db store' := by
  refine ⟨h.sound, h.one, fun alert halert => ?_⟩
  obtain ⟨old, hold, hold'⟩ := hsame alert halert
  obtain ⟨c, hc, hfound⟩ := h.grounded old hold
  rw [hold']
  exact ⟨c, hc, hfound.id, hfound.transactionId, hfound.input⟩

theorem Anchored.weakens (h : Anchored rt db store) (hw : Weakens store store') :
    Anchored rt db store' :=
  h.of_same fun alert halert => by
    obtain ⟨old, hold, hsame, -⟩ := hw alert halert
    exact ⟨old, hold, hsame⟩

/-- An alert that a run finds for a finding belongs to the correlation of the finding. -/
theorem Anchored.correlationId_of_reports (h : Anchored rt db store) {alert : FraudAlert}
    {finding : FraudFinding} (halert : alert ∈ store.alerts) (hcorrelation : correlation ∈ db.correlations)
    (htransaction : finding.transactionId = correlation.transactionId)
    (hreports : Reports correlation finding alert) : alert.correlationId = correlation.id := by
  obtain hfinding | hincident := hreports
  · obtain ⟨c, hc, hfound⟩ := h.grounded alert halert
    simp only [sameFinding, Bool.and_eq_true, beq_iff_eq] at hfinding
    have hinput : c.inputFingerprint = correlation.inputFingerprint := by
      rw [← hfound.input, hfinding.2]
      rfl
    rw [← hfound.id, h.one c hc correlation hcorrelation
      (hfound.transactionId.trans (hfinding.1.2.trans htransaction)) hinput]
  · simp only [sameIncident, Bool.and_eq_true, beq_iff_eq] at hincident
    exact hincident.1.2

/-! ## A run -/

/-- The alert is of an active correlation. -/
def OnActive (db : Database) (alert : FraudAlert) : Prop :=
  ∃ c ∈ db.correlations, c.active = true ∧ alert.correlationId = c.id

/-- Where the alerts of a session are, and which of them wait to be flushed. -/
structure Waits (rt : Runtime) (db : Database) (t : Session) : Prop where
  anchored : Anchored rt db t.store
  waiting : ∀ alert ∈ t.store.alerts, alert ∈ t.flushed.alerts ∨ OnActive db alert

theorem Waits.persistFinding {members : List LoadedDocument} {finding : FraudFinding}
    {suppression : Option SuppressedFinding} (h : Waits rt db t)
    (hcorrelation : correlation ∈ db.correlations) (hactive : correlation.active = true)
    (htransaction : finding.transactionId = correlation.transactionId) :
    Waits rt db (persistFinding rt fmt uuidText isoformat t input correlation members finding
      suppression) := by
  refine ⟨⟨h.anchored.sound, h.anchored.one,
    h.anchored.grounded.persistFinding hcorrelation htransaction⟩, fun alert halert => ?_⟩
  obtain ⟨hsame, hflushed⟩ | ⟨existing, hexisting, -, hset, hflushed⟩ |
      ⟨ruleVersion, -, -, hinsert, hflushed⟩ :=
    @alerts_persistFinding rt fmt uuidText isoformat correlation members t input finding suppression
  · rw [hflushed]
    exact h.waiting alert (hsame ▸ halert)
  · obtain ⟨hmem, hreports⟩ := mem_of_existingAlert hexisting
    rw [hset] at halert
    obtain rfl | ⟨hold, -⟩ := (mem_setAlert hmem (reopened_id existing)).mp halert
    · have hid := h.anchored.correlationId_of_reports hmem hcorrelation htransaction hreports
      exact Or.inr ⟨correlation, hcorrelation, hactive, hid⟩
    · rw [hflushed]
      exact h.waiting alert hold
  · rw [hinsert] at halert
    exact Or.inl (hflushed ▸ halert)

theorem Waits.of_evaluated (h : Anchored rt s.db s.store)
    (ht : Evaluated rt engine fmt uuidText isoformat s input limit t) : Waits rt s.db t := by
  have hstart : Waits rt s.db (begin rt fmt uuidText isoformat s input) :=
    ⟨h.weakens startOf_weakens, fun alert halert => Or.inl halert⟩
  refine invariant_of_foldlM (Waits rt s.db) (fun correlation hmem t t' ht' hw => ?_) hstart ht.evaluated
  obtain ⟨hcorrelation, -, hactive⟩ := mem_currentCorrelations hmem
  exact invariant_of_evaluateCorrelation (fun _ _ _ _ _ _ _ _ htransaction _ _ hs =>
    hs.persistFinding hcorrelation hactive htransaction) hw ht'

/-- No live alert is left on a correlation that was replaced or is no sale any more. -/
def NoneSuperseded (s : State) : Prop :=
  ∀ alert ∈ s.store.alerts, alert.status.operational = true →
    ∀ old ∈ s.db.correlations, old.id = alert.correlationId → old.active = false →
      replacements s.db old = [] ∧ retiredAsNonSale s.db old = false

theorem Anchored.noneSuperseded (h : Anchored rt s.db s.store) (hdrawn : Drawn rt s)
    (hs : Worker.runOnce rt engine fmt uuidText isoformat s input limit = some s') :
    NoneSuperseded s' := by
  obtain ⟨t, ht, rfl⟩ := runOnce_eq_some hs
  have hwaits := Waits.of_evaluated h ht
  intro alert halert hlive old hold hid hactive
  dsimp only at halert hold ⊢
  obtain ⟨-, hrows⟩ := @resolveSuperseded_spec fmt uuidText isoformat none t ht.behind input.now
  rw [← Table.mem_rows, hrows, List.mem_map] at halert
  obtain ⟨before, hmem, rfl⟩ := halert
  have hbefore : (if staleRow t.db t.flushed before then resolved t.db input.now before
      else before) = before := by
    split
    · exact resolved_of_live (by rwa [if_pos ‹_›] at hlive)
    · rfl
  rw [hbefore] at hlive hid
  have hfind : t.db.correlations.find before.correlationId = some old :=
    Table.find_eq_some.mpr ⟨hold, hid⟩
  have hflushed : before ∈ t.flushed.alerts := by
    refine (hwaits.waiting before hmem).resolve_right fun hon => ?_
    obtain ⟨c, hc, hcActive, hcId⟩ := hon
    have hcorrelations : t.db.correlations = s.db.correlations := by
      rw [(ht.advances hdrawn).db]
    rw [hcorrelations] at hold
    obtain rfl := Table.eq_of_key hold hc (hid.trans hcId)
    rw [hactive] at hcActive
    cases hcActive
  have hstale : staleRow t.db t.flushed before = true := by
    have hrow : t.flushed.alerts.find before.id = some before := Table.find_eq_some.mpr ⟨hflushed, rfl⟩
    simp [staleRow, hrow, staleAlert, hlive, hfind, hactive]
  rw [if_pos hstale, resolved, hfind] at hbefore
  dsimp only at hbefore
  split at hbefore
  · next hopen => simpa using hopen
  · -- a justified alert is not live
    rw [← hbefore] at hlive
    cases hlive

theorem Anchored.runOnce (h : Anchored rt s.db s.store) (hdrawn : Drawn rt s)
    (hs : Worker.runOnce rt engine fmt uuidText isoformat s input limit = some s') :
    Anchored rt s'.db s'.store := by
  obtain ⟨t, ht, rfl⟩ := runOnce_eq_some hs
  have hadvances := ht.advances hdrawn
  have hanchored := (Waits.of_evaluated h ht).anchored.weakens
    (@resolved_weakens fmt uuidText isoformat t ht.behind input.now)
  have hcorrelations : t.db.correlations = s.db.correlations := by
    rw [hadvances.db]
  refine ⟨h.sound.frame hcorrelations hadvances.drawn, h.one.of_eq hcorrelations, ?_⟩
  show Grounded t.db _
  unfold Grounded
  rw [hcorrelations]
  exact hanchored.grounded

/-! ## Whole runs -/

theorem Anchored.reviewJob (h : Anchored rt s.db s.store) (jobId : UUID) (action : ReviewAction)
    (actorId : UUID) (reason : String) (occurredAt : Timestamp) :
    Anchored rt (reviewJob fmt uuidText isoformat s jobId action actorId reason occurredAt).db
      (reviewJob fmt uuidText isoformat s jobId action actorId reason occurredAt).store := by
  unfold AlertRuns.reviewJob
  cases hfind : s.db.jobs.find jobId with
  | none => exact h
  | some job =>
    dsimp only
    cases hcomplete : technicallyComplete job with
    | true => exact h
    | false =>
      rw [if_neg Bool.false_ne_true]
      obtain ⟨hk, -⟩ := @keeps_reviewJob s.db jobId action job hfind hcomplete
      have hreviewed : Anchored rt (Db.Repository.reviewJob s.db jobId action) s.store :=
        ⟨sound_reviewJob h.sound jobId action, h.one.reviewJob jobId action, h.grounded.of_keeps hk⟩
      dsimp only
      split
      · refine hreviewed.weakens (Weakens.of_rows (fun alert => ?_) (fun alert hlive => ?_)
          (@justifyAlerts_spec fmt uuidText isoformat s.store none
            (jobCorrelationIds s.db jobId) jobId actorId reason occurredAt).2)
        · split <;> rfl
        · split at hlive
          · cases hlive
          · exact if_neg ‹_›
      · exact hreviewed

theorem Anchored.apply (h : Anchored rt s.db s.store) (hdrawn : Drawn rt s) (step : Step) :
    Anchored rt (apply rt engine fmt uuidText isoformat s step).db
      (apply rt engine fmt uuidText isoformat s step).store := by
  cases step with
  | analysis step =>
    have hsteady := @steady_apply rt engine s.db step.val step.property
    exact ⟨sound_apply h.sound step.val, h.one.apply h.sound step.val, h.grounded.of_keeps hsteady.1⟩
  | reviewJob jobId action actorId reason occurredAt =>
    exact h.reviewJob jobId action actorId reason occurredAt
  | fraudRun input maxTransactions =>
    unfold AlertRuns.apply fraudRun
    dsimp only
    split
    · exact h
    · cases hrun : Worker.runOnce rt engine fmt uuidText isoformat s input maxTransactions with
      | none => exact h
      | some s' => exact h.runOnce hdrawn hrun
  | updateAlert alertId update actorId now =>
    refine h.of_same fun alert halert => ?_
    exact same_updateAlert halert

theorem anchored_run (steps : List Step) :
    Anchored rt (run rt engine fmt uuidText isoformat steps).db
      (run rt engine fmt uuidText isoformat steps).store := by
  refine (invariant (fun s : State => Anchored rt s.db s.store ∧ Drawn rt s) (fun s step hs => ?_)
    ⟨anchored_empty, fun _ h => absurd h List.not_mem_nil⟩ steps).1
  exact ⟨hs.1.apply hs.2 step, (stepWrites_apply hs.2 step).ids⟩

/-- **A run settles what was replaced.** After steps in any order and a run no
alert, however it came to be live, is live on a superseded correlation that an
active one shares a document with, or whose documents are all non-sale by now. -/
theorem none_superseded (rt : Runtime) (engine : CorrelationEngine) (fmt : Codec)
    (uuidText : UUID → String) (isoformat : Timestamp → String) (steps : List Step) (input : RunInput)
    (maxTransactions : Option Nat) (s : State) (hs : Worker.runOnce rt engine fmt uuidText isoformat
      (run rt engine fmt uuidText isoformat steps) input maxTransactions = some s) :
    NoneSuperseded s :=
  (anchored_run steps).noneSuperseded (@valid_run rt engine fmt uuidText isoformat steps).ids hs

theorem openTable_none_superseded : NoneSuperseded evaluatedTable :=
  none_superseded asciiRuntime standardEngine Common.Runtime.runtime toString
    (fun time => toString time.micros) (openTableSteps.take 3) closeRun none evaluatedTable
    (Option.some_get openTable_evaluated).symm

end RetailPrintGuard.Fraud.Superseded
