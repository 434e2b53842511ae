import Mathlib.Logic.Relation
import RetailPrintGuard.Fraud.Worker

/-! # What the writers of alerts can do

Every writer is a sequence of single writes: evidence rows, a change of an
alert with its history row, or a new alert. What one write keeps, every writer
keeps. -/
namespace RetailPrintGuard.Fraud.AlertWrites
open RetailPrintGuard.Common.Python RetailPrintGuard.Common.Domain
open RetailPrintGuard.Common.Formats (Codec)
open RetailPrintGuard.Common.HashChain (zeroDigest chainedDigest chainedHash chainedHash_digest)
open RetailPrintGuard.Fraud.Alerts RetailPrintGuard.Fraud.Alerts.AlertStore
open RetailPrintGuard.Fraud.Worker
open RetailPrintGuard.Library RetailPrintGuard.Library.HashChain RetailPrintGuard.Library.KeyedLog

/-! ## The life of an alert -/

/-- The events that name a user. -/
def byUser : HistoryEvent → Bool
  | .updated | .jobExcluded => true
  | .opened | .suppressed | .autoFalsePositive | .autoSuperseded | .autoReopened => false

/-- The events that may follow the latest one of an alert, and the status each
leads to. An operator may set any status. -/
def allowed (latest : Option FraudAlertHistory) (t : Transition) : Bool :=
  match t.event, latest with
  | .opened, none => t.newStatus == .opened
  | .suppressed, none => t.newStatus == .justified
  | .updated, some _ => true
  | .autoFalsePositive, some last => last.newStatus == .opened && t.newStatus == .falsePositive
  | .autoSuperseded, some last => last.newStatus.operational && t.newStatus == .justified
  | .jobExcluded, some last => last.newStatus.operational && t.newStatus == .justified
  | .autoReopened, some last =>
    last.event == .jobExcluded && last.newStatus == .justified && t.newStatus == .opened
  | _, _ => false

/-- What a history row says of the row before it. -/
structure MayFollow (latest : Option FraudAlertHistory) (t : Transition) : Prop where
  previous : t.previousStatus = latest.map fun row => row.newStatus
  actor : t.actorUserId.isSome = byUser t.event
  event : allowed latest t = true

/-- The columns no writer changes. -/
def SameAlert (alert changed : FraudAlert) : Prop :=
  changed = { alert with
    status := changed.status
    closedAt := changed.closedAt
    closureReason := changed.closureReason
    assignedToUserId := changed.assignedToUserId
    takenAt := changed.takenAt }

/-- Archived alerts, and no others, have a closing time. -/
def ClosedWhenArchived (alert : FraudAlert) : Prop := alert.closedAt.isNone = alert.status.operational

/-- A change of an alert, as its history row says it. -/
structure Change (alert changed : FraudAlert) (t : Transition) : Prop where
  same : SameAlert alert changed
  alertId : t.alertId = alert.id
  previous : t.previousStatus = some alert.status
  new : t.newStatus = changed.status
  actor : t.actorUserId.isSome = byUser t.event
  closed : ClosedWhenArchived alert → ClosedWhenArchived changed

/-- Who may change an alert. `operated` is the alert an operator has opened. -/
inductive Authorised (operated : Option UUID) (store : AlertStore) (alert : FraudAlert)
    (t : Transition) : Prop
  | operator (halert : operated = some alert.id) (hevent : t.event = .updated)
  | falsePositive (hevent : t.event = .autoFalsePositive) (hopen : alert.status = .opened)
      (hnew : t.newStatus = .falsePositive)
  | closure (hevent : t.event = .autoSuperseded ∨ t.event = .jobExcluded)
      (hlive : alert.status.operational = true) (hnew : t.newStatus = .justified)
  | reopening (hevent : t.event = .autoReopened) (hclosed : closedByExclusion store alert = true)
      (hnew : t.newStatus = .opened)

/-- The history row a new alert starts with. -/
structure Opening (alert : FraudAlert) (t : Transition) : Prop where
  alertId : t.alertId = alert.id
  previous : t.previousStatus = none
  actor : t.actorUserId = none
  event : (t.event = .opened ∧ alert.status = .opened) ∨
    (t.event = .suppressed ∧ alert.status = .justified)
  new : t.newStatus = alert.status
  closed : ClosedWhenArchived alert

/-- Two alerts of one finding on one input. -/
def SameFinding (a b : FraudAlert) : Prop :=
  a.ruleCode = b.ruleCode ∧ a.transactionId = b.transactionId ∧ a.findingKey = b.findingKey

/-- Two canonical alerts of one economic loss. -/
def SameIncident (a b : FraudAlert) : Prop :=
  a.ruleCode = .modificaPostPreconto ∧ b.ruleCode = .modificaPostPreconto ∧
    a.transactionId = b.transactionId ∧ a.correlationId = b.correlationId ∧
    a.isCanonical = true ∧ b.isCanonical = true

section
variable (fmt : Codec) (uuidText : UUID → String) (isoformat : Timestamp → String)

/-- One write of the tables. -/
inductive Write (operated : Option UUID) : AlertStore → AlertStore → Prop
  | evidence (store : AlertStore) (rows : List FraudAlertEvidence)
      (hknown : ∀ row ∈ rows, ∃ alert ∈ store.alerts, alert.id = row.alertId) :
      Write operated store (store.addEvidence rows)
  | change (store : AlertStore) (alert changed : FraudAlert) (t : Transition)
      (hmem : alert ∈ store.alerts) (hchange : Change alert changed t)
      (hauthorised : Authorised operated store alert t) :
      Write operated store ((store.setAlert changed).addHistory fmt uuidText isoformat t)
  | insert (store : AlertStore) (alert : FraudAlert) (t : Transition)
      (hfresh : ∀ other ∈ store.alerts, other.id ≠ alert.id) (hopening : Opening alert t)
      (hfinding : ∀ other ∈ store.alerts, ¬ SameFinding other alert)
      (hincident : ∀ other ∈ store.alerts, ¬ SameIncident other alert) :
      Write operated store (insertAlert fmt uuidText isoformat store alert t)

/-- What a writer does to the tables. -/
def Writes (operated : Option UUID) : AlertStore → AlertStore → Prop :=
  Relation.ReflTransGen (Write fmt uuidText isoformat operated)

/-! ## What the histories keep -/

/-- The tables of the alerts, as an auditor may read them. -/
structure Recorded (store : AlertStore) : Prop where
  known : ∀ row ∈ store.history, ∃ alert ∈ store.alerts, alert.id = row.alertId
  evidenceKnown : ∀ row ∈ store.evidence, ∃ alert ∈ store.alerts, alert.id = row.alertId
  chained : ∀ alertId, Chained links 0 zeroDigest (store.historyOf alertId)
  hashed : ∀ row ∈ store.history,
    chainedHash fmt (row.payload uuidText isoformat row.sequence row.previousRecordHash)
      (some row.previousRecordHash.text) = .ok row.recordHash.text
  lawful : ∀ alertId, Follows (fun latest row => MayFollow latest row.toTransition) none
    (store.historyOf alertId)
  current : ∀ alert ∈ store.alerts,
    (store.historyOf alert.id).getLast?.map (fun row => row.newStatus) = some alert.status
  closed : ∀ alert ∈ store.alerts, ClosedWhenArchived alert

end

/-! ## Rows of one write -/

section
variable {fmt : Codec} {uuidText : UUID → String} {isoformat : Timestamp → String}
variable {store store' : AlertStore} {alert changed other : FraudAlert} {t : Transition}
variable {rows : List FraudAlertEvidence} {operated : Option UUID} {id : UUID}

@[simp] theorem alerts_addEvidence : (store.addEvidence rows).alerts = store.alerts := rfl

@[simp] theorem history_addEvidence : (store.addEvidence rows).history = store.history := rfl

@[simp] theorem historyOf_addEvidence : (store.addEvidence rows).historyOf id = store.historyOf id := rfl

@[simp] theorem alerts_addHistory :
    (store.addHistory fmt uuidText isoformat t).alerts = store.alerts := rfl

@[simp] theorem evidence_addHistory :
    (store.addHistory fmt uuidText isoformat t).evidence = store.evidence := rfl

@[simp] theorem evidenceOf_addHistory :
    (store.addHistory fmt uuidText isoformat t).evidenceOf id = store.evidenceOf id := rfl

@[simp] theorem history_setAlert : (store.setAlert alert).history = store.history := rfl

@[simp] theorem historyOf_setAlert : (store.setAlert alert).historyOf id = store.historyOf id := rfl

@[simp] theorem latestHistory_setAlert :
    (store.setAlert alert).latestHistory id = store.latestHistory id := rfl

@[simp] theorem evidence_setAlert : (store.setAlert alert).evidence = store.evidence := rfl

@[simp] theorem evidenceOf_setAlert : (store.setAlert alert).evidenceOf id = store.evidenceOf id := rfl

/-- Evidence and history are written to different tables. -/
theorem addEvidence_addHistory :
    (store.addEvidence rows).addHistory fmt uuidText isoformat t =
      (store.addHistory fmt uuidText isoformat t).addEvidence rows := rfl

theorem rows_setAlert : (store.setAlert changed).alerts.rows =
    store.alerts.rows.map fun row => if row.id = changed.id then changed else row := rfl

/-- The other alerts stay, and the alert is the changed one. -/
theorem mem_setAlert (hmem : alert ∈ store.alerts) (hid : changed.id = alert.id) :
    other ∈ (store.setAlert changed).alerts ↔
      other = changed ∨ (other ∈ store.alerts ∧ other.id ≠ alert.id) := by
  rw [← Table.mem_rows, rows_setAlert, List.mem_map, hid]
  constructor
  · intro h
    obtain ⟨row, hrow, rfl⟩ := h
    by_cases heq : row.id = alert.id
    · rw [if_pos heq]
      exact Or.inl rfl
    · rw [if_neg heq]
      exact Or.inr ⟨hrow, heq⟩
  · intro h
    obtain h | ⟨h, hne⟩ := h
    · exact ⟨alert, hmem, by rw [if_pos rfl, h]⟩
    · exact ⟨other, h, if_neg hne⟩

theorem SameAlert.id_eq (h : SameAlert alert changed) : changed.id = alert.id := by rw [h]

theorem SameAlert.refl (alert : FraudAlert) : SameAlert alert alert := rfl

theorem SameAlert.trans (h : SameAlert alert changed) (h' : SameAlert changed other) :
    SameAlert alert other := by
  unfold SameAlert at *
  rw [h'] at *
  rw [h]

/-- Every known alert is still known. -/
theorem exists_mem_setAlert (hmem : alert ∈ store.alerts) (hid : changed.id = alert.id)
    (h : ∃ row ∈ store.alerts, row.id = id) : ∃ row ∈ (store.setAlert changed).alerts, row.id = id := by
  obtain ⟨row, hrow, rfl⟩ := h
  by_cases heq : row.id = alert.id
  · exact ⟨changed, (mem_setAlert hmem hid).mpr (Or.inl rfl), hid.trans heq.symm⟩
  · exact ⟨row, (mem_setAlert hmem hid).mpr (Or.inr ⟨hrow, heq⟩), rfl⟩

theorem mem_insertAlert (hfresh : ∀ row ∈ store.alerts, row.id ≠ alert.id) :
    other ∈ (insertAlert fmt uuidText isoformat store alert t).alerts ↔
      other ∈ store.alerts ∨ other = alert :=
  Table.mem_insert hfresh

end

/-! ## The histories -/

section
variable (fmt : Codec) (uuidText : UUID → String) (isoformat : Timestamp → String)

/-- The row that `addHistory` appends. -/
def nextRow (store : AlertStore) (t : Transition) : FraudAlertHistory :=
  t.row fmt uuidText isoformat (lastNumber FraudAlertHistory.sequence (store.historyOf t.alertId) + 1)
    (((latest FraudAlertHistory.sequence (store.historyOf t.alertId)).map
      FraudAlertHistory.recordHash).getD zeroDigest)

end

section
variable {fmt : Codec} {uuidText : UUID → String} {isoformat : Timestamp → String}
variable {store store' : AlertStore} {alert changed : FraudAlert} {t : Transition}
variable {rows : List FraudAlertEvidence} {operated : Option UUID} {id : UUID}

theorem history_addHistory : (store.addHistory fmt uuidText isoformat t).history =
    store.history ++ [nextRow fmt uuidText isoformat store t] := rfl

/-- The first row of a new alert is the next one of its empty history. -/
theorem history_insertAlert (h : store.historyOf t.alertId = []) :
    (insertAlert fmt uuidText isoformat store alert t).history =
      store.history ++ [nextRow fmt uuidText isoformat store t] := by
  have hnext : nextRow fmt uuidText isoformat store t =
      t.row fmt uuidText isoformat 1 zeroDigest := by
    unfold nextRow
    rw [h]
    rfl
  rw [hnext]
  rfl

theorem Recorded.latestHistory_eq (h : Recorded fmt uuidText isoformat store) (id : UUID) :
    store.latestHistory id = (store.historyOf id).getLast? :=
  latest_of_numbered (numbered_of_chained (h.chained id))

theorem Recorded.historyOf_eq_nil (h : Recorded fmt uuidText isoformat store)
    (hid : ∀ alert ∈ store.alerts, alert.id ≠ id) : store.historyOf id = [] := by
  refine logOf_eq_nil fun row hrow heq => ?_
  obtain ⟨alert, halert, hsame⟩ := h.known row hrow
  exact hid alert halert (hsame.trans heq)

theorem recorded_empty : Recorded fmt uuidText isoformat {} where
  known _ h := absurd h List.not_mem_nil
  evidenceKnown _ h := absurd h List.not_mem_nil
  chained _ := trivial
  hashed _ h := absurd h List.not_mem_nil
  lawful _ := trivial
  current _ h := absurd h List.not_mem_nil
  closed _ h := absurd h List.not_mem_nil

/-- A row that may follow the latest one of its alert, and the status it leads to. -/
theorem Recorded.append (h : Recorded fmt uuidText isoformat store)
    (hhistory : store'.history = store.history ++ [nextRow fmt uuidText isoformat store t])
    (hevidence : store'.evidence = store.evidence)
    (hkept : ∀ id, (∃ row ∈ store.alerts, row.id = id) → ∃ row ∈ store'.alerts, row.id = id)
    (hknown : ∃ row ∈ store'.alerts, row.id = t.alertId)
    (hmay : MayFollow (store.historyOf t.alertId).getLast? t)
    (hrows : ∀ row ∈ store'.alerts, (row.id = t.alertId ∧ row.status = t.newStatus) ∨
      (row ∈ store.alerts ∧ row.id ≠ t.alertId))
    (hclosed : ∀ row ∈ store'.alerts, ClosedWhenArchived row) :
    Recorded fmt uuidText isoformat store' := by
  have hlog : ∀ id, store'.historyOf id = logOf (fun row => row.alertId)
      (store.history ++ [nextRow fmt uuidText isoformat store t]) id := by
    intro id
    rw [← hhistory]
    rfl
  have hself : store'.historyOf t.alertId =
      store.historyOf t.alertId ++ [nextRow fmt uuidText isoformat store t] :=
    (hlog t.alertId).trans (logOf_concat_self store.history (nextRow fmt uuidText isoformat store t))
  have hother : ∀ id, id ≠ t.alertId → store'.historyOf id = store.historyOf id :=
    fun id hid => (hlog id).trans (logOf_concat_of_ne (Ne.symm hid))
  refine ⟨?_, ?_, ?_, ?_, ?_, ?_, hclosed⟩
  · intro row hrow
    rw [hhistory, List.mem_append, List.mem_singleton] at hrow
    obtain hrow | rfl := hrow
    · exact hkept _ (h.known row hrow)
    · exact hknown
  · intro row hrow
    rw [hevidence] at hrow
    exact hkept _ (h.evidenceKnown row hrow)
  · intro id
    rw [hlog]
    refine forall_logOf_concat (P := fun _ log => Chained links 0 zeroDigest log) h.chained ?_ id
    have hnumber : links.sequence (nextRow fmt uuidText isoformat store t) =
        lastNumber links.sequence (store.historyOf t.alertId) + 1 := rfl
    exact chained_next (h.chained t.alertId) hnumber rfl
  · intro row hrow
    rw [hhistory, List.mem_append, List.mem_singleton] at hrow
    obtain hrow | rfl := hrow
    · exact h.hashed row hrow
    · exact chainedHash_digest fmt _ _
  · intro id
    rw [hlog]
    refine forall_logOf_concat (P := fun _ log => Follows _ none log) h.lawful ?_ id
    refine follows_concat.mpr ⟨h.lawful _, ?_⟩
    rw [Option.or_none]
    exact hmay
  · intro row hrow
    obtain ⟨hid, hstatus⟩ | ⟨hold, hid⟩ := hrows row hrow
    · rw [hid, hself, List.getLast?_concat, hstatus]
      rfl
    · rw [hother row.id hid]
      exact h.current row hold

theorem Recorded.addEvidence (h : Recorded fmt uuidText isoformat store)
    (hknown : ∀ row ∈ rows, ∃ alert ∈ store.alerts, alert.id = row.alertId) :
    Recorded fmt uuidText isoformat (store.addEvidence rows) := by
  refine ⟨h.known, fun row hrow => ?_, h.chained, h.hashed, h.lawful, h.current, h.closed⟩
  obtain hrow | hrow := List.mem_append.mp hrow
  · exact h.evidenceKnown row hrow
  · exact hknown row hrow

/-- The change an authorised writer makes may follow what happened before. -/
theorem Recorded.mayFollow (h : Recorded fmt uuidText isoformat store) (hmem : alert ∈ store.alerts)
    (hchange : Change alert changed t) (hauthorised : Authorised operated store alert t) :
    MayFollow (store.historyOf t.alertId).getLast? t := by
  have hcurrent := h.current alert hmem
  have hlatest := h.latestHistory_eq alert.id
  rw [hchange.alertId]
  obtain ⟨last, hlast, hstatus⟩ := Option.map_eq_some_iff.mp hcurrent
  refine ⟨hchange.previous.trans hcurrent.symm, hchange.actor, ?_⟩
  rw [hlast] at hlatest ⊢
  cases hauthorised with
  | operator _ hevent => simp [allowed, hevent]
  | falsePositive hevent hopen hnew => simp [allowed, hevent, hnew, hstatus, hopen]
  | closure hevent hlive hnew =>
    obtain hevent | hevent := hevent <;> simp [allowed, hevent, hnew, hstatus, hlive]
  | reopening hevent hclosed hnew =>
    simp only [closedByExclusion, hlatest, Option.any_some, Bool.and_eq_true, beq_iff_eq] at hclosed
    simp [allowed, hevent, hnew, hstatus, hclosed]

theorem Recorded.write (h : Recorded fmt uuidText isoformat store)
    (hw : Write fmt uuidText isoformat operated store store') :
    Recorded fmt uuidText isoformat store' := by
  cases hw with
  | evidence rows hknown => exact h.addEvidence hknown
  | change alert changed t hmem hchange hauthorised =>
    have hid := hchange.same.id_eq
    refine h.append history_addHistory rfl (fun id => exists_mem_setAlert hmem hid) ?_
      (h.mayFollow hmem hchange hauthorised) ?_ ?_
    · exact ⟨changed, (mem_setAlert hmem hid).mpr (Or.inl rfl), hid.trans hchange.alertId.symm⟩
    · intro row hrow
      obtain rfl | ⟨hrow, hne⟩ := (mem_setAlert hmem hid).mp hrow
      · exact Or.inl ⟨hid.trans hchange.alertId.symm, hchange.new.symm⟩
      · exact Or.inr ⟨hrow, hchange.alertId ▸ hne⟩
    · intro row hrow
      obtain rfl | ⟨hrow, -⟩ := (mem_setAlert hmem hid).mp hrow
      · exact hchange.closed (h.closed alert hmem)
      · exact h.closed row hrow
  | insert alert t hfresh hopening hfinding hincident =>
    have hempty : store.historyOf t.alertId = [] := by
      rw [hopening.alertId]
      exact h.historyOf_eq_nil hfresh
    refine h.append (history_insertAlert hempty) rfl ?_ ?_ ?_ ?_ ?_
    · intro id hid
      obtain ⟨row, hrow, hid⟩ := hid
      exact ⟨row, (mem_insertAlert hfresh).mpr (Or.inl hrow), hid⟩
    · exact ⟨alert, (mem_insertAlert hfresh).mpr (Or.inr rfl), hopening.alertId.symm⟩
    · rw [hempty]
      refine ⟨hopening.previous, ?_, ?_⟩
      · obtain ⟨hevent, -⟩ | ⟨hevent, -⟩ := hopening.event <;> rw [hopening.actor, hevent] <;> rfl
      · obtain ⟨hevent, hstatus⟩ | ⟨hevent, hstatus⟩ := hopening.event <;>
          simp [allowed, hevent, hopening.new, hstatus]
    · intro row hrow
      obtain hrow | rfl := (mem_insertAlert hfresh).mp hrow
      · exact Or.inr ⟨hrow, hopening.alertId ▸ hfresh row hrow⟩
      · exact Or.inl ⟨hopening.alertId.symm, hopening.new.symm⟩
    · intro row hrow
      obtain hrow | rfl := (mem_insertAlert hfresh).mp hrow
      · exact h.closed row hrow
      · exact hopening.closed

theorem Recorded.writes (h : Recorded fmt uuidText isoformat store)
    (hw : Writes fmt uuidText isoformat operated store store') :
    Recorded fmt uuidText isoformat store' := by
  induction hw with
  | refl => exact h
  | tail _ hw ih => exact ih.write hw

/-! ## What is only added to -/

/-- The logs only grow, and every alert keeps what it was opened with. -/
structure Extends (store store' : AlertStore) : Prop where
  history : store.history <+: store'.history
  evidence : store.evidence <+: store'.evidence
  alerts : ∀ alert ∈ store.alerts, ∃ changed ∈ store'.alerts, SameAlert alert changed

theorem Extends.refl (store : AlertStore) : Extends store store :=
  ⟨List.prefix_rfl, List.prefix_rfl, fun alert halert => ⟨alert, halert, SameAlert.refl alert⟩⟩

theorem Extends.trans {a b c : AlertStore} (h : Extends a b) (h' : Extends b c) : Extends a c where
  history := h.history.trans h'.history
  evidence := h.evidence.trans h'.evidence
  alerts alert halert := by
    obtain ⟨changed, hchanged, hsame⟩ := h.alerts alert halert
    obtain ⟨last, hlast, hsame'⟩ := h'.alerts changed hchanged
    exact ⟨last, hlast, hsame.trans hsame'⟩

theorem Extends.of_write (hw : Write fmt uuidText isoformat operated store store') :
    Extends store store' := by
  cases hw with
  | evidence rows hknown =>
    exact ⟨List.prefix_rfl, List.prefix_append _ _, (Extends.refl store).alerts⟩
  | change alert changed t hmem hchange hauthorised =>
    refine ⟨List.prefix_append _ _, List.prefix_rfl, fun row hrow => ?_⟩
    have hid := hchange.same.id_eq
    by_cases heq : row.id = alert.id
    · obtain rfl := Table.eq_of_key hrow hmem heq
      exact ⟨changed, (mem_setAlert hmem hid).mpr (Or.inl rfl), hchange.same⟩
    · exact ⟨row, (mem_setAlert hmem hid).mpr (Or.inr ⟨hrow, heq⟩), SameAlert.refl row⟩
  | insert alert t hfresh hopening hfinding hincident =>
    exact ⟨List.prefix_append _ _, List.prefix_rfl, fun row hrow =>
      ⟨row, (mem_insertAlert hfresh).mpr (Or.inl hrow), SameAlert.refl row⟩⟩

theorem Extends.of_writes (hw : Writes fmt uuidText isoformat operated store store') :
    Extends store store' := by
  induction hw with
  | refl => exact Extends.refl store
  | tail _ hw ih => exact ih.trans (Extends.of_write hw)

/-! ## One alert for one finding -/

theorem SameFinding.symm {a b : FraudAlert} (h : SameFinding a b) : SameFinding b a :=
  ⟨h.1.symm, h.2.1.symm, h.2.2.symm⟩

theorem SameIncident.symm {a b : FraudAlert} (h : SameIncident a b) : SameIncident b a :=
  ⟨h.2.1, h.1, h.2.2.1.symm, h.2.2.2.1.symm, h.2.2.2.2.2, h.2.2.2.2.1⟩

/-- No two alerts are the same in a way that only what they were opened with decides. -/
def AtMostOne (same : FraudAlert → FraudAlert → Prop) (store : AlertStore) : Prop :=
  ∀ a ∈ store.alerts, ∀ b ∈ store.alerts, same a b → a = b

theorem AtMostOne.setAlert {same : FraudAlert → FraudAlert → Prop}
    (hsame : ∀ a a' b b', SameAlert a a' → SameAlert b b' → same a' b' → same a b)
    (h : AtMostOne same store) (hmem : alert ∈ store.alerts) (hchanged : SameAlert alert changed) :
    AtMostOne same (store.setAlert changed) := by
  have horigin : ∀ row ∈ (store.setAlert changed).alerts, ∃ old ∈ store.alerts, SameAlert old row := by
    intro row hrow
    obtain rfl | ⟨hrow, -⟩ := (mem_setAlert hmem hchanged.id_eq).mp hrow
    · exact ⟨alert, hmem, hchanged⟩
    · exact ⟨row, hrow, SameAlert.refl row⟩
  intro a ha b hb hab
  obtain ⟨olda, holda, ha'⟩ := horigin a ha
  obtain ⟨oldb, holdb, hb'⟩ := horigin b hb
  have heq := h olda holda oldb holdb (hsame _ _ _ _ ha' hb' hab)
  subst heq
  exact Table.eq_of_key ha hb (ha'.id_eq.trans hb'.id_eq.symm)

theorem AtMostOne.insertAlert {same : FraudAlert → FraudAlert → Prop}
    (hsymm : ∀ a b, same a b → same b a) (h : AtMostOne same store)
    (hfresh : ∀ row ∈ store.alerts, row.id ≠ alert.id) (hnew : ∀ row ∈ store.alerts, ¬ same row alert) :
    AtMostOne same (insertAlert fmt uuidText isoformat store alert t) := by
  intro a ha b hb hab
  obtain holda | rfl := (mem_insertAlert hfresh).mp ha
  · obtain holdb | rfl := (mem_insertAlert hfresh).mp hb
    · exact h a holda b holdb hab
    · exact absurd hab (hnew a holda)
  · obtain holdb | rfl := (mem_insertAlert hfresh).mp hb
    · exact absurd (hsymm a b hab) (hnew b holdb)
    · rfl

/-- Every finding has one alert, and every economic loss one canonical alert. -/
structure Unique (store : AlertStore) : Prop where
  finding : AtMostOne SameFinding store
  incident : AtMostOne SameIncident store

theorem unique_empty : Unique {} :=
  ⟨fun _ ha => absurd ha List.not_mem_nil, fun _ ha => absurd ha List.not_mem_nil⟩

theorem sameFinding_of_sameAlert (a a' b b' : FraudAlert) (ha : SameAlert a a') (hb : SameAlert b b')
    (h : SameFinding a' b') : SameFinding a b := by
  rw [ha, hb] at h
  exact h

theorem sameIncident_of_sameAlert (a a' b b' : FraudAlert) (ha : SameAlert a a')
    (hb : SameAlert b b') (h : SameIncident a' b') : SameIncident a b := by
  rw [ha, hb] at h
  exact h

theorem Unique.write (h : Unique store) (hw : Write fmt uuidText isoformat operated store store') :
    Unique store' := by
  cases hw with
  | evidence rows hknown => exact ⟨h.finding, h.incident⟩
  | change alert changed t hmem hchange hauthorised =>
    exact ⟨h.finding.setAlert sameFinding_of_sameAlert hmem hchange.same,
      h.incident.setAlert sameIncident_of_sameAlert hmem hchange.same⟩
  | insert alert t hfresh hopening hfinding hincident =>
    exact ⟨h.finding.insertAlert (fun _ _ => SameFinding.symm) hfresh hfinding,
      h.incident.insertAlert (fun _ _ => SameIncident.symm) hfresh hincident⟩

theorem Unique.writes (h : Unique store) (hw : Writes fmt uuidText isoformat operated store store') :
    Unique store' := by
  induction hw with
  | refl => exact h
  | tail _ hw ih => exact ih.write hw

/-! ## Settled alerts -/

/-- An archived alert that was not closed last by the exclusion of a job. -/
structure Settled (store : AlertStore) (alert : FraudAlert) : Prop where
  mem : alert ∈ store.alerts
  archived : alert.status.operational = false
  final : closedByExclusion store alert = false

/-- No writer but an operator touches a settled alert. -/
theorem Settled.write (h : Settled store alert)
    (hw : Write fmt uuidText isoformat operated store store') (hoperated : operated ≠ some alert.id) :
    Settled store' alert ∧ store'.historyOf alert.id = store.historyOf alert.id := by
  have hsettled : alert ∈ store'.alerts → store'.historyOf alert.id = store.historyOf alert.id →
      Settled store' alert ∧ store'.historyOf alert.id = store.historyOf alert.id := by
    intro hmem hhistory
    refine ⟨⟨hmem, h.archived, ?_⟩, hhistory⟩
    have hfinal := h.final
    unfold closedByExclusion AlertStore.latestHistory at hfinal ⊢
    rwa [hhistory]
  cases hw with
  | evidence rows hknown => exact hsettled h.mem rfl
  | change other changed t hmem hchange hauthorised =>
    have hid := hchange.same.id_eq
    have hne : alert.id ≠ other.id := by
      intro heq
      obtain rfl := Table.eq_of_key h.mem hmem heq
      cases hauthorised with
      | operator halert hevent => exact hoperated halert
      | falsePositive hevent hopen hnew => simpa [hopen, AlertStatus.operational] using h.archived
      | closure hevent hlive hnew => simp [h.archived] at hlive
      | reopening hevent hclosed hnew => simp [h.final] at hclosed
    refine hsettled ((mem_setAlert hmem hid).mpr (Or.inr ⟨h.mem, hne⟩)) ?_
    have hrow : (nextRow fmt uuidText isoformat (store.setAlert changed) t).alertId ≠ alert.id :=
      fun heq => hne (heq.symm.trans hchange.alertId)
    exact logOf_concat_of_ne hrow
  | insert other t hfresh hopening hfinding hincident =>
    refine hsettled ((mem_insertAlert hfresh).mpr (Or.inl h.mem)) ?_
    exact logOf_concat_of_ne fun heq => hfresh alert h.mem (heq.symm.trans hopening.alertId)

theorem Settled.writes (h : Settled store alert)
    (hw : Writes fmt uuidText isoformat operated store store') (hoperated : operated ≠ some alert.id) :
    Settled store' alert ∧ store'.historyOf alert.id = store.historyOf alert.id := by
  induction hw with
  | refl => exact ⟨h, rfl⟩
  | tail _ hw ih =>
    obtain ⟨hsettled, hhistory⟩ := ih
    obtain ⟨hsettled', hhistory'⟩ := hsettled.write hw hoperated
    exact ⟨hsettled', hhistory'.trans hhistory⟩

end

end RetailPrintGuard.Fraud.AlertWrites
