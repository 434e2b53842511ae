import RetailPrintGuard.Fraud.LiveAlerts
import RetailPrintGuard.Parser.Builds

/-! # Excluded jobs and live alerts

An operator's exclusion takes a job out of the analysis. What is live rests on
no document of such a job, whatever the parser, the analysis and the fraud
runs do in between. -/
namespace RetailPrintGuard.Fraud.ExcludedJobs
open RetailPrintGuard.Common.Python RetailPrintGuard.Common.Domain
open RetailPrintGuard.Common.Formats (Codec)
open RetailPrintGuard.Correlation.Scoring RetailPrintGuard.Correlation.Engine
open RetailPrintGuard.Correlation.CandidateBatch RetailPrintGuard.Correlation.Loading
open RetailPrintGuard.Correlation.Worker RetailPrintGuard.Correlation.Current
open RetailPrintGuard.Correlation.Persistence RetailPrintGuard.Correlation.Run
open RetailPrintGuard.Correlation.Membership
open RetailPrintGuard.Db.Models RetailPrintGuard.Db.Repository RetailPrintGuard.Parser.Repository
open RetailPrintGuard.Fraud.Findings RetailPrintGuard.Fraud.Evaluation
open RetailPrintGuard.Fraud.Alerts RetailPrintGuard.Fraud.Alerts.AlertStore
open RetailPrintGuard.Fraud.FalsePositives RetailPrintGuard.Fraud.Worker
open RetailPrintGuard.Fraud.AlertWrites
open RetailPrintGuard.Fraud.AlertWriters RetailPrintGuard.Fraud.AlertRuns
open RetailPrintGuard.Fraud.LiveAlerts
open RetailPrintGuard.Library RetailPrintGuard.Library.Runs

variable {rt : Runtime} {engine : CorrelationEngine}
variable {fmt : Codec} {uuidText : UUID → String} {isoformat : Timestamp → String}
variable {db db' : Database} {correlation : DocumentCorrelation}

/-! ## The rows the analysis rests on -/

/-- Documents belong to stored jobs, members are stored documents. -/
structure Rooted (db : Database) : Prop where
  job : ∀ document ∈ db.documents, ∃ job ∈ db.jobs, job.id = document.jobId
  member : ∀ c ∈ db.correlations, ∀ id ∈ c.memberIds, ∃ document ∈ db.documents, document.id = id

/-- The same correlation, whatever its status. -/
structure SameMembers (c c' : DocumentCorrelation) : Prop where
  memberIds : c'.memberIds = c.memberIds
  transactionId : c'.transactionId = c.transactionId
  inputFingerprint : c'.inputFingerprint = c.inputFingerprint

def SameJob (document document' : Document) : Prop := document'.jobId = document.jobId

def SameExclusion (job job' : PrintJob) : Prop := job'.analysisExcluded = job.analysisExcluded

/-- Rows are added, correlations keep their members, documents their job, and
jobs what is compared. -/
structure Keeps (same : PrintJob → PrintJob → Prop) (db db' : Database) : Prop where
  correlations : Table.Grows SameMembers db.correlations db'.correlations
  documents : Table.Grows SameJob db.documents db'.documents
  jobs : Table.Grows same db.jobs db'.jobs

theorem SameMembers.refl (c : DocumentCorrelation) : SameMembers c c := ⟨rfl, rfl, rfl⟩

theorem SameMembers.trans (a b c : DocumentCorrelation) (h : SameMembers a b) (h' : SameMembers b c) :
    SameMembers a c :=
  ⟨h'.1.trans h.1, h'.2.trans h.2, h'.3.trans h.3⟩

theorem SameJob.refl (document : Document) : SameJob document document := rfl

theorem SameJob.trans (a b c : Document) (h : SameJob a b) (h' : SameJob b c) : SameJob a c :=
  Eq.trans h' h

theorem SameExclusion.refl (job : PrintJob) : SameExclusion job job := rfl

theorem SameExclusion.trans (a b c : PrintJob) (h : SameExclusion a b) (h' : SameExclusion b c) :
    SameExclusion a c := Eq.trans h' h

theorem Keeps.of_eq (hc : db'.correlations = db.correlations) (hd : db'.documents = db.documents)
    (hj : db'.jobs = db.jobs) : Keeps SameExclusion db db' := by
  constructor
  · rw [hc]
    exact Table.Grows.refl SameMembers.refl _
  · rw [hd]
    exact Table.Grows.refl SameJob.refl _
  · rw [hj]
    exact Table.Grows.refl SameExclusion.refl _

theorem Keeps.trans {a b c : Database} (h : Keeps SameExclusion a b) (h' : Keeps SameExclusion b c) :
    Keeps SameExclusion a c :=
  ⟨h.correlations.trans SameMembers.trans h'.correlations, h.documents.trans SameJob.trans h'.documents,
    h.jobs.trans SameExclusion.trans h'.jobs⟩

/-- A member of an old correlation was one before, with the same job. -/
theorem Keeps.back {same : PrintJob → PrintJob → Prop} (h : Keeps same db db') (hr : Rooted db)
    {c c' : DocumentCorrelation} (hc : c ∈ db.correlations) (hc' : c' ∈ db'.correlations)
    (hid : c'.id = c.id) {document : Document} (hd : document ∈ db'.documents)
    (hm : document.id ∈ c'.memberIds) {job : PrintJob} (hj : job ∈ db'.jobs)
    (hjob : job.id = document.jobId) :
    ∃ old ∈ db.documents, old.id ∈ c.memberIds ∧ old.jobId = job.id ∧
      ∃ oldJob ∈ db.jobs, oldJob.id = job.id ∧ same oldJob job := by
  have hmembers := (h.correlations.of_key hc hc' hid).memberIds
  rw [hmembers] at hm
  obtain ⟨old, hold, holdId⟩ := hr.member c hc _ hm
  have holdJob : document.jobId = old.jobId := h.documents.of_key hold hd holdId.symm
  obtain ⟨oldJob, hoj, hojId⟩ := hr.job old hold
  have hids : job.id = oldJob.id := hjob.trans (holdJob.trans hojId.symm)
  exact ⟨old, hold, holdId ▸ hm, holdJob.symm.trans hjob.symm, oldJob, hoj, hids.symm,
    h.jobs.of_key hoj hj hids⟩

/-! ## The steps of the analysis -/

theorem rooted_empty : Rooted {} :=
  ⟨fun _ h => absurd h (Table.not_mem_empty _), fun _ h => absurd h (Table.not_mem_empty _)⟩

/-- Rows that were there before root what was there before. -/
theorem Rooted.of_grows {same : PrintJob → PrintJob → Prop} (h : Rooted db) (hk : Keeps same db db')
    (hdocuments : ∀ document ∈ db'.documents, (∃ old ∈ db.documents, old.jobId = document.jobId) ∨
      ∃ job ∈ db.jobs, job.id = document.jobId)
    (hmembers : ∀ c ∈ db'.correlations, (∃ old ∈ db.correlations, old.memberIds = c.memberIds) ∨
      ∀ id ∈ c.memberIds, ∃ document ∈ db.documents, document.id = id) : Rooted db' := by
  have hjob : ∀ id, (∃ job ∈ db.jobs, job.id = id) → ∃ job ∈ db'.jobs, job.id = id := by
    intro id hid
    obtain ⟨job, hj, rfl⟩ := hid
    obtain ⟨new, hn, hkey, -⟩ := hk.jobs job hj
    exact ⟨new, hn, hkey⟩
  have hdocument : ∀ id, (∃ document ∈ db.documents, document.id = id) →
      ∃ document ∈ db'.documents, document.id = id := by
    intro id hid
    obtain ⟨document, hd, rfl⟩ := hid
    obtain ⟨new, hn, hkey, -⟩ := hk.documents document hd
    exact ⟨new, hn, hkey⟩
  constructor
  · intro document hd
    obtain ⟨old, hold, heq⟩ | hnew := hdocuments document hd
    · exact heq ▸ hjob _ (h.job old hold)
    · exact hjob _ hnew
  · intro c hc id hid
    obtain ⟨old, hold, heq⟩ | hnew := hmembers c hc
    · exact hdocument id (h.member old hold id (heq ▸ hid))
    · exact hdocument id (hnew id hid)

/-- A step of the analysis: it keeps the rows and roots what it adds. -/
def Steady (db db' : Database) : Prop := Keeps SameExclusion db db' ∧ (Rooted db → Rooted db')

theorem Steady.refl (db : Database) : Steady db db := ⟨Keeps.of_eq rfl rfl rfl, id⟩

theorem Steady.trans {a b c : Database} (h : Steady a b) (h' : Steady b c) : Steady a c :=
  ⟨h.1.trans h'.1, fun hr => h'.2 (h.2 hr)⟩

/-- The correlations stay, and every new document belongs to a stored job. -/
theorem Steady.of_growth (hc : db'.correlations = db.correlations)
    (hd : Table.Grows SameJob db.documents db'.documents)
    (hj : Table.Grows SameExclusion db.jobs db'.jobs)
    (hdocuments : ∀ document ∈ db'.documents, (∃ old ∈ db.documents, old.jobId = document.jobId) ∨
      ∃ job ∈ db.jobs, job.id = document.jobId) : Steady db db' := by
  have hk : Keeps SameExclusion db db' := ⟨hc ▸ Table.Grows.refl SameMembers.refl _, hd, hj⟩
  refine ⟨hk, fun h => h.of_grows hk hdocuments ?_⟩
  rw [hc]
  exact fun c hm => Or.inl ⟨c, hm, rfl⟩

/-- Every new correlation has stored documents as members. -/
theorem Steady.of_correlations (hc : Table.Grows SameMembers db.correlations db'.correlations)
    (hd : db'.documents = db.documents) (hj : db'.jobs = db.jobs)
    (hmembers : ∀ c ∈ db'.correlations, (∃ old ∈ db.correlations, old.memberIds = c.memberIds) ∨
      ∀ id ∈ c.memberIds, ∃ document ∈ db.documents, document.id = id) : Steady db db' := by
  have hk : Keeps SameExclusion db db' :=
    ⟨hc, hd ▸ Table.Grows.refl SameJob.refl _, hj ▸ Table.Grows.refl SameExclusion.refl _⟩
  refine ⟨hk, fun h => h.of_grows hk ?_ hmembers⟩
  rw [hd]
  exact fun document hm => Or.inl ⟨document, hm, rfl⟩

theorem Steady.of_jobs (hc : db'.correlations = db.correlations) (hd : db'.documents = db.documents)
    (hj : Table.Grows SameExclusion db.jobs db'.jobs) : Steady db db' := by
  refine Steady.of_growth hc (hd ▸ Table.Grows.refl SameJob.refl _) hj ?_
  rw [hd]
  exact fun document hm => Or.inl ⟨document, hm, rfl⟩

theorem Steady.of_eq (hc : db'.correlations = db.correlations) (hd : db'.documents = db.documents)
    (hj : db'.jobs = db.jobs) : Steady db db' :=
  Steady.of_jobs hc hd (hj ▸ Table.Grows.refl SameExclusion.refl _)

section
variable {job : PrintJob} {parsed : ParsedDocument}

theorem steady_upsertDocument (hjob : ∃ row ∈ db.jobs, row.id = job.id) :
    Steady db (upsertDocument rt db job parsed).1 := by
  unfold upsertDocument
  split
  · exact Steady.refl db
  · refine Steady.of_growth rfl (Table.Grows.insert SameJob.refl _ _)
      (Table.Grows.refl SameExclusion.refl _) fun document hd => ?_
    obtain hold | rfl := Table.mem_of_mem_insert hd
    · exact Or.inl ⟨document, hold, rfl⟩
    · exact Or.inr hjob

theorem steady_upsertParser : Steady db (upsertParser rt db parsed).1 := by
  unfold upsertParser
  split
  · exact Steady.refl db
  · exact Steady.of_eq rfl rfl rfl

theorem steady_appendVersion (document : Document) (parser : ParserVersion) :
    Steady db (appendVersion rt db document parser parsed) := by
  refine Steady.of_growth rfl (Table.Grows.update (fun row => by split <;> rfl) (fun row => ?_) _)
    (Table.Grows.refl SameExclusion.refl _) fun row hrow => ?_
  · show (if _ then _ else _ : Document).jobId = row.jobId
    split <;> rfl
  · obtain ⟨old, hold, rfl⟩ := List.mem_map.mp hrow
    refine Or.inl ⟨old, hold, ?_⟩
    split <;> rfl

theorem steady_storeDocument (hjob : ∃ row ∈ db.jobs, row.id = job.id) :
    Steady db (storeDocument rt job db parsed) := by
  have hparser : Steady db (upsertParser rt (upsertDocument rt db job parsed).1 parsed).1 :=
    (steady_upsertDocument hjob).trans steady_upsertParser
  unfold storeDocument
  dsimp only
  split
  · exact hparser
  · exact hparser.trans (steady_appendVersion _ _)

end

theorem steady_storeDocuments (jobId : UUID) (documents : List ParsedDocument) :
    Steady db (storeDocuments rt db jobId documents) := by
  refine storeDocuments_cases (Steady.refl db) fun job hfind => ?_
  have hfold : Steady db (documents.foldl (storeDocument rt job) db) ∧
      (documents.foldl (storeDocument rt job) db).jobs = db.jobs := by
    refine invariant (fun d => Steady db d ∧ d.jobs = db.jobs) (fun d parsed h => ?_)
      ⟨Steady.refl db, rfl⟩ documents
    refine ⟨h.1.trans (steady_storeDocument ?_), (Parser.Builds.jobs_storeDocument rt d job parsed).trans h.2⟩
    rw [h.2]
    exact ⟨job, (Table.find_eq_some.mp hfind).1, rfl⟩
  refine hfold.1.trans (Steady.of_jobs rfl rfl (Table.Grows.update (fun row => by split <;> rfl) (fun row => ?_) _))
  show (if _ then _ else _ : PrintJob).analysisExcluded = row.analysisExcluded
  split <;> rfl

theorem steady_recordFailure (jobId : UUID) (buildHash : String) :
    Steady db (recordFailure db jobId buildHash) := by
  unfold recordFailure
  split
  · exact Steady.refl db
  · refine Steady.of_jobs rfl rfl (Table.Grows.update (fun row => by split <;> rfl) (fun row => ?_) _)
    show (if _ then _ else _ : PrintJob).analysisExcluded = row.analysisExcluded
    split <;> rfl

/-- A superseded correlation keeps its members. -/
theorem steady_supersedeWhere (db : Database) (query : DocumentCorrelation → Bool) :
    Steady db (supersedeWhere db query) := by
  have hsame : ∀ c : DocumentCorrelation, SameMembers c (if query c then c.supersede else c) := by
    intro c
    split
    · exact ⟨rfl, rfl, rfl⟩
    · exact SameMembers.refl c
  refine Steady.of_correlations (Table.Grows.update (fun row => by split <;> rfl) hsame _) rfl rfl
    fun c hc => ?_
  obtain ⟨old, hold, rfl⟩ := mem_supersedeWhere.mp hc
  exact Or.inl ⟨old, hold, (hsame old).memberIds.symm⟩

theorem steady_persistCorrelation {transaction : CorrelatedTransaction} {loaded : List LoadedDocument}
    (hids : ∀ id ∈ transaction.ids, ∃ document ∈ db.documents, document.id = id) :
    Steady db (persistCorrelation rt engine db transaction loaded) := by
  unfold persistCorrelation
  dsimp only
  split
  · next existing _ =>
    have hsame : ∀ c : DocumentCorrelation, SameMembers c
        (if c.id = existing.id then reactivate transaction c else c) := by
      intro c
      split
      · exact ⟨reactivate_memberIds c, reactivate_transactionId c, reactivate_fingerprint c⟩
      · exact SameMembers.refl c
    refine (steady_supersedeWhere db _).trans (Steady.of_correlations
      (Table.Grows.update (fun row => by split <;> simp) hsame _) rfl rfl fun c hc => ?_)
    obtain ⟨old, hold, rfl⟩ := List.mem_map.mp hc
    exact Or.inl ⟨old, hold, (hsame old).memberIds.symm⟩
  · refine (steady_supersedeWhere db _).trans (Steady.of_correlations
      (Table.Grows.insert SameMembers.refl _ _) rfl rfl fun c hc => ?_)
    obtain hold | rfl := Table.mem_of_mem_insert hc
    · exact Or.inl ⟨c, hold, rfl⟩
    · rw [newCorrelation_memberIds]
      exact Or.inr hids

theorem steady_runOnce (limit : Nat) : Steady db (Correlation.Worker.runOnce rt engine db limit) := by
  have hprepare : Steady db (prepare rt engine db limit).database :=
    (steady_supersedeWhere db _).trans (Steady.of_eq rfl rfl rfl)
  have hfold : ∀ t ∈ (prepare rt engine db limit).persisted rt engine, ∀ d,
      Steady db d ∧ d.documents = db.documents →
        Steady db (persistCorrelation rt engine d t (prepare rt engine db limit).sales) ∧
          (persistCorrelation rt engine d t (prepare rt engine db limit).sales).documents =
            db.documents := by
    intro t ht d h
    refine ⟨h.1.trans (steady_persistCorrelation fun id hid => ?_),
      (sameInput_persist rt engine d t _).1.documents.trans h.2⟩
    obtain ⟨document, hdocument, rfl⟩ := List.mem_map.mp hid
    obtain ⟨row, hrow, -, rfl⟩ :=
      row_of_mem_values (documents_of_transaction (mem_persisted.mp ht).1 hdocument)
    rw [h.2]
    exact ⟨row.document, (mem_documentQuery.mp hrow).1, rfl⟩
  exact (invariant_of_mem (fun d => Steady db d ∧ d.documents = db.documents) hfold
    ⟨hprepare, rfl⟩).1

theorem steady_apply (step : System.Step) (hstep : isReview step = false) :
    Steady db (System.apply rt engine db step) := by
  cases step with
  | importJob job => exact Steady.of_jobs rfl rfl (Table.Grows.insert SameExclusion.refl _ _)
  | storeDocuments jobId documents => exact steady_storeDocuments jobId documents
  | recordFailure jobId buildHash => exact steady_recordFailure jobId buildHash
  | activateParserVersion name versionId rewind => exact Steady.of_eq rfl rfl rfl
  | reviewJob jobId action => cases hstep
  | runOnce limit =>
    rw [System.apply]
    exact steady_runOnce limit

/-! ## The rows alerts rest on -/

/-- The alert was found in the correlation, on the input it has. -/
structure FoundIn (alert : FraudAlert) (c : DocumentCorrelation) : Prop where
  id : c.id = alert.correlationId
  transactionId : c.transactionId = alert.transactionId
  input : alert.findingKey.preimage.correlationInput = c.inputFingerprint

/-- Every alert was found in a stored correlation. -/
def Grounded (db : Database) (store : AlertStore) : Prop :=
  ∀ alert ∈ store.alerts, ∃ c ∈ db.correlations, FoundIn alert c

/-- No document of the correlation belongs to an excluded job. -/
def Untainted (db : Database) (c : DocumentCorrelation) : Prop :=
  ∀ document ∈ db.documents, document.id ∈ c.memberIds → ∀ job ∈ db.jobs,
    job.id = document.jobId → job.analysisExcluded = false

/-- What is live rests on no excluded job. -/
def Trusted (db : Database) (store : AlertStore) : Prop :=
  ∀ alert ∈ store.alerts, alert.isCanonical = true → alert.status.operational = true →
    ∀ c ∈ db.correlations, c.id = alert.correlationId → Untainted db c

variable {store store' : AlertStore}

theorem Grounded.of_keeps {same : PrintJob → PrintJob → Prop} (h : Grounded db store)
    (hk : Keeps same db db') : Grounded db' store := by
  intro alert halert
  obtain ⟨c, hc, hfound⟩ := h alert halert
  obtain ⟨new, hnew, hkey, hsame⟩ := hk.correlations c hc
  exact ⟨new, hnew, hkey.trans hfound.id, hsame.transactionId.trans hfound.transactionId,
    hfound.input.trans hsame.inputFingerprint.symm⟩

theorem Trusted.of_keeps (h : Trusted db store) (hg : Grounded db store) (hr : Rooted db)
    (hk : Keeps SameExclusion db db') : Trusted db' store := by
  intro alert halert hcanonical hlive c hc hid document hd hm job hj hjob
  obtain ⟨old, hold, holdId, -⟩ := hg alert halert
  obtain ⟨before, hbefore, hbeforeId, hbeforeJob, oldJob, hoj, hojId, hsame⟩ :=
    hk.back hr hold hc (hid.trans holdId.symm) hd hm hj hjob
  exact Eq.trans hsame (h alert halert hcanonical hlive old hold holdId before hbefore hbeforeId oldJob
    hoj (hojId.trans hbeforeJob.symm))

/-- Alerts that were there before, no more of them live. -/
def Weakens (store store' : AlertStore) : Prop :=
  ∀ alert ∈ store'.alerts, ∃ old ∈ store.alerts, SameAlert old alert ∧
    (alert.status.operational = true → old.status.operational = true)

theorem Weakens.of_rows {g : FraudAlert → FraudAlert} (hsame : ∀ alert, SameAlert alert (g alert))
    (hlive : ∀ alert, (g alert).status.operational = true → g alert = alert)
    (hrows : store'.alerts.rows = store.alerts.rows.map g) : Weakens store store' := by
  intro alert halert
  rw [← Table.mem_rows, hrows, List.mem_map] at halert
  obtain ⟨old, hold, rfl⟩ := halert
  exact ⟨old, hold, hsame old, fun h => hlive old h ▸ h⟩

theorem Grounded.weakens (h : Grounded db store) (hw : Weakens store store') : Grounded db store' := by
  intro alert halert
  obtain ⟨old, hold, hsame, -⟩ := hw alert halert
  obtain ⟨c, hc, hfound⟩ := h old hold
  rw [hsame]
  exact ⟨c, hc, hfound.id, hfound.transactionId, hfound.input⟩

theorem Trusted.weakens (h : Trusted db store) (hw : Weakens store store') : Trusted db store' := by
  intro alert halert hcanonical hlive c hc hid
  obtain ⟨old, hold, hsame, holdLive⟩ := hw alert halert
  refine h old hold ?_ (holdLive hlive) c hc ?_
  · rw [hsame] at hcanonical
    exact hcanonical
  · rw [hsame] at hid
    exact hid

/-! ## A fraud run -/

section
variable {s s' : State} {t : Session} {input : RunInput} {finding : FraudFinding}
variable {members : List LoadedDocument} {suppression : Option SuppressedFinding} {limit : Option Nat}

/-- A correlation whose members all load rests on analysable jobs. -/
theorem untainted_of_current (h : CurrentInput db correlation) : Untainted db correlation := by
  intro document hd hm job hj hjob
  obtain ⟨row, hrow, hid⟩ := allLoaded_iff.mp h.loaded document.id hm
  obtain ⟨hrowDocument, hquery⟩ := mem_documentQuery.mp hrow
  obtain ⟨-, -, hfind, hanalysable⟩ := queryRow_eq_some.mp hquery
  obtain rfl := Table.eq_of_key hrowDocument hd hid
  obtain ⟨hrowJob, hrowJobId⟩ := Table.find_eq_some.mp hfind
  obtain rfl := Table.eq_of_key hrowJob hj (hrowJobId.trans hjob.symm)
  simp only [analysable, Bool.and_eq_true, Bool.not_eq_true'] at hanalysable
  exact hanalysable.1

/-- Two correlations of one input have the same members. -/
theorem Untainted.of_fingerprint (hs : Sound rt db) {c c' : DocumentCorrelation}
    (hc : c ∈ db.correlations) (hc' : c' ∈ db.correlations)
    (hinput : c'.inputFingerprint = c.inputFingerprint) (h : Untainted db c) : Untainted db c' := by
  intro document hd hm
  refine h document hd ((hs.members c hc document.id).mpr ?_)
  rw [← hinput]
  exact (hs.members c' hc' document.id).mp hm

/-- The correlation of the alert a finding is reported in has the documents of
the correlation it was found in. -/
theorem untainted_of_reports (hs : Sound rt db) (hg : Grounded db store) {alert : FraudAlert}
    (halert : alert ∈ store.alerts) (hcorrelation : correlation ∈ db.correlations)
    (h : Untainted db correlation) (hreports : Reports correlation finding alert)
    {c : DocumentCorrelation} (hc : c ∈ db.correlations) (hid : c.id = alert.correlationId) :
    Untainted db c := by
  obtain ⟨old, hold, holdId, -, hinput⟩ := hg alert halert
  obtain rfl := Table.eq_of_key hold hc (holdId.trans hid.symm)
  obtain hfinding | hincident := hreports
  · simp only [sameFinding, Bool.and_eq_true, beq_iff_eq] at hfinding
    rw [hfinding.2] at hinput
    exact h.of_fingerprint hs hcorrelation hold hinput.symm
  · simp only [sameIncident, Bool.and_eq_true, beq_iff_eq] at hincident
    obtain rfl := Table.eq_of_key hold hcorrelation (holdId.trans hincident.1.2)
    exact h

/-- What every state of a run keeps. -/
structure Founded (db : Database) (store : AlertStore) : Prop where
  grounded : Grounded db store
  trusted : Trusted db store

theorem Founded.weakens (h : Founded db store) (hw : Weakens store store') : Founded db store' :=
  ⟨h.grounded.weakens hw, h.trusted.weakens hw⟩

theorem Grounded.persistFinding (h : Grounded db t.store) (hcorrelation : correlation ∈ db.correlations)
    (htransaction : finding.transactionId = correlation.transactionId) :
    Grounded db (persistFinding rt fmt uuidText isoformat t input correlation members finding
      suppression).store := by
  intro alert halert
  obtain ⟨hsame, -⟩ | ⟨existing, hexisting, -, hset, -⟩ | ⟨ruleVersion, -, -, hinsert, -⟩ :=
    @alerts_persistFinding rt fmt uuidText isoformat correlation members t input finding suppression
  · exact h alert (hsame ▸ halert)
  · rw [hset] at halert
    have hmem := (mem_of_existingAlert hexisting).1
    obtain rfl | ⟨hold, -⟩ := (mem_setAlert hmem (reopened_id existing)).mp halert
    · obtain ⟨c, hc, hfound⟩ := h existing hmem
      exact ⟨c, hc, hfound.id, hfound.transactionId, hfound.input⟩
    · exact h alert hold
  · rw [hinsert] at halert
    obtain hold | rfl := Table.mem_of_mem_insert halert
    · exact h alert hold
    · exact ⟨correlation, hcorrelation, rfl, htransaction.symm, rfl⟩

theorem Trusted.persistFinding (h : Trusted db t.store) (hg : Grounded db t.store) (hs : Sound rt db)
    (hcorrelation : correlation ∈ db.correlations) (huntainted : Untainted db correlation) :
    Trusted db (persistFinding rt fmt uuidText isoformat t input correlation members finding
      suppression).store := by
  intro alert halert hcanonical hlive c hc hid
  obtain ⟨hsame, -⟩ | ⟨existing, hexisting, -, hset, -⟩ | ⟨ruleVersion, -, -, hinsert, -⟩ :=
    @alerts_persistFinding rt fmt uuidText isoformat correlation members t input finding suppression
  · exact h alert (hsame ▸ halert) hcanonical hlive c hc hid
  · obtain ⟨hmem, hreports⟩ := mem_of_existingAlert hexisting
    rw [hset] at halert
    obtain rfl | ⟨hold, -⟩ := (mem_setAlert hmem (reopened_id existing)).mp halert
    · exact untainted_of_reports hs hg hmem hcorrelation huntainted hreports hc hid
    · exact h alert hold hcanonical hlive c hc hid
  · rw [hinsert] at halert
    obtain hold | rfl := Table.mem_of_mem_insert halert
    · exact h alert hold hcanonical hlive c hc hid
    · obtain rfl := Table.eq_of_key hcorrelation hc hid.symm
      exact huntainted

theorem Founded.evaluateCorrelation {start : AlertStore} {correlations : List DocumentCorrelation}
    {t' : Session} (h : Founded db t.store) (hs : Sound rt db)
    (hcorrelation : correlation ∈ db.correlations)
    (heval : evaluateCorrelation rt engine fmt uuidText isoformat input start correlations
      (comparisonLoaded db limit) t correlation = some t') : Founded db t'.store := by
  refine invariant_of_evaluateCorrelation (P := fun t : Session => Founded db t.store)
    (fun members _ _ hmembers _ _ finding suppression htransaction _ t ht => ?_) h heval
  have huntainted := untainted_of_current (mem_currentMembers hmembers).1
  exact ⟨ht.grounded.persistFinding hcorrelation htransaction,
    ht.trusted.persistFinding ht.grounded hs hcorrelation huntainted⟩

theorem startOf_weakens : Weakens s.store (startOf rt fmt uuidText isoformat s input) := by
  refine Weakens.of_rows (fun alert => ?_) (fun alert hlive => ?_)
    (@reclassify_spec fmt uuidText isoformat s.store none rt s.db input.settings input.now).2
  · split
    · cases knownDefect rt s.db input.settings s.store alert <;> rfl
    · exact SameAlert.refl alert
  · split at hlive
    · rw [if_pos ‹_›]
      exact reclassified_of_live hlive
    · exact if_neg ‹_›

theorem resolved_weakens (h : Behind t) (now : Timestamp) :
    Weakens t.store (resolveSupersededAlerts fmt uuidText isoformat t now) := by
  refine Weakens.of_rows (fun alert => ?_) (fun alert hlive => ?_)
    (@resolveSuperseded_spec fmt uuidText isoformat none t h now).2
  · split
    · exact sameAlert_resolved t.db now alert
    · exact SameAlert.refl alert
  · split at hlive
    · rw [if_pos ‹_›]
      exact resolved_of_live hlive
    · exact if_neg ‹_›

theorem Founded.runOnce (h : Founded s.db s.store) (hs : Sound rt s.db)
    (hrun : Worker.runOnce rt engine fmt uuidText isoformat s input limit = some s') :
    Founded s.db s'.store := by
  obtain ⟨t, ht, rfl⟩ := runOnce_eq_some hrun
  have hfound := invariant_of_foldlM (fun t : Session => Founded s.db t.store)
    (fun correlation hmem _ _ heval hf => hf.evaluateCorrelation hs (mem_currentCorrelations hmem).1 heval)
    (h.weakens startOf_weakens) ht.evaluated
  exact hfound.weakens (resolved_weakens ht.behind _)

end

/-! ## A review -/

/-- What a review makes of a job. -/
structure Reviewed (jobId : UUID) (action : ReviewAction) (job job' : PrintJob) : Prop where
  target : job.id = jobId → job'.analysisExcluded = action.target.2
  other : job.id ≠ jobId → job'.analysisExcluded = job.analysisExcluded

section
variable {jobId : UUID} {action : ReviewAction} {job : PrintJob}

theorem keeps_of_correlations {same : PrintJob → PrintJob → Prop}
    (hc : Table.Grows SameMembers db.correlations db'.correlations)
    (hd : db'.documents = db.documents) (hj : Table.Grows same db.jobs db'.jobs)
    (hmembers : ∀ c ∈ db'.correlations, ∃ old ∈ db.correlations, old.memberIds = c.memberIds) :
    Keeps same db db' ∧ (Rooted db → Rooted db') := by
  have hk : Keeps same db db' := ⟨hc, hd ▸ Table.Grows.refl SameJob.refl _, hj⟩
  refine ⟨hk, fun h => h.of_grows hk ?_ fun c hm => Or.inl (hmembers c hm)⟩
  rw [hd]
  exact fun document hm => Or.inl ⟨document, hm, rfl⟩

theorem keeps_reviewJob (hfind : db.jobs.find jobId = some job)
    (hcomplete : technicallyComplete job = false) :
    Keeps (Reviewed jobId action) db (Db.Repository.reviewJob db jobId action) ∧
      (Rooted db → Rooted (Db.Repository.reviewJob db jobId action)) := by
  have hjobs : Table.Grows (Reviewed jobId action) db.jobs (db.jobs.update
      (fun row => if row.id = jobId then { row with
        reviewState := action.target.1
        analysisExcluded := action.target.2 } else row) (fun row => by split <;> rfl)) := by
    refine Table.Grows.update (fun row => by split <;> rfl) (fun row => ⟨fun hid => ?_, fun hid => ?_⟩) _
    · rw [if_pos hid]
    · rw [if_neg hid]
  unfold Db.Repository.reviewJob
  simp only [hfind, hcomplete, Bool.false_eq_true, if_false]
  split
  · refine keeps_of_correlations (steady_supersedeWhere db _).1.correlations rfl hjobs fun c hc => ?_
    obtain ⟨old, hold, rfl⟩ := mem_supersedeWhere.mp hc
    refine ⟨old, hold, ?_⟩
    split <;> rfl
  · exact keeps_of_correlations (Table.Grows.refl SameMembers.refl _) rfl hjobs
      fun c hc => ⟨c, hc, rfl⟩

/-- Including a job again taints nothing. -/
theorem Trusted.of_inclusion (h : Trusted db store) (hg : Grounded db store) (hr : Rooted db)
    (hk : Keeps (Reviewed jobId action) db db') (haction : action.target.2 = false) :
    Trusted db' store := by
  intro alert halert hcanonical hlive c hc hid document hd hm row hj hjob
  obtain ⟨old, hold, holdId, -⟩ := hg alert halert
  obtain ⟨before, hbefore, hbeforeId, hbeforeJob, oldJob, hoj, hojId, hreviewed⟩ :=
    hk.back hr hold hc (hid.trans holdId.symm) hd hm hj hjob
  by_cases hjobId : oldJob.id = jobId
  · exact (hreviewed.target hjobId).trans haction
  · exact (hreviewed.other hjobId).trans (h alert halert hcanonical hlive old hold holdId before hbefore
      hbeforeId oldJob hoj (hojId.trans hbeforeJob.symm))

/-- Excluding a job leaves no live alert on its documents. -/
theorem Trusted.of_exclusion {reason : String} {now : Timestamp} (h : Trusted db store)
    (hg : Grounded db store) (hr : Rooted db) (hk : Keeps (Reviewed jobId action) db db')
    (hrows : store'.alerts.rows = store.alerts.rows.map fun row =>
      if excludedAlert (jobCorrelationIds db jobId) row then justified reason now row else row) :
    Trusted db' store' := by
  intro alert halert hcanonical hlive c hc hid document hd hm row hj hjob
  rw [← Table.mem_rows, hrows, List.mem_map] at halert
  obtain ⟨kept, hkept, rfl⟩ := halert
  cases hexcluded : excludedAlert (jobCorrelationIds db jobId) kept with
  | true =>
    rw [hexcluded] at hlive
    cases hlive
  | false =>
    simp only [hexcluded, Bool.false_eq_true, if_false] at hcanonical hlive hid
    obtain ⟨old, hold, holdId, -⟩ := hg kept hkept
    obtain ⟨before, hbefore, hbeforeId, hbeforeJob, oldJob, hoj, hojId, hreviewed⟩ :=
      hk.back hr hold hc (hid.trans holdId.symm) hd hm hj hjob
    by_cases hjobId : oldJob.id = jobId
    · -- the correlation would be one of the job, and the alert closed
      have hdocument : before.id ∈ jobDocumentIds db jobId := by
        refine List.mem_map_of_mem (List.mem_filter.mpr ⟨hbefore, ?_⟩)
        rw [beq_iff_eq, hbeforeJob, ← hojId, hjobId]
      have hids : kept.correlationId ∈ jobCorrelationIds db jobId := by
        rw [← holdId]
        exact List.mem_map_of_mem (List.mem_filter.mpr ⟨hold,
          DocumentCorrelation.overlaps_iff.mpr ⟨before.id, hbeforeId, hdocument⟩⟩)
      simp [excludedAlert, hids, hcanonical, hlive] at hexcluded
    · exact (hreviewed.other hjobId).trans (h kept hkept hcanonical hlive old hold holdId before hbefore
        hbeforeId oldJob hoj (hojId.trans hbeforeJob.symm))

end

/-! ## Whole runs -/

/-- An operator opens an alert again only where it is live anyway. -/
def Careful (s : State) : Step → Prop
  | .updateAlert alertId update .. => ∀ status ∈ update.status, status.operational = true →
    ∀ alert ∈ s.store.alerts.find alertId, alert.status.operational = true
  | .analysis _ | .reviewJob .. | .fraudRun .. => True

instance (s : State) : (step : Step) → Decidable (Careful s step)
  | .updateAlert alertId update .. => inferInstanceAs (Decidable (∀ status ∈ update.status,
    status.operational = true → ∀ alert ∈ s.store.alerts.find alertId, alert.status.operational = true))
  | .analysis _ | .reviewJob .. | .fraudRun .. => inferInstanceAs (Decidable True)

/-- The invariant of every run. -/
structure Stands (rt : Runtime) (s : State) : Prop where
  sound : Sound rt s.db
  rooted : Rooted s.db
  founded : Founded s.db s.store

theorem stands_empty : Stands rt {} :=
  ⟨sound_empty rt, rooted_empty, fun _ h => absurd h List.not_mem_nil,
    fun _ h => absurd h List.not_mem_nil⟩

variable {s : State}

theorem weakens_updateAlert {alertId actorId : UUID} {update : AlertUpdate} {now : Timestamp}
    (h : Careful s (.updateAlert alertId update actorId now)) :
    Weakens s.store (s.store.updateAlert fmt uuidText isoformat alertId update actorId now) := by
  intro other hother
  unfold updateAlert at hother
  cases hfind : s.store.alerts.find alertId with
  | none =>
    rw [hfind] at hother
    exact ⟨other, hother, SameAlert.refl other, id⟩
  | some alert =>
    rw [hfind] at hother
    have hmem := (Table.find_eq_some.mp hfind).1
    have hsame := sameAlert_edit update actorId now alert
    obtain rfl | ⟨hold, -⟩ := (mem_setAlert hmem hsame.id_eq).mp hother
    · refine ⟨alert, hmem, hsame, fun hlive => ?_⟩
      cases hstatus : update.status with
      | none =>
        simp only [AlertUpdate.edit, hstatus] at hlive
        split at hlive <;> exact hlive
      | some status =>
        refine h status hstatus ?_ alert hfind
        simp only [AlertUpdate.edit, hstatus] at hlive
        split at hlive <;> split at hlive <;> exact hlive
    · exact ⟨other, hold, SameAlert.refl other, id⟩

theorem Stands.reviewJob (h : Stands rt s) (jobId : UUID) (action : ReviewAction) (actorId : UUID)
    (reason : String) (occurredAt : Timestamp) :
    Stands rt (reviewJob fmt uuidText isoformat s jobId action actorId reason occurredAt) := by
  unfold AlertRuns.reviewJob
  cases hfind : s.db.jobs.find jobId with
  | none => exact h
  | some job =>
    dsimp only
    cases hcomplete : technicallyComplete job with
    | true => exact h
    | false =>
      rw [if_neg Bool.false_ne_true]
      have hsound := sound_reviewJob h.sound jobId action
      obtain ⟨hk, hrooted⟩ := @keeps_reviewJob s.db jobId action job hfind hcomplete
      have hgrounded := h.founded.grounded.of_keeps hk
      cases haction : action.target.2 with
      | false =>
        rw [if_neg Bool.false_ne_true]
        exact ⟨hsound, hrooted h.rooted, hgrounded,
          h.founded.trusted.of_inclusion h.founded.grounded h.rooted hk haction⟩
      | true =>
        rw [if_pos rfl]
        have hrows := (@justifyAlerts_spec fmt uuidText isoformat s.store none
          (jobCorrelationIds s.db jobId) jobId actorId reason occurredAt).2
        refine ⟨hsound, hrooted h.rooted, hgrounded.weakens (Weakens.of_rows (fun alert => ?_)
          (fun alert hlive => ?_) hrows),
          h.founded.trusted.of_exclusion h.founded.grounded h.rooted hk hrows⟩
        · split <;> rfl
        · split at hlive
          · cases hlive
          · exact if_neg ‹_›

theorem Stands.apply (h : Stands rt s) (hids : Drawn rt s) (step : Step) (hstep : Careful s step) :
    Stands rt (apply rt engine fmt uuidText isoformat s step) := by
  cases step with
  | analysis step =>
    have hsteady := @steady_apply rt engine s.db step.val step.property
    exact ⟨sound_apply h.sound step.val, hsteady.2 h.rooted,
      h.founded.grounded.of_keeps hsteady.1,
      h.founded.trusted.of_keeps h.founded.grounded h.rooted hsteady.1⟩
  | reviewJob jobId action actorId reason occurredAt =>
    exact h.reviewJob jobId action actorId reason occurredAt
  | fraudRun input maxTransactions =>
    unfold AlertRuns.apply fraudRun
    dsimp only
    split
    · exact h
    · cases hrun : Worker.runOnce rt engine fmt uuidText isoformat s input maxTransactions with
      | none => exact h
      | some s' =>
        have hadvances := advances_runOnce hids hrun
        have hfounded := h.founded.runOnce h.sound hrun
        have hdb := hadvances.db
        refine ⟨h.sound.frame ?_ hadvances.drawn, ?_, ?_⟩
        · show s'.db.correlations = s.db.correlations
          rw [hdb]
        · show Rooted s'.db
          rw [hdb]
          exact ⟨h.rooted.job, h.rooted.member⟩
        · show Founded s'.db s'.store
          rw [hdb]
          exact ⟨hfounded.grounded, hfounded.trusted⟩
  | updateAlert alertId update actorId now =>
    exact ⟨h.sound, h.rooted, h.founded.weakens (weakens_updateAlert hstep)⟩

/-- **Excluded evidence stays silent.** Parses, correlation runs, activations,
reviews, fraud runs and decisions follow each other in any order; as long as no
operator opens an archived alert again, no live alert stands in a correlation
with a document of an excluded job. -/
theorem excluded_jobs_silent (rt : Runtime) (engine : CorrelationEngine) (fmt : Codec)
    (uuidText : UUID → String) (isoformat : Timestamp → String) (steps : List Step)
    (h : AllSteps (apply rt engine fmt uuidText isoformat) Careful {} steps) :
    Trusted (run rt engine fmt uuidText isoformat steps).db
      (run rt engine fmt uuidText isoformat steps).store := by
  have hrun : Stands rt (run rt engine fmt uuidText isoformat steps) ∧
      Drawn rt (run rt engine fmt uuidText isoformat steps) :=
    invariant_of_allSteps (fun s => Stands rt s ∧ Drawn rt s)
      (fun s step hstep hs => ⟨hs.1.apply hs.2 step hstep, (stepWrites_apply hs.2 step).ids⟩)
      ⟨stands_empty, fun _ h => absurd h List.not_mem_nil⟩ h
  exact hrun.1.founded.trusted

/-- The open table of the example, whose job is excluded while its alert is live. -/
def excludedTableSteps : List Step :=
  openTableSteps.take 4 ++ .reviewJob 1 .excludeFromAnalysis 9 "test" { micros := 0 } ::
    laterSteps.take 2

theorem excludedTable_silent :
    Trusted (sampleRun excludedTableSteps).db (sampleRun excludedTableSteps).store :=
  excluded_jobs_silent asciiRuntime standardEngine Common.Runtime.runtime toString
    (fun time => toString time.micros) excludedTableSteps (by decide +kernel)

end RetailPrintGuard.Fraud.ExcludedJobs
