import RetailPrintGuard.Common.Amounts
import RetailPrintGuard.Correlation.Loading
import RetailPrintGuard.Parser.Repository

/-! # The parser worker

Every job of a batch is loaded, parsed and stored inside one guarded block. An
exception of a guarded class is recorded as a failure of the job and the loop
goes on; any other class leaves `run_once`. -/
namespace RetailPrintGuard.Parser.Worker
open RetailPrintGuard.Common.Amounts RetailPrintGuard.Common.Python RetailPrintGuard.Common.Domain
open RetailPrintGuard.Correlation.CandidateBatch RetailPrintGuard.Correlation.Loading
open RetailPrintGuard.Db.Models RetailPrintGuard.Library
open RetailPrintGuard.Parser.Repository

/-- What `load_job` returns for a job. -/
structure Source where
  deviceId : String
  sessionId : String
  sourceJobId : String
  parserKind : String
  capturedAt : Timestamp
  manifestSha256 : String
  requestPath : String
  responsePath : Option String := none
  request : List UInt8
  response : List UInt8 := []
  importStatus : ImportStatus

/-- The functions the worker calls on a payload. -/
structure Parsers where
  parseEscpos : Source → Except Raised (List ParsedDocument)
  parseRch : Source → Except Raised (List ParsedDocument)
  isCompletePosCommand : List UInt8 → Except Raised Bool

/-- What a run finds outside the tables of the analysis: the payload rows, the
build of each job's parser, and the transactions the database refuses. -/
structure Environment where
  loadJob : UUID → Except Raised (Option Source)
  buildHash : UUID → String
  storeFails : UUID → Bool := fun _ => false
  recordFails : UUID → Bool := fun _ => false
  /-- the devices the beeper supports, when there is one -/
  beeper : Option (String → Bool) := none

structure ParserRunReport where
  discovered : Nat := 0
  parsedJobs : Nat := 0
  parsedDocuments : Nat := 0
  failed : Nat := 0
deriving DecidableEq

/-! ## One job -/

section
variable (rt : Runtime) (parsers : Parsers) (env : Environment) (reparse : Bool)

/-- The beeper looks at the payload: its classification is part of the guarded
block, only the notification itself is isolated. -/
def beeperAsks (source : Source) : Bool :=
  match env.beeper with
  | none => false
  | some supports => !reparse && source.importStatus == .imported && supports source.deviceId

def parseJob (source : Source) : Except Raised (List ParsedDocument) :=
  if source.parserKind = "escpos" then
    if beeperAsks env reparse source then do
      let _ ← parsers.isCompletePosCommand source.request
      parsers.parseEscpos source
    else parsers.parseEscpos source
  else if source.parserKind = "rch_observed" then parsers.parseRch source
  else .error .valueError

/-- `store_documents`: the job must exist, and a refused transaction is rolled
back whole. -/
def store (db : Database) (jobId : UUID) (documents : List ParsedDocument) :
    Except Raised Database :=
  match storeTransaction rt db jobId documents with
  | none => .error .parserRepositoryError
  | some stored => if env.storeFails jobId then .error .parserRepositoryError else .ok stored

/-- The guarded block. A job that is gone is skipped. -/
def attempt (db : Database) (jobId : UUID) : Except Raised (Option Database) := do
  match ← env.loadJob jobId with
  | none => return none
  | some source =>
    let documents ← parseJob parsers env reparse source
    let stored ← store rt env db jobId documents
    return some stored

/-- `record_failure` under `contextlib.suppress(ParserRepositoryError)`. -/
def recordFailed (db : Database) (jobId : UUID) : Database :=
  if env.recordFails jobId then db else recordFailure db jobId (env.buildHash jobId)

/-- The versions a store appended. -/
def inserted (db stored : Database) : Nat :=
  stored.versions.rows.length - db.versions.rows.length

/-- One turn of the loop, or the exception that leaves it. -/
def runJob (db : Database) (report : ParserRunReport) (jobId : UUID) :
    Database × Except Raised ParserRunReport :=
  match attempt rt parsers env reparse db jobId with
  | .ok none => (db, .ok report)
  | .ok (some stored) =>
    (stored, .ok
      { report with
        parsedJobs := report.parsedJobs + 1
        parsedDocuments := report.parsedDocuments + inserted db stored })
  | .error raised =>
    if raised.guarded then
      (recordFailed env db jobId, .ok { report with failed := report.failed + 1 })
    else (db, .error raised)

/-- The loop of `run_once`. What earlier jobs committed stays. -/
def runJobs (db : Database) (report : ParserRunReport) : List UUID →
    Database × Except Raised ParserRunReport
  | [] => (db, .ok report)
  | jobId :: rest =>
    match runJob rt parsers env reparse db report jobId with
    | (db', .ok report') => runJobs db' report' rest
    | (db', .error raised) => (db', .error raised)

def runOnce (db : Database) (jobIds : List UUID) : Database × Except Raised ParserRunReport :=
  runJobs rt parsers env reparse db { discovered := jobIds.length } jobIds

end

/-! ## A recorded failure -/

variable {rt : Runtime} {parsers : Parsers} {env : Environment} {reparse : Bool}
variable {db : Database} {jobId : UUID} {build : String}

/-- The rows a recorded failure leaves in place. -/
structure KeepsRows (db db' : Database) : Prop where
  documents : db'.documents = db.documents
  versions : db'.versions = db.versions
  parserVersions : db'.parserVersions = db.parserVersions
  activeParsers : db'.activeParsers = db.activeParsers

theorem KeepsRows.refl (db : Database) : KeepsRows db db := ⟨rfl, rfl, rfl, rfl⟩

theorem keepsRows_recordFailure (db : Database) (jobId : UUID) (build : String) :
    KeepsRows db (recordFailure db jobId build) := by
  unfold recordFailure
  split
  · exact KeepsRows.refl db
  · exact ⟨rfl, rfl, rfl, rfl⟩

theorem find_recordFailure_of_ne {id : UUID} (h : id ≠ jobId) :
    (recordFailure db jobId build).jobs.find id = db.jobs.find id := by
  unfold recordFailure
  split
  · rfl
  · exact Table.find_update (fun row => by split <;> rfl) fun row hrow => if_neg (hrow ▸ h)

/-- The job itself only changes its import status, to one that is not
technically complete. -/
theorem find_recordFailure_self (build : String) {job : PrintJob}
    (h : db.jobs.find jobId = some job) :
    ∃ status, (status = .parseFailed ∨ status = .parseRetry) ∧
      (recordFailure db jobId build).jobs.find jobId = some { job with importStatus := status } := by
  obtain ⟨hm, hid⟩ := Table.find_eq_some.mp h
  unfold recordFailure
  rw [h]
  refine ⟨if 8 ≤ (db.parserFailures.filter fun event => event == (jobId, build)).length + 1
    then .parseFailed else .parseRetry, ?_, ?_⟩
  · split
    · exact Or.inl rfl
    · exact Or.inr rfl
  · exact Table.find_eq_some.mpr ⟨List.mem_map.mpr ⟨job, hm, if_pos hid⟩, hid⟩

theorem technicallyComplete_of_failed {job : PrintJob} {status : ImportStatus}
    (h : status = .parseFailed ∨ status = .parseRetry) :
    technicallyComplete { job with importStatus := status } = false := by
  obtain rfl | rfl := h <;> simp [technicallyComplete]

/-- The failed job stays in the analysis: a reviewer found it usable. -/
def Withheld (db : Database) (jobId : UUID) : Prop :=
  ∀ job ∈ db.jobs.find jobId, job.reviewState ≠ .verifiedUsable

instance (db : Database) (jobId : UUID) : Decidable (Withheld db jobId) :=
  inferInstanceAs (Decidable (∀ _ ∈ _, _))

theorem analysable_failed (job : PrintJob) {status : ImportStatus}
    (h : status = .parseFailed ∨ status = .parseRetry) :
    analysable { job with importStatus := status } =
      (analysable job && job.reviewState == .verifiedUsable) := by
  simp only [analysable, technicallyComplete_of_failed h, Bool.false_or]
  cases job.analysisExcluded <;> cases technicallyComplete job <;>
    cases hv : job.reviewState == .verifiedUsable <;> rfl

theorem latestVersion_recordFailure (documentId : UUID) :
    latestVersion (recordFailure db jobId build) documentId = latestVersion db documentId := by
  have h := keepsRows_recordFailure db jobId build
  exact latestVersion_congr h.versions h.parserVersions h.activeParsers documentId

/-- A loaded document is read from a document, its current version and its job. -/
theorem mem_loaded_iff {ids : List UUID} {item : LoadedDocument} :
    item ∈ loadLatestDocuments db ids ↔ ∃ row : QueryRow, row.load = item ∧
      row.document ∈ db.documents ∧ row.document.id ∈ ids ∧
      latestVersion db row.document.id = some row.version ∧
      db.jobs.find row.document.jobId = some row.job ∧ analysable row.job = true := by
  simp only [mem_loadLatestDocuments, mem_documentQuery, queryRow_eq_some, true_and]
  constructor
  · rintro ⟨row, ⟨hd, hv, hj, ha⟩, hid, hload⟩
    exact ⟨row, hload, hd, hid, hv, hj, ha⟩
  · rintro ⟨row, hload, hd, hid, hv, hj, ha⟩
    exact ⟨row, ⟨hd, hv, hj, ha⟩, hid, hload⟩

/-- A recorded failure withholds the documents of its job, unless a reviewer
found the job usable; no other document loads differently. -/
theorem mem_load_recordFailure {ids : List UUID} {item : LoadedDocument} :
    item ∈ loadLatestDocuments (recordFailure db jobId build) ids ↔
      item ∈ loadLatestDocuments db ids ∧ (item.databaseJobId = jobId → ¬ Withheld db jobId) := by
  have hrows := keepsRows_recordFailure db jobId build
  cases hfind : db.jobs.find jobId with
  | none =>
    -- without the job nothing is recorded, and nothing is withheld
    have hsame : recordFailure db jobId build = db := by simp only [recordFailure, hfind]
    rw [hsame, and_iff_left_of_imp]
    intro hitem hjob
    obtain ⟨row, rfl, -, -, -, hj, -⟩ := mem_loaded_iff.mp hitem
    rw [show row.document.jobId = jobId from hjob, hfind] at hj
    cases hj
  | some job =>
    obtain ⟨status, hstatus, hfailed⟩ := find_recordFailure_self build hfind
    have hwithheld : ¬ Withheld db jobId ↔ job.reviewState = .verifiedUsable := by
      simp [Withheld, hfind]
    have hanalysable := analysable_failed job hstatus
    rw [hwithheld]
    simp only [mem_loaded_iff, latestVersion_recordFailure, hrows.documents]
    constructor
    · rintro ⟨row, rfl, hd, hid, hv, hj, ha⟩
      by_cases hjob : row.document.jobId = jobId
      · rw [hjob, hfailed] at hj
        rw [← Option.some.inj hj, hanalysable, Bool.and_eq_true, beq_iff_eq] at ha
        have hsource : row.job.sourceJobId = job.sourceJobId := by rw [← Option.some.inj hj]
        refine ⟨⟨{ row with job := job }, ?_, hd, hid, hv, hjob ▸ hfind, ha.1⟩, fun _ => ha.2⟩
        simp only [QueryRow.load, QueryRow.semantics, hsource]
      · rw [find_recordFailure_of_ne hjob] at hj
        exact ⟨⟨row, rfl, hd, hid, hv, hj, ha⟩, fun h => absurd h hjob⟩
    · rintro ⟨⟨row, rfl, hd, hid, hv, hj, ha⟩, hkeep⟩
      by_cases hjob : row.document.jobId = jobId
      · rw [hjob, hfind] at hj
        have husable := hkeep hjob
        rw [← Option.some.inj hj] at ha
        refine ⟨{ row with job := { job with importStatus := status } }, ?_, hd, hid, hv,
          hjob ▸ hfailed, ?_⟩
        · simp only [QueryRow.load, QueryRow.semantics, ← Option.some.inj hj]
        · rw [hanalysable, ha, husable]
          rfl
      · exact ⟨row, rfl, hd, hid, hv, (find_recordFailure_of_ne hjob).trans hj, ha⟩

/-- Loading a part of what was loaded keeps the order. -/
theorem loadLatestDocuments_eq_filter {db' : Database} {ids : List UUID} {p : LoadedDocument → Bool}
    (h : ∀ item, item ∈ loadLatestDocuments db' ids ↔
      item ∈ loadLatestDocuments db ids ∧ p item = true) :
    loadLatestDocuments db' ids = (loadLatestDocuments db ids).filter p := by
  have hsorted : (loadLatestDocuments db' ids).insertionSort LoadedBefore =
      loadLatestDocuments db' ids := (List.pairwise_insertionSort _ _).insertionSort_eq
  have hfiltered : ((loadLatestDocuments db ids).filter p).insertionSort LoadedBefore =
      (loadLatestDocuments db ids).filter p :=
    ((List.pairwise_insertionSort _ _).filter p).insertionSort_eq
  have hnodup : ∀ d : Database, (loadLatestDocuments d ids).Nodup :=
    fun d => List.Nodup.of_map _ (nodup_loadLatestDocuments ids)
  rw [← hsorted, ← hfiltered]
  refine ListOrder.insertionSort_eq_of_mem_iff ?_ (hnodup db') ((hnodup db).filter p) ?_
  · intro a ha b hb hab hba
    exact List.inj_on_of_nodup_map (nodup_loadLatestDocuments ids) ha hb (hab.id_eq hba)
  · intro item
    rw [h, List.mem_filter]

/-! ## A failed attempt -/

/-- The failure of the attempt leaves a record: it is of a guarded class and
the event can be written. -/
def Recorded (env : Environment) (jobId : UUID) (raised : Raised) : Prop :=
  raised.guarded = true ∧ env.recordFails jobId = false

instance (env : Environment) (jobId : UUID) (raised : Raised) :
    Decidable (Recorded env jobId raised) := inferInstanceAs (Decidable (_ ∧ _))

/-- A failed attempt commits its record, or nothing at all. -/
theorem runJob_of_error {report : ParserRunReport} {raised : Raised}
    (h : attempt rt parsers env reparse db jobId = .error raised) :
    (runJob rt parsers env reparse db report jobId).1 =
      if Recorded env jobId raised then recordFailure db jobId (env.buildHash jobId) else db := by
  simp only [runJob, h, recordFailed, Recorded]
  by_cases hg : raised.guarded = true
  · by_cases hr : env.recordFails jobId = true
    · simp [hg, hr]
    · simp [hg, hr]
  · simp [hg]

/-- **What a failed attempt leaves in force.** No stored row is touched and
every other job loads as before. The documents of the job itself load as before
too, unless the failure was recorded and no reviewer found the job usable: then
the job is technically incomplete and none of them loads. -/
theorem failed_attempt_keeps_rows (rt : Runtime) (parsers : Parsers) (env : Environment)
    (reparse : Bool) (db : Database) (report : ParserRunReport) (jobId : UUID) (raised : Raised)
    (ids : List UUID) (h : attempt rt parsers env reparse db jobId = .error raised) :
    let after := (runJob rt parsers env reparse db report jobId).1
    KeepsRows db after ∧
      loadLatestDocuments after ids = (loadLatestDocuments db ids).filter fun item =>
        decide (item.databaseJobId = jobId → Recorded env jobId raised → ¬ Withheld db jobId) := by
  dsimp only
  rw [runJob_of_error h]
  by_cases hr : Recorded env jobId raised
  · rw [if_pos hr]
    refine ⟨keepsRows_recordFailure _ _ _, loadLatestDocuments_eq_filter fun item => ?_⟩
    rw [mem_load_recordFailure, decide_eq_true_iff]
    exact and_congr_right fun _ => forall_congr' fun _ => (imp_iff_right hr).symm
  · rw [if_neg hr]
    refine ⟨KeepsRows.refl db, (List.filter_eq_self.mpr fun item _ => ?_).symm⟩
    exact decide_eq_true fun _ hrec => absurd hrec hr

def reparsed : PrintJob := { id := 7, sourceJobId := "job-7" }

def printed : ParsedDocument where
  value := { id := 70, sourceDeviceId := "rch", sourceJobId := "job-7", type := .commercialDocument,
             capturedAt := ⟨0, 0⟩, grossTotal := some 125000 }
  parserName := "retailprintguard-rch-observed"
  parserVersion := "1.5.0"
  buildSha256 := "old"

/-- The job after the parse of an earlier build. -/
def parsedOnce : Database :=
  storeDocuments asciiRuntime { jobs := Table.empty.insert reparsed } 7 [printed]

/-- The build of today raises on the payload. -/
def failing : Parsers where
  parseEscpos _ := .error .valueError
  parseRch _ := .error .valueError
  isCompletePosCommand _ := .ok false

def oneJob : Environment where
  loadJob _ := .ok (some
    { deviceId := "rch", sessionId := "s", sourceJobId := "job-7", parserKind := "rch_observed",
      capturedAt := ⟨0, 0⟩, manifestSha256 := "", requestPath := "", request := [2],
      importStatus := .parsed })
  buildHash _ := "new"

/-- A sale stored by an earlier build no longer loads after its reparse fails. -/
theorem failed_reparse_withholds_documents :
    let before := loadLatestDocuments parsedOnce (parsedOnce.documents.rows.map Document.id)
    let after := (runOnce asciiRuntime failing oneJob true parsedOnce [7]).1
    before.map (·.value.grossTotal) = [some 125000] ∧
      attempt asciiRuntime failing oneJob true parsedOnce 7 = .error .valueError ∧
      loadLatestDocuments after (parsedOnce.documents.rows.map Document.id) = [] ∧
      after.versions.rows = parsedOnce.versions.rows :=
  ⟨by decide +kernel, rfl, by decide +kernel, by decide +kernel⟩

/-- The same failure of a job a reviewer found usable. -/
theorem failed_attempt_keeps_rows_verified :
    let usable : Database :=
      { parsedOnce with
        jobs := Table.empty.insert { reparsed with importStatus := .parsed, reviewState := .verifiedUsable } }
    let after := (runJob asciiRuntime failing oneJob true usable {} 7).1
    KeepsRows usable after ∧
      loadLatestDocuments after [0] = (loadLatestDocuments usable [0]).filter fun item =>
        decide (item.databaseJobId = 7 → Recorded oneJob 7 .valueError → ¬ Withheld usable 7) :=
  failed_attempt_keeps_rows asciiRuntime failing oneJob true _ {} 7 .valueError [0] rfl

end RetailPrintGuard.Parser.Worker
