import RetailPrintGuard.Common.Amounts
import RetailPrintGuard.Db.Models
import RetailPrintGuard.Library.ListOrder

/-! # The queue of the parser

A poll reads a bounded number of the oldest candidates and then leaves out
those whose last failure is too recent. -/
namespace RetailPrintGuard.Parser.PendingJobs
open RetailPrintGuard.Common.Amounts RetailPrintGuard.Common.Python
open RetailPrintGuard.Db.Models RetailPrintGuard.Library RetailPrintGuard.Library.ListOrder

/-- A row of `print_jobs`, with the parser kind of its device. -/
structure JobRow where
  id : UUID
  parserKind : String
  capturedAt : Timestamp
  importStatus : ImportStatus
deriving DecidableEq

/-- A row of `system_events`. -/
structure EventRow where
  service : String
  eventType : String
  jobId : Option UUID
  correlationId : Option String
  occurredAt : Timestamp
deriving DecidableEq

/-- A document version, with the job of its document and its parser version. -/
structure VersionRow where
  jobId : UUID
  parserName : String
  buildSha256 : String
deriving DecidableEq

structure Queue where
  jobs : Table JobRow JobRow.id := .empty
  /-- `raw_payloads`: job and artifact role -/
  rawPayloads : List (UUID × String) := []
  /-- `documents.job_id` -/
  documents : List UUID := []
  versions : List VersionRow := []
  events : List EventRow := []

/-- The build hashes of the two parsers. -/
structure Builds where
  escpos : String
  rch : String

def escposParserName : String := "retailprintguard-escpos"
def rchParserName : String := "retailprintguard-rch-observed"

/-! ## The poll -/

section
variable (builds : Builds) (queue : Queue)

def rawExists (job : JobRow) : Bool := queue.rawPayloads.contains (job.id, "REQUEST_RAW")

def documentExists (job : JobRow) : Bool := queue.documents.contains job.id

def versionExists (name build : String) (job : JobRow) : Bool :=
  queue.versions.contains ⟨job.id, name, build⟩

/-- A parser event of the job, written by one of the current builds. -/
def isParserEvent (eventType : String) (job : JobRow) (event : EventRow) : Bool :=
  event.jobId == some job.id && event.service == "parser" && event.eventType == eventType &&
    (event.correlationId == some builds.escpos || event.correlationId == some builds.rch)

def currentProcessed (job : JobRow) : Bool :=
  (job.parserKind == "escpos" && versionExists queue escposParserName builds.escpos job) ||
    (job.parserKind == "rch_observed" && versionExists queue rchParserName builds.rch job) ||
    queue.events.any (isParserEvent builds "PARSER_NO_DOCUMENTS" job)

def statuses (reparse : Bool) : List ImportStatus :=
  if reparse then [.imported, .parseRetry, .parsed, .parseEmpty, .parseFailed]
  else [.imported, .parseRetry]

/-- The rows the statement selects, before it is ordered and cut. -/
def isCandidate (reparse : Bool) (job : JobRow) : Bool :=
  (statuses reparse).contains job.importStatus && rawExists queue job &&
    if reparse then !currentProcessed builds queue job else !documentExists queue job

/-- `order_by(PrintJob.captured_at, PrintJob.id)` -/
def Earlier (a b : JobRow) : Prop :=
  a.capturedAt.micros < b.capturedAt.micros ∨
    a.capturedAt.micros = b.capturedAt.micros ∧ a.id ≤ b.id

instance : DecidableRel Earlier := fun _ _ => inferInstanceAs (Decidable (_ ∨ _))

def window (limit : Nat) (reparse : Bool) : Nat :=
  if reparse then limit else min 10000 (limit * 8)

def candidates (limit : Nat) (reparse : Bool) : List JobRow :=
  ((queue.jobs.rows.filter (isCandidate builds queue reparse)).insertionSort Earlier).take
    (window limit reparse)

/-- The failures of a job under the current builds. -/
def failures (job : JobRow) : List EventRow :=
  queue.events.filter (isParserEvent builds "PARSER_FAILED" job)

/-- `max(occurred_at)` in microseconds -/
def lastFailure (job : JobRow) : Option Int :=
  ((failures builds queue job).map fun event => event.occurredAt.micros).max?

/-- The backoff in seconds: doubled with every attempt, at most an hour. -/
def delay (attempts : Nat) : Nat := min 3600 (5 * 2 ^ min (attempts - 1) 10)

/-- The backoff of the job has not elapsed. -/
def isWaiting (now : Timestamp) (job : JobRow) : Bool :=
  match lastFailure builds queue job with
  | none => false
  | some last => decide (now.micros < last + seconds (delay (failures builds queue job).length))

/-- `pending_jobs` -/
def pendingJobs (now : Timestamp) (limit : Nat) (reparse : Bool) : Except Raised (List UUID) :=
  if limit < 1 ∨ 10000 < limit then .error .valueError
  else
    let selected := (candidates builds queue limit reparse).filter fun job =>
      reparse || !isWaiting builds queue now job
    .ok ((selected.take limit).map JobRow.id)

/-- `record_failure`: the eighth failure under a build is the last one. -/
def recordFailure (now : Timestamp) (jobId : UUID) : Queue :=
  match queue.jobs.find jobId with
  | none => queue
  | some job =>
    let buildHash := if job.parserKind = "escpos" then builds.escpos else builds.rch
    let attempts := (queue.events.countP fun event => event.jobId == some jobId &&
      event.service == "parser" && event.eventType == "PARSER_FAILED" &&
      event.correlationId == some buildHash) + 1
    { queue with
      jobs := queue.jobs.update
        (fun row =>
          if row.id = jobId then
            { row with importStatus := if 8 ≤ attempts then .parseFailed else .parseRetry }
          else row)
        (fun row => by split <;> rfl)
      events := queue.events ++
        [{ service := "parser", eventType := "PARSER_FAILED", jobId := some jobId
           correlationId := some buildHash, occurredAt := now }] }

end

/-! ## Starvation -/

section
variable (builds : Builds) (queue : Queue) (now : Timestamp)

/-- Automatic polling may process the job now. -/
def MayProcess (job : JobRow) : Prop :=
  job ∈ queue.jobs ∧ (job.importStatus = .imported ∨
      job.importStatus = .parseRetry ∧ isWaiting builds queue now job = false) ∧
    rawExists queue job = true ∧ documentExists queue job = false

/-- A poll returns some job that may be processed now, when there is one, and
only such jobs. -/
def Served (limit : Nat) : Prop :=
  (∃ job, MayProcess builds queue now job) →
    ∃ ids, pendingJobs builds queue now limit false = .ok ids ∧ ids ≠ [] ∧
      ∀ id ∈ ids, ∃ job, MayProcess builds queue now job ∧ job.id = id

def before (a b : JobRow) : Bool := decide (Earlier a b ∧ a ≠ b)

/-- A candidate out of backoff has few candidates before it. -/
def Reached (limit : Nat) : Prop :=
  ∃ job ∈ queue.jobs, isCandidate builds queue false job = true ∧
    isWaiting builds queue now job = false ∧
    queue.jobs.rows.countP (fun other => isCandidate builds queue false other &&
      before other job) < min 10000 (limit * 8)

end

variable {builds : Builds} {queue : Queue} {now : Timestamp} {limit : Nat} {job : JobRow}

instance : Std.Total Earlier where
  total a b := by unfold Earlier; grind

instance : IsTrans JobRow Earlier where
  trans a b c := by unfold Earlier; grind

theorem isCandidate_iff : isCandidate builds queue false job = true ↔
    (job.importStatus = .imported ∨ job.importStatus = .parseRetry) ∧
      rawExists queue job = true ∧ documentExists queue job = false := by
  simp [isCandidate, statuses, and_assoc]

/-- A candidate out of backoff may be processed. -/
theorem mayProcess_of_candidate (hjob : job ∈ queue.jobs)
    (hcandidate : isCandidate builds queue false job = true)
    (hwaiting : isWaiting builds queue now job = false) : MayProcess builds queue now job := by
  obtain ⟨hstatus, hraw, hdocument⟩ := isCandidate_iff.mp hcandidate
  exact ⟨hjob, hstatus.imp id fun hretry => ⟨hretry, hwaiting⟩, hraw, hdocument⟩

/-- A candidate is read by the poll when few others come before it. -/
theorem mem_candidates : job ∈ candidates builds queue limit false ↔
    job ∈ queue.jobs ∧ isCandidate builds queue false job = true ∧
      queue.jobs.rows.countP (fun other => isCandidate builds queue false other &&
        before other job) < min 10000 (limit * 8) := by
  have hnodup : (queue.jobs.rows.filter (isCandidate builds queue false)).Nodup :=
    (List.Nodup.of_map _ queue.jobs.primaryKey).filter _
  have hperm := List.perm_insertionSort Earlier
    (queue.jobs.rows.filter (isCandidate builds queue false))
  have hsorted : ((queue.jobs.rows.filter (isCandidate builds queue false)).insertionSort
      Earlier).Pairwise fun a b => before a b = true ∧ before b a = false := by
    have hpairs := (List.pairwise_insertionSort Earlier _).and (hperm.nodup_iff.mpr hnodup)
    refine (List.Pairwise.imp_of_mem ?_ hpairs)
    rintro a b ha hb ⟨hle, hne⟩
    have ha := List.mem_of_mem_filter (mem_sorted.mp ha)
    have hb := List.mem_of_mem_filter (mem_sorted.mp hb)
    have hid : a.id ≠ b.id := fun hid => hne (Table.eq_of_key ha hb hid)
    refine ⟨by simp [before, hle, hne], ?_⟩
    unfold before
    unfold Earlier at hle ⊢
    grind
  rw [candidates, window, if_neg Bool.false_ne_true, mem_take_iff hsorted, mem_sorted,
    List.mem_filter, hperm.countP_eq, List.countP_filter, and_assoc]
  · simp only [Bool.and_comm]
    rfl
  · intro a _
    simp [before]

theorem pendingJobs_eq_ok (hlimit : 1 ≤ limit ∧ limit ≤ 10000) :
    pendingJobs builds queue now limit false =
      .ok ((((candidates builds queue limit false).filter fun job =>
        !isWaiting builds queue now job).take limit).map JobRow.id) := by
  unfold pendingJobs
  rw [if_neg (by omega)]
  rfl

/-- The oldest jobs in backoff starve the queue exactly when they fill the rows
a poll reads. -/
theorem served_iff (hlimit : 1 ≤ limit ∧ limit ≤ 10000) : Served builds queue now limit ↔
    ((∃ job, MayProcess builds queue now job) → Reached builds queue now limit) := by
  refine forall_congr' fun _ => ?_
  rw [pendingJobs_eq_ok hlimit]
  constructor
  · rintro ⟨ids, hids, hne, -⟩
    obtain rfl := Except.ok.inj hids
    obtain ⟨id, hid⟩ := List.exists_mem_of_ne_nil _ hne
    obtain ⟨job, hjob, rfl⟩ := List.mem_map.mp hid
    obtain ⟨hread, hwaiting⟩ := List.mem_filter.mp (List.mem_of_mem_take hjob)
    obtain ⟨hmem, hcandidate, hcount⟩ := mem_candidates.mp hread
    exact ⟨job, hmem, hcandidate, by simpa using hwaiting, hcount⟩
  · rintro ⟨job, hmem, hcandidate, hwaiting, hcount⟩
    refine ⟨_, rfl, ?_, fun id hid => ?_⟩
    · have hread := mem_candidates.mpr ⟨hmem, hcandidate, hcount⟩
      have hselected : job ∈ (candidates builds queue limit false).filter fun job =>
          !isWaiting builds queue now job := List.mem_filter.mpr ⟨hread, by rw [hwaiting]; rfl⟩
      intro hnone
      rw [List.map_eq_nil_iff, List.take_eq_nil_iff] at hnone
      obtain hzero | hempty := hnone
      · omega
      · exact absurd hselected (hempty ▸ List.not_mem_nil)
    · obtain ⟨other, hother, rfl⟩ := List.mem_map.mp hid
      obtain ⟨hread, hwaiting⟩ := List.mem_filter.mp (List.mem_of_mem_take hother)
      obtain ⟨hmem, hcandidate, -⟩ := mem_candidates.mp hread
      exact ⟨other, mayProcess_of_candidate hmem hcandidate (by simpa using hwaiting), rfl⟩

/-- Nine imported jobs. -/
def nineJobs : Queue where
  jobs := (List.range 9).foldl (fun jobs n => jobs.insert ⟨n, "escpos", ⟨n, 0⟩, .imported⟩)
    Table.empty
  rawPayloads := (List.range 9).map fun n => (n, "REQUEST_RAW")

/-- The first of them have failed. -/
def firstFailed (failures : Nat) : Queue :=
  (List.range failures).foldl (fun queue n => recordFailure ⟨"a", "b"⟩ queue ⟨seconds 100, 0⟩ n)
    nineJobs

/-- Behind seven jobs in backoff a poll for one job still reads the eighth. -/
theorem served_behindSeven : Served ⟨"a", "b"⟩ (firstFailed 7) ⟨seconds 101, 0⟩ 1 :=
  (served_iff ⟨Nat.le_refl 1, by decide⟩).mpr fun _ =>
    ⟨⟨7, "escpos", ⟨7, 0⟩, .imported⟩, by decide +kernel, by decide +kernel, by decide +kernel,
      by decide +kernel⟩

/-- The ninth job has never been tried, and a poll for one job returns none. -/
theorem eightFailed_starves : ¬ Served ⟨"a", "b"⟩ (firstFailed 8) ⟨seconds 101, 0⟩ 1 := by
  intro h
  have hmay : MayProcess ⟨"a", "b"⟩ (firstFailed 8) ⟨seconds 101, 0⟩ ⟨8, "escpos", ⟨8, 0⟩, .imported⟩ :=
    ⟨by decide +kernel, Or.inl rfl, by decide +kernel, by decide +kernel⟩
  obtain ⟨ids, hids, hne, -⟩ := h ⟨_, hmay⟩
  have hnone : pendingJobs ⟨"a", "b"⟩ (firstFailed 8) ⟨seconds 101, 0⟩ 1 false = .ok [] := by
    decide +kernel
  rw [hnone] at hids
  exact hne (Except.ok.inj hids).symm

end RetailPrintGuard.Parser.PendingJobs
