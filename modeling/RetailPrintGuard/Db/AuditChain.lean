import RetailPrintGuard.Common.HashChain
import RetailPrintGuard.Common.Runtime
import RetailPrintGuard.Library.HashChain
import RetailPrintGuard.Library.RowLock

/-! # The global audit chain

The writers of `audit:global` lock its head, append a record after it and move
it, each in a transaction of its own. -/
namespace RetailPrintGuard.Db.AuditChain
open RetailPrintGuard.Library RetailPrintGuard.Library.HashChain RetailPrintGuard.Library.RowLock
open RetailPrintGuard.Common.Formats RetailPrintGuard.Common.HashChain

/-! ## Rows -/

def auditScope : String := "audit:global"

/-- `HashChainHead` of the scope -/
structure Head where
  sequence : Nat
  recordHash : Digest
deriving DecidableEq

/-- The head that is inserted where there is none. -/
def zeroHead : Head := ⟨0, zeroDigest⟩

structure AuditEntry where
  actorId : Option String
  action : String
  entityType : String
  entityId : Option String
  correlationId : String
  /-- microseconds -/
  occurredAt : Int
  metadata : Json

/-- `AuditLog` -/
structure AuditLog where
  chainScope : String
  sequence : Nat
  actorUserId : Option String
  eventType : String
  resourceType : String
  resourceId : Option String
  correlationId : String
  occurredAt : Int
  details : Json
  previousRecordHash : Digest
  recordHash : Digest

def links : Links AuditLog Digest where
  sequence := AuditLog.sequence
  previous := AuditLog.previousRecordHash
  hash := AuditLog.recordHash

def optionalText (text : Option String) : Json := (text.map Json.str).getD .null

section
variable (fmt : Codec) (isoformat : Int → String)

/-! ## Appending -/

def auditPayload (sequence : Nat) (entry : AuditEntry) (previous : Digest) : Json := .obj [
  ("scope", .str auditScope),
  ("sequence", .num sequence),
  ("actor_id", optionalText entry.actorId),
  ("action", .str entry.action),
  ("entity_type", .str entry.entityType),
  ("entity_id", optionalText entry.entityId),
  ("correlation_id", .str entry.correlationId),
  ("occurred_at", .str (isoformat entry.occurredAt)),
  ("metadata", entry.metadata),
  ("previous_hash", .str previous.text)]

/-- A record after the head, and the head after it. -/
def append (entry : AuditEntry) (head : Head) : AuditLog × Head :=
  let sequence := head.sequence + 1
  let payload := auditPayload isoformat sequence entry head.recordHash
  let recordHash := chainedDigest fmt payload head.recordHash
  ({ chainScope := auditScope
     sequence
     actorUserId := entry.actorId
     eventType := entry.action
     resourceType := entry.entityType
     resourceId := entry.entityId
     correlationId := entry.correlationId
     occurredAt := entry.occurredAt
     details := entry.metadata
     previousRecordHash := head.recordHash
     recordHash },
    ⟨sequence, recordHash⟩)

/-- `_append_audit_session` -/
def appendAuditSession (entry : AuditEntry) (head : Head) : AuditLog × Head :=
  append fmt isoformat entry head

/-- `_append_parser_activation_audit` -/
def appendParserActivationAudit (parserVersionId : String) (actorUserId : Option String)
    (occurredAt : Int) (details : Json) (head : Head) : AuditLog × Head :=
  append fmt isoformat {
    actorId := actorUserId
    action := "PARSER_ACTIVATED"
    entityType := "PARSER_VERSION"
    entityId := some parserVersionId
    correlationId := "parser-activation:" ++ parserVersionId
    occurredAt
    metadata := details } head

/-- What `review_job` says of a review. -/
structure JobReview where
  actorId : String
  jobId : String
  action : String
  correlationId : String
  occurredAt : Int
  previousState : String
  targetState : String
  previousExcluded : Bool
  excluded : Bool
  reason : String

def JobReview.entry (review : JobReview) : AuditEntry where
  actorId := some review.actorId
  action := "JOB_REVIEW_" ++ review.action
  entityType := "print_job"
  entityId := some review.jobId
  correlationId := review.correlationId
  occurredAt := review.occurredAt
  metadata := .obj [
    ("previous_review_state", .str review.previousState),
    ("new_review_state", .str review.targetState),
    ("previous_analysis_excluded", .bool review.previousExcluded),
    ("analysis_excluded", .bool review.excluded),
    ("reason", .str review.reason)]

/-- A transaction that appends to the chain. -/
inductive Writer where
  | appendAudit (entry : AuditEntry)
  | reviewJob (review : JobReview)
  | activateParserVersion (parserVersionId : String) (actorUserId : Option String)
      (occurredAt : Int) (details : Json)

def Writer.work : Writer → Head → AuditLog × Head
  | .appendAudit entry => appendAuditSession fmt isoformat entry
  | .reviewJob review => appendAuditSession fmt isoformat review.entry
  | .activateParserVersion parserVersionId actorUserId occurredAt details =>
    appendParserActivationAudit fmt isoformat parserVersionId actorUserId occurredAt details

/-- The hashed payload of a stored record. -/
def AuditLog.payload (row : AuditLog) : Json :=
  auditPayload isoformat row.sequence {
    actorId := row.actorUserId
    action := row.eventType
    entityType := row.resourceType
    entityId := row.resourceId
    correlationId := row.correlationId
    occurredAt := row.occurredAt
    metadata := row.details } row.previousRecordHash

/-- The records the transactions committed, in order. -/
def committed {ι : Type} (s : State ι Head AuditLog) : List AuditLog := s.log.map Commit.record

/-- The records follow the head in a chain that can be recomputed. -/
def ChainAfter (head : Head) (rows : List AuditLog) : Prop :=
  Chained links head.sequence head.recordHash rows ∧
    ∀ row ∈ rows, chainedHash fmt (row.payload isoformat) (some row.previousRecordHash.text) =
      .ok row.recordHash.text

/-- The head after some records. -/
def headAfter (head : Head) (rows : List AuditLog) : Head where
  sequence := head.sequence + rows.length
  recordHash := lastHash links head.recordHash rows

end

section
variable {fmt : Codec} {isoformat : Int → String}

/-- Every writer appends a record of its own after the head it read. -/
theorem work_eq (writer : Writer) (head : Head) :
    ∃ entry, writer.work fmt isoformat head = append fmt isoformat entry head := by
  cases writer with
  | appendAudit entry => exact ⟨_, rfl⟩
  | reviewJob review => exact ⟨_, rfl⟩
  | activateParserVersion => exact ⟨_, rfl⟩

theorem serial_chain {ι : Type} {writers : ι → Writer} {head : Head}
    {log : List (Commit ι Head AuditLog)}
    (h : Serial (fun i => (writers i).work fmt isoformat) head log) :
    ChainAfter fmt isoformat head (log.map Commit.record) ∧
      final head log = headAfter head (log.map Commit.record) := by
  induction log generalizing head with
  | nil => exact ⟨⟨trivial, by simp⟩, rfl⟩
  | cons c rest ih =>
    obtain ⟨-, hwork, hrest⟩ := h
    obtain ⟨entry, hentry⟩ := @work_eq fmt isoformat (writers c.transaction) head
    obtain ⟨hrecord, hafter⟩ := Prod.mk.inj (hwork.trans hentry)
    obtain ⟨⟨hchained, hhashes⟩, hfinal⟩ := ih hrest
    rw [hafter] at hchained
    refine ⟨⟨?_, ?_⟩, ?_⟩
    · rw [List.map_cons, hrecord]
      exact ⟨rfl, rfl, hchained⟩
    · rw [List.map_cons, List.forall_mem_cons]
      refine ⟨?_, hhashes⟩
      rw [hrecord]
      exact chainedHash_digest fmt _ _
    · rw [final, hfinal, hafter, List.map_cons, hrecord, headAfter, headAfter, List.length_cons,
        lastHash]
      congr 1
      show head.sequence + 1 + _ = _
      omega

/-- In every interleaving the committed records are one chain, and the head is
where it ends. -/
theorem audit_chain_valid {ι : Type} [DecidableEq ι] {writers : ι → Writer} {row : Option Head}
    {s : State ι Head AuditLog}
    (h : Reachable zeroHead (fun i => (writers i).work fmt isoformat) row s) :
    ChainAfter fmt isoformat (row.getD zeroHead) (committed s) ∧
      (committed s ≠ [] → s.row = some (headAfter (row.getD zeroHead) (committed s))) ∧
      (committed s = [] → s.row = row) := by
  have hs := invariant_of_reachable h
  obtain ⟨hchain, hfinal⟩ := serial_chain hs.serial
  refine ⟨hchain, fun hne => ?_, fun hnil => hs.untouched (List.map_eq_nil_iff.mp hnil)⟩
  rw [hs.moved fun hnil => hne (List.map_eq_nil_iff.mpr hnil), hfinal]
  rfl

end

/-! ## Two writers that find no head, and a third -/

section
open RetailPrintGuard.Common.Runtime (runtime)

def login : AuditEntry where
  actorId := none
  action := "LOGIN_FAILED"
  entityType := "user"
  entityId := none
  correlationId := "c-1"
  occurredAt := 1782900000000000
  metadata := .obj [("username", .str "cassa")]

def writers (i : Fin 3) : Writer :=
  if i = 1 then .activateParserVersion "9c1d7a52" none 1782900000500000 (.obj [("rewind", .bool true)])
  else .appendAudit login

/-- One of two writers inserts the head and commits; the other fails. A third
one appends behind the first. -/
theorem three_writers_chain : ∃ s : State (Fin 3) Head AuditLog,
    (committed s).length = 2 ∧ s.phase 1 = .ended ∧
      ChainAfter runtime (fun _ => "2026-07-01T10:00:00+00:00") zeroHead (committed s) := by
  have hstart : Reachable zeroHead
      (fun i => (writers i).work runtime fun _ => "2026-07-01T10:00:00+00:00") none
      { row := none } := .start
  have hmissed := (hstart.step (.miss 0 rfl rfl)).step (.miss 1 rfl rfl)
  have hwritten := (hmissed.step (.insert 0 rfl rfl rfl)).step (.write 0 zeroHead rfl)
  have hcommitted := hwritten.step (.commit 0 zeroHead _ _ rfl)
  have hended := hcommitted.step (.duplicate 1 rfl (by simp [State.commit]))
  have hlocked := (hended.step (.lock 2 _ rfl rfl rfl)).step (.write 2 _ rfl)
  have happended := hlocked.step (.commit 2 _ _ _ rfl)
  exact ⟨_, rfl, rfl, (audit_chain_valid happended).1⟩

end

end RetailPrintGuard.Db.AuditChain
