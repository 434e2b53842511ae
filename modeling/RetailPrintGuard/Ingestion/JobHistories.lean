import RetailPrintGuard.Common.Runtime
import RetailPrintGuard.Ingestion.PrintProxy
import RetailPrintGuard.Library.Paths

/-! # The histories of archived jobs

Each event of a job is checked against the one before it. What this says of a
whole history is read off the transition table. -/
namespace RetailPrintGuard.Ingestion.JobHistories
open RetailPrintGuard.Library RetailPrintGuard.Library.Checks RetailPrintGuard.Library.Paths
open RetailPrintGuard.Common.Formats RetailPrintGuard.Ingestion.Adapters
open RetailPrintGuard.Ingestion.PrintProxy
open RetailPrintGuard.Common.Runtime (runtime)
open RetailPrintGuard.Ingestion.Rch (SourceDirectory checked_eq_ok refuseIf_eq_ok)

/-- The event of a ledger record. -/
def eventName (record : Json) : String :=
  match field record "event" with
  | .str event => event
  | _ => ""

def eventNames (events : List Json) : List String := events.map eventName

/-- An event that is accepted behind another one. -/
def Follows (previous : Option String) (event : String) : Prop :=
  if event = "QUARANTINED" then previous ≠ some "RETENTION_DELETED"
  else previous ∈ (eventPredecessors.lookup event).getD []

/-- The events that are accepted behind one, by the table. -/
def successors (previous : String) : List String :=
  (if previous = "RETENTION_DELETED" then [] else ["QUARANTINED"]) ++
    (eventPredecessors.filter fun entry => entry.2.contains (some previous)).map Prod.fst

/-- What the events of an archived job say. -/
structure WellOrdered (events : List String) : Prop where
  archived : events.count "ARCHIVED" = 1
  retried : ∀ i j : Nat, i < j → events[i]? = some "SENDING" → events[j]? = some "SENDING" →
    ∃ k, i < k ∧ k < j ∧ events[k]? = some "MANUAL_RETRY_QUEUED"
  quarantined : ∀ (i j : Nat) (event : String), i < j → events[i]? = some "QUARANTINED" →
    events[j]? = some event → event = "QUARANTINED"
  deleted : ∀ i j : Nat, i < j → events[i]? = some "RETENTION_DELETED" → events[j]? = none

variable {previous : Option String} {event : String} {events : List String}

theorem mem_successors {state : String} (h : Follows (some state) event) :
    event ∈ successors state := by
  unfold Follows at h
  unfold successors
  split at h
  · next hquarantined =>
    rw [if_neg (fun heq => h (congrArg some heq)), hquarantined]
    exact List.mem_append_left _ (List.mem_singleton_self _)
  · refine List.mem_append_right _ ?_
    cases hlookup : eventPredecessors.lookup event with
    | none =>
      rw [hlookup] at h
      cases h
    | some predecessors =>
      rw [hlookup] at h
      obtain ⟨before, after, heq, -⟩ := List.lookup_eq_some_iff.mp hlookup
      refine List.mem_map.mpr ⟨(event, predecessors), List.mem_filter.mpr ⟨?_, ?_⟩, rfl⟩
      · rw [heq]
        exact List.mem_append_right _ List.mem_cons_self
      · exact List.contains_iff_mem.mpr h

/-- A set of events that only an exit leaves, by the table. -/
theorem closed_of_successors {inside exits : List String}
    (h : ∀ state ∈ inside, ∀ next ∈ successors state, next ∈ exits ∨ next ∈ inside) :
    ∀ state, state ∈ inside → ∀ next, Follows (some state) next → next ∈ exits ∨ next ∈ inside :=
  fun state hstate next hfollows => h state hstate next (mem_successors hfollows)

/-- The events behind a `SENDING` without a retry. -/
def afterSending : List String := [
  "SENT_UNCONFIRMED", "UNKNOWN_PRINT_STATE", "UNKNOWN_PRINT_STATE_RECOVERY",
  "RETENTION_DELETE_STARTED", "RETENTION_DELETED", "QUARANTINED"]

theorem retried_of_path {i j : Nat} (h : Path Follows previous events) (hij : i < j)
    (hi : events[i]? = some "SENDING") (hj : events[j]? = some "SENDING") :
    ∃ k, i < k ∧ k < j ∧ events[k]? = some "MANUAL_RETRY_QUEUED" := by
  have hclosed := @closed_of_successors afterSending ["MANUAL_RETRY_QUEUED"] (by decide)
  have hfirst : ∀ next, Follows (some "SENDING") next →
      next ∈ ["MANUAL_RETRY_QUEUED"] ∨ next ∈ afterSending := by
    have htable : ∀ next ∈ successors "SENDING",
        next ∈ ["MANUAL_RETRY_QUEUED"] ∨ next ∈ afterSending := by decide
    exact fun next hfollows => htable next (mem_successors hfollows)
  obtain hagain | ⟨k, hik, hkj, left, hleft, hexit⟩ := h.passes hclosed hfirst hi hij hj
  · exact absurd hagain (by decide)
  · obtain rfl := List.mem_singleton.mp hexit
    have hne : k ≠ j := by
      rintro rfl
      rw [hleft] at hj
      exact absurd (Option.some.inj hj) (by decide)
    exact ⟨k, hik, lt_of_le_of_ne hkj hne, hleft⟩

theorem quarantined_of_path {i j : Nat} (h : Path Follows previous events) (hij : i < j)
    (hi : events[i]? = some "QUARANTINED") (hj : events[j]? = some event) :
    event = "QUARANTINED" := by
  have hclosed := @closed_of_successors ["QUARANTINED"] [] (by decide)
  obtain hin | ⟨k, -, -, left, -, hexit⟩ :=
    h.passes hclosed (hclosed "QUARANTINED" List.mem_cons_self) hi hij hj
  · exact List.mem_singleton.mp hin
  · exact absurd hexit List.not_mem_nil

theorem deleted_of_path {i j : Nat} (h : Path Follows previous events) (hij : i < j)
    (hi : events[i]? = some "RETENTION_DELETED") : events[j]? = none := by
  have hlast : ∀ next, Follows (some "RETENTION_DELETED") next →
      next ∈ ([] : List String) ∨ next ∈ ([] : List String) :=
    fun next hfollows => absurd (mem_successors hfollows) (by
      have hnone : successors "RETENTION_DELETED" = [] := by decide
      rw [hnone]
      exact List.not_mem_nil)
  cases hj : events[j]? with
  | none => rfl
  | some event =>
    have hclosed := @closed_of_successors [] [] (by decide)
    obtain hin | ⟨k, -, -, left, -, hexit⟩ := h.passes hclosed hlast hi hij hj
    · exact absurd hin List.not_mem_nil
    · exact absurd hexit List.not_mem_nil

/-! ## The check of a history -/

section
variable {fmt : Codec} {jobId : String} {history history' : History} {record : Json}
variable {records : List Json}

/-- What an accepted event does to the history. -/
theorem next_eq_ok (h : History.next fmt jobId history record = .ok history') :
    Follows history.previousEvent (eventName record) ∧
      history'.previousEvent = some (eventName record) ∧
      history'.archive.toList.length =
        history.archive.toList.length + if eventName record = "ARCHIVED" then 1 else 0 := by
  unfold History.next at h
  obtain ⟨_, -, h⟩ := bind_eq_ok.mp h
  obtain ⟨event, hevent, h⟩ := bind_eq_ok.mp h
  obtain ⟨status, -, h⟩ := bind_eq_ok.mp h
  obtain ⟨_, -, h⟩ := bind_eq_ok.mp h
  have hname : eventName record = event := by
    rw [eventName, (requireString_eq_ok.mp (checked_eq_ok.mp hevent)).1]
  have harchive : ¬(event = "ARCHIVED" ∧ history.archive.isSome = true) →
      (if event = "ARCHIVED" then some record else history.archive).toList.length =
        history.archive.toList.length + if event = "ARCHIVED" then 1 else 0 := by
    intro hfirst
    split
    · next harchived =>
      have hnone : history.archive = none := by simpa [harchived] using hfirst
      rw [hnone]
      rfl
    · rfl
  rw [hname, Follows]
  dsimp only at h
  split at h
  · next hquarantined =>
    obtain ⟨_, hallowed, h⟩ := bind_eq_ok.mp h
    obtain ⟨_, hfirst, h⟩ := bind_eq_ok.mp h
    rw [if_pos hquarantined, ← pure_eq_ok.mp h]
    exact ⟨refuseIf_eq_ok.mp hallowed, rfl, harchive (refuseIf_eq_ok.mp hfirst)⟩
  · next hother =>
    obtain ⟨_, hallowed, h⟩ := bind_eq_ok.mp h
    obtain ⟨_, hfirst, h⟩ := bind_eq_ok.mp h
    rw [if_neg hother, ← pure_eq_ok.mp h]
    exact ⟨not_not.mp (refuseIf_eq_ok.mp hallowed), rfl, harchive (refuseIf_eq_ok.mp hfirst)⟩

/-- An accepted history is a path of the table, and keeps one archive. -/
theorem foldlM_next (h : records.foldlM (History.next fmt jobId) history = .ok history') :
    Path Follows history.previousEvent (eventNames records) ∧
      history'.archive.toList.length =
        history.archive.toList.length + (eventNames records).count "ARCHIVED" := by
  induction records generalizing history with
  | nil =>
    rw [← pure_eq_ok.mp h]
    exact ⟨trivial, rfl⟩
  | cons record records ih =>
    rw [List.foldlM_cons] at h
    obtain ⟨next, hnext, h⟩ := bind_eq_ok.mp h
    obtain ⟨hfollows, hprevious, harchive⟩ := next_eq_ok hnext
    obtain ⟨hpath, hcount⟩ := ih h
    rw [hprevious] at hpath
    refine ⟨⟨hfollows, hpath⟩, ?_⟩
    show _ = _ + (eventName record :: eventNames records).count "ARCHIVED"
    rw [List.count_cons, hcount, harchive]
    simp only [beq_iff_eq]
    omega

/-- The events of every job of a ledger for which a candidate is returned: one
archive, a retry between two sendings, nothing but quarantines behind one, and
nothing behind a deletion. -/
theorem candidate_wellOrdered (fmt : Codec) (adapter : Adapter) (ledger : Ledger) (jobId : String)
    (job : Archived) (h : candidateFromEvents fmt adapter jobId (eventsOf ledger.records jobId) =
      .ok (some job)) :
    WellOrdered (eventNames (eventsOf ledger.records jobId)) := by
  unfold candidateFromEvents at h
  obtain ⟨history, hhistory, h⟩ := bind_eq_ok.mp h
  obtain ⟨hpath, hcount⟩ := foldlM_next hhistory
  have harchived : history.archive.toList.length = 1 := by
    cases harchive : history.archive with
    | none =>
      rw [harchive] at h
      cases h
    | some archive => rfl
  refine ⟨?_, fun i j hij hi hj => retried_of_path hpath hij hi hj,
    fun i j event hij hi hj => quarantined_of_path hpath hij hi hj,
    fun i j hij hi => deleted_of_path hpath hij hi⟩
  rw [harchived] at hcount
  simpa using hcount.symm

end

/-! ## A job that was sent twice -/

def sampleJob : String := "0b9d6b1c-53a9-4c63-9ab0-6f0f1d8a2b7e"

def sampleRecord (event status : String) : Json := .obj [
  ("job_id", .str sampleJob),
  ("state_schema_version", .num 2),
  ("event", .str event),
  ("status", .str status),
  ("destination", .str "192.168.1.50:9100"),
  ("chain_hash", .str (String.ofList (List.replicate 64 '0')))]

/-- The printer is lost while the job is sent, and it is sent again by hand. -/
def sampleLedger : Ledger where
  records := [
    sampleRecord "ARCHIVED" "SEALED",
    sampleRecord "QUEUED" "QUEUED",
    sampleRecord "SEND_ARMED" "SEND_ARMED",
    sampleRecord "SENDING" "SENDING",
    sampleRecord "UNKNOWN_PRINT_STATE" "UNKNOWN_PRINT_STATE",
    sampleRecord "MANUAL_RETRY_QUEUED" "QUEUED",
    sampleRecord "SEND_ARMED" "SEND_ARMED",
    sampleRecord "SENDING" "SENDING",
    sampleRecord "SENT_UNCONFIRMED" "SENT_UNCONFIRMED"]
  integrity := "SHA256_HASH_CHAIN_VALIDATED_NO_HMAC_CONFIGURED"
  headRaw := []

def sampleAdapter : Adapter where
  sourceInstanceId := "cassa"
  devicesByTarget := [(⟨"192.168.1.50", 9100⟩, "pos_1")]
  hmacKey := none
  validInstance := by decide
  longKey := by simp
  positive := limits_pos

theorem candidate_wellOrdered_sample :
    WellOrdered (eventNames (eventsOf sampleLedger.records sampleJob)) := by
  have hreturned : (candidateFromEvents runtime sampleAdapter sampleJob
      (eventsOf sampleLedger.records sampleJob)).map Option.isSome = .ok true := by
    decide +kernel
  obtain ⟨found, hfound, hsome⟩ := map_eq_ok.mp hreturned
  obtain ⟨job, rfl⟩ := Option.isSome_iff_exists.mp hsome
  exact candidate_wellOrdered runtime sampleAdapter sampleLedger sampleJob job hfound

end RetailPrintGuard.Ingestion.JobHistories
