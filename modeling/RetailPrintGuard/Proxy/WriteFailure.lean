import RetailPrintGuard.Proxy.SpoolRuns

/-! # A failed write

The sequence the writer expects does not move on after a write that failed, so
every later event of the session is refused and leaves one more error. -/
namespace RetailPrintGuard.Proxy.WriteFailure
open RetailPrintGuard.Library RetailPrintGuard.Common.Formats
open RetailPrintGuard.Proxy.Spool RetailPrintGuard.Proxy.SpoolRuns

section
variable (fmt : Codec)

/-- The worker's turns on a queue of events. -/
def handleAll (spool : SessionSpool) (queue : List (CaptureEvent × Option WriteFault)) :
    SessionSpool :=
  queue.foldl (fun spool entry => handleEvent fmt spool entry.1 entry.2) spool

/-- The bytes of the raw file and of the timeline that a failing write left. -/
def leftover (spool : SessionSpool) (event : CaptureEvent) : WriteFault → Bytes × Bytes
  | .raw count _ => (event.payload.take count, [])
  | .timeline count _ =>
    (event.payload,
      (timelineLine fmt spool.descriptor spool.previousEventSha256 event).take count)

/-- The fault is met: an event without bytes has no raw write. -/
def Strikes (event : CaptureEvent) : WriteFault → Prop
  | .raw _ _ => event.payload ≠ []
  | .timeline _ _ => True

/-- The same directory, but for what the failing write left and for its errors. -/
structure Failed (spool failed : SessionSpool) (event : CaptureEvent) (fault : WriteFault)
    (errors : Nat) : Prop where
  descriptor : failed.descriptor = spool.descriptor
  raw : failed.raw = spool.raw.set event.direction
    (spool.raw.get event.direction ++ (leftover fmt spool event fault).1)
  timeline : failed.timeline = spool.timeline ++ (leftover fmt spool event fault).2
  nextSequence : failed.nextSequence = spool.nextSequence
  capturedBytes : failed.capturedBytes = spool.capturedBytes
  capturedChunks : failed.capturedChunks = spool.capturedChunks
  eofEvents : failed.eofEvents = spool.eofEvents
  timelineEvents : failed.timelineEvents = spool.timelineEvents
  previous : failed.previousEventSha256 = spool.previousEventSha256
  errors : failed.errors.length = spool.errors.length + errors
  error : (∀ error ∈ spool.errors, error ≠ "" ∧ error.length ≤ 4096) →
    ∀ error ∈ failed.errors, error ≠ "" ∧ error.length ≤ 4096

theorem failureMessage_short (error : String) :
    String.ofList (("capture write failed: " ++ error).toList.take 1000) ≠ "" ∧
      (String.ofList (("capture write failed: " ++ error).toList.take 1000)).length ≤ 4096 := by
  refine ⟨fun h => ?_, ?_⟩
  · have hlist := congrArg String.toList h
    rw [String.toList_ofList, String.toList_append] at hlist
    cases hlist
  · rw [String.length_ofList, List.length_take]
    omega

theorem mem_markError {spool : SessionSpool} {message : String}
    (h : ∀ error ∈ spool.errors, error ≠ "" ∧ error.length ≤ 4096) :
    ∀ error ∈ (spool.markError ("capture write failed: " ++ message)).errors,
      error ≠ "" ∧ error.length ≤ 4096 := by
  intro error herror
  rcases List.mem_append.mp herror with hmem | hmem
  · exact h error hmem
  · rw [List.mem_singleton.mp hmem]
    exact failureMessage_short message

/-- The failing event itself. -/
theorem handleEvent_fault {spool : SessionSpool} {event : CaptureEvent} {fault : WriteFault}
    (haccepted : Accepted spool event) (hstrikes : Strikes event fault) :
    Failed fmt spool (handleEvent fmt spool event (some fault)) event fault 1 := by
  have hnone := appendError_eq_none.mpr haccepted
  cases fault with
  | raw count message =>
    have happend : append fmt spool event (some (.raw count message)) =
        (spool.writeRaw event.direction (event.payload.take count), some message) := by
      simp only [append, hnone]
      rw [if_neg hstrikes]
    rw [handleEvent, happend]
    exact ⟨rfl, rfl, (List.append_nil _).symm, rfl, rfl, rfl, rfl, rfl, rfl,
      List.length_append, mem_markError⟩
  | timeline count message =>
    have happend : append fmt spool event (some (.timeline count message)) =
        ((spool.writeRaw event.direction event.payload).writeTimeline
          ((timelineLine fmt spool.descriptor spool.previousEventSha256 event).take count),
          some message) := by
      simp only [append, hnone]
    rw [handleEvent, happend]
    exact ⟨rfl, rfl, rfl, rfl, rfl, rfl, rfl, rfl, rfl, List.length_append, mem_markError⟩

/-- An event out of sequence leaves an error and nothing else. -/
theorem handleEvent_outOfSequence {spool : SessionSpool} {event : CaptureEvent}
    {fault : Option WriteFault} (h : event.sequence ≠ spool.nextSequence) :
    ∃ message, handleEvent fmt spool event fault =
      spool.markError ("capture write failed: " ++ message) := by
  have hsome : ∃ message, appendError spool event = some message := by
    cases hnone : appendError spool event with
    | none => exact absurd (appendError_eq_none.mp hnone).sequence h
    | some message => exact ⟨message, rfl⟩
  obtain ⟨message, hsome⟩ := hsome
  refine ⟨message, ?_⟩
  simp only [handleEvent, append, hsome]

theorem Failed.markError {spool failed : SessionSpool} {event : CaptureEvent} {fault : WriteFault}
    {errors : Nat} (h : Failed fmt spool failed event fault errors) (message : String) :
    Failed fmt spool (failed.markError ("capture write failed: " ++ message)) event fault
      (errors + 1) where
  descriptor := h.descriptor
  raw := h.raw
  timeline := h.timeline
  nextSequence := h.nextSequence
  capturedBytes := h.capturedBytes
  capturedChunks := h.capturedChunks
  eofEvents := h.eofEvents
  timelineEvents := h.timelineEvents
  previous := h.previous
  errors := by
    show (failed.errors ++ [_]).length = _
    rw [List.length_append, h.errors]
    rfl
  error hspool := mem_markError (h.error hspool)

/-- After a failed write every later event of the session adds an error, and the
files stay as the failed write left them. -/
theorem handleAll_failed {spool : SessionSpool} {event : CaptureEvent} {fault : WriteFault}
    {later : List (CaptureEvent × Option WriteFault)} (haccepted : Accepted spool event)
    (hstrikes : Strikes event fault) (hlater : ∀ entry ∈ later, event.sequence < entry.1.sequence) :
    Failed fmt spool (handleAll fmt spool ((event, some fault) :: later)) event fault
      (1 + later.length) := by
  suffices hrest : ∀ failed errors, Failed fmt spool failed event fault errors →
      Failed fmt spool (handleAll fmt failed later) event fault (errors + later.length) from
    hrest _ 1 (handleEvent_fault fmt haccepted hstrikes)
  intro failed errors hfailed
  induction later generalizing failed errors with
  | nil => exact hfailed
  | cons entry later ih =>
    have hsequence : entry.1.sequence ≠ failed.nextSequence := by
      have hlt := hlater entry List.mem_cons_self
      rw [hfailed.nextSequence, ← haccepted.sequence]
      omega
    obtain ⟨message, hmessage⟩ := @handleEvent_outOfSequence fmt failed entry.1 entry.2 hsequence
    have hnext := ih (fun e he => hlater e (List.mem_cons_of_mem _ he)) _ _
      (hfailed.markError fmt message)
    rw [← hmessage] at hnext
    rw [List.length_cons, Nat.add_comm later.length 1, ← Nat.add_assoc]
    exact hnext

end

end RetailPrintGuard.Proxy.WriteFailure
