import RetailPrintGuard.Ingestion.RoundTrip
import RetailPrintGuard.Proxy.WriteFailure

/-! # Captures with a failed write

What a failed write leaves on disk is in no counter of the manifest and in no
whole line of the timeline, so that the adapter takes the job only when the
write left nothing. -/
namespace RetailPrintGuard.Ingestion.PartialCapture
open RetailPrintGuard.Library RetailPrintGuard.Library.Checks RetailPrintGuard.Common.Formats
open RetailPrintGuard.Ingestion.Adapters RetailPrintGuard.Ingestion.Canonical
open RetailPrintGuard.Ingestion.Timeline RetailPrintGuard.Ingestion.Reading
open RetailPrintGuard.Ingestion.RoundTrip
open RetailPrintGuard.Proxy.Spool RetailPrintGuard.Proxy.SpoolRuns
open RetailPrintGuard.Proxy.WriteFailure
open RetailPrintGuard.Common.Runtime (runtime)

/-! ## What a read timeline tells -/

section
variable {fmt : Codec}

theorem parseLine_events {identity : Identity} {streams : ByDirection Bytes}
    {state state' : TimelineState} {lineNumber : Nat} {rawLine : Bytes}
    (h : parseLine fmt identity streams state lineNumber rawLine = .ok state') :
    state'.events.length = state.events.length + 1 := by
  simp only [parseLine, bind_eq_ok, pure_eq_ok] at h
  obtain ⟨_, _, _, _, _, _, _, _, _, _, rfl⟩ := h
  exact List.length_append

/-- Every line is an event. -/
theorem parseLines_events {identity : Identity} {streams : ByDirection Bytes}
    {state state' : TimelineState} {lineNumber : Nat} {lines : List Bytes}
    (h : parseLines fmt identity streams state lineNumber lines = .ok state') :
    state'.events.length = state.events.length + lines.length := by
  induction lines generalizing state lineNumber with
  | nil =>
    cases h
    rfl
  | cons line lines ih =>
    obtain ⟨middle, hline, hrest⟩ := bind_eq_ok.mp h
    rw [ih hrest, parseLine_events hline, List.length_cons]
    omega

/-- An accepted timeline ends with a line feed, has as many lines as the manifest
counts, and the manifest counts the bytes of the raw files. -/
theorem parseTimeline_sound {raw : Bytes} {streams : ByDirection Bytes} {identity : Identity}
    {manifest : Json} {allowTrailingRaw : Bool} {chunks : List StreamChunk} {totals : Totals}
    (hcounts : Counts manifest totals) (hfit : totals.Fit)
    (h : parseTimeline fmt raw streams identity manifest allowTrailingRaw = .ok chunks) :
    (raw ≠ [] → raw.getLast? = some newline) ∧
      (splitlines raw).length = totals.timelineEvents ∧
      ∀ direction, (streams.get direction).length = totals.capturedBytes.get direction := by
  simp only [parseTimeline, bind_eq_ok, raiseIf_eq_ok, pure_eq_ok] at h
  obtain ⟨_, hwhole, _, -, state, hparse, _, htotals, -⟩ := h
  obtain ⟨-, hlength, -, hbytes, -⟩ := (checkTotals_eq_ok hcounts hfit).mp htotals
  refine ⟨fun hne => not_not.mp fun hlast => hwhole ⟨hne, hlast⟩, ?_, hbytes⟩
  rw [← hlength, parseLines_events hparse]
  exact (Nat.zero_add _).symm

/-! ## What the write left -/

theorem splitlines_append_line {lines : List Bytes} {line : Bytes}
    (hlines : ∀ line ∈ lines, ∀ byte ∈ line, 32 ≤ byte) (hline : ∀ byte ∈ line, 32 ≤ byte) :
    splitlines (joinLines lines ++ (line ++ [newline])) = lines ++ [line] := by
  have hjoin : joinLines lines ++ (line ++ [newline]) = joinLines (lines ++ [line]) := by
    simp [joinLines]
  rw [hjoin]
  refine splitlines_joinLines fun l hl => ?_
  rcases List.mem_append.mp hl with hl | hl
  · exact hlines l hl
  · rw [List.mem_singleton.mp hl]
    exact hline

/-- The failing write left no byte: none of its own, and none of the raw write
before it. -/
def LeftNothing (event : CaptureEvent) : WriteFault → Prop
  | .raw count _ => event.payload.take count = []
  | .timeline count _ => event.payload = [] ∧ count = 0

theorem leftNothing_iff {spool : SessionSpool} {event : CaptureEvent} {fault : WriteFault} :
    LeftNothing event fault ↔ leftover fmt spool event fault = ([], []) := by
  cases fault with
  | raw count message => simp [LeftNothing, leftover]
  | timeline count message => simp [LeftNothing, leftover, timelineLine]

variable {descriptor : SessionDescriptor} {events : List CaptureEvent}
  {spool failed : SessionSpool} {event : CaptureEvent} {fault : WriteFault} {errors : Nat}
  {closing : Closing}

/-- A timeline that is read after a failure shows that the write left nothing. -/
theorem leftNothing_of_read {allowTrailingRaw : Bool} {chunks : List StreamChunk}
    (hrun : appendAll fmt { descriptor } events = some spool)
    (hfailed : Failed fmt spool failed event fault errors) (hfit : SpoolFit failed)
    (hread : parseTimeline fmt failed.timeline failed.raw (identityOf descriptor)
      (failed.manifest fmt closing).sortKeys allowTrailingRaw = .ok chunks) :
    LeftNothing event fault := by
  have hs := appendAll_consistent fmt (consistent_fresh descriptor) hrun
  obtain ⟨hwhole, hlines, hbytes⟩ := parseTimeline_sound (@finalize_counts fmt failed closing)
    ⟨hfit.capturedBytes, hfit.capturedChunks, hfit.eofEvents⟩ hread
  have hraw : (leftover fmt spool event fault).1 = [] := by
    have hlength := hbytes event.direction
    have hcaptured : (totalsOf failed).capturedBytes = spool.capturedBytes := hfailed.capturedBytes
    rw [hfailed.raw, ByDirection.get_set, if_pos rfl, List.length_append, hcaptured,
      ← hs.capturedBytes] at hlength
    exact List.length_eq_zero_iff.mp (by omega)
  refine leftNothing_iff.mpr (Prod.ext hraw ?_)
  cases fault with
  | raw count message => rfl
  | timeline count message =>
    have htext := timeline_eq hrun
    have hdump := Json.dumps_ge (timelineEntry fmt spool.descriptor spool.previousEventSha256 event)
    rw [hfailed.timeline] at hwhole hlines
    by_contra hne
    rw [leftover, timelineLine] at hwhole hlines hne
    by_cases hcount : count ≤
        (timelineEntry fmt spool.descriptor spool.previousEventSha256 event).dumps.length
    · -- a torn line
      exact getLast?_torn hdump hcount hne
        (hwhole fun h => hne (List.append_eq_nil_iff.mp h).2)
    · -- a whole line that the writer does not count
      have htake : ((timelineEntry fmt spool.descriptor spool.previousEventSha256 event).dumps ++
          [newline]).take count =
          (timelineEntry fmt spool.descriptor spool.previousEventSha256 event).dumps ++
            [newline] := by
        refine List.take_of_length_le ?_
        rw [List.length_append, List.length_singleton]
        omega
      have htotal : (totalsOf failed).timelineEvents = events.length := by
        show failed.timelineEvents = events.length
        rw [hfailed.timelineEvents, hs.timelineEvents, nextSequence_eq hrun]
      dsimp only at hlines
      rw [htake, htext, splitlines_append_line printable_timelineTexts hdump, List.length_append,
        length_timelineTexts, htotal, List.length_singleton] at hlines
      omega

/-! ## The job of a session with a failed write -/

theorem Failed.raw_eq (hfailed : Failed fmt spool failed event fault errors)
    (h : LeftNothing event fault) : failed.raw = spool.raw := by
  have hleft := (@leftNothing_iff fmt spool event fault).mp h
  refine ByDirection.ext_get fun direction => ?_
  rw [hfailed.raw, ByDirection.get_set, hleft, List.append_nil]
  split
  · next heq => rw [heq]
  · rfl

theorem Failed.timeline_eq (hfailed : Failed fmt spool failed event fault errors)
    (h : LeftNothing event fault) : failed.timeline = spool.timeline := by
  have hleft := (@leftNothing_iff fmt spool event fault).mp h
  rw [hfailed.timeline, hleft, List.append_nil]

theorem Failed.spoolFit (hfailed : Failed fmt spool failed event fault errors)
    (hrun : appendAll fmt { descriptor } events = some spool)
    (hcount : events.length ≤ maxTimelineEvents)
    (hraw : ∀ direction, (failed.raw.get direction).length ≤ maxInt) : SpoolFit failed := by
  have hs := appendAll_consistent fmt (consistent_fresh descriptor) hrun
  have hspool : ∀ direction, (spool.raw.get direction).length ≤ maxInt := by
    intro direction
    refine Nat.le_trans ?_ (hraw direction)
    rw [hfailed.raw, ByDirection.get_set]
    split
    · next heq =>
      rw [heq, List.length_append]
      exact Nat.le_add_right _ _
    · exact Nat.le_refl _
  have hfit := RoundTrip.spoolFit hrun hcount hspool
  exact ⟨hfailed.capturedBytes ▸ hfit.capturedBytes, hfailed.capturedChunks ▸ hfit.capturedChunks,
    hfailed.eofEvents ▸ hfit.eofEvents, hfailed.error hfit.error⟩

theorem Failed.status_partial (hfailed : Failed fmt spool failed event fault errors)
    (herrors : 0 < errors) : failed.status closing = "PARTIAL" := by
  have hcomplete : failed.complete closing = false := by
    have hne : failed.allErrors closing ≠ [] := by
      intro h
      simp only [SessionSpool.allErrors, List.append_eq_nil_iff] at h
      have hlength := hfailed.errors
      rw [h.1.1] at hlength
      simp only [List.length_nil] at hlength
      omega
    simp [SessionSpool.complete, hne]
  rw [SessionSpool.status, if_neg (by simp [hcomplete])]

/-- When the write left nothing the timeline is the one of the events before. -/
theorem parseTimeline_failed (hrun : appendAll fmt { descriptor } events = some spool)
    (hevents : Recorded fmt events) (hnames : ShortNames descriptor)
    (hfailed : Failed fmt spool failed event fault errors) (herrors : 0 < errors)
    (hleft : LeftNothing event fault)
    (hraw : ∀ direction, (failed.raw.get direction).length ≤ maxInt) {allowTrailingRaw : Bool} :
    parseTimeline fmt failed.timeline failed.raw (identityOf descriptor)
      (failed.manifest fmt closing).sortKeys allowTrailingRaw =
        .ok (events.map (chunkOf fmt)) := by
  have hs := appendAll_consistent fmt (consistent_fresh descriptor) hrun
  have hfit := Failed.spoolFit hfailed hrun hevents.count hraw
  have hsame := Failed.raw_eq hfailed hleft
  obtain ⟨state, hstate, htimeline⟩ := @parseTimeline_spool fmt _ events spool hrun hevents
    hnames failed.raw (failed.manifest fmt closing).sortKeys allowTrailingRaw
    (fun direction => hsame ▸ List.prefix_refl _) hraw
  rw [Failed.timeline_eq hfailed hleft]
  refine (htimeline _).mpr ⟨?_, rfl⟩
  refine (checkTotals_eq_ok finalize_counts
    ⟨hfit.capturedBytes, hfit.capturedChunks, hfit.eofEvents⟩).mpr
    ⟨?_, ?_, ?_, fun direction => ?_, Or.inl ?_, ?_, ?_, fun hstatus => ?_⟩
  · show failed.timelineEvents ≤ maxTimelineEvents
    rw [hfailed.timelineEvents, hs.timelineEvents, nextSequence_eq hrun]
    exact hevents.count
  · show state.events.length = failed.timelineEvents
    rw [hfailed.timelineEvents, hs.timelineEvents, hstate.agrees.events]
  · exact hstate.agrees.previousHash.trans hfailed.previous.symm
  · show (failed.raw.get direction).length = failed.capturedBytes.get direction
    rw [hsame, hfailed.capturedBytes, hs.capturedBytes]
  · exact hstate.agrees.offsets.trans hfailed.capturedBytes.symm
  · exact hstate.agrees.dataCounts.trans hfailed.capturedChunks.symm
  · exact hstate.agrees.eofCounts.trans hfailed.eofEvents.symm
  · rw [finalize_describes.status] at hstatus
    have hpartial : failed.status closing = "PARTIAL" := Failed.status_partial hfailed herrors
    rw [show (factsOf failed closing).status = failed.status closing from rfl, hpartial] at hstatus
    exact absurd (Json.str.inj hstatus) (by decide)

/-- The errors of a session: the failed write, one for each later event, and
those of the session and of the transport. -/
def errorCount (later : List (CaptureEvent × Option WriteFault)) (closing : Closing) : Nat :=
  1 + later.length + closing.captureErrors.length + closing.summary.transportErrors.length

variable {adapter : Adapter} {client listener target : Endpoint}
  {later : List (CaptureEvent × Option WriteFault)}

/-- A job with a failed write is accepted exactly when the write left no byte and
the errors are few enough, and then it is read as incomplete. -/
theorem load_failed (hregistered : Registered fmt adapter descriptor client listener target)
    (hevents : Recorded fmt events) (hrun : appendAll fmt { descriptor } events = some spool)
    (haccepted : Accepted spool event) (hstrikes : Strikes event fault)
    (hlater : ∀ entry ∈ later, event.sequence < entry.1.sequence)
    (hclosing : Summarised fmt descriptor closing)
    (hfinal : failed = handleAll fmt spool ((event, some fault) :: later))
    (hlimits : WithinLimits adapter (finalize fmt failed closing)) (result : NormalizedEnvelope) :
    load fmt adapter (finalize fmt failed closing) = .ok result ↔
      LeftNothing event fault ∧ errorCount later closing ≤ 1000 ∧
        envelopeOf fmt adapter (finalize fmt failed closing) (failed.manifest fmt closing)
          descriptor client listener target closing.summary.closedAtUtc (factsOf failed closing)
          (events.map (chunkOf fmt)) = result := by
  have hs := appendAll_consistent fmt (consistent_fresh descriptor) hrun
  have hfailed := handleAll_failed fmt haccepted hstrikes hlater
  rw [← hfinal] at hfailed
  have hdescriptor : failed.descriptor = descriptor :=
    hfailed.descriptor.trans (appendAll_descriptor fmt hrun)
  have hfit := Failed.spoolFit hfailed hrun hevents.count hlimits.rawInt
  have herrors : (factsOf failed closing).errors.length = errorCount later closing := by
    show (failed.errors ++ closing.captureErrors ++ closing.summary.transportErrors).length = _
    rw [List.length_append, List.length_append, hfailed.errors, hs.errors, List.length_nil,
      Nat.zero_add]
    rfl
  have hpublished := finalize_published (hdescriptor ▸ hregistered) (hdescriptor ▸ hclosing) hfit
    hlimits
  have hincomplete : (factsOf failed closing).complete = false := by
    have hpartial : failed.status closing = "PARTIAL" :=
      Failed.status_partial hfailed (by omega)
    simp [CaptureFacts.complete, factsOf, hpartial]
  rw [load_eq_ok hpublished, herrors, hdescriptor]
  constructor
  · rintro ⟨hcount, chunks, hread, -, hresult⟩
    have hleft := leftNothing_of_read hrun hfailed hfit hread
    have hchunks : chunks = events.map (chunkOf fmt) :=
      Except.ok.inj (hread.symm.trans (parseTimeline_failed hrun hevents hregistered.shortNames
        hfailed (by omega) hleft hlimits.rawInt))
    rw [hchunks] at hresult
    exact ⟨hleft, hcount, hresult⟩
  · rintro ⟨hleft, hcount, hresult⟩
    exact ⟨hcount, _, parseTimeline_failed hrun hevents hregistered.shortNames hfailed (by omega)
      hleft hlimits.rawInt, fun h => by simp [hincomplete] at h, hresult⟩

/-- A session with a failed write is read as an incomplete capture that exposes
its raw bytes exactly when the failed write left no byte and the later events did
not leave too many errors. -/
theorem partial_capture_importable_iff
    (hregistered : Registered fmt adapter descriptor client listener target)
    (hevents : Recorded fmt events) (hrun : appendAll fmt { descriptor } events = some spool)
    (haccepted : Accepted spool event) (hstrikes : Strikes event fault)
    (hlater : ∀ entry ∈ later, event.sequence < entry.1.sequence)
    (hclosing : Summarised fmt descriptor closing)
    (hfinal : failed = handleAll fmt spool ((event, some fault) :: later))
    (hlimits : WithinLimits adapter (finalize fmt failed closing)) :
    (∃ envelope, load fmt adapter (finalize fmt failed closing) = .ok envelope ∧
        envelope.complete = false ∧
        envelope.content .requestRaw = some (failed.raw.get .clientToDevice) ∧
        envelope.content .responseRaw = some (failed.raw.get .deviceToClient)) ↔
      LeftNothing event fault ∧ errorCount later closing ≤ 1000 := by
  have hload := load_failed hregistered hevents hrun haccepted hstrikes hlater hclosing hfinal hlimits
  constructor
  · rintro ⟨envelope, henvelope, -⟩
    obtain ⟨hleft, hcount, -⟩ := (hload envelope).mp henvelope
    exact ⟨hleft, hcount⟩
  · rintro ⟨hleft, hcount⟩
    refine ⟨_, (hload _).mpr ⟨hleft, hcount, rfl⟩, ?_, rfl, rfl⟩
    have hfailed := handleAll_failed fmt haccepted hstrikes hlater
    rw [← hfinal] at hfailed
    have hpartial : failed.status closing = "PARTIAL" := Failed.status_partial hfailed (by omega)
    show (factsOf failed closing).complete = false
    simp [CaptureFacts.complete, factsOf, hpartial]

end

/-! ## A disk that fills up -/

/-- The first write of a session stops after one byte of two. -/
def sampleQueue : List (CaptureEvent × Option WriteFault) :=
  [(sampleEvent 0 0 0 .clientToDevice "data" [0x1b, 0x40],
      some (.raw 1 "OSError: [Errno 28] No space left on device")),
    (sampleEvent 1 1 2 .clientToDevice "eof" [], none)]

noncomputable def sampleFailed : SessionSpool :=
  handleAll runtime { descriptor := sampleDescriptor } sampleQueue

def sampleFailedClosing : Closing where
  summary := { sampleClosing.summary with
    observedBytes := ⟨2, 0⟩
    observedChunks := ⟨1, 0⟩ }
  captureErrors := ["capture write failed: OSError: [Errno 28] No space left on device"]

theorem sampleFailed_accepted :
    Accepted { descriptor := sampleDescriptor }
      (sampleEvent 0 0 0 .clientToDevice "data" [0x1b, 0x40]) :=
  ⟨rfl, rfl, rfl, rfl, Or.inl rfl, fun h => absurd h (by decide)⟩

theorem sampleFailed_recorded : Recorded runtime [] where
  recordable _ h := absurd h List.not_mem_nil
  observed := List.nodup_nil
  count := Nat.zero_le _

theorem sampleFailed_summarised : Summarised runtime sampleDescriptor sampleFailedClosing where
  closedAt := sample_summarised.closedAt
  monotonic := sample_summarised.monotonic
  clock := sample_summarised.clock
  closeReason := sample_summarised.closeReason
  observedBytes direction := by cases direction <;> decide
  observedChunks direction := by cases direction <;> decide
  droppedChunks := by decide
  droppedBytes := by decide
  dropped _ := rfl
  error := by decide

theorem sampleFailed_later :
    ∀ entry ∈ sampleQueue.tail, (sampleEvent 0 0 0 .clientToDevice "data" [0x1b, 0x40]).sequence <
      entry.1.sequence := by decide

theorem sampleFailed_strikes : Strikes (sampleEvent 0 0 0 .clientToDevice "data" [0x1b, 0x40])
    (.raw 1 "OSError: [Errno 28] No space left on device") := List.cons_ne_nil _ _

theorem sampleFailed_failed : Failed runtime { descriptor := sampleDescriptor } sampleFailed
    (sampleEvent 0 0 0 .clientToDevice "data" [0x1b, 0x40])
    (.raw 1 "OSError: [Errno 28] No space left on device") 2 :=
  handleAll_failed runtime sampleFailed_accepted sampleFailed_strikes sampleFailed_later

theorem sampleFailed_run :
    appendAll runtime { descriptor := sampleDescriptor } [] =
      some { descriptor := sampleDescriptor } := rfl

theorem sampleFailed_withinLimits :
    WithinLimits sampleAdapter (finalize runtime sampleFailed sampleFailedClosing) := by
  have hfailed := sampleFailed_failed
  have hraw : sampleFailed.raw = ⟨[0x1b], []⟩ := hfailed.raw
  have htimeline : sampleFailed.timeline = [] := hfailed.timeline
  have hdescriptor : sampleFailed.descriptor = sampleDescriptor := hfailed.descriptor
  have hrawFit : ∀ direction, (sampleFailed.raw.get direction).length ≤ maxInt := by
    rw [hraw]
    intro direction
    cases direction <;> decide
  have hfit := Failed.spoolFit hfailed sampleFailed_run (Nat.zero_le _) hrawFit
  have hcount : (sampleFailed.allErrors sampleFailedClosing).length = 3 := by
    rw [SessionSpool.allErrors, List.length_append, List.length_append, hfailed.errors]
    rfl
  have herrors : ∀ error ∈ sampleFailed.allErrors sampleFailedClosing, error.length ≤ 4096 := by
    intro error herror
    rw [SessionSpool.allErrors, List.append_assoc] at herror
    rcases List.mem_append.mp herror with hmem | hmem
    · exact (hfit.error error hmem).2
    · exact (sampleFailed_summarised.error error hmem).2
  have hweight : (descriptorDocument sampleDescriptor).weight ≤ 4000 := by decide +kernel
  have hsize := length_manifest_le (hdescriptor ▸ sampleFailed_summarised) hfit
    (by rw [hfailed.timelineEvents]; decide) (by rw [hfailed.previous]; exact shortHash_none)
    hrawFit (by rw [htimeline]; decide)
    (by rw [hdescriptor]; exact sample_sessionBytes.trans (by decide)) herrors
  rw [hdescriptor, hcount] at hsize
  refine ⟨?_, ?_, ?_, ?_, hrawFit⟩
  · exact hsize.trans (Nat.add_le_add_right (Nat.add_le_add_left hweight _) _ |>.trans (by decide))
  · show (sessionBytes sampleFailed.descriptor).length ≤ _
    rw [hdescriptor]
    exact sample_sessionBytes.trans (by decide)
  · show sampleFailed.timeline.length ≤ _
    rw [htimeline]
    decide
  · show sampleFailed.raw.clientToDevice.length + sampleFailed.raw.deviceToClient.length ≤ _
    rw [hraw]
    decide

/-- The byte on disk is in no counter: the job is refused. -/
theorem torn_write_is_refused :
    ¬∃ envelope, load runtime sampleAdapter (finalize runtime sampleFailed sampleFailedClosing) =
        .ok envelope ∧
      envelope.complete = false ∧
      envelope.content .requestRaw = some (sampleFailed.raw.get .clientToDevice) ∧
      envelope.content .responseRaw = some (sampleFailed.raw.get .deviceToClient) := by
  rintro ⟨envelope, henvelope, -⟩
  have hleft := ((load_failed sample_registered sampleFailed_recorded sampleFailed_run
    sampleFailed_accepted sampleFailed_strikes sampleFailed_later sampleFailed_summarised rfl
    sampleFailed_withinLimits envelope).mp henvelope).1
  exact List.cons_ne_nil _ _ hleft

theorem torn_write_importable_iff :
    (∃ envelope, load runtime sampleAdapter (finalize runtime sampleFailed sampleFailedClosing) =
        .ok envelope ∧
      envelope.complete = false ∧
      envelope.content .requestRaw = some (sampleFailed.raw.get .clientToDevice) ∧
      envelope.content .responseRaw = some (sampleFailed.raw.get .deviceToClient)) ↔
      LeftNothing (sampleEvent 0 0 0 .clientToDevice "data" [0x1b, 0x40])
          (.raw 1 "OSError: [Errno 28] No space left on device") ∧
        errorCount sampleQueue.tail sampleFailedClosing ≤ 1000 :=
  partial_capture_importable_iff sample_registered sampleFailed_recorded sampleFailed_run
    sampleFailed_accepted sampleFailed_strikes sampleFailed_later sampleFailed_summarised rfl
    sampleFailed_withinLimits

end RetailPrintGuard.Ingestion.PartialCapture
