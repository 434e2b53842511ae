import RetailPrintGuard.Ingestion.Reading
import RetailPrintGuard.Common.Runtime

/-! # What the writer publishes, the adapter reads -/
namespace RetailPrintGuard.Ingestion.RoundTrip
open RetailPrintGuard.Library RetailPrintGuard.Library.Checks RetailPrintGuard.Common.Formats
open RetailPrintGuard.Ingestion.Adapters RetailPrintGuard.Ingestion.Canonical
open RetailPrintGuard.Ingestion.Timeline RetailPrintGuard.Ingestion.Reading
open RetailPrintGuard.Proxy.Spool RetailPrintGuard.Proxy.SpoolRuns
open RetailPrintGuard.Proxy.Documents
open RetailPrintGuard.Common.Runtime (runtime)

/-! ## The timeline of a session -/

/-- The events of a session within the limits of the format, each observed once. -/
structure Recorded (fmt : Codec) (events : List CaptureEvent) : Prop where
  recordable : ∀ event ∈ events, Recordable fmt event
  observed : (events.map CaptureEvent.observedSequence).Nodup
  count : events.length ≤ maxTimelineEvents

section
variable {fmt : Codec} {descriptor : SessionDescriptor} {events : List CaptureEvent}
  {spool : SessionSpool}

theorem timeline_eq (hrun : appendAll fmt { descriptor } events = some spool) :
    spool.timeline = joinLines (timelineTexts fmt descriptor none events) := by
  rw [appendAll_timeline fmt hrun]
  rfl

theorem nextSequence_eq (hrun : appendAll fmt { descriptor } events = some spool) :
    spool.nextSequence = events.length := by
  rw [appendAll_nextSequence fmt hrun]
  exact Nat.zero_add _

/-- What the parser has read when it comes to the totals. -/
structure ReadBack (fmt : Codec) (spool : SessionSpool) (events : List CaptureEvent)
    (state : TimelineState) : Prop where
  agrees : Agrees spool state
  chunks : state.events = events.map (chunkOf fmt)
  observed : state.observedSequences = events.map CaptureEvent.observedSequence

/-- The writer's timeline is read, over raw files that hold at least its
payloads, exactly when the totals are accepted. -/
theorem parseTimeline_spool (hrun : appendAll fmt { descriptor } events = some spool)
    (hevents : Recorded fmt events) (hnames : ShortNames descriptor) {streams : ByDirection Bytes} {manifest : Json}
    {allowTrailingRaw : Bool}
    (hstreams : ∀ direction, spool.raw.get direction <+: streams.get direction)
    (hmax : ∀ direction, (streams.get direction).length ≤ maxInt) :
    ∃ state, ReadBack fmt spool events state ∧
      ∀ chunks, parseTimeline fmt spool.timeline streams (identityOf descriptor) manifest
          allowTrailingRaw = .ok chunks ↔
        checkTotals streams manifest allowTrailingRaw state = .ok () ∧
          events.map (chunkOf fmt) = chunks := by
  have hlength := nextSequence_eq hrun
  obtain ⟨state, hparse, hagrees, hchunks, hobserved⟩ :=
    parseLines_appendAll 1 (agrees_fresh descriptor) (consistent_fresh descriptor) hrun
      hevents.recordable hevents.observed
      (by rw [hlength]; exact hevents.count.trans (by decide)) hnames
      shortHash_none hstreams hmax
  have hlines : splitlines spool.timeline = timelineTexts fmt descriptor none events := by
    rw [timeline_eq hrun, splitlines_joinLines printable_timelineTexts]
  have hwhole : ¬(spool.timeline ≠ [] ∧ spool.timeline.getLast? ≠ some newline) := by
    rw [timeline_eq hrun]
    exact fun h => h.2 (getLast?_joinLines h.1)
  refine ⟨state, ⟨hagrees, hchunks, hobserved⟩, fun chunks => ?_⟩
  have hcount : ¬maxTimelineEvents < (timelineTexts fmt descriptor none events).length := by
    rw [length_timelineTexts]
    exact Nat.not_lt.mpr hevents.count
  simp only [parseTimeline, bind_eq_ok, raiseIf_eq_ok, pure_eq_ok, hlines]
  constructor
  · rintro ⟨_, -, _, -, state', hstate', _, htotals, rfl⟩
    obtain rfl : state' = state := Except.ok.inj (hstate'.symm.trans hparse)
    exact ⟨htotals, hchunks.symm⟩
  · rintro ⟨htotals, rfl⟩
    exact ⟨(), hwhole, (), hcount, state, hparse, (), htotals, hchunks⟩

end

/-! ## The published job -/

/-- The manifest as the adapter reads it. -/
def factsOf (spool : SessionSpool) (closing : Closing) : CaptureFacts where
  status := spool.status closing
  transportComplete := closing.summary.transportComplete
  storageComplete := spool.storageComplete closing
  errors := spool.allErrors closing
  droppedChunks := closing.droppedChunks
  droppedBytes := closing.droppedBytes
  observedBytes := closing.summary.observedBytes
  observedChunks := closing.summary.observedChunks
  capturedBytes := spool.capturedBytes
  capturedChunks := spool.capturedChunks
  closeReason := closing.summary.closeReason

def totalsOf (spool : SessionSpool) : Totals where
  timelineEvents := spool.timelineEvents
  lastEvent := spool.previousEventSha256
  capturedBytes := spool.capturedBytes
  capturedChunks := spool.capturedChunks
  eofEvents := spool.eofEvents

/-- The end of a session, within the limits of the format. -/
structure Summarised (fmt : Codec) (descriptor : SessionDescriptor) (closing : Closing) : Prop where
  closedAt : IsTimestamp fmt closing.summary.closedAtUtc
  monotonic : 0 ≤ closing.summary.closedMonotonicNs ∧ closing.summary.closedMonotonicNs ≤ maxInt
  clock : instant fmt descriptor.connectedAtUtc ≤ instant fmt closing.summary.closedAtUtc
  closeReason : closing.summary.closeReason ≠ "" ∧ closing.summary.closeReason.length ≤ 128
  observedBytes : CountsFit closing.summary.observedBytes
  observedChunks : CountsFit closing.summary.observedChunks
  droppedChunks : closing.droppedChunks ≤ maxInt
  droppedBytes : closing.droppedBytes ≤ maxInt
  dropped : closing.droppedChunks = 0 → closing.droppedBytes = 0
  error : ∀ error ∈ closing.captureErrors ++ closing.summary.transportErrors,
    error ≠ "" ∧ error.length ≤ 4096

section
variable {fmt : Codec} {spool : SessionSpool} {closing : Closing}

theorem field_manifest (key : String) : field (spool.manifest fmt closing).sortKeys key =
    (field (spool.manifest fmt closing) key).sortKeys :=
  field_sortKeys manifest_distinct key

theorem manifest_files : field (spool.manifest fmt closing).sortKeys "files" =
    (filesDocument fmt spool.raw spool.timeline (sessionBytes spool.descriptor)).sortKeys := by
  rw [field_manifest]
  simp [SessionSpool.manifest, field, Json.get?, List.lookup_cons]

theorem finalize_file {name : String} {content : Bytes}
    (h : field (filesDocument fmt spool.raw spool.timeline (sessionBytes spool.descriptor)) name =
      fileFacts fmt name content) :
    FileDescribed fmt (spool.manifest fmt closing).sortKeys name content := by
  rw [FileDescribed, manifest_files, field_sortKeys (filesDocument_distinct _ _ _), h]

theorem sortKeys_strings (texts : List String) :
    (Json.arr (texts.map .str)).sortKeys = .arr (texts.map .str) := by
  rw [Json.sortKeys, Json.sortValues_eq_self]
  intro v hv
  obtain ⟨text, -, rfl⟩ := List.mem_map.mp hv
  rfl

theorem sortKeys_optionalText (text : Option String) :
    (optionalText text).sortKeys = optionalText text := by
  cases text <;> rfl

theorem finalize_describes : Describes fmt (finalize fmt spool closing)
    (spool.manifest fmt closing).sortKeys spool.descriptor closing.summary.closedAtUtc
    closing.summary.closedMonotonicNs (factsOf spool closing) := by
  constructor
  case clientRaw => exact finalize_file (by simp [filesDocument, field, Json.get?]; rfl)
  case deviceRaw => exact finalize_file (by simp [filesDocument, field, Json.get?, List.lookup_cons]; rfl)
  case timelineFile =>
    exact finalize_file (by simp [filesDocument, field, Json.get?, List.lookup_cons]; rfl)
  case sessionFile =>
    exact finalize_file (by simp [filesDocument, field, Json.get?, List.lookup_cons]; rfl)
  case files => exact ⟨_, manifest_files⟩
  case errors =>
    rw [field_manifest]
    simp [SessionSpool.manifest, field, Json.get?, List.lookup_cons, sortKeys_strings, factsOf]
  all_goals
    rw [field_manifest]
    simp [SessionSpool.manifest, field, Json.get?, List.lookup_cons, Json.sortKeys, factsOf,
      captureFormat]

theorem finalize_counts : Counts (spool.manifest fmt closing).sortKeys (totalsOf spool) := by
  constructor
  case lastEvent =>
    rw [field_manifest]
    simp [SessionSpool.manifest, field, Json.get?, List.lookup_cons, sortKeys_optionalText, totalsOf]
  all_goals
    rw [field_manifest]
    simp [SessionSpool.manifest, field, Json.get?, List.lookup_cons, Json.sortKeys, totalsOf]

/-- The counters of a directory stay in the range of the format. -/
structure SpoolFit (spool : SessionSpool) : Prop where
  capturedBytes : CountsFit spool.capturedBytes
  capturedChunks : CountsFit spool.capturedChunks
  eofEvents : CountsFit spool.eofEvents
  error : ∀ error ∈ spool.errors, error ≠ "" ∧ error.length ≤ 4096

/-! ## The size of a manifest -/

theorem weight_nat_le {n : Nat} (h : n ≤ maxInt) : (Json.num (n : Int)).weight ≤ 19 := by
  have : maxInt = 2 ^ 63 - 1 := rfl
  exact Json.weight_num_le (by omega)

theorem weight_countDocument_le {counts : ByDirection Nat} (h : CountsFit counts) :
    (countDocument counts).weight ≤ 250 := by
  have hclient := weight_nat_le (h .clientToDevice)
  have hdevice := weight_nat_le (h .deviceToClient)
  have hkeys : Json.weightKeys ["client_to_device", "device_to_client"] = 200 := by decide
  simp only [countDocument, Json.weight_obj, List.map_cons, List.map_nil, List.sum_cons,
    List.sum_nil, hkeys]
  exact Nat.add_le_add_right (Nat.add_le_add_left
    (Nat.add_le_add hclient (Nat.add_le_add hdevice (Nat.le_refl 0))) 200) 2 |>.trans (by decide)

theorem weight_fileFacts_le (fmt : Codec) {name : String} {content : Bytes}
    (hname : name.length ≤ 16) (h : content.length ≤ maxInt) :
    (fileFacts fmt name content).weight ≤ 700 := by
  have hsize := weight_nat_le h
  have hkeys : Json.weightKeys ["name", "size", "sha256"] = 96 := by decide
  simp only [fileFacts, Json.weight_obj, List.map_cons, List.map_nil, List.sum_cons, List.sum_nil,
    Json.weight_str, length_sha256, hkeys]
  generalize (Json.num content.length).weight = size at hsize ⊢
  omega

theorem weight_filesDocument_le (fmt : Codec) {raw : ByDirection Bytes} {timeline session : Bytes}
    (hraw : ∀ direction, (raw.get direction).length ≤ maxInt) (htimeline : timeline.length ≤ maxInt)
    (hsession : session.length ≤ maxInt) :
    (filesDocument fmt raw timeline session).weight ≤ 3200 := by
  have hclient := weight_fileFacts_le fmt (by decide : "client.raw".length ≤ 16) (hraw .clientToDevice)
  have hdevice := weight_fileFacts_le fmt (by decide : "device.raw".length ≤ 16) (hraw .deviceToClient)
  have htimeline := weight_fileFacts_le fmt (by decide : "timeline.jsonl".length ≤ 16) htimeline
  have hsession := weight_fileFacts_le fmt (by decide : "session.json".length ≤ 16) hsession
  have hkeys : Json.weightKeys ["client.raw", "device.raw", "timeline.jsonl", "session.json"] =
      292 := by decide
  simp only [ByDirection.get] at hclient hdevice
  simp only [filesDocument, Json.weight_obj, List.map_cons, List.map_nil, List.sum_cons,
    List.sum_nil, hkeys]
  generalize (fileFacts fmt "client.raw" raw.clientToDevice).weight = client at hclient ⊢
  generalize (fileFacts fmt "device.raw" raw.deviceToClient).weight = device at hdevice ⊢
  generalize (fileFacts fmt "timeline.jsonl" timeline).weight = timeline at htimeline ⊢
  generalize (fileFacts fmt "session.json" session).weight = session at hsession ⊢
  omega

theorem weight_strings_le {texts : List String} {n : Nat} (h : ∀ text ∈ texts, text.length ≤ n) :
    (Json.arr (texts.map .str)).weight ≤ texts.length * (6 * n + 3) + 2 := by
  rw [Json.weight, Nat.add_le_add_iff_right]
  induction texts with
  | nil => exact Nat.zero_le _
  | cons text texts ih =>
    have htext := h text List.mem_cons_self
    have htail := ih fun t ht => h t (List.mem_cons_of_mem _ ht)
    rw [List.map_cons, Json.weightValues, Json.weight_str, List.length_cons, Nat.add_mul, Nat.one_mul]
    omega

theorem finalize_published {adapter : Adapter} {client listener target : Endpoint}
    (hregistered : Registered fmt adapter spool.descriptor client listener target)
    (hclosing : Summarised fmt spool.descriptor closing) (hfit : SpoolFit spool)
    (hlimits : WithinLimits adapter (finalize fmt spool closing)) :
    Published fmt adapter (finalize fmt spool closing) (spool.manifest fmt closing)
      spool.descriptor client listener target closing.summary.closedAtUtc
      closing.summary.closedMonotonicNs (factsOf spool closing) where
  registered := hregistered
  device := rfl
  ready := rfl
  session := rfl
  manifestBytes := rfl
  readable := manifest_readable
  object := ⟨_, rfl⟩
  describes := finalize_describes
  closedAt := hclosing.closedAt
  monotonic := hclosing.monotonic
  clock := hclosing.clock
  limits := hlimits
  fit := {
    status := by
      show spool.status closing = "COMPLETE" ∨ spool.status closing = "PARTIAL"
      unfold SessionSpool.status
      split
      · exact Or.inl rfl
      · exact Or.inr rfl
    error := by
      intro error herror
      rcases List.mem_append.mp herror with hmem | hmem
      · rcases List.mem_append.mp hmem with hmem | hmem
        · exact hfit.error error hmem
        · exact hclosing.error error (List.mem_append_left _ hmem)
      · exact hclosing.error error (List.mem_append_right _ hmem)
    droppedChunks := hclosing.droppedChunks
    droppedBytes := hclosing.droppedBytes
    observedBytes := hclosing.observedBytes
    observedChunks := hclosing.observedChunks
    capturedBytes := hfit.capturedBytes
    capturedChunks := hfit.capturedChunks
    closeReason := hclosing.closeReason }

theorem status_eq_complete :
    spool.status closing = "COMPLETE" ↔ spool.complete closing = true := by
  unfold SessionSpool.status
  split <;> simp_all

/-- The manifest is as long as its session and its errors make it. -/
theorem length_manifest_le (hclosing : Summarised fmt spool.descriptor closing)
    (hfit : SpoolFit spool) (hevents : spool.timelineEvents ≤ maxInt)
    (hprevious : ShortHash spool.previousEventSha256)
    (hraw : ∀ direction, (spool.raw.get direction).length ≤ maxInt)
    (htimeline : spool.timeline.length ≤ maxInt)
    (hsession : (sessionBytes spool.descriptor).length ≤ maxInt)
    (herrors : ∀ error ∈ spool.allErrors closing, error.length ≤ 4096) :
    (finalize fmt spool closing).manifest.length ≤
      9000 + (descriptorDocument spool.descriptor).weight +
        (spool.allErrors closing).length * 24579 := by
  have hdocument := weight_filesDocument_le fmt hraw htimeline hsession
  have hlist := weight_strings_le herrors
  have h1 := weight_countDocument_le hclosing.observedBytes
  have h2 := weight_countDocument_le hclosing.observedChunks
  have h3 := weight_countDocument_le hfit.capturedBytes
  have h4 := weight_countDocument_le hfit.capturedChunks
  have h5 := weight_countDocument_le hfit.eofEvents
  have h6 := weight_nat_le hevents
  have h7 := weight_nat_le hclosing.droppedChunks
  have h8 := weight_nat_le hclosing.droppedBytes
  have h9 : (Json.num closing.summary.closedMonotonicNs).weight ≤ 19 := by
    have := hclosing.monotonic
    have : maxInt = 2 ^ 63 - 1 := rfl
    exact Json.weight_num_le (by omega)
  have h10 := weight_optionalText_le hprevious
  have h11 := hclosing.closedAt.length
  have h12 := hclosing.closeReason.2
  have hstatus : (spool.status closing).length ≤ 8 := by
    unfold SessionSpool.status
    split <;> decide
  have hkeys : Json.weightKeys ["schema_version", "capture_format", "session", "closed_at_utc",
      "closed_monotonic_ns", "close_reason", "status", "transport_complete", "storage_complete",
      "observed_bytes", "observed_chunks", "captured_bytes", "captured_chunks", "eof_events",
      "timeline_events", "last_event_sha256", "dropped_chunks", "dropped_bytes", "errors",
      "files"] ≤ 2000 := by decide
  have hformat : "retailprintguard-bidirectional-v1".length = 33 := by decide
  have hone : (Json.num 1).weight = 1 := by decide
  show ((spool.manifest fmt closing).dumps ++ [newline]).length ≤ _
  rw [List.length_append, List.length_singleton]
  refine (Nat.add_le_add_right (Json.length_dumps_le (spool.manifest fmt closing)) 1).trans ?_
  simp only [SessionSpool.manifest, Json.weight_obj, List.map_cons, List.map_nil, List.sum_cons,
    List.sum_nil, Json.weight_str, Json.weight_bool, hformat, hone]
  generalize Json.weightKeys _ = keys at hkeys ⊢
  generalize (filesDocument fmt spool.raw spool.timeline _).weight = files at hdocument ⊢
  generalize (Json.arr _).weight = errors at hlist ⊢
  generalize (countDocument closing.summary.observedBytes).weight = c1 at h1 ⊢
  generalize (countDocument closing.summary.observedChunks).weight = c2 at h2 ⊢
  generalize (countDocument spool.capturedBytes).weight = c3 at h3 ⊢
  generalize (countDocument spool.capturedChunks).weight = c4 at h4 ⊢
  generalize (countDocument spool.eofEvents).weight = c5 at h5 ⊢
  generalize (Json.num spool.timelineEvents).weight = n6 at h6 ⊢
  generalize (Json.num closing.droppedChunks).weight = n7 at h7 ⊢
  generalize (Json.num closing.droppedBytes).weight = n8 at h8 ⊢
  generalize (Json.num closing.summary.closedMonotonicNs).weight = n9 at h9 ⊢
  generalize (optionalText spool.previousEventSha256).weight = n10 at h10 ⊢
  generalize (descriptorDocument spool.descriptor).weight = session
  generalize (spool.allErrors closing).length * 24579 = weightErrors at hlist ⊢
  clear hone hformat
  omega

/-- A complete session is published without evidence against it. -/
theorem complete_iff {descriptor : SessionDescriptor} (hclosing : Summarised fmt descriptor closing) :
    ((factsOf spool closing).complete = true ↔ spool.complete closing = true) ∧
      ¬((factsOf spool closing).complete = true ∧ (factsOf spool closing).Contradicts) := by
  have hcomplete : (factsOf spool closing).complete = true → spool.complete closing = true := by
    intro h
    simp only [CaptureFacts.complete, Bool.and_eq_true, beq_iff_eq] at h
    exact status_eq_complete.mp h.1.1
  refine ⟨⟨hcomplete, fun h => ?_⟩, ?_⟩
  · have hstatus := status_eq_complete.mpr h
    simp only [SessionSpool.complete, Bool.and_eq_true, SessionSpool.allErrors,
      List.isEmpty_iff, List.append_eq_nil_iff] at h
    obtain ⟨⟨⟨⟨htransport, hbytes⟩, hchunks⟩, ⟨hspool, hcapture⟩, -⟩, hdropped⟩ := h
    simp [CaptureFacts.complete, factsOf, hstatus, htransport, SessionSpool.storageComplete, hbytes,
      hchunks, hspool, hcapture, hdropped]
  · rintro ⟨h, hcontradicts⟩
    have h := hcomplete h
    simp only [SessionSpool.complete, Bool.and_eq_true, SessionSpool.byteComplete,
      SessionSpool.chunkComplete, beq_iff_eq, List.isEmpty_iff] at h
    obtain ⟨⟨⟨⟨-, hbytes⟩, hchunks⟩, herrors⟩, hdropped⟩ := h
    rcases hcontradicts with h | h | h | h | h
    · exact h herrors
    · exact h hbytes
    · exact h hchunks
    · exact h hdropped
    · exact h (hclosing.dropped hdropped)

/-! ## The round trip -/

/-- The observed sequences have no gap when nothing was dropped. -/
def Gapless (closing : Closing) (events : List CaptureEvent) : Prop :=
  closing.captureErrors = [] → closing.droppedChunks = 0 →
    ∀ n, n ∈ events.map CaptureEvent.observedSequence ↔ n < events.length

theorem spoolFit {descriptor : SessionDescriptor} {events : List CaptureEvent}
    (hrun : appendAll fmt { descriptor } events = some spool)
    (hcount : events.length ≤ maxTimelineEvents)
    (hraw : ∀ direction, (spool.raw.get direction).length ≤ maxInt) : SpoolFit spool := by
  have hs := appendAll_consistent fmt (consistent_fresh descriptor) hrun
  have hsequence : spool.nextSequence ≤ maxInt := by
    rw [nextSequence_eq hrun]
    exact hcount.trans (by decide)
  refine ⟨fun direction => ?_, fun direction => ?_, fun direction => ?_, ?_⟩
  · rw [← hs.capturedBytes]
    exact hraw direction
  · exact (hs.capturedChunks direction).trans hsequence
  · exact (hs.eofEvents direction).trans hsequence
  · rw [hs.errors]
    exact fun error herror => absurd herror List.not_mem_nil

/-- The totals of a written session are those of its timeline. -/
theorem checkTotals_finalize {descriptor : SessionDescriptor} {events : List CaptureEvent}
    {state : TimelineState} {allowTrailingRaw : Bool}
    (hrun : appendAll fmt { descriptor } events = some spool)
    (hcount : events.length ≤ maxTimelineEvents) (hfit : SpoolFit spool)
    (hstate : ReadBack fmt spool events state) (hgapless : Gapless closing events) :
    checkTotals spool.raw (spool.manifest fmt closing).sortKeys allowTrailingRaw state = .ok () := by
  have hs := appendAll_consistent fmt (consistent_fresh descriptor) hrun
  have hlength := nextSequence_eq hrun
  have hchunks : state.events.length = events.length := by
    rw [hstate.chunks, List.length_map]
  refine (checkTotals_eq_ok finalize_counts
    ⟨hfit.capturedBytes, hfit.capturedChunks, hfit.eofEvents⟩).mpr
    ⟨?_, ?_, hstate.agrees.previousHash, hs.capturedBytes, Or.inl hstate.agrees.offsets,
      hstate.agrees.dataCounts, hstate.agrees.eofCounts, fun hstatus => ?_⟩
  · show spool.timelineEvents ≤ maxTimelineEvents
    rw [hs.timelineEvents, hlength]
    exact hcount
  · show state.events.length = spool.timelineEvents
    rw [hs.timelineEvents, hlength, hchunks]
  · have hcomplete : spool.complete closing = true := by
      rw [finalize_describes.status] at hstatus
      exact status_eq_complete.mp (Json.str.inj hstatus)
    simp only [SessionSpool.complete, Bool.and_eq_true, SessionSpool.allErrors, List.isEmpty_iff,
      List.append_eq_nil_iff, beq_iff_eq] at hcomplete
    have hall := hgapless hcomplete.1.2.1.2 hcomplete.2
    rw [← hstate.observed] at hall
    refine ⟨fun n hn => ?_, fun n hn => ?_⟩
    · rw [hchunks]
      exact (hall n).mp hn
    · rw [hchunks] at hn
      exact (hall n).mpr (List.mem_range.mp hn)

/-- A session written without a failure is read with one chunk for each event. -/
theorem load_finalize {adapter : Adapter} {client listener target : Endpoint}
    {events : List CaptureEvent}
    (hregistered : Registered fmt adapter spool.descriptor client listener target)
    (hevents : Recorded fmt events)
    (hrun : appendAll fmt { descriptor := spool.descriptor } events = some spool)
    (hclosing : Summarised fmt spool.descriptor closing)
    (herrors : (closing.captureErrors ++ closing.summary.transportErrors).length ≤ 1000)
    (hgapless : Gapless closing events)
    (hlimits : WithinLimits adapter (finalize fmt spool closing)) :
    load fmt adapter (finalize fmt spool closing) =
      .ok (envelopeOf fmt adapter (finalize fmt spool closing) (spool.manifest fmt closing)
        spool.descriptor client listener target closing.summary.closedAtUtc (factsOf spool closing)
        (events.map (chunkOf fmt))) := by
  have hs := appendAll_consistent fmt (consistent_fresh spool.descriptor) hrun
  have hfit := spoolFit hrun hevents.count hlimits.rawInt
  obtain ⟨state, hstate, htimeline⟩ := @parseTimeline_spool fmt _ events spool hrun hevents
    hregistered.shortNames spool.raw (spool.manifest fmt closing).sortKeys (factsOf spool closing).allowTrailingRaw
    (fun direction => List.prefix_refl _) hlimits.rawInt
  refine (load_eq_ok (finalize_published hregistered hclosing hfit hlimits)).mpr ⟨?_,
    events.map (chunkOf fmt),
    (htimeline _).mpr ⟨checkTotals_finalize hrun hevents.count hfit hstate hgapless, rfl⟩,
    (complete_iff hclosing).2, rfl⟩
  show (spool.errors ++ closing.captureErrors ++ closing.summary.transportErrors).length ≤ 1000
  rw [hs.errors]
  exact herrors

/-- A session written without a failure is read back whole: its raw bytes, one
chunk for each event, and its completeness. -/
theorem round_trip {adapter : Adapter} {descriptor : SessionDescriptor}
    {client listener target : Endpoint} {events : List CaptureEvent}
    (hregistered : Registered fmt adapter descriptor client listener target)
    (hevents : Recorded fmt events)
    (hrun : appendAll fmt { descriptor } events = some spool)
    (hclosing : Summarised fmt descriptor closing)
    (herrors : (closing.captureErrors ++ closing.summary.transportErrors).length ≤ 1000)
    (hgapless : Gapless closing events)
    (hlimits : WithinLimits adapter (finalize fmt spool closing)) :
    ∃ envelope, load fmt adapter (finalize fmt spool closing) = .ok envelope ∧
      envelope.content .requestRaw = some (payloads events .clientToDevice) ∧
      envelope.content .responseRaw = some (payloads events .deviceToClient) ∧
      envelope.chunks = events.map (chunkOf fmt) ∧
      (envelope.complete = true ↔ spool.status closing = "COMPLETE") := by
  obtain rfl : spool.descriptor = descriptor := appendAll_descriptor fmt hrun
  have hraw : ∀ direction, spool.raw.get direction = payloads events direction := by
    intro direction
    rw [appendAll_raw fmt hrun]
    cases direction <;> rfl
  refine ⟨_, load_finalize hregistered hevents hrun hclosing herrors hgapless hlimits, ?_, ?_, rfl,
    ?_⟩
  · rw [envelopeOf_requestRaw, ← hraw]
    rfl
  · rw [envelopeOf_responseRaw, ← hraw]
    rfl
  · show (factsOf spool closing).complete = true ↔ _
    rw [(complete_iff hclosing).1, status_eq_complete]

end

/-! ## A session -/

def sampleDescriptor : SessionDescriptor where
  sessionId := "6f1d3a52-8c4e-4b7a-9d21-0a5b6c7d8e9f"
  jobId := "0b9c8d7e-6f5a-4e3d-8c2b-1a0f9e8d7c6b"
  deviceId := "cassa1"
  deviceName := "Cassa 1"
  deviceType := "rch"
  parser := "rch"
  clientEndpoint := ("192.168.1.20", 50123)
  listenerEndpoint := ("192.168.1.10", 9100)
  targetEndpoint := ("192.168.1.50", 9100)
  connectedAtUtc := "2026-07-01T10:00:00.000000Z"
  connectedMonotonicNs := 1000

def sampleAdapter : Adapter where
  sourceInstanceId := "spool"
  devicesByTarget := [(⟨"192.168.1.50", 9100⟩, "cassa1")]
  positive := maxPayloadBytes_pos

def sampleEvent (sequence directionSequence offset : Nat) (direction : Direction) (kind : String)
    (payload : Bytes) : CaptureEvent where
  sequence := sequence
  observedSequence := sequence
  directionSequence := directionSequence
  direction := direction
  kind := kind
  capturedAtUtc := "2026-07-01T10:00:01.000000Z"
  capturedMonotonicNs := 2000
  offset := offset
  payload := payload
  forwarded := true
  forwardedAtUtc := "2026-07-01T10:00:01.000500Z"

/-- Two chunks to the device, its answer between them, and both ends of stream. -/
def sampleEvents : List CaptureEvent :=
  [sampleEvent 0 0 0 .clientToDevice "data" [0x1b, 0x40],
    sampleEvent 1 0 0 .deviceToClient "data" [0x06],
    sampleEvent 2 1 2 .clientToDevice "data" [0x41, 0x42, 0x0a],
    sampleEvent 3 2 5 .clientToDevice "eof" [], sampleEvent 4 1 1 .deviceToClient "eof" []]

noncomputable def sampleSpool : SessionSpool :=
  sampleEvents.foldl (written runtime) { descriptor := sampleDescriptor }

def sampleClosing : Closing where
  summary := {
    closedAtUtc := "2026-07-01T10:00:02.000000Z"
    closedMonotonicNs := 3000
    closeReason := "clean_bidirectional_eof"
    transportComplete := true
    observedBytes := ⟨5, 1⟩
    observedChunks := ⟨2, 1⟩ }

theorem sampleTimestamp_valid {text : String} (h : text ∈ ["2026-07-01T10:00:00.000000Z",
    "2026-07-01T10:00:01.000000Z", "2026-07-01T10:00:01.000500Z", "2026-07-01T10:00:02.000000Z"]) :
    IsTimestamp runtime text := by
  have hall : ∀ text ∈ ["2026-07-01T10:00:00.000000Z", "2026-07-01T10:00:01.000000Z",
      "2026-07-01T10:00:01.000500Z", "2026-07-01T10:00:02.000000Z"],
      text ≠ "" ∧ text.length ≤ 64 ∧
        (Common.Runtime.readTimestamp text).map ParsedTime.aware = some true := by
    decide +kernel
  obtain ⟨hne, hlen, haware⟩ := hall text h
  obtain ⟨⟨micros, aware⟩, hparsed, rfl⟩ := Option.map_eq_some_iff.mp haware
  exact ⟨hne, hlen, micros, hparsed⟩

theorem sample_registered : Registered runtime sampleAdapter sampleDescriptor
    ⟨"192.168.1.20", 50123⟩ ⟨"192.168.1.10", 9100⟩ ⟨"192.168.1.50", 9100⟩ where
  jobId := ⟨by decide, by decide, by decide +kernel⟩
  sessionId := ⟨by decide, by decide, by decide +kernel⟩
  deviceId := by decide
  deviceType := Or.inr rfl
  parser := by decide
  clientEndpoint := ⟨by decide, by decide, by decide +kernel,
    by decide, rfl⟩
  listenerEndpoint := ⟨by decide, by decide, by decide +kernel,
    by decide, rfl⟩
  targetEndpoint := ⟨by decide, by decide, by decide +kernel,
    by decide, rfl⟩
  configured := by decide
  connectedAt := sampleTimestamp_valid (by decide)
  monotonic := by decide

theorem sample_recordable (sequence directionSequence offset : Nat) (direction : Direction)
    {kind : String} {payload : Bytes} (hpayload : kind = "data" → payload ≠ [])
    (hsequence : sequence ≤ maxInt) :
    Recordable runtime (sampleEvent sequence directionSequence offset direction kind payload) where
  payload := hpayload
  observedSequence := hsequence
  capturedAt := sampleTimestamp_valid (by simp [sampleEvent])
  forwardedAt := sampleTimestamp_valid (by simp [sampleEvent])
  monotonic := ⟨by simp [sampleEvent], by simp [sampleEvent, maxInt]⟩
  forwardError _ h := by cases h

theorem sample_recorded : Recorded runtime sampleEvents where
  recordable event h := by
    simp only [sampleEvents, List.mem_cons, List.not_mem_nil, or_false] at h
    rcases h with rfl | rfl | rfl | rfl | rfl
    · exact sample_recordable 0 0 0 _ (fun _ => by decide) (by decide)
    · exact sample_recordable 1 0 0 _ (fun _ => by decide) (by decide)
    · exact sample_recordable 2 1 2 _ (fun _ => by decide) (by decide)
    · exact sample_recordable 3 2 5 _ (fun h => absurd h (by decide)) (by decide)
    · exact sample_recordable 4 1 1 _ (fun h => absurd h (by decide)) (by decide)
  observed := by decide
  count := by decide

theorem sample_accepted :
    appendAll runtime { descriptor := sampleDescriptor } sampleEvents = some sampleSpool := by
  refine (appendAll_cons _).mpr ⟨⟨rfl, rfl, rfl, rfl, Or.inl rfl, fun h => absurd h (by decide)⟩, ?_⟩
  refine (appendAll_cons _).mpr ⟨⟨rfl, rfl, rfl, rfl, Or.inl rfl, fun h => absurd h (by decide)⟩, ?_⟩
  refine (appendAll_cons _).mpr ⟨⟨rfl, rfl, rfl, rfl, Or.inl rfl, fun h => absurd h (by decide)⟩, ?_⟩
  refine (appendAll_cons _).mpr ⟨⟨rfl, rfl, rfl, rfl, Or.inr rfl, fun _ => rfl⟩, ?_⟩
  exact (appendAll_cons _).mpr ⟨⟨rfl, rfl, rfl, rfl, Or.inr rfl, fun _ => rfl⟩, rfl⟩

theorem sample_summarised : Summarised runtime sampleDescriptor sampleClosing where
  closedAt := sampleTimestamp_valid (by decide)
  monotonic := by decide
  clock := by decide +kernel
  closeReason := by decide
  observedBytes direction := by cases direction <;> decide
  observedChunks direction := by cases direction <;> decide
  droppedChunks := by decide
  droppedBytes := by decide
  dropped _ := rfl
  error _ h := absurd h List.not_mem_nil

theorem sample_gapless : Gapless sampleClosing sampleEvents := by
  intro _ _ n
  simp only [sampleEvents, sampleEvent, List.map_cons, List.map_nil, List.mem_cons,
    List.not_mem_nil, or_false, List.length_cons, List.length_nil]
  omega

theorem sample_rawFit (direction : Direction) :
    (sampleSpool.raw.get direction).length ≤ maxInt := by
  have hraw : sampleSpool.raw.get direction = payloads sampleEvents direction := by
    rw [appendAll_raw _ sample_accepted]
    cases direction <;> rfl
  rw [hraw]
  cases direction <;> decide

theorem sample_timeline : sampleSpool.timeline.length ≤ 5 * (maxTimelineLineBytes + 1) := by
  have h := length_timeline_le (consistent_fresh sampleDescriptor) sample_accepted
    sample_recorded.recordable (by rw [nextSequence_eq sample_accepted]; decide)
    sample_registered.shortNames shortHash_none sample_rawFit
  exact h.trans (Nat.le_of_eq (Nat.zero_add _))

theorem sample_sessionBytes : (sessionBytes sampleDescriptor).length ≤ 4000 := by
  have hweight : (sessionDocument (descriptorDocument sampleDescriptor)).weight ≤ 3999 := by
    decide +kernel
  have hsize := (Json.length_dumps_le _).trans hweight
  rw [sessionBytes, List.length_append, List.length_singleton]
  omega

theorem sample_withinLimits :
    WithinLimits sampleAdapter (finalize runtime sampleSpool sampleClosing) where
  manifest := by
    have hs := appendAll_consistent _ (consistent_fresh _) sample_accepted
    have herrors : sampleSpool.allErrors sampleClosing = [] := by
      rw [SessionSpool.allErrors, hs.errors]
      rfl
    have hevents : sampleSpool.timelineEvents ≤ maxInt := by
      rw [hs.timelineEvents, nextSequence_eq sample_accepted]
      decide
    have hdescriptor : (descriptorDocument sampleSpool.descriptor).weight ≤ 4000 := by
      decide +kernel
    have hsize := length_manifest_le sample_summarised
      (spoolFit sample_accepted sample_recorded.count sample_rawFit) hevents
      (shortHash_appendAll sample_accepted shortHash_none) sample_rawFit
      (sample_timeline.trans (by decide)) (sample_sessionBytes.trans (by decide))
      (by rw [herrors]; exact fun _ h => absurd h List.not_mem_nil)
    rw [herrors] at hsize
    exact hsize.trans (Nat.add_le_add_right (Nat.add_le_add_left hdescriptor _) _ |>.trans
      (by decide))
  session := sample_sessionBytes.trans (by decide)
  timeline := sample_timeline.trans (by decide)
  raw := by decide +kernel
  rawInt := sample_rawFit

theorem sample_load :
    load runtime sampleAdapter (finalize runtime sampleSpool sampleClosing) =
      .ok (envelopeOf runtime sampleAdapter (finalize runtime sampleSpool sampleClosing)
        (sampleSpool.manifest runtime sampleClosing) sampleSpool.descriptor
        ⟨"192.168.1.20", 50123⟩ ⟨"192.168.1.10", 9100⟩ ⟨"192.168.1.50", 9100⟩
        sampleClosing.summary.closedAtUtc (factsOf sampleSpool sampleClosing)
        (sampleEvents.map (chunkOf runtime))) :=
  @load_finalize runtime sampleSpool sampleClosing sampleAdapter _ _ _ sampleEvents
    sample_registered sample_recorded sample_accepted sample_summarised (by decide) sample_gapless
    sample_withinLimits

/-- The ends of stream are chunks too, not the payloads alone. -/
theorem ends_of_stream_are_chunks :
    ∃ envelope, load runtime sampleAdapter (finalize runtime sampleSpool sampleClosing) =
        .ok envelope ∧
      envelope.chunks ≠
        (sampleEvents.filter fun event => event.kind = "data").map (chunkOf runtime) := by
  refine ⟨_, sample_load, fun h => ?_⟩
  have hlength : (sampleEvents.map (chunkOf runtime)).length = _ := congrArg List.length h
  rw [List.length_map, List.length_map] at hlength
  exact absurd hlength (by decide)

/-- The sample session is published complete and read back whole. -/
theorem round_trip_sample :
    ∃ envelope, load runtime sampleAdapter (finalize runtime sampleSpool sampleClosing) =
        .ok envelope ∧
      envelope.content .requestRaw = some (payloads sampleEvents .clientToDevice) ∧
      envelope.content .responseRaw = some (payloads sampleEvents .deviceToClient) ∧
      envelope.chunks = sampleEvents.map (chunkOf runtime) ∧
      (envelope.complete = true ↔ sampleSpool.status sampleClosing = "COMPLETE") :=
  round_trip sample_registered sample_recorded sample_accepted sample_summarised (by decide)
    sample_gapless sample_withinLimits

end RetailPrintGuard.Ingestion.RoundTrip
