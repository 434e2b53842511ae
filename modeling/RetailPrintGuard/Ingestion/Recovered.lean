import RetailPrintGuard.Ingestion.RoundTrip
import RetailPrintGuard.Proxy.Crash

/-! # Recovered jobs

What recovery derives from the files that survived a crash is what the adapter
checks, as long as the last line of the timeline is whole. -/
namespace RetailPrintGuard.Ingestion.Recovered
open RetailPrintGuard.Library RetailPrintGuard.Library.Checks RetailPrintGuard.Common.Formats
open RetailPrintGuard.Ingestion.Adapters RetailPrintGuard.Ingestion.Canonical
open RetailPrintGuard.Ingestion.Timeline RetailPrintGuard.Ingestion.Reading
open RetailPrintGuard.Ingestion.RoundTrip
open RetailPrintGuard.Proxy.Spool RetailPrintGuard.Proxy.SpoolRuns
open RetailPrintGuard.Proxy.Documents
open RetailPrintGuard.Proxy.Recovery RetailPrintGuard.Proxy.Crash

/-! ## The inspection of a written timeline -/

theorem rawLines_line {line : Bytes} (hline : ∀ byte ∈ line, 32 ≤ byte) (rest : Bytes) :
    rawLines (line ++ [newline] ++ rest) = (line ++ [newline]) :: rawLines rest := by
  induction line with
  | nil => rfl
  | cons byte line ih =>
    have hbyte : byte ≠ newline := by
      intro h
      have hge := hline byte List.mem_cons_self
      rw [h] at hge
      exact absurd hge (by decide)
    rw [List.cons_append, List.cons_append, rawLines, if_neg hbyte,
      ih fun b hb => hline b (List.mem_cons_of_mem _ hb)]

theorem rawLines_joinLines {lines : List Bytes}
    (hlines : ∀ line ∈ lines, ∀ byte ∈ line, 32 ≤ byte) :
    rawLines (joinLines lines) = lines.map fun line => line ++ [newline] := by
  induction lines with
  | nil => rfl
  | cons line lines ih =>
    rw [joinLines_cons, rawLines_line (hlines line List.mem_cons_self),
      ih fun l hl => hlines l (List.mem_cons_of_mem _ hl), List.map_cons]

/-- The counters of an inspection are the writer's. -/
structure Inspected (spool : SessionSpool) (inspection : Inspection) : Prop where
  events : inspection.events = spool.nextSequence
  dataChunks : inspection.dataChunks = spool.capturedChunks
  eofEvents : inspection.eofEvents = spool.eofEvents
  coveredBytes : inspection.coveredBytes = spool.capturedBytes
  directionSequences : inspection.directionSequences = spool.nextDirectionSequence
  lastEvent : inspection.lastEvent = spool.previousEventSha256
  integrityOk : inspection.integrityOk = true

section
variable {fmt : Codec}

theorem namedDirection_value (direction : Direction) :
    namedDirection direction.value = some direction := by
  cases direction <;> rfl

/-- A value that an entry was written with is read back. -/
theorem subscript_ofJson (value : Json) (hobject : ∃ fields, value = .obj fields) (key : String) :
    subscript (.ofJson value) key =
      (value.get? key).elim (.error .keyError) fun v => .ok (.ofJson v) := by
  obtain ⟨fields, rfl⟩ := hobject
  have hget := PyJson.get?_ofJson (.obj fields) key
  rw [PyJson.ofJson] at hget ⊢
  rw [subscript, hget]
  cases (Json.obj fields).get? key <;> rfl

/-- The entry that is read from the line of an event. -/
theorem readEntry_document {descriptor : SessionDescriptor} {previous : Option String}
    {event : CaptureEvent} :
    readEntry fmt (.ofJson (document fmt descriptor previous event)) = .ok {
      body := .ofJson (eventBody fmt descriptor previous event).sortKeys
      eventHash := .str (.text (eventSha256 fmt descriptor previous event))
      direction := .text event.direction.value
      kind := .text event.kind
      sequence := event.sequence
      observedSequence := event.observedSequence
      directionSequence := event.directionSequence
      offset := event.offset
      length := event.payload.length } := by
  have hpop : pop (.ofJson (document fmt descriptor previous event)) "event_sha256" =
      .ok (.str (.text (eventSha256 fmt descriptor previous event)),
        .ofJson (eventBody fmt descriptor previous event).sortKeys) := by
    have hhash : subscript (.ofJson (document fmt descriptor previous event)) "event_sha256" =
        .ok (.str (.text (eventSha256 fmt descriptor previous event))) := by
      rw [subscript_ofJson (document fmt descriptor previous event) ⟨_, rfl⟩, document,
        Json.get?_sortKeys timelineEntry_distinct]
      simp [timelineEntry, eventBody, Json.get?, List.lookup_cons, Json.sortKeys, PyJson.ofJson]
    have hbody : (PyJson.ofJson (document fmt descriptor previous event)).erase "event_sha256" =
        .ofJson (eventBody fmt descriptor previous event).sortKeys := by
      rw [PyJson.erase_ofJson, document, Json.erase_sortKeys timelineEntry_distinct]
      rfl
    obtain ⟨fields, hfields⟩ : ∃ fields,
        PyJson.ofJson (document fmt descriptor previous event) = .obj fields := ⟨_, rfl⟩
    rw [hfields] at hhash hbody ⊢
    rw [pop, hhash, ← hbody]
    rfl
  have hget : ∀ key, subscript (.ofJson (eventBody fmt descriptor previous event).sortKeys) key =
      ((eventBody fmt descriptor previous event).get? key).elim (.error .keyError)
        fun v => .ok (.ofJson v.sortKeys) := by
    intro key
    rw [subscript_ofJson (eventBody fmt descriptor previous event).sortKeys ⟨_, rfl⟩,
      Json.get?_sortKeys eventBody_distinct]
    cases (eventBody fmt descriptor previous event).get? key <;> rfl
  simp only [readEntry, hpop, ok_bind, intAt, strAt, hget]
  simp [eventBody, Json.get?, List.lookup_cons, Json.sortKeys, PyJson.ofJson, intOf, strOf, ok_bind]

/-- Reading an entry that was written raises nothing else. -/
theorem entryCaught_document {descriptor : SessionDescriptor} {previous : Option String}
    {event : CaptureEvent} {state : Inspection} :
    EntryCaught fmt state (.ofJson (document fmt descriptor previous event)) := by
  rw [← caught_inspectEntry, inspectEntry, readEntry_document, ok_bind, caught_checkEntry]
  exact fun _ => fmt.dumpsTooDeep_shallow _ (PyJson.shallow_ofJson (Json.plain_sortKeys eventBody_plain))

theorem inspectEntry_document {spool : SessionSpool} {inspection : Inspection}
    {event : CaptureEvent} (h : Inspected spool inspection) (haccepted : Accepted spool event)
    (hdata : event.kind = "data" → event.payload ≠ [])
    (hfresh : (event.observedSequence : Int) ∉ inspection.observedSequences) :
    inspectEntry fmt inspection
        (.ofJson (document fmt spool.descriptor spool.previousEventSha256 event)) =
      .ok (inspection.add event.kind event.direction event.payload.length event.observedSequence
        (eventSha256 fmt spool.descriptor spool.previousEventSha256 event)) := by
  let body := eventBody fmt spool.descriptor spool.previousEventSha256 event
  have hprevious : (((PyJson.ofJson body.sortKeys).get? "previous_event_sha256").getD .null).isText
      inspection.lastEvent = true := by
    rw [PyJson.get?_ofJson, Json.get?_sortKeys eventBody_distinct, h.lastEvent]
    cases spool.previousEventSha256 <;>
      simp [eventBody, Json.get?, List.lookup_cons, optionalText, Json.sortKeys, PyJson.ofJson,
        PyJson.isText]
  have hdumps : canonicalJsonBytes fmt (.ofJson body.sortKeys) = .ok body.dumps := by
    refine canonicalJsonBytes_eq_ok.mpr ⟨fmt.dumpsTooDeep_shallow _
      (PyJson.shallow_ofJson (Json.plain_sortKeys eventBody_plain)), _, PyJson.toJson?_ofJson _, ?_⟩
    exact Json.dumps_sortKeys body
  have hempty : event.kind = "data" ∧ 1 ≤ event.payload.length ∨
      event.kind = "eof" ∧ event.payload.length = 0 := by
    rcases haccepted.kind with hkind | hkind
    · exact Or.inl ⟨hkind, List.length_pos_iff.mpr (hdata hkind)⟩
    · exact Or.inr ⟨hkind, List.length_eq_zero_iff.mpr (haccepted.empty hkind)⟩
  rw [inspectEntry, readEntry_document, ok_bind, checkEntry]
  refine bind_eq_ok.mpr ⟨event.direction, ?_, bind_eq_ok.mpr ⟨_, hdumps,
    bind_eq_ok.mpr ⟨(), raiseIf_eq_ok.mpr ?_, bind_eq_ok.mpr ⟨(), raiseIf_eq_ok.mpr ?_,
    bind_eq_ok.mpr ⟨(), raiseIf_eq_ok.mpr ?_, bind_eq_ok.mpr ⟨(), raiseIf_eq_ok.mpr ?_, rfl⟩⟩⟩⟩⟩⟩
  · have hnamed : (PyText.text event.direction.value).text?.bind namedDirection =
        some event.direction := namedDirection_value event.direction
    simp only [checkPosition, hnamed]
    refine bind_eq_ok.mpr ⟨(), raiseIf_eq_ok.mpr ?_, bind_eq_ok.mpr ⟨(), raiseIf_eq_ok.mpr hfresh,
      bind_eq_ok.mpr ⟨(), raiseIf_eq_ok.mpr ?_, bind_eq_ok.mpr ⟨(), raiseIf_eq_ok.mpr ?_,
      bind_eq_ok.mpr ⟨(), raiseIf_eq_ok.mpr ?_, rfl⟩⟩⟩⟩⟩
    · rw [haccepted.sequence, h.events]
      omega
    · rw [haccepted.directionSequence, h.directionSequences]
      exact not_not.mpr rfl
    · rw [haccepted.offset, h.coveredBytes]
      exact fun h => h.elim (fun hne => hne rfl) fun hneg => absurd hneg (by omega)
    · rw [Bool.not_eq_false]
      exact hprevious
  · rw [Bool.not_eq_false]
    exact beq_self_eq_true _
  · rintro ⟨hkind, hlength⟩
    rcases hempty with ⟨-, hpos⟩ | ⟨hkind', -⟩
    · have hshort : (event.payload.length : Int) < 1 := hlength
      clear hlength
      omega
    · exact absurd (hkind'.symm.trans hkind) (by decide)
  · rintro ⟨hkind, hlength⟩
    rcases hempty with ⟨hkind', -⟩ | ⟨-, hzero⟩
    · exact absurd (hkind'.symm.trans hkind) (by decide)
    · exact hlength (congrArg Int.ofNat hzero)
  · rcases hempty with ⟨hkind, -⟩ | ⟨hkind, -⟩
    · exact fun h => h.1 hkind
    · exact fun h => h.2 hkind

theorem Inspected.add {spool : SessionSpool} {inspection : Inspection} {event : CaptureEvent}
    (h : Inspected spool inspection) : Inspected (written fmt spool event)
      (inspection.add event.kind event.direction event.payload.length event.observedSequence
        (eventSha256 fmt spool.descriptor spool.previousEventSha256 event)) where
  events := congrArg (· + 1) h.events
  dataChunks := by
    show (if event.kind = "data" then _ else _) = if event.kind = "data" then _ else _
    rw [h.dataChunks]
    rfl
  eofEvents := by
    show (if event.kind = "data" then _ else _) = if event.kind = "data" then _ else _
    rw [h.eofEvents]
    rfl
  coveredBytes := by
    show (if event.kind = "data" then _ else _) = if event.kind = "data" then _ else _
    rw [h.coveredBytes]
    rfl
  directionSequences := by
    show inspection.directionSequences.set _ _ = spool.nextDirectionSequence.set _ _
    rw [h.directionSequences]
    rfl
  lastEvent := rfl
  integrityOk := h.integrityOk

/-- An inspection of the lines of accepted events counts what the writer counts. -/
theorem inspectLines_appendAll {spool spool' : SessionSpool} {inspection : Inspection}
    {events : List CaptureEvent} (hinspected : Inspected spool inspection)
    (h : appendAll fmt spool events = some spool')
    (hdata : ∀ event ∈ events, event.kind = "data" → event.payload ≠ [])
    (hobserved : (inspection.observedSequences ++
      events.map fun event => (event.observedSequence : Int)).Nodup) :
    ∃ inspection', inspectLines fmt inspection
        ((timelineTexts fmt spool.descriptor spool.previousEventSha256 events).map
          fun line => line ++ [newline]) = .ok inspection' ∧ Inspected spool' inspection' := by
  induction events generalizing spool inspection with
  | nil =>
    cases h
    exact ⟨inspection, rfl, hinspected⟩
  | cons event events ih =>
    obtain ⟨haccepted, hrest⟩ := (appendAll_cons fmt).mp h
    have hfresh : (event.observedSequence : Int) ∉ inspection.observedSequences := by
      intro hmem
      exact (List.nodup_append.mp hobserved).2.2 _ hmem _ List.mem_cons_self rfl
    have hentry := @inspectEntry_document fmt _ _ _ hinspected haccepted
      (hdata event List.mem_cons_self) hfresh
    have hload : fmt.loads
        ((timelineEntry fmt spool.descriptor spool.previousEventSha256 event).dumps ++ [newline]) =
          .value (.ofJson (document fmt spool.descriptor spool.previousEventSha256 event)) :=
      fmt.loads_line _ timelineEntry_readable
    obtain ⟨inspection', hlines, hinspected'⟩ := ih (@Inspected.add fmt _ _ event hinspected) hrest
      (fun e he => hdata e (List.mem_cons_of_mem _ he)) (by
        show ((inspection.observedSequences ++ [(event.observedSequence : Int)]) ++ _).Nodup
        rwa [List.append_assoc, List.singleton_append])
    refine ⟨inspection', ?_, hinspected'⟩
    rw [timelineTexts, List.map_cons, inspectLines, inspectLine, hload, loaded, ok_bind, hentry]
    exact hlines

theorem inspectTimeline_spool {descriptor : SessionDescriptor} {spool : SessionSpool}
    {events : List CaptureEvent} (hrun : appendAll fmt { descriptor } events = some spool)
    (hevents : Recorded fmt events) :
    ∃ inspection, inspectTimeline fmt spool.timeline = .ok inspection ∧
      Inspected spool inspection := by
  have hlines : rawLines spool.timeline =
      (timelineTexts fmt descriptor none events).map fun line => line ++ [newline] := by
    rw [timeline_eq hrun, rawLines_joinLines printable_timelineTexts]
  have hfresh : Inspected { descriptor } {} := ⟨rfl, rfl, rfl, rfl, rfl, rfl, rfl⟩
  have hobserved : (events.map fun event => (event.observedSequence : Int)).Nodup := by
    have hmap : ((events.map CaptureEvent.observedSequence).map Int.ofNat).Nodup :=
      hevents.observed.map fun a b h => Int.ofNat.inj h
    rwa [List.map_map] at hmap
  rw [inspectTimeline, hlines]
  exact inspectLines_appendAll hfresh hrun (fun e he => (hevents.recordable e he).payload) hobserved

/-- Lines that raise nothing else are inspected without an exception. -/
theorem linesCaught_of_forall {lines : List Bytes}
    (h : ∀ line ∈ lines, ∀ state, LineCaught fmt state line)
    (state : Inspection) : LinesCaught fmt state lines := by
  induction lines generalizing state with
  | nil => trivial
  | cons line lines ih =>
    exact ⟨h line List.mem_cons_self state,
      fun state' _ => ih (fun l hl => h l (List.mem_cons_of_mem _ hl)) state'⟩

/-- A whole line is an entry. -/
theorem lineCaught_of_entry {line : Bytes} (h : IsEntry fmt line) (state : Inspection) :
    LineCaught fmt state (line ++ [newline]) := by
  obtain ⟨descriptor, previous, event, hline⟩ := h
  have hload : fmt.loads ((timelineEntry fmt descriptor previous event).dumps ++ [newline]) =
      .value (.ofJson (document fmt descriptor previous event)) :=
    fmt.loads_line _ timelineEntry_readable
  rw [hline]
  exact (lineCaught_value hload).mpr entryCaught_document

/-- A torn line is no document, unless only its line feed is missing. -/
theorem lineCaught_of_torn {line : Bytes} (h : IsLine fmt line) (state : Inspection) :
    LineCaught fmt state line := by
  obtain ⟨entry, ⟨descriptor, previous, event, hentry⟩, hprefix⟩ := h
  rw [hentry] at hprefix
  by_cases hwhole : line = (timelineEntry fmt descriptor previous event).dumps
  · have hload : fmt.loads line = .value (.ofJson (document fmt descriptor previous event)) := by
      rw [hwhole]
      exact fmt.loads_dumps _ timelineEntry_readable
    exact (lineCaught_value hload).mpr entryCaught_document
  · rw [LineCaught, fmt.loads_prefix _ _ timelineEntry_readable hprefix hwhole]
    trivial

theorem rawLines_torn {torn : Bytes} (hne : torn ≠ []) (h : ∀ byte ∈ torn, 32 ≤ byte) :
    rawLines torn = [torn] := by
  induction torn with
  | nil => exact absurd rfl hne
  | cons byte rest ih =>
    have hbyte : byte ≠ newline := by
      intro heq
      have hge := h byte List.mem_cons_self
      rw [heq] at hge
      exact absurd hge (by decide)
    rw [rawLines, if_neg hbyte]
    cases rest with
    | nil => rfl
    | cons b rest =>
      rw [ih (List.cons_ne_nil b rest) fun c hc => h c (List.mem_cons_of_mem _ hc)]

theorem rawLines_joinLines_append {lines : List Bytes} {rest : Bytes}
    (hlines : ∀ line ∈ lines, IsEntry fmt line) :
    rawLines (joinLines lines ++ rest) =
      (lines.map fun line => line ++ [newline]) ++ rawLines rest := by
  induction lines with
  | nil => rfl
  | cons line lines ih =>
    rw [joinLines_cons, List.append_assoc, rawLines_line (hlines line List.mem_cons_self).text,
      ih fun l hl => hlines l (List.mem_cons_of_mem _ hl), List.map_cons, List.cons_append]

/-- A torn line ends the inspection. -/
theorem inspectTimeline_torn {directory : SpoolDirectory} (h : Torn fmt directory) :
    ∃ inspection, inspectTimeline fmt (directory.timeline.getD []) = .ok inspection := by
  obtain ⟨lines, torn, htimeline, hlines, hne, htorn⟩ := h
  refine returns_inspectLines.mpr (linesCaught_of_forall ?_ {})
  rw [htimeline, rawLines_joinLines_append hlines, rawLines_torn hne htorn.text]
  intro line hline
  rcases List.mem_append.mp hline with hline | hline
  · obtain ⟨text, htext, rfl⟩ := List.mem_map.mp hline
    exact lineCaught_of_entry (hlines text htext)
  · rw [List.mem_singleton.mp hline]
    exact lineCaught_of_torn htorn

/-! ## The recovered job -/

/-- The manifest recovery derives for a session. -/
def sessionManifest (fmt : Codec) (clock : Clock) (descriptor : SessionDescriptor)
    (directory : SpoolDirectory) (inspection : Inspection) : Json :=
  .obj (("session", (descriptorDocument descriptor).sortKeys) ::
    ("files", filesDocument fmt (presentRaw directory) (directory.timeline.getD [])
      (sessionBytes descriptor)) :: recoveredFields clock (presentRaw directory) inspection)

def recoveredJob (fmt : Codec) (clock : Clock) (descriptor : SessionDescriptor)
    (directory : SpoolDirectory) (inspection : Inspection) : JobDirectory :=
  let manifest := (sessionManifest fmt clock descriptor directory inspection).dumps ++ [newline]
  { deviceId := directory.deviceId
    name := directory.name
    raw := presentRaw directory
    timeline := directory.timeline.getD []
    session := sessionBytes descriptor
    manifest
    ready := readyBytes fmt descriptor.jobId manifest }

variable {descriptor : SessionDescriptor} {directory : SpoolDirectory} {inspection : Inspection}
  {clock : Clock} {taken : Bool}

/-- The descriptor that was written is read back. -/
theorem loadSession_unfinished (h : Unfinished descriptor directory) :
    loadSession fmt directory = .ok (.ofJson (descriptorDocument descriptor).sortKeys) := by
  have hload : fmt.loadsText (sessionBytes descriptor) =
      .value (.ofJson (sessionDocument (descriptorDocument descriptor)).sortKeys) :=
    fmt.loadsText_line _ (sessionDocument_readable descriptor)
  have hsession : subscript (.ofJson (sessionDocument (descriptorDocument descriptor)).sortKeys)
      "session" = .ok (.ofJson (descriptorDocument descriptor).sortKeys) := by
    rw [subscript_ofJson (sessionDocument (descriptorDocument descriptor)).sortKeys ⟨_, rfl⟩,
      Json.get?_sortKeys (sessionDocument_distinct descriptor)]
    rfl
  simp only [loadSession, h.session, hload, loaded, ok_bind, hsession]
  rfl

theorem recoverSession_unfinished (h : Unfinished descriptor directory) :
    recoverSession fmt clock directory =
      .ok (.ofJson (descriptorDocument descriptor).sortKeys, .text descriptor.jobId) := by
  refine recoverSession_eq_ok.mpr ⟨?_, strAt_eq_ok.mpr ⟨.str (.text descriptor.jobId), ?_, rfl⟩⟩
  · rw [readRecoverySession, loadSession_unfinished h]
  · rw [PyJson.get?_ofJson, Json.get?_sortKeys (descriptorDocument_distinct descriptor)]
    rfl

theorem sessionManifest_plain :
    (sessionManifest fmt clock descriptor directory inspection).plain 8 = true := by
  have hsession : (descriptorDocument descriptor).sortKeys.plain 7 = true :=
    Json.plain_sortKeys rfl
  simp [sessionManifest, recoveredFields, countDocument, filesDocument, fileFacts, Json.plain,
    plain_optionalText, List.all_map, hsession]

theorem recoveredManifest_unfinished : recoveredManifest clock
    (.ofJson (descriptorDocument descriptor).sortKeys) (presentRaw directory) inspection
    (recoveredFiles fmt (presentRaw directory) (directory.timeline.getD [])
      (sessionBytes descriptor) []) =
      .ofJson (sessionManifest fmt clock descriptor directory inspection) := by
  have hfiles : recoveredFiles fmt (presentRaw directory) (directory.timeline.getD [])
      (sessionBytes descriptor) [] = .ofJson (filesDocument fmt (presentRaw directory)
        (directory.timeline.getD []) (sessionBytes descriptor)) := by
    rw [recoveredFiles, filesDocument, PyJson.ofJson]
    dsimp only
    rw [List.map_nil, List.append_nil]
  rw [hfiles, sessionManifest, PyJson.ofJson, PyJson.ofFields, PyJson.ofFields, recoveredManifest]

/-- The manifest that is derived is the session's. -/
theorem deriveManifest_unfinished (h : Unfinished descriptor directory)
    (hinspect : inspectTimeline fmt (directory.timeline.getD []) = .ok inspection) :
    deriveManifest fmt clock directory (.ofJson (descriptorDocument descriptor).sortKeys) =
      .ok (recoveredJob fmt clock descriptor directory inspection).manifest := by
  refine deriveManifest_eq_ok.mpr ⟨inspection, _, hinspect, ?_, rfl⟩
  rw [h.session, h.untrusted, Option.getD_some, recoveredManifest_unfinished]
  exact canonicalJsonBytes_eq_ok.mpr ⟨fmt.dumpsTooDeep_shallow _
    (PyJson.shallow_ofJson sessionManifest_plain), _, PyJson.toJson?_ofJson _, rfl⟩

/-- A directory without a manifest is published with the one derived. -/
theorem recoverDirectory_unfinished (h : Unfinished descriptor directory)
    (hinspect : inspectTimeline fmt (directory.timeline.getD []) = .ok inspection)
    (hname : invalidName directory.name = false)
    (hfree : (directory.isPartial && taken) = false) :
    recoverDirectory fmt clock taken directory =
      .ok (some (recoveredJob fmt clock descriptor directory inspection)) := by
  have hpublish : publish fmt taken directory
      (recoveredJob fmt clock descriptor directory inspection).manifest (.text descriptor.jobId) =
        .ok (recoveredJob fmt clock descriptor directory inspection) := by
    rw [publish, finishError, hname, Bool.and_false, if_neg Bool.false_ne_true, hfree,
      if_neg Bool.false_ne_true]
    dsimp only
    rw [publishReady, h.session]
    rfl
  have hrecover : recoverFiles fmt clock taken directory =
      .ok (recoveredJob fmt clock descriptor directory inspection) :=
    recoverFiles_eq_ok.mpr ⟨_, _, _, recoverSession_unfinished h,
      deriveManifest_unfinished h hinspect, hpublish⟩
  simp only [recoverDirectory, h.ready, h.manifest, hrecover]
  rfl

/-! ## What the derived manifest says -/

/-- The bytes of the raw files that are there. -/
def presentBytes (directory : SpoolDirectory) : ByDirection Nat :=
  ⟨(presentRaw directory).clientToDevice.length, (presentRaw directory).deviceToClient.length⟩

theorem get_presentBytes (directory : SpoolDirectory) (direction : Direction) :
    (presentBytes directory).get direction = ((presentRaw directory).get direction).length := by
  cases direction <;> rfl

def coversRaw (directory : SpoolDirectory) (inspection : Inspection) : Bool :=
  inspection.integrityOk && inspection.coveredBytes == presentBytes directory

/-- The derived manifest as the adapter reads it. -/
def recoveredFacts (directory : SpoolDirectory) (inspection : Inspection) : CaptureFacts where
  status := "PARTIAL"
  transportComplete := false
  storageComplete := coversRaw directory inspection
  errors := recoveryErrors (coversRaw directory inspection)
  droppedChunks := 0
  droppedBytes := 0
  observedBytes := presentBytes directory
  observedChunks := inspection.dataChunks
  capturedBytes := presentBytes directory
  capturedChunks := inspection.dataChunks
  closeReason := "recovered_after_unclean_shutdown"

def recoveredTotals (directory : SpoolDirectory) (inspection : Inspection) : Totals where
  timelineEvents := inspection.events
  lastEvent := inspection.lastEvent
  capturedBytes := presentBytes directory
  capturedChunks := inspection.dataChunks
  eofEvents := inspection.eofEvents

theorem sessionManifest_distinct :
    (sessionManifest fmt clock descriptor directory inspection).Distinct := by
  refine ⟨by simp [recoveredFields], ?_⟩
  simp [recoveredFields, Json.DistinctFields, Json.Distinct, countDocument_distinct,
    filesDocument_distinct, distinct_optionalText, Json.distinctValues_iff]
  exact (descriptorDocument_distinct descriptor).sortKeys

theorem field_sessionManifest (key : String) :
    field (sessionManifest fmt clock descriptor directory inspection).sortKeys key =
      (field (sessionManifest fmt clock descriptor directory inspection) key).sortKeys :=
  field_sortKeys sessionManifest_distinct key

theorem recovered_files :
    field (sessionManifest fmt clock descriptor directory inspection).sortKeys "files" =
      (filesDocument fmt (presentRaw directory) (directory.timeline.getD [])
        (sessionBytes descriptor)).sortKeys := by
  rw [field_sessionManifest]
  simp [sessionManifest, recoveredFields, field, Json.get?, List.lookup_cons]

theorem recovered_file {name : String} {content : Bytes}
    (h : field (filesDocument fmt (presentRaw directory) (directory.timeline.getD [])
      (sessionBytes descriptor)) name = fileFacts fmt name content) :
    FileDescribed fmt (sessionManifest fmt clock descriptor directory inspection).sortKeys name
      content := by
  rw [FileDescribed, recovered_files, field_sortKeys (filesDocument_distinct _ _ _), h]

theorem recovered_describes : Describes fmt (recoveredJob fmt clock descriptor directory inspection)
    (sessionManifest fmt clock descriptor directory inspection).sortKeys descriptor clock.closed 0
    (recoveredFacts directory inspection) := by
  constructor
  case clientRaw => exact recovered_file (by simp [filesDocument, field, Json.get?]; rfl)
  case deviceRaw => exact recovered_file (by simp [filesDocument, field, Json.get?, List.lookup_cons]; rfl)
  case timelineFile =>
    exact recovered_file (by simp [filesDocument, field, Json.get?, List.lookup_cons]; rfl)
  case sessionFile =>
    exact recovered_file (by simp [filesDocument, field, Json.get?, List.lookup_cons]; rfl)
  case files => exact ⟨_, recovered_files⟩
  case errors =>
    rw [field_sessionManifest]
    simp [sessionManifest, recoveredFields, field, Json.get?, List.lookup_cons, sortKeys_strings,
      recoveredFacts]
    rfl
  all_goals
    rw [field_sessionManifest]
    simp [sessionManifest, recoveredFields, field, Json.get?, List.lookup_cons, Json.sortKeys,
      Json.sortKeys_idem, recoveredFacts, captureFormat, coversRaw, presentBytes]

theorem recovered_counts :
    Counts (sessionManifest fmt clock descriptor directory inspection).sortKeys
      (recoveredTotals directory inspection) := by
  constructor
  case lastEvent =>
    rw [field_sessionManifest]
    simp [sessionManifest, recoveredFields, field, Json.get?, List.lookup_cons, sortKeys_optionalText,
      recoveredTotals]
  all_goals
    rw [field_sessionManifest]
    simp [sessionManifest, recoveredFields, field, Json.get?, List.lookup_cons, Json.sortKeys,
      recoveredTotals, presentBytes]

theorem field_coveredBytes :
    field (sessionManifest fmt clock descriptor directory inspection).sortKeys
      "timeline_covered_bytes" = (countDocument inspection.coveredBytes).sortKeys := by
  rw [field_sessionManifest]
  simp [sessionManifest, recoveredFields, field, Json.get?, List.lookup_cons]

theorem recoveryErrors_fit (covers : Bool) :
    (recoveryErrors covers).length ≤ 1000 ∧
      ∀ error ∈ recoveryErrors covers, error ≠ "" ∧ error.length ≤ 4096 := by
  cases covers <;> decide

/-! ## The recovered job is read -/

variable {adapter : Adapter} {client listener target : Endpoint} {spool : SessionSpool}
  {events : List CaptureEvent}

theorem recovered_published
    (hregistered : Registered fmt adapter descriptor client listener target)
    (hdirectory : Unfinished descriptor directory) (hclosed : IsTimestamp fmt clock.closed)
    (hclock : instant fmt descriptor.connectedAtUtc ≤ instant fmt clock.closed)
    (hbytes : CountsFit (presentBytes directory)) (hchunks : CountsFit inspection.dataChunks)
    (hlimits : WithinLimits adapter (recoveredJob fmt clock descriptor directory inspection)) :
    Published fmt adapter (recoveredJob fmt clock descriptor directory inspection)
      (sessionManifest fmt clock descriptor directory inspection) descriptor client listener target
      clock.closed 0 (recoveredFacts directory inspection) where
  registered := hregistered
  device := hdirectory.deviceId
  ready := rfl
  session := rfl
  manifestBytes := rfl
  readable := ⟨sessionManifest_distinct, sessionManifest_plain⟩
  object := ⟨_, rfl⟩
  describes := recovered_describes
  closedAt := hclosed
  monotonic := by decide
  clock := hclock
  limits := hlimits
  fit := {
    status := Or.inr rfl
    error := (recoveryErrors_fit _).2
    droppedChunks := Nat.zero_le _
    droppedBytes := Nat.zero_le _
    observedBytes := hbytes
    observedChunks := hchunks
    capturedBytes := hbytes
    capturedChunks := hchunks
    closeReason := by
      show "recovered_after_unclean_shutdown" ≠ "" ∧
        "recovered_after_unclean_shutdown".length ≤ 128
      decide }

/-- The bytes the timeline covers are all that are there, or recovery says how
many they are. -/
theorem recovered_covers (hrun : appendAll fmt { descriptor } events = some spool)
    (hdirectory : Interrupted spool directory) (hinspected : Inspected spool inspection)
    (hfit : CountsFit spool.capturedBytes) :
    Covers (sessionManifest fmt clock descriptor directory inspection).sortKeys
      (recoveredFacts directory inspection).allowTrailingRaw spool.capturedBytes
      (presentBytes directory) := by
  have hs := appendAll_consistent fmt (consistent_fresh descriptor) hrun
  by_cases hsame : spool.capturedBytes = presentBytes directory
  · exact Or.inl hsame
  · refine Or.inr ⟨?_, ?_, fun direction => ?_⟩
    · have hcovers : coversRaw directory inspection = false := by
        rw [coversRaw, hinspected.coveredBytes, beq_eq_false_iff_ne.mpr hsame, Bool.and_false]
      simp [CaptureFacts.allowTrailingRaw, recoveredFacts, hcovers]
    · rw [field_coveredBytes, hinspected.coveredBytes]
      exact stringIntMap_countDocument hfit
    · rw [get_presentBytes, ← hs.capturedBytes]
      exact (hdirectory.raw direction).length_le

/-- An interrupted session is read with one chunk for each event whose line is
there. -/
theorem load_interrupted
    (hregistered : Registered fmt adapter descriptor client listener target)
    (hevents : Recorded fmt events) (hrun : appendAll fmt { descriptor } events = some spool)
    (hdirectory : Interrupted spool directory) (hinspected : Inspected spool inspection)
    (hclosed : IsTimestamp fmt clock.closed)
    (hclock : instant fmt descriptor.connectedAtUtc ≤ instant fmt clock.closed)
    (hlimits : WithinLimits adapter (recoveredJob fmt clock descriptor directory inspection)) :
    load fmt adapter (recoveredJob fmt clock descriptor directory inspection) =
      .ok (envelopeOf fmt adapter (recoveredJob fmt clock descriptor directory inspection)
        (sessionManifest fmt clock descriptor directory inspection) descriptor client listener
        target clock.closed (recoveredFacts directory inspection) (events.map (chunkOf fmt))) := by
  obtain rfl : spool.descriptor = descriptor := appendAll_descriptor fmt hrun
  have hs := appendAll_consistent fmt (consistent_fresh spool.descriptor) hrun
  have hraw : ∀ direction, (spool.raw.get direction).length ≤ maxInt := fun direction =>
    (hdirectory.raw direction).length_le.trans (hlimits.rawInt direction)
  have hfit := spoolFit hrun hevents.count hraw
  have hbytes : CountsFit (presentBytes directory) := fun direction => by
    rw [get_presentBytes]
    exact hlimits.rawInt direction
  have hchunks : CountsFit inspection.dataChunks := hinspected.dataChunks ▸ hfit.capturedChunks
  have heof : CountsFit inspection.eofEvents := hinspected.eofEvents ▸ hfit.eofEvents
  have hlength := nextSequence_eq hrun
  obtain ⟨state, hstate, htimeline⟩ := @parseTimeline_spool fmt _ events spool hrun hevents
    hregistered.shortNames (presentRaw directory)
    (sessionManifest fmt clock spool.descriptor directory inspection).sortKeys
    (recoveredFacts directory inspection).allowTrailingRaw hdirectory.raw hlimits.rawInt
  have htotals : checkTotals (presentRaw directory)
      (sessionManifest fmt clock spool.descriptor directory inspection).sortKeys
      (recoveredFacts directory inspection).allowTrailingRaw state = .ok () := by
    refine (checkTotals_eq_ok recovered_counts ⟨hbytes, hchunks, heof⟩).mpr
      ⟨?_, ?_, ?_, fun direction => (get_presentBytes directory direction).symm, ?_, ?_, ?_,
        fun hstatus => ?_⟩
    · show inspection.events ≤ maxTimelineEvents
      rw [hinspected.events, hlength]
      exact hevents.count
    · show state.events.length = inspection.events
      rw [hinspected.events, hstate.agrees.events]
    · exact hstate.agrees.previousHash.trans hinspected.lastEvent.symm
    · rw [hstate.agrees.offsets]
      exact recovered_covers hrun hdirectory hinspected hfit.capturedBytes
    · exact hstate.agrees.dataCounts.trans hinspected.dataChunks.symm
    · exact hstate.agrees.eofCounts.trans hinspected.eofEvents.symm
    · rw [(@recovered_describes fmt _ directory inspection clock).status] at hstatus
      exact absurd (Json.str.inj hstatus) (by decide : "PARTIAL" ≠ "COMPLETE")
  have hpublished := recovered_published hregistered hdirectory.toUnfinished hclosed hclock hbytes
    hchunks hlimits
  refine (load_eq_ok hpublished).mpr ⟨(recoveryErrors_fit _).1, events.map (chunkOf fmt), ?_,
    fun h => ?_, rfl⟩
  · show parseTimeline fmt (directory.timeline.getD []) _ _ _ _ = _
    rw [hdirectory.timeline]
    exact (htimeline _).mpr ⟨htotals, rfl⟩
  · cases h.1

/-! ## The size of the derived manifest -/

theorem length_recoveredManifest_le (hclosed : IsTimestamp fmt clock.closed)
    (hbytes : CountsFit (presentBytes directory)) (hchunks : CountsFit inspection.dataChunks)
    (hcovered : CountsFit inspection.coveredBytes) (heof : CountsFit inspection.eofEvents)
    (hevents : inspection.events ≤ maxInt) (hlast : ShortHash inspection.lastEvent)
    (htimeline : (directory.timeline.getD []).length ≤ maxInt)
    (hsession : (sessionBytes descriptor).length ≤ maxInt) :
    (recoveredJob fmt clock descriptor directory inspection).manifest.length ≤
      12000 + (descriptorDocument descriptor).weight := by
  have hraw : ∀ direction, ((presentRaw directory).get direction).length ≤ maxInt :=
    fun direction => get_presentBytes directory direction ▸ hbytes direction
  have hfiles := weight_filesDocument_le fmt hraw htimeline hsession
  have h1 := weight_countDocument_le hbytes
  have h2 := weight_countDocument_le hchunks
  have h3 := weight_countDocument_le hcovered
  have h4 := weight_countDocument_le heof
  have h5 := weight_nat_le hevents
  have h6 := weight_optionalText_le hlast
  have h7 := hclosed.length
  have hkeys : Json.weightKeys ["session", "files", "schema_version", "capture_format",
      "closed_at_utc", "closed_monotonic_ns", "close_reason", "status", "transport_complete",
      "storage_complete", "observed_bytes", "observed_chunks", "captured_bytes", "captured_chunks",
      "timeline_covered_bytes", "eof_events", "timeline_events", "last_event_sha256",
      "dropped_chunks", "dropped_bytes", "errors"] ≤ 2200 := by decide
  have herrors : (Json.arr ((recoveryErrors (coversRaw directory inspection)).map .str)).weight ≤
      1000 := by
    cases coversRaw directory inspection <;> decide
  have hformat : "retailprintguard-bidirectional-v1".length = 33 := by decide
  have hreason : "recovered_after_unclean_shutdown".length = 32 := by decide
  have hstatus : "PARTIAL".length = 7 := by decide
  have hone : (Json.num 1).weight = 1 := by decide
  have hzero : (Json.num 0).weight = 1 := by decide
  show ((sessionManifest fmt clock descriptor directory inspection).dumps ++ [newline]).length ≤ _
  rw [List.length_append, List.length_singleton]
  refine (Nat.add_le_add_right (Json.length_dumps_le
    (sessionManifest fmt clock descriptor directory inspection)) 1).trans ?_
  have hsame : (inspection.integrityOk && inspection.coveredBytes == presentBytes directory) =
      coversRaw directory inspection := rfl
  have hpresent : (⟨(presentRaw directory).clientToDevice.length,
      (presentRaw directory).deviceToClient.length⟩ : ByDirection Nat) = presentBytes directory := rfl
  simp only [sessionManifest, recoveredFields, hpresent, hsame, Json.weight_obj, List.map_cons,
    List.map_nil, List.sum_cons, List.sum_nil, Json.weight_str, Json.weight_bool, Json.weight_sortKeys,
    hformat, hreason, hstatus, hone, hzero]
  generalize Json.weightKeys _ = keys at hkeys ⊢
  generalize (filesDocument fmt (presentRaw directory) _ _).weight = files at hfiles ⊢
  generalize (Json.arr _).weight = errors at herrors ⊢
  generalize (countDocument (presentBytes directory)).weight = c1 at h1 ⊢
  generalize (countDocument inspection.dataChunks).weight = c2 at h2 ⊢
  generalize (countDocument inspection.coveredBytes).weight = c3 at h3 ⊢
  generalize (countDocument inspection.eofEvents).weight = c4 at h4 ⊢
  generalize (Json.num inspection.events).weight = n5 at h5 ⊢
  generalize (optionalText inspection.lastEvent).weight = n6 at h6 ⊢
  generalize (descriptorDocument descriptor).weight = session
  clear hone hzero hformat hreason hstatus
  omega

end

end RetailPrintGuard.Ingestion.Recovered
