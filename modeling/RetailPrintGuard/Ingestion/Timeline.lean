import RetailPrintGuard.Ingestion.Canonical
import RetailPrintGuard.Proxy.SpoolRuns
import RetailPrintGuard.Proxy.Documents
import RetailPrintGuard.Library.JsonSize

/-! # The adapter reads the writer's timeline

One line of the writer takes the parser from the counters before its event to
the counters after it. -/
namespace RetailPrintGuard.Ingestion.Timeline
open RetailPrintGuard.Library RetailPrintGuard.Library.Checks RetailPrintGuard.Common.Formats
open RetailPrintGuard.Ingestion.Adapters RetailPrintGuard.Ingestion.Canonical
open RetailPrintGuard.Proxy.Spool RetailPrintGuard.Proxy.SpoolRuns
open RetailPrintGuard.Proxy.Documents

/-! ## Lines -/

theorem splitlines_line {line : Bytes} (hline : ∀ byte ∈ line, 32 ≤ byte) (rest : Bytes) :
    splitlines (line ++ [newline] ++ rest) = line :: splitlines rest := by
  induction line with
  | nil => rfl
  | cons byte line ih =>
    have hbyte : 32 ≤ byte := hline byte List.mem_cons_self
    have h10 : byte ≠ 10 := fun h => by rw [h] at hbyte; exact absurd hbyte (by decide)
    have h13 : byte ≠ 13 := fun h => by rw [h] at hbyte; exact absurd hbyte (by decide)
    have htail := ih fun byte hmem => hline byte (List.mem_cons_of_mem _ hmem)
    rw [List.cons_append, List.cons_append, splitlines, if_neg (by simp [h10, h13]), htail]
    rintro rest' rfl
    exact absurd rfl h13

theorem splitlines_joinLines {lines : List Bytes}
    (hlines : ∀ line ∈ lines, ∀ byte ∈ line, 32 ≤ byte) : splitlines (joinLines lines) = lines := by
  induction lines with
  | nil => rfl
  | cons line lines ih =>
    rw [joinLines_cons, splitlines_line (hlines line List.mem_cons_self),
      ih fun line hmem => hlines line (List.mem_cons_of_mem _ hmem)]

/-- Whole lines end with a line feed. -/
theorem getLast?_joinLines {lines : List Bytes} (h : joinLines lines ≠ []) :
    (joinLines lines).getLast? = some newline := by
  induction lines with
  | nil => exact absurd rfl h
  | cons line lines ih =>
    rw [joinLines_cons]
    by_cases hrest : joinLines lines = []
    · rw [hrest, List.append_nil, List.getLast?_concat]
    · rw [List.getLast?_append_of_ne_nil _ hrest, ih hrest]

theorem printable_timelineTexts {fmt : Codec} {descriptor : SessionDescriptor}
    {previous : Option String} {events : List CaptureEvent} :
    ∀ line ∈ timelineTexts fmt descriptor previous events, ∀ byte ∈ line, 32 ≤ byte := by
  induction events generalizing previous with
  | nil => simp [timelineTexts]
  | cons event events ih =>
    intro line hline
    rw [timelineTexts, List.mem_cons] at hline
    rcases hline with hline | hline
    · rw [hline]
      exact Json.dumps_ge (timelineEntry fmt descriptor previous event)
    · exact ih line hline

/-! ## Events within the limits of the format -/

structure IsTimestamp (fmt : Codec) (text : String) : Prop where
  nonempty : text ≠ ""
  length : text.length ≤ 64
  parsed : ∃ micros, fmt.fromisoformat text = some ⟨micros, true⟩

/-- The instant of a text. -/
def instant (fmt : Codec) (text : String) : Int :=
  ((fmt.fromisoformat text).map ParsedTime.micros).getD 0

structure Recordable (fmt : Codec) (event : CaptureEvent) : Prop where
  payload : event.kind = "data" → event.payload ≠ []
  observedSequence : event.observedSequence ≤ maxInt
  capturedAt : IsTimestamp fmt event.capturedAtUtc
  forwardedAt : IsTimestamp fmt event.forwardedAtUtc
  monotonic : 0 ≤ event.capturedMonotonicNs ∧ event.capturedMonotonicNs ≤ maxInt
  forwardError : ∀ text, event.forwardError = some text → text ≠ "" ∧ text.length ≤ 4096

/-- The chunk of an event. -/
def chunkOf (fmt : Codec) (event : CaptureEvent) : StreamChunk where
  sequence := event.sequence
  direction := event.direction
  receivedAt := instant fmt event.capturedAtUtc
  monotonicNs := event.capturedMonotonicNs.toNat
  jobOffset := event.offset
  sessionOffset := event.offset
  byteCount := event.payload.length
  sha256 := fmt.sha256 event.payload
  localWriteDrainCompleted := event.forwarded
  forwardStatus := if event.forwarded then "FORWARDED" else "FAILED"
  error := event.forwardError
  observedSequence := event.observedSequence
  directionSequence := event.directionSequence
  eventKind := event.kind
  forwardedAt := instant fmt event.forwardedAtUtc

theorem IsTimestamp.parseDatetime {fmt : Codec} {text : String} (h : IsTimestamp fmt text)
    (label : String) : parseDatetime fmt (.str text) label = .ok (instant fmt text) := by
  obtain ⟨micros, hparsed⟩ := h.parsed
  have hinstant : instant fmt text = micros := by rw [instant, hparsed]; rfl
  rw [hinstant]
  exact parseDatetime_eq_ok.mpr ⟨text, rfl, h.nonempty, h.length, hparsed⟩

theorem requireOptionalString_optionalText {text : Option String} {label : String} {maximum : Nat}
    (h : ∀ s, text = some s → s ≠ "" ∧ s.length ≤ maximum) :
    requireOptionalString (optionalText text) label maximum = .ok text := by
  cases text with
  | none => rfl
  | some s => exact requireOptionalString_eq_ok.mpr (Or.inr ⟨s, rfl, rfl, h s rfl⟩)

/-! ## The document of a line -/

section
variable {fmt : Codec} {descriptor : SessionDescriptor} {previous : Option String}
  {event : CaptureEvent}

theorem field_sortKeys {value : Json} (h : value.Distinct) (key : String) :
    field value.sortKeys key = (field value key).sortKeys := by
  rw [field, field, Json.get?_sortKeys h]
  cases value.get? key with
  | none => rfl
  | some v => rfl

/-- What the parser sees of the line of an event. -/
def document (fmt : Codec) (descriptor : SessionDescriptor) (previous : Option String)
    (event : CaptureEvent) : Json := (timelineEntry fmt descriptor previous event).sortKeys

theorem field_document (key : String) : field (document fmt descriptor previous event) key =
    (field (timelineEntry fmt descriptor previous event) key).sortKeys :=
  field_sortKeys timelineEntry_distinct key

theorem parseJsonBytes_eq_ok {data : Bytes} {label : String} {value : Json} :
    parseJsonBytes fmt data label = .ok value ↔ fmt.parseJson data = some value := by
  unfold parseJsonBytes
  split <;> simp [*]

theorem erase_document :
    ((document fmt descriptor previous event).erase "event_sha256").dumps =
      (eventBody fmt descriptor previous event).dumps := by
  rw [document, Json.erase_sortKeys timelineEntry_distinct, Json.dumps_sortKeys]
  rfl

theorem readEvent_line (lineNumber : Nat)
    (hsize : (timelineEntry fmt descriptor previous event).dumps.length ≤ maxTimelineLineBytes) :
    readEvent fmt previous lineNumber (timelineEntry fmt descriptor previous event).dumps =
      .ok (document fmt descriptor previous event, eventSha256 fmt descriptor previous event) := by
  simp only [readEvent, bind_eq_ok, pure_eq_ok, raiseIf_eq_ok, parseJsonBytes_eq_ok,
    mapping_eq_ok, requireSha256_eq_ok]
  refine ⟨(), ?_, document fmt descriptor previous event,
    fmt.parseJson_dumps _ timelineEntry_readable, _, ⟨rfl, _, rfl⟩, _, ⟨?_, fmt.sha256_hex _⟩,
    (), ?_, (), ?_, rfl⟩
  · exact fun h => h.elim (Json.dumps_ne_nil _) (Nat.not_lt.mpr hsize)
  · rw [field_document]
    simp [timelineEntry, eventBody, eventSha256, field, Json.get?, List.lookup_cons, Json.sortKeys]
  · rw [erase_document]
    exact not_not.mpr rfl
  · rw [field_document]
    cases previous <;>
      simp [timelineEntry, eventBody, field, Json.get?, List.lookup_cons, Json.sortKeys, optionalText]

def identityOf (descriptor : SessionDescriptor) : Identity :=
  ⟨descriptor.sessionId, descriptor.jobId, descriptor.deviceId⟩

theorem checkIdentity_document :
    checkIdentity (identityOf descriptor)
      (document fmt descriptor previous event) = .ok () := by
  simp only [checkIdentity, bind_eq_ok, raiseIf_eq_ok, requireInt_eq_ok, field_document]
  refine ⟨1, ⟨?_, by decide, by decide⟩, (), by simp, ?_⟩ <;>
    simp [timelineEntry, eventBody, field, Json.get?, List.lookup_cons, Json.sortKeys, identityOf]

theorem directionNamed_value (direction : Direction) :
    directionNamed direction.value = some direction := by
  cases direction <;> rfl

theorem requireString_direction (direction : Direction) :
    requireString (.str direction.value) "timeline.direction" 32 = .ok direction.value := by
  cases direction <;> rfl

theorem readPosition_document {state : TimelineState}
    (hsequence : event.sequence = state.events.length) (hmax : event.sequence ≤ maxInt)
    (hobserved : event.observedSequence ≤ maxInt)
    (hfresh : event.observedSequence ∉ state.observedSequences)
    (hdirection : event.directionSequence = state.directionSequences.get event.direction)
    (hdirectionMax : event.directionSequence ≤ maxInt) :
    readPosition state (document fmt descriptor previous event) =
      .ok ⟨event.sequence, event.observedSequence, event.direction, event.directionSequence⟩ := by
  have hname : field (document fmt descriptor previous event) "direction" =
      .str event.direction.value := by
    rw [field_document]
    simp [timelineEntry, eventBody, field, Json.get?, List.lookup_cons, Json.sortKeys]
  simp only [readPosition, bind_eq_ok, raiseIf_eq_ok, requireInt_eq_ok, hname, field_document]
  refine ⟨event.sequence, ⟨?_, Nat.zero_le _, hmax⟩, (), not_not.mpr hsequence,
    event.observedSequence, ⟨?_, Nat.zero_le _, hobserved⟩, (), hfresh, event.direction.value,
    requireString_direction _, ?_⟩
  · simp [timelineEntry, eventBody, field, Json.get?, List.lookup_cons, Json.sortKeys]
  · simp [timelineEntry, eventBody, field, Json.get?, List.lookup_cons, Json.sortKeys]
  · rw [directionNamed_value]
    simp only [bind_eq_ok, raiseIf_eq_ok, requireInt_eq_ok, pure_eq_ok]
    refine ⟨event.directionSequence, ⟨?_, Nat.zero_le _, hdirectionMax⟩, (),
      not_not.mpr hdirection, rfl⟩
    simp [timelineEntry, eventBody, field, Json.get?, List.lookup_cons, Json.sortKeys]

theorem readExtent_document {stream rest : Bytes} {offset : Nat} (lineNumber : Nat)
    (hkind : event.kind = "data" ∨ event.kind = "eof")
    (hdata : event.kind = "data" → event.payload ≠ [])
    (heof : event.kind = "eof" → event.payload = [])
    (hoffset : event.offset = offset)
    (hstream : stream.drop event.offset = event.payload ++ rest)
    (hbound : event.offset + event.payload.length ≤ stream.length)
    (hmax : event.offset + event.payload.length ≤ maxInt) :
    readExtent fmt offset stream lineNumber (document fmt descriptor previous event) =
      .ok ⟨event.kind, event.offset, event.payload.length, fmt.sha256 event.payload⟩ := by
  have hlength : event.kind.length ≤ 16 ∧ event.kind ≠ "" := by
    rcases hkind with h | h <;> rw [h] <;> decide
  simp only [readExtent, bind_eq_ok, raiseIf_eq_ok, requireInt_eq_ok, requireString_eq_ok,
    requireSha256_eq_ok, pure_eq_ok, field_document]
  refine ⟨event.kind, ⟨?_, hlength.2, hlength.1⟩, (), ?_, event.offset,
    ⟨?_, Nat.zero_le _, by omega⟩, event.payload.length, ⟨?_, Nat.zero_le _, by omega⟩, (),
    not_not.mpr hoffset, (), Nat.not_lt.mpr hbound, (), ?_, (), ?_, fmt.sha256 event.payload,
    ⟨?_, fmt.sha256_hex _⟩, (), ?_, rfl⟩
  · simp [timelineEntry, eventBody, field, Json.get?, List.lookup_cons, Json.sortKeys]
  · rintro ⟨hdata', heof'⟩
    exact hkind.elim hdata' heof'
  · simp [timelineEntry, eventBody, field, Json.get?, List.lookup_cons, Json.sortKeys]
  · simp [timelineEntry, eventBody, field, Json.get?, List.lookup_cons, Json.sortKeys]
  · rintro ⟨hkind, hlength⟩
    exact hlength (by rw [heof hkind]; rfl)
  · rintro ⟨hkind, hlength⟩
    exact hdata hkind (List.length_eq_zero_iff.mp (Nat.lt_one_iff.mp hlength))
  · simp [timelineEntry, eventBody, field, Json.get?, List.lookup_cons, Json.sortKeys]
  · rw [hstream, List.take_left]
    exact not_not.mpr rfl

theorem readChunk_document {position : Position} {extent : Extent} (h : Recordable fmt event) :
    readChunk fmt position extent (document fmt descriptor previous event) =
      .ok { chunkOf fmt event with
        sequence := position.sequence
        direction := position.direction
        jobOffset := extent.offset
        sessionOffset := extent.offset
        byteCount := extent.length
        sha256 := extent.payloadHash
        observedSequence := position.observedSequence
        directionSequence := position.directionSequence
        eventKind := extent.kind } := by
  have hforwardedAt : field (document fmt descriptor previous event) "forwarded_at_utc" =
      .str event.forwardedAtUtc := by
    rw [field_document]
    simp [timelineEntry, eventBody, field, Json.get?, List.lookup_cons, Json.sortKeys]
  have hcapturedAt : field (document fmt descriptor previous event) "captured_at_utc" =
      .str event.capturedAtUtc := by
    rw [field_document]
    simp [timelineEntry, eventBody, field, Json.get?, List.lookup_cons, Json.sortKeys]
  have herror : field (document fmt descriptor previous event) "forward_error" =
      optionalText event.forwardError := by
    rw [field_document]
    cases herr : event.forwardError <;>
      simp [timelineEntry, eventBody, field, Json.get?, List.lookup_cons, Json.sortKeys, optionalText,
        herr]
  simp only [readChunk, bind_eq_ok, requireInt_eq_ok, requireBool_eq_ok, pure_eq_ok, hforwardedAt,
    hcapturedAt, herror]
  refine ⟨event.forwarded, ?_, _, h.forwardedAt.parseDatetime _, _, h.capturedAt.parseDatetime _,
    event.capturedMonotonicNs.toNat, ⟨?_, Nat.zero_le _, by have := h.monotonic; omega⟩, _,
    requireOptionalString_optionalText h.forwardError, rfl⟩
  · rw [field_document]
    simp [timelineEntry, eventBody, field, Json.get?, List.lookup_cons, Json.sortKeys]
  · rw [field_document, Int.toNat_of_nonneg h.monotonic.1]
    simp [timelineEntry, eventBody, field, Json.get?, List.lookup_cons, Json.sortKeys]

end

/-! ## One line -/

/-- The parser's counters are the writer's. -/
structure Agrees (spool : SessionSpool) (state : TimelineState) : Prop where
  offsets : state.offsets = spool.capturedBytes
  directionSequences : state.directionSequences = spool.nextDirectionSequence
  dataCounts : state.dataCounts = spool.capturedChunks
  eofCounts : state.eofCounts = spool.eofEvents
  previousHash : state.previousHash = spool.previousEventSha256
  events : state.events.length = spool.nextSequence

theorem agrees_fresh (descriptor : SessionDescriptor) : Agrees { descriptor } {} :=
  ⟨rfl, rfl, rfl, rfl, rfl, rfl⟩

section
variable {fmt : Codec}

theorem Agrees.written {spool : SessionSpool} {state : TimelineState} {event : CaptureEvent}
    (h : Agrees spool state) : Agrees (written fmt spool event)
      (state.add (eventSha256 fmt spool.descriptor spool.previousEventSha256 event)
        (chunkOf fmt event)) where
  offsets := by
    show (if event.kind = "data" then _ else _) = if event.kind = "data" then _ else _
    rw [h.offsets]
    rfl
  directionSequences := by
    show state.directionSequences.set _ _ = spool.nextDirectionSequence.set _ _
    rw [h.directionSequences]
    rfl
  dataCounts := by
    show (if event.kind = "data" then _ else _) = if event.kind = "data" then _ else _
    rw [h.dataCounts]
    rfl
  eofCounts := by
    show (if event.kind = "data" then _ else _) = if event.kind = "data" then _ else _
    rw [h.eofCounts]
    rfl
  previousHash := rfl
  events := by
    show (state.events ++ [_]).length = spool.nextSequence + 1
    rw [List.length_append, h.events]
    rfl

/-- The line of an accepted event is read as its chunk. -/
theorem parseLine_written {spool : SessionSpool} {state : TimelineState} {event : CaptureEvent}
    {streams : ByDirection Bytes} (lineNumber : Nat) (hagrees : Agrees spool state)
    (hs : Consistent spool) (haccepted : Accepted spool event) (hevent : Recordable fmt event)
    (hfresh : event.observedSequence ∉ state.observedSequences)
    (hsequence : spool.nextSequence ≤ maxInt)
    (hsize : (timelineEntry fmt spool.descriptor spool.previousEventSha256 event).dumps.length ≤
      maxTimelineLineBytes)
    (hstream : spool.raw.get event.direction ++ event.payload <+: streams.get event.direction)
    (hmax : (streams.get event.direction).length ≤ maxInt) :
    parseLine fmt (identityOf spool.descriptor) streams state lineNumber
        (timelineEntry fmt spool.descriptor spool.previousEventSha256 event).dumps =
      .ok (state.add (eventSha256 fmt spool.descriptor spool.previousEventSha256 event)
        (chunkOf fmt event)) := by
  obtain ⟨rest, hrest⟩ := hstream
  have hoffset : event.offset = (spool.raw.get event.direction).length := by
    rw [haccepted.offset, hs.capturedBytes]
  have hdrop : (streams.get event.direction).drop event.offset = event.payload ++ rest := by
    rw [← hrest, hoffset, List.append_assoc, List.drop_left]
  have hlength : event.offset + event.payload.length ≤ (streams.get event.direction).length := by
    rw [← hrest, hoffset, List.length_append, List.length_append]
    omega
  have hdirection := hs.directionSequence event.direction
  have hposition : readPosition state
      (document fmt spool.descriptor spool.previousEventSha256 event) =
      .ok ⟨event.sequence, event.observedSequence, event.direction, event.directionSequence⟩ :=
    readPosition_document (haccepted.sequence.trans hagrees.events.symm)
      (haccepted.sequence ▸ hsequence) hevent.observedSequence hfresh
      (by rw [haccepted.directionSequence, hagrees.directionSequences])
      (haccepted.directionSequence ▸ hdirection.trans hsequence)
  have hextent : readExtent fmt (state.offsets.get event.direction)
      (streams.get event.direction) lineNumber
      (document fmt spool.descriptor spool.previousEventSha256 event) =
      .ok ⟨event.kind, event.offset, event.payload.length, fmt.sha256 event.payload⟩ :=
    readExtent_document lineNumber haccepted.kind hevent.payload haccepted.empty
      (by rw [haccepted.offset, hagrees.offsets]) hdrop hlength (hlength.trans hmax)
  rw [parseLine, hagrees.previousHash, readEvent_line lineNumber hsize, ok_bind]
  dsimp only
  rw [checkIdentity_document, ok_bind, hposition, ok_bind, hextent, ok_bind,
    readChunk_document hevent, ok_bind]
  rfl

/-! ## The size of a line -/

theorem length_sha256 (fmt : Codec) (bytes : Bytes) : (fmt.sha256 bytes).length = 64 := by
  have h := fmt.sha256_hex bytes
  rw [isSha256, Bool.and_eq_true, beq_iff_eq] at h
  exact h.1

/-- The names in a line are short. -/
structure ShortNames (descriptor : SessionDescriptor) : Prop where
  sessionId : descriptor.sessionId.length ≤ 64
  jobId : descriptor.jobId.length ≤ 64
  deviceId : descriptor.deviceId.length ≤ 64

def ShortHash (previous : Option String) : Prop := ∀ hash ∈ previous, hash.length ≤ 64

theorem weight_optionalText_le {text : Option String} {n : Nat} (h : ∀ s ∈ text, s.length ≤ n) :
    (optionalText text).weight ≤ 6 * n + 4 := by
  cases text with
  | none =>
    rw [optionalText, Json.weight]
    omega
  | some s =>
    have := h s rfl
    rw [optionalText, Json.weight]
    omega

theorem line_le {descriptor : SessionDescriptor} {previous : Option String} {event : CaptureEvent}
    (hnames : ShortNames descriptor) (hprevious : ShortHash previous)
    (hevent : Recordable fmt event) (hkind : event.kind = "data" ∨ event.kind = "eof")
    (hsequence : event.sequence ≤ maxInt) (hdirection : event.directionSequence ≤ maxInt)
    (hoffset : event.offset + event.payload.length ≤ maxInt) :
    (timelineEntry fmt descriptor previous event).dumps.length ≤ maxTimelineLineBytes := by
  have hnat : ∀ n : Nat, n ≤ maxInt → (Json.num (n : Int)).weight ≤ 19 := by
    intro n hn
    have : maxInt = 2 ^ 63 - 1 := rfl
    exact Json.weight_num_le (by omega)
  have hmonotonic : (Json.num event.capturedMonotonicNs).weight ≤ 19 := by
    have := hevent.monotonic
    have : maxInt = 2 ^ 63 - 1 := rfl
    exact Json.weight_num_le (by omega)
  have herror := weight_optionalText_le fun s hs => (hevent.forwardError s hs).2
  have hprevious := weight_optionalText_le hprevious
  have hkindLength : event.kind.length ≤ 4 := by
    rcases hkind with h | h <;> rw [h] <;> decide
  have hdirectionLength : event.direction.value.length ≤ 16 := by
    cases event.direction <;> decide
  have hone : (Json.num 1).weight = 1 := by decide
  have h1 := hnat _ hsequence
  have h2 := hnat _ hevent.observedSequence
  have h3 := hnat _ hdirection
  have h4 := hnat event.offset (by omega)
  have h5 := hnat event.payload.length (by omega)
  have h6 := hevent.capturedAt.length
  have h7 := hevent.forwardedAt.length
  have h8 := hnames.sessionId
  have h9 := hnames.jobId
  have h10 := hnames.deviceId
  refine (Json.length_dumps_le _).trans ?_
  simp only [timelineEntry, eventBody, eventSha256, List.cons_append, List.nil_append,
    Json.weight_obj, List.map_cons, List.map_nil, List.sum_cons, List.sum_nil, Json.weight_str,
    Json.weight_bool, length_sha256]
  have hkeys : Json.weightKeys ["schema_version", "session_id", "job_id", "device_id", "sequence",
      "observed_sequence", "direction_sequence", "direction", "kind", "captured_at_utc",
      "captured_monotonic_ns", "offset", "length", "payload_sha256", "forwarded",
      "forwarded_at_utc", "forward_error", "previous_event_sha256", "event_sha256"] ≤ 2000 := by
    decide
  have hmax : maxTimelineLineBytes = 65536 := rfl
  rw [hone, hmax]
  generalize Json.weightKeys _ = keys at hkeys ⊢
  generalize (Json.num event.sequence).weight = w1 at h1 ⊢
  generalize (Json.num event.observedSequence).weight = w2 at h2 ⊢
  generalize (Json.num event.directionSequence).weight = w3 at h3 ⊢
  generalize (Json.num event.offset).weight = w4 at h4 ⊢
  generalize (Json.num event.payload.length).weight = w5 at h5 ⊢
  generalize (Json.num event.capturedMonotonicNs).weight = w6 at hmonotonic ⊢
  generalize (optionalText event.forwardError).weight = w7 at herror ⊢
  generalize (optionalText previous).weight = w8 at hprevious ⊢
  clear hone hmax hnat hsequence hdirection hoffset
  omega

theorem shortHash_none : ShortHash none := fun _ h => absurd h (by simp)

theorem shortHash_written (spool : SessionSpool) (event : CaptureEvent) :
    ShortHash (written fmt spool event).previousEventSha256 := by
  intro hash hmem
  cases hmem
  exact Nat.le_of_eq (length_sha256 fmt _)

theorem shortHash_appendAll {spool spool' : SessionSpool} {events : List CaptureEvent}
    (h : appendAll fmt spool events = some spool') (hprevious : ShortHash spool.previousEventSha256) :
    ShortHash spool'.previousEventSha256 := by
  induction events generalizing spool with
  | nil =>
    cases h
    exact hprevious
  | cons event events ih =>
    obtain ⟨-, hrest⟩ := (appendAll_cons fmt).mp h
    exact ih hrest (shortHash_written spool event)

/-! ## The lines of a run -/

/-- Reading the lines of accepted events gives their chunks and the writer's
counters. -/
theorem parseLines_appendAll {spool spool' : SessionSpool} {state : TimelineState}
    {events : List CaptureEvent} {streams : ByDirection Bytes} (lineNumber : Nat)
    (hagrees : Agrees spool state) (hs : Consistent spool)
    (h : appendAll fmt spool events = some spool') (hevents : ∀ event ∈ events, Recordable fmt event)
    (hobserved :
      (state.observedSequences ++ events.map CaptureEvent.observedSequence).Nodup)
    (hsequence : spool'.nextSequence ≤ maxInt)
    (hnames : ShortNames spool.descriptor) (hprevious : ShortHash spool.previousEventSha256)
    (hstream : ∀ direction, spool'.raw.get direction <+: streams.get direction)
    (hmax : ∀ direction, (streams.get direction).length ≤ maxInt) :
    ∃ state', parseLines fmt (identityOf spool.descriptor) streams state lineNumber
        (timelineTexts fmt spool.descriptor spool.previousEventSha256 events) = .ok state' ∧
      Agrees spool' state' ∧
      state'.events = state.events ++ events.map (chunkOf fmt) ∧
      state'.observedSequences =
        state.observedSequences ++ events.map CaptureEvent.observedSequence := by
  induction events generalizing spool state lineNumber with
  | nil =>
    cases h
    exact ⟨state, rfl, hagrees, (List.append_nil _).symm, (List.append_nil _).symm⟩
  | cons event events ih =>
    obtain ⟨haccepted, hrest⟩ := (appendAll_cons fmt).mp h
    have hnext := appendAll_nextSequence fmt h
    have hfresh : event.observedSequence ∉ state.observedSequences := by
      intro hmem
      exact (List.nodup_append.mp hobserved).2.2 _ hmem _ List.mem_cons_self rfl
    have hprefix : spool.raw.get event.direction ++ event.payload <+:
        streams.get event.direction := by
      refine List.IsPrefix.trans ?_ (hstream event.direction)
      rw [appendAll_raw fmt hrest, written_raw, ByDirection.get_set, if_pos rfl]
      exact List.prefix_append _ _
    have hevent := hevents event List.mem_cons_self
    have hsequence' : spool.nextSequence ≤ maxInt := by omega
    have hend : event.offset + event.payload.length ≤ maxInt := by
      have hlength := hprefix.length_le
      rw [List.length_append, hs.capturedBytes, ← haccepted.offset] at hlength
      exact hlength.trans (hmax event.direction)
    have hsize := line_le hnames hprevious hevent haccepted.kind
      (haccepted.sequence ▸ hsequence')
      (haccepted.directionSequence ▸ (hs.directionSequence event.direction).trans hsequence') hend
    have hline := parseLine_written lineNumber hagrees hs haccepted hevent hfresh hsequence' hsize
      hprefix (hmax event.direction)
    obtain ⟨state', hparse, hagrees', hchunks, hseen⟩ :=
      ih (lineNumber + 1) (@Agrees.written fmt spool state event hagrees) (hs.written fmt haccepted) hrest
        (fun e he => hevents e (List.mem_cons_of_mem _ he))
        (by
          show ((state.observedSequences ++ [event.observedSequence]) ++ _).Nodup
          rwa [List.append_assoc, List.singleton_append])
        hnames (shortHash_written spool event)
    refine ⟨state', ?_, hagrees', ?_, ?_⟩
    · rw [timelineTexts, parseLines, hline, ok_bind]
      exact hparse
    · rw [hchunks]
      show (state.events ++ [chunkOf fmt event]) ++ _ = _
      rw [List.append_assoc, List.singleton_append, List.map_cons]
    · rw [hseen]
      show (state.observedSequences ++ [event.observedSequence]) ++ _ = _
      rw [List.append_assoc, List.singleton_append, List.map_cons]

/-- The timeline takes at most one full line for each event. -/
theorem length_timeline_le {spool spool' : SessionSpool} {events : List CaptureEvent}
    (hs : Consistent spool) (h : appendAll fmt spool events = some spool')
    (hevents : ∀ event ∈ events, Recordable fmt event) (hsequence : spool'.nextSequence ≤ maxInt)
    (hnames : ShortNames spool.descriptor) (hprevious : ShortHash spool.previousEventSha256)
    (hmax : ∀ direction, (spool'.raw.get direction).length ≤ maxInt) :
    spool'.timeline.length ≤
      spool.timeline.length + events.length * (maxTimelineLineBytes + 1) := by
  induction events generalizing spool with
  | nil =>
    cases h
    exact Nat.le_add_right _ _
  | cons event events ih =>
    obtain ⟨haccepted, hrest⟩ := (appendAll_cons fmt).mp h
    have hnext := appendAll_nextSequence fmt h
    have hsequence' : spool.nextSequence ≤ maxInt := by omega
    have hend : event.offset + event.payload.length ≤ maxInt := by
      have hraw := hmax event.direction
      rw [appendAll_raw fmt hrest, written_raw, ByDirection.get_set, if_pos rfl,
        List.length_append, List.length_append, hs.capturedBytes, ← haccepted.offset] at hraw
      omega
    have hline := line_le hnames hprevious (hevents event List.mem_cons_self) haccepted.kind
      (haccepted.sequence ▸ hsequence')
      (haccepted.directionSequence ▸ (hs.directionSequence event.direction).trans hsequence') hend
    have htail := ih (hs.written fmt haccepted) hrest
      (fun e he => hevents e (List.mem_cons_of_mem _ he)) hnames (shortHash_written spool event)
    rw [written_timeline, timelineLine, List.length_append, List.length_append,
      List.length_singleton] at htail
    rw [List.length_cons, Nat.succ_mul]
    omega

end

end RetailPrintGuard.Ingestion.Timeline
