import RetailPrintGuard.Ingestion.Reading
import RetailPrintGuard.Ingestion.Rch

/-! # RCH captures of one write

The files a capture of a single client write has, and what the adapter loads of
them. -/
namespace RetailPrintGuard.Ingestion.RchWrites
open RetailPrintGuard.Library RetailPrintGuard.Library.Checks RetailPrintGuard.Common.Formats
open RetailPrintGuard.Ingestion.Adapters RetailPrintGuard.Ingestion.Dto RetailPrintGuard.Ingestion.Rch
open RetailPrintGuard.Ingestion.Canonical (splitlines parseJsonBytes)
open RetailPrintGuard.Ingestion.Reading RetailPrintGuard.Ingestion.Timeline

/-- One write of a client in a proxy session, captured as a job. -/
structure Write where
  code : String
  jobId : String
  sessionId : String
  connectionId : String
  time : String
  boundary : String
  printer : String × Int
  client : String × Int
  listener : String × Int
  sessionOffset : Nat
  request : Bytes
deriving DecidableEq

section
variable (fmt : Codec) (path : String) (w : Write)

/-! ## The files -/

def timelineRecord : Json := .obj [
  ("sequence", .num 1),
  ("direction", .str "CLIENT -> RCH"),
  ("job_offset", .num 0),
  ("session_offset", .num w.sessionOffset),
  ("byte_count", .num w.request.length),
  ("sha256", .str (fmt.sha256 w.request)),
  ("session_id", .str w.sessionId),
  ("connection_id", .str w.connectionId),
  ("received_at", .str w.time)]

def timelineBytes : Bytes := (timelineRecord fmt w).dumps ++ [newline]

def manifestDocument : Json := .obj [
  ("schema", .str captureSchema),
  ("codice_doc", .str w.code),
  ("job_id", .str w.jobId),
  ("session_id", .str w.sessionId),
  ("connection_id", .str w.connectionId),
  ("opened_at", .str w.time),
  ("closed_at", .str w.time),
  ("request_size", .num w.request.length),
  ("response_size", .num 0),
  ("raw_complete", .bool true),
  ("timeline_complete", .bool true),
  ("timeline_event_count", .num 1),
  ("status", .str "ready"),
  ("files", .obj [
    ("request_raw", .str "request.raw"),
    ("response_raw", .str "response.raw"),
    ("timeline", .str "timeline.jsonl")]),
  ("sha256", .obj [
    ("request_raw", .str (fmt.sha256 w.request)),
    ("response_raw", .str (fmt.sha256 [])),
    ("timeline", .str (fmt.sha256 (timelineBytes fmt w)))]),
  ("printer_ip", .str w.printer.1),
  ("printer_port", .num w.printer.2),
  ("client_ip", .str w.client.1),
  ("client_port", .num w.client.2),
  ("listen_ip", .str w.listener.1),
  ("listen_port", .num w.listener.2),
  ("job_boundary_source", .str w.boundary)]

def manifestBytes : Bytes := (manifestDocument fmt w).dumps ++ [newline]

def readyDocument : Json := .obj [
  ("schema", .str captureSchema),
  ("codice_doc", .str w.code),
  ("manifest_sha256", .str (fmt.sha256 (manifestBytes fmt w))),
  ("published_at", .str w.time)]

def readyBytes : Bytes := (readyDocument fmt w).dumps ++ [newline]

def directory : SourceDirectory where
  path := path
  name := w.code
  files := [
    (".ready", readyBytes fmt w),
    ("manifest.json", manifestBytes fmt w),
    ("request.raw", w.request),
    ("response.raw", []),
    ("timeline.jsonl", timelineBytes fmt w)]

/-! ## What is loaded -/

/-- A capture the adapter reads: its texts, its endpoints and its size. -/
structure Write.Readable (adapter : Adapter) (w : Write) (printer client listener : Endpoint)
    (deviceId : String) : Prop where
  code : isJobCode w.code = true
  jobId : IsUuid fmt w.jobId
  sessionId : w.sessionId ≠ "" ∧ w.sessionId.length ≤ 128
  connectionId : w.connectionId ≠ "" ∧ w.connectionId.length ≤ 128
  time : IsTimestamp fmt w.time
  boundary : w.boundary ≠ "" ∧ w.boundary.length ≤ 128
  toPrinter : IsEndpoint fmt w.printer printer
  fromClient : IsEndpoint fmt w.client client
  atListener : IsEndpoint fmt w.listener listener
  configured : adapter.devicesByTarget.lookup printer = some deviceId
  request : w.request ≠ []
  size : w.request.length ≤ adapter.maxPayloadBytes ∧ w.request.length ≤ maxInt
  sessionOffset : w.sessionOffset ≤ maxInt
  room : maxTimelineLineBytes ≤ adapter.maxPayloadBytes

def chunk : StreamChunk where
  sequence := 1
  direction := .clientToDevice
  receivedAt := instant fmt w.time
  receivedUnixNs := none
  forwardedUnixNs := none
  localWriteDrainUnixNs := none
  monotonicNs := none
  jobOffset := 0
  sessionOffset := w.sessionOffset
  byteCount := w.request.length
  sha256 := fmt.sha256 w.request
  localWriteDrainCompleted := none
  forwardStatus := none
  error := none

def facts : CaptureFacts where
  jobId := w.jobId
  sessionId := w.sessionId
  connectionId := w.connectionId
  openedAt := instant fmt w.time
  closedAt := instant fmt w.time
  requestSize := w.request.length
  responseSize := 0
  rawComplete := true
  timelineComplete := true
  timelineCount := 1
  status := "ready"

def files : CaptureFiles where
  requestRaw := ⟨"request.raw", w.request, fmt.sha256 w.request⟩
  responseRaw := ⟨"response.raw", [], fmt.sha256 []⟩
  timeline := ⟨"timeline.jsonl", timelineBytes fmt w, fmt.sha256 (timelineBytes fmt w)⟩

def binding : Binding where
  manifest := (manifestDocument fmt w).sortKeys
  facts := facts fmt w
  manifestHash := fmt.sha256 (manifestBytes fmt w)
  artifacts := [
    snapshot (directory fmt path w) .requestRaw (files fmt w).requestRaw true,
    snapshot (directory fmt path w) .responseRaw (files fmt w).responseRaw true,
    snapshot (directory fmt path w) .receiveTimeline (files fmt w).timeline true
      "application/x-ndjson",
    snapshot (directory fmt path w) .captureManifest
      ⟨"manifest.json", manifestBytes fmt w, fmt.sha256 (manifestBytes fmt w)⟩ true
      "application/json",
    snapshot (directory fmt path w) .captureReadyMarker
      ⟨".ready", readyBytes fmt w, fmt.sha256 (readyBytes fmt w)⟩ true "application/json"]
  chunks := [chunk fmt w]

def envelope (adapter : Adapter) (printer client listener : Endpoint) (deviceId : String) :
    NormalizedEnvelope where
  sourceKey := "rch-capture:" ++ adapter.sourceInstanceId ++ ":" ++ w.jobId ++ ":" ++
    fmt.sha256 (manifestBytes fmt w)
  sourceKind := .commercialRchCaptureV1
  sourceInstanceId := adapter.sourceInstanceId
  deviceId := deviceId
  sourceJobId := w.jobId
  sourceSessionId := w.sessionId
  connectionId := w.connectionId
  openedAt := instant fmt w.time
  closedAt := some (instant fmt w.time)
  sourceEndpoint := some client
  proxyEndpoint := some listener
  deviceEndpoint := printer
  status := "ready"
  complete := true
  boundarySource := some w.boundary
  boundaryConfidence := none
  deliveryEvidence := none
  manifestSha256 := fmt.sha256 (manifestBytes fmt w)
  parserVersion := none
  artifacts := (binding fmt path w).artifacts
  chunks := [chunk fmt w]
  documents := []
  metadata := (manifestDocument fmt w).sortKeys

end

section
variable {fmt : Codec} {path : String} {w : Write} {adapter : Adapter}
  {printer client listener : Endpoint} {deviceId : String}

theorem timelineRecord_distinct : (timelineRecord fmt w).Distinct :=
  ⟨by simp, by simp [Json.DistinctFields, Json.Distinct]⟩

theorem manifestDocument_distinct : (manifestDocument fmt w).Distinct :=
  ⟨by simp, by simp [Json.DistinctFields, Json.Distinct]⟩

theorem readyDocument_distinct : (readyDocument fmt w).Distinct :=
  ⟨by simp, by simp [Json.DistinctFields, Json.Distinct]⟩

theorem timelineRecord_readable : Common.Formats.Readable (timelineRecord fmt w) :=
  ⟨timelineRecord_distinct, rfl⟩

theorem manifestDocument_readable : Common.Formats.Readable (manifestDocument fmt w) :=
  ⟨manifestDocument_distinct, rfl⟩

theorem readyDocument_readable : Common.Formats.Readable (readyDocument fmt w) :=
  ⟨readyDocument_distinct, rfl⟩

theorem field_timelineRecord (key : String) : field (timelineRecord fmt w).sortKeys key =
    (field (timelineRecord fmt w) key).sortKeys := field_sortKeys timelineRecord_distinct key

theorem field_manifestDocument (key : String) : field (manifestDocument fmt w).sortKeys key =
    (field (manifestDocument fmt w) key).sortKeys := field_sortKeys manifestDocument_distinct key

theorem field_readyDocument (key : String) : field (readyDocument fmt w).sortKeys key =
    (field (readyDocument fmt w) key).sortKeys := field_sortKeys readyDocument_distinct key

/-! ## Sizes -/

theorem IsEndpoint.weight {source : String × Int} {e : Endpoint} (h : IsEndpoint fmt source e) :
    (Json.str source.1).weight ≤ 272 ∧ (Json.num source.2).weight ≤ 19 := by
  have hlength := h.length
  have hport := h.port
  rw [Json.weight_str]
  exact ⟨by omega, Json.weight_num_le ⟨by omega, by omega⟩⟩

theorem length_code {code : String} (h : isJobCode code = true) : code.length ≤ 32 := by
  simp only [isJobCode, Bool.and_eq_true, decide_eq_true_eq] at h
  exact h.1.2

theorem length_timelineBytes (h : w.Readable fmt adapter printer client listener deviceId) :
    (timelineBytes fmt w).length ≤ maxTimelineLineBytes := by
  have hsize := Json.length_dumps_le (timelineRecord fmt w)
  have hkeys : Json.weightKeys ["sequence", "direction", "job_offset", "session_offset",
    "byte_count", "sha256", "session_id", "connection_id", "received_at"] = 582 := by decide
  have hzero : (Json.num 0).weight = 1 := by decide
  have hone : (Json.num 1).weight = 1 := by decide
  have hdirection : "CLIENT -> RCH".length = 13 := rfl
  have hoffset := h.sessionOffset
  have hcount := h.size.2
  rw [maxInt] at hoffset hcount
  have hoffset := @Json.weight_num_le w.sessionOffset (by omega)
  have hcount := @Json.weight_num_le w.request.length (by omega)
  simp only [timelineRecord, Json.weight_obj, List.map_cons, List.map_nil, List.sum_cons,
    List.sum_nil, Json.weight_str, length_sha256, hkeys, hzero, hone, hdirection] at hsize
  have hsession := h.sessionId.2
  have hconnection := h.connectionId.2
  have htime := h.time.length
  rw [timelineBytes, List.length_append, List.length_singleton, maxTimelineLineBytes]
  unfold timelineRecord
  omega

theorem length_manifestBytes (h : w.Readable fmt adapter printer client listener deviceId) :
    (manifestBytes fmt w).length ≤ maxManifestBytes := by
  have hsize := Json.length_dumps_le (manifestDocument fmt w)
  have hkeys : Json.weightKeys ["schema", "codice_doc", "job_id", "session_id", "connection_id",
    "opened_at", "closed_at", "request_size", "response_size", "raw_complete", "timeline_complete",
    "timeline_event_count", "status", "files", "sha256", "printer_ip", "printer_port", "client_ip",
    "client_port", "listen_ip", "listen_port", "job_boundary_source"] = 1498 := by decide
  have hnames : Json.weightKeys ["request_raw", "response_raw", "timeline"] = 198 := by decide
  have hzero : (Json.num 0).weight = 1 := by decide
  have hone : (Json.num 1).weight = 1 := by decide
  have hschema : captureSchema.length ≤ 64 := by decide
  have hrequest : "request.raw".length = 11 := rfl
  have hresponse : "response.raw".length = 12 := rfl
  have htimeline : "timeline.jsonl".length = 14 := rfl
  have hready : "ready".length = 5 := rfl
  have hcount := h.size.2
  rw [maxInt] at hcount
  have hcount := @Json.weight_num_le w.request.length (by omega)
  have hprinter := IsEndpoint.weight h.toPrinter
  have hclient := IsEndpoint.weight h.fromClient
  have hlistener := IsEndpoint.weight h.atListener
  rw [Json.weight_str] at hprinter hclient hlistener
  have hcode := length_code h.code
  have hjob := h.jobId.length
  have hsession := h.sessionId.2
  have hconnection := h.connectionId.2
  have htime := h.time.length
  have hboundary := h.boundary.2
  simp only [manifestDocument, Json.weight_obj, List.map_cons, List.map_nil, List.sum_cons,
    List.sum_nil, Json.weight_str, Json.weight_bool, length_sha256, hkeys, hnames, hzero, hone,
    hrequest, hresponse, htimeline, hready] at hsize
  rw [manifestBytes, List.length_append, List.length_singleton, maxManifestBytes]
  unfold manifestDocument
  omega

theorem length_readyBytes (h : w.Readable fmt adapter printer client listener deviceId) :
    (readyBytes fmt w).length ≤ maxMarkerBytes := by
  have hsize := Json.length_dumps_le (readyDocument fmt w)
  have hkeys : Json.weightKeys ["schema", "codice_doc", "manifest_sha256", "published_at"] = 274 := by
    decide
  have hschema : captureSchema.length ≤ 64 := by decide
  have hcode := length_code h.code
  have htime := h.time.length
  simp only [readyDocument, Json.weight_obj, List.map_cons, List.map_nil, List.sum_cons,
    List.sum_nil, Json.weight_str, length_sha256, hkeys] at hsize
  rw [readyBytes, List.length_append, List.length_singleton, maxMarkerBytes]
  unfold readyDocument
  omega

/-! ## The timeline -/

theorem readPosition_write (h : w.Readable fmt adapter printer client listener deviceId)
    (line : String) :
    readPosition (files fmt w).streams true {} line (timelineRecord fmt w).sortKeys =
      .ok ⟨1, .clientToDevice, 0, w.sessionOffset, w.request.length⟩ := by
  simp only [readPosition, bind_eq_ok, raiseIf_eq_ok, pure_eq_ok, requireInt_eq_ok]
  have hpositive := List.length_pos_of_ne_nil h.request
  refine ⟨1, ⟨?_, by decide, by decide⟩, (), by decide, (), by decide, .clientToDevice, ?_, 0,
    ⟨?_, by decide, by decide⟩, w.sessionOffset, ⟨?_, Nat.zero_le _, h.sessionOffset⟩,
    w.request.length, ⟨?_, hpositive, h.size.2⟩, (), ?_, (), ?_, (), ?_, rfl⟩
  case refine_6 => simp [files, CaptureFiles.streams, ByDirection.get]
  case refine_7 => simp [ByDirection.const, ByDirection.get]
  case refine_8 => simp [ByDirection.const, ByDirection.get]
  all_goals
    rw [field_timelineRecord]
    simp [timelineRecord, field, Json.get?, List.lookup_cons, Json.sortKeys, directionNamed]

theorem readChunk_write (h : w.Readable fmt adapter printer client listener deviceId)
    (line : String) :
    readChunk fmt (files fmt w).streams w.sessionId w.connectionId
      ⟨1, .clientToDevice, 0, w.sessionOffset, w.request.length⟩ line
      (timelineRecord fmt w).sortKeys = .ok (chunk fmt w) := by
  have hfield (key : String) : field (timelineRecord fmt w).sortKeys key =
      (field (timelineRecord fmt w) key).sortKeys := field_timelineRecord key
  simp only [readChunk, hfield]
  simp [timelineRecord, field, Json.get?, List.lookup_cons, Json.sortKeys, matchDigest,
    requireSha256_eq_ok.mpr ⟨rfl, fmt.sha256_hex _⟩, h.time.parseDatetime, requireOptionalInt,
    requireOptionalString, optionalBool, files, CaptureFiles.streams, ByDirection.get]
  simp only [ok_bind, raiseIf, not_true_eq_false, if_false]
  rfl

theorem parseTimeline_write (h : w.Readable fmt adapter printer client listener deviceId) :
    parseTimeline fmt (timelineBytes fmt w) (files fmt w).streams 1 true w.sessionId w.connectionId =
      .ok [chunk fmt w] := by
  have hge : ∀ byte ∈ (timelineRecord fmt w).dumps, 32 ≤ byte := Json.dumps_ge _
  have hne : (timelineRecord fmt w).dumps ≠ [] := Json.dumps_ne_nil _
  have hlines : splitlines (timelineBytes fmt w) = [(timelineRecord fmt w).dumps] := by
    have hsplit := splitlines_line hge []
    rw [List.append_nil] at hsplit
    exact hsplit
  have hsize := length_timelineBytes h
  rw [timelineBytes, List.length_append, List.length_singleton] at hsize
  have hline : parseLine fmt (files fmt w).streams true w.sessionId w.connectionId {} 1
      (timelineRecord fmt w).dumps = .ok (TimelineState.add {} (chunk fmt w)) := by
    simp only [parseLine, bind_eq_ok, raiseIf_eq_ok, pure_eq_ok, not_or]
    exact ⟨(), ⟨hne, by omega⟩, _, parseJsonBytes_eq_ok.mpr (fmt.parseJson_dumps _
      timelineRecord_readable), _, mapping_eq_ok.mpr ⟨rfl, _, rfl⟩, _, readPosition_write h _, _,
      readChunk_write h _, rfl⟩
  simp only [parseTimeline, bind_eq_ok, raiseIf_eq_ok, pure_eq_ok]
  refine ⟨(), fun hlast => hlast.2 (by simp [timelineBytes]), TimelineState.add {} (chunk fmt w), ?_,
    (), ?_, (), ?_, ?_⟩
  · rw [hlines]
    exact bind_eq_ok.mpr ⟨_, hline, rfl⟩
  · simp [TimelineState.add]
  · simp [TimelineState.add, chunk, files, CaptureFiles.streams, ByDirection.set, ByDirection.const]
  · rfl

/-! ## The capture -/

/-- A file of the directory that is small enough is read. -/
theorem read_write {name : String} {content : Bytes} {maxBytes : Nat}
    (hname : (directory fmt path w).files.lookup name = some content)
    (hsize : content.length ≤ maxBytes) :
    (directory fmt path w).read name maxBytes = .ok content := by
  rw [SourceDirectory.read, hname]
  exact bind_eq_ok.mpr ⟨(), raiseIf_eq_ok.mpr (Nat.not_lt.mpr hsize), rfl⟩

theorem readMarker_write (h : w.Readable fmt adapter printer client listener deviceId) :
    readMarker fmt (directory fmt path w) =
      .ok (readyBytes fmt w, fmt.sha256 (manifestBytes fmt w)) := by
  have hsize := length_readyBytes h
  simp only [readMarker, bind_eq_ok, raiseIf_eq_ok, pure_eq_ok, requireSha256_eq_ok]
  refine ⟨readyBytes fmt w, read_write rfl hsize, (readyDocument fmt w).sortKeys,
    readJsonObject_line rfl readyDocument_readable ⟨_, rfl⟩ hsize, (), not_not.mpr ?_, (),
    not_not.mpr ?_, _, ⟨?_, fmt.sha256_hex _⟩, instant fmt w.time, ?_, rfl⟩
  case refine_4 =>
    rw [field_readyDocument]
    exact h.time.parseDatetime _
  all_goals
    rw [field_readyDocument]
    simp [readyDocument, field, Json.get?, List.lookup_cons, Json.sortKeys, directory]

theorem readManifest_write (h : w.Readable fmt adapter printer client listener deviceId) :
    readManifest fmt (directory fmt path w) (fmt.sha256 (manifestBytes fmt w)) =
      .ok (manifestBytes fmt w, (manifestDocument fmt w).sortKeys) := by
  have hsize := length_manifestBytes h
  simp only [readManifest, bind_eq_ok, raiseIf_eq_ok, pure_eq_ok]
  refine ⟨manifestBytes fmt w, read_write rfl hsize, (manifestDocument fmt w).sortKeys,
    readJsonObject_line rfl manifestDocument_readable ⟨_, rfl⟩ hsize, (), by simp, (),
    not_not.mpr ?_, (), not_not.mpr ?_, rfl⟩
  all_goals
    rw [field_manifestDocument]
    simp [manifestDocument, field, Json.get?, List.lookup_cons, Json.sortKeys, directory]

theorem readFacts_write (h : w.Readable fmt adapter printer client listener deviceId) :
    readFacts fmt adapter.maxPayloadBytes (manifestDocument fmt w).sortKeys =
      .ok (facts fmt w) := by
  have htime (label : String) : parseDatetime fmt (.str w.time) label = .ok (instant fmt w.time) :=
    h.time.parseDatetime label
  simp only [readFacts, bind_eq_ok, raiseIf_eq_ok, pure_eq_ok, requireUuid_eq_ok,
    requireString_eq_ok, requireInt_eq_ok, requireBool_eq_ok]
  refine ⟨w.jobId, ⟨?_, h.jobId.nonempty, h.jobId.length, h.jobId.uuid⟩, w.sessionId,
    ⟨?_, h.sessionId⟩, w.connectionId, ⟨?_, h.connectionId⟩, instant fmt w.time, ?_,
    instant fmt w.time, ?_, (), lt_irrefl _, none, ?_, w.request.length,
    ⟨?_, Nat.zero_le _, h.size.1⟩, 0, ⟨?_, le_rfl, Nat.zero_le _⟩, (), Nat.not_lt.mpr h.size.1,
    true, ?_, true, ?_, 1, ⟨?_, by decide, by decide⟩, "ready", ⟨?_, by decide, by decide⟩, (),
    by simp, rfl⟩
  all_goals
    rw [field_manifestDocument]
    simp [manifestDocument, field, Json.get?, List.lookup_cons, Json.sortKeys, htime, requireOptionalInt]

theorem readFiles_write (h : w.Readable fmt adapter printer client listener deviceId) :
    readFiles fmt (directory fmt path w) adapter.maxPayloadBytes (manifestDocument fmt w).sortKeys
      (facts fmt w) = .ok (files fmt w) := by
  have hfiles : field (manifestDocument fmt w).sortKeys "files" = .obj [
      ("request_raw", .str "request.raw"),
      ("response_raw", .str "response.raw"),
      ("timeline", .str "timeline.jsonl")] := by
    rw [field_manifestDocument]
    rfl
  have hhashes : field (manifestDocument fmt w).sortKeys "sha256" = .obj [
      ("request_raw", .str (fmt.sha256 w.request)),
      ("response_raw", .str (fmt.sha256 [])),
      ("timeline", .str (fmt.sha256 (timelineBytes fmt w)))] := by
    rw [field_manifestDocument]
    have hkeys : (["request_raw", "response_raw", "timeline"] : List String).Pairwise (· ≤ ·) := by
      decide
    exact Json.sortKeys_obj hkeys (by simp [Json.sortKeys])
  have hnamed {files hashes : Json} {key name : String} {content : Bytes} {limit : Nat}
      (hname : field files key = .str name)
      (hsafe : SourceDirectory.safeChild (.str name) = .ok name)
      (hcontent : (directory fmt path w).files.lookup name = some content)
      (hlimit : content.length ≤ limit)
      (hhash : field hashes key = .str (fmt.sha256 content)) :
      readNamed fmt (directory fmt path w) files hashes key limit =
        .ok ⟨name, content, fmt.sha256 content⟩ := by
    simp only [readNamed, matchDigest, bind_eq_ok, raiseIf_eq_ok, pure_eq_ok, requireSha256_eq_ok]
    exact ⟨name, hname ▸ hsafe, content, read_write hcontent hlimit, _,
      ⟨_, ⟨hhash, fmt.sha256_hex _⟩, (), by simp, rfl⟩, rfl⟩
  have hroom := (length_timelineBytes h).trans h.room
  simp only [readFiles, bind_eq_ok, raiseIf_eq_ok, pure_eq_ok, hfiles, hhashes, mapping_eq_ok]
  refine ⟨_, ⟨rfl, _, rfl⟩, _, ⟨rfl, _, rfl⟩, _, hnamed rfl rfl rfl h.size.1 rfl, _,
    hnamed rfl rfl rfl (Nat.zero_le _) rfl, _, hnamed rfl rfl rfl (Nat.le_min.mpr ⟨hroom, ?_⟩) rfl,
    (), by simp [facts], (), by simp [facts], rfl⟩
  exact (length_timelineBytes h).trans (by decide)

theorem captureBinding_write (h : w.Readable fmt adapter printer client listener deviceId) :
    captureBinding fmt (directory fmt path w) adapter.maxPayloadBytes true =
      .ok (binding fmt path w) := by
  have hcode : ¬isJobCode (directory fmt path w).name = false := by
    rw [directory, h.code]
    decide
  simp only [captureBinding, bind_eq_ok, raiseIf_eq_ok, pure_eq_ok, if_true]
  exact ⟨(), hcode, _, readMarker_write h, _, readManifest_write h, _, readFacts_write h, _,
    readFiles_write h, _, parseTimeline_write h, rfl⟩

theorem endpoint_write {ip port label : String} {source : String × Int} {e : Endpoint}
    (h : IsEndpoint fmt source e) (hip : field (manifestDocument fmt w) ip = .str source.1)
    (hport : field (manifestDocument fmt w) port = .num source.2) :
    endpoint fmt (field (manifestDocument fmt w).sortKeys ip)
      (field (manifestDocument fmt w).sortKeys port) label = .ok e := by
  rw [field_manifestDocument, field_manifestDocument, hip, hport]
  obtain ⟨n, hn⟩ := Int.eq_ofNat_of_zero_le (zero_le_one.trans h.port.1)
  have hlow := h.port.1
  have hhigh := h.port.2
  exact endpoint_eq_ok.mpr ⟨source.1, n, rfl, h.nonempty, h.length, h.address,
    congrArg Json.num hn, by omega, by omega, h.same.trans hn⟩

/-- A capture of one write is loaded with its files and its chunk. -/
theorem load_write (h : w.Readable fmt adapter printer client listener deviceId) :
    load fmt adapter (directory fmt path w) =
      .ok (envelope fmt path w adapter printer client listener deviceId) := by
  simp only [load, bind_eq_ok, pure_eq_ok, checked_eq_ok]
  refine ⟨_, captureBinding_write h, printer, endpoint_write h.toPrinter rfl rfl, some client, ?_,
    listener, endpoint_write h.atListener rfl rfl, deviceId, resolveDevice_eq_ok.mpr h.configured,
    some w.boundary, requireOptionalString_eq_ok.mpr (.inr ⟨_, ?_, rfl, h.boundary⟩), none, ?_,
    none, ?_, ?_⟩
  · have hport : unknownPort fmt (field (manifestDocument fmt w).sortKeys "client_port") = false := by
      have hlow := h.fromClient.port.1
      rw [field_manifestDocument]
      show (w.client.2 == 0) = false
      rw [beq_eq_false_iff_ne]
      omega
    show optionalEndpoint fmt (field (manifestDocument fmt w).sortKeys "client_ip")
      (field (manifestDocument fmt w).sortKeys "client_port") "client" = .ok (some client)
    rw [optionalEndpoint, hport, endpoint_write h.fromClient rfl rfl]
    rfl
  · show field (manifestDocument fmt w).sortKeys "job_boundary_source" = _
    rw [field_manifestDocument]
    rfl
  · show boundaryConfidence fmt (field (manifestDocument fmt w).sortKeys _) = _
    rw [field_manifestDocument]
    rfl
  · show requireOptionalString (field (manifestDocument fmt w).sortKeys _) _ _ = _
    rw [field_manifestDocument]
    rfl
  · have hwarnings : nonEmptyTexts [field (manifestDocument fmt w).sortKeys "capture_error",
        field (manifestDocument fmt w).sortKeys "timeline_error"] = [] := by
      rw [field_manifestDocument, field_manifestDocument]
      rfl
    show ({ envelope fmt path w adapter printer client listener deviceId with
      warnings := nonEmptyTexts [field (manifestDocument fmt w).sortKeys "capture_error",
        field (manifestDocument fmt w).sortKeys "timeline_error"] } : NormalizedEnvelope) = _
    rw [hwarnings]
    rfl

end

end RetailPrintGuard.Ingestion.RchWrites
