import RetailPrintGuard.Common.Formats

/-! # The spool of a session

One writer appends the events of a session to the raw files of its two
directions and to the timeline, and publishes them with a manifest. -/
namespace RetailPrintGuard.Proxy.Spool
open RetailPrintGuard.Library RetailPrintGuard.Common.Formats

/-! ## Sessions and events -/

structure SessionDescriptor where
  sessionId : String
  jobId : String
  deviceId : String
  deviceName : String
  deviceType : String
  parser : String
  clientEndpoint : String × Int
  listenerEndpoint : String × Int
  targetEndpoint : String × Int
  connectedAtUtc : String
  connectedMonotonicNs : Int
deriving DecidableEq

structure CaptureEvent where
  sequence : Nat
  observedSequence : Nat
  directionSequence : Nat
  direction : Direction
  kind : String
  capturedAtUtc : String
  capturedMonotonicNs : Int
  offset : Nat
  payload : Bytes
  forwarded : Bool
  forwardedAtUtc : String
  forwardError : Option String := none
deriving DecidableEq

structure SessionCloseSummary where
  closedAtUtc : String
  closedMonotonicNs : Int
  closeReason : String
  transportComplete : Bool
  observedBytes : ByDirection Nat
  observedChunks : ByDirection Nat
  transportErrors : List String := []
deriving DecidableEq

def endpointDocument (endpoint : String × Int) : Json :=
  .obj [("host", .str endpoint.1), ("port", .num endpoint.2)]

/-- `_descriptor_document` -/
def descriptorDocument (descriptor : SessionDescriptor) : Json :=
  .obj [("session_id", .str descriptor.sessionId), ("job_id", .str descriptor.jobId),
    ("device_id", .str descriptor.deviceId), ("device_name", .str descriptor.deviceName),
    ("device_type", .str descriptor.deviceType), ("parser", .str descriptor.parser),
    ("client_endpoint", endpointDocument descriptor.clientEndpoint),
    ("listener_endpoint", endpointDocument descriptor.listenerEndpoint),
    ("target_endpoint", endpointDocument descriptor.targetEndpoint),
    ("connected_at_utc", .str descriptor.connectedAtUtc),
    ("connected_monotonic_ns", .num descriptor.connectedMonotonicNs)]

def sessionDocument (session : Json) : Json :=
  .obj [("schema_version", .num 1), ("session", session)]

/-! ## Appending -/

/-- A session directory while it is written. -/
structure SessionSpool where
  descriptor : SessionDescriptor
  raw : ByDirection Bytes := .const []
  timeline : Bytes := []
  nextSequence : Nat := 0
  nextDirectionSequence : ByDirection Nat := .const 0
  capturedBytes : ByDirection Nat := .const 0
  capturedChunks : ByDirection Nat := .const 0
  eofEvents : ByDirection Nat := .const 0
  timelineEvents : Nat := 0
  previousEventSha256 : Option String := none
  errors : List String := []
  closed : Bool := false
deriving DecidableEq

/-- A write of an append that fails after some bytes, with the exception as the
worker prints it. -/
inductive WriteFault where
  | raw (written : Nat) (error : String)
  | timeline (written : Nat) (error : String)
deriving DecidableEq

section
variable (fmt : Codec)

def eventBody (descriptor : SessionDescriptor) (previous : Option String) (event : CaptureEvent) :
    Json :=
  .obj [("schema_version", .num 1), ("session_id", .str descriptor.sessionId),
    ("job_id", .str descriptor.jobId), ("device_id", .str descriptor.deviceId),
    ("sequence", .num event.sequence), ("observed_sequence", .num event.observedSequence),
    ("direction_sequence", .num event.directionSequence),
    ("direction", .str event.direction.value), ("kind", .str event.kind),
    ("captured_at_utc", .str event.capturedAtUtc),
    ("captured_monotonic_ns", .num event.capturedMonotonicNs), ("offset", .num event.offset),
    ("length", .num event.payload.length), ("payload_sha256", .str (fmt.sha256 event.payload)),
    ("forwarded", .bool event.forwarded), ("forwarded_at_utc", .str event.forwardedAtUtc),
    ("forward_error", optionalText event.forwardError),
    ("previous_event_sha256", optionalText previous)]

def eventSha256 (descriptor : SessionDescriptor) (previous : Option String)
    (event : CaptureEvent) : String := fmt.sha256 (eventBody fmt descriptor previous event).dumps

/-- `\x7b**event_body, "event_sha256": event_sha256\x7d` -/
def timelineEntry (descriptor : SessionDescriptor) (previous : Option String)
    (event : CaptureEvent) : Json :=
  match eventBody fmt descriptor previous event with
  | .obj fields => .obj (fields ++ [("event_sha256", .str (eventSha256 fmt descriptor previous event))])
  | body => body

def timelineLine (descriptor : SessionDescriptor) (previous : Option String)
    (event : CaptureEvent) : Bytes :=
  (timelineEntry fmt descriptor previous event).dumps ++ [newline]

/-- The checks of `_SessionSpool.append`, as the exception they raise. -/
def appendError (spool : SessionSpool) (event : CaptureEvent) : Option String :=
  let expectedDirection := spool.nextDirectionSequence.get event.direction
  let expectedOffset := spool.capturedBytes.get event.direction
  if spool.closed then some "CaptureError: capture session is already closed"
  else if event.sequence ≠ spool.nextSequence then
    some ("CaptureError: timeline sequence mismatch: expected " ++ toString spool.nextSequence ++
      ", got " ++ toString event.sequence)
  else if event.directionSequence ≠ expectedDirection then
    some ("CaptureError: direction sequence mismatch: expected " ++ toString expectedDirection ++
      ", got " ++ toString event.directionSequence)
  else if event.offset ≠ expectedOffset then
    some ("CaptureError: stream offset mismatch: expected " ++ toString expectedOffset ++
      ", got " ++ toString event.offset)
  else if event.kind ≠ "data" ∧ event.kind ≠ "eof" then
    some ("CaptureError: unsupported capture event kind: " ++ event.kind)
  else if event.kind = "eof" ∧ event.payload ≠ [] then
    some "CaptureError: EOF event cannot carry a payload"
  else none

/-- The bytes of the event are on disk: count it. -/
def SessionSpool.count (spool : SessionSpool) (event : CaptureEvent) : SessionSpool :=
  let direction := event.direction
  { spool with
    previousEventSha256 := some (eventSha256 fmt spool.descriptor spool.previousEventSha256 event)
    nextSequence := spool.nextSequence + 1
    nextDirectionSequence :=
      spool.nextDirectionSequence.set direction (spool.nextDirectionSequence.get direction + 1)
    timelineEvents := spool.timelineEvents + 1
    capturedBytes :=
      if event.kind = "data" then
        spool.capturedBytes.set direction
          (spool.capturedBytes.get direction + event.payload.length)
      else spool.capturedBytes
    capturedChunks :=
      if event.kind = "data" then
        spool.capturedChunks.set direction (spool.capturedChunks.get direction + 1)
      else spool.capturedChunks
    eofEvents :=
      if event.kind = "data" then spool.eofEvents
      else spool.eofEvents.set direction (spool.eofEvents.get direction + 1) }

def SessionSpool.writeRaw (spool : SessionSpool) (direction : Direction) (bytes : Bytes) :
    SessionSpool :=
  { spool with raw := spool.raw.set direction (spool.raw.get direction ++ bytes) }

def SessionSpool.writeTimeline (spool : SessionSpool) (bytes : Bytes) : SessionSpool :=
  { spool with timeline := spool.timeline ++ bytes }

/-- `append`: the directory after it, and the exception it raised. -/
def append (spool : SessionSpool) (event : CaptureEvent) (fault : Option WriteFault) :
    SessionSpool × Option String :=
  match appendError spool event with
  | some error => (spool, some error)
  | none =>
    let line := timelineLine fmt spool.descriptor spool.previousEventSha256 event
    let written := spool.writeRaw event.direction event.payload
    match fault with
    | some (.raw count error) =>
      if event.payload = [] then ((spool.writeTimeline line).count fmt event, none)
      else (spool.writeRaw event.direction (event.payload.take count), some error)
    | some (.timeline count error) => (written.writeTimeline (line.take count), some error)
    | none => ((written.writeTimeline line).count fmt event, none)

/-- `mark_error` -/
def SessionSpool.markError (spool : SessionSpool) (error : String) : SessionSpool :=
  { spool with errors := spool.errors ++ [String.ofList (error.toList.take 1000)] }

/-- The worker's turn on an event. -/
def handleEvent (spool : SessionSpool) (event : CaptureEvent) (fault : Option WriteFault) :
    SessionSpool :=
  match append fmt spool event fault with
  | (spool, none) => spool
  | (spool, some error) => spool.markError ("capture write failed: " ++ error)

/-! ## Publishing -/

/-- A job directory as it is published: its place and the bytes of its files. -/
structure JobDirectory where
  deviceId : String
  name : String
  raw : ByDirection Bytes
  timeline : Bytes
  session : Bytes
  manifest : Bytes
  ready : Bytes
deriving DecidableEq

/-- `_file_facts` -/
def fileFacts (name : String) (content : Bytes) : Json :=
  .obj [("name", .str name), ("size", .num content.length), ("sha256", .str (fmt.sha256 content))]

def filesDocument (raw : ByDirection Bytes) (timeline session : Bytes) : Json :=
  .obj [("client.raw", fileFacts fmt "client.raw" raw.clientToDevice),
    ("device.raw", fileFacts fmt "device.raw" raw.deviceToClient),
    ("timeline.jsonl", fileFacts fmt "timeline.jsonl" timeline),
    ("session.json", fileFacts fmt "session.json" session)]

/-- The bytes of `session.json`. -/
def sessionBytes (descriptor : SessionDescriptor) : Bytes :=
  (sessionDocument (descriptorDocument descriptor)).dumps ++ [newline]

structure Closing where
  summary : SessionCloseSummary
  captureErrors : List String := []
  droppedChunks : Nat := 0
  droppedBytes : Nat := 0
deriving DecidableEq

def SessionSpool.allErrors (spool : SessionSpool) (closing : Closing) : List String :=
  spool.errors ++ closing.captureErrors ++ closing.summary.transportErrors

def SessionSpool.byteComplete (spool : SessionSpool) (closing : Closing) : Bool :=
  closing.summary.observedBytes == spool.capturedBytes

def SessionSpool.chunkComplete (spool : SessionSpool) (closing : Closing) : Bool :=
  closing.summary.observedChunks == spool.capturedChunks

def SessionSpool.complete (spool : SessionSpool) (closing : Closing) : Bool :=
  closing.summary.transportComplete && spool.byteComplete closing && spool.chunkComplete closing &&
    (spool.allErrors closing).isEmpty && closing.droppedChunks == 0

def SessionSpool.storageComplete (spool : SessionSpool) (closing : Closing) : Bool :=
  spool.byteComplete closing && spool.chunkComplete closing && spool.errors.isEmpty &&
    closing.captureErrors.isEmpty && closing.droppedChunks == 0

def SessionSpool.status (spool : SessionSpool) (closing : Closing) : String :=
  if spool.complete closing then "COMPLETE" else "PARTIAL"

def SessionSpool.manifest (spool : SessionSpool) (closing : Closing) : Json :=
  .obj [("schema_version", .num 1),
    ("capture_format", .str "retailprintguard-bidirectional-v1"),
    ("session", descriptorDocument spool.descriptor),
    ("closed_at_utc", .str closing.summary.closedAtUtc),
    ("closed_monotonic_ns", .num closing.summary.closedMonotonicNs),
    ("close_reason", .str closing.summary.closeReason),
    ("status", .str (spool.status closing)),
    ("transport_complete", .bool closing.summary.transportComplete),
    ("storage_complete", .bool (spool.storageComplete closing)),
    ("observed_bytes", countDocument closing.summary.observedBytes),
    ("observed_chunks", countDocument closing.summary.observedChunks),
    ("captured_bytes", countDocument spool.capturedBytes),
    ("captured_chunks", countDocument spool.capturedChunks),
    ("eof_events", countDocument spool.eofEvents),
    ("timeline_events", .num spool.timelineEvents),
    ("last_event_sha256", optionalText spool.previousEventSha256),
    ("dropped_chunks", .num closing.droppedChunks),
    ("dropped_bytes", .num closing.droppedBytes),
    ("errors", .arr ((spool.allErrors closing).map .str)),
    ("files", filesDocument fmt spool.raw spool.timeline (sessionBytes spool.descriptor))]

def readyDocument (jobId manifestSha256 : String) : Json :=
  .obj [("schema_version", .num 1), ("job_id", .str jobId),
    ("manifest_sha256", .str manifestSha256)]

/-- `_publish_ready` -/
def readyBytes (jobId : String) (manifest : Bytes) : Bytes :=
  (readyDocument jobId (fmt.sha256 manifest)).dumps ++ [newline]

/-- The name of the directory: the printed time without separators, and the job. -/
def directoryName (descriptor : SessionDescriptor) : String :=
  let stamp := descriptor.connectedAtUtc.toList.filter fun c => c != ':' && c != '-' && c != '.'
  String.ofList (stamp.flatMap fun c => if c = 'Z' then ['Z', '_'] else [c]) ++ descriptor.jobId

/-- `finalize`, up to the published directory. -/
def finalize (spool : SessionSpool) (closing : Closing) : JobDirectory :=
  let manifest := (spool.manifest fmt closing).dumps ++ [newline]
  { deviceId := spool.descriptor.deviceId
    name := directoryName spool.descriptor
    raw := spool.raw
    timeline := spool.timeline
    session := sessionBytes spool.descriptor
    manifest
    ready := readyBytes fmt spool.descriptor.jobId manifest }

end

end RetailPrintGuard.Proxy.Spool
