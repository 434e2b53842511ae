import RetailPrintGuard.Library.Checks
import RetailPrintGuard.Ingestion.Adapters
import RetailPrintGuard.Proxy.Spool

/-! # Strict adapter for the native bidirectional spool

A published job directory is read as one envelope, or refused with the message
of the first check that fails. -/
namespace RetailPrintGuard.Ingestion.Canonical
open RetailPrintGuard.Library RetailPrintGuard.Library.Checks RetailPrintGuard.Common.Formats
open RetailPrintGuard.Ingestion.Adapters
open RetailPrintGuard.Proxy.Spool (JobDirectory)

def captureFormat : String := "retailprintguard-bidirectional-v1"
def maxMarkerBytes : Nat := 65536
def maxManifestBytes : Nat := 1048576
def maxSessionBytes : Nat := 1048576
def maxTimelineBytes : Nat := 128 * 1024 * 1024
def maxTimelineLineBytes : Nat := 65536
def maxTimelineEvents : Nat := 100000

/-- `_string_int_map` -/
def stringIntMap (value : Json) (label : String) : Except String (ByDirection Nat) := do
  let source ← mapping value label
  let clientToDevice ← requireInt (field source "client_to_device") (label ++ ".client_to_device")
  let deviceToClient ← requireInt (field source "device_to_client") (label ++ ".device_to_client")
  return { clientToDevice, deviceToClient }

/-- `bytes.splitlines`: a line ends at a line feed, a carriage return, or both. -/
def splitlines : Bytes → List Bytes
  | [] => []
  | 13 :: 10 :: rest => [] :: splitlines rest
  | byte :: rest =>
    if byte = 10 ∨ byte = 13 then [] :: splitlines rest
    else
      match splitlines rest with
      | [] => [[byte]]
      | line :: lines => (byte :: line) :: lines

/-! ## The timeline -/

structure StreamChunk where
  sequence : Nat
  direction : Direction
  receivedAt : Int
  monotonicNs : Nat
  jobOffset : Nat
  sessionOffset : Nat
  byteCount : Nat
  sha256 : String
  localWriteDrainCompleted : Bool
  forwardStatus : String
  error : Option String
  observedSequence : Nat
  directionSequence : Nat
  eventKind : String
  forwardedAt : Int
deriving DecidableEq

structure TimelineState where
  offsets : ByDirection Nat := .const 0
  directionSequences : ByDirection Nat := .const 0
  dataCounts : ByDirection Nat := .const 0
  eofCounts : ByDirection Nat := .const 0
  previousHash : Option String := none
  observedSequences : List Nat := []
  events : List StreamChunk := []
deriving DecidableEq

structure Identity where
  sessionId : String
  jobId : String
  deviceId : String
deriving DecidableEq

def directionNamed (name : String) : Option Direction :=
  if name = "client_to_device" then some .clientToDevice
  else if name = "device_to_client" then some .deviceToClient
  else none

def lineLabel (lineNumber : Nat) : String := "canonical timeline line " ++ toString lineNumber

section
variable (fmt : Codec)

def parseJsonBytes (data : Bytes) (label : String) : Except String Json :=
  match fmt.parseJson data with
  | some value => .ok value
  | none => .error ("invalid JSON in " ++ label)

/-- The event of a line and its hash, which covers it and the hash before it. -/
def readEvent (previousHash : Option String) (lineNumber : Nat) (rawLine : Bytes) :
    Except String (Json × String) := do
  raiseIf (rawLine = [] ∨ maxTimelineLineBytes < rawLine.length)
    ("invalid canonical timeline line " ++ toString lineNumber)
  let value ← parseJsonBytes fmt rawLine (lineLabel lineNumber)
  let event ← mapping value (lineLabel lineNumber)
  let eventHash ← requireSha256 (field event "event_sha256")
    ("timeline[" ++ toString lineNumber ++ "].event_sha256")
  raiseIf (fmt.sha256 (event.erase "event_sha256").dumps ≠ eventHash)
    ("event hash mismatch at timeline line " ++ toString lineNumber)
  raiseIf (field event "previous_event_sha256" ≠ optionalText previousHash)
    ("event hash-chain mismatch at timeline line " ++ toString lineNumber)
  return (event, eventHash)

def checkIdentity (identity : Identity) (event : Json) : Except String Unit := do
  let version ← requireInt (field event "schema_version") "timeline.schema_version" 1
  raiseIf (version ≠ 1) "unsupported canonical timeline schema"
  raiseIf (field event "session_id" ≠ .str identity.sessionId ∨
      field event "job_id" ≠ .str identity.jobId ∨ field event "device_id" ≠ .str identity.deviceId)
    "canonical timeline identity binding mismatch"

/-- Where an event stands: in the session, among what was observed, and in its
direction. -/
structure Position where
  sequence : Nat
  observedSequence : Nat
  direction : Direction
  directionSequence : Nat
deriving DecidableEq

def readPosition (state : TimelineState) (event : Json) : Except String Position := do
  let sequence ← requireInt (field event "sequence") "timeline.sequence"
  raiseIf (sequence ≠ state.events.length)
    "canonical timeline sequence is not contiguous from zero"
  let observedSequence ← requireInt (field event "observed_sequence") "timeline.observed_sequence"
  raiseIf (observedSequence ∈ state.observedSequences) "canonical observed sequence is duplicated"
  let directionName ← requireString (field event "direction") "timeline.direction" 32
  match directionNamed directionName with
  | none => throw ("unsupported canonical direction: " ++ reprText directionName)
  | some direction =>
    let directionSequence ←
      requireInt (field event "direction_sequence") "timeline.direction_sequence"
    raiseIf (directionSequence ≠ state.directionSequences.get direction)
      "canonical direction sequence is not contiguous"
    return { sequence, observedSequence, direction, directionSequence }

/-- What an event says of its stream. -/
structure Extent where
  kind : String
  offset : Nat
  length : Nat
  payloadHash : String
deriving DecidableEq

def readExtent (offset' : Nat) (stream : Bytes) (lineNumber : Nat) (event : Json) :
    Except String Extent := do
  let kind ← requireString (field event "kind") "timeline.kind" 16
  raiseIf (kind ≠ "data" ∧ kind ≠ "eof") ("unsupported canonical event kind: " ++ reprText kind)
  let offset ← requireInt (field event "offset") "timeline.offset"
  let length ← requireInt (field event "length") "timeline.length"
  raiseIf (offset ≠ offset') "canonical timeline has a directional gap or overlap"
  raiseIf (stream.length < offset + length)
    "canonical timeline addresses bytes outside directional RAW"
  raiseIf (kind = "eof" ∧ length ≠ 0) "canonical EOF event carries bytes"
  raiseIf (kind = "data" ∧ length < 1) "canonical data event is empty"
  let payloadHash ← requireSha256 (field event "payload_sha256")
    ("timeline[" ++ toString lineNumber ++ "].payload_sha256")
  raiseIf (fmt.sha256 ((stream.drop offset).take length) ≠ payloadHash)
    ("payload hash mismatch at timeline line " ++ toString lineNumber)
  return { kind, offset, length, payloadHash }

def readChunk (position : Position) (extent : Extent) (event : Json) :
    Except String StreamChunk := do
  let forwarded ← requireBool (field event "forwarded") "timeline.forwarded"
  let forwardedAt ← parseDatetime fmt (field event "forwarded_at_utc") "timeline.forwarded_at_utc"
  let receivedAt ← parseDatetime fmt (field event "captured_at_utc") "timeline.captured_at_utc"
  let monotonicNs ←
    requireInt (field event "captured_monotonic_ns") "timeline.captured_monotonic_ns"
  let error ← requireOptionalString (field event "forward_error") "timeline.forward_error" 4096
  return {
    sequence := position.sequence
    direction := position.direction
    receivedAt
    monotonicNs
    jobOffset := extent.offset
    sessionOffset := extent.offset
    byteCount := extent.length
    sha256 := extent.payloadHash
    localWriteDrainCompleted := forwarded
    forwardStatus := if forwarded then "FORWARDED" else "FAILED"
    error
    observedSequence := position.observedSequence
    directionSequence := position.directionSequence
    eventKind := extent.kind
    forwardedAt }

/-- The state after an event. -/
def TimelineState.add (state : TimelineState) (eventHash : String) (chunk : StreamChunk) :
    TimelineState :=
  let direction := chunk.direction
  { offsets :=
      if chunk.eventKind = "data" then
        state.offsets.set direction (state.offsets.get direction + chunk.byteCount)
      else state.offsets
    directionSequences :=
      state.directionSequences.set direction (state.directionSequences.get direction + 1)
    dataCounts :=
      if chunk.eventKind = "data" then
        state.dataCounts.set direction (state.dataCounts.get direction + 1)
      else state.dataCounts
    eofCounts :=
      if chunk.eventKind = "data" then state.eofCounts
      else state.eofCounts.set direction (state.eofCounts.get direction + 1)
    previousHash := some eventHash
    observedSequences := state.observedSequences ++ [chunk.observedSequence]
    events := state.events ++ [chunk] }

def parseLine (identity : Identity) (streams : ByDirection Bytes) (state : TimelineState)
    (lineNumber : Nat) (rawLine : Bytes) : Except String TimelineState := do
  let (event, eventHash) ← readEvent fmt state.previousHash lineNumber rawLine
  checkIdentity identity event
  let position ← readPosition state event
  let extent ← readExtent fmt (state.offsets.get position.direction)
    (streams.get position.direction) lineNumber event
  let chunk ← readChunk fmt position extent event
  return state.add eventHash chunk

def parseLines (identity : Identity) (streams : ByDirection Bytes) :
    TimelineState → Nat → List Bytes → Except String TimelineState
  | state, _, [] => .ok state
  | state, lineNumber, rawLine :: rest => do
    let state ← parseLine fmt identity streams state lineNumber rawLine
    parseLines identity streams state (lineNumber + 1) rest

end

/-- Bytes without a chunk are accepted of a recovered capture only, and as the
manifest states them. -/
def checkCoverage (manifest : Json) (allowTrailingRaw : Bool)
    (offsets capturedBytes : ByDirection Nat) : Except String Unit :=
  if offsets = capturedBytes then .ok ()
  else do
    raiseIf (allowTrailingRaw = false) "captured byte totals differ from canonical timeline"
    let coveredBytes ←
      stringIntMap (field manifest "timeline_covered_bytes") "manifest.timeline_covered_bytes"
    raiseIf (offsets ≠ coveredBytes ∨ capturedBytes.clientToDevice < offsets.clientToDevice ∨
        capturedBytes.deviceToClient < offsets.deviceToClient)
      "partial recovery timeline coverage differs from its manifest"

/-- What the manifest says of the whole timeline. -/
def checkTotals (streams : ByDirection Bytes) (manifest : Json) (allowTrailingRaw : Bool)
    (state : TimelineState) : Except String Unit := do
  let expectedEvents ← requireInt (field manifest "timeline_events") "manifest.timeline_events" 0
    maxTimelineEvents
  raiseIf (state.events.length ≠ expectedEvents)
    "canonical timeline event count differs from manifest"
  raiseIf (field manifest "last_event_sha256" ≠ optionalText state.previousHash)
    "canonical timeline head differs from manifest"
  let capturedBytes ← stringIntMap (field manifest "captured_bytes") "manifest.captured_bytes"
  raiseIf (capturedBytes ≠
      ⟨streams.clientToDevice.length, streams.deviceToClient.length⟩)
    "captured byte totals differ from directional RAW files"
  checkCoverage manifest allowTrailingRaw state.offsets capturedBytes
  let capturedChunks ← stringIntMap (field manifest "captured_chunks") "manifest.captured_chunks"
  raiseIf (state.dataCounts ≠ capturedChunks)
    "captured chunk totals differ from canonical timeline"
  let eofEvents ← stringIntMap (field manifest "eof_events") "manifest.eof_events"
  raiseIf (state.eofCounts ≠ eofEvents) "EOF totals differ from canonical timeline"
  raiseIf (field manifest "status" = .str "COMPLETE" ∧
      ¬((∀ n ∈ state.observedSequences, n < state.events.length) ∧
        ∀ n ∈ List.range state.events.length, n ∈ state.observedSequences))
    "complete canonical timeline observed sequence is not contiguous from zero"

def parseTimeline (fmt : Codec) (raw : Bytes) (streams : ByDirection Bytes) (identity : Identity)
    (manifest : Json) (allowTrailingRaw : Bool) : Except String (List StreamChunk) := do
  raiseIf (raw ≠ [] ∧ raw.getLast? ≠ some newline) "canonical timeline has a truncated final record"
  raiseIf (maxTimelineEvents < (splitlines raw).length)
    "canonical timeline exceeds the event limit"
  let state ← parseLines fmt identity streams {} 1 (splitlines raw)
  checkTotals streams manifest allowTrailingRaw state
  return state.events

/-! ## The envelope -/

inductive ArtifactRole where
  | requestRaw | responseRaw | receiveTimeline | sessionDescriptor | captureManifest
  | captureReadyMarker
deriving DecidableEq

structure ArtifactSnapshot where
  role : ArtifactRole
  originalPath : String
  sha256 : String
  size : Nat
  content : Bytes
  complete : Bool
  mediaType : String := "application/octet-stream"
deriving DecidableEq

structure NormalizedEnvelope where
  sourceKey : String
  sourceInstanceId : String
  deviceId : String
  sourceJobId : String
  sourceSessionId : String
  connectionId : String
  openedAt : Int
  closedAt : Int
  sourceEndpoint : Endpoint
  proxyEndpoint : Endpoint
  deviceEndpoint : Endpoint
  status : String
  complete : Bool
  manifestSha256 : String
  artifacts : List ArtifactSnapshot
  chunks : List StreamChunk
  metadata : Json
  warnings : List String
deriving DecidableEq

/-- The content of the artifact with a role. -/
def NormalizedEnvelope.content (envelope : NormalizedEnvelope) (role : ArtifactRole) :
    Option Bytes :=
  (envelope.artifacts.find? fun artifact => artifact.role = role).map ArtifactSnapshot.content

/-- `CanonicalCaptureV1Adapter.__init__` -/
structure Adapter where
  sourceInstanceId : String
  devicesByTarget : List (Endpoint × String)
  maxPayloadBytes : Nat := 128 * 1024 * 1024
  positive : 1 ≤ maxPayloadBytes := by decide

def artifactPath (job : JobDirectory) (name : String) : String :=
  job.deviceId ++ "/" ++ job.name ++ "/" ++ name

def readRegularFile (path : String) (content : Bytes) (maxBytes : Nat) : Except String Bytes := do
  raiseIf (maxBytes < content.length)
    ("source artifact exceeds " ++ toString maxBytes ++ " bytes: " ++ path ++ " (" ++
      toString content.length ++ ")")
  return content

section
variable (fmt : Codec)

/-- The value of a file that holds one JSON object. -/
def readJsonObject (path : String) (content : Bytes) (maxBytes : Nat) (label : String) :
    Except String Json := do
  let raw ← readRegularFile path content maxBytes
  let value ← parseJsonBytes fmt raw label
  match value with
  | .obj fields => return .obj fields
  | _ => throw (label ++ " must contain one JSON object")

/-- `_file_snapshot`: the digest of a file that is as the manifest says. -/
def fileSnapshot (path name : String) (files : Json) (content : Bytes) (limit : Nat) :
    Except String String := do
  let label := "manifest.files." ++ name
  let facts ← mapping (field files name) label
  raiseIf (field facts "name" ≠ .str name) ("manifest file name mismatch for " ++ name)
  let size ← requireInt (field facts "size") (label ++ ".size") 0 limit
  let digest ← requireSha256 (field facts "sha256") (label ++ ".sha256")
  let content ← readRegularFile path content limit
  raiseIf (content.length ≠ size) ("manifest size mismatch for " ++ name)
  raiseIf (fmt.sha256 content ≠ digest) ("SHA-256 mismatch for " ++ name)
  return digest

/-- `.ready`: the job, and the digest of its manifest. -/
def readMarker (job : JobDirectory) : Except String (String × String) := do
  let ready ← readJsonObject fmt (artifactPath job ".ready") job.ready maxMarkerBytes
    "canonical ready marker"
  let version ← requireInt (field ready "schema_version") "ready.schema_version" 1
  raiseIf (version ≠ 1) "unsupported canonical ready schema"
  let jobId ← requireUuid fmt (field ready "job_id") "ready.job_id"
  let manifestHash ← requireSha256 (field ready "manifest_sha256") "ready.manifest_sha256"
  return (jobId, manifestHash)

def readManifest (job : JobDirectory) (expectedHash : String) : Except String Json := do
  let manifest ← readJsonObject fmt (artifactPath job "manifest.json") job.manifest
    maxManifestBytes "canonical capture manifest"
  raiseIf (fmt.sha256 job.manifest ≠ expectedHash)
    "canonical ready marker does not authenticate manifest"
  let version ← requireInt (field manifest "schema_version") "manifest.schema_version" 1
  raiseIf (version ≠ 1) "unsupported canonical capture schema"
  raiseIf (field manifest "capture_format" ≠ .str captureFormat)
    ("unsupported canonical capture format: " ++ reprJson (field manifest "capture_format"))
  return manifest

/-- What the session of a manifest says, checked. -/
structure SessionFacts where
  identity : Identity
  parser : String
  sourceEndpoint : Endpoint
  proxyEndpoint : Endpoint
  deviceEndpoint : Endpoint
  openedAt : Int
  closedAt : Int
deriving DecidableEq

def sessionEndpoint (session : Json) (name : String) : Except String Endpoint := do
  let label := "session." ++ name
  let value ← mapping (field session name) label
  endpoint fmt (field value "host") (field value "port") label

def readSession (adapter : Adapter) (job : JobDirectory) (jobId : String) (manifest : Json) :
    Except String (Json × SessionFacts) := do
  let session ← mapping (field manifest "session") "manifest.session"
  let sessionJobId ← requireUuid fmt (field session "job_id") "session.job_id"
  raiseIf (sessionJobId ≠ jobId) "ready and session job identifiers differ"
  let sessionId ← requireUuid fmt (field session "session_id") "session.session_id"
  let deviceId ← requireString (field session "device_id") "session.device_id" 64
  raiseIf (job.deviceId ≠ deviceId) "canonical job path is outside its device namespace"
  let deviceType ← requireString (field session "device_type") "session.device_type" 16
  raiseIf (deviceType ≠ "pos" ∧ deviceType ≠ "rch")
    ("unsupported canonical device type: " ++ reprText deviceType)
  let parser ← requireString (field session "parser") "session.parser" 64
  let sourceEndpoint ← sessionEndpoint fmt session "client_endpoint"
  let proxyEndpoint ← sessionEndpoint fmt session "listener_endpoint"
  let deviceEndpoint ← sessionEndpoint fmt session "target_endpoint"
  let configuredId ← resolveDevice adapter.devicesByTarget deviceEndpoint
  raiseIf (configuredId ≠ deviceId) "canonical device id does not match configured endpoint"
  let openedAt ← parseDatetime fmt (field session "connected_at_utc") "session.connected_at_utc"
  let _ ← requireInt (field session "connected_monotonic_ns") "session.connected_monotonic_ns"
  let closedAt ← parseDatetime fmt (field manifest "closed_at_utc") "manifest.closed_at_utc"
  raiseIf (closedAt < openedAt) "canonical close timestamp precedes connection open"
  let _ ← requireInt (field manifest "closed_monotonic_ns") "manifest.closed_monotonic_ns"
  return (session, {
    identity := { sessionId, jobId, deviceId }
    parser, sourceEndpoint, proxyEndpoint, deviceEndpoint, openedAt, closedAt })

/-- The digests of the four files. -/
structure FileDigests where
  client : String
  device : String
  timeline : String
  session : String
deriving DecidableEq

def readFiles (adapter : Adapter) (job : JobDirectory) (manifest session : Json) :
    Except String FileDigests := do
  let files ← mapping (field manifest "files") "manifest.files"
  let client ← fileSnapshot fmt (artifactPath job "client.raw") "client.raw" files
    job.raw.clientToDevice adapter.maxPayloadBytes
  let device ← fileSnapshot fmt (artifactPath job "device.raw") "device.raw" files
    job.raw.deviceToClient adapter.maxPayloadBytes
  raiseIf (adapter.maxPayloadBytes <
      job.raw.clientToDevice.length + job.raw.deviceToClient.length)
    "combined canonical RAW exceeds ingestion byte limit"
  let timeline ← fileSnapshot fmt (artifactPath job "timeline.jsonl") "timeline.jsonl" files
    job.timeline maxTimelineBytes
  let sessionDigest ← fileSnapshot fmt (artifactPath job "session.json") "session.json" files
    job.session maxSessionBytes
  let document ← parseJsonBytes fmt job.session "canonical session descriptor"
  -- Python's `==` on dictionaries does not look at the order of keys
  raiseIf (document.sortKeys ≠ (Json.obj [("schema_version", .num 1), ("session", session)]).sortKeys)
    "canonical session descriptor differs from manifest"
  return { client, device, timeline, session := sessionDigest }

/-- What a manifest says of the capture, checked. -/
structure CaptureFacts where
  status : String
  transportComplete : Bool
  storageComplete : Bool
  errors : List String
  droppedChunks : Nat
  droppedBytes : Nat
  observedBytes : ByDirection Nat
  observedChunks : ByDirection Nat
  capturedBytes : ByDirection Nat
  capturedChunks : ByDirection Nat
  closeReason : String
deriving DecidableEq

def readErrors : Json → Except String (List String)
  | .arr values => do
    raiseIf (1000 < values.length) "manifest.errors must be a bounded array"
    values.mapM fun value => requireString value "manifest.errors[]" 4096
  | _ => throw "manifest.errors must be a bounded array"

def readFacts (manifest : Json) : Except String CaptureFacts := do
  let status ← requireString (field manifest "status") "manifest.status" 16
  raiseIf (status ≠ "COMPLETE" ∧ status ≠ "PARTIAL")
    ("unsupported canonical capture status: " ++ reprText status)
  let transportComplete ←
    requireBool (field manifest "transport_complete") "manifest.transport_complete"
  let storageComplete ← requireBool (field manifest "storage_complete") "manifest.storage_complete"
  let errors ← readErrors (field manifest "errors")
  let droppedChunks ← requireInt (field manifest "dropped_chunks") "manifest.dropped_chunks"
  let droppedBytes ← requireInt (field manifest "dropped_bytes") "manifest.dropped_bytes"
  let observedBytes ← stringIntMap (field manifest "observed_bytes") "manifest.observed_bytes"
  let observedChunks ← stringIntMap (field manifest "observed_chunks") "manifest.observed_chunks"
  let capturedBytes ← stringIntMap (field manifest "captured_bytes") "manifest.captured_bytes"
  let capturedChunks ← stringIntMap (field manifest "captured_chunks") "manifest.captured_chunks"
  let closeReason ← requireString (field manifest "close_reason") "manifest.close_reason" 128
  return {
    status := status
    transportComplete, storageComplete, errors, droppedChunks, droppedBytes, observedBytes
    observedChunks, capturedBytes, capturedChunks, closeReason }

def CaptureFacts.allowTrailingRaw (facts : CaptureFacts) : Bool :=
  facts.status == "PARTIAL" && !facts.storageComplete &&
    facts.closeReason == "recovered_after_unclean_shutdown"

def CaptureFacts.complete (facts : CaptureFacts) : Bool :=
  facts.status == "COMPLETE" && facts.transportComplete && facts.storageComplete

/-- `{**manifest, "parser": parser}` -/
def withParser (manifest : Json) (parser : String) : Json :=
  match manifest.erase "parser" with
  | .obj fields => .obj (fields ++ [("parser", .str parser)])
  | value => value

def snapshot (job : JobDirectory) (role : ArtifactRole) (name digest : String) (content : Bytes)
    (complete : Bool) (mediaType : String := "application/octet-stream") : ArtifactSnapshot where
  role := role
  originalPath := artifactPath job name
  sha256 := digest
  size := content.length
  content := content
  complete := complete
  mediaType := mediaType

/-- The envelope of a job whose checks have passed. -/
def envelope (adapter : Adapter) (job : JobDirectory) (manifestHash : String) (manifest : Json)
    (descriptor : SessionFacts) (digests : FileDigests) (facts : CaptureFacts)
    (chunks : List StreamChunk) : NormalizedEnvelope where
  sourceKey := "canonical:" ++ adapter.sourceInstanceId ++ ":" ++ descriptor.identity.deviceId ++
    ":" ++ descriptor.identity.jobId ++ ":" ++ manifestHash
  sourceInstanceId := adapter.sourceInstanceId
  deviceId := descriptor.identity.deviceId
  sourceJobId := descriptor.identity.jobId
  sourceSessionId := descriptor.identity.sessionId
  connectionId := descriptor.identity.sessionId
  openedAt := descriptor.openedAt
  closedAt := descriptor.closedAt
  sourceEndpoint := descriptor.sourceEndpoint
  proxyEndpoint := descriptor.proxyEndpoint
  deviceEndpoint := descriptor.deviceEndpoint
  status := facts.status
  complete := facts.complete
  manifestSha256 := manifestHash
  artifacts := [
    snapshot job .requestRaw "client.raw" digests.client job.raw.clientToDevice
      facts.storageComplete,
    snapshot job .responseRaw "device.raw" digests.device job.raw.deviceToClient
      facts.storageComplete,
    snapshot job .receiveTimeline "timeline.jsonl" digests.timeline job.timeline
      facts.storageComplete "application/x-ndjson",
    snapshot job .sessionDescriptor "session.json" digests.session job.session true
      "application/json",
    snapshot job .captureManifest "manifest.json" manifestHash job.manifest true
      "application/json",
    snapshot job .captureReadyMarker ".ready" (fmt.sha256 job.ready) job.ready true
      "application/json"]
  chunks := chunks
  metadata := withParser manifest descriptor.parser
  warnings := facts.errors

/-- A complete capture has no evidence against it. -/
def CaptureFacts.Contradicts (facts : CaptureFacts) : Prop :=
  facts.errors ≠ [] ∨ facts.observedBytes ≠ facts.capturedBytes ∨
    facts.observedChunks ≠ facts.capturedChunks ∨ facts.droppedChunks ≠ 0 ∨ facts.droppedBytes ≠ 0

instance (facts : CaptureFacts) : Decidable facts.Contradicts :=
  inferInstanceAs (Decidable (_ ∨ _ ∨ _ ∨ _ ∨ _))

def load (adapter : Adapter) (job : JobDirectory) : Except String NormalizedEnvelope := do
  let (jobId, manifestHash) ← readMarker fmt job
  let manifest ← readManifest fmt job manifestHash
  let (session, descriptor) ← readSession fmt adapter job jobId manifest
  let digests ← readFiles fmt adapter job manifest session
  let facts ← readFacts manifest
  let chunks ← parseTimeline fmt job.timeline job.raw descriptor.identity manifest
    facts.allowTrailingRaw
  raiseIf (facts.complete = true ∧ facts.Contradicts)
    "canonical COMPLETE status contradicts capture evidence"
  return envelope fmt adapter job manifestHash manifest descriptor digests facts chunks

end

end RetailPrintGuard.Ingestion.Canonical
