import RetailPrintGuard.Ingestion.Dto

/-! # Strict read-only adapter for commercialRCHproxy captures -/
namespace RetailPrintGuard.Ingestion.Rch
open RetailPrintGuard.Library RetailPrintGuard.Library.Checks RetailPrintGuard.Common.Formats
open RetailPrintGuard.Ingestion.Adapters RetailPrintGuard.Ingestion.Dto
open RetailPrintGuard.Ingestion.Canonical (readRegularFile readJsonObject parseJsonBytes splitlines)

def maxMarkerBytes : Nat := 65536
def maxManifestBytes : Nat := 1048576
def maxTimelineLineBytes : Nat := 65536
def captureSchema : String := SourceKind.commercialRchCaptureV1.value

/-- `re.compile(r"^[0-9]\{4,32}$")` -/
def isJobCode (text : String) : Bool :=
  4 ≤ text.length && text.length ≤ 32 && text.toList.all fun c => '0' ≤ c && c ≤ '9'

/-- A job directory: its path, its name and the files in it. -/
structure SourceDirectory where
  path : String
  name : String
  files : List (String × Bytes)
deriving DecidableEq

namespace SourceDirectory

def pathOf (directory : SourceDirectory) (name : String) : String := directory.path ++ "/" ++ name

/-- `safe_child`: the name of a file in the directory. -/
def safeChild (name : Json) : Except String String :=
  match name with
  | .str text =>
    if text = "" ∨ text = "." ∨ text = ".." ∨ '/' ∈ text.toList ∨ '\x00' ∈ text.toList then
      .error ("unsafe artifact name: " ++ reprText text)
    else .ok text
  | value => .error ("unsafe artifact name: " ++ reprJson value)

def read (directory : SourceDirectory) (name : String) (maxBytes : Nat) : Except String Bytes :=
  match directory.files.lookup name with
  | none => .error ("source path escapes or is missing: " ++ directory.pathOf name)
  | some content => readRegularFile (directory.pathOf name) content maxBytes

end SourceDirectory

section
variable (fmt : Codec)

/-- `_match_digest` -/
def matchDigest (data : Bytes) (expected : Json) (label : String) : Except String String := do
  let digest ← requireSha256 expected label
  raiseIf (fmt.sha256 data ≠ digest) ("SHA-256 mismatch for " ++ label)
  return digest

def requireOptionalInt (value : Json) (label : String) : Except String (Option Nat) :=
  match value with
  | .null => .ok none
  | value => (requireInt value label).map some

def parseOptionalDatetime (value : Json) (label : String) : Except String (Option Int) :=
  match value with
  | .null => .ok none
  | value => (parseDatetime fmt value label).map some

/-- The port is `None` or compares equal to 0. -/
def unknownPort : Json → Bool
  | .null => true
  | .num n => n == 0
  | .bool b => !b
  | .float (.finite text) => fmt.floatValue text == 0
  | _ => false

def optionalEndpoint (ip port : Json) (label : String) : Except String (Option Endpoint) :=
  if unknownPort fmt port then do
    let text ← requireString ip (label ++ ".ip") 45
    raiseIf (fmt.ipv4Address text = none) (label ++ ".ip must be an IPv4 address")
    return none
  else (endpoint fmt ip port label).map some

/-! ## The timeline -/

structure TimelineState where
  previousSequence : Nat := 0
  directionOffsets : ByDirection Nat := .const 0
  sessionEnds : ByDirection (Option Nat) := .const none
  events : List StreamChunk := []

def directionNamed (value : Json) : Except String Direction :=
  if value = .str "CLIENT -> RCH" then .ok .clientToDevice
  else if value = .str "RCH -> CLIENT" then .ok .deviceToClient
  else .error ("unsupported timeline direction: " ++ reprJson value)

/-- Where an event stands. -/
structure Position where
  sequence : Nat
  direction : Direction
  offset : Nat
  sessionOffset : Nat
  length : Nat

def readPosition (streams : ByDirection Bytes) (timelineComplete : Bool) (state : TimelineState)
    (line : String) (value : Json) : Except String Position := do
  let sequence ← requireInt (field value "sequence") ("timeline[" ++ line ++ "].sequence") 1
  raiseIf (sequence ≤ state.previousSequence) "timeline sequence is not strictly increasing"
  raiseIf (timelineComplete = true ∧ sequence ≠ state.previousSequence + 1)
    "complete timeline sequence is not contiguous"
  let direction ← directionNamed (field value "direction")
  let offset ← requireInt (field value "job_offset") ("timeline[" ++ line ++ "].job_offset")
  let sessionOffset ←
    requireInt (field value "session_offset") ("timeline[" ++ line ++ "].session_offset")
  let length ← requireInt (field value "byte_count") ("timeline[" ++ line ++ "].byte_count") 1
  raiseIf ((streams.get direction).length < offset + length)
    ("timeline line " ++ line ++ " addresses bytes outside RAW")
  raiseIf (timelineComplete = true ∧ offset ≠ state.directionOffsets.get direction)
    "complete timeline has a directional offset gap or overlap"
  raiseIf (timelineComplete = true ∧ state.sessionEnds.get direction ≠ none ∧
      some sessionOffset ≠ state.sessionEnds.get direction)
    "complete timeline has a session offset gap or overlap"
  return { sequence, direction, offset, sessionOffset, length }

def optionalBool (value : Json) (message : String) : Except String (Option Bool) :=
  match value with
  | .null => .ok none
  | .bool b => .ok (some b)
  | _ => .error message

def readChunk (streams : ByDirection Bytes) (sessionId connectionId : String) (position : Position)
    (line : String) (value : Json) : Except String StreamChunk := do
  let stream := streams.get position.direction
  let digest ← matchDigest fmt ((stream.drop position.offset).take position.length)
    (field value "sha256") ("timeline[" ++ line ++ "].sha256")
  raiseIf (field value "session_id" ≠ .str sessionId ∨
      field value "connection_id" ≠ .str connectionId)
    "timeline session/connection binding mismatch"
  let localDrain ← optionalBool (field value "local_write_drain_completed")
    "timeline local_write_drain_completed must be boolean or null"
  let label (name : String) := "timeline[" ++ line ++ "]." ++ name
  let receivedAt ← parseDatetime fmt (field value "received_at") (label "received_at")
  let receivedUnixNs ←
    requireOptionalInt (field value "received_unix_ns") (label "received_unix_ns")
  let forwardedUnixNs ←
    requireOptionalInt (field value "forwarded_unix_ns") (label "forwarded_unix_ns")
  let localWriteDrainUnixNs ← requireOptionalInt (field value "local_write_drain_unix_ns")
    (label "local_write_drain_unix_ns")
  let monotonicNs ← requireOptionalInt (field value "monotonic_ns") (label "monotonic_ns")
  let forwardStatus ←
    requireOptionalString (field value "forward_status") (label "forward_status") 128
  let error ← requireOptionalString (field value "error") (label "error") 4096
  return {
    sequence := position.sequence
    direction := position.direction
    receivedAt, receivedUnixNs, forwardedUnixNs, localWriteDrainUnixNs, monotonicNs
    jobOffset := position.offset
    sessionOffset := position.sessionOffset
    byteCount := position.length
    sha256 := digest
    localWriteDrainCompleted := localDrain
    forwardStatus, error }

/-- The state after an event. -/
def TimelineState.add (state : TimelineState) (chunk : StreamChunk) : TimelineState where
  previousSequence := chunk.sequence
  directionOffsets :=
    state.directionOffsets.set chunk.direction (chunk.jobOffset + chunk.byteCount)
  sessionEnds :=
    state.sessionEnds.set chunk.direction (some (chunk.sessionOffset + chunk.byteCount))
  events := state.events ++ [chunk]

def parseLine (streams : ByDirection Bytes) (timelineComplete : Bool)
    (sessionId connectionId : String) (state : TimelineState) (lineNumber : Nat)
    (rawLine : Bytes) : Except String TimelineState := do
  let line := toString lineNumber
  raiseIf (rawLine = [] ∨ maxTimelineLineBytes < rawLine.length)
    ("invalid timeline record size at line " ++ line)
  let value ← parseJsonBytes fmt rawLine ("timeline line " ++ line)
  let value ← mapping value ("timeline line " ++ line)
  let position ← readPosition streams timelineComplete state line value
  let chunk ← readChunk fmt streams sessionId connectionId position line value
  return state.add chunk

def parseLines (streams : ByDirection Bytes) (timelineComplete : Bool)
    (sessionId connectionId : String) :
    TimelineState → Nat → List Bytes → Except String TimelineState
  | state, _, [] => .ok state
  | state, lineNumber, rawLine :: rest => do
    let state ←
      parseLine fmt streams timelineComplete sessionId connectionId state lineNumber rawLine
    parseLines streams timelineComplete sessionId connectionId state (lineNumber + 1) rest

/-- `_parse_timeline` -/
def parseTimeline (content : Bytes) (streams : ByDirection Bytes) (expectedCount : Nat)
    (timelineComplete : Bool) (sessionId connectionId : String) :
    Except String (List StreamChunk) := do
  raiseIf (content ≠ [] ∧ content.getLast? ≠ some newline)
    "commercialRCHproxy timeline has a truncated final record"
  let state ← parseLines fmt streams timelineComplete sessionId connectionId {} 1
    (splitlines content)
  raiseIf (state.events.length ≠ expectedCount)
    ("timeline event count mismatch: manifest=" ++ toString expectedCount ++ ", observed=" ++
      toString state.events.length)
  raiseIf (timelineComplete = true ∧
      state.directionOffsets ≠ ⟨streams.clientToDevice.length, streams.deviceToClient.length⟩)
    "complete timeline does not cover both directional RAW files"
  return state.events

/-! ## The capture -/

/-- `.ready`: its bytes, and the digest of the manifest it is for. -/
def readMarker (directory : SourceDirectory) : Except String (Bytes × String) := do
  let raw ← directory.read ".ready" maxMarkerBytes
  let ready ← readJsonObject fmt (directory.pathOf ".ready") raw maxMarkerBytes
    "commercialRCHproxy ready marker"
  raiseIf (field ready "schema" ≠ .str captureSchema)
    ("unsupported commercialRCHproxy capture schema: " ++ reprJson (field ready "schema"))
  raiseIf (field ready "codice_doc" ≠ .str directory.name)
    "ready marker CODICE_DOC does not match its directory"
  let manifestHash ← requireSha256 (field ready "manifest_sha256") "ready.manifest_sha256"
  let _ ← parseDatetime fmt (field ready "published_at") "ready.published_at"
  return (raw, manifestHash)

def readManifest (directory : SourceDirectory) (expectedHash : String) :
    Except String (Bytes × Json) := do
  let raw ← directory.read "manifest.json" maxManifestBytes
  let manifest ← readJsonObject fmt (directory.pathOf "manifest.json") raw maxManifestBytes
    "commercialRCHproxy capture manifest"
  raiseIf (fmt.sha256 raw ≠ expectedHash) "ready marker does not authenticate capture manifest"
  raiseIf (field manifest "schema" ≠ .str captureSchema)
    ("unsupported commercialRCHproxy capture schema: " ++ reprJson (field manifest "schema"))
  raiseIf (field manifest "codice_doc" ≠ .str directory.name)
    "capture manifest CODICE_DOC does not match its directory"
  return (raw, manifest)

/-- What a manifest says of the capture, checked. -/
structure CaptureFacts where
  jobId : String
  sessionId : String
  connectionId : String
  openedAt : Int
  closedAt : Int
  requestSize : Nat
  responseSize : Nat
  rawComplete : Bool
  timelineComplete : Bool
  timelineCount : Nat
  status : String
deriving DecidableEq

def readFacts (maxPayloadBytes : Nat) (manifest : Json) : Except String CaptureFacts := do
  let jobId ← requireUuid fmt (field manifest "job_id") "manifest.job_id"
  let sessionId ← requireString (field manifest "session_id") "manifest.session_id" 128
  let connectionId ← requireString (field manifest "connection_id") "manifest.connection_id" 128
  let openedAt ← parseDatetime fmt (field manifest "opened_at") "manifest.opened_at"
  let closedAt ← parseDatetime fmt (field manifest "closed_at") "manifest.closed_at"
  raiseIf (closedAt < openedAt) "capture close timestamp precedes open timestamp"
  let _ ← requireOptionalInt (field manifest "opened_unix_ns") "manifest.opened_unix_ns"
  let requestSize ←
    requireInt (field manifest "request_size") "manifest.request_size" 0 maxPayloadBytes
  let responseSize ←
    requireInt (field manifest "response_size") "manifest.response_size" 0 maxPayloadBytes
  raiseIf (maxPayloadBytes < requestSize + responseSize)
    "combined directional RAW exceeds configured ingestion limit"
  let rawComplete ← requireBool (field manifest "raw_complete") "manifest.raw_complete"
  let timelineComplete ←
    requireBool (field manifest "timeline_complete") "manifest.timeline_complete"
  let timelineCount ← requireInt (field manifest "timeline_event_count")
    "manifest.timeline_event_count" 0 100000
  let status ← requireString (field manifest "status") "manifest.status" 128
  raiseIf (status ≠ "ready" ∧ status ≠ "ready_capture_incomplete")
    ("unsupported capture publication status: " ++ reprText status)
  return {
    jobId, sessionId, connectionId, openedAt, closedAt, requestSize, responseSize, rawComplete
    timelineComplete, timelineCount
    status := status }

/-- A file the manifest names: its name, its content and its digest. -/
structure NamedFile where
  name : String
  content : Bytes
  digest : String
deriving DecidableEq

def readNamed (directory : SourceDirectory) (files hashes : Json) (key : String) (limit : Nat) :
    Except String NamedFile := do
  let name ← SourceDirectory.safeChild (field files key)
  let content ← directory.read name limit
  let digest ← matchDigest fmt content (field hashes key) ("manifest.sha256." ++ key)
  return { name, content, digest }

structure CaptureFiles where
  requestRaw : NamedFile
  responseRaw : NamedFile
  timeline : NamedFile
deriving DecidableEq

def readFiles (directory : SourceDirectory) (maxPayloadBytes : Nat) (manifest : Json)
    (facts : CaptureFacts) : Except String CaptureFiles := do
  let files ← mapping (field manifest "files") "manifest.files"
  let hashes ← mapping (field manifest "sha256") "manifest.sha256"
  let requestRaw ← readNamed fmt directory files hashes "request_raw" maxPayloadBytes
  let responseRaw ← readNamed fmt directory files hashes "response_raw" maxPayloadBytes
  let timeline ← readNamed fmt directory files hashes "timeline"
    (min maxPayloadBytes (128 * 1024 * 1024))
  raiseIf (requestRaw.content.length ≠ facts.requestSize)
    "request RAW size differs from capture manifest"
  raiseIf (responseRaw.content.length ≠ facts.responseSize)
    "response RAW size differs from capture manifest"
  return { requestRaw, responseRaw, timeline }

/-- What `_capture_binding` returns. -/
structure Binding where
  manifest : Json
  facts : CaptureFacts
  manifestHash : String
  artifacts : List ArtifactSnapshot
  chunks : List StreamChunk
deriving DecidableEq

def snapshot (directory : SourceDirectory) (role : ArtifactRole) (file : NamedFile)
    (complete : Bool) (mediaType : String := "application/octet-stream") : ArtifactSnapshot where
  role := role
  originalPath := directory.pathOf file.name
  sha256 := file.digest
  size := file.content.length
  content := file.content
  complete := complete
  mediaType := mediaType

def CaptureFiles.streams (files : CaptureFiles) : ByDirection Bytes :=
  ⟨files.requestRaw.content, files.responseRaw.content⟩

/-- `_capture_binding` -/
def captureBinding (directory : SourceDirectory) (maxPayloadBytes : Nat) (loadPayloads : Bool) :
    Except String Binding := do
  raiseIf (isJobCode directory.name = false)
    ("unsafe commercialRCHproxy job code: " ++ reprText directory.name)
  let (ready, manifestHash) ← readMarker fmt directory
  let (manifestRaw, manifest) ← readManifest fmt directory manifestHash
  let facts ← readFacts fmt maxPayloadBytes manifest
  let files ← readFiles fmt directory maxPayloadBytes manifest facts
  if loadPayloads then do
    let chunks ← parseTimeline fmt files.timeline.content files.streams facts.timelineCount
      facts.timelineComplete facts.sessionId facts.connectionId
    return {
      manifest, facts, manifestHash
      artifacts := [
        snapshot directory .requestRaw files.requestRaw facts.rawComplete,
        snapshot directory .responseRaw files.responseRaw facts.rawComplete,
        snapshot directory .receiveTimeline files.timeline facts.timelineComplete
          "application/x-ndjson",
        snapshot directory .captureManifest ⟨"manifest.json", manifestRaw, manifestHash⟩ true
          "application/json",
        snapshot directory .captureReadyMarker ⟨".ready", ready, fmt.sha256 ready⟩ true
          "application/json"]
      chunks }
  else return { manifest, facts, manifestHash, artifacts := [], chunks := [] }

/-- `RCHCaptureV1Adapter.__init__` -/
structure Adapter where
  sourceInstanceId : String
  devicesByTarget : List (Endpoint × String)
  maxPayloadBytes : Nat := 128 * 1024 * 1024
  positive : 1 ≤ maxPayloadBytes := by decide

/-- Integers whose nearest floating-point number is infinite. -/
def floatOverflow : Nat := 2 ^ 1024 - 2 ^ 970

/-- `_boundary_confidence` -/
def boundaryConfidence (value : Json) : Except LoadError (Option Rat) :=
  let numeric := "manifest.job_boundary_confidence must be numeric or null"
  let between := "manifest.job_boundary_confidence must be between 0 and 1"
  match value with
  | .null => .ok none
  | .num n =>
    if floatOverflow ≤ n.natAbs then .error (.other "OverflowError")
    else if 0 ≤ n ∧ n ≤ 1 then .ok (some n)
    else .error (.sourceValidation between)
  | .float (.finite text) =>
    if 0 ≤ fmt.floatValue text ∧ fmt.floatValue text ≤ 1 then .ok (some (fmt.floatValue text))
    else .error (.sourceValidation between)
  | .float _ => .error (.sourceValidation between)
  | _ => .error (.sourceValidation numeric)

/-- The texts among the values that are not empty. -/
def nonEmptyTexts (values : List Json) : List String :=
  values.filterMap fun
    | .str text => if text = "" then none else some text
    | _ => none

/-- A check of the adapters in a load. -/
def checked {α : Type} (x : Except String α) : Except LoadError α :=
  x.mapError .sourceValidation

theorem checked_eq_ok {α : Type} {x : Except String α} {a : α} : checked x = .ok a ↔ x = .ok a := by
  cases x <;> simp [checked, Except.mapError]

def refuse {α : Type} (message : String) : Except LoadError α := .error (.sourceValidation message)

def refuseIf (condition : Prop) [Decidable condition] (message : String) : Except LoadError Unit :=
  raiseIf condition (.sourceValidation message)

theorem refuseIf_eq_ok {condition : Prop} [Decidable condition] {message : String} {u : Unit} :
    refuseIf condition message = .ok u ↔ ¬condition := raiseIf_eq_ok

/-- `RCHCaptureV1Adapter.load` -/
def load (adapter : Adapter) (directory : SourceDirectory) : Except LoadError NormalizedEnvelope := do
  let binding ← checked (captureBinding fmt directory adapter.maxPayloadBytes true)
  let manifest := binding.manifest
  let facts := binding.facts
  let deviceEndpoint ← checked
    (endpoint fmt (field manifest "printer_ip") (field manifest "printer_port") "printer")
  let sourceEndpoint ← checked
    (optionalEndpoint fmt (field manifest "client_ip") (field manifest "client_port") "client")
  let proxyEndpoint ← checked
    (endpoint fmt (field manifest "listen_ip") (field manifest "listen_port") "proxy")
  let deviceId ← checked (resolveDevice adapter.devicesByTarget deviceEndpoint)
  let boundarySource ← checked (requireOptionalString (field manifest "job_boundary_source")
    "manifest.job_boundary_source" 128)
  let boundaryConfidence ← boundaryConfidence fmt (field manifest "job_boundary_confidence")
  let deliveryEvidence ← checked (requireOptionalString (field manifest "delivery_evidence")
    "manifest.delivery_evidence" 128)
  return {
    sourceKey := "rch-capture:" ++ adapter.sourceInstanceId ++ ":" ++ facts.jobId ++ ":" ++
      binding.manifestHash
    sourceKind := .commercialRchCaptureV1
    sourceInstanceId := adapter.sourceInstanceId
    deviceId
    sourceJobId := facts.jobId
    sourceSessionId := facts.sessionId
    connectionId := facts.connectionId
    openedAt := facts.openedAt
    closedAt := facts.closedAt
    sourceEndpoint, proxyEndpoint, deviceEndpoint
    status := facts.status
    complete := facts.rawComplete && facts.timelineComplete
    boundarySource, boundaryConfidence, deliveryEvidence
    manifestSha256 := binding.manifestHash
    parserVersion := none
    artifacts := binding.artifacts
    chunks := binding.chunks
    documents := []
    metadata := manifest
    warnings := nonEmptyTexts [field manifest "capture_error", field manifest "timeline_error"] }

end

end RetailPrintGuard.Ingestion.Rch
