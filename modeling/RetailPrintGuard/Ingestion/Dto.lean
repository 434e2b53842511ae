import RetailPrintGuard.Common.Domain
import RetailPrintGuard.Ingestion.Canonical

/-! # Transport-neutral objects of ingestion

One envelope is what an adapter hands to the repository, whatever its source. -/
namespace RetailPrintGuard.Ingestion.Dto
open RetailPrintGuard.Library RetailPrintGuard.Common.Formats RetailPrintGuard.Common.Domain
open RetailPrintGuard.Ingestion.Adapters

inductive SourceKind where
  | retailprintguardCaptureV1 | commercialRchCaptureV1 | commercialRchParsedV1 | printproxyV3
deriving DecidableEq

def SourceKind.value : SourceKind → String
  | .retailprintguardCaptureV1 => "retailprintguard.capture.v1"
  | .commercialRchCaptureV1 => "commercialrchproxy.capture.v1"
  | .commercialRchParsedV1 => "commercialrchproxy.pharsed.v1"
  | .printproxyV3 => "printproxy.archive.v3"

inductive ArtifactRole where
  | requestRaw | responseRaw | responsePreview | receiveTimeline | captureManifest
  | captureReadyMarker | sessionDescriptor | parsedMetadata | parsedCommitMarker | normalizedText
  | technicalText | receiptPdf | sourceMetadata | integrityLedgerRecord
  | integrityLedgerLatestRecord | integrityLedgerHead
deriving DecidableEq

def ArtifactRole.value : ArtifactRole → String
  | .requestRaw => "REQUEST_RAW"
  | .responseRaw => "RESPONSE_RAW"
  | .responsePreview => "RESPONSE_PREVIEW"
  | .receiveTimeline => "RECEIVE_TIMELINE"
  | .captureManifest => "CAPTURE_MANIFEST"
  | .captureReadyMarker => "CAPTURE_READY_MARKER"
  | .sessionDescriptor => "SESSION_DESCRIPTOR"
  | .parsedMetadata => "PARSED_METADATA"
  | .parsedCommitMarker => "PARSED_COMMIT_MARKER"
  | .normalizedText => "NORMALIZED_TEXT"
  | .technicalText => "TECHNICAL_TEXT"
  | .receiptPdf => "RECEIPT_PDF"
  | .sourceMetadata => "SOURCE_METADATA"
  | .integrityLedgerRecord => "INTEGRITY_LEDGER_RECORD"
  | .integrityLedgerLatestRecord => "INTEGRITY_LEDGER_LATEST_RECORD"
  | .integrityLedgerHead => "INTEGRITY_LEDGER_HEAD"

/-- `StreamDirection.value` -/
def streamDirection : Direction → String
  | .clientToDevice => "CLIENT_TO_DEVICE"
  | .deviceToClient => "DEVICE_TO_CLIENT"

/-- What a load raises: a `SourceBusyError` or a `SourceValidationError` with its
message, or an exception no adapter raises itself. -/
inductive LoadError where
  | sourceBusy (message : String)
  | sourceValidation (message : String)
  | other (name : String)
deriving DecidableEq

structure ArtifactSnapshot where
  role : ArtifactRole
  originalPath : String
  sha256 : String
  size : Nat
  content : Bytes
  complete : Bool := true
  mediaType : String := "application/octet-stream"
deriving DecidableEq

structure StreamChunk where
  sequence : Nat
  direction : Direction
  receivedAt : Int
  receivedUnixNs : Option Nat
  forwardedUnixNs : Option Nat
  localWriteDrainUnixNs : Option Nat
  monotonicNs : Option Nat
  jobOffset : Nat
  sessionOffset : Nat
  byteCount : Nat
  sha256 : String
  localWriteDrainCompleted : Option Bool
  forwardStatus : Option String
  error : Option String
  observedSequence : Option Nat := none
  directionSequence : Option Nat := none
  eventKind : String := "data"
  forwardedAt : Option Int := none
deriving DecidableEq

structure NormalizedDocument where
  externalId : String
  documentType : DocumentType
  subtype : Option String
  complete : Bool
  evidence : String
  captureTime : Option Int
  timezone : Option String
  sourceStartOffset : Option Nat
  sourceEndOffset : Option Nat
  sourceFrameIds : List Int
  semantic : Json
  warnings : List String := []
deriving DecidableEq

structure NormalizedEnvelope where
  sourceKey : String
  sourceKind : SourceKind
  sourceInstanceId : String
  deviceId : String
  sourceJobId : String
  sourceSessionId : Option String
  connectionId : Option String
  openedAt : Int
  closedAt : Option Int
  sourceEndpoint : Option Endpoint
  proxyEndpoint : Option Endpoint
  deviceEndpoint : Endpoint
  status : String
  complete : Bool
  boundarySource : Option String
  boundaryConfidence : Option Rat
  deliveryEvidence : Option String
  manifestSha256 : String
  parserVersion : Option String
  artifacts : List ArtifactSnapshot
  chunks : List StreamChunk
  documents : List NormalizedDocument
  metadata : Json
  warnings : List String := []
deriving DecidableEq

/-- The content of the first artifact with a role. -/
def NormalizedEnvelope.content (envelope : NormalizedEnvelope) (role : ArtifactRole) :
    Option Bytes :=
  (envelope.artifacts.find? fun artifact => artifact.role = role).map ArtifactSnapshot.content

def rawRole : Direction → ArtifactRole
  | .clientToDevice => .requestRaw
  | .deviceToClient => .responseRaw

/-- The chunks of a direction, in order. -/
def NormalizedEnvelope.stream (envelope : NormalizedEnvelope) (direction : Direction) :
    List StreamChunk :=
  envelope.chunks.filter fun chunk => chunk.direction = direction

/-! ## The envelope of the canonical adapter -/

def canonicalRole : Canonical.ArtifactRole → ArtifactRole
  | .requestRaw => .requestRaw
  | .responseRaw => .responseRaw
  | .receiveTimeline => .receiveTimeline
  | .sessionDescriptor => .sessionDescriptor
  | .captureManifest => .captureManifest
  | .captureReadyMarker => .captureReadyMarker

def canonicalArtifact (artifact : Canonical.ArtifactSnapshot) : ArtifactSnapshot where
  role := canonicalRole artifact.role
  originalPath := artifact.originalPath
  sha256 := artifact.sha256
  size := artifact.size
  content := artifact.content
  complete := artifact.complete
  mediaType := artifact.mediaType

def canonicalChunk (chunk : Canonical.StreamChunk) : StreamChunk where
  sequence := chunk.sequence
  direction := chunk.direction
  receivedAt := chunk.receivedAt
  receivedUnixNs := none
  forwardedUnixNs := none
  localWriteDrainUnixNs := none
  monotonicNs := chunk.monotonicNs
  jobOffset := chunk.jobOffset
  sessionOffset := chunk.sessionOffset
  byteCount := chunk.byteCount
  sha256 := chunk.sha256
  localWriteDrainCompleted := chunk.localWriteDrainCompleted
  forwardStatus := chunk.forwardStatus
  error := chunk.error
  observedSequence := chunk.observedSequence
  directionSequence := chunk.directionSequence
  eventKind := chunk.eventKind
  forwardedAt := chunk.forwardedAt

def canonicalEnvelope (envelope : Canonical.NormalizedEnvelope) : NormalizedEnvelope where
  sourceKey := envelope.sourceKey
  sourceKind := .retailprintguardCaptureV1
  sourceInstanceId := envelope.sourceInstanceId
  deviceId := envelope.deviceId
  sourceJobId := envelope.sourceJobId
  sourceSessionId := envelope.sourceSessionId
  connectionId := envelope.connectionId
  openedAt := envelope.openedAt
  closedAt := envelope.closedAt
  sourceEndpoint := envelope.sourceEndpoint
  proxyEndpoint := envelope.proxyEndpoint
  deviceEndpoint := envelope.deviceEndpoint
  status := envelope.status
  complete := envelope.complete
  boundarySource := "connection_lifecycle"
  boundaryConfidence := some (4 / 5)
  deliveryEvidence := "LOCAL_SOCKET_FORWARDING_ONLY_PHYSICAL_PRINT_UNCONFIRMED"
  manifestSha256 := envelope.manifestSha256
  parserVersion := none
  artifacts := envelope.artifacts.map canonicalArtifact
  chunks := envelope.chunks.map canonicalChunk
  documents := []
  metadata := envelope.metadata
  warnings := envelope.warnings

end RetailPrintGuard.Ingestion.Dto
