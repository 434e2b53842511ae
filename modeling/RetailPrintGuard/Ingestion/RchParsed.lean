import RetailPrintGuard.Ingestion.Rch

/-! # Strict read-only adapter for what commercialRCHproxy parsed

A job directory with its capture, and the directory its parser wrote. -/
namespace RetailPrintGuard.Ingestion.RchParsed
open RetailPrintGuard.Library RetailPrintGuard.Library.Checks RetailPrintGuard.Common.Formats
open RetailPrintGuard.Ingestion.Adapters RetailPrintGuard.Ingestion.Dto RetailPrintGuard.Ingestion.Rch
open RetailPrintGuard.Ingestion.Canonical (readJsonObject)

def parsedSchema : String := SourceKind.commercialRchParsedV1.value
def maxParsedBytes : Nat := 32 * 1024 * 1024
def maxDocuments : Nat := 10000

/-- The directory of a job, and `PHARSED` in it. -/
structure ParsedDirectory where
  job : SourceDirectory
  output : SourceDirectory

structure ParsedAdapter where
  sourceInstanceId : String
  devicesByTarget : List (Endpoint × String)
  maxPayloadBytes : Nat := 128 * 1024 * 1024
  maxOutputBytes : Nat := 64 * 1024 * 1024
  positive : 1 ≤ maxPayloadBytes ∧ 1 ≤ maxOutputBytes := by decide

/-! ## Names of outputs -/

def isAsciiDigit (c : Char) : Bool := '0' ≤ c && c ≤ '9'

/-- `[0-2][0-9]\.[0-5][0-9]\.[0-5][0-9]\.[0-9]\{3}` -/
def isClock (chars : List Char) : Bool :=
  match chars with
  | [h, h', p, m, m', q, s, s', r, a, b, c] =>
    '0' ≤ h && h ≤ '2' && isAsciiDigit h' && p == '.' && '0' ≤ m && m ≤ '5' && isAsciiDigit m' &&
      q == '.' && '0' ≤ s && s ≤ '5' && isAsciiDigit s' && r == '.' && isAsciiDigit a &&
      isAsciiDigit b && isAsciiDigit c
  | _ => false

/-- `(?:_[0-9]\{2,})?\.(?:txt|pdf)` -/
def isOutputEnd (chars : List Char) : Bool :=
  let suffix :=
    match chars with
    | '_' :: rest => if 2 ≤ (rest.takeWhile isAsciiDigit).length then rest.dropWhile isAsciiDigit
        else chars
    | _ => chars
  suffix == ['.', 't', 'x', 't'] || suffix == ['.', 'p', 'd', 'f']

/-- `_PARSER_OUTPUT` -/
def isParserOutput (name : String) : Bool :=
  let digits := name.toList.takeWhile isAsciiDigit
  4 ≤ digits.length && digits.length ≤ 32 &&
    match name.toList.drop digits.length with
    | '_' :: kind :: '_' :: rest =>
      (kind == 'C' || kind == 'G') && isClock (rest.take 12) && isOutputEnd (rest.drop 12)
    | _ => false

section
variable (fmt : Codec)

/-- What the marker of a finished parse says. -/
structure Marker where
  content : Bytes
  metadataHash : String
  parserVersion : String
  documentCount : Nat

def readParsedMarker (job : SourceDirectory) : Except LoadError Marker := do
  let content ← checked (job.read ".parsed" maxMarkerBytes)
  let marker ← checked (readJsonObject fmt (job.pathOf ".parsed") content maxMarkerBytes
    "commercialRCHproxy parsed marker")
  refuseIf (field marker "schema" ≠ .str parsedSchema)
    ("unsupported commercialRCHproxy parsed schema: " ++ reprJson (field marker "schema"))
  refuseIf (field marker "status" ≠ .str "parsed")
    "commercialRCHproxy parsed marker is not committed"
  refuseIf (field marker "codice_doc" ≠ .str job.name)
    "parsed marker CODICE_DOC does not match job directory"
  refuseIf (field marker "metadata" ≠ .str "PHARSED/parsed.json")
    "parsed marker metadata path is not the v1 PHARSED contract"
  let metadataHash ← checked
    (requireSha256 (field marker "metadata_sha256") "parsed.metadata_sha256")
  let parserVersion ← checked
    (requireString (field marker "parser_version") "parsed.parser_version" 64)
  let documentCount ← checked
    (requireInt (field marker "document_count") "parsed.document_count" 0 maxDocuments)
  let _ ← checked (parseDatetime fmt (field marker "completed_at") "parsed.completed_at")
  return { content, metadataHash, parserVersion, documentCount }

def isObject : Json → Bool
  | .obj _ => true
  | _ => false

/-- `parsed.json`, bound to the marker and to the capture: its bytes, its value,
its documents and its protocol issues. -/
structure ParsedFile where
  content : Bytes
  value : Json
  documents : List Json
  protocolIssues : List Json

def readParsedFile (directory : ParsedDirectory) (manifestHash : String) (marker : Marker) :
    Except LoadError ParsedFile := do
  let content ← checked (directory.output.read "parsed.json" maxParsedBytes)
  let parsed ← checked (readJsonObject fmt (directory.output.pathOf "parsed.json") content
    maxParsedBytes "commercialRCHproxy parsed metadata")
  refuseIf (fmt.sha256 content ≠ marker.metadataHash)
    "parsed marker does not authenticate PHARSED/parsed.json"
  refuseIf (field parsed "schema" ≠ .str parsedSchema)
    ("unsupported commercialRCHproxy parsed schema: " ++ reprJson (field parsed "schema"))
  refuseIf (field parsed "codice_doc" ≠ .str directory.job.name)
    "parsed metadata CODICE_DOC does not match job directory"
  refuseIf (field parsed "parser_version" ≠ .str marker.parserVersion)
    "parsed marker and metadata parser versions differ"
  refuseIf (field parsed "capture_manifest" ≠ .str "../manifest.json")
    "parsed metadata capture path is not the v1 binding"
  refuseIf (field parsed "capture_manifest_sha256" ≠ .str manifestHash)
    "parsed metadata is bound to a different capture manifest"
  let documents ←
    match field parsed "documents" with
    | .arr documents => .ok documents
    | _ => refuse "parsed document count is inconsistent"
  refuseIf (documents.length ≠ marker.documentCount) "parsed document count is inconsistent"
  let (protocolIssues, correlations) ←
    match field parsed "protocol_issues", field parsed "correlations" with
    | .arr issues, .arr correlations => .ok (issues, correlations)
    | _, _ => refuse "parsed issues and correlations must be arrays"
  refuseIf (¬∀ item ∈ protocolIssues ++ correlations, isObject item = true)
    "parsed issues and correlations must contain objects"
  refuseIf (isObject (field parsed "evidence_policy") = false)
    "parsed evidence_policy must be an object"
  return { content, value := parsed, documents, protocolIssues }

/-- The codes of issues, where they are texts. -/
def issueCodes (issues : List Json) : List String :=
  issues.filterMap fun issue =>
    match field issue "code" with
    | .str code => some code
    | _ => none

def readFrameIds (label : String) (source : Json) : Except LoadError (List Int) := do
  let wrong := label ++ ".source.frame_ids is invalid"
  let ids ←
    match field source "frame_ids" with
    | .arr values => values.mapM fun
      | .num n => if n < 1 then refuse wrong else .ok n
      | _ => refuse wrong
    | _ => refuse wrong
  refuseIf (ids = []) (label ++ ".source.frame_ids is empty")
  return ids

/-- The range of a document in the request. -/
def readRange (requestSize : Nat) (label : String) (source : Json) :
    Except LoadError (Nat × Nat) := do
  let start ← checked
    (requireOptionalInt (field source "start_offset") (label ++ ".source.start_offset"))
  let stop ← checked
    (requireOptionalInt (field source "end_offset") (label ++ ".source.end_offset"))
  match start, stop with
  | some start, some stop =>
    refuseIf (stop ≤ start ∨ requestSize < stop) (label ++ " source range is outside request RAW")
    return (start, stop)
  | _, _ => refuse (label ++ " source range is outside request RAW")

/-- The warnings of a document; issues that are not objects are refused. -/
def readIssues (label : String) (semantic : Json) : Except LoadError (List String) :=
  match field semantic "issues" with
  | .null => .ok []
  | .arr issues => do
    refuseIf (¬∀ issue ∈ issues, isObject issue = true) (label ++ ".semantic.issues is invalid")
    return issueCodes issues
  | _ => refuse (label ++ ".semantic.issues is invalid")

/-- What is read of the documents so far. -/
structure DocumentsState where
  artifacts : List ArtifactSnapshot := []
  documents : List NormalizedDocument := []
  seenDocumentIds : List String := []
  seenOutputs : List String := []

def readDocument (requestSize : Nat) (label externalId kind : String) (document : Json) :
    Except LoadError NormalizedDocument := do
  let source ← checked (mapping (field document "source") (label ++ ".source"))
  let frameIds ← readFrameIds label source
  let semantic ← checked (mapping (field document "semantic") (label ++ ".semantic"))
  let (start, stop) ← readRange requestSize label source
  let warnings ← readIssues label semantic
  let subtype ← checked (requireOptionalString (field document "subtype") (label ++ ".subtype") 128)
  let complete ← checked (requireBool (field document "complete") (label ++ ".complete"))
  let evidence ← checked (requireString (field document "classification_evidence")
    (label ++ ".classification_evidence") 128)
  let captureTime ← checked (parseOptionalDatetime fmt (field document "capture_time_local")
    (label ++ ".capture_time_local"))
  let timezone ← checked
    (requireOptionalString (field document "timezone") (label ++ ".timezone") 64)
  return {
    externalId, subtype, complete, evidence, captureTime, timezone, semantic, warnings
    documentType := if kind = "C" then .commercialDocument else .managementDocument
    sourceStartOffset := some start
    sourceEndOffset := some stop
    sourceFrameIds := frameIds }

/-- One output of a document, if it has it. -/
def readOutput (directory : ParsedDirectory) (maxOutputBytes : Nat) (label kind : String)
    (outputs : Json) (outputKey : String) (role : ArtifactRole) (mediaType : String)
    (state : DocumentsState) : Except LoadError DocumentsState := do
  let outputLabel := label ++ ".outputs." ++ outputKey
  match field outputs outputKey with
  | .null => return state
  | output => do
    let output ← checked (mapping output outputLabel)
    let name ← checked (requireString (field output "name") (outputLabel ++ ".name") 255)
    refuseIf (isParserOutput name = false) ("unsafe parsed output filename: " ++ name)
    refuseIf (¬(directory.job.name ++ "_" ++ kind ++ "_").toList <+: name.toList)
      "parsed output filename/type binding mismatch"
    refuseIf (¬("." ++ outputKey).toList <:+ name.toList)
      "parsed output filename/suffix binding mismatch"
    refuseIf (name ∈ state.seenOutputs) ("duplicate parsed output filename: " ++ name)
    let content ← checked (directory.output.read name maxOutputBytes)
    let digest ← checked
      (matchDigest fmt content (field output "sha256") (outputLabel ++ ".sha256"))
    return { state with
      seenOutputs := state.seenOutputs ++ [name]
      artifacts := state.artifacts ++ [{
        role, content, mediaType
        originalPath := directory.output.pathOf name
        sha256 := digest
        size := content.length }] }

/-- The document at a position, from one on. -/
def addDocument (directory : ParsedDirectory) (maxOutputBytes requestSize index : Nat)
    (state : DocumentsState) (rawDocument : Json) : Except LoadError DocumentsState := do
  let label := "documents[" ++ toString index ++ "]"
  let document ← checked (mapping rawDocument label)
  let externalId ← checked
    (requireString (field document "document_id") (label ++ ".document_id") 128)
  refuseIf (externalId ∈ state.seenDocumentIds) ("duplicate parsed document ID: " ++ externalId)
  let ordinal ← checked (requireInt (field document "ordinal") (label ++ ".ordinal") 1)
  refuseIf (ordinal ≠ index) "parsed document ordinals are not contiguous"
  let kind ← checked (requireString (field document "type") (label ++ ".type") 8)
  let canonical ← checked
    (requireString (field document "canonical_type") (label ++ ".canonical_type") 64)
  refuseIf ((kind, canonical) ∉ [("C", "commerciale"), ("G", "gestionale")])
    (label ++ " has inconsistent C/G classification")
  let normalized ← readDocument fmt requestSize label externalId kind document
  let outputs ← checked (mapping (field document "outputs") (label ++ ".outputs"))
  let state := { state with
    seenDocumentIds := state.seenDocumentIds ++ [externalId]
    documents := state.documents ++ [normalized] }
  let state ← readOutput fmt directory maxOutputBytes label kind outputs "txt" .normalizedText
    "text/plain; charset=utf-8" state
  readOutput fmt directory maxOutputBytes label kind outputs "pdf" .receiptPdf "application/pdf" state

def addDocuments (directory : ParsedDirectory) (maxOutputBytes requestSize : Nat) :
    Nat → DocumentsState → List Json → Except LoadError DocumentsState
  | _, state, [] => .ok state
  | index, state, document :: rest => do
    let state ← addDocument fmt directory maxOutputBytes requestSize index state document
    addDocuments directory maxOutputBytes requestSize (index + 1) state rest

/-- `RCHParsedV1Adapter.load` -/
def load (adapter : ParsedAdapter) (directory : ParsedDirectory) :
    Except LoadError NormalizedEnvelope := do
  let binding ← checked (captureBinding fmt directory.job adapter.maxPayloadBytes false)
  let manifest := binding.manifest
  let facts := binding.facts
  let marker ← readParsedMarker fmt directory.job
  let parsed ← readParsedFile fmt directory binding.manifestHash marker
  let metadata : ArtifactSnapshot := {
    role := .parsedMetadata
    originalPath := directory.output.pathOf "parsed.json"
    sha256 := marker.metadataHash
    size := parsed.content.length
    content := parsed.content
    mediaType := "application/json" }
  let state ← addDocuments fmt directory adapter.maxOutputBytes facts.requestSize 1
    { artifacts := [metadata] } parsed.documents
  let commit : ArtifactSnapshot := {
    role := .parsedCommitMarker
    originalPath := directory.job.pathOf ".parsed"
    sha256 := fmt.sha256 marker.content
    size := marker.content.length
    content := marker.content
    mediaType := "application/json" }
  let deviceEndpoint ← checked
    (endpoint fmt (field manifest "printer_ip") (field manifest "printer_port") "printer")
  let deviceId ← checked (resolveDevice adapter.devicesByTarget deviceEndpoint)
  let sourceEndpoint ← checked
    (optionalEndpoint fmt (field manifest "client_ip") (field manifest "client_port") "client")
  let proxyEndpoint ← checked
    (endpoint fmt (field manifest "listen_ip") (field manifest "listen_port") "proxy")
  let status ← checked
    (requireString (field parsed.value "parser_status") "parsed.parser_status" 256)
  let boundarySource ← checked (requireOptionalString (field manifest "job_boundary_source")
    "manifest.job_boundary_source" 128)
  let boundaryConfidence ← boundaryConfidence fmt (field manifest "job_boundary_confidence")
  let deliveryEvidence ← checked (requireOptionalString (field manifest "delivery_evidence")
    "manifest.delivery_evidence" 128)
  return {
    sourceKey := "rch-parsed:" ++ adapter.sourceInstanceId ++ ":" ++ facts.jobId ++ ":" ++
      marker.parserVersion ++ ":" ++ marker.metadataHash
    sourceKind := .commercialRchParsedV1
    sourceInstanceId := adapter.sourceInstanceId
    deviceId
    sourceJobId := facts.jobId
    sourceSessionId := facts.sessionId
    connectionId := facts.connectionId
    openedAt := facts.openedAt
    closedAt := facts.closedAt
    sourceEndpoint, proxyEndpoint, deviceEndpoint
    status
    complete := state.documents.all NormalizedDocument.complete
    boundarySource, boundaryConfidence, deliveryEvidence
    manifestSha256 := binding.manifestHash
    parserVersion := marker.parserVersion
    artifacts := state.artifacts ++ [commit]
    chunks := []
    documents := state.documents
    metadata := parsed.value
    warnings := issueCodes parsed.protocolIssues }

end

end RetailPrintGuard.Ingestion.RchParsed
