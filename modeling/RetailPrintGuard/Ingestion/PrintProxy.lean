import RetailPrintGuard.Common.HashChain
import RetailPrintGuard.Ingestion.Rch
import RetailPrintGuard.Ingestion.Worker

/-! # Read-only adapter for the printproxy v3 archive

A route keeps a ledger of events under a hash chain. The events of each job are
checked as a history, and an archived job is loaded with its raw file and its
operational metadata. -/
namespace RetailPrintGuard.Ingestion.PrintProxy
open RetailPrintGuard.Library RetailPrintGuard.Library.Checks RetailPrintGuard.Common.Formats
open RetailPrintGuard.Ingestion.Adapters RetailPrintGuard.Ingestion.Dto
open RetailPrintGuard.Ingestion.Canonical (readJsonObject parseJsonBytes)
open RetailPrintGuard.Ingestion.Rch (SourceDirectory checked refuse refuseIf
  parseOptionalDatetime optionalEndpoint)
open RetailPrintGuard.Ingestion.Worker (Candidate)
open RetailPrintGuard.Common.HashChain (zeroHash fromHex)

def ledgerSchema : Int := 1
def metadataSchema : Int := 2
def maxHeadBytes : Nat := 65536
def maxLedgerLineBytes : Nat := 1048576
def maxMetadataBytes : Nat := 4 * 1024 * 1024

/-- `_SAFE_STATE` -/
def safeState : List String := [
  "SEALED", "DUPLEX_ACTIVE", "DUPLEX_ABORTED", "QUEUED", "SEND_ARMED", "SENDING",
  "SENT_UNCONFIRMED", "FAILED_BEFORE_SEND", "UNKNOWN_PRINT_STATE", "PARTIAL", "QUARANTINED"]

/-- `_EVENT_STATUS` -/
def eventStatus : List (String × String) := [
  ("ARCHIVED", "SEALED"),
  ("DUPLEX_ACTIVE", "DUPLEX_ACTIVE"),
  ("DUPLEX_ABORTED", "DUPLEX_ABORTED"),
  ("QUEUED", "QUEUED"),
  ("PARTIAL_ARCHIVED", "PARTIAL"),
  ("SEND_ARMED", "SEND_ARMED"),
  ("SENDING", "SENDING"),
  ("SENT_UNCONFIRMED", "SENT_UNCONFIRMED"),
  ("FAILED_BEFORE_SEND", "FAILED_BEFORE_SEND"),
  ("FAILED_BEFORE_SEND_RECOVERY", "FAILED_BEFORE_SEND"),
  ("UNKNOWN_PRINT_STATE", "UNKNOWN_PRINT_STATE"),
  ("UNKNOWN_PRINT_STATE_RECOVERY", "UNKNOWN_PRINT_STATE"),
  ("MANUAL_RETRY_QUEUED", "QUEUED"),
  ("RETENTION_DELETE_STARTED", "RETENTION_DELETING"),
  ("RETENTION_DELETED", "RETENTION_DELETED"),
  ("QUARANTINED", "QUARANTINED")]

/-- `_EVENT_PREDECESSORS` -/
def eventPredecessors : List (String × List (Option String)) := [
  ("ARCHIVED", [none, "DUPLEX_ACTIVE"]),
  ("DUPLEX_ACTIVE", [none]),
  ("DUPLEX_ABORTED", ["ARCHIVED"]),
  ("QUEUED", ["ARCHIVED"]),
  ("PARTIAL_ARCHIVED", ["ARCHIVED"]),
  ("SEND_ARMED",
    ["QUEUED", "MANUAL_RETRY_QUEUED", "FAILED_BEFORE_SEND", "FAILED_BEFORE_SEND_RECOVERY"]),
  ("SENDING", ["SEND_ARMED"]),
  ("SENT_UNCONFIRMED", ["SENDING", "ARCHIVED"]),
  ("FAILED_BEFORE_SEND", ["SEND_ARMED", "ARCHIVED"]),
  ("FAILED_BEFORE_SEND_RECOVERY", ["SEND_ARMED"]),
  ("UNKNOWN_PRINT_STATE", ["SENDING", "ARCHIVED", "SENT_UNCONFIRMED"]),
  ("UNKNOWN_PRINT_STATE_RECOVERY", ["SENDING", "ARCHIVED"]),
  ("MANUAL_RETRY_QUEUED",
    ["QUEUED", "MANUAL_RETRY_QUEUED", "FAILED_BEFORE_SEND", "FAILED_BEFORE_SEND_RECOVERY",
      "UNKNOWN_PRINT_STATE", "UNKNOWN_PRINT_STATE_RECOVERY"]),
  ("RETENTION_DELETE_STARTED", ["SENT_UNCONFIRMED"]),
  ("RETENTION_DELETED", ["RETENTION_DELETE_STARTED"])]

/-- `SOURCE_INSTANCE_RE` -/
def isSourceInstanceId (text : String) : Bool :=
  text.length ≤ 128 && text.toList.head?.any Char.isAlphanum &&
    text.toList.all fun c => c.isAlphanum || c == '_' || c == '.' || c == '-'

theorem limits_pos : 1 ≤ 128 * 1024 * 1024 ∧ 1 ≤ 256 * 1024 * 1024 ∧ 1 ≤ 1000000 := by decide

/-- `PrintProxyV3Adapter.__init__` -/
structure Adapter where
  sourceInstanceId : String
  devicesByTarget : List (Endpoint × String)
  hmacKey : Option Bytes
  requireHmac : Bool := true
  maxPayloadBytes : Nat := 128 * 1024 * 1024
  maxLedgerBytes : Nat := 256 * 1024 * 1024
  maxRecords : Nat := 1000000
  validInstance : isSourceInstanceId sourceInstanceId = true
  longKey : ∀ key ∈ hmacKey, 32 ≤ key.length
  positive : 1 ≤ maxPayloadBytes ∧ 1 ≤ maxLedgerBytes ∧ 1 ≤ maxRecords := by decide

/-! ## Digests -/

/-- `n.to_bytes(8, "big")` -/
def toBytes8 (n : Nat) : Bytes := (List.range 8).map fun i => UInt8.ofNat (n / 256 ^ (7 - i))

section
variable (fmt : Codec)

def digestBytes (data : Bytes) : Bytes := fromHex (fmt.sha256 data).toList

/-- `hmac.new(key, message, hashlib.sha256).hexdigest()` -/
def hmacSha256 (key message : Bytes) : String :=
  let short := if 64 < key.length then digestBytes fmt key else key
  let block := short ++ List.replicate (64 - short.length) 0
  fmt.sha256 (block.map (· ^^^ 0x5c) ++
    digestBytes fmt (block.map (· ^^^ 0x36) ++ message))

/-- `canonical_json` -/
def canonicalJson (value : Json) : Except LoadError Bytes :=
  if isJson value then .ok value.dumps
  else .error (.sourceValidation "printproxy record is not canonicalizable")

/-- `value == n` for an integer -/
def equalsInt (value : Json) (n : Int) : Bool :=
  match value with
  | .num k => k == n
  | .bool b => (if b then 1 else 0) == n
  | .float (.finite text) => fmt.floatValue text == n
  | _ => false

def busyIf (condition : Prop) [Decidable condition] (message : String) : Except LoadError Unit :=
  raiseIf condition (.sourceBusy message)

/-- `text.isdecimal()`: `int` reads each of its characters. -/
def isDecimal (text : String) : Bool :=
  text != "" && text.toList.all fun c => (fmt.intOfText (String.singleton c)).isSome

/-- `_split_destination` -/
def splitDestination (value : Json) (label : String) : Except LoadError Endpoint := do
  let text ← checked (requireString value label 128)
  let ip := text.toList.takeWhile (· != ':')
  let port := String.ofList (text.toList.drop (ip.length + 1))
  refuseIf (text.toList.count ':' ≠ 1) (label ++ " must be an IPv4:port endpoint")
  refuseIf (isDecimal fmt port = false) (label ++ " has an invalid port")
  match fmt.intOfText port with
  | some n => checked (endpoint fmt (.str (String.ofList ip)) (.num n) label)
  | none => refuse (label ++ " has an invalid port")

/-- `_require_plain_filename` -/
def requirePlainFilename (value : Json) (label : String) : Except LoadError String := do
  let name ← checked (requireString value label 255)
  refuseIf (name = "." ∨ '/' ∈ name.toList ∨ '\x00' ∈ name.toList)
    (label ++ " is an unsafe filename")
  return name

/-- `Path(name).with_suffix(suffix).name` on a name that ends in `.raw` -/
def withSuffix (name suffix : String) : String :=
  String.ofList (name.toList.take (name.length - 4)) ++ suffix

/-! ## The ledger -/

/-- `data.splitlines(keepends=True)` -/
def splitlinesKeepends : Bytes → List Bytes
  | [] => []
  | 13 :: 10 :: rest => [13, 10] :: splitlinesKeepends rest
  | byte :: rest =>
    if byte = 10 ∨ byte = 13 then [byte] :: splitlinesKeepends rest
    else
      match splitlinesKeepends rest with
      | [] => [[byte]]
      | line :: lines => (byte :: line) :: lines

/-- What `_read_ledger` returns. -/
structure Ledger where
  records : List Json
  integrity : String
  headRaw : Bytes

/-- The fields of a record that its chain hash covers. -/
def chainPayload (record : Json) : Json :=
  ((record.erase "previous_chain_hash").erase "chain_hash").erase "hmac_sha256"

def chainHash (previous : String) (encoded : Bytes) : String :=
  fmt.sha256 (fromHex previous.toList ++ toBytes8 encoded.length ++ encoded)

variable (adapter : Adapter)

def checkMac (mac : Json) (expected : Bytes → String) (mismatch missing : String) :
    Except LoadError Unit :=
  match adapter.hmacKey with
  | some key => refuseIf (mac ≠ .str (expected key)) mismatch
  | none => refuseIf (adapter.requireHmac = true ∨ mac ≠ .null) missing

/-- A record and its chain hash. -/
def readRecord (previous : String) (lineNumber : Nat) (rawLine : Bytes) :
    Except LoadError (Json × String) := do
  let line := "printproxy ledger line " ++ toString lineNumber
  let label (name : String) := "ledger[" ++ toString lineNumber ++ "]." ++ name
  refuseIf (maxLedgerLineBytes < rawLine.length) (line ++ " exceeds size limit")
  let value ← checked (parseJsonBytes fmt rawLine line)
  let record ←
    match value with
    | .obj fields => .ok (.obj fields)
    | _ => refuse (line ++ " is not an object")
  let canonical ← canonicalJson record
  refuseIf (canonical ++ [newline] ≠ rawLine) (line ++ " is not canonical JSON")
  refuseIf (equalsInt fmt (field record "schema_version") ledgerSchema = false)
    ("unsupported printproxy ledger schema at line " ++ toString lineNumber ++ ": " ++
      reprJson (field record "schema_version"))
  let sequence ← checked (requireInt (field record "sequence") (label "sequence") 1)
  refuseIf (sequence ≠ lineNumber) (line ++ " has invalid sequence")
  let _ ← checked (requireUuid fmt (field record "event_id") (label "event_id"))
  let _ ← checked (parseDatetime fmt (field record "timestamp") (label "timestamp"))
  refuseIf (field record "previous_chain_hash" ≠ .str previous) (line ++ " previous hash mismatch")
  let encoded ← canonicalJson (chainPayload record)
  let actual ← checked (requireSha256 (field record "chain_hash") (label "chain_hash"))
  refuseIf (chainHash fmt previous encoded ≠ actual) (line ++ " chain hash mismatch")
  checkMac adapter (field record "hmac_sha256")
    (fun key => hmacSha256 fmt key (fromHex actual.toList)) (line ++ " HMAC mismatch")
    "printproxy ledger requires an HMAC key for trusted ingestion"
  return (record, actual)

/-- The records of the lines, and the chain hash of the last. -/
def readRecords : String → Nat → List Bytes → Except LoadError (List Json × String)
  | previous, _, [] => .ok ([], previous)
  | previous, lineNumber, rawLine :: rest => do
    let (record, actual) ← readRecord fmt adapter previous lineNumber rawLine
    refuseIf (adapter.maxRecords < lineNumber) "printproxy ledger record limit exceeded"
    let (records, last) ← readRecords actual (lineNumber + 1) rest
    return (record :: records, last)

/-- `_head_hmac` -/
def headHmac (count : Nat) (hash : String) (key : Bytes) : String :=
  hmacSha256 fmt key (Json.obj [("record_count", .num count), ("last_chain_hash", .str hash)]).dumps

def checkHead (headRaw : Bytes) (records : List Json) (last : String) : Except LoadError Unit := do
  let head ← checked (parseJsonBytes fmt headRaw "printproxy manifest head")
  let canonical ←
    match head with
    | .obj fields => canonicalJson (.obj fields)
    | _ => refuse "printproxy manifest head is not canonical JSON"
  refuseIf (canonical ++ [newline] ≠ headRaw) "printproxy manifest head is not canonical JSON"
  refuseIf (equalsInt fmt (field head "schema_version") ledgerSchema = false)
    ("unsupported printproxy head schema: " ++ reprJson (field head "schema_version"))
  let count ← checked (requireInt (field head "record_count") "head.record_count")
  let hash ← checked (requireSha256 (field head "last_chain_hash") "head.last_chain_hash")
  busyIf (count ≠ records.length ∨ hash ≠ last)
    "printproxy manifest head does not match ledger snapshot"
  checkMac adapter (field head "hmac_sha256") (headHmac fmt count hash)
    "printproxy manifest head HMAC mismatch" "printproxy manifest head requires an HMAC key"

variable (route : SourceDirectory)

/-- `_read_ledger` -/
def readLedger : Except LoadError Ledger := do
  let headRaw ← checked (route.read "manifest.head.json" maxHeadBytes)
  let ledgerRaw ← checked (route.read "manifest.jsonl" adapter.maxLedgerBytes)
  busyIf (ledgerRaw ≠ [] ∧ ledgerRaw.getLast? ≠ some newline)
    ("printproxy ledger has an uncommitted tail: " ++ route.pathOf "manifest.jsonl")
  let (records, last) ← readRecords fmt adapter zeroHash 1 (splitlinesKeepends ledgerRaw)
  checkHead fmt adapter headRaw records last
  return {
    records, headRaw
    integrity :=
      if adapter.hmacKey = none then "SHA256_HASH_CHAIN_VALIDATED_NO_HMAC_CONFIGURED"
      else "HMAC_SHA256_AND_HASH_CHAIN_VALIDATED" }

/-! ## The history of a job -/

structure History where
  archive : Option Json := none
  previousEvent : Option String := none
  deleting : Bool := false
  deleted : Bool := false

def reprOption : Option String → String
  | some text => reprText text
  | none => "None"

/-- One event of a job. -/
def History.next (jobId : String) (history : History) (record : Json) :
    Except LoadError History := do
  refuseIf (equalsInt fmt (field record "state_schema_version") metadataSchema = false)
    ("unsupported printproxy v3 state schema for job " ++ jobId ++ ": " ++
      reprJson (field record "state_schema_version"))
  let event ← checked (requireString (field record "event") "ledger.event" 64)
  let status ← checked (requireString (field record "status") "ledger.status" 64)
  refuseIf (eventStatus.lookup event ≠ some status)
    ("invalid printproxy v3 event/status for job " ++ jobId ++ ": " ++ event ++ "/" ++ status)
  if event = "QUARANTINED" then
    refuseIf (history.previousEvent = some "RETENTION_DELETED")
      "deleted printproxy job was later quarantined"
  else
    refuseIf (history.previousEvent ∉ (eventPredecessors.lookup event).getD [])
      ("invalid printproxy v3 transition for job " ++ jobId ++ ": " ++
        reprOption history.previousEvent ++ " -> " ++ event)
  refuseIf (event = "ARCHIVED" ∧ history.archive.isSome = true)
    ("duplicate ARCHIVED event for printproxy job " ++ jobId)
  return {
    archive := if event = "ARCHIVED" then some record else history.archive
    previousEvent := some event
    deleting := history.deleting || event == "RETENTION_DELETE_STARTED"
    deleted := history.deleted || event == "RETENTION_DELETED" }

/-- An archived job: its `ARCHIVED` record, its last record and all of them. -/
structure Archived where
  archive : Json
  latest : Json
  events : List Json
  deviceId : String
  archiveChainHash : String
  latestChainHash : String

/-- `_candidate_from_events` -/
def candidateFromEvents (jobId : String) (events : List Json) :
    Except LoadError (Option Archived) := do
  let history ← events.foldlM (History.next fmt jobId) {}
  match history.archive with
  | none => return none
  | some archive =>
    if history.deleting || history.deleted then return none
    else do
      let destination ← splitDestination fmt (field archive "destination") "ledger.destination"
      let destinations ← events.mapM fun record =>
        splitDestination fmt (field record "destination") "ledger.destination"
      refuseIf (∃ other ∈ destinations, other ≠ destination)
        ("printproxy job " ++ jobId ++ " crosses physical-printer routes")
      let deviceId ← checked (resolveDevice adapter.devicesByTarget destination)
      let latest := (events.getLast?).getD archive
      let archiveChainHash ← checked (requireSha256 (field archive "chain_hash") "archive.chain_hash")
      let latestChainHash ← checked (requireSha256 (field latest "chain_hash") "latest.chain_hash")
      return some { archive, latest, events, deviceId, archiveChainHash, latestChainHash }

/-! ## Loading an archived job -/

/-- A file of the route whose digest is given. -/
def readDigested (name : String) (maxBytes : Nat) (expected : Json) (label mismatch : String) :
    Except LoadError (Bytes × String) := do
  let safe ← checked (SourceDirectory.safeChild (.str name))
  let content ← checked (route.read safe maxBytes)
  let digest ← checked (requireSha256 expected label)
  refuseIf (fmt.sha256 content ≠ digest) mismatch
  return (content, digest)

/-- The raw file of a job, which the ledger authenticates. -/
structure RawFile where
  jobId : String
  name : String
  content : Bytes
  digest : String

def readRaw (job : Archived) : Except LoadError RawFile := do
  refuseIf (field job.archive "event" ≠ .str "ARCHIVED")
    "printproxy candidate is not committed by ARCHIVED"
  refuseIf (equalsInt fmt (field job.archive "state_schema_version") metadataSchema = false)
    ("unsupported printproxy v3 state schema: " ++
      reprJson (field job.archive "state_schema_version"))
  let jobId ← checked (requireUuid fmt (field job.archive "job_id") "archive.job_id")
  refuseIf (field job.latest "job_id" ≠ .str jobId)
    "printproxy latest record belongs to another job"
  refuseIf (equalsInt fmt (field job.latest "state_schema_version") metadataSchema = false)
    "printproxy latest state schema is unsupported"
  let name ← requirePlainFilename (field job.archive "raw_filename") "archive.raw_filename"
  refuseIf (field job.latest "raw_filename" ≠ .str name)
    "printproxy latest record RAW binding mismatch"
  refuseIf (¬("_" ++ jobId ++ ".raw").toList <:+ name.toList)
    "printproxy RAW filename is not bound to job UUID"
  let (content, digest) ← readDigested fmt route name adapter.maxPayloadBytes
    (field job.archive "raw_sha256") "archive.raw_sha256" "printproxy RAW SHA-256 mismatch"
  let size ← checked
    (requireInt (field job.archive "raw_size") "archive.raw_size" 0 adapter.maxPayloadBytes)
  refuseIf (content.length ≠ size) "printproxy RAW size mismatch"
  return { jobId, name, content, digest }

/-- The operational metadata of a job, bound to its raw file. -/
structure MetadataFile where
  name : String
  content : Bytes
  digest : String
  value : Json

def readMetadata (job : Archived) (raw : RawFile) : Except LoadError MetadataFile := do
  let name ←
    requirePlainFilename (field job.latest "metadata_filename") "latest.metadata_filename"
  refuseIf (name ≠ withSuffix raw.name ".json") "printproxy metadata filename is not bound to RAW"
  let safe ← checked (SourceDirectory.safeChild (.str name))
  let content ← checked (route.read safe maxMetadataBytes)
  let metadata ← checked (readJsonObject fmt (route.pathOf name) content maxMetadataBytes
    "printproxy operational metadata")
  let digest ← checked
    (requireSha256 (field job.latest "metadata_sha256") "latest.metadata_sha256")
  refuseIf (fmt.sha256 content ≠ digest) "printproxy metadata SHA-256 mismatch"
  refuseIf (equalsInt fmt (field metadata "schema_version") metadataSchema = false)
    ("unsupported printproxy v3 metadata schema: " ++ reprJson (field metadata "schema_version"))
  refuseIf (field metadata "job_id" ≠ .str raw.jobId) "printproxy metadata job ID mismatch"
  refuseIf (field metadata "raw_filename" ≠ .str raw.name ∨
      field metadata "raw_sha256" ≠ .str raw.digest) "printproxy metadata RAW binding mismatch"
  refuseIf (equalsInt fmt (field metadata "bytes_archived") raw.content.length = false)
    "printproxy metadata archived-byte count mismatch"
  refuseIf (field metadata "metadata_filename" ≠ .str name)
    "printproxy metadata self-filename binding mismatch"
  return { name, content, digest, value := metadata }

/-- `mapping.get(key, default)` -/
def getOr (mapping : Json) (key : String) (default : Json) : Json :=
  (mapping.get? key).getD default

/-- A text or a document the job was rendered to, if there is one. -/
def readRendered (job : Archived) (raw : RawFile) (metadata : Json)
    (filenameKey hashKey suffix mediaType : String) (role : ArtifactRole) :
    Except LoadError (List ArtifactSnapshot) := do
  let filename := getOr job.latest filenameKey (field metadata filenameKey)
  let expectedHash := getOr job.latest hashKey (field metadata hashKey)
  if filename = .null then
    refuseIf (expectedHash ≠ .null) ("printproxy " ++ hashKey ++ " exists without its filename")
    return []
  else do
    let name ← requirePlainFilename filename ("latest." ++ filenameKey)
    refuseIf (name ≠ withSuffix raw.name suffix)
      ("printproxy " ++ filenameKey ++ " is not bound to RAW")
    let (content, digest) ← readDigested fmt route name adapter.maxPayloadBytes expectedHash
      ("latest." ++ hashKey) ("printproxy " ++ filenameKey ++ " SHA-256 mismatch")
    return [{
      role, content, mediaType
      originalPath := route.pathOf name
      sha256 := digest
      size := content.length }]

def isHexDigit (c : Char) : Bool :=
  c.isDigit || ('a' ≤ c && c ≤ 'f') || ('A' ≤ c && c ≤ 'F')

/-- What is kept of the printer's response, and a warning if that is not all. -/
def readPreview (metadata : MetadataFile) :
    Except LoadError (List ArtifactSnapshot × List String) := do
  let hex ←
    match field metadata.value "printer_response_hex" with
    | .str hex => .ok hex
    | _ => refuse "printproxy printer response preview must be a hex string"
  let truncated ← checked (requireBool (field metadata.value "printer_response_truncated")
    "metadata.printer_response_truncated")
  let declared ← checked (requireSha256 (field metadata.value "printer_response_sha256")
    "metadata.printer_response_sha256")
  let warnings := if truncated then ["printer response evidence is a truncated preview"] else []
  if hex ≠ "" then do
    refuseIf (hex.length % 2 ≠ 0 ∨ hex.toList.all isHexDigit = false)
      "printproxy printer response preview is not valid hex"
    refuseIf (adapter.maxPayloadBytes * 2 < hex.length)
      "printproxy printer response preview exceeds limit"
    let content := fromHex hex.toList
    refuseIf (truncated = false ∧ fmt.sha256 content ≠ declared)
      "complete printproxy response preview hash mismatch"
    return ([{
      role := .responsePreview
      originalPath := route.pathOf metadata.name
      sha256 := fmt.sha256 content
      size := content.length
      content
      complete := !truncated }], warnings)
  else do
    refuseIf (truncated = false ∧ fmt.sha256 [] ≠ declared)
      "empty printproxy response SHA-256 mismatch"
    return ([], warnings)

def readSidecarErrors (metadata : Json) : Except LoadError (List String) :=
  let wrong := "printproxy sidecar_errors must be a string list"
  match field metadata "sidecar_errors" with
  | .arr values => do
    let texts ← values.mapM fun
      | .str text => .ok text
      | _ => refuse wrong
    return (texts.filter (· ≠ "")).map fun text => String.ofList (text.toList.take 4096)
  | _ => refuse wrong

def ledgerArtifact (role : ArtifactRole) (name mediaType : String) (content : Bytes) :
    ArtifactSnapshot where
  role := role
  originalPath := route.pathOf name
  sha256 := fmt.sha256 content
  size := content.length
  content := content
  mediaType := mediaType

/-- The records of the ledger that stand for the job. -/
def ledgerArtifacts (job : Archived) (headRaw : Bytes) : Except LoadError (List ArtifactSnapshot) := do
  let archived ← canonicalJson job.archive
  let archiveRecord := archived ++ [newline]
  let last ← canonicalJson job.latest
  let latestRecord := last ++ [newline]
  let record (role : ArtifactRole) (content : Bytes) :=
    ledgerArtifact fmt route role "manifest.jsonl" "application/x-ndjson" content
  return record .integrityLedgerRecord archiveRecord ::
    (if latestRecord = archiveRecord then [] else
      [record .integrityLedgerLatestRecord latestRecord]) ++
    [ledgerArtifact fmt route .integrityLedgerHead "manifest.head.json" "application/json" headRaw]

def normalizedMetadata (job : Archived) (integrity : String) (metadata : Json) : Json :=
  .obj [
    ("source_contract", .obj [
      ("ledger_schema_version", .num ledgerSchema),
      ("metadata_schema_version", .num metadataSchema),
      ("timeline_fidelity", .str "AGGREGATE_ONLY_NO_RECV_CHUNK_TIMELINE_IN_ARCHIVE_V3"),
      ("integrity", .str integrity),
      ("archive_chain_hash", field job.archive "chain_hash"),
      ("latest_chain_hash", field job.latest "chain_hash")]),
    ("archive_record", job.archive),
    ("latest_record", job.latest),
    ("job_events", .arr job.events),
    ("metadata_document", metadata)]

/-- The endpoints of a job, and its device. -/
structure Endpoints where
  device : Endpoint
  deviceId : String
  source : Option Endpoint
  proxy : Endpoint

def readEndpoints (job : Archived) (metadata : Json) : Except LoadError Endpoints := do
  let device ← checked
    (endpoint fmt (field metadata "printer_ip") (field metadata "printer_port") "printer")
  let destination ← splitDestination fmt (field job.archive "destination") "archive.destination"
  refuseIf (destination ≠ device) "printproxy ledger and metadata destination mismatch"
  let deviceId ← checked (resolveDevice adapter.devicesByTarget device)
  refuseIf (job.deviceId ≠ deviceId) "printproxy candidate device mapping changed"
  let source ← checked
    (optionalEndpoint fmt (field metadata "source_ip") (field metadata "source_port") "client")
  let proxy ← checked
    (endpoint fmt (field metadata "proxy_ip") (field metadata "proxy_port") "proxy")
  return { device, deviceId, source, proxy }

/-- What the metadata say of the capture. -/
structure CaptureFacts where
  state : String
  complete : Bool
  bytesSubmitted : Option Nat
  openedAt : Int
  closedAt : Option Int
  warnings : List String

/-- `metadata.get(a) or metadata.get(b)`: only `None` and the empty values are false. -/
def captureEnd (metadata : Json) : Json :=
  let first := field metadata "timestamp_archive_complete"
  match first with
  | .null | .bool false | .num 0 | .str "" | .arr [] | .obj [] =>
    field metadata "timestamp_last_byte"
  | .float (.finite text) =>
    if fmt.floatValue text = 0 then field metadata "timestamp_last_byte" else first
  | _ => first

def readFacts (job : Archived) (metadata : Json) : Except LoadError CaptureFacts := do
  let sidecarErrors ← readSidecarErrors metadata
  let confirmed ← checked
    (requireBool (field metadata "physical_print_confirmed") "metadata.physical_print_confirmed")
  let state ← checked (requireString (field job.latest "status") "latest.status" 64)
  refuseIf (state ∉ safeState)
    ("unsupported printproxy v3 terminal/current state: " ++ reprText state)
  refuseIf (field metadata "state" ≠ .str state)
    "printproxy metadata and latest ledger state differ"
  let byPolicy ← checked
    (requireBool (field metadata "complete_by_policy") "metadata.complete_by_policy")
  let bytesSubmitted ← checked (requireOptionalIntUpTo (field metadata "bytes_submitted_to_socket")
    "metadata.bytes_submitted_to_socket" adapter.maxPayloadBytes)
  let openedAt ← checked
    (parseDatetime fmt (field metadata "timestamp_start") "metadata.timestamp_start")
  let closedAt ← checked
    (parseOptionalDatetime fmt (captureEnd fmt metadata) "metadata.capture_end")
  refuseIf (∃ closed, closedAt = some closed ∧ closed < openedAt)
    "printproxy capture end precedes its start"
  return {
    state, bytesSubmitted, openedAt, closedAt
    complete := byPolicy && state != "PARTIAL" && state != "DUPLEX_ABORTED"
    warnings := sidecarErrors ++ if confirmed then [] else ["physical print outcome is unconfirmed"] }
where
  requireOptionalIntUpTo (value : Json) (label : String) (maximum : Nat) :
      Except String (Option Nat) :=
    match value with
    | .null => .ok none
    | value => (requireInt value label 0 maximum).map some

/-- The whole raw file as one chunk. -/
def aggregateChunk (raw : RawFile) (facts : CaptureFacts) (metadata : Json) :
    Except LoadError StreamChunk := do
  let forwardStatus ← checked
    (requireOptionalString (field metadata "forward_status") "metadata.forward_status" 128)
  let error ← checked (requireOptionalString (field metadata "last_error") "metadata.last_error")
  return {
    sequence := 1
    direction := .clientToDevice
    receivedAt := facts.openedAt
    receivedUnixNs := none
    forwardedUnixNs := none
    localWriteDrainUnixNs := none
    monotonicNs := none
    jobOffset := 0
    sessionOffset := 0
    byteCount := raw.content.length
    sha256 := raw.digest
    localWriteDrainCompleted := facts.bytesSubmitted.map fun bytes => bytes == raw.content.length
    forwardStatus, error }

/-- `load` -/
def load (ledger : Ledger) (job : Archived) : Except LoadError NormalizedEnvelope := do
  let raw ← readRaw fmt adapter route job
  let metadata ← readMetadata fmt route job raw
  let endpoints ← readEndpoints fmt adapter job metadata.value
  let records ← ledgerArtifacts fmt route job ledger.headRaw
  let clean ← readRendered fmt adapter route job raw metadata.value "clean_filename" "clean_sha256"
    ".PULITO.txt" "text/plain; charset=utf-8" .normalizedText
  let pdf ← readRendered fmt adapter route job raw metadata.value "pdf_filename" "pdf_sha256"
    ".pdf" "application/pdf" .receiptPdf
  let (preview, previewWarnings) ← readPreview fmt adapter route metadata
  let facts ← readFacts fmt adapter job metadata.value
  let chunk ← aggregateChunk raw facts metadata.value
  let sessionId ← checked
    (requireOptionalString (field metadata.value "session_id") "metadata.session_id" 64)
  let boundarySource ← checked
    (requireOptionalString (field metadata.value "boundary_reason") "metadata.boundary_reason" 128)
  return {
    sourceKey := "printproxy-v3:" ++ adapter.sourceInstanceId ++ ":" ++ raw.jobId ++ ":" ++
      job.archiveChainHash ++ ":" ++ job.latestChainHash
    sourceKind := .printproxyV3
    sourceInstanceId := adapter.sourceInstanceId
    deviceId := endpoints.deviceId
    sourceJobId := raw.jobId
    sourceSessionId := sessionId
    connectionId := none
    openedAt := facts.openedAt
    closedAt := facts.closedAt
    sourceEndpoint := endpoints.source
    proxyEndpoint := some endpoints.proxy
    deviceEndpoint := endpoints.device
    status := facts.state
    complete := facts.complete
    boundarySource
    boundaryConfidence := none
    deliveryEvidence := "LOCAL_SOCKET_PROGRESS_ONLY_PHYSICAL_PRINT_UNCONFIRMED"
    manifestSha256 := job.archiveChainHash
    parserVersion := none
    artifacts := [
      { role := .requestRaw, originalPath := route.pathOf raw.name, sha256 := raw.digest
        size := raw.content.length, content := raw.content },
      { role := .sourceMetadata, originalPath := route.pathOf metadata.name
        sha256 := metadata.digest, size := metadata.content.length, content := metadata.content
        mediaType := "application/json" }] ++ records ++ clean ++ pdf ++ preview
    chunks := if raw.content = [] then [] else [chunk]
    documents := []
    metadata := normalizedMetadata job ledger.integrity metadata.value
    warnings := previewWarnings ++ facts.warnings }

/-! ## Discovery -/

/-- The ids of the jobs of a ledger, in order. -/
def jobIds (records : List Json) : Except LoadError (List String) := do
  let ids ← records.mapM fun record =>
    match field record "job_id" with
    | .str _ => checked (requireUuid fmt (field record "job_id") "printproxy ledger job_id")
    | _ => refuse "printproxy v3 ledger event has no job UUID"
  return ids.dedup.mergeSort

def eventsOf (records : List Json) (jobId : String) : List Json :=
  records.filter fun record => field record "job_id" = .str jobId

/-- The candidate of a job, if it is archived and kept or if its history is wrong. -/
def jobCandidate (ledger : Ledger) (jobId : String) : Option Candidate :=
  match candidateFromEvents fmt adapter jobId (eventsOf ledger.records jobId) with
  | .ok none => none
  | .ok (some job) => some {
      candidateKey := "printproxy-v3:" ++ adapter.sourceInstanceId ++ ":" ++ jobId ++ ":" ++
        job.archiveChainHash ++ ":" ++ job.latestChainHash
      sourcePath := route.path
      load := load fmt adapter route ledger job }
  | .error error => some {
      candidateKey := "printproxy-v3:" ++ adapter.sourceInstanceId ++ ":invalid:" ++ route.name ++
        ":" ++ jobId
      sourcePath := route.path
      load := .error error }

/-- `_discover_route` -/
def discoverRoute : Except LoadError (List Candidate) := do
  let ledger ← readLedger fmt adapter route
  let ids ← jobIds fmt ledger.records
  return ids.filterMap (jobCandidate fmt adapter route ledger)

end

end RetailPrintGuard.Ingestion.PrintProxy
