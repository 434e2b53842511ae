import RetailPrintGuard.Library.Transaction
import RetailPrintGuard.Db.Semantic
import RetailPrintGuard.Ingestion.Worker

/-! # Storing imports

`SqlAlchemyIngestionRepository.store_import` over the evidence tables. A row
refers to its session, job or document by the columns that are unique for it,
under the collation of the database. Digests, addresses, ports, times and the
counters of a session always fit their columns and are left out. -/
namespace RetailPrintGuard.Db.IngestStore
open RetailPrintGuard.Library RetailPrintGuard.Library.Transaction RetailPrintGuard.Common.Formats
open RetailPrintGuard.Ingestion.Adapters (field)
open RetailPrintGuard.Ingestion.Dto RetailPrintGuard.Db.Semantic
open RetailPrintGuard.Ingestion.Worker (ImportDisposition StoreOutcome)

/-! ## Rows -/

structure SessionKey where
  sourceSystem : SourceKind
  sourceInstance : String
  sourceScope : String
  sourceSessionId : String
deriving DecidableEq

structure JobKey where
  sourceSystem : SourceKind
  sourceInstance : String
  sourceScope : String
  sourceJobId : String
deriving DecidableEq

structure DocumentKey where
  job : JobKey
  sourceDocumentKey : String
deriving DecidableEq

/-- `ProxySession` -/
structure SessionRow where
  key : SessionKey
  sourceInstance : String
  sourceSessionId : String
  status : String
deriving DecidableEq

/-- `PrintJob` -/
structure JobRow where
  key : JobKey
  sourceKey : String
  sourceInstance : String
  sourceJobId : String
  manifestSha256 : String
  manifestPath : String
  boundarySource : Option String
  status : String
deriving DecidableEq

/-- `RawPayload` -/
structure RawPayloadRow where
  job : JobKey
  artifactRole : ArtifactRole
  sourcePath : String
  sourcePathSha256 : String
deriving DecidableEq

/-- `StreamChunk` -/
structure ChunkRow where
  session : SessionKey
  job : JobKey
  sequence : Nat
  observedSequence : Nat
  direction : Direction
  directionOffset : Nat
  forwardStatus : String
deriving DecidableEq

/-- `ParserVersion` -/
structure ParserRow where
  name : SourceKind
  version : String
  buildSha256 : String
deriving DecidableEq

/-- `Document` -/
structure DocumentRow where
  key : DocumentKey
  sourceDocumentKey : String
  subtype : String
  externalDocumentCode : Option String
  externalDocumentCodeSuffix : Option String
  commercialReferenceCode : Option String
  orderCode : Option String
  tableCode : Option String
  operatorCode : Option String
  terminalCode : Option String
deriving DecidableEq

/-- `DocumentVersion`, but for what it repeats of its document. -/
structure VersionRow where
  document : DocumentKey
  grossTotal : Option Number
  netTotal : Option Number
  discountTotal : Option Number
  taxTotal : Option Number
  paymentMethod : Option String
  normalizedText : String
  encoding : Option String
  parseConfidence : Int
  evidenceLevel : String
  rawMetadata : Json
deriving DecidableEq

/-- `DocumentLine` -/
structure LineRow where
  document : DocumentKey
  sequence : Int
  itemCode : Option String
  description : Option String
  /-- the quantity, the prices, the rates and the total -/
  amounts : List (Option Number)
  lineState : Option String
  rawText : Option String
  sourceDirection : Option String
  sourceOffset : Option Int
  sourceLength : Option Int
  sourceFrameId : Option String
deriving DecidableEq

/-- `Payment` -/
structure PaymentRow where
  document : DocumentKey
  externalPaymentCode : Option String
  method : Option String
  amount : Option Number
  currency : String
  status : String
  evidenceLevel : String
deriving DecidableEq

/-- `ImportItem` -/
structure ImportItemRow where
  job : JobKey
  artifactRole : ArtifactRole
  originalPath : String
deriving DecidableEq

inductive Row where
  | session (row : SessionRow)
  | job (row : JobRow)
  | rawPayload (row : RawPayloadRow)
  | chunk (row : ChunkRow)
  | parser (row : ParserRow)
  | document (row : DocumentRow)
  | version (row : VersionRow)
  | line (row : LineRow)
  | payment (row : PaymentRow)
  | importItem (row : ImportItemRow)
deriving DecidableEq

/-! ## Columns and constraints -/

def DocumentRow.fits (row : DocumentRow) : Bool :=
  within 191 row.sourceDocumentKey && within 128 row.subtype &&
    optionalWithin 128 row.externalDocumentCode &&
    optionalWithin 16 row.externalDocumentCodeSuffix &&
    optionalWithin 128 row.commercialReferenceCode && optionalWithin 128 row.orderCode &&
    optionalWithin 128 row.tableCode && optionalWithin 128 row.operatorCode &&
    optionalWithin 128 row.terminalCode

/-- A JSON column takes JSON only. -/
def VersionRow.fits (row : VersionRow) : Bool :=
  inMoney row.grossTotal && inMoney row.netTotal && inMoney row.discountTotal &&
    inMoney row.taxTotal && optionalWithin 128 row.paymentMethod && inText row.normalizedText &&
    optionalWithin 64 row.encoding && within 32 row.evidenceLevel && isJson row.rawMetadata

def LineRow.fits (row : LineRow) : Bool :=
  inInteger row.sequence && optionalWithin 128 row.itemCode && optionalWithin 512 row.description &&
    row.amounts.all inMoney && optionalWithin 64 row.lineState && row.rawText.all inText &&
    optionalWithin 32 row.sourceDirection && row.sourceOffset.all inBigInteger &&
    row.sourceLength.all inBigInteger && optionalWithin 128 row.sourceFrameId

def PaymentRow.fits (row : PaymentRow) : Bool :=
  optionalWithin 128 row.externalPaymentCode && optionalWithin 128 row.method &&
    inMoney row.amount && within 3 row.currency && within 48 row.status &&
    within 32 row.evidenceLevel

def Row.fits : Row → Bool
  | .session row =>
    within 128 row.sourceInstance && within 128 row.sourceSessionId && within 48 row.status
  | .job row =>
    within 512 row.sourceKey && within 128 row.sourceInstance && within 128 row.sourceJobId &&
      inText row.manifestPath && optionalWithin 64 row.boundarySource && within 48 row.status
  | .rawPayload row => inText row.sourcePath
  | .chunk row => within 64 row.forwardStatus
  | .parser row => within 64 row.version
  | .document row => row.fits
  | .version row => row.fits
  | .line row => row.fits
  | .payment row => row.fits
  | .importItem row => inText row.originalPath

section
variable (readers : Readers)

def sameText (a b : String) : Bool := readers.collation a == readers.collation b

/-- The rows share the columns of a unique constraint. -/
def Row.clash : Row → Row → Bool
  | .session a, .session b => a.key == b.key
  | .job a, .job b => sameText readers a.sourceKey b.sourceKey || a.key == b.key
  | .rawPayload a, .rawPayload b =>
    a.job == b.job && a.artifactRole == b.artifactRole &&
      a.sourcePathSha256 == b.sourcePathSha256
  | .chunk a, .chunk b =>
    a.session == b.session && (a.sequence == b.sequence ||
      a.observedSequence == b.observedSequence ||
      (a.direction == b.direction && a.directionOffset == b.directionOffset))
  | .parser a, .parser b =>
    a.name == b.name && sameText readers a.version b.version && a.buildSha256 == b.buildSha256
  | .document a, .document b => a.key == b.key
  | .line a, .line b => a.document == b.document && a.sequence == b.sequence
  | .importItem a, .importItem b => a.job == b.job && a.artifactRole == b.artifactRole
  | _, _ => false

def rules : Rules Row := ⟨Row.fits, Row.clash readers⟩

/-- The devices of the configuration, and the rows in the order they were written. -/
structure Database where
  devices : List String
  rows : List Row := []
deriving DecidableEq

variable (db : Database) (envelope : NormalizedEnvelope)

def Database.knows (deviceId : String) : Bool := db.devices.any fun d => sameText readers d deviceId

def Database.jobWithKey (sourceKey : String) : Option JobRow :=
  db.rows.findSome? fun
    | .job row => if sameText readers row.sourceKey sourceKey then some row else none
    | _ => none

def Database.hasSession (key : SessionKey) : Bool :=
  db.rows.any fun
    | .session row => row.key == key
    | _ => false

/-! ## The rows of an envelope -/

/-- `a or b` on texts -/
def textOr (a : Option String) (b : String) : String :=
  match a with
  | some text => if text = "" then b else text
  | none => b

/-- `f"\x7bip\x7d:\x7bport\x7d"` of the device -/
def sourceScope : String :=
  envelope.deviceEndpoint.ip ++ ":" ++ toString envelope.deviceEndpoint.port

def sourceSessionId : String :=
  textOr envelope.sourceSessionId (textOr envelope.connectionId ("job:" ++ envelope.sourceJobId))

def sessionKey : SessionKey where
  sourceSystem := envelope.sourceKind
  sourceInstance := readers.collation envelope.sourceInstanceId
  sourceScope := readers.collation (sourceScope envelope)
  sourceSessionId := readers.collation (sourceSessionId envelope)

def jobKey : JobKey where
  sourceSystem := envelope.sourceKind
  sourceInstance := readers.collation envelope.sourceInstanceId
  sourceScope := readers.collation (sourceScope envelope)
  sourceJobId := readers.collation envelope.sourceJobId

def sessionRow : SessionRow where
  key := sessionKey readers envelope
  sourceInstance := envelope.sourceInstanceId
  sourceSessionId := sourceSessionId envelope
  status := envelope.status

/-- `_manifest_path` -/
def manifestPath : String :=
  match envelope.artifacts.find? fun artifact => artifact.role = .captureManifest with
  | some artifact => artifact.originalPath
  | none =>
    match envelope.metadata.get? "source_path" with
    | some value => strJson value
    | none => envelope.sourceKey

def jobRow : JobRow where
  key := jobKey readers envelope
  sourceKey := envelope.sourceKey
  sourceInstance := envelope.sourceInstanceId
  sourceJobId := envelope.sourceJobId
  manifestSha256 := envelope.manifestSha256
  manifestPath := manifestPath envelope
  boundarySource := envelope.boundarySource
  status := envelope.status

def rawPayloadRow (artifact : ArtifactSnapshot) : RawPayloadRow where
  job := jobKey readers envelope
  artifactRole := artifact.role
  sourcePath := artifact.originalPath
  sourcePathSha256 := readers.codec.sha256 artifact.originalPath.toUTF8.toList

/-- `_insert_artifacts` -/
def insertArtifacts : List (Step Row String) :=
  (envelope.artifacts.map fun artifact =>
    .add (.rawPayload (rawPayloadRow readers envelope artifact))) ++ [.flush]

/-! ## Chunks -/

/-- `_direction_raw`: the first raw artifact of a direction. -/
def directionRaw (direction : Direction) : Option Bytes := envelope.content (rawRole direction)

/-- `_chunk_payload` returns: the bytes of the chunk are in the raw artifact. -/
def chunkInRaw (chunk : StreamChunk) : Bool :=
  chunk.byteCount == 0 ||
    match directionRaw envelope chunk.direction with
    | none => false
    | some raw =>
      chunk.jobOffset + chunk.byteCount ≤ raw.length &&
        readers.codec.sha256 ((raw.drop chunk.jobOffset).take chunk.byteCount) == chunk.sha256

/-- The row of the chunk at a position. -/
def chunkRow (chunk : StreamChunk) (position : Nat) : ChunkRow where
  session := sessionKey readers envelope
  job := jobKey readers envelope
  sequence := chunk.sequence
  observedSequence := chunk.observedSequence.getD (position + 1)
  direction := chunk.direction
  directionOffset := chunk.jobOffset
  forwardStatus := textOr chunk.forwardStatus "UNKNOWN"

/-- `_insert_chunks` -/
def insertChunks : List (Step Row String) :=
  envelope.chunks.zipIdx.map fun (chunk, position) =>
    if chunkInRaw readers envelope chunk then
      .add (.chunk (chunkRow readers envelope chunk position))
    else .raise "ValueError"

/-! ## Documents -/

def documentKey (document : NormalizedDocument) : DocumentKey where
  job := jobKey readers envelope
  sourceDocumentKey := readers.collation document.externalId

/-- A step that adds a row of a table, or the error its values raise. -/
def addTo {α : Type} (table : α → Row) (row : Except String α) : Step Row String :=
  match row with
  | .ok row => .add (table row)
  | .error name => .raise name

def documentRow (document : NormalizedDocument) : DocumentRow :=
  let code (keys : List String) := optionalText (first document.semantic keys)
  { key := documentKey readers envelope document
    sourceDocumentKey := document.externalId
    subtype := textOr document.subtype document.documentType.value
    externalDocumentCode :=
      code ["external_document_code", "document_code", "document_number", "number"]
    externalDocumentCodeSuffix := code ["external_document_code_suffix", "document_number_suffix"]
    commercialReferenceCode := code ["commercial_reference_code", "commercial_document_reference"]
    orderCode := code ["order_code", "order_reference", "order_number"]
    tableCode := code ["table_code", "table", "table_number"]
    operatorCode := code ["operator_code", "operator", "cashier"]
    terminalCode := code ["terminal_code", "terminal", "register"] }

def versionRow (document : NormalizedDocument) : Except String VersionRow := do
  let semantic := document.semantic
  let amount (keys : List String) := asDecimal readers (first semantic keys)
  let parseConfidence ← confidence readers semantic document.evidence
  issues semantic
  return {
    document := documentKey readers envelope document
    grossTotal := amount ["gross_total", "total", "total_amount"]
    netTotal := amount ["net_total", "taxable_total"]
    discountTotal := amount ["discount_total", "discount"]
    taxTotal := amount ["tax_total", "vat_total", "tax"]
    paymentMethod := optionalText (first semantic ["payment_method", "payment"])
    normalizedText := text (first semantic ["normalized_text", "text", "clean_text"])
    encoding := optionalText (first semantic ["encoding"])
    parseConfidence
    evidenceLevel := document.evidence
    rawMetadata := semantic }

/-- `int(value.get("sequence", sequence))` for the line at a position -/
def lineSequence (value : Json) (position : Nat) : Except String Int :=
  match value.get? "sequence" with
  | some sequence => intOf readers sequence
  | none => .ok (position + 1)

/-- The row of the line at a position. -/
def lineRow (document : DocumentKey) (value : Json) (position : Nat) : Except String LineRow := do
  let sequence ← lineSequence readers value position
  let amount (value : Json) := asDecimal readers value
  let sourceOffset ← integerOrNone readers (field value "source_offset")
  let sourceLength ← integerOrNone readers (field value "source_length")
  return {
    document, sequence
    itemCode := optionalText (first value ["item_code", "code", "sku"])
    description := optionalText (first value ["description", "name", "text"])
    amounts := [amount (field value "quantity"), amount (first value ["unit_price", "price"]),
      amount (field value "original_unit_price"), amount (field value "modified_unit_price"),
      amount (field value "discount"), amount (field value "surcharge"),
      amount (first value ["tax_rate", "vat_rate"]), amount (first value ["line_total", "total"])]
    lineState := optionalText (first value ["state", "status"])
    rawText := optionalText (field value "raw_text")
    sourceDirection := optionalText (field value "source_direction")
    sourceOffset, sourceLength
    sourceFrameId := optionalText (field value "source_frame_id") }

/-- `_insert_semantic_lines` -/
def insertSemanticLines (document : DocumentKey) (semantic : Json) : List (Step Row String) :=
  match orElse readers (field semantic "lines") (orElse readers (field semantic "items") (.arr [])) with
  | .arr values =>
    values.zipIdx.filterMap fun
      | (.obj fields, position) => some (addTo .line (lineRow readers document (.obj fields) position))
      | _ => none
  | _ => []

def paymentRow (document : DocumentKey) (value : Json) : Except String PaymentRow := do
  let _ ← paymentTime readers (field value "paid_at")
  return {
    document
    externalPaymentCode := optionalText (field value "code")
    method := optionalText (first value ["method", "type"])
    amount := asDecimal readers (field value "amount")
    currency := text (field value "currency") "EUR"
    status := text (field value "status") "RECORDED"
    evidenceLevel := text (field value "evidence") "UNKNOWN" }

/-- `_insert_semantic_payments` -/
def insertSemanticPayments (document : DocumentKey) (semantic : Json) : List (Step Row String) :=
  let values :=
    match orElse readers (field semantic "payments") (.arr []) with
    | .arr values => values
    | .obj fields => [.obj fields]
    | _ => []
  values.filterMap fun
    | .obj fields =>
      if asDecimal readers (field (.obj fields) "amount") = none then none
      else some (addTo .payment (paymentRow readers document (.obj fields)))
    | _ => none

/-- One document with its version, its lines and its payments. -/
def insertDocument (document : NormalizedDocument) : List (Step Row String) :=
  [.add (.document (documentRow readers envelope document)), .flush,
    addTo .version (versionRow readers envelope document), .flush] ++
  insertSemanticLines readers (documentKey readers envelope document) document.semantic ++
  insertSemanticPayments readers (documentKey readers envelope document) document.semantic

def parserRow : ParserRow :=
  let version := textOr envelope.parserVersion "unknown"
  { name := envelope.sourceKind
    version := version
    buildSha256 := readers.codec.sha256 (envelope.sourceKind.value ++ ":" ++ version).toUTF8.toList }

/-- `_insert_documents` -/
def insertDocuments : List (Step Row String) :=
  if envelope.documents = [] then []
  else
    let parser := Row.parser (parserRow readers envelope)
    (if ∃ row ∈ db.rows, Row.clash readers row parser = true then [] else [.add parser, .flush]) ++
      envelope.documents.flatMap (insertDocument readers envelope)

/-! ## The import -/

/-- `_insert_envelope` -/
def insertEnvelope : List (Step Row String) :=
  (if db.knows readers envelope.deviceId then [] else [.raise "ValueError"]) ++
  (if db.hasSession (sessionKey readers envelope) then []
    else [.add (.session (sessionRow readers envelope)), .flush]) ++
  [.add (.job (jobRow readers envelope)), .flush] ++ insertArtifacts readers envelope ++
  insertChunks readers envelope ++ insertDocuments readers db envelope

/-- `sorted(\x7bartifact.role.value for …\x7d) or ["CAPTURE_MANIFEST"]`, up to the order -/
def artifactRoles : List ArtifactRole :=
  match (envelope.artifacts.map ArtifactSnapshot.role).dedup with
  | [] => [.captureManifest]
  | roles => roles

/-- The last artifact with a role stands for it. -/
def importItemRow (role : ArtifactRole) : ImportItemRow where
  job := jobKey readers envelope
  artifactRole := role
  originalPath :=
    match envelope.artifacts.reverse.find? fun artifact => artifact.role = role with
    | some artifact => artifact.originalPath
    | none => manifestPath envelope

/-- `_record_import_attempt` of an import -/
def recordImport : List (Step Row String) :=
  (artifactRoles envelope).map fun role => .add (.importItem (importItemRow readers envelope role))

/-- What an import of a new source key does to the session. -/
def importSteps : List (Step Row String) :=
  insertEnvelope readers db envelope ++ recordImport readers envelope

/-- `store_import` -/
def storeImport : StoreOutcome × Database :=
  match db.jobWithKey readers envelope.sourceKey with
  | some job =>
    if job.manifestSha256 ≠ envelope.manifestSha256 then (.raised "ValueError", db)
    else (.stored .duplicate, db)
  | none =>
    match commit (rules readers) db.rows (importSteps readers db envelope) with
    | .ok rows => (.stored .imported, { db with rows })
    | .error .integrity =>
      -- what another writer may have stored meanwhile is looked up once more
      match db.jobWithKey readers envelope.sourceKey with
      | some job =>
        if job.manifestSha256 = envelope.manifestSha256 then (.stored .duplicate, db)
        else (.raised "ValueError", db)
      | none => (.raised "ValueError", db)
    | .error .data => (.unavailable, db)
    | .error (.raised name) => (.raised name, db)

/-! ## What becomes of an import -/

/-- No job has the source key, no value raises, and every row can be written. -/
structure Storable : Prop where
  newKey : db.jobWithKey readers envelope.sourceKey = none
  quiet : ∀ error, Step.raise error ∉ importSteps readers db envelope
  fits : ∀ row ∈ Transaction.added (importSteps readers db envelope), row.fits = true
  free : ∀ other ∈ db.rows, ∀ row ∈ Transaction.added (importSteps readers db envelope),
    Row.clash readers other row = false
  apart : (Transaction.added (importSteps readers db envelope)).Pairwise fun other row =>
    Row.clash readers other row = false

/-- The source key has another manifest, or a constraint or a value refuses the
envelope before a column does. -/
def Refused : Prop :=
  match db.jobWithKey readers envelope.sourceKey with
  | some job => job.manifestSha256 ≠ envelope.manifestSha256
  | none => Transaction.Refused (rules readers) db.rows (importSteps readers db envelope)

end

section
variable {readers : Readers} {db : Database} {envelope : NormalizedEnvelope}

theorem commit_storable (hkey : db.jobWithKey readers envelope.sourceKey = none) {rows : List Row} :
    commit (rules readers) db.rows (importSteps readers db envelope) = .ok rows ↔
      Storable readers db envelope ∧
        rows = db.rows ++ Transaction.added (importSteps readers db envelope) := by
  rw [commit_eq_ok]
  constructor
  · rintro ⟨hinsertable, hquiet, rfl⟩
    rw [written_eq hquiet, List.nil_append] at hinsertable ⊢
    obtain ⟨hfits, hfree, hapart⟩ := insertable_iff.mp hinsertable
    exact ⟨⟨hkey, firstError_eq_none.mp hquiet, hfits, hfree, hapart⟩, rfl⟩
  · rintro ⟨h, rfl⟩
    have hquiet := firstError_eq_none.mpr h.quiet
    rw [written_eq hquiet, List.nil_append]
    exact ⟨insertable_iff.mpr ⟨h.fits, h.free, h.apart⟩, hquiet, rfl⟩

/-- An import writes its rows, and nothing else is ever written. -/
theorem storeImport_imported :
    (storeImport readers db envelope).1 = .stored .imported ↔ Storable readers db envelope := by
  unfold storeImport
  cases hkey : db.jobWithKey readers envelope.sourceKey with
  | some job =>
    refine iff_of_false ?_ fun h => by simp [h.newKey] at hkey
    dsimp only
    split <;> simp
  | none =>
    dsimp only
    cases hcommit : commit (rules readers) db.rows (importSteps readers db envelope) with
    | ok rows => exact iff_of_true rfl ((commit_storable hkey).mp hcommit).1
    | error fault =>
      refine iff_of_false ?_ fun h => ?_
      · cases fault <;> simp
      · rw [(commit_storable hkey).mpr ⟨h, rfl⟩] at hcommit
        cases hcommit

theorem storeImport_rows (h : Storable readers db envelope) : storeImport readers db envelope =
    (.stored .imported, { db with
      rows := db.rows ++ Transaction.added (importSteps readers db envelope) }) := by
  unfold storeImport
  rw [h.newKey]
  dsimp only
  rw [(commit_storable h.newKey).mpr ⟨h, rfl⟩]

theorem storeImport_unchanged (h : ¬Storable readers db envelope) :
    (storeImport readers db envelope).2 = db := by
  unfold storeImport
  cases hkey : db.jobWithKey readers envelope.sourceKey with
  | some job =>
    dsimp only
    split <;> rfl
  | none =>
    dsimp only
    cases hcommit : commit (rules readers) db.rows (importSteps readers db envelope) with
    | ok rows => exact absurd ((commit_storable hkey).mp hcommit).1 h
    | error fault => cases fault <;> simp

/-- What a worker does not handle is raised exactly by a refused envelope. -/
theorem storeImport_raised : (∃ name, (storeImport readers db envelope).1 = .raised name) ↔
    Refused readers db envelope := by
  unfold storeImport Refused
  cases hkey : db.jobWithKey readers envelope.sourceKey with
  | some job =>
    dsimp only
    split <;> simp [*]
  | none =>
    dsimp only
    rw [commit_refused]
    cases hcommit : commit (rules readers) db.rows (importSteps readers db envelope) with
    | ok rows => simp
    | error fault => cases fault <;> simp

theorem Storable.not_refused (h : Storable readers db envelope) : ¬Refused readers db envelope := by
  rw [← storeImport_raised]
  rintro ⟨name, hname⟩
  rw [storeImport_imported.mpr h] at hname
  cases hname

end

end RetailPrintGuard.Db.IngestStore
