import RetailPrintGuard.Parser.RchCounters
import RetailPrintGuard.Parser.RchDrafts

/-! # The RCH parser

The commands of a request open, fill and close one document after the other;
what a document prints is read when it is finished. -/
namespace RetailPrintGuard.Parser.Rch
open RetailPrintGuard.Common.Amounts
open RetailPrintGuard.Common.Domain (DocumentType SourceSpan)
open RetailPrintGuard.Common.PrintedText RetailPrintGuard.Common.Python
open RetailPrintGuard.Library RetailPrintGuard.Library.DecimalFloat
open RetailPrintGuard.Library.Regex
open RetailPrintGuard.Parser.Documents RetailPrintGuard.Parser.RchCounters
open RetailPrintGuard.Parser.RchDrafts RetailPrintGuard.Parser.RchPatterns
open RetailPrintGuard.Parser.RchFraming (Frame FramedStream frameStream)

def maxDocuments : Nat := 256
def maxLines : Nat := 32768

def encodingName : String := "latin-1-lossless-byte-view"

/-! ## Filling a draft -/

/-- `_source` -/
def source (frame : Frame) : SourceSpan where
  direction := "CLIENT_TO_DEVICE"
  offset := frame.offset
  length := frame.raw.length
  frameId := some (toString frame.frameId)

/-- `_append_visible_text` -/
def appendVisibleText (draft : Draft) (frame : Frame) (text : Text) : Draft :=
  { draft with
    texts := draft.texts ++ [text]
    textSources := draft.textSources ++ [source frame] }

/-- A draft with all its lines takes no further one. -/
def limitLines (draft : Draft) : Draft :=
  if draft.warnings.contains "line_limit_exceeded" then draft
  else { draft with warnings := draft.warnings ++ ["line_limit_exceeded"] }

/-- `value or None` -/
def nonempty (text : Text) : Option Text := if text.isEmpty then none else some text

/-- The amounts printed in a text. -/
def printedAmounts (text : Text) : List Decimal :=
  (finditer printedMoneyRe text).map fun found => printedMoney (value found "value")

/-- The order and the table a line names. -/
def namesOrderAndTable (draft : Draft) (text : Text) : Draft :=
  let draft := match fullmatch orderRe text with
    | some found => { draft with orderCode := nonempty (value found "value") }
    | none => draft
  match fullmatch tableRe text with
  | some found => { draft with tableCode := nonempty (value found "value") }
  | none => draft

/-- The own number of a management document, and the commercial one it refers to. -/
def namesDocuments (draft : Draft) (text : Text) : Draft :=
  match search commercialReferenceCodeRe text with
  | some found =>
    { draft with
      commercialReferenceCode := some (documentCode (value found "value"))
      commercialReferenceCodeEvidence := some "RCH_PRINTED_COMMERCIAL_REFERENCE" }
  | none =>
    match search managementDocumentCodeRe text with
    | some found =>
      let code := documentCode (value found "value")
      let draft :=
        if draft.externalDocumentCode.any (· != code) && draft.commercialReferenceCode.isNone then
          { draft with
            commercialReferenceCode := draft.externalDocumentCode
            commercialReferenceCodeEvidence :=
              some "RCH_PRINTED_UNQUALIFIED_DOCUMENT_BEFORE_MANAGEMENT_FOOTER" }
        else draft
      { draft with
        externalDocumentCode := some code
        externalDocumentCodeEvidence := some "RCH_PRINTED_MANAGEMENT_FOOTER" }
    | none =>
      match search documentCodeRe text with
      | some found =>
        { draft with
          commercialReferenceCode := some (documentCode (value found "value"))
          commercialReferenceCodeEvidence :=
            some "RCH_REQUEST_UNQUALIFIED_COMMERCIAL_DOCUMENT_NUMBER" }
      | none => draft

/-- The first amount behind a total is the total, the last of several the tax. -/
def printsTotal (draft : Draft) (text : Text) : Draft :=
  match matchStart printedTotalRe text with
  | none => draft
  | some found =>
    match printedAmounts (value found "tail") with
    | [] => draft
    | first :: rest =>
      { draft with
        total := draft.total.or (some first)
        taxTotal := if rest.isEmpty then draft.taxTotal else rest.getLast? }

/-- The payment a line prints. -/
def printedPayment (text : Text) : Option PaymentRecord :=
  (matchStart paymentRe text).bind fun found =>
    (printedAmounts (value found "tail")).getLast?.map fun amount =>
      { method := some (upper (value found "method")), amount }

/-- The line a management text gives. -/
def managementLine (draft : Draft) (frame : Frame) (text : Text) : DocumentLine :=
  let amount := (finditer printedMoneyRe text).getLast?
  let price := amount.map fun found => printedMoney (value found "value")
  let description := match amount with
    | some found => stripBy " -:;".toList.contains found.lead
    | none => strip text
  { sequence := draft.lines.length + 1
    description := nonempty description
    quantity := if description.isEmpty then none else some ⟨false, 1, 0⟩
    unitPrice := price
    lineTotal := price
    rawText := text
    source := source frame }

/-- `_append_management_line` -/
def appendManagementLine (draft : Draft) (frame : Frame) (text : Text) : Except Raised Draft :=
  if maxLines ≤ draft.lines.length then .ok (limitLines draft)
  else do
    let line ← validateLine (managementLine draft frame text)
    let draft := { draft with lines := draft.lines ++ [line] }
    let draft := printsTotal (namesDocuments (namesOrderAndTable draft text) text) text
    match printedPayment text with
    | none => return draft
    | some payment =>
      let payment ← validatePayment payment
      return { draft with payments := draft.payments ++ [payment] }

/-- The quantity of an item, one where it is not given. -/
def itemQuantity (found : Match) : Decimal := decimalOf ((found.group "quantity").getD ['1'])

/-- `_append_commercial_item` -/
def appendCommercialItem (draft : Draft) (frame : Frame) (found : Match) : Except Raised Draft :=
  if maxLines ≤ draft.lines.length then .ok (limitLines draft)
  else do
    let unit ← cents (value found "amount")
    let total ← lineTotal unit (itemQuantity found)
    let line ← validateLine
      { sequence := draft.lines.length + 1
        itemCode := found.group "code"
        description := found.group "description"
        quantity := some (itemQuantity found)
        unitPrice := some unit
        lineTotal := some total
        rawText := frame.text
        source := source frame }
    return { draft with lines := draft.lines ++ [line] }

/-! ## Finishing a draft -/

/-- The type, subtype and confidence of a management document. -/
def managementKind (text : Text) : DocumentType × String × Nat :=
  let shown := upper text
  match managementDocumentClassification text with
  | some classification => classification
  | none =>
    if contains shown "COPIA CONFORME" then (.conformingCopy, "COPIA_CONFORME_LITERAL", 90)
    else if contains shown "PRECONTO" then (.preBill, "PRECONTO_LITERAL", 90)
    else if contains shown "COMANDA" then (.kitchenOrder, "COMANDA_LITERAL", 90)
    else if contains shown "CORRISPETTIVO NON RISCOSSO" then
      (.managementDocument, "CORRISPETTIVO_NON_RISCOSSO_LITERAL", 90)
    else (.managementDocument, "RCH_GESTIONALE_INFERRED", 70)

/-- The draft with the codes its identity prints. -/
def identified (draft : Draft) (identity : PrintedRchIdentity) : Draft :=
  let draft := match identity.ownDocumentCode with
    | some (code, evidence) =>
      { draft with externalDocumentCode := some code, externalDocumentCodeEvidence := some evidence }
    | none => draft
  match identity.commercialReference with
  | some (code, evidence) =>
    if draft.commercialReferenceCode.isNone || identity.ownDocumentCode.isSome then
      { draft with
        commercialReferenceCode := some code
        commercialReferenceCodeEvidence := some evidence }
    else draft
  | none => draft

/-- `text.rsplit("-", 1)[-1]` -/
def lastPart (text : Text) : Text := (text.reverse.takeWhile (· != '-')).reverse

/-- The suffix of the response and the printed code tell different numbers. -/
def suffixMismatch (draft : Draft) : Bool :=
  match draft.externalDocumentCode, draft.externalDocumentCodeSuffix with
  | some code, some suffix =>
    !code.isEmpty && !suffix.isEmpty && lastPart (replaceChar '/' '-' code) != suffix
  | _, _ => false

def optionalText (text : Option Text) : Json := (text.map fun t => Json.str (String.ofList t)).getD .null

def optionalString (text : Option String) : Json := (text.map Json.str).getD .null

/-- The `raw_metadata` of a draft. -/
def draftMetadata (draft : Draft) (text : Text) (identity : PrintedRchIdentity)
    (header : PrintedReceiptHeader) (responseCounter : Option Text) : List (String × Json) :=
  let shown := upper text
  let unpaid := draft.kind == .management && contains shown "CORRISPETTIVO NON RISCOSSO"
  let printed := identity.application.or identity.footer
  let codeSeen := draft.externalDocumentCode.any fun code => !code.isEmpty
  let suffixSeen := draft.externalDocumentCodeSuffix.any fun suffix => !suffix.isEmpty
  [("source_start_offset", .num draft.startOffset),
    ("source_end_offset", .num draft.endOffset),
    ("source_frame_ids", .arr (draft.frameIds.map fun id => .num id)),
    ("total_command_code", optionalText draft.totalCode),
    ("response_counter_suffix", optionalText responseCounter),
    ("response_status_digits", optionalText draft.responseStatusDigits),
    ("external_document_code_evidence", optionalString draft.externalDocumentCodeEvidence),
    ("external_document_code_suffix_evidence",
      optionalString draft.externalDocumentCodeSuffixEvidence),
    ("commercial_reference_code_evidence", optionalString draft.commercialReferenceCodeEvidence),
    ("document_timestamp_evidence", optionalString (printed.map fun _ => "RCH_PRINTED_TEXT")),
    ("document_timestamp_precision", optionalString (printed.map (·.precision))),
    ("application_timestamp_evidence",
      optionalString (identity.application.map fun _ => "RCH_APPLICATION_PRINTED_TEXT")),
    ("application_timestamp_precision", optionalString (identity.application.map (·.precision))),
    ("rch_footer_timestamp_evidence",
      optionalString (identity.footer.map fun _ => "RCH_FOOTER_PRINTED_TEXT")),
    ("rch_footer_timestamp_precision", optionalString (identity.footer.map (·.precision))),
    ("rch_serial_number_evidence", optionalString (identity.serialNumber.map Prod.snd)),
    ("receipt_header_evidence", optionalString (header.value.map fun _ => "RCH_PRINTED_HEADER")),
    ("receipt_header_line_indexes", .arr (header.lineIndexes.map fun index => .num index)),
    ("receipt_header_source_spans", .arr (header.sourceSpans.map fun span =>
      .obj [("direction", .str span.direction), ("offset", .num span.offset),
        ("length", .num span.length), ("frame_id", optionalString span.frameId)])),
    ("rch_clock_offset_seconds", match identity.application, identity.footer with
      | some application, some footer => .num (clockOffsetSeconds footer application)
      | _, _ => .null),
    ("progressive_observation_status", .str <|
      if codeSeen then "FULL_CODE_OBSERVED_IN_CAPTURE"
      else if suffixSeen then "SUFFIX_ONLY_OBSERVED_IN_CAPTURE"
      else "NOT_OBSERVED_IN_CAPTURE"),
    ("semantic_evidence", .str "INFERRED_FROM_CAPTURE"),
    ("economic_close", .bool unpaid),
    ("settlement_kind",
      if unpaid && contains shown "CONTO: CAMERA" then .str "ROOM_CHARGE" else .null)]

/-- What all documents of one request share. -/
structure RequestSource where
  context : JobContext
  sourceHash : String

/-- `uuid5` of a name within the job -/
def documentId (context : JobContext) (name : String) : UUID :=
  context.uuid5 ("retailprintguard:rch:" ++ context.jobId ++ ":" ++ name)

def Kind.name : Kind → String
  | .commercial => "commercial"
  | .management => "management"

/-- The payment of a commercial document is its total. -/
def commercialPayments (draft : Draft) : List PaymentRecord :=
  draft.total.toList.map fun amount => { method := none, amount }

/-- The total of a management document without one is its last amount. -/
def withLastAmount (draft : Draft) (text : Text) : Draft :=
  if draft.total.isSome then draft else { draft with total := (printedAmounts text).getLast? }

/-- `_draft_document` -/
def draftDocument (origin : RequestSource) (draft : Draft) (responseCounter : Option Text) :
    Except Raised NormalizedDocument := do
  let text := strip (join ['\n'] draft.texts)
  let header ← printedReceiptHeader draft
  let headerFrames := header.sourceSpans.filterMap (·.frameId)
  let economicLines := draft.lines.filter fun line =>
    !(line.source.frameId.any headerFrames.contains)
  let identity ← printedRchIdentity origin.context draft
  let draft := identified draft identity
  let (type, subtype, confidence) := match draft.kind with
    | .commercial => (DocumentType.commercialDocument, "RCH_COMMERCIALE_INFERRED", 72)
    | .management => managementKind text
  let draft := match draft.kind with
    | .commercial => draft
    | .management => withLastAmount draft text
  let payments ← match draft.kind with
    | .commercial => (commercialPayments draft).mapM validatePayment
    | .management => pure draft.payments
  let warnings := distinct (draft.warnings ++ identity.warnings ++
    if suffixMismatch draft then ["rch_progressive_suffix_mismatch"] else [])
  validateDocument {
    id := documentId origin.context
      (Kind.name draft.kind ++ ":" ++ toString draft.startOffset ++ ":" ++ origin.sourceHash)
    type
    subtype
    externalDocumentCode := draft.externalDocumentCode
    externalDocumentCodeSuffix := draft.externalDocumentCodeSuffix
    commercialReferenceCode := draft.commercialReferenceCode
    orderCode := draft.orderCode
    tableCode := draft.tableCode
    receiptHeader := header.value
    applicationTimestamp := identity.application.map (·.value)
    rchFooterTimestamp := identity.footer.map (·.value)
    rchSerialNumber := identity.serialNumber.map Prod.fst
    documentTimestamp := (identity.application.or identity.footer).map (·.value)
    grossTotal := draft.total
    taxTotal := draft.taxTotal
    status := if draft.complete then "COMPLETE" else "PARTIAL"
    normalizedText := text
    encoding := encodingName
    parseConfidence := if draft.complete then confidence else max 20 (confidence - 20)
    evidence := "INFERRED"
    sourcePayloadSha256 := origin.sourceHash
    sourcePath := origin.context.sourcePath
    complete := draft.complete
    warnings
    lines := economicLines
    payments
    rawMetadata := draftMetadata draft text identity header responseCounter }

/-! ## The session -/

structure Session where
  documents : List NormalizedDocument
  active : Option Draft := none

section
variable (origin : RequestSource) (issues : List String) (pass : CounterPass)

/-- `finish`: documents past the limit are dropped. -/
def finish (session : Session) (complete : Bool) (warning : Option String) :
    Except Raised Session :=
  match session.active with
  | none => .ok { session with active := none }
  | some draft =>
    if maxDocuments ≤ session.documents.length then .ok { session with active := none }
    else do
      let draft :=
        { draft with complete, warnings := draft.warnings ++ warning.toList ++ issues }
      let responseCounter := (draft.frameIds.head?.bind pass.status).map (·.counter)
      let document ← draftDocument origin draft responseCounter
      return { documents := session.documents ++ [document], active := none }

/-- A draft with the frame that belongs to it. -/
def extend (draft : Draft) (frame : Frame) : Draft :=
  { draft with
    frameIds := draft.frameIds ++ [frame.frameId]
    endOffset := frame.offset + frame.raw.length }

def newDraft (session : Session) (kind : Kind) (frame : Frame) : Draft where
  kind := kind
  ordinal := session.documents.length + 1
  startOffset := frame.offset
  frameIds := [frame.frameId]
  endOffset := frame.offset + frame.raw.length

/-- The draft of a commercial document carries the counter attached to it. -/
def commercialDraft (session : Session) (frame : Frame) : Draft :=
  let observed := pass.status frame.frameId
  { newDraft session .commercial frame with
    externalDocumentCodeSuffix := observed.map (·.counter)
    externalDocumentCodeSuffixEvidence :=
      observed.map fun _ => "RCH_STATUS_RESPONSE_SUFFIX_SEQUENCE_CONFIRMED"
    responseStatusDigits := observed.map (·.statusDigits) }

/-- `=o` closes the management document it opened, and interrupts another one. -/
def openManagement (session : Session) (frame : Frame) : Except Raised Session := do
  match session.active with
  | some draft =>
    if draft.kind = .management then
      finish origin issues pass { session with active := some (extend draft frame) } true none
    else
      let session ← finish origin issues pass session false
        (some "document_interrupted_by_management_open")
      return { session with active := some (newDraft session .management frame) }
  | none => return { session with active := some (newDraft session .management frame) }

def openCommercial (session : Session) (frame : Frame) : Except Raised Session := do
  let session ← finish origin issues pass session false
    (some "document_interrupted_by_commercial_open")
  return { session with active := some (commercialDraft pass session frame) }

/-- A command inside a management document. -/
def fillManagement (draft : Draft) (frame : Frame) : Except Raised Draft :=
  match fullmatch managementTextRe frame.text with
  | none => .ok draft
  | some found =>
    let visible := value found "text"
    appendManagementLine (appendVisibleText draft frame visible) frame visible

/-- An item with its visible text. -/
def fillItem (draft : Draft) (frame : Frame) (found : Match) : Except Raised Draft := do
  let draft ← appendCommercialItem draft frame found
  let amount ← cents (value found "amount")
  return appendVisibleText draft frame (value found "description" ++ [' '] ++ formatCents amount)

/-- A total with its visible text. -/
def fillTotal (draft : Draft) (frame : Frame) (found : Match) : Except Raised Draft := do
  let total ← cents (value found "amount")
  let draft := { draft with total := some total, totalCode := found.group "code" }
  return appendVisibleText draft frame ("TOTALE ".toList ++ formatCents total)

/-- A command inside a commercial document, and whether it closes it. -/
def fillCommercial (draft : Draft) (frame : Frame) : Except Raised (Draft × Bool) :=
  match fullmatch itemRe frame.text with
  | some found => (fillItem draft frame found).map fun draft => (draft, false)
  | none =>
    match fullmatch commercialTextRe frame.text with
    | some found =>
      let visible := value found "text"
      .ok (namesOrderAndTable (appendVisibleText draft frame visible) visible, false)
    | none =>
      match fullmatch totalRe frame.text with
      | some found => (fillTotal draft frame found).map fun draft => (draft, false)
      | none => .ok (draft, isClose frame && draft.total.isSome)

def sessionStep (session : Session) (frame : Frame) : Except Raised Session :=
  if isManagementOpen frame then openManagement origin issues pass session frame
  else if isCommercialOpen frame then openCommercial origin issues pass session frame
  else
    match session.active with
    | none => .ok session
    | some draft =>
      match draft.kind with
      | .management => (fillManagement (extend draft frame) frame).map fun draft =>
          { session with active := some draft }
      | .commercial => do
        let (draft, closes) ← fillCommercial (extend draft frame) frame
        let session := { session with active := some draft }
        if closes then finish origin issues pass session true none else return session

end

/-! ## The documents of a job -/

def isCancellation (frame : Frame) : Bool := frame.text == "=k".toList

/-- `_cancellation_command_document` -/
def cancellationDocument (origin : RequestSource) (frame : Frame) : NormalizedDocument where
  id := documentId origin.context
    ("cancel-command:" ++ toString frame.offset ++ ":" ++ origin.sourceHash)
  type := .cancellation
  subtype := "RCH_DOCUMENT_CANCEL_COMMAND_OBSERVED"
  status := "COMPLETE"
  normalizedText := "RCH cancellation command observed".toList
  encoding := encodingName
  parseConfidence := 80
  evidence := "INFERRED"
  sourcePayloadSha256 := origin.sourceHash
  sourcePath := origin.context.sourcePath
  complete := true
  rawMetadata :=
    [("source_start_offset", .num frame.offset),
      ("source_end_offset", .num (frame.offset + frame.raw.length)),
      ("source_frame_ids", .arr [.num frame.frameId]),
      ("observed_command", .str "=k"),
      ("semantic_evidence", .str "INFERRED_FROM_CAPTURE_AND_PRINTED_OUTPUT")]

/-- The document of a request without any other one. -/
def unknownDocument (context : JobContext) (request : Bytes) (issues : List String) :
    NormalizedDocument where
  id := documentId context ("unknown:" ++ Sha256.hexdigest request)
  type := .unknown
  subtype := "RCH_MALFORMED_OR_UNRECOGNIZED"
  status := "PARTIAL"
  normalizedText := []
  encoding := encodingName
  parseConfidence := 0
  evidence := "UNKNOWN"
  sourcePayloadSha256 := Sha256.hexdigest request
  sourcePath := context.sourcePath
  complete := false
  warnings := issues
  rawMetadata := [("framing_issues", .arr (issues.map .str))]

/-- `_response_document` -/
def responseDocument (context : JobContext) (raw : Bytes) (response : FramedStream) :
    NormalizedDocument :=
  let valid := response.frames.filter isResponse
  let errors := valid.filterMap fun frame =>
    (fullmatch errorResponseRe frame.text).map fun found => value found "code"
  let unknown := valid.filter fun frame =>
    (fullmatch errorResponseRe frame.text).isNone && (fullmatch successResponseRe frame.text).isNone
  let whole := response.issues.isEmpty && !response.truncated
  let digest := Sha256.hexdigest raw
  { id := documentId context ("response:" ++ digest)
    type := .deviceResponse
    subtype := "RCH_RESPONSE_STREAM_CONFIRMED"
    status :=
      if !errors.isEmpty then "ERROR"
      else if whole && unknown.isEmpty then "COMPLETE"
      else "PARTIAL"
    normalizedText := join ['\n'] (valid.map Frame.text)
    encoding := encodingName
    parseConfidence := if valid.isEmpty then 20 else 100
    evidence := if valid.isEmpty then "UNKNOWN" else "CONFIRMED"
    sourcePayloadSha256 := digest
    sourcePath := context.responseSourcePath.getD context.sourcePath
    complete := whole
    warnings := response.issues ++
      errors.map (fun code => "device_error_status:" ++ String.ofList code) ++
      if unknown.isEmpty then [] else ["unclassified_response"]
    lines := valid.zipIdx.map fun (frame, index) =>
      { sequence := index + 1
        description := some frame.text
        rawText := frame.text
        source := { source frame with direction := "DEVICE_TO_CLIENT" } }
    rawMetadata :=
      [("ack_count", .num response.ackCount),
        ("valid_response_frames", .num valid.length),
        ("framing_issues", .arr (response.issues.map .str)),
        ("device_error_codes", .arr (errors.map fun code => .str (String.ofList code))),
        ("unclassified_response_frames",
          .arr (unknown.map fun frame => .str (String.ofList frame.text)))] }

/-- The bytes the source hash covers. -/
def hashedBytes (request response : Bytes) : Bytes :=
  request ++ [0] ++ "RPG-DIRECTION".toUTF8.toList ++ [0] ++ response

def requestSource (context : JobContext) (request response : Bytes) : RequestSource :=
  { context, sourceHash := Sha256.hexdigest (hashedBytes request response) }

/-- The commands of a request. -/
def commands (request : Bytes) : List Frame := (frameStream request).frames.filter isCommand

def candidates (response : Bytes) : List CounterResponse :=
  responseCandidates (frameStream response).frames

/-- The session before its first command: the cancellations come first. -/
def openSession (origin : RequestSource) (request : Bytes) : Session where
  documents := (((commands request).filter isCancellation).take maxDocuments).map
    (cancellationDocument origin)

/-- The documents of the request. -/
def requestDocuments (context : JobContext) (request response : Bytes) :
    Except Raised (List NormalizedDocument) := do
  let origin := requestSource context request response
  let issues := (frameStream request).issues
  let pass ← counterPass (candidates response) (commands request)
  let session ← (commands request).foldlM (sessionStep origin issues pass)
    (openSession origin request)
  let session ← finish origin issues pass session false (some "document_close_not_observed")
  return session.documents

def parseRch (context : JobContext) (request response : Bytes) :
    Except Raised (List NormalizedDocument) := do
  let documents ← requestDocuments context request response
  let issues := (frameStream request).issues
  let documents :=
    if documents.isEmpty && !request.isEmpty && !issues.isEmpty then
      [unknownDocument context request issues]
    else documents
  if !response.isEmpty && documents.length < maxDocuments then
    return documents ++ [responseDocument context response (frameStream response)]
  else return documents

end RetailPrintGuard.Parser.Rch
