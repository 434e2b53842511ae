import RetailPrintGuard.Parser.EscposLines
import RetailPrintGuard.Parser.EscposRaster

/-! # The ESC/POS parser

Each segment of a payload is one document. Its type is told by words of its
text, its table by the text or by an image that is read. -/
namespace RetailPrintGuard.Parser.Escpos
open RetailPrintGuard.Common.Amounts RetailPrintGuard.Common.Calendar
open RetailPrintGuard.Common.CodePages
open RetailPrintGuard.Common.Domain (DocumentType)
open RetailPrintGuard.Common.PrintedText hiding start finish
open RetailPrintGuard.Common.Python
open RetailPrintGuard.Library RetailPrintGuard.Library.DecimalFloat
open RetailPrintGuard.Library.Regex
open RetailPrintGuard.Parser.Documents RetailPrintGuard.Parser.EscposLines
open RetailPrintGuard.Parser.EscposPatterns
open RetailPrintGuard.Parser.EscposCommands (TextLine extractLines)
open RetailPrintGuard.Parser.EscposRaster (RasterImage reconstructedEscStarRasters)
open RetailPrintGuard.Parser.EscposSegments (Segment segments)

def maxInputBytes : Nat := 16 * 1024 * 1024

/-! ## The type of a document -/

/-- `_classify` -/
def classify (text : Text) : DocumentType × String :=
  let shown := upper text
  if contains shown "COPIA CONFORME" then (.conformingCopy, "COPIA_CONFORME_LITERAL")
  else if contains shown "RISTAMPA" then (.reprint, "RISTAMPA_LITERAL")
  else if contains shown "ANNULL" || contains shown "STORNO" then
    (.cancellation, "ANNULLAMENTO_LITERAL")
  else if contains shown "PRECONTO" || contains shown "PRE-CONTO" then
    (.preBill, "PRECONTO_LITERAL")
  else if (search decreaseRe text).isSome then (.orderChange, "VARIAZIONE_QUANTITA_POS_INFERRED")
  else if contains shown "COMANDA" || contains shown "CUCINA" then
    (.kitchenOrder, "COMANDA_LITERAL")
  else if contains shown "ORDINE" then (.order, "ORDINE_LITERAL")
  else if contains shown "PORTATA:" ||
      (contains shown "COPERTI:" && (search countedRe text).isSome) then
    (.kitchenOrder, "TICKET_POS_INFERRED")
  else if contains shown "DOCUMENTO GESTIONALE" then (.managementDocument, "GESTIONALE_LITERAL")
  else (.unknown, "NESSUN_MARCATORE_CONFERMATO")

/-- The type of a document with these lines: a decrease makes it a change. -/
def documentKind (text : Text) (lines : List DocumentLine) : DocumentType × String :=
  if lines.any fun line => line.quantity.any isNegative then
    (.orderChange, "VARIAZIONE_QUANTITA_POS_INFERRED")
  else classify text

/-- `_field` -/
def field (pattern : Pattern) (text : Text) : Option Text :=
  (search pattern text).map fun found => value found "value"

/-! ## The operator and the time -/

/-- The year of a printed time: two digits from 69 on are of the last century. -/
def shownYear (digits : Text) : Option Int :=
  let year := natOf digits
  if digits.length == 4 then some year
  else if digits.length == 2 then some (if year < 69 then 2000 + year else 1900 + year)
  else none

/-- The numbers of a clock time, with no seconds where there are none. -/
def clockParts (time : Text) : List Text := time.splitOnP (· == ':')

/-- `datetime.strptime` with each of the formats: day, month and year with one
separator, and a clock time. -/
def shownTime (date time : Text) : Option Int :=
  let separator := date.getD 2 ' '
  match date.splitOnP (· == separator) with
  | [day, month, year] =>
    (shownYear year).bind fun year =>
      let clock := (clockParts time).map natOf
      datetime year (natOf month) (natOf day) (clock.getD 0 0) (clock.getD 1 0) (clock.getD 2 0)
  | _ => none

structure OperatorLine where
  operator : Option Text := none
  timestamp : Option Timestamp := none
  precision : Option String := none
  warnings : List String := []

/-- What the printed time of the operator line gives. -/
def operatorTime (context : JobContext) (operator date time : Text) :
    Except Raised OperatorLine :=
  match shownTime date time with
  | none => .ok { operator := some operator, warnings := ["document_timestamp_invalid"] }
  | some naive =>
    match context.zoneInfo context.timezoneName with
    | none => .ok { operator := some operator, warnings := ["document_timezone_unknown"] }
    | some zone => do
      match ← zone.resolve context.capturedAt naive with
      | none =>
        return { operator := some operator, warnings := ["document_local_time_nonexistent"] }
      | some timestamp =>
        return {
          operator := some operator
          timestamp := some timestamp
          precision := some (if (clockParts time).length = 3 then "SECOND" else "MINUTE") }

/-- The operator has at most 128 characters, and at least one. -/
def limitOperator (line : OperatorLine) : OperatorLine :=
  { line with operator := line.operator.bind fun operator =>
      if operator.isEmpty then none else some (operator.take 128) }

/-- `_operator_and_timestamp` -/
def operatorAndTimestamp (context : JobContext) (text : Text) : Except Raised OperatorLine :=
  match search operatorLineRe text with
  | none => .ok {}
  | some found =>
    let shown := collapse (value found "value")
    match search localTimestampRe shown with
    | none => .ok (limitOperator { operator := some shown })
    | some time =>
      let operator := stripBy " -:;".toList.contains (time.lead ++ time.rest)
      (operatorTime context operator (value time "date") (value time "time")).map limitOperator

/-! ## The table on an image -/

/-- How sure the reading of an image is: whether it is below the minimum of 80,
with two decimals, and rounded to four. -/
structure Confidence where
  belowMinimum : Bool
  shown : Text
  rounded : JsonFloat

/-- `_OCR_MINIMUM_CONFIDENCE` -/
def minimumConfidence : JsonFloat := .finite ⟨['8', '0', '.', '0'], by decide⟩

structure RasterOcrResult where
  text : Text
  confidence : Confidence
  boundingBox : Option (Int × Int × Int × Int) := none

inductive OcrOutcome where
  | raised (errorType : String)
  | noResult
  | read (result : RasterOcrResult)

/-- The engine that reads images, with the name of its backend. -/
structure OcrBackend where
  name : String
  engine : RasterImage → OcrOutcome

def ocrUnavailable : List String := ["tesseract:none", "tesseract:unavailable"]

/-- `_normalize_ocr_table_code`, with whether an O was read as a zero. -/
def normalizeOcrTableCode (value : Text) : Text × Bool :=
  let observed := (upper (strip value)).take 128
  match fullmatch numericOcrTableRe observed with
  | none => (observed, false)
  | some found =>
    let numeric := EscposLines.value found "numeric"
    if !numeric.contains 'O' || !numeric.any isDigit then (observed, false)
    else (replaceChar 'O' '0' numeric ++ EscposLines.value found "suffix", true)

/-- The text of an image, each line without needless blanks. -/
def normalizedOcrText (text : Text) : Text :=
  (join ['\n'] ((splitLines text).map collapse)).take 2048

/-- What one image gives. -/
structure RasterObservation where
  observation : List (String × Json)
  warnings : List String := []
  rendered : Option Text := none
  table : Option Text := none
  normalized : Bool := false

def boxJson : Option (Int × Int × Int × Int) → Json
  | none => .null
  | some (left, top, right, bottom) => .arr [.num left, .num top, .num right, .num bottom]

def imageObservation (backend : OcrBackend) (image : RasterImage) : List (String × Json) :=
  [("backend", .str backend.name), ("width", .num image.width), ("height", .num image.height),
    ("strip_count", .num image.stripCount), ("source_offset", .num image.sourceOffset),
    ("source_length", .num image.sourceLength),
    ("bitmap_sha256", .str (Sha256.hexdigest image.packedBits))]

/-- The table a text of an image names, when the reading is sure enough. -/
def readTable (result : RasterOcrResult) (seen : RasterObservation) : RasterObservation :=
  match search tableRe (normalizedOcrText result.text) with
  | none => seen
  | some found =>
    if result.confidence.belowMinimum then
      { seen with warnings := ["raster_table_ocr_below_confidence_threshold"] }
    else
      let observed := (upper (value found "value")).take 128
      let (table, normalized) := normalizeOcrTableCode observed
      { seen with
        observation := seen.observation ++
          [("table_code_observed", .str (String.ofList observed)),
            ("table_code_normalized", .str (String.ofList table))] ++
          if normalized then [("table_code_normalization", .str "OCR_NUMERIC_O_TO_ZERO")] else []
        warnings := if normalized then ["raster_table_code_normalized_numeric"] else []
        table := some table
        normalized }

def observeImage (backend : OcrBackend) (image : RasterImage) : RasterObservation :=
  let observation := imageObservation backend image
  match backend.engine image with
  | .raised errorType =>
    { observation := observation ++
        [("status", .str "BACKEND_ERROR"), ("error_type", .str errorType)]
      warnings := ["raster_ocr_backend_error"] }
  | .noResult =>
    { observation := observation ++ [("status", .str "NO_RESULT")]
      warnings := [if ocrUnavailable.contains backend.name then "raster_ocr_backend_unavailable"
        else "raster_ocr_no_result"] }
  | .read result =>
    let normalized := normalizedOcrText result.text
    readTable result
      { observation := observation ++
          [("status", .str "OBSERVED"), ("text", .str (String.ofList normalized)),
            ("confidence", .float result.confidence.rounded),
            ("bounding_box", boxJson result.boundingBox)]
        rendered := some ("<OCR:ESC_STAR:".toList ++ result.confidence.shown ++ ['>'] ++
          normalized ++ "</OCR:ESC_STAR>".toList) }

structure RasterEvidence where
  table : Option Text := none
  observations : List (List (String × Json)) := []
  warnings : List String := []
  rendered : List Text := []
  normalized : Bool := false

/-- `_raster_table_evidence`: images that name different tables name none. -/
def rasterTableEvidence (backend : OcrBackend) (payload : Bytes) (baseOffset : Nat) :
    RasterEvidence :=
  let images := (reconstructedEscStarRasters payload baseOffset).getD []
  let seen := images.map (observeImage backend)
  let tables := seen.filterMap (·.table)
  let conflict := tables.any fun table => tables.head?.any (· != table)
  { table := if conflict then none else tables.head?
    observations := seen.map (·.observation)
    warnings := distinct (seen.flatMap (·.warnings) ++
      if conflict then ["raster_table_ocr_conflict"] else [])
    rendered := seen.filterMap (·.rendered)
    normalized := seen.any (·.normalized) }

/-! ## The documents of a payload -/

/-- What all documents of one payload share. -/
structure PayloadSource where
  context : JobContext
  encoding : Encoding
  ocr : OcrBackend
  sourceHash : String
  truncated : Bool

def optionalText (text : Option Text) : Json :=
  (text.map fun text => Json.str (String.ofList text)).getD .null

def tableCodeEvidence (plain : Option Text) (raster : RasterEvidence) : String :=
  if raster.table.isSome && plain.isNone then
    if raster.normalized then "ESC_POS_RASTER_OCR_NUMERIC_NORMALIZED"
    else "ESC_POS_RASTER_OCR_INFERRED"
  else if plain.isSome then "PLAIN_TEXT"
  else "UNKNOWN"

/-- The `raw_metadata` of a segment. -/
def segmentMetadata (origin : PayloadSource) (segment : Segment)
    (kind : DocumentType × String) (plainTable : Option Text) (raster : RasterEvidence)
    (operator : OperatorLine) : List (String × Json) :=
  [("source_start_offset", .num segment.baseOffset),
    ("source_end_offset", .num (segment.baseOffset + segment.payload.length)),
    ("cut_observed", .bool segment.cutObserved),
    ("classification_evidence", .str (if kind.1 = .unknown then "UNKNOWN" else kind.2)),
    ("table_code_evidence", .str (tableCodeEvidence plainTable raster)),
    ("raster_ocr", .obj
      [("runtime", .str origin.ocr.name),
        ("minimum_confidence", .float minimumConfidence),
        ("observations", .arr (raster.observations.map .obj))]),
    ("document_timestamp_evidence",
      (operator.timestamp.map fun _ => Json.str "ESC_POS_PRINTED_OPERATOR_LINE").getD .null),
    ("document_timestamp_precision", (operator.precision.map Json.str).getD .null)]

/-- The document of a segment. -/
def segmentDocument (origin : PayloadSource) (segment : Segment) :
    Except Raised NormalizedDocument := do
  let extracted := extractLines segment.payload segment.baseOffset origin.encoding
  let (lines, metadata) ← semanticLines segment.baseOffset extracted.lines
  let kind := documentKind extracted.text lines
  let grossTotal := documentTotal extracted.lines
  let operator ← operatorAndTimestamp origin.context extracted.text
  let raster := rasterTableEvidence origin.ocr segment.payload segment.baseOffset
  let plainTable := field tableRe extracted.text
  let text := if raster.rendered.isEmpty then extracted.text
    else extracted.text ++ ['\n'] ++ join ['\n'] raster.rendered
  validateDocument {
    id := origin.context.uuid5 ("retailprintguard:escpos:" ++ origin.context.jobId ++ ":" ++
      toString segment.baseOffset ++ ":" ++ origin.sourceHash)
    type := kind.1
    subtype := kind.2
    externalDocumentCode := field documentRe text
    orderCode := field orderRe text
    tableCode := plainTable.or raster.table
    operatorCode := operator.operator
    documentTimestamp := operator.timestamp
    grossTotal
    status := if segment.cutObserved then "COMPLETE" else "PARTIAL"
    normalizedText := text
    encoding := origin.encoding.name
    parseConfidence := if kind.1 = .unknown then 25 else 85
    evidence := if kind.1 = .unknown then "UNKNOWN" else "CONFIRMED"
    sourcePayloadSha256 := origin.sourceHash
    sourcePath := origin.context.sourcePath
    complete := segment.cutObserved
    warnings := distinct ((if origin.truncated then ["parser_input_limit_exceeded"] else []) ++
      extracted.warnings ++ operator.warnings ++ raster.warnings)
    lines
    rawMetadata := segmentMetadata origin segment kind plainTable raster operator ++ metadata }

/-- The segments that are parsed: those that hold a byte. -/
def parsedSegments (payload : Bytes) : List Segment :=
  (segments (payload.take maxInputBytes)).filter fun segment => !segment.payload.isEmpty

def payloadSource (context : JobContext) (encoding : Encoding) (ocr : OcrBackend)
    (payload : Bytes) : PayloadSource where
  context := context
  encoding := encoding
  ocr := ocr
  sourceHash := Sha256.hexdigest payload
  truncated := decide (maxInputBytes < payload.length)

/-- `parse_escpos` -/
def parseEscpos (context : JobContext) (encoding : Encoding) (ocr : OcrBackend) (payload : Bytes) :
    Except Raised (List NormalizedDocument) :=
  (parsedSegments payload).mapM (segmentDocument (payloadSource context encoding ocr payload))

end RetailPrintGuard.Parser.Escpos
