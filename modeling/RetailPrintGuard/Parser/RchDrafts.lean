import RetailPrintGuard.Parser.Documents
import RetailPrintGuard.Parser.RchFraming
import RetailPrintGuard.Parser.RchPatterns

/-! # What an RCH draft prints

The lines of a document under construction tell its times, its codes and the
heading of the merchant. -/
namespace RetailPrintGuard.Parser.RchDrafts
open RetailPrintGuard.Common.Amounts RetailPrintGuard.Common.Calendar
open RetailPrintGuard.Common.Domain (DocumentType SourceSpan)
open RetailPrintGuard.Common.PrintedText RetailPrintGuard.Common.Python
open RetailPrintGuard.Library.DecimalFloat RetailPrintGuard.Library.Regex
open RetailPrintGuard.Parser.Documents RetailPrintGuard.Parser.RchPatterns

inductive Kind where
  | commercial
  | management
deriving DecidableEq

/-- `_Draft` -/
structure Draft where
  kind : Kind
  ordinal : Nat
  startOffset : Nat
  lines : List DocumentLine := []
  texts : List Text := []
  textSources : List SourceSpan := []
  orderCode : Option Text := none
  tableCode : Option Text := none
  externalDocumentCode : Option Text := none
  externalDocumentCodeSuffix : Option Text := none
  commercialReferenceCode : Option Text := none
  externalDocumentCodeEvidence : Option String := none
  externalDocumentCodeSuffixEvidence : Option String := none
  commercialReferenceCodeEvidence : Option String := none
  responseStatusDigits : Option Text := none
  total : Option Decimal := none
  taxTotal : Option Decimal := none
  payments : List PaymentRecord := []
  totalCode : Option Text := none
  frameIds : List Nat := []
  endOffset : Nat := 0
  complete : Bool := false
  warnings : List String := []

/-- The captured group of a match, where the pattern has it. -/
def value (found : Match) (name : String) : Text := (found.group name).getD []

/-- `_document_code` -/
def documentCode (text : Text) : Text := replaceChar '/' '-' (upper (strip text))

/-- `_management_document_classification` -/
def managementDocumentClassification (text : Text) : Option (DocumentType × String × Nat) :=
  let lines := ((splitLines text).map strip).filter fun line => !line.isEmpty
  if lines.head?.any fun line => (matchStart shiftEndReportHeaderRe line).isSome then
    some (.shiftEndReport, "RCH_REPORT_FINE_TURNO_LITERAL", 98)
  else if lines.any fun line => (fullmatch invoiceHeaderRe line).isSome ||
      (fullmatch invoiceNumberRe line).isSome then
    some (.invoice, "RCH_FATTURA_LITERAL", 96)
  else none

/-! ## Printed times -/

/-- A two-digit year in the century that brings it closest to the capture. -/
def nearestYear (year : Nat) (capturedYear : Int) : Int :=
  let century := capturedYear / 100 * 100
  let candidates := [century - 100 + year, century + year, century + 100 + year]
  candidates.foldl (fun best candidate =>
    if (candidate - capturedYear).natAbs < (best - capturedYear).natAbs then candidate else best)
    (century - 100 + year)

/-- The year of a printed time. -/
def printedYear (zone : Zone) (capturedAt : Timestamp) (year : Nat) : Except Raised Int :=
  if year < 100 then (zone.localTime capturedAt.micros).map fun captured =>
    nearestYear year (yearOf captured)
  else .ok year

/-- The clock time a match shows, in a year. -/
def shownTime (found : Match) (year : Int) : Option Int :=
  datetime year (natOf (value found "month")) (natOf (value found "day"))
    (natOf (value found "hour")) (natOf (value found "minute")) (natOf (value found "second"))

/-- `_timestamp_from_match`: the time with its precision, or a warning. -/
def timestampFromMatch (context : JobContext) (found : Match) :
    Except Raised (Except String (Timestamp × String)) :=
  match context.zoneInfo context.timezoneName with
  | none => .ok (.error "document_timezone_unknown")
  | some zone => do
    let year ← printedYear zone context.capturedAt (natOf (value found "year"))
    match shownTime found year with
    | none => return .error "document_timestamp_invalid"
    | some naive =>
      match ← zone.resolve context.capturedAt naive with
      | none => return .error "document_local_time_nonexistent"
      | some timestamp =>
        return .ok (timestamp, if (found.group "second").isSome then "SECOND" else "MINUTE")

structure ObservedTimestamp where
  lineIndex : Nat
  value : Timestamp
  precision : String
deriving DecidableEq

/-- The matches of a pattern in the lines, with the index of their line. -/
def timestampMatches (texts : List Text) : List (Nat × Match) :=
  texts.zipIdx.flatMap fun (line, index) =>
    (finditer printedTimestampRe line).map fun found => (index, found)

/-! ## The identity of a document -/

/-- `_is_serial_token` -/
def isSerialToken (text : Text) : Bool := text.any isAlpha && text.any isDigit

structure PrintedRchIdentity where
  application : Option ObservedTimestamp
  footer : Option ObservedTimestamp
  serialNumber : Option (Text × String)
  ownDocumentCode : Option (Text × String)
  commercialReference : Option (Text × String)
  warnings : List String

/-- `int((footer - application).total_seconds())`: both are times on one clock. -/
def clockOffsetSeconds (footer application : ObservedTimestamp) : Int :=
  ((footer.value.micros + footer.value.utcOffset) -
    (application.value.micros + application.value.utcOffset)).tdiv 1000000

/-- The lines with the own code of the document. -/
def ownMarkers (draft : Draft) : List (Nat × Text) :=
  let pattern := match draft.kind with
    | .commercial => commercialDocumentCodeRe
    | .management => managementDocumentCodeRe
  draft.texts.zipIdx.filterMap fun (line, index) =>
    (search pattern line).map fun found => (index, documentCode (value found "value"))

def serialIn (pattern : Pattern) (line : Text) : Option Text :=
  (fullmatch pattern line).bind fun found =>
    let candidate := upper (value found "value")
    if isSerialToken candidate then some candidate else none

/-- The serial number behind RT, or alone within two lines of the own code. -/
def serialNumber (draft : Draft) (ownMarker : Option (Nat × Text)) :
    Option (Nat × Text × String) :=
  let explicit := draft.texts.zipIdx.findSome? fun (line, index) =>
    (serialIn explicitRchSerialRe line).map fun serial => (index, serial, "RCH_PRINTED_RT_PREFIX")
  let bare := ownMarker.bind fun (own, _) =>
    (draft.texts.zipIdx.filter fun (_, index) => own < index && index < own + 3).findSome?
      fun (line, index) => (serialIn bareRchSerialRe line).map fun serial =>
        (index, serial, "RCH_PRINTED_BARE_SERIAL_AFTER_FOOTER")
  explicit.or bare

/-- How well a time stands to an anchor: close, on or before it, late. -/
def footerScore (observed : ObservedTimestamp) (index anchor : Nat) : Nat × Nat × Int :=
  let distance := max anchor observed.lineIndex - min anchor observed.lineIndex
  (distance, if observed.lineIndex ≤ anchor then 0 else 1, -(index : Int))

def scoreLt (a b : Nat × Nat × Int) : Bool :=
  a.1 < b.1 || (a.1 == b.1 && (a.2.1 < b.2.1 || (a.2.1 == b.2.1 && a.2.2 < b.2.2)))

/-- The time of the fiscal footer, with its index among the observed ones. -/
def footerTimestamp (draft : Draft) (markers : List (Nat × Text)) (serial : Option (Nat × Text × String))
    (observed : List ObservedTimestamp) : Option (Nat × ObservedTimestamp) :=
  let anchors := markers.map Prod.fst ++ (serial.map Prod.fst).toList
  let candidates := observed.zipIdx.flatMap fun (timestamp, index) =>
    let line := draft.texts.getD timestamp.lineIndex []
    if (search documentCodeRe line).isSome &&
        !markers.any fun marker => marker.1 == timestamp.lineIndex then []
    else (anchors.map fun anchor => (footerScore timestamp index anchor, index, timestamp)).filter
      fun candidate => candidate.1.1 ≤ 2
  let best := candidates.foldl (fun best candidate =>
    match best with
    | none => some candidate
    | some current => if scoreLt candidate.1 current.1 then some candidate else best) none
  best.map Prod.snd

/-- The commercial document a management document refers to. -/
def commercialReference (draft : Draft) (ownMarker : Option (Nat × Text)) : Option (Text × String) :=
  if draft.kind = .management then
    draft.texts.zipIdx.findSome? fun (line, index) =>
      match search commercialReferenceCodeRe line with
      | some found => some (documentCode (value found "value"), "RCH_PRINTED_COMMERCIAL_REFERENCE")
      | none =>
        if ownMarker.any fun marker => marker.1 == index then none
        else (search documentCodeRe line).map fun found =>
          (documentCode (value found "value"),
            "RCH_PRINTED_UNQUALIFIED_COMMERCIAL_DOCUMENT_NUMBER")
  else none

/-- `_printed_rch_identity` -/
def printedRchIdentity (context : JobContext) (draft : Draft) :
    Except Raised PrintedRchIdentity := do
  let results ← (timestampMatches draft.texts).mapM fun (index, found) =>
    (timestampFromMatch context found).map fun result => (index, result)
  let timeWarnings := results.filterMap fun (_, result) => match result with
    | .error warning => some warning
    | .ok _ => none
  let observed := results.filterMap fun (index, result) => match result with
    | .error _ => none
    | .ok (timestamp, precision) => some ⟨index, timestamp, precision⟩
  let markers := ownMarkers draft
  let ownMarker := markers.getLast?
  let serial := serialNumber draft ownMarker
  let footer := footerTimestamp draft markers serial observed
  let application := (observed.zipIdx.find? fun (_, index) =>
    footer.all fun chosen => chosen.1 != index).map Prod.fst
  let clockWarnings := match application, footer with
    | some application, some (_, footer) =>
      if 60 < (clockOffsetSeconds footer application).natAbs then
        ["rch_clock_offset_exceeds_one_minute"]
      else []
    | _, _ => []
  return {
    application
    footer := footer.map Prod.snd
    serialNumber := serial.map Prod.snd
    ownDocumentCode := ownMarker.map fun marker =>
      (marker.2, match draft.kind with
        | .commercial => "RCH_PRINTED_COMMERCIAL_FOOTER"
        | .management => "RCH_PRINTED_MANAGEMENT_FOOTER")
    commercialReference := commercialReference draft ownMarker
    warnings := distinct (timeWarnings ++ clockWarnings) }

/-! ## The heading -/

/-- A line that ends the heading. -/
def endsHeader (line : Text) : Bool :=
  191 < line.length || (matchStart headerBoundaryRe line).isSome ||
    (search printedMoneyRe line).isSome || (search printedTimestampRe line).isSome ||
    (search documentCodeRe line).isSome

/-- The leading lines that can belong to a heading, with their indexes. -/
def headerCandidates (texts : List Text) : List (Nat × Text) :=
  let leading := (texts.take 12).zipIdx.map fun (line, index) => (index, collapse line)
  (leading.filter fun (_, line) => !line.isEmpty).takeWhile fun (_, line) => !endsHeader line

structure PrintedReceiptHeader where
  value : Option ReceiptHeader := none
  lineIndexes : List Nat := []
  sourceSpans : List SourceSpan := []

/-- `_printed_receipt_header` -/
def printedReceiptHeader (draft : Draft) : Except Raised PrintedReceiptHeader :=
  let candidates := headerCandidates draft.texts
  let legal := candidates.filter fun (_, line) => (search headerLegalNameRe line).isSome
  let addresses := candidates.filter fun (_, line) => (search headerAddressRe line).isSome
  let phones := candidates.filterMap fun (index, line) =>
    (search headerPhoneRe line).map fun found => (index, collapse (value found "value"))
  let vats := candidates.filterMap fun (index, line) =>
    (search headerVatRe line).map fun found => (index, upper (value found "value"))
  let taxes := candidates.filterMap fun (index, line) =>
    match search headerTaxCodeRe line with
    | some found => some (index, upper (value found "value"))
    | none =>
      match search headerVatRe line with
      | some found =>
        if (search headerTaxLabelRe line).isSome then some (index, upper (value found "value"))
        else none
      | none => none
  let hasTaxIdentity := !taxes.isEmpty || !vats.isEmpty
  let hasCorroboratedLayout := (!phones.isEmpty && (!legal.isEmpty || !addresses.isEmpty)) ||
    (!legal.isEmpty && !addresses.isEmpty)
  if !hasTaxIdentity && !hasCorroboratedLayout then .ok {}
  else do
    let structured := (legal ++ addresses ++ phones ++ taxes ++ vats).map Prod.fst
    let merchant := candidates.find? fun (index, _) => !structured.contains index
    let used := structured ++ (merchant.map Prod.fst).toList
    let indexes := (List.range draft.texts.length).filter used.contains
    let header ← validateHeader {
      merchantName := merchant.map Prod.snd
      legalName := legal.head?.map Prod.snd
      addressLines := (addresses.take 8).map Prod.snd
      phone := phones.head?.map Prod.snd
      taxCode := taxes.head?.map Prod.snd
      vatNumber := vats.head?.map Prod.snd }
    return { value := some header
             lineIndexes := indexes
             sourceSpans := indexes.filterMap fun index => draft.textSources[index]? }

end RetailPrintGuard.Parser.RchDrafts
