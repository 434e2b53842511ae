import RetailPrintGuard.Parser.Escpos
import RetailPrintGuard.Parser.RchSegmentation

/-! # The POS beeper

A complete kitchen order rings the bell before the payload is parsed. What
rings it is told by the text alone: no image is read. -/
namespace RetailPrintGuard.Parser.Beeper
open RetailPrintGuard.Common.Amounts RetailPrintGuard.Common.CodePages
open RetailPrintGuard.Common.Domain (DocumentType)
open RetailPrintGuard.Library.Checks
open RetailPrintGuard.Parser.Documents RetailPrintGuard.Parser.Escpos
open RetailPrintGuard.Parser.EscposCommands (extractLines)
open RetailPrintGuard.Parser.EscposLines
open RetailPrintGuard.Parser.EscposSegments (Segment segments)

/-- The segment is a kitchen order, by its text and its lines. -/
def isKitchenOrder (encoding : Encoding) (segment : Segment) : Except Raised Bool := do
  let extracted := extractLines segment.payload segment.baseOffset encoding
  let (lines, _) ← semanticLines segment.baseOffset extracted.lines
  return (documentKind extracted.text lines).1 == .kitchenOrder

/-- The loop of `is_complete_pos_command`, up to the first kitchen order. -/
def anyKitchenOrder (encoding : Encoding) : List Segment → Except Raised Bool
  | [] => .ok false
  | segment :: rest =>
    if segment.payload.isEmpty || !segment.cutObserved then anyKitchenOrder encoding rest
    else do
      if ← isKitchenOrder encoding segment then return true
      else anyKitchenOrder encoding rest

/-- `is_complete_pos_command` -/
def isCompletePosCommand (encoding : Encoding) (payload : Bytes) : Except Raised Bool :=
  anyKitchenOrder encoding (segments (payload.take maxInputBytes))

/-- A document that rings the bell. -/
def completeKitchenOrder (document : NormalizedDocument) : Bool :=
  document.complete && document.type == .kitchenOrder

/-! ## The fast path and the parser -/

variable {origin : PayloadSource} {segment : Segment} {parts : List Segment}
variable {document : NormalizedDocument} {documents : List NormalizedDocument}

/-- The document of a segment has the type the fast path finds. -/
theorem segmentDocument_kind (h : segmentDocument origin segment = .ok document) :
    isKitchenOrder origin.encoding segment = .ok (document.type == .kitchenOrder) ∧
      document.complete = segment.cutObserved := by
  unfold segmentDocument at h
  obtain ⟨⟨lines, metadata⟩, hlines, h⟩ := bind_eq_ok.mp h
  obtain ⟨operator, -, h⟩ := bind_eq_ok.mp h
  have hdocument := RchFilling.validateDocument_eq h
  constructor
  · unfold isKitchenOrder
    dsimp only
    rw [hlines, hdocument]
    rfl
  · rw [hdocument]

theorem anyKitchenOrder_eq (h : List.Forall₂
    (fun segment document => segmentDocument origin segment = .ok document)
    (parts.filter fun segment => !segment.payload.isEmpty) documents) :
    anyKitchenOrder origin.encoding parts = .ok (documents.any completeKitchenOrder) := by
  induction parts generalizing documents with
  | nil =>
    cases h
    rfl
  | cons segment parts ih =>
    rw [List.filter_cons] at h
    rw [anyKitchenOrder]
    cases hempty : segment.payload.isEmpty with
    | true =>
      rw [hempty] at h
      exact ih h
    | false =>
      rw [hempty] at h
      cases h with
      | cons hdocument hrest =>
        obtain ⟨hkind, hcomplete⟩ := segmentDocument_kind hdocument
        rw [List.any_cons, completeKitchenOrder, hcomplete, hkind]
        cases hcut : segment.cutObserved with
        | false => exact ih hrest
        | true =>
          rename_i document documents
          cases hring : document.type == .kitchenOrder with
          | true => rfl
          | false => exact ih hrest

/-- The bell rings exactly when the parser returns a complete kitchen order. -/
theorem isCompletePosCommand_iff {context : JobContext} {encoding : Encoding} {ocr : OcrBackend}
    {payload : Bytes} (h : parseEscpos context encoding ocr payload = .ok documents) :
    isCompletePosCommand encoding payload = .ok true ↔
      ∃ document ∈ documents, document.complete = true ∧ document.type = .kitchenOrder := by
  have hrings : isCompletePosCommand encoding payload =
      .ok (documents.any completeKitchenOrder) := anyKitchenOrder_eq (mapM_eq_ok.mp h)
  rw [hrings]
  simp [completeKitchenOrder]

/-- COMANDA, and a cut. -/
def cutOrder : Bytes := [0x43, 0x4F, 0x4D, 0x41, 0x4E, 0x44, 0x41, 0x1B, 0x6D]

theorem isCompletePosCommand_iff_cutOrder : isCompletePosCommand .cp858 cutOrder = .ok true := by
  have hkinds : (parseEscpos RchSegmentation.sampleContext .cp858
      ⟨"tesseract:none", fun _ => .noResult⟩ cutOrder).map
        (·.map fun document => (document.complete, document.type)) =
      .ok [(true, .kitchenOrder)] := by
    decide +kernel
  obtain ⟨documents, hparsed, hmap⟩ := map_eq_ok.mp hkinds
  obtain ⟨document, rest, rfl, hkind, -⟩ := List.map_eq_cons_iff.mp hmap
  obtain ⟨hcomplete, htype⟩ := Prod.mk.inj hkind
  exact (isCompletePosCommand_iff hparsed).mpr
    ⟨document, List.mem_cons_self, hcomplete, htype⟩

end RetailPrintGuard.Parser.Beeper
