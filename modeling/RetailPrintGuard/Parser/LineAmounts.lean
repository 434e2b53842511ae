import RetailPrintGuard.Parser.Escpos
import RetailPrintGuard.Parser.EscposSpans
import RetailPrintGuard.Parser.RchAmounts
import RetailPrintGuard.Parser.RchSegmentation

/-! # The amounts of ESC/POS lines

A line prints one amount, which is taken for the unit price and for the total.
The two agree only where the quantity does not change the amount. -/
namespace RetailPrintGuard.Parser.LineAmounts
open RetailPrintGuard.Common.Amounts RetailPrintGuard.Common.CodePages
open RetailPrintGuard.Common.PrintedText hiding finish start
open RetailPrintGuard.Library.Checks
open RetailPrintGuard.Library.DecimalFloat RetailPrintGuard.Library.DecimalRounding
open RetailPrintGuard.Library.Regex
open RetailPrintGuard.Parser.Documents RetailPrintGuard.Parser.Escpos
open RetailPrintGuard.Parser.EscposCommands (TextLine extractLines maxLines)
open RetailPrintGuard.Parser.EscposLines RetailPrintGuard.Parser.PrintedAmounts
open RetailPrintGuard.Parser.EscposSegments (Segment)

/-- The item a text line prints. -/
def printedItem (line : TextLine) : Option Match :=
  if (courseOf line).isNone && (coversOf line).isNone then matchStart EscposPatterns.itemRe line.text
  else none

def itemQuantity (found : Match) : Decimal :=
  decimalOf (replaceChar ',' '.' (value found "quantity"))

/-- The last amount in the description of an item. -/
def itemAmount (found : Match) : Option Decimal :=
  (amounts (value found "description")).getLast?.map amountOf

/-- If the line prints an item with an amount, the quantity times the amount
rounds to the amount. -/
def KeepsAmount (line : TextLine) : Prop :=
  ∀ found ∈ printedItem line, ∀ amount ∈ itemAmount found, Keeps (itemQuantity found) amount

instance (line : TextLine) : Decidable (KeepsAmount line) :=
  inferInstanceAs (Decidable (∀ found ∈ printedItem line, ∀ amount ∈ itemAmount found, _))

/-- The text lines of a segment. -/
def textLines (encoding : Encoding) (segment : Segment) : List TextLine :=
  (extractLines segment.payload segment.baseOffset encoding).lines

variable {baseOffset : Nat} {reading reading' : Reading} {pending : PendingLine}
variable {line : TextLine} {lines rest : List TextLine}

/-! ## Pending lines -/

/-- What a pending line prints is written with the places it has. -/
structure Formed (pending : PendingLine) : Prop where
  quantity : pending.quantity.exponent ≤ 0
  amount : ∀ amount ∈ pending.amount, amount.exponent = -2

def PendingKeeps (pending : PendingLine) : Prop :=
  ∀ amount ∈ pending.amount, Keeps pending.quantity amount

theorem consistent_pendingDocumentLine {sequence : Nat} (h : Formed pending) :
    Consistent (pendingDocumentLine baseOffset sequence pending) ↔ PendingKeeps pending := by
  unfold PendingKeeps
  cases hamount : pending.amount with
  | none =>
    refine iff_of_true ?_ (by simp)
    intro quantity _ unit hunit
    rw [pendingDocumentLine, hamount] at hunit
    cases hunit
  | some amount =>
    have hkeeps := @consistent_of_keeps (pendingDocumentLine baseOffset sequence pending) amount
      pending.quantity (h.amount amount hamount) h.quantity rfl hamount hamount
    simpa using hkeeps

theorem decimalOf_exponent_le (text : Text) : (decimalOf text).exponent ≤ 0 := by
  unfold decimalOf
  dsimp only
  omega

theorem exponent_amountOf {text : Text} {found : Match} (h : found ∈ amounts text) :
    (amountOf found).exponent = -2 := printedMoney_finditer h

theorem exponent_lastAmount {text : Text} {amount : Decimal}
    (h : (amounts text).getLast?.map amountOf = some amount) : amount.exponent = -2 := by
  obtain ⟨found, hfound, rfl⟩ := Option.map_eq_some_iff.mp h
  exact exponent_amountOf (List.mem_of_getLast? hfound)

theorem formed_itemLine (course : Option Text) (line : TextLine) (found : Match) :
    Formed (itemLine course line found) :=
  ⟨decimalOf_exponent_le _, fun _ h => exponent_lastAmount h⟩

theorem formed_pricedLine {course : Option Text} (h : pricedLine course line = some pending) :
    Formed pending ∧ PendingKeeps pending := by
  unfold pricedLine at h
  dsimp only at h
  split at h
  · cases h
  split at h
  · cases h
  · next amount hamount =>
    split at h
    · cases h
    · rw [← Option.some.inj h]
      have hexponent := exponent_amountOf (List.mem_of_getLast? hamount)
      refine ⟨⟨Int.le_refl 0, fun amount' hamount' => ?_⟩, fun amount _ => keeps_one amount⟩
      rw [← Option.some.inj hamount']
      exact hexponent

/-! ## The loop -/

/-- The result and the pending line stand for the lines read so far. -/
structure Tracks (lines : List TextLine) (reading : Reading) : Prop where
  room : reading.result.length + reading.active.toList.length ≤ lines.length
  formed : ∀ pending ∈ reading.active, Formed pending
  agrees : ((∀ line ∈ reading.result, Consistent line) ∧
    ∀ pending ∈ reading.active, PendingKeeps pending) ↔ ∀ line ∈ lines, KeepsAmount line

theorem tracks_finishActive (h : Tracks lines reading) (hroom : lines.length ≤ maxLines)
    (hfinish : finishActive baseOffset reading = .ok reading') :
    Tracks lines reading' ∧ reading'.active = none := by
  unfold finishActive at hfinish
  split at hfinish
  · next hnone =>
    rw [← Except.ok.inj hfinish]
    exact ⟨h, hnone⟩
  · next pending hactive =>
    have hlength := h.room
    rw [hactive, Option.toList_some, List.length_singleton] at hlength
    rw [if_neg (by omega)] at hfinish
    obtain ⟨added, hadded, hfinish⟩ := bind_eq_ok.mp hfinish
    rw [← pure_eq_ok.mp hfinish]
    refine ⟨⟨?_, by simp, ?_⟩, rfl⟩
    · simpa using hlength
    · rw [← h.agrees, hactive, validateLine_eq hadded]
      have hpending := @consistent_pendingDocumentLine baseOffset pending
        (reading.result.length + 1) (h.formed pending hactive)
      dsimp only
      rw [List.forall_mem_append]
      simp [hpending]

theorem keepsAmount_of_none (h : printedItem line = none) : KeepsAmount line := by
  unfold KeepsAmount
  rw [h]
  simp

/-- The quantity and the amount of a pending line. -/
def printed (pending : PendingLine) : Decimal × Option Decimal := (pending.quantity, pending.amount)

/-- A line without an item leaves what is pending as it is. -/
theorem Tracks.skip (h : Tracks lines reading) (hnone : printedItem line = none)
    (hresult : reading'.result = reading.result)
    (hactive : reading'.active.map printed = reading.active.map printed) :
    Tracks (lines ++ [line]) reading' := by
  have hcount : reading'.active.toList.length = reading.active.toList.length := by
    cases hnew : reading'.active <;> cases hold : reading.active <;> simp_all
  have hforall : ∀ (P : Decimal × Option Decimal → Prop),
      (∀ pending ∈ reading'.active, P (printed pending)) ↔
        ∀ pending ∈ reading.active, P (printed pending) := by
    intro P
    have hmap := congrArg (fun active => ∀ shown ∈ active, P shown) hactive
    simpa using hmap
  refine ⟨?_, ?_, ?_⟩
  · have hroom := h.room
    rw [hresult, hcount, List.length_append]
    omega
  · have hformed : ∀ pending ∈ reading'.active, pending.quantity.exponent ≤ 0 ∧
        ∀ amount ∈ pending.amount, amount.exponent = -2 :=
      (hforall fun shown => shown.1.exponent ≤ 0 ∧ ∀ amount ∈ shown.2, amount.exponent = -2).mpr
        fun pending hin => ⟨(h.formed pending hin).quantity, (h.formed pending hin).amount⟩
    exact fun pending hin => ⟨(hformed pending hin).1, (hformed pending hin).2⟩
  · have hkeeps : (∀ pending ∈ reading'.active, PendingKeeps pending) ↔
        ∀ pending ∈ reading.active, PendingKeeps pending :=
      hforall fun shown => ∀ amount ∈ shown.2, Keeps shown.1 amount
    rw [hresult, hkeeps, h.agrees, List.forall_mem_append]
    simp [keepsAmount_of_none hnone]

/-- A line makes another one pending. -/
theorem Tracks.pend (h : Tracks lines reading) (hidle : reading.active = none)
    (hformed : Formed pending) (hkeeps : PendingKeeps pending ↔ KeepsAmount line) :
    Tracks (lines ++ [line]) { reading with active := some pending } where
  room := by
    have hroom := h.room
    rw [hidle] at hroom
    simpa using hroom
  formed pending' hin := by
    rwa [← Option.some.inj hin]
  agrees := by
    have hagrees := h.agrees
    rw [hidle] at hagrees
    rw [List.forall_mem_append, ← hagrees]
    simp [hkeeps]

theorem tracks_pricedLine {course : Option Text} (h : Tracks lines reading)
    (hidle : reading.active = none) (hnone : printedItem line = none) :
    Tracks (lines ++ [line]) { reading with active := pricedLine course line } := by
  cases hpriced : pricedLine course line with
  | none => exact h.skip hnone rfl (by rw [hidle])
  | some pending =>
    obtain ⟨hformed, hkeeps⟩ := formed_pricedLine hpriced
    exact h.pend hidle hformed (iff_of_true hkeeps (keepsAmount_of_none hnone))

theorem tracks_readLine (h : Tracks lines reading) (hroom : lines.length ≤ maxLines)
    (hread : readLine baseOffset reading line = .ok reading') :
    Tracks (lines ++ [line]) reading' := by
  unfold readLine at hread
  split at hread
  · next found hcourse =>
    have hnone : printedItem line = none := by simp [printedItem, hcourse]
    obtain ⟨finished, hfinished, hread⟩ := bind_eq_ok.mp hread
    rw [← pure_eq_ok.mp hread]
    exact (tracks_finishActive h hroom hfinished).1.skip hnone rfl rfl
  · next hcourse =>
    split at hread
    · next found hcovers =>
      have hnone : printedItem line = none := by simp [printedItem, hcovers]
      obtain ⟨finished, hfinished, hread⟩ := bind_eq_ok.mp hread
      obtain ⟨covers, -, hread⟩ := bind_eq_ok.mp hread
      rw [← pure_eq_ok.mp hread]
      exact (tracks_finishActive h hroom hfinished).1.skip hnone rfl rfl
    · next hcovers =>
      split at hread
      · next found hitem =>
        have hprinted : printedItem line = some found := by
          simp [printedItem, hcourse, hcovers, hitem]
        obtain ⟨finished, hfinished, hread⟩ := bind_eq_ok.mp hread
        obtain ⟨htracks, hidle⟩ := tracks_finishActive h hroom hfinished
        rw [← pure_eq_ok.mp hread]
        refine htracks.pend hidle (formed_itemLine _ line found) ?_
        unfold KeepsAmount
        rw [hprinted]
        simp only [Option.mem_def, Option.some.injEq, forall_eq']
        exact Iff.rfl
      · next hitem =>
        have hnone : printedItem line = none := by simp [printedItem, hitem]
        split at hread
        · next pending hactive =>
          split at hread
          · rw [← Except.ok.inj hread]
            refine h.skip hnone rfl ?_
            rw [hactive]
            rfl
          · obtain ⟨finished, hfinished, hread⟩ := bind_eq_ok.mp hread
            obtain ⟨htracks, hidle⟩ := tracks_finishActive h hroom hfinished
            rw [← pure_eq_ok.mp hread]
            exact tracks_pricedLine htracks hidle hnone
        · next hidle =>
          rw [← Except.ok.inj hread]
          exact tracks_pricedLine h hidle hnone

theorem tracks_foldlM (h : Tracks lines reading) (hroom : (lines ++ rest).length ≤ maxLines)
    (hread : rest.foldlM (readLine baseOffset) reading = .ok reading') :
    Tracks (lines ++ rest) reading' := by
  induction rest generalizing lines reading with
  | nil => rwa [← pure_eq_ok.mp hread, List.append_nil]
  | cons line rest ih =>
    rw [List.foldlM_cons] at hread
    obtain ⟨next, hnext, hread⟩ := bind_eq_ok.mp hread
    have happend : lines ++ line :: rest = (lines ++ [line]) ++ rest := by simp
    rw [happend] at hroom ⊢
    rw [List.length_append, List.length_append] at hroom
    refine ih (tracks_readLine h (by omega) hnext) ?_ hread
    rwa [List.length_append, List.length_append]

/-- The lines of a segment are consistent when each of its item lines keeps its
amount. -/
theorem consistent_readLines (hroom : lines.length ≤ maxLines)
    (h : readLines baseOffset lines = .ok reading) :
    (∀ line ∈ reading.result, Consistent line) ↔ ∀ line ∈ lines, KeepsAmount line := by
  unfold readLines at h
  obtain ⟨read, hread, h⟩ := bind_eq_ok.mp h
  have hstart : Tracks [] {} := ⟨by simp, by simp, by simp⟩
  have htracks := tracks_foldlM hstart hroom hread
  obtain ⟨hfinished, hidle⟩ := tracks_finishActive htracks hroom h
  have hagrees := hfinished.agrees
  rw [hidle] at hagrees
  simpa using hagrees

/-! ## Documents -/

theorem length_textLines (encoding : Encoding) (segment : Segment) :
    (textLines encoding segment).length ≤ maxLines := by
  have hspans := congrArg List.length
    (@EscposSpans.spans_extractLines segment.payload segment.baseOffset encoding)
  rw [List.length_map, List.length_map] at hspans
  unfold textLines
  rw [hspans, EscposSpans.printedRuns, List.length_take]
  exact Nat.min_le_left _ _

theorem lines_segmentDocument {origin : PayloadSource} {segment : Segment}
    {document : NormalizedDocument} (h : segmentDocument origin segment = .ok document) :
    ∃ reading, readLines segment.baseOffset (textLines origin.encoding segment) = .ok reading ∧
      document.lines = reading.result := by
  unfold segmentDocument at h
  obtain ⟨⟨lines, metadata⟩, hlines, h⟩ := bind_eq_ok.mp h
  obtain ⟨operator, -, h⟩ := bind_eq_ok.mp h
  obtain ⟨reading, hreading, heq⟩ := map_eq_ok.mp hlines
  refine ⟨reading, hreading, ?_⟩
  rw [RchFilling.validateDocument_eq h]
  exact (congrArg Prod.fst heq).symm

/-- The lines of a payload are consistent when each item line of each of its
segments keeps its amount. -/
theorem consistent_parseEscpos {context : JobContext} {encoding : Encoding} {ocr : OcrBackend}
    {payload : Bytes} {documents : List NormalizedDocument}
    (h : parseEscpos context encoding ocr payload = .ok documents) :
    AllConsistent documents ↔
      ∀ segment ∈ parsedSegments payload, ∀ line ∈ textLines encoding segment, KeepsAmount line := by
  have hdocuments := mapM_eq_ok.mp h
  have hagrees : ∀ segment document,
      segmentDocument (payloadSource context encoding ocr payload) segment = .ok document →
      ((∀ line ∈ document.lines, Consistent line) ↔
        ∀ line ∈ textLines encoding segment, KeepsAmount line) := by
    intro segment document hdocument
    obtain ⟨reading, hreading, hlines⟩ := lines_segmentDocument hdocument
    rw [hlines]
    exact consistent_readLines (length_textLines _ _) hreading
  constructor
  · intro hall segment hin
    obtain ⟨document, hdocument, hsegment⟩ := forall₂_mem_left hdocuments hin
    exact (hagrees segment document hsegment).mp (hall document hdocument)
  · intro hall document hin
    obtain ⟨segment, hsegment, hdocument⟩ := forall₂_mem_right hdocuments hin
    exact (hagrees segment document hdocument).mpr (hall segment hsegment)

/-- The lines of a request are always consistent; the lines of an ESC/POS payload
are exactly where no printed item has a quantity that changes its amount. -/
theorem amounts_consistent_iff (context : JobContext) (encoding : Encoding) (ocr : OcrBackend)
    (payload response : Bytes) :
    (∀ documents, Rch.parseRch context payload response = .ok documents →
      AllConsistent documents) ∧
    ∀ documents, parseEscpos context encoding ocr payload = .ok documents →
      (AllConsistent documents ↔ ∀ segment ∈ parsedSegments payload,
        ∀ line ∈ textLines encoding segment, KeepsAmount line) :=
  ⟨fun _ => RchAmounts.consistent_parseRch, fun _ => consistent_parseEscpos⟩

/-- A payload of one printed line. -/
def ticket (line : String) : Bytes := line.toList.map (UInt8.ofNat ·.toNat)

def withoutOcr : OcrBackend := ⟨"tesseract:none", fun _ => .noResult⟩

def parsedTicket (line : String) : Except Raised (List NormalizedDocument) :=
  parseEscpos RchSegmentation.sampleContext .cp858 withoutOcr (ticket line)

theorem amounts_consistent_single :
    (∃ documents, Rch.parseRch RchSegmentation.sampleContext (ticket "1 x PIZZA 16,00") [] =
      .ok documents ∧ AllConsistent documents) ∧
    ∃ documents, parsedTicket "1 x PIZZA 16,00" = .ok documents ∧ AllConsistent documents := by
  obtain ⟨hrch, hescpos⟩ := amounts_consistent_iff RchSegmentation.sampleContext .cp858 withoutOcr
    (ticket "1 x PIZZA 16,00") []
  constructor
  · have hcount : (Rch.parseRch RchSegmentation.sampleContext (ticket "1 x PIZZA 16,00") []).map
        List.length = .ok 1 := by
      decide +kernel
    obtain ⟨documents, hparsed, -⟩ := map_eq_ok.mp hcount
    exact ⟨documents, hparsed, hrch documents hparsed⟩
  · have hcount : (parsedTicket "1 x PIZZA 16,00").map List.length = .ok 1 := by
      decide +kernel
    obtain ⟨documents, hparsed, -⟩ := map_eq_ok.mp hcount
    refine ⟨documents, hparsed, (hescpos documents hparsed).mpr ?_⟩
    decide +kernel

/-- The amount of two pizzas is taken for the price of one. -/
theorem doubled_not_consistent : ∃ documents, parsedTicket "2 x PIZZA 16,00" = .ok documents ∧
    ¬ AllConsistent documents := by
  have hamounts : (parsedTicket "2 x PIZZA 16,00").map (·.map fun document => document.lines.map
      fun line => (line.quantity, line.unitPrice, line.lineTotal)) =
      .ok [[(some ⟨false, 2, 0⟩, some ⟨false, 1600, -2⟩, some ⟨false, 1600, -2⟩)]] := by
    decide +kernel
  obtain ⟨documents, hparsed, hmap⟩ := map_eq_ok.mp hamounts
  refine ⟨documents, hparsed, fun hall => ?_⟩
  obtain ⟨document, rest, rfl, hlines, -⟩ := List.map_eq_cons_iff.mp hmap
  obtain ⟨line, _, hline, hshown, -⟩ := List.map_eq_cons_iff.mp hlines
  obtain ⟨hquantity, hprices⟩ := Prod.mk.inj hshown
  obtain ⟨hunit, htotal⟩ := Prod.mk.inj hprices
  have hin : line ∈ document.lines := by
    rw [hline]
    exact List.mem_cons_self
  have hequal := hall document List.mem_cons_self line hin _ hquantity _ hunit _ htotal
  exact absurd hequal (by decide)

end RetailPrintGuard.Parser.LineAmounts
