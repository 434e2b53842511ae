import RetailPrintGuard.Parser.Documents
import RetailPrintGuard.Parser.EscposCommands
import RetailPrintGuard.Parser.EscposPatterns

/-! # The lines of an ESC/POS ticket

An item stands on one printed line or goes on over several; the course it
belongs to stands above it. -/
namespace RetailPrintGuard.Parser.EscposLines
open RetailPrintGuard.Common.Amounts
open RetailPrintGuard.Common.Domain (SourceSpan)
open RetailPrintGuard.Common.PrintedText hiding start finish
open RetailPrintGuard.Library RetailPrintGuard.Library.DecimalFloat
open RetailPrintGuard.Library.Regex
open RetailPrintGuard.Parser.Documents RetailPrintGuard.Parser.EscposPatterns
open RetailPrintGuard.Parser.EscposCommands (TextLine maxLines)

/-- The captured group of a match, where the pattern has it. -/
def value (found : Match) (name : String) : Text := (found.group name).getD []

/-- `_SPACE_BEFORE_CONTINUATION` -/
def spaceBeforeContinuation : List String :=
  ["a", "ai", "al", "alla", "alle", "agli", "con", "da", "dal", "dalla", "delle", "di", "e", "in",
    "per", "senza", "su"]

/-- `_UNIT_CONTINUATIONS` -/
def unitContinuations : List String := ["cl", "dl", "g", "gr", "kg", "l", "ml"]

def isWordOf (words : List String) (text : Text) : Bool := words.contains (String.ofList text)

/-- `_join_wrapped_description` -/
def joinWrappedDescription (left right : Text) (forceSpace : Bool) : Text :=
  let fragment := collapse right
  if fragment.isEmpty then left
  else
    let first := lower ((split fragment).headD [])
    let previous := lower ((split left).getLastD [])
    let firstIsFunctionWord := isWordOf spaceBeforeContinuation first &&
      (1 < first.length || 1 < (split fragment).length)
    let needsSpace := forceSpace || firstIsFunctionWord ||
      isWordOf unitContinuations (lower fragment) || isWordOf spaceBeforeContinuation previous
    left ++ (if needsSpace then [' '] else []) ++ fragment

def totalWords : List String := ["TOTALE", "TOT ", "IMPORTO", "SUBTOTALE", "SUB-TOTALE"]

/-- `_is_non_item_line` -/
def isNonItemLine (text : Text) : Bool :=
  let stripped := strip text
  stripped.isEmpty || (fullmatch separatorRe stripped).isSome ||
    (matchStart documentHeaderRe stripped).isSome || startsWith (upper stripped) totalWords

/-- `text.rstrip("\r\n")` -/
def rstripBreaks (text : Text) : Text :=
  (text.reverse.dropWhile fun x => x == '\r' || x == '\n').reverse

/-- `text.endswith(" ")` -/
def endsWithBlank (text : Text) : Bool := text.getLast? == some ' '

/-- `value < 0` -/
def isNegative (value : Decimal) : Bool := value.negative && value.coefficient != 0

/-- `_PendingLine` -/
structure PendingLine where
  description : Text
  quantity : Decimal
  amount : Option Decimal
  course : Option Text
  rawFragments : List Text
  sourceStart : Nat
  sourceEnd : Nat
  spaceBeforeNext : Bool := false

/-- An entry of `joined_line_fragments`. -/
structure JoinedFragments where
  sequence : Nat
  fragments : List Text
  sourceOffset : Nat
  sourceLength : Nat

/-- What the loop has read. -/
structure Reading where
  result : List DocumentLine := []
  lineCourses : List (Nat × Text) := []
  joinedLineFragments : List JoinedFragments := []
  currentCourse : Option Text := none
  covers : Option Nat := none
  active : Option PendingLine := none

/-! ## Finishing a line -/

/-- The line of a pending one: the amount it prints is both its unit price and
its total. -/
def pendingDocumentLine (baseOffset sequence : Nat) (pending : PendingLine) : DocumentLine where
  sequence := sequence
  description := some ((strip pending.description).take 512)
  quantity := some pending.quantity
  unitPrice := pending.amount
  lineTotal := pending.amount
  state := some (if isNegative pending.quantity then "QUANTITY_DECREASE" else "ACTIVE")
  rawText := join ['\n'] pending.rawFragments
  courseCode := pending.course
  source :=
    { direction := "CLIENT_TO_DEVICE"
      offset := max baseOffset pending.sourceStart
      length := pending.sourceEnd - pending.sourceStart }

/-- `finish_active`: a line past the limit is dropped. -/
def finishActive (baseOffset : Nat) (reading : Reading) : Except Raised Reading :=
  match reading.active with
  | none => .ok reading
  | some pending =>
    if maxLines ≤ reading.result.length then .ok { reading with active := none }
    else do
      let sequence := reading.result.length + 1
      let line ← validateLine (pendingDocumentLine baseOffset sequence pending)
      return { reading with
        result := reading.result ++ [line]
        lineCourses := reading.lineCourses ++
          pending.course.toList.map fun course => (sequence, course)
        joinedLineFragments := reading.joinedLineFragments ++
          if 1 < pending.rawFragments.length then
            [⟨sequence, pending.rawFragments, pending.sourceStart,
              pending.sourceEnd - pending.sourceStart⟩]
          else []
        active := none }

/-! ## Reading the lines -/

/-- The amounts printed in a text. -/
def amounts (text : Text) : List Match := finditer moneyRe text

def amountOf (found : Match) : Decimal := printedMoney (value found "value")

/-- `int(digits)`: the interpreter reads no more than 4300 digits. -/
def readInt (digits : Text) : Except Raised Nat :=
  if 4300 < digits.length then .error .valueError else .ok (natOf digits)

/-- The pending line of an item. -/
def itemLine (course : Option Text) (line : TextLine) (found : Match) : PendingLine :=
  let rawDescription := value found "description"
  let amount := (amounts rawDescription).getLast?
  { description := match amount with
      | some printed => stripBy " -:;".toList.contains printed.lead
      | none => strip rawDescription
    quantity := decimalOf (replaceChar ',' '.' (value found "quantity"))
    amount := amount.map amountOf
    course
    rawFragments := [rstrip line.text]
    sourceStart := line.offset
    sourceEnd := line.offset + line.length
    spaceBeforeNext := endsWithBlank rawDescription }

/-- The pending line of a text with an amount, where there is one. -/
def pricedLine (course : Option Text) (line : TextLine) : Option PendingLine :=
  let collapsed := collapse line.text
  if isNonItemLine collapsed then none
  else
    match (amounts collapsed).getLast? with
    | none => none
    | some printed =>
      let description := stripBy " -:;".toList.contains printed.lead
      if description.isEmpty then none
      else some
        { description
          quantity := ⟨false, 1, 0⟩
          amount := some (amountOf printed)
          course
          rawFragments := [rstrip line.text]
          sourceStart := line.offset
          sourceEnd := line.offset + line.length }

/-- A pending line that goes on. -/
def continued (pending : PendingLine) (line : TextLine) : PendingLine :=
  { pending with
    description := joinWrappedDescription pending.description line.text pending.spaceBeforeNext
    spaceBeforeNext := endsWithBlank (rstripBreaks line.text)
    rawFragments := pending.rawFragments ++ [rstrip line.text]
    sourceEnd := line.offset + line.length }

/-- A line that can go on the one before it. -/
def isContinuation (line : TextLine) : Bool :=
  line.text.head?.any isSpace && !isNonItemLine (collapse line.text)

def courseOf (line : TextLine) : Option Match := matchStart courseRe (collapse line.text)

def coversOf (line : TextLine) : Option Match := matchStart coversRe (collapse line.text)

/-- One turn of the loop of `_semantic_lines`. -/
def readLine (baseOffset : Nat) (reading : Reading) (line : TextLine) : Except Raised Reading :=
  match courseOf line with
  | some found => do
    let reading ← finishActive baseOffset reading
    return { reading with currentCourse := some (upper (value found "value")) }
  | none =>
    match coversOf line with
    | some found => do
      let reading ← finishActive baseOffset reading
      let covers ← readInt (value found "value")
      return { reading with covers := some covers }
    | none =>
      match matchStart itemRe line.text with
      | some found => do
        let reading ← finishActive baseOffset reading
        return { reading with active := some (itemLine reading.currentCourse line found) }
      | none =>
        match reading.active with
        | some pending =>
          if isContinuation line then
            .ok { reading with active := some (continued pending line) }
          else do
            let reading ← finishActive baseOffset reading
            return { reading with active := pricedLine reading.currentCourse line }
        | none => .ok { reading with active := pricedLine reading.currentCourse line }

def readLines (baseOffset : Nat) (lines : List TextLine) : Except Raised Reading := do
  let reading ← lines.foldlM (readLine baseOffset) {}
  finishActive baseOffset reading

/-- The metadata of the lines. -/
def lineMetadata (reading : Reading) : List (String × Json) :=
  (reading.covers.toList.map fun covers => ("covers", Json.num covers)) ++
  (if reading.lineCourses.isEmpty then [] else
    [("line_courses", .obj (reading.lineCourses.map fun (sequence, course) =>
      (toString sequence, .str (String.ofList course))))]) ++
  if reading.joinedLineFragments.isEmpty then [] else
    [("joined_line_fragments", .arr (reading.joinedLineFragments.map fun joined => .obj
      [("sequence", .num joined.sequence),
        ("fragments", .arr (joined.fragments.map fun text => .str (String.ofList text))),
        ("source_offset", .num joined.sourceOffset),
        ("source_length", .num joined.sourceLength)]))]

/-- `_semantic_lines` -/
def semanticLines (baseOffset : Nat) (lines : List TextLine) :
    Except Raised (List DocumentLine × List (String × Json)) :=
  (readLines baseOffset lines).map fun reading => (reading.result, lineMetadata reading)

/-- `_document_total`: the last amount of the last line with a total. -/
def documentTotal (lines : List TextLine) : Option Decimal :=
  (lines.filterMap fun line =>
    let text := collapse line.text
    if startsWith (upper text) totalWords then (amounts text).getLast?.map amountOf
    else none).getLast?

end RetailPrintGuard.Parser.EscposLines
