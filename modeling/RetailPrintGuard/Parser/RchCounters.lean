import RetailPrintGuard.Common.Amounts
import RetailPrintGuard.Library.Checks
import RetailPrintGuard.Parser.RchFraming
import RetailPrintGuard.Parser.RchPatterns

/-! # RCH counters

The number of a commercial document is not printed in the request: it comes
back as the answer to a status query behind the total. Queries and answers are
paired by their sequence digits alone. -/
namespace RetailPrintGuard.Parser.RchCounters
open RetailPrintGuard.Common.Amounts RetailPrintGuard.Common.PrintedText
open RetailPrintGuard.Library.Checks RetailPrintGuard.Library.Regex
open RetailPrintGuard.Parser.RchFraming RetailPrintGuard.Parser.RchPatterns

/-! ## Frames -/

/-- A valid frame of the client. -/
def isCommand (frame : Frame) : Bool :=
  frame.address == "00".toList && frame.frameClass == 'z' && frame.bccValid

/-- A valid frame of the printer. -/
def isResponse (frame : Frame) : Bool :=
  frame.address == "01".toList && frame.frameClass == 'N' && frame.bccValid

def isCommercialOpen (frame : Frame) : Bool := frame.text == "=K".toList

def isManagementOpen (frame : Frame) : Bool := frame.text == "=o".toList

def isTotal (frame : Frame) : Bool := (fullmatch totalRe frame.text).isSome

def isClose (frame : Frame) : Bool := (fullmatch closeRe frame.text).isSome

/-- A status query whose sequence byte is a digit. -/
def isQuery (frame : Frame) : Bool :=
  frame.text == "<</?s".toList && Common.PrintedText.isDigit frame.sequence

/-- `str((int(sequence) + 8) % 10)`: `int` does not read a superscript. -/
def expectedSequence (sequence : Char) : Except Raised Char :=
  if isDecimal sequence then .ok (Nat.digitChar ((sequence.toNat - 48 + 8) % 10))
  else .error .valueError

/-! ## The pass over the request -/

structure CounterResponse where
  index : Nat
  frame : Frame
  statusDigits : Text
  counter : Text
deriving DecidableEq

def CounterResponse.sequence (response : CounterResponse) : Char := response.frame.sequence

def responseCandidates (frames : List Frame) : List CounterResponse :=
  frames.zipIdx.filterMap fun (frame, index) =>
    if isResponse frame then
      (fullmatch counterRe frame.text).map fun found =>
        { index, frame
          statusDigits := (found.group "status_digits").getD []
          counter := (found.group "counter").getD [] }
    else none

structure CounterPass where
  commercialStart : Option Nat := none
  totalSeen : Bool := false
  usedResponses : List Nat := []
  /-- latest first -/
  statusByDocumentStart : List (Nat × CounterResponse) := []

section
variable (candidates : List CounterResponse)

/-- The first unused response with the sequence the query waits for. -/
def CounterPass.attach (state : CounterPass) (start : Nat) (expected : Char) : CounterPass :=
  let found := candidates.find? fun response =>
    !state.usedResponses.contains response.index && response.sequence == expected
  match found with
  | none => state
  | some response =>
    { state with
      usedResponses := response.index :: state.usedResponses
      statusByDocumentStart := (start, response) :: state.statusByDocumentStart }

def counterStep (state : CounterPass) (frame : Frame) : Except Raised CounterPass :=
  if isCommercialOpen frame then
    .ok { state with commercialStart := some frame.frameId, totalSeen := false }
  else
    match state.commercialStart with
    | none => .ok state
    | some start =>
      if isTotal frame then .ok { state with totalSeen := true }
      else do
        let state ←
          if state.totalSeen && isQuery frame then
            (expectedSequence frame.sequence).map (state.attach candidates start)
          else pure state
        return if isClose frame then { state with commercialStart := none, totalSeen := false }
          else state

/-- The loop over the commands of the request. -/
def counterPass (frames : List Frame) : Except Raised CounterPass :=
  frames.foldlM (counterStep candidates) {}

end

/-- `status_by_document_start.get(start)` -/
def CounterPass.status (state : CounterPass) (start : Nat) : Option CounterResponse :=
  state.statusByDocumentStart.lookup start

end RetailPrintGuard.Parser.RchCounters
