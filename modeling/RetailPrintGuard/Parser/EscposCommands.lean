import RetailPrintGuard.Common.CodePages

/-! # ESC/POS commands

The scanner reads one command after the other: a command byte pair inside the
data of an image or a barcode is data. -/
namespace RetailPrintGuard.Parser.EscposCommands
open RetailPrintGuard.Common.CodePages RetailPrintGuard.Common.PrintedText

abbrev Bytes := List UInt8

def maxOutputChars : Nat := 4000000
def maxLines : Nat := 32768

/-- `_CODEPAGES` -/
def codepages (code : UInt8) : Option Encoding :=
  if code = 0 then some .cp437
  else if code = 2 then some .cp850
  else if code = 16 then some .cp1252
  else if code = 19 then some .cp858
  else none

/-- What stands at a place the scanner reaches. -/
inductive Command where
  | lineFeed | carriageReturn | tab
  | init
  | codepage (code : UInt8)
  | escape (command argument : UInt8)
  | cashDrawer
  | cut
  | bitImage (available : Nat)
  | escapeOther (command : UInt8)
  | raster (available : Nat)
  | barcode (available : Nat)
  | gsParen (available : Nat)
  | charSize (argument : UInt8)
  | gsOther (command : UInt8)
  | realtime (first second : UInt8)
  | control (byte : UInt8)
  | text (byte : UInt8)
deriving DecidableEq

/-- The bytes of data at the end of a command. -/
def Command.dataLength : Command → Nat
  | .bitImage available | .raster available | .barcode available | .gsParen available => available
  | _ => 0

/-! ## Reading one command -/

/-- Two bytes, least first. -/
def word (bytes : Bytes) (i : Nat) : Nat :=
  (bytes.getD i 0).toNat + (bytes.getD (i + 1) 0).toNat * 256

/-- The commands of ESC, on `payload[cursor:]`, with their lengths. -/
def readEscape (rest : Bytes) : Command × Nat :=
  let remaining := rest.length
  let command := rest.getD 1 0
  let argument := rest.getD 2 0
  if command = 0x40 then (.init, 2)
  else if command = 0x74 ∧ 2 < remaining then (.codepage argument, 3)
  else if command ∈ [0x21, 0x45, 0x61, 0x64, 0x4A, 0x33, 0x20] ∧ 2 < remaining then
    (.escape command argument, 3)
  else if command = 0x70 ∧ 4 < remaining then (.cashDrawer, 5)
  else if command = 0x6D then (.cut, 2)
  else if command = 0x2A ∧ 4 < remaining then
    let multiplier := if argument = 32 ∨ argument = 33 then 3 else 1
    let available := min (word rest 3 * multiplier) (remaining - 5)
    (.bitImage available, 5 + available)
  else (.escapeOther command, 2)

/-- The commands of GS. -/
def readGroup (rest : Bytes) : Command × Nat :=
  let remaining := rest.length
  let command := rest.getD 1 0
  let mode := rest.getD 2 0
  if command = 0x56 ∧ 2 < remaining then
    (.cut, if (mode = 65 ∨ mode = 66) ∧ 3 < remaining then 4 else 3)
  else if command = 0x76 ∧ 7 < remaining ∧ mode = 0x30 then
    let available := min (word rest 4 * word rest 6) (remaining - 8)
    (.raster available, 8 + available)
  else if command = 0x6B ∧ 2 < remaining then
    if 65 ≤ mode ∧ 3 < remaining then
      let available := min (rest.getD 3 0).toNat (remaining - 4)
      (.barcode available, 4 + available)
    else
      match (rest.drop 3).findIdx? (· == 0) with
      | none => (.barcode (remaining - 3), remaining)
      | some terminator => (.barcode (terminator + 1), terminator + 4)
  else if command = 0x28 ∧ 4 < remaining then
    let available := min (word rest 3) (remaining - 5)
    (.gsParen available, 5 + available)
  else if command = 0x21 ∧ 2 < remaining then (.charSize mode, 3)
  else (.gsOther command, 2)

def readCommand (rest : Bytes) : Command × Nat :=
  let remaining := rest.length
  let byte := rest.getD 0 0
  if byte = 0x0A then (.lineFeed, 1)
  else if byte = 0x0D then (.carriageReturn, 1)
  else if byte = 0x09 then (.tab, 1)
  else if byte = 0x1B ∧ 1 < remaining then readEscape rest
  else if byte = 0x1D ∧ 1 < remaining then readGroup rest
  else if byte = 0x10 ∧ 2 < remaining then (.realtime (rest.getD 1 0) (rest.getD 2 0), 3)
  else if byte < 0x20 ∨ byte = 0x7F then (.control byte, 1)
  else (.text byte, 1)

/-- A command with its place. -/
structure Scanned where
  offset : Nat
  command : Command
  size : Nat
deriving DecidableEq

/-- The place of the first data byte, and the place behind the last one. -/
def Scanned.dataStart (scanned : Scanned) : Nat :=
  scanned.offset + scanned.size - scanned.command.dataLength

def Scanned.dataEnd (scanned : Scanned) : Nat := scanned.offset + scanned.size

/-- The commands of `payload[offset:]`; a command is at least one byte long. -/
def commandsFrom : Nat → Nat → Bytes → List Scanned
  | 0, _, _ => []
  | fuel + 1, offset, rest =>
    if rest = [] then []
    else
      let (command, size) := readCommand rest
      ⟨offset, command, size⟩ :: commandsFrom fuel (offset + size) (rest.drop size)

def commands (payload : Bytes) : List Scanned := commandsFrom payload.length 0 payload

/-! ## Text -/

structure TextLine where
  text : Text
  offset : Nat
  length : Nat
deriving DecidableEq

/-- A part of the normalized text. -/
inductive Piece where
  | text (text : Text)
  | command (command : Command) (label : Text)
deriving DecidableEq

def Piece.shown : Piece → Text
  | .text shown => shown
  | .command _ label => label

/-- `f"{value:02X}"` -/
def hex (value : UInt8) : String :=
  String.ofList ((Nat.toDigits 16 (value.toNat / 16) ++ Nat.toDigits 16 (value.toNat % 16)).map
    Char.toUpper)

/-- The label of a command in the normalized text. -/
def Command.label (encoding : Encoding) (command : Command) : Text :=
  let text := match command with
    | .init => "<ESC/POS:INIT>"
    | .codepage code => s!"<ESC/POS:CODEPAGE:{code.toNat}:{encoding.name}>"
    | .escape command argument => s!"<ESC/POS:ESC:{hex command}:{argument.toNat}>"
    | .cashDrawer => "<ESC/POS:CASH_DRAWER>"
    | .cut => "<ESC/POS:CUT>"
    | .bitImage available => s!"<ESC/POS:BIT_IMAGE:{available}>"
    | .escapeOther command => s!"<ESC/POS:ESC:{hex command}>"
    | .raster available => s!"<ESC/POS:RASTER_IMAGE:{available}>"
    | .barcode available => s!"<ESC/POS:BARCODE:{available}>"
    | .gsParen available => s!"<ESC/POS:GS_PAREN:{available}>"
    | .charSize argument => s!"<ESC/POS:CHAR_SIZE:{argument.toNat}>"
    | .gsOther command => s!"<ESC/POS:GS:{hex command}>"
    | .realtime first second => s!"<ESC/POS:REALTIME:{hex first}:{second.toNat}>"
    | .control byte => s!"<BYTE:0x{hex byte}>"
    | .lineFeed | .carriageReturn | .tab | .text _ => ""
  text.toList

structure Extraction where
  encoding : Encoding
  buffer : Bytes := []
  bufferOffset : Nat := 0
  lines : List TextLine := []
  rendered : List Piece := []
  warnings : List String := []
  chars : Nat := 0

def limitExceeded : String := "normalized_text_limit_exceeded"

def Extraction.warn (state : Extraction) (warning : String) : Extraction :=
  { state with warnings := state.warnings ++ [warning] }

/-- A byte that the code page does not have is shown in hexadecimal. -/
def undecodable (bytes : Bytes) : Text :=
  bytes.flatMap fun byte =>
    if 32 ≤ byte ∧ byte < 127 then [Char.ofNat byte.toNat] else s!"<0x{hex byte}>".toList

def Extraction.emitText (state : Extraction) : Extraction :=
  if state.buffer = [] then state
  else
    let (text, decoded) := match decode state.encoding state.buffer with
      | some text => (text, state)
      | none => (undecodable state.buffer,
          state.warn s!"text_decode_error:UnicodeDecodeError:{state.encoding.name}")
    if maxOutputChars ≤ decoded.chars then { decoded.warn limitExceeded with buffer := [] }
    else
      let text := text.take (maxOutputChars - decoded.chars)
      let emitted : Extraction :=
        { decoded with
          rendered := decoded.rendered ++ [.text text]
          chars := decoded.chars + text.length
          buffer := [] }
      if decoded.lines.length < maxLines then
        { emitted with
          lines := decoded.lines ++ [⟨text, decoded.bufferOffset, decoded.buffer.length⟩] }
      else emitted.warn "line_limit_exceeded"

def Extraction.control (state : Extraction) (command : Command) : Extraction :=
  let state := state.emitText
  if state.chars < maxOutputChars then
    let label := command.label state.encoding
    { state with
      rendered := state.rendered ++ [.command command label]
      chars := state.chars + label.length }
  else state.warn limitExceeded

/-- Bytes of text, from an absolute offset. -/
def Extraction.append (state : Extraction) (absolute : Nat) (bytes : Bytes) : Extraction :=
  { state with
    bufferOffset := if state.buffer = [] then absolute else state.bufferOffset
    buffer := state.buffer ++ bytes }

def Extraction.apply (state : Extraction) (absolute : Nat) (command : Command) : Extraction :=
  match command with
  | .lineFeed =>
    let state := state.emitText
    { state with rendered := state.rendered ++ [.text ['\n']], chars := state.chars + 1 }
  | .carriageReturn => state.emitText
  | .tab => state.append absolute [32, 32, 32, 32]
  | .text byte => state.append absolute [byte]
  | .codepage code =>
    let state := state.emitText
    { state with encoding := (codepages code).getD state.encoding }.control command
  | command => state.control command

/-- The loop: it ends with commands left when the text has reached its limit. -/
def extractFrom (baseOffset : Nat) : Extraction → List Scanned → Extraction
  | state, [] => state.emitText
  | state, scanned :: rest =>
    if state.chars < maxOutputChars then
      extractFrom baseOffset (state.apply (baseOffset + scanned.offset) scanned.command) rest
    else state.emitText.warn limitExceeded

def extraction (payload : Bytes) (baseOffset : Nat) (defaultEncoding : Encoding) : Extraction :=
  extractFrom baseOffset { encoding := defaultEncoding, bufferOffset := baseOffset }
    (commands payload)

structure ExtractedLines where
  lines : List TextLine
  text : Text
  warnings : List String
deriving DecidableEq

def extractLines (payload : Bytes) (baseOffset : Nat) (defaultEncoding : Encoding) :
    ExtractedLines :=
  let state := extraction payload baseOffset defaultEncoding
  { lines := state.lines
    text := strip (state.rendered.flatMap Piece.shown)
    warnings := distinct state.warnings }

/-! ## The places the scanner reaches -/

variable {payload : Bytes} {fuel offset : Nat} {scanned : Scanned}

theorem size_pos (rest : Bytes) : 0 < (readCommand rest).2 := by
  unfold readCommand readEscape readGroup
  grind

theorem readEscape_le {rest : Bytes} (h : 1 < rest.length) :
    (readEscape rest).2 ≤ rest.length := by
  simp only [readEscape]
  split_ifs <;> simp only <;> omega

theorem readGroup_le {rest : Bytes} (h : 1 < rest.length) :
    (readGroup rest).2 ≤ rest.length := by
  simp only [readGroup]
  split_ifs
  · simp only; omega
  · simp only; omega
  · simp only; omega
  · simp only; omega
  · split
    · exact Nat.le_refl _
    · next terminator hfind =>
      have hlt := (List.findIdx?_eq_some_iff_findIdx_eq.mp hfind).1
      rw [List.length_drop] at hlt
      simp only
      omega
  · simp only; omega
  · simp only; omega
  · simp only; omega

theorem size_le {rest : Bytes} (h : rest ≠ []) : (readCommand rest).2 ≤ rest.length := by
  have hpos := List.length_pos_iff.mpr h
  simp only [readCommand]
  split_ifs with _ _ _ hescape hgroup
  · exact hpos
  · exact hpos
  · exact hpos
  · exact readEscape_le hescape.2
  · exact readGroup_le hgroup.2
  · simp only; omega
  · exact hpos
  · exact hpos

/-- A place where the scan of the payload reads a command. -/
inductive CommandAt (payload : Bytes) : Nat → Prop where
  | start : CommandAt payload 0
  | next {i : Nat} : CommandAt payload i → i < payload.length →
      CommandAt payload (i + (readCommand (payload.drop i)).2)

theorem commandsFrom_eq (hoffset : offset < payload.length)
    (hfuel : payload.length ≤ offset + fuel) :
    commandsFrom fuel offset (payload.drop offset) =
      ⟨offset, (readCommand (payload.drop offset)).1, (readCommand (payload.drop offset)).2⟩ ::
        commandsFrom (fuel - 1) (offset + (readCommand (payload.drop offset)).2)
          (payload.drop (offset + (readCommand (payload.drop offset)).2)) := by
  obtain ⟨fuel, rfl⟩ : ∃ k, fuel = k + 1 := ⟨fuel - 1, by omega⟩
  have hne : payload.drop offset ≠ [] := by simpa using hoffset
  simp only [commandsFrom, if_neg hne, List.drop_drop, Nat.add_sub_cancel]

theorem commandsFrom_nil (hoffset : payload.length ≤ offset) :
    commandsFrom fuel offset (payload.drop offset) = [] := by
  cases fuel with
  | zero => rfl
  | succ fuel => rw [commandsFrom, if_pos (List.drop_eq_nil_of_le hoffset)]

theorem commandAt_of_mem (hat : CommandAt payload offset)
    (h : scanned ∈ commandsFrom fuel offset (payload.drop offset)) :
    CommandAt payload scanned.offset ∧ scanned.offset < payload.length ∧
      (scanned.command, scanned.size) = readCommand (payload.drop scanned.offset) := by
  induction fuel generalizing offset with
  | zero => exact absurd h List.not_mem_nil
  | succ fuel ih =>
    rw [commandsFrom] at h
    split at h
    · exact absurd h List.not_mem_nil
    · next hne =>
      have hlt : offset < payload.length := by simpa using hne
      simp only [List.drop_drop] at h
      cases h with
      | head => exact ⟨hat, hlt, rfl⟩
      | tail _ h => exact ih (hat.next hlt) h

/-- From every place the scan reaches it goes on as from the start. -/
theorem commandsFrom_suffix {i : Nat} (h : CommandAt payload i) :
    ∃ fuel, payload.length ≤ i + fuel ∧
      commandsFrom fuel i (payload.drop i) <:+ commands payload := by
  induction h with
  | start => exact ⟨payload.length, by omega, List.suffix_refl _⟩
  | @next i _ hlt ih =>
    obtain ⟨fuel, hfuel, hsuffix⟩ := ih
    have hpos := size_pos (payload.drop i)
    rw [commandsFrom_eq hlt hfuel] at hsuffix
    exact ⟨fuel - 1, by omega, (List.suffix_cons _ _).trans hsuffix⟩

theorem mem_commands : scanned ∈ commands payload ↔
    CommandAt payload scanned.offset ∧ scanned.offset < payload.length ∧
      (scanned.command, scanned.size) = readCommand (payload.drop scanned.offset) := by
  constructor
  · intro h
    exact commandAt_of_mem .start h
  · rintro ⟨hat, hlt, hread⟩
    obtain ⟨fuel, hfuel, hsuffix⟩ := commandsFrom_suffix hat
    rw [commandsFrom_eq hlt hfuel, ← hread] at hsuffix
    exact hsuffix.subset List.mem_cons_self

/-! ## Cuts -/

/-- ESC m or GS V with a mode, wherever they stand. -/
def startsCut (rest : Bytes) : Bool :=
  rest.take 2 == [0x1B, 0x6D] || (rest.take 2 == [0x1D, 0x56] && decide (2 < rest.length))

theorem readEscape_eq_cut (rest : Bytes) :
    (readEscape rest).1 = .cut ↔ rest.getD 1 0 = 0x6D := by
  by_cases h : rest.getD 1 0 = 0x6D
  · simp [readEscape, -List.getD_eq_getElem?_getD, h]
  · refine ⟨fun hcut => ?_, fun hd => absurd hd h⟩
    simp only [readEscape, if_neg h] at hcut
    split_ifs at hcut

theorem readGroup_eq_cut (rest : Bytes) :
    (readGroup rest).1 = .cut ↔ rest.getD 1 0 = 0x56 ∧ 2 < rest.length := by
  unfold readGroup
  grind

theorem readCommand_eq_cut (rest : Bytes) :
    (readCommand rest).1 = .cut ↔ startsCut rest = true := by
  match rest with
  | [] => decide
  | [a] => grind [readCommand, startsCut]
  | a :: b :: rest =>
    have hescape := readEscape_eq_cut (a :: b :: rest)
    have hgroup := readGroup_eq_cut (a :: b :: rest)
    have hstart : startsCut (a :: b :: rest) = true ↔
        (a = 0x1B ∧ b = 0x6D) ∨ (a = 0x1D ∧ b = 0x56 ∧ 2 < (a :: b :: rest).length) := by
      simp [startsCut]
      tauto
    simp only [List.getD_cons_succ, List.getD_cons_zero] at hescape hgroup
    rw [hstart]
    unfold readCommand
    grind

/-- A cut among the commands of the scan. -/
def ReadsCut (payload : Bytes) : Prop :=
  ∃ i, CommandAt payload i ∧ startsCut (payload.drop i) = true

theorem readsCut_iff : ReadsCut payload ↔ ∃ scanned ∈ commands payload, scanned.command = .cut := by
  constructor
  · rintro ⟨i, hat, hcut⟩
    have hlt : i < payload.length := by
      by_contra hge
      rw [List.drop_eq_nil_of_le (by omega)] at hcut
      exact absurd hcut (by decide)
    have hm : (⟨i, (readCommand (payload.drop i)).1, (readCommand (payload.drop i)).2⟩ : Scanned) ∈
        commands payload := mem_commands.mpr ⟨hat, hlt, rfl⟩
    exact ⟨_, hm, (readCommand_eq_cut _).mpr hcut⟩
  · rintro ⟨scanned, hm, hcut⟩
    obtain ⟨hat, -, hread⟩ := mem_commands.mp hm
    exact ⟨scanned.offset, hat, (readCommand_eq_cut _).mp ((Prod.ext_iff.mp hread).1 ▸ hcut)⟩

/-! ## What the extraction shows -/

variable {state : Extraction} {command : Command} {baseOffset : Nat} {encoding : Encoding}

/-- The normalized text shows a cut. -/
def Extraction.ShowsCut (state : Extraction) : Prop :=
  ∃ label, Piece.command .cut label ∈ state.rendered

/-- The text has reached its limit. -/
def Extraction.Limited (state : Extraction) : Prop := limitExceeded ∈ state.warnings

theorem emitText_showsCut : state.emitText.ShowsCut ↔ state.ShowsCut := by
  unfold Extraction.emitText Extraction.ShowsCut
  grind [Extraction.warn]

theorem Extraction.Limited.emitText (h : state.Limited) : state.emitText.Limited := by
  unfold Extraction.emitText
  unfold Extraction.Limited at h ⊢
  grind [Extraction.warn]

theorem control_showsCut (h : ¬ (state.control command).Limited) :
    (state.control command).ShowsCut ↔ state.ShowsCut ∨ command = .cut := by
  rw [← @emitText_showsCut state]
  unfold Extraction.control at h ⊢
  unfold Extraction.ShowsCut Extraction.Limited at *
  grind [Extraction.warn]

theorem Extraction.Limited.control (h : state.Limited) : (state.control command).Limited := by
  have hemit := h.emitText
  unfold Extraction.control
  unfold Extraction.Limited at hemit ⊢
  grind [Extraction.warn]

/-- Only a cut shows a cut, and it does unless the text is at its limit. -/
theorem apply_showsCut {absolute : Nat} (h : ¬ (state.apply absolute command).Limited) :
    (state.apply absolute command).ShowsCut ↔ state.ShowsCut ∨ command = .cut := by
  cases command with
  | lineFeed =>
    have hemit := @emitText_showsCut state
    simp [Extraction.apply, Extraction.ShowsCut] at hemit ⊢
    exact hemit
  | carriageReturn => simpa [Extraction.apply] using emitText_showsCut
  | tab => simp [Extraction.apply, Extraction.append, Extraction.ShowsCut]
  | text byte => simp [Extraction.apply, Extraction.append, Extraction.ShowsCut]
  | codepage code =>
    have hemit := @emitText_showsCut state
    exact (control_showsCut h).trans (or_congr_left hemit)
  | _ => exact control_showsCut h

theorem Extraction.Limited.apply {absolute : Nat} (h : state.Limited) :
    (state.apply absolute command).Limited := by
  cases command with
  | lineFeed => exact h.emitText
  | carriageReturn => exact h.emitText
  | tab => exact h
  | text byte => exact h
  | codepage code =>
    have hemit : Extraction.Limited
        { state.emitText with encoding := (codepages code).getD state.emitText.encoding } :=
      h.emitText
    exact hemit.control
  | _ => exact h.control

theorem limited_warn : (state.warn limitExceeded).Limited :=
  List.mem_append_right _ List.mem_cons_self

theorem Extraction.Limited.extractFrom {scan : List Scanned} (h : state.Limited) :
    (extractFrom baseOffset state scan).Limited := by
  induction scan generalizing state with
  | nil => exact h.emitText
  | cons scanned scan ih =>
    rw [EscposCommands.extractFrom]
    split
    · exact ih h.apply
    · exact limited_warn

theorem extractFrom_showsCut {scan : List Scanned}
    (h : ¬ (extractFrom baseOffset state scan).Limited) :
    (extractFrom baseOffset state scan).ShowsCut ↔
      state.ShowsCut ∨ ∃ scanned ∈ scan, scanned.command = .cut := by
  induction scan generalizing state with
  | nil => simpa [extractFrom] using emitText_showsCut
  | cons scanned scan ih =>
    rw [extractFrom] at h ⊢
    split at h
    · next hroom =>
      rw [if_pos hroom, ih h, apply_showsCut fun hlimited => h hlimited.extractFrom]
      simp only [List.mem_cons, exists_eq_or_imp, or_assoc]
    · exact absurd limited_warn h

/-- As long as the text is within its limit, a cut is shown exactly when the
scan reads one. -/
theorem extraction_showsCut (h : ¬ (extraction payload baseOffset encoding).Limited) :
    (extraction payload baseOffset encoding).ShowsCut ↔ ReadsCut payload := by
  rw [readsCut_iff, extraction, extractFrom_showsCut h]
  simp [Extraction.ShowsCut]

end RetailPrintGuard.Parser.EscposCommands
