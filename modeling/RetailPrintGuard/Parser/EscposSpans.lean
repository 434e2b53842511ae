import RetailPrintGuard.Parser.EscposCommands

/-! # Where ESC/POS lines stand

A line is a run of text bytes and tabs of the segment. A tab is four blanks in
the text, and the line is given the length of its text. -/
namespace RetailPrintGuard.Parser.EscposSpans
open RetailPrintGuard.Common.CodePages RetailPrintGuard.Parser.EscposCommands

/-- A run of text bytes and tabs. -/
structure TextRun where
  offset : Nat
  plain : Nat
  tabs : Nat
deriving DecidableEq

/-- The place behind the last byte of a run. -/
def TextRun.stop (run : TextRun) : Nat := run.offset + run.plain + run.tabs

/-- A byte of text, or a tab, at an offset. -/
def widen (opened : Option TextRun) (offset plain tabs : Nat) : TextRun :=
  match opened with
  | none => ⟨offset, plain, tabs⟩
  | some run => { run with plain := run.plain + plain, tabs := run.tabs + tabs }

/-- The runs of a scan: any other command ends one. -/
def runsFrom : Option TextRun → List Scanned → List TextRun
  | opened, [] => opened.toList
  | opened, scanned :: rest =>
    match scanned.command with
    | .tab => runsFrom (some (widen opened scanned.offset 0 1)) rest
    | .text _ => runsFrom (some (widen opened scanned.offset 1 0)) rest
    | _ => opened.toList ++ runsFrom none rest

/-- The commands that are read before the text reaches its limit. -/
def reachedFrom (baseOffset : Nat) : Extraction → List Scanned → List Scanned
  | _, [] => []
  | state, scanned :: rest =>
    if state.chars < maxOutputChars then
      scanned ::
        reachedFrom baseOffset (state.apply (baseOffset + scanned.offset) scanned.command) rest
    else []

/-- The runs of a segment that become lines. -/
def printedRuns (payload : Bytes) (baseOffset : Nat) (defaultEncoding : Encoding) :
    List TextRun :=
  (runsFrom none (reachedFrom baseOffset
    { encoding := defaultEncoding, bufferOffset := baseOffset } (commands payload))).take maxLines

/-- The lines lie inside the segment, one behind the other. -/
def Faithful (payload : Bytes) (baseOffset : Nat) (lines : List TextLine) : Prop :=
  (∀ line ∈ lines, baseOffset ≤ line.offset ∧
    line.offset + line.length ≤ baseOffset + payload.length) ∧
  lines.Pairwise fun a b => a.offset < b.offset ∧ a.offset + a.length ≤ b.offset

/-- Behind each run there is room for the three blanks that each of its tabs
adds, before the next run or the end of the segment. -/
def Fits (length : Nat) : List TextRun → Prop
  | [] => True
  | [run] => 3 * run.tabs ≤ length - run.stop
  | run :: next :: rest => 3 * run.tabs ≤ next.offset - run.stop ∧ Fits length (next :: rest)

variable {payload : Bytes} {baseOffset offset fuel : Nat} {encoding : Encoding}
variable {state : Extraction} {opened : Option TextRun} {scan : List Scanned} {run : TextRun}

/-! ## The lines are the runs -/

/-- The span a run is given. -/
def TextRun.span (baseOffset : Nat) (run : TextRun) : Nat × Nat :=
  (baseOffset + run.offset, run.plain + 4 * run.tabs)

def spans (state : Extraction) : List (Nat × Nat) :=
  state.lines.map fun line => (line.offset, line.length)

/-- The buffer holds the run that is open. -/
def Holds (baseOffset : Nat) (state : Extraction) : Option TextRun → Prop
  | none => state.buffer = []
  | some run => state.buffer ≠ [] ∧ state.chars < maxOutputChars ∧
      state.bufferOffset = baseOffset + run.offset ∧
      state.buffer.length = run.plain + 4 * run.tabs

theorem emitText_none (h : state.buffer = []) : state.emitText = state := by
  rw [Extraction.emitText, if_pos h]

/-- A run is emitted as one line, as long as there is room for lines. -/
theorem emitText_run (hne : state.buffer ≠ []) (hroom : state.chars < maxOutputChars) :
    spans state.emitText = (if state.lines.length < maxLines then
      spans state ++ [(state.bufferOffset, state.buffer.length)] else spans state) ∧
    state.emitText.buffer = [] := by
  have hroom : ¬ maxOutputChars ≤ state.chars := by omega
  unfold Extraction.emitText
  rw [if_neg hne]
  cases decode state.encoding state.buffer with
  | some text =>
    simp only [if_neg hroom]
    split <;> simp [spans, Extraction.warn]
  | none =>
    have hwarned : ∀ warning, ¬ maxOutputChars ≤ (state.warn warning).chars := fun _ => hroom
    simp only [if_neg (hwarned _)]
    split <;> simp_all [spans, Extraction.warn]

theorem take_snoc {α : Type} {n : Nat} {l : List α} {a : α} : (l ++ [a]).take n =
    if (l.take n).length < n then l.take n ++ [a] else l.take n := by
  rw [List.length_take]
  split
  · rw [List.take_of_length_le (by simp; omega), List.take_of_length_le (by omega)]
  · rw [List.take_append_of_le_length (by omega)]

theorem spans_emitText {closed : List TextRun} (h : Holds baseOffset state opened)
    (hspans : spans state = (closed.take maxLines).map (TextRun.span baseOffset)) :
    spans state.emitText =
      ((closed ++ opened.toList).take maxLines).map (TextRun.span baseOffset) ∧
    state.emitText.buffer = [] := by
  cases opened with
  | none =>
    rw [emitText_none h, Option.toList_none, List.append_nil]
    exact ⟨hspans, h⟩
  | some run =>
    obtain ⟨hne, hroom, hoffset, hlength⟩ := h
    obtain ⟨hemitted, hbuffer⟩ := emitText_run hne hroom
    refine ⟨?_, hbuffer⟩
    have hcount : state.lines.length = (closed.take maxLines).length := by
      simpa [spans] using congrArg List.length hspans
    rw [hemitted, hspans, hcount, hoffset, hlength, Option.toList_some, take_snoc]
    split
    · rw [List.map_append]
      rfl
    · rfl

theorem spans_control {command : Command} (h : state.buffer = []) :
    spans (state.control command) = spans state ∧ (state.control command).buffer = [] := by
  unfold Extraction.control
  rw [emitText_none h]
  dsimp only
  split
  · exact ⟨rfl, h⟩
  · exact ⟨rfl, h⟩

theorem control_emitText {command : Command} (hbuffer : state.emitText.buffer = []) :
    spans (state.control command) = spans state.emitText ∧
      (state.control command).buffer = [] := by
  have hcontrol : state.control command = state.emitText.control command := by
    unfold Extraction.control
    rw [emitText_none hbuffer]
  rw [hcontrol]
  exact spans_control hbuffer

/-- Any command but a byte of text or a tab ends the run. -/
theorem spans_apply {command : Command} (htab : command ≠ .tab)
    (htext : ∀ byte, command ≠ .text byte) (hbuffer : state.emitText.buffer = []) :
    spans (state.apply offset command) = spans state.emitText ∧
      (state.apply offset command).buffer = [] := by
  cases command with
  | lineFeed => exact ⟨rfl, hbuffer⟩
  | carriageReturn => exact ⟨rfl, hbuffer⟩
  | tab => exact absurd rfl htab
  | text byte => exact absurd rfl (htext byte)
  | codepage code =>
    have hcontrol := @spans_control
      { state.emitText with encoding := (codepages code).getD state.emitText.encoding }
      (.codepage code) hbuffer
    exact hcontrol
  | _ => exact control_emitText hbuffer

theorem holds_append {bytes : Bytes} {plain tabs : Nat} (h : Holds baseOffset state opened)
    (hroom : state.chars < maxOutputChars) (hne : bytes ≠ [])
    (hlength : bytes.length = plain + 4 * tabs) :
    Holds baseOffset (state.append (baseOffset + offset) bytes)
      (some (widen opened offset plain tabs)) := by
  cases opened with
  | none =>
    have hempty : state.buffer = [] := h
    refine ⟨by simp [Extraction.append, hne], hroom, ?_, ?_⟩
    · simp [Extraction.append, hempty, widen]
    · simpa [Extraction.append, hempty, widen] using hlength
  | some run =>
    obtain ⟨hbuffer, -, hoffset, hrun⟩ := h
    refine ⟨by simp [Extraction.append, hne], hroom, ?_, ?_⟩
    · simpa [Extraction.append, hbuffer, widen] using hoffset
    · simp only [Extraction.append, List.length_append, hrun, hlength, widen]
      omega

/-- The lines of a scan are its runs. -/
theorem spans_extractFrom {closed : List TextRun} (h : Holds baseOffset state opened)
    (hspans : spans state = (closed.take maxLines).map (TextRun.span baseOffset)) :
    spans (extractFrom baseOffset state scan) =
      ((closed ++ runsFrom opened (reachedFrom baseOffset state scan)).take maxLines).map
        (TextRun.span baseOffset) := by
  induction scan generalizing state opened closed with
  | nil => exact (spans_emitText h hspans).1
  | cons scanned scan ih =>
    rw [extractFrom, reachedFrom]
    split
    · next hroom =>
      rw [runsFrom]
      split
      · next htab =>
        rw [htab]
        exact ih (holds_append h hroom (by simp) rfl) hspans
      · next byte htext =>
        rw [htext]
        exact ih (holds_append h hroom (by simp) rfl) hspans
      · next htab htext =>
        obtain ⟨hemitted, hbuffer⟩ := spans_emitText h hspans
        obtain ⟨happlied, hempty⟩ :=
          @spans_apply (baseOffset + scanned.offset) state _ htab htext hbuffer
        rw [← List.append_assoc]
        exact ih hempty (happlied.trans hemitted)
    · next hfull =>
      have hnone : opened = none := by
        cases opened with
        | none => rfl
        | some run => exact absurd h.2.1 hfull
      rw [hnone] at h ⊢
      rw [emitText_none h]
      show spans state = _
      rw [hspans, runsFrom, Option.toList_none, List.append_nil]

theorem spans_extractLines : (extractLines payload baseOffset encoding).lines.map
    (fun line => (line.offset, line.length)) =
      (printedRuns payload baseOffset encoding).map (TextRun.span baseOffset) :=
  @spans_extractFrom baseOffset { encoding, bufferOffset := baseOffset } none _ [] rfl rfl

/-! ## The runs stand one behind the other -/

/-- A byte of text or a tab. -/
def isText : Command → Bool
  | .tab | .text _ => true
  | _ => false

/-- Commands one behind the other, from an offset on; a text byte and a tab are
one byte long. -/
def Consecutive (stop : Nat) : Nat → List Scanned → Prop
  | offset, [] => offset ≤ stop
  | offset, scanned :: rest => scanned.offset = offset ∧
      (isText scanned.command = true → scanned.size = 1) ∧
      Consecutive stop (offset + scanned.size) rest

theorem isText_readEscape (rest : Bytes) : isText (readEscape rest).1 = false := by
  unfold readEscape
  dsimp only
  split_ifs <;> rfl

theorem isText_readGroup (rest : Bytes) : isText (readGroup rest).1 = false := by
  unfold readGroup
  dsimp only
  split_ifs <;> try rfl
  split <;> rfl

theorem size_text (rest : Bytes) (h : isText (readCommand rest).1 = true) :
    (readCommand rest).2 = 1 := by
  have hescape := isText_readEscape rest
  have hgroup := isText_readGroup rest
  unfold readCommand at h ⊢
  dsimp only at h ⊢
  split_ifs at h ⊢ <;> simp_all [isText]

theorem consecutive_commandsFrom (hle : offset ≤ payload.length)
    (hfuel : payload.length ≤ offset + fuel) :
    Consecutive payload.length offset (commandsFrom fuel offset (payload.drop offset)) := by
  induction fuel generalizing offset with
  | zero => exact hle
  | succ fuel ih =>
    by_cases hend : payload.length ≤ offset
    · rw [commandsFrom_nil hend]
      exact hle
    · rw [commandsFrom_eq (by omega) hfuel]
      have hpos := size_pos (payload.drop offset)
      have hsize : (readCommand (payload.drop offset)).2 ≤ (payload.drop offset).length :=
        size_le (by simpa using hend)
      rw [List.length_drop] at hsize
      refine ⟨rfl, size_text _, ih ?_ ?_⟩ <;> dsimp only <;> omega

theorem Consecutive.le {stop : Nat} (h : Consecutive stop offset scan) : offset ≤ stop := by
  induction scan generalizing offset with
  | nil => exact h
  | cons scanned scan ih =>
    have hrest := ih h.2.2
    omega

theorem consecutive_reachedFrom {stop : Nat} (h : Consecutive stop offset scan) :
    Consecutive stop offset (reachedFrom baseOffset state scan) := by
  induction scan generalizing offset state with
  | nil => exact h
  | cons scanned scan ih =>
    rw [reachedFrom]
    split
    · exact ⟨h.1, h.2.1, ih h.2.2⟩
    · exact h.le

/-- Runs between two offsets, each behind the one before it. -/
structure Spread (start stop : Nat) (runs : List TextRun) : Prop where
  inside : ∀ run ∈ runs, start ≤ run.offset ∧ run.offset < run.stop ∧ run.stop ≤ stop
  apart : runs.Pairwise fun a b => a.stop ≤ b.offset

theorem spread_cons {start stop : Nat} {runs : List TextRun} (hlt : run.offset < run.stop)
    (hle : run.stop ≤ offset) (h : Spread offset stop runs) (hstart : start ≤ run.offset)
    (hstop : offset ≤ stop) : Spread start stop (run :: runs) where
  inside other hin := by
    rcases List.mem_cons.mp hin with rfl | hin
    · exact ⟨hstart, hlt, hle.trans hstop⟩
    · obtain ⟨hlow, hrest⟩ := h.inside other hin
      exact ⟨by omega, hrest⟩
  apart := List.pairwise_cons.mpr ⟨fun other hin => hle.trans (h.inside other hin).1, h.apart⟩

/-- The run that is open ends where the scan goes on. -/
def Open (offset start : Nat) : Option TextRun → Prop
  | none => start ≤ offset
  | some run => start ≤ run.offset ∧ run.offset < run.stop ∧ run.stop = offset

theorem open_widen {start plain tabs : Nat} (h : Open offset start opened)
    (hone : plain + tabs = 1) :
    Open (offset + 1) start (some (widen opened offset plain tabs)) := by
  cases opened with
  | none => exact ⟨h, by simp [widen, TextRun.stop]; omega, by simp [widen, TextRun.stop]; omega⟩
  | some run =>
    obtain ⟨hstart, hlt, hstop⟩ := h
    unfold TextRun.stop at hlt hstop
    refine ⟨hstart, ?_, ?_⟩ <;> simp only [widen, TextRun.stop] <;> omega

theorem spread_runsFrom {start stop : Nat} (hscan : Consecutive stop offset scan)
    (hopen : Open offset start opened) : Spread start stop (runsFrom opened scan) := by
  induction scan generalizing offset start opened with
  | nil =>
    rw [runsFrom]
    cases opened with
    | none => exact ⟨by simp, by simp⟩
    | some run =>
      obtain ⟨hstart, hlt, hstop⟩ := hopen
      exact spread_cons hlt hstop.le ⟨by simp, by simp⟩ hstart hscan.le
  | cons scanned scan ih =>
    obtain ⟨hoffset, hone, hrest⟩ := hscan
    rw [runsFrom]
    split
    · next htab =>
      rw [hone (by rw [htab]; rfl)] at hrest
      rw [hoffset]
      exact ih hrest (open_widen hopen rfl)
    · next byte htext =>
      rw [hone (by rw [htext]; rfl)] at hrest
      rw [hoffset]
      exact ih hrest (open_widen hopen rfl)
    · have hbehind : Spread (offset + scanned.size) stop (runsFrom none scan) :=
        ih hrest (Nat.le_refl _)
      cases opened with
      | none =>
        have hstart : start ≤ offset := hopen
        refine ⟨fun run hin => ?_, hbehind.apart⟩
        obtain ⟨hlow, hrun⟩ := hbehind.inside run hin
        exact ⟨by omega, hrun⟩
      | some run =>
        obtain ⟨hstart, hlt, hstop⟩ := hopen
        exact spread_cons hlt (by omega) hbehind hstart hrest.le

theorem spread_printedRuns :
    Spread 0 payload.length (printedRuns payload baseOffset encoding) := by
  have hcommands : Consecutive payload.length 0 (commands payload) := by
    have h := @consecutive_commandsFrom payload 0 payload.length (Nat.zero_le _) (by omega)
    rwa [List.drop_zero] at h
  have hreached := @consecutive_reachedFrom baseOffset 0
    { encoding, bufferOffset := baseOffset } _ _ hcommands
  have hidle : Open 0 0 none := Nat.le_refl 0
  have hspread := spread_runsFrom hreached hidle
  exact ⟨fun run hin => hspread.inside run (List.mem_of_mem_take hin),
    hspread.apart.sublist (List.take_sublist _ _)⟩

/-! ## The exact condition -/

/-- Where the span of a run ends. -/
def TextRun.spanStop (run : TextRun) : Nat := run.stop + 3 * run.tabs

theorem fits_iff {start length : Nat} {runs : List TextRun} (h : Spread start length runs) :
    Fits length runs ↔ (∀ run ∈ runs, run.spanStop ≤ length) ∧
      runs.Pairwise fun a b => a.spanStop ≤ b.offset := by
  induction runs with
  | nil => simp [Fits]
  | cons run rest ih =>
    have hrest : Spread start length rest :=
      ⟨fun other hin => h.inside other (List.mem_cons_of_mem _ hin), h.apart.of_cons⟩
    have hrun := h.inside run List.mem_cons_self
    cases rest with
    | nil =>
      simp only [Fits, List.mem_singleton, forall_eq, TextRun.spanStop, List.pairwise_singleton,
        and_true]
      omega
    | cons next rest =>
      have hnext := h.inside next (by simp)
      have hgap := (List.pairwise_cons.mp h.apart).1 next List.mem_cons_self
      have hlater := (List.pairwise_cons.mp hrest.apart).1
      rw [Fits, ih hrest, @List.pairwise_cons _ _ run (next :: rest)]
      constructor
      · rintro ⟨hroom, hinside, happart⟩
        have hfirst : run.spanStop ≤ next.offset := by
          unfold TextRun.spanStop
          omega
        refine ⟨?_, ?_, happart⟩
        · intro other hin
          rcases List.mem_cons.mp hin with rfl | hin
          · omega
          · exact hinside other hin
        · intro other hin
          rcases List.mem_cons.mp hin with rfl | hin
          · exact hfirst
          · have hbehind := hlater other hin
            omega
      · rintro ⟨hinside, hfirst, happart⟩
        have hfirst := hfirst next List.mem_cons_self
        unfold TextRun.spanStop at hfirst
        exact ⟨by omega, fun other hin => hinside other (List.mem_cons_of_mem _ hin), happart⟩

/-- The spans of a segment's lines are faithful exactly when behind each run there
is room for what its tabs add to the text. -/
theorem spans_faithful_iff (payload : Bytes) (baseOffset : Nat) (defaultEncoding : Encoding) :
    Faithful payload baseOffset (extractLines payload baseOffset defaultEncoding).lines ↔
      Fits payload.length (printedRuns payload baseOffset defaultEncoding) := by
  have hspans := @spans_extractLines payload baseOffset defaultEncoding
  have hspread := @spread_printedRuns payload baseOffset defaultEncoding
  generalize (extractLines payload baseOffset defaultEncoding).lines = lines at hspans
  generalize printedRuns payload baseOffset defaultEncoding = runs at hspans hspread
  have hinside : (∀ line ∈ lines, baseOffset ≤ line.offset ∧
      line.offset + line.length ≤ baseOffset + payload.length) ↔
      ∀ run ∈ runs, run.spanStop ≤ payload.length := by
    have hforall := congrArg (fun spans : List (Nat × Nat) => ∀ span ∈ spans,
      baseOffset ≤ span.1 ∧ span.1 + span.2 ≤ baseOffset + payload.length) hspans
    simp only [List.forall_mem_map, eq_iff_iff] at hforall
    rw [hforall]
    refine forall₂_congr fun run hin => ?_
    simp only [TextRun.span, TextRun.spanStop, TextRun.stop]
    omega
  have hapart : (lines.Pairwise fun a b =>
      a.offset < b.offset ∧ a.offset + a.length ≤ b.offset) ↔
      runs.Pairwise fun a b => a.spanStop ≤ b.offset := by
    have hpairwise := congrArg (fun spans : List (Nat × Nat) => spans.Pairwise fun a b =>
      a.1 < b.1 ∧ a.1 + a.2 ≤ b.1) hspans
    simp only [List.pairwise_map, eq_iff_iff] at hpairwise
    rw [hpairwise]
    refine List.Pairwise.iff_of_mem fun {a b} ha _ => ?_
    have hlt := (hspread.inside a ha).2.1
    simp only [TextRun.span, TextRun.spanStop, TextRun.stop] at hlt ⊢
    omega
  rw [Faithful, hinside, hapart, fits_iff hspread]

/-- A line behind a tab: the span of the first line covers the second one and
leaves the segment. -/
theorem tabbed_not_faithful : ¬ Faithful [0x09, 0x41, 0x0A, 0x42] 0
    (extractLines [0x09, 0x41, 0x0A, 0x42] 0 .cp437).lines := by
  rintro ⟨hinside, -⟩
  have hlines : (extractLines [0x09, 0x41, 0x0A, 0x42] 0 .cp437).lines.map
      (fun line => (line.offset, line.length)) = [(0, 5), (3, 1)] := by
    decide +kernel
  obtain ⟨line, rest, hcons, hspan, -⟩ := List.map_eq_cons_iff.mp hlines
  have hend := (hinside line (by rw [hcons]; exact List.mem_cons_self)).2
  obtain ⟨hoffset, hlength⟩ := Prod.mk.inj hspan
  rw [hoffset, hlength] at hend
  simp at hend

end RetailPrintGuard.Parser.EscposSpans
