import RetailPrintGuard.Parser.Rch

/-! # Filling a draft

A command changes what a draft prints, not where it begins; the number of the
draft is never read. -/
namespace RetailPrintGuard.Parser.RchFilling
open RetailPrintGuard.Common.Amounts RetailPrintGuard.Common.Python
open RetailPrintGuard.Common.PrintedText hiding finish
open RetailPrintGuard.Library RetailPrintGuard.Library.Checks RetailPrintGuard.Library.Regex
open RetailPrintGuard.Parser.Documents RetailPrintGuard.Parser.Rch
open RetailPrintGuard.Parser.RchCounters RetailPrintGuard.Parser.RchDrafts
open RetailPrintGuard.Parser.RchPatterns
open RetailPrintGuard.Parser.RchFraming (Frame)

/-- A command that is read as the total of a commercial document. -/
def setsTotal (frame : Frame) : Bool :=
  (fullmatch itemRe frame.text).isNone && (fullmatch commercialTextRe frame.text).isNone &&
    (fullmatch totalRe frame.text).isSome

/-- A command that closes a commercial document behind its total. -/
def endsCommercial (frame : Frame) : Bool :=
  (fullmatch itemRe frame.text).isNone && (fullmatch commercialTextRe frame.text).isNone &&
    (fullmatch totalRe frame.text).isNone && isClose frame

/-- A command inside a document. -/
def fill (draft : Draft) (frame : Frame) : Except Raised Draft :=
  match draft.kind with
  | .management =>
    if isManagementOpen frame then .ok (extend draft frame)
    else fillManagement (extend draft frame) frame
  | .commercial => (fillCommercial (extend draft frame) frame).map Prod.fst

/-- What a draft warns of by what it prints. -/
def ownWarnings (context : JobContext) (draft : Draft) : List String :=
  match printedRchIdentity context draft with
  | .error _ => []
  | .ok identity => draft.warnings ++ identity.warnings ++
      if suffixMismatch (identified draft identity) then ["rch_progressive_suffix_mismatch"] else []

/-- The number of a draft is not read. -/
def renumbered (draft : Draft) : Draft := { draft with ordinal := 1 }

/-! ## What a document tells of its place -/

def metadata (document : NormalizedDocument) (key : String) : Option Json :=
  document.rawMetadata.lookup key

/-- `source_frame_ids` -/
def frameIds (document : NormalizedDocument) : List Nat :=
  match metadata document "source_frame_ids" with
  | some (.arr values) => values.filterMap fun value => match value with
    | .num id => some id.toNat
    | _ => none
  | _ => []

def startOffset (document : NormalizedDocument) : Option Nat :=
  match metadata document "source_start_offset" with
  | some (.num offset) => some offset.toNat
  | _ => none

def endOffset (document : NormalizedDocument) : Option Nat :=
  match metadata document "source_end_offset" with
  | some (.num offset) => some offset.toNat
  | _ => none

/-- Only the documents of a session have an `economic_close`. -/
def isSession (document : NormalizedDocument) : Bool :=
  (metadata document "economic_close").isSome

variable {origin : RequestSource} {frame : Frame} {draft draft' : Draft}

/-! ## Filling keeps the place -/

/-- The fields of a draft that place it in the request. -/
structure SamePlace (draft draft' : Draft) : Prop where
  kind : draft'.kind = draft.kind
  start : draft'.startOffset = draft.startOffset
  frames : draft'.frameIds = draft.frameIds
  stop : draft'.endOffset = draft.endOffset

theorem SamePlace.refl (draft : Draft) : SamePlace draft draft := ⟨rfl, rfl, rfl, rfl⟩

theorem SamePlace.trans {draft'' : Draft} (h : SamePlace draft draft')
    (h' : SamePlace draft' draft'') : SamePlace draft draft'' :=
  ⟨h'.kind.trans h.kind, h'.start.trans h.start, h'.frames.trans h.frames, h'.stop.trans h.stop⟩

theorem samePlace_appendVisibleText (draft : Draft) (frame : Frame) (text : Text) :
    SamePlace draft (appendVisibleText draft frame text) := ⟨rfl, rfl, rfl, rfl⟩

theorem samePlace_namesOrderAndTable (draft : Draft) (text : Text) :
    SamePlace draft (namesOrderAndTable draft text) ∧
      (namesOrderAndTable draft text).total = draft.total := by
  unfold namesOrderAndTable
  cases fullmatch orderRe text <;> cases fullmatch tableRe text <;>
    exact ⟨⟨rfl, rfl, rfl, rfl⟩, rfl⟩

theorem samePlace_namesDocuments (draft : Draft) (text : Text) :
    SamePlace draft (namesDocuments draft text) := by
  unfold namesDocuments
  split
  · exact ⟨rfl, rfl, rfl, rfl⟩
  · split
    · dsimp only
      split <;> exact ⟨rfl, rfl, rfl, rfl⟩
    · split <;> exact ⟨rfl, rfl, rfl, rfl⟩

theorem samePlace_printsTotal (draft : Draft) (text : Text) :
    SamePlace draft (printsTotal draft text) := by
  unfold printsTotal
  split
  · exact SamePlace.refl draft
  · split <;> exact ⟨rfl, rfl, rfl, rfl⟩

theorem samePlace_limitLines (draft : Draft) :
    SamePlace draft (limitLines draft) ∧ (limitLines draft).total = draft.total := by
  unfold limitLines
  split <;> exact ⟨⟨rfl, rfl, rfl, rfl⟩, rfl⟩

theorem samePlace_appendManagementLine {text : Text}
    (h : appendManagementLine draft frame text = .ok draft') : SamePlace draft draft' := by
  unfold appendManagementLine at h
  split at h
  · obtain rfl := Except.ok.inj h
    exact (samePlace_limitLines draft).1
  · obtain ⟨line, -, h⟩ := bind_eq_ok.mp h
    have hline : SamePlace draft { draft with lines := draft.lines ++ [line] } :=
      ⟨rfl, rfl, rfl, rfl⟩
    have hfilled := ((hline.trans (samePlace_namesOrderAndTable _ text).1).trans
      (samePlace_namesDocuments _ text)).trans (samePlace_printsTotal _ text)
    dsimp only at h
    split at h
    · obtain rfl := pure_eq_ok.mp h
      exact hfilled
    · obtain ⟨payment, -, h⟩ := bind_eq_ok.mp h
      obtain rfl := pure_eq_ok.mp h
      exact hfilled.trans ⟨rfl, rfl, rfl, rfl⟩

theorem samePlace_fillManagement (h : fillManagement draft frame = .ok draft') :
    SamePlace draft draft' := by
  unfold fillManagement at h
  split at h
  · obtain rfl := Except.ok.inj h
    exact SamePlace.refl draft
  · exact (samePlace_appendVisibleText draft frame _).trans (samePlace_appendManagementLine h)

theorem samePlace_appendCommercialItem {found : Match}
    (h : appendCommercialItem draft frame found = .ok draft') :
    SamePlace draft draft' ∧ draft'.total = draft.total := by
  unfold appendCommercialItem at h
  split at h
  · obtain rfl := Except.ok.inj h
    exact samePlace_limitLines draft
  · obtain ⟨unit, -, h⟩ := bind_eq_ok.mp h
    obtain ⟨total, -, h⟩ := bind_eq_ok.mp h
    obtain ⟨line, -, h⟩ := bind_eq_ok.mp h
    obtain rfl := pure_eq_ok.mp h
    exact ⟨⟨rfl, rfl, rfl, rfl⟩, rfl⟩

/-- What a command does to a commercial draft: it may set the total, or close
the draft behind it. -/
theorem fillCommercial_spec {closes : Bool}
    (h : fillCommercial draft frame = .ok (draft', closes)) : SamePlace draft draft' ∧
      draft'.total.isSome = (draft.total.isSome || setsTotal frame) ∧
      closes = (endsCommercial frame && draft.total.isSome) := by
  unfold fillCommercial at h
  unfold setsTotal endsCommercial
  cases hitem : fullmatch itemRe frame.text with
  | some found =>
    rw [hitem] at h
    dsimp only at h
    obtain ⟨filled, hfilled, heq⟩ := map_eq_ok.mp h
    obtain ⟨rfl, rfl⟩ := Prod.mk.inj heq
    unfold fillItem at hfilled
    obtain ⟨item, hitemDraft, hfilled⟩ := bind_eq_ok.mp hfilled
    obtain ⟨amount, -, hfilled⟩ := bind_eq_ok.mp hfilled
    obtain rfl := pure_eq_ok.mp hfilled
    obtain ⟨hplace, htotal⟩ := samePlace_appendCommercialItem hitemDraft
    refine ⟨hplace.trans ⟨rfl, rfl, rfl, rfl⟩, ?_, by simp⟩
    show item.total.isSome = _
    rw [htotal]
    simp
  | none =>
    rw [hitem] at h
    dsimp only at h
    cases htext : fullmatch commercialTextRe frame.text with
    | some found =>
      rw [htext] at h
      obtain ⟨rfl, rfl⟩ := Prod.mk.inj (Except.ok.inj h)
      obtain ⟨hplace, htotal⟩ :=
        samePlace_namesOrderAndTable (appendVisibleText draft frame (value found "text"))
          (value found "text")
      refine ⟨(samePlace_appendVisibleText draft frame _).trans hplace, ?_, by simp⟩
      rw [htotal]
      simp [appendVisibleText]
    | none =>
      rw [htext] at h
      dsimp only at h
      cases htotal : fullmatch totalRe frame.text with
      | some found =>
        rw [htotal] at h
        dsimp only at h
        obtain ⟨filled, hfilled, heq⟩ := map_eq_ok.mp h
        obtain ⟨rfl, rfl⟩ := Prod.mk.inj heq
        unfold fillTotal at hfilled
        obtain ⟨total, -, hfilled⟩ := bind_eq_ok.mp hfilled
        obtain rfl := pure_eq_ok.mp hfilled
        exact ⟨⟨rfl, rfl, rfl, rfl⟩, by simp [appendVisibleText], by simp⟩
      | none =>
        rw [htotal] at h
        obtain ⟨rfl, rfl⟩ := Prod.mk.inj (Except.ok.inj h)
        exact ⟨SamePlace.refl draft, by simp, by simp⟩

/-! ### The number of a draft is not read -/

theorem namesOrderAndTable_renumbered (draft : Draft) (text : Text) :
    namesOrderAndTable (renumbered draft) text = renumbered (namesOrderAndTable draft text) := by
  unfold namesOrderAndTable
  cases fullmatch orderRe text <;> cases fullmatch tableRe text <;> rfl

theorem namesDocuments_renumbered (draft : Draft) (text : Text) :
    namesDocuments (renumbered draft) text = renumbered (namesDocuments draft text) := by
  have hcode : (renumbered draft).externalDocumentCode = draft.externalDocumentCode := rfl
  have hreference :
    (renumbered draft).commercialReferenceCode = draft.commercialReferenceCode := rfl
  unfold namesDocuments
  rw [hcode, hreference]
  cases search commercialReferenceCodeRe text with
  | some found => rfl
  | none =>
    cases search managementDocumentCodeRe text with
    | none => cases search documentCodeRe text <;> rfl
    | some found =>
      dsimp only
      generalize ((draft.externalDocumentCode.any fun code =>
        code != documentCode (value found "value")) && draft.commercialReferenceCode.isNone) = moved
      cases moved <;> rfl

theorem printsTotal_renumbered (draft : Draft) (text : Text) :
    printsTotal (renumbered draft) text = renumbered (printsTotal draft text) := by
  unfold printsTotal
  cases matchStart printedTotalRe text with
  | none => rfl
  | some found =>
    dsimp only
    cases printedAmounts (value found "tail") <;> rfl

theorem limitLines_renumbered (draft : Draft) :
    limitLines (renumbered draft) = renumbered (limitLines draft) := by
  have hwarnings : (renumbered draft).warnings = draft.warnings := rfl
  unfold limitLines
  rw [hwarnings]
  cases draft.warnings.contains "line_limit_exceeded" <;> rfl

theorem appendManagementLine_renumbered (draft : Draft) (text : Text) :
    appendManagementLine (renumbered draft) frame text =
      (appendManagementLine draft frame text).map renumbered := by
  have hlength : (renumbered draft).lines.length = draft.lines.length := rfl
  have hline : managementLine (renumbered draft) frame text = managementLine draft frame text := rfl
  unfold appendManagementLine
  rw [hlength, hline, limitLines_renumbered]
  split
  · rfl
  · cases validateLine (managementLine draft frame text) with
    | error raised => rfl
    | ok line =>
      have hadded :
        ({ renumbered draft with lines := (renumbered draft).lines ++ [line] } : Draft) =
          renumbered { draft with lines := draft.lines ++ [line] } := rfl
      simp only [ok_bind]
      rw [hadded, namesOrderAndTable_renumbered, namesDocuments_renumbered, printsTotal_renumbered]
      cases printedPayment text with
      | none => rfl
      | some payment =>
        dsimp only
        cases validatePayment payment <;> rfl

theorem appendCommercialItem_renumbered (draft : Draft) (found : Match) :
    appendCommercialItem (renumbered draft) frame found =
      (appendCommercialItem draft frame found).map renumbered := by
  have hlength : (renumbered draft).lines.length = draft.lines.length := rfl
  unfold appendCommercialItem
  rw [hlength, limitLines_renumbered]
  split
  · rfl
  · cases cents (value found "amount") with
    | error raised => rfl
    | ok unit =>
      simp only [ok_bind]
      cases lineTotal unit (itemQuantity found) with
      | error raised => rfl
      | ok total =>
        simp only [ok_bind]
        generalize validateLine _ = checked
        cases checked <;> rfl

theorem fillManagement_renumbered (draft : Draft) :
    fillManagement (renumbered draft) frame = (fillManagement draft frame).map renumbered := by
  unfold fillManagement
  cases fullmatch managementTextRe frame.text with
  | none => rfl
  | some found => exact appendManagementLine_renumbered (appendVisibleText draft frame _) _

theorem fillCommercial_renumbered (draft : Draft) :
    fillCommercial (renumbered draft) frame =
      (fillCommercial draft frame).map fun (filled, closes) => (renumbered filled, closes) := by
  unfold fillCommercial
  cases fullmatch itemRe frame.text with
  | some found =>
    dsimp only
    unfold fillItem
    rw [appendCommercialItem_renumbered]
    cases appendCommercialItem draft frame found with
    | error raised => rfl
    | ok filled =>
      simp only [Except.map, ok_bind]
      cases cents (value found "amount") <;> rfl
  | none =>
    cases fullmatch commercialTextRe frame.text with
    | some found =>
      dsimp only
      have happended : ∀ text, appendVisibleText (renumbered draft) frame text =
        renumbered (appendVisibleText draft frame text) := fun _ => rfl
      rw [happended, namesOrderAndTable_renumbered]
      rfl
    | none =>
      cases fullmatch totalRe frame.text with
      | none => rfl
      | some found =>
        dsimp only
        unfold fillTotal
        cases cents (value found "amount") <;> rfl

theorem fill_renumbered (draft : Draft) :
    fill (renumbered draft) frame = (fill draft frame).map renumbered := by
  have hextended : extend (renumbered draft) frame = renumbered (extend draft frame) := rfl
  have hkind : (renumbered draft).kind = draft.kind := rfl
  unfold fill
  rw [hextended, hkind, fillManagement_renumbered, fillCommercial_renumbered]
  cases draft.kind with
  | management =>
    dsimp only
    split <;> rfl
  | commercial => cases fillCommercial (extend draft frame) frame <;> rfl

theorem identified_codes (draft : Draft) (identity : PrintedRchIdentity) :
    (identified draft identity).externalDocumentCode =
      (identity.ownDocumentCode.map Prod.fst).or draft.externalDocumentCode ∧
    (identified draft identity).externalDocumentCodeSuffix = draft.externalDocumentCodeSuffix := by
  unfold identified
  cases identity.ownDocumentCode <;> cases identity.commercialReference
  · exact ⟨rfl, rfl⟩
  · dsimp only
    split <;> exact ⟨rfl, rfl⟩
  · exact ⟨rfl, rfl⟩
  · dsimp only
    split <;> exact ⟨rfl, rfl⟩

theorem suffixMismatch_identified {draft draft' : Draft} (identity : PrintedRchIdentity)
    (hcode : draft'.externalDocumentCode = draft.externalDocumentCode)
    (hsuffix : draft'.externalDocumentCodeSuffix = draft.externalDocumentCodeSuffix) :
    suffixMismatch (identified draft' identity) = suffixMismatch (identified draft identity) := by
  unfold suffixMismatch
  rw [(identified_codes draft' identity).1, (identified_codes draft' identity).2,
    (identified_codes draft identity).1, (identified_codes draft identity).2, hcode, hsuffix]

theorem ownWarnings_renumbered (context : JobContext) (draft : Draft) :
    ownWarnings context (renumbered draft) = ownWarnings context draft := by
  have hidentity : printedRchIdentity context (renumbered draft) =
    printedRchIdentity context draft := rfl
  unfold ownWarnings
  rw [hidentity]
  cases printedRchIdentity context draft with
  | error raised => rfl
  | ok identity =>
    dsimp only
    rw [@suffixMismatch_identified draft (renumbered draft) identity rfl rfl]
    rfl

/-! ## A draft becomes a document -/

theorem samePlace_identified (draft : Draft) (identity : PrintedRchIdentity) :
    SamePlace draft (identified draft identity) ∧
      (identified draft identity).complete = draft.complete ∧
      (identified draft identity).warnings = draft.warnings := by
  unfold identified
  cases identity.ownDocumentCode with
  | none =>
    cases identity.commercialReference with
    | none => exact ⟨SamePlace.refl draft, rfl, rfl⟩
    | some reference =>
      dsimp only
      split <;> exact ⟨⟨rfl, rfl, rfl, rfl⟩, rfl, rfl⟩
  | some own =>
    cases identity.commercialReference with
    | none => exact ⟨⟨rfl, rfl, rfl, rfl⟩, rfl, rfl⟩
    | some reference =>
      dsimp only
      split <;> exact ⟨⟨rfl, rfl, rfl, rfl⟩, rfl, rfl⟩

theorem samePlace_withLastAmount (draft : Draft) (text : Text) :
    SamePlace draft (withLastAmount draft text) ∧
      (withLastAmount draft text).complete = draft.complete ∧
      (withLastAmount draft text).warnings = draft.warnings ∧
      suffixMismatch (withLastAmount draft text) = suffixMismatch draft := by
  unfold withLastAmount
  split <;> exact ⟨⟨rfl, rfl, rfl, rfl⟩, rfl, rfl, rfl⟩

theorem mem_distinct {values : List String} {value : String} :
    value ∈ distinct values ↔ value ∈ values := by
  have hfold : ∀ seen : List String,
      value ∈ values.foldl (fun seen value =>
        if seen.contains value then seen else seen ++ [value]) seen ↔
        value ∈ seen ∨ value ∈ values := by
    induction values with
    | nil => simp
    | cons head values ih =>
      intro seen
      rw [List.foldl_cons, ih, List.mem_cons]
      split
      · next hseen =>
        have hhead : head ∈ seen := by simpa using hseen
        constructor
        · exact fun hor => hor.imp id Or.inr
        · rintro (hin | rfl | hin)
          · exact Or.inl hin
          · exact Or.inl hhead
          · exact Or.inr hin
      · rw [List.mem_append, List.mem_singleton, or_assoc]
  simpa [distinct] using hfold []

theorem distinct_eq_nil {values : List String} : distinct values = [] ↔ values = [] := by
  simp only [List.eq_nil_iff_forall_not_mem, mem_distinct]

theorem validateDocument_eq {document document' : NormalizedDocument}
    (h : validateDocument document = .ok document') : document' = document := by
  unfold validateDocument at h
  obtain ⟨_, -, h⟩ := bind_eq_ok.mp h
  obtain ⟨_, -, h⟩ := bind_eq_ok.mp h
  exact (pure_eq_ok.mp h).symm

theorem metadata_draft {document : NormalizedDocument} {draft : Draft} {text : Text}
    {identity : PrintedRchIdentity} {header : PrintedReceiptHeader} {counter : Option Text}
    (h : document.rawMetadata = draftMetadata draft text identity header counter) :
    frameIds document = draft.frameIds ∧ startOffset document = some draft.startOffset ∧
      endOffset document = some draft.endOffset ∧ isSession document = true := by
  have hids : metadata document "source_frame_ids" =
      some (.arr ((draft.frameIds.flatMap fun id : Nat => [(id : Int)]).map .num)) := by
    rw [metadata, h]
    rfl
  have hstart : metadata document "source_start_offset" = some (.num draft.startOffset) := by
    rw [metadata, h]
    rfl
  have hstop : metadata document "source_end_offset" = some (.num draft.endOffset) := by
    rw [metadata, h]
    rfl
  refine ⟨?_, ?_, ?_, ?_⟩
  · rw [frameIds, hids, ← List.map_eq_flatMap]
    simp [Function.comp_def]
  · rw [startOffset, hstart]
    simp
  · rw [endOffset, hstop]
    simp
  · rw [isSession, metadata, h]
    rfl

/-- What a finished document takes from its draft. -/
structure Finishes (origin : RequestSource) (draft : Draft) (document : NormalizedDocument) :
    Prop where
  id : document.id = documentId origin.context
    (Kind.name draft.kind ++ ":" ++ toString draft.startOffset ++ ":" ++ origin.sourceHash)
  frames : frameIds document = draft.frameIds
  start : startOffset document = some draft.startOffset
  stop : endOffset document = some draft.endOffset
  complete : document.complete = draft.complete
  session : isSession document = true
  warnings : ∃ identity, printedRchIdentity origin.context draft = .ok identity ∧
    document.warnings = distinct (draft.warnings ++ identity.warnings ++
      if suffixMismatch (identified draft identity) then ["rch_progressive_suffix_mismatch"]
      else [])

theorem draftDocument_spec {counter : Option Text} {document : NormalizedDocument}
    (h : draftDocument origin draft counter = .ok document) : Finishes origin draft document := by
  unfold draftDocument at h
  obtain ⟨header, -, h⟩ := bind_eq_ok.mp h
  obtain ⟨identity, hidentity, h⟩ := bind_eq_ok.mp h
  obtain ⟨hplace, hcomplete, hwarnings⟩ := samePlace_identified draft identity
  cases hkind : (identified draft identity).kind with
  | commercial =>
    simp only [hkind] at h
    obtain ⟨payments, -, h⟩ := bind_eq_ok.mp h
    have hdocument := validateDocument_eq h
    obtain ⟨hids, hstart, hstop, hsession⟩ :=
      metadata_draft (congrArg (·.rawMetadata) hdocument)
    subst hdocument
    refine ⟨?_, hids.trans hplace.frames, ?_, ?_, hcomplete, hsession, identity,
      hidentity, ?_⟩
    · rw [← hplace.kind, ← hplace.start, hkind]
    · rw [hstart, hplace.start]
    · rw [hstop, hplace.stop]
    · rw [← hwarnings]
  | management =>
    simp only [hkind] at h
    obtain ⟨hplace', hcomplete', hwarnings', hmismatch⟩ :=
      samePlace_withLastAmount (identified draft identity) (strip (join ['\n'] draft.texts))
    have hall := hplace.trans hplace'
    simp only [hall.kind.trans (hplace.kind.symm.trans hkind)] at h
    obtain ⟨payments, -, h⟩ := bind_eq_ok.mp h
    have hdocument := validateDocument_eq h
    obtain ⟨hids, hstart, hstop, hsession⟩ :=
      metadata_draft (congrArg (·.rawMetadata) hdocument)
    subst hdocument
    refine ⟨?_, hids.trans hall.frames, ?_, ?_, hcomplete'.trans hcomplete, hsession,
      identity, hidentity, ?_⟩
    · rw [← hall.kind, ← hall.start, hall.kind.trans (hplace.kind.symm.trans hkind)]
    · rw [hstart, hall.start]
    · rw [hstop, hall.stop]
    · rw [← hwarnings, ← hwarnings', ← hmismatch]

end RetailPrintGuard.Parser.RchFilling
