import RetailPrintGuard.Parser.PrintedAmounts
import RetailPrintGuard.Parser.RchFilling

/-! # The amounts of RCH lines

An item prints its unit price, and its total is computed; a text has the
quantity one. -/
namespace RetailPrintGuard.Parser.RchAmounts
open RetailPrintGuard.Common.Amounts
open RetailPrintGuard.Common.PrintedText hiding finish start
open RetailPrintGuard.Library.Checks
open RetailPrintGuard.Library.DecimalFloat RetailPrintGuard.Library.DecimalRounding
open RetailPrintGuard.Library.Regex
open RetailPrintGuard.Parser.Documents RetailPrintGuard.Parser.PrintedAmounts
open RetailPrintGuard.Parser.Rch RetailPrintGuard.Parser.RchDrafts
open RetailPrintGuard.Parser.RchFilling
open RetailPrintGuard.Parser.RchFraming (Frame)

variable {text : Text} {draft draft' : Draft} {frame : Frame}

def DraftConsistent (draft : Draft) : Prop := ∀ line ∈ draft.lines, Consistent line

/-! ## Lines -/

/-- The quantity of an item is a whole number. -/
theorem itemQuantity_exponent {found : Match} (h : fullmatch RchPatterns.itemRe text = some found) :
    (Rch.itemQuantity found).exponent = 0 := by
  unfold Rch.itemQuantity
  cases hgroup : found.group "quantity" with
  | none => rfl
  | some t =>
    have hcaptures := ((fullmatch_sound h).1.group hgroup).1
    have hlang : Lang RchPatterns.signedDigits t := by
      simp [RchPatterns.itemRe, Captures, seqs, opt, many, many1, lit, literal, dot, oneOf, digit,
        Common.PrintedText.start, Common.PrintedText.finish, RchPatterns.signedDigits]
        at hcaptures
      exact hcaptures
    exact decimalOf_whole fun hin => absurd (consumes_of_lang hlang hin) (by decide)

theorem consistent_managementLine (draft : Draft) (frame : Frame) (text : Text) :
    Consistent (managementLine draft frame text) := by
  intro quantity hquantity unit hunit total htotal
  unfold managementLine at hquantity hunit htotal
  dsimp only at hquantity hunit htotal
  obtain rfl : unit = total := Option.some.inj (hunit.symm.trans htotal)
  obtain ⟨found, hfound, rfl⟩ := Option.map_eq_some_iff.mp hunit
  have hone : quantity = ⟨false, 1, 0⟩ := by
    rw [Option.mem_def, Option.ite_none_left_eq_some] at hquantity
    exact (Option.some.inj hquantity.2).symm
  rw [hone]
  have hexponent := printedMoney_finditer (List.mem_of_getLast? hfound)
  exact (equals_roundTo_iff hexponent (Int.le_refl 0)).mpr (keeps_one _)

theorem exponent_quantizeCents {amount cents : Decimal} (h : quantizeCents amount = .ok cents) :
    cents.exponent = -2 := by
  unfold quantizeCents quantize at h
  dsimp only at h
  split at h
  · next hfits =>
    split at hfits
    · rw [← Except.ok.inj h, ← Option.some.inj hfits]
    · cases hfits
  · cases h

/-- The total of an item is the product, to the last digit. -/
theorem equals_lineTotal {unit quantity total : Decimal} (hunit : unit.exponent = -2)
    (hquantity : quantity.exponent = 0) (h : lineTotal unit quantity = .ok total) :
    equals total (roundTo (-2) (exactMul unit quantity)) = true := by
  have hexact : (exactMul unit quantity).exponent = -2 := by simp [exactMul, hunit, hquantity]
  rw [lineTotal_eq hunit hquantity] at h
  split at h
  · rw [← Except.ok.inj h, roundTo_self hexact]
    simp [exactMul, hunit, hquantity, equals_self]
  · cases h

theorem lines_namesOrderAndTable (draft : Draft) (text : Text) :
    (namesOrderAndTable draft text).lines = draft.lines := by
  unfold namesOrderAndTable
  cases fullmatch RchPatterns.orderRe text <;> cases fullmatch RchPatterns.tableRe text <;> rfl

theorem lines_namesDocuments (draft : Draft) (text : Text) :
    (namesDocuments draft text).lines = draft.lines := by
  unfold namesDocuments
  split
  · rfl
  · split
    · dsimp only
      split <;> rfl
    · split <;> rfl

theorem lines_printsTotal (draft : Draft) (text : Text) :
    (printsTotal draft text).lines = draft.lines := by
  unfold printsTotal
  split
  · rfl
  · split <;> rfl

theorem lines_limitLines (draft : Draft) : (limitLines draft).lines = draft.lines := by
  unfold limitLines
  split <;> rfl

theorem consistent_appendManagementLine (h : DraftConsistent draft)
    (happend : appendManagementLine draft frame text = .ok draft') : DraftConsistent draft' := by
  unfold DraftConsistent at *
  unfold appendManagementLine at happend
  split at happend
  · rw [← Except.ok.inj happend, lines_limitLines]
    exact h
  · obtain ⟨line, hline, happend⟩ := bind_eq_ok.mp happend
    have hlines : draft'.lines = draft.lines ++ [line] := by
      dsimp only at happend
      split at happend
      · rw [← pure_eq_ok.mp happend, lines_printsTotal, lines_namesDocuments,
          lines_namesOrderAndTable]
      · obtain ⟨payment, -, happend⟩ := bind_eq_ok.mp happend
        rw [← pure_eq_ok.mp happend]
        dsimp only
        rw [lines_printsTotal, lines_namesDocuments, lines_namesOrderAndTable]
    rw [hlines, validateLine_eq hline]
    exact consistent_append h (consistent_managementLine draft frame text)

theorem consistent_appendCommercialItem {found : Match} (h : DraftConsistent draft)
    (hfound : fullmatch RchPatterns.itemRe frame.text = some found)
    (happend : appendCommercialItem draft frame found = .ok draft') : DraftConsistent draft' := by
  unfold DraftConsistent at *
  unfold appendCommercialItem at happend
  split at happend
  · rw [← Except.ok.inj happend, lines_limitLines]
    exact h
  · obtain ⟨unit, hunit, happend⟩ := bind_eq_ok.mp happend
    obtain ⟨total, htotal, happend⟩ := bind_eq_ok.mp happend
    obtain ⟨line, hline, happend⟩ := bind_eq_ok.mp happend
    rw [← pure_eq_ok.mp happend, validateLine_eq hline]
    refine consistent_append h ?_
    intro quantity' hquantity' unit' hunit' total' htotal'
    rw [← Option.some.inj hquantity', ← Option.some.inj hunit', ← Option.some.inj htotal']
    exact equals_lineTotal (exponent_quantizeCents hunit) (itemQuantity_exponent hfound) htotal

theorem consistent_fillManagement (h : DraftConsistent draft)
    (hfill : fillManagement draft frame = .ok draft') : DraftConsistent draft' := by
  unfold fillManagement at hfill
  split at hfill
  · rwa [← Except.ok.inj hfill]
  · next found _ =>
    have hshown : DraftConsistent (appendVisibleText draft frame (RchDrafts.value found "text")) := h
    exact consistent_appendManagementLine hshown hfill

theorem consistent_fillCommercial {closes : Bool} (h : DraftConsistent draft)
    (hfill : fillCommercial draft frame = .ok (draft', closes)) : DraftConsistent draft' := by
  unfold fillCommercial at hfill
  split at hfill
  · next found hfound =>
    obtain ⟨filled, hfilled, heq⟩ := map_eq_ok.mp hfill
    obtain ⟨rfl, -⟩ := Prod.mk.inj heq
    unfold fillItem at hfilled
    obtain ⟨item, hitem, hfilled⟩ := bind_eq_ok.mp hfilled
    obtain ⟨amount, -, hfilled⟩ := bind_eq_ok.mp hfilled
    rw [← pure_eq_ok.mp hfilled]
    have hkept := consistent_appendCommercialItem h hfound hitem
    exact hkept
  · split at hfill
    · obtain ⟨rfl, -⟩ := Prod.mk.inj (Except.ok.inj hfill)
      unfold DraftConsistent
      rw [lines_namesOrderAndTable]
      exact h
    · split at hfill
      · obtain ⟨filled, hfilled, heq⟩ := map_eq_ok.mp hfill
        obtain ⟨rfl, -⟩ := Prod.mk.inj heq
        unfold fillTotal at hfilled
        obtain ⟨total, -, hfilled⟩ := bind_eq_ok.mp hfilled
        rw [← pure_eq_ok.mp hfilled]
        exact h
      · obtain ⟨rfl, -⟩ := Prod.mk.inj (Except.ok.inj hfill)
        exact h

/-! ### Documents -/

variable {origin : RequestSource} {issues : List String} {pass : RchCounters.CounterPass}
variable {session session' : Session}

/-- A document has lines of its draft only. -/
theorem lines_draftDocument {counter : Option Text} {document : NormalizedDocument}
    {line : DocumentLine} (h : draftDocument origin draft counter = .ok document)
    (hin : line ∈ document.lines) : line ∈ draft.lines := by
  unfold draftDocument at h
  obtain ⟨header, -, h⟩ := bind_eq_ok.mp h
  obtain ⟨identity, -, h⟩ := bind_eq_ok.mp h
  dsimp only at h
  generalize identified draft identity = named at h
  have hlines : ∃ p : DocumentLine → Bool, document.lines = draft.lines.filter p := by
    cases hkind : named.kind with
    | commercial =>
      simp only [hkind] at h
      obtain ⟨payments, -, h⟩ := bind_eq_ok.mp h
      rw [validateDocument_eq h]
      exact ⟨_, rfl⟩
    | management =>
      simp only [hkind] at h
      split at h
      · obtain ⟨payments, -, h⟩ := bind_eq_ok.mp h
        rw [validateDocument_eq h]
        exact ⟨_, rfl⟩
      · obtain ⟨payments, -, h⟩ := bind_eq_ok.mp h
        rw [validateDocument_eq h]
        exact ⟨_, rfl⟩
  obtain ⟨p, hlines⟩ := hlines
  rw [hlines] at hin
  exact (List.mem_filter.mp hin).1

/-- The documents and the draft of a session. -/
structure SessionConsistent (session : Session) : Prop where
  documents : AllConsistent session.documents
  active : ∀ draft ∈ session.active, DraftConsistent draft

theorem consistent_finish {complete : Bool} {warning : Option String}
    (h : SessionConsistent session)
    (hfinish : finish origin issues pass session complete warning = .ok session') :
    SessionConsistent session' := by
  unfold finish at hfinish
  split at hfinish
  · rw [← Except.ok.inj hfinish]
    exact ⟨h.documents, by simp⟩
  · next draft hactive =>
    split at hfinish
    · rw [← Except.ok.inj hfinish]
      exact ⟨h.documents, by simp⟩
    · obtain ⟨document, hdocument, hfinish⟩ := bind_eq_ok.mp hfinish
      rw [← pure_eq_ok.mp hfinish]
      refine ⟨?_, by simp⟩
      intro told hin line hline
      rcases List.mem_append.mp hin with hin | hin
      · exact h.documents told hin line hline
      · rw [List.mem_singleton.mp hin] at hline
        have hown := lines_draftDocument hdocument hline
        exact h.active draft hactive line hown

theorem consistent_opened {opened : Draft} (h : AllConsistent session.documents)
    (hopened : opened.lines = []) :
    SessionConsistent { session with active := some opened } := by
  refine ⟨h, fun draft hin line hline => ?_⟩
  rw [← Option.some.inj hin, hopened] at hline
  cases hline

theorem consistent_active {filled : Draft} (h : AllConsistent session.documents)
    (hfilled : DraftConsistent filled) :
    SessionConsistent { session with active := some filled } := by
  refine ⟨h, fun draft hin => ?_⟩
  rwa [← Option.some.inj hin]

theorem consistent_openManagement (h : SessionConsistent session)
    (hopen : openManagement origin issues pass session frame = .ok session') :
    SessionConsistent session' := by
  unfold openManagement at hopen
  split at hopen
  · next draft hactive =>
    split at hopen
    · have hextended : DraftConsistent (extend draft frame) := h.active draft hactive
      exact consistent_finish (consistent_active h.documents hextended) hopen
    · obtain ⟨closed, hclosed, hopen⟩ := bind_eq_ok.mp hopen
      rw [← pure_eq_ok.mp hopen]
      exact consistent_opened (consistent_finish h hclosed).documents rfl
  · rw [← pure_eq_ok.mp hopen]
    exact consistent_opened h.documents rfl

theorem consistent_openCommercial (h : SessionConsistent session)
    (hopen : openCommercial origin issues pass session frame = .ok session') :
    SessionConsistent session' := by
  unfold openCommercial at hopen
  obtain ⟨closed, hclosed, hopen⟩ := bind_eq_ok.mp hopen
  rw [← pure_eq_ok.mp hopen]
  exact consistent_opened (consistent_finish h hclosed).documents rfl

theorem consistent_sessionStep (h : SessionConsistent session)
    (hstep : sessionStep origin issues pass session frame = .ok session') :
    SessionConsistent session' := by
  unfold sessionStep at hstep
  split at hstep
  · exact consistent_openManagement h hstep
  split at hstep
  · exact consistent_openCommercial h hstep
  split at hstep
  · rwa [← Except.ok.inj hstep]
  · next draft hactive =>
    have hextended : DraftConsistent (extend draft frame) := h.active draft hactive
    split at hstep
    · obtain ⟨filled, hfilled, heq⟩ := map_eq_ok.mp hstep
      rw [← heq]
      exact consistent_active h.documents (consistent_fillManagement hextended hfilled)
    · obtain ⟨⟨filled, closes⟩, hfilled, hstep⟩ := bind_eq_ok.mp hstep
      have hactive := consistent_active h.documents (consistent_fillCommercial hextended hfilled)
      dsimp only at hstep
      split at hstep
      · exact consistent_finish hactive hstep
      · rwa [← pure_eq_ok.mp hstep]

theorem consistent_foldlM {frames : List Frame} (h : SessionConsistent session)
    (hrun : frames.foldlM (sessionStep origin issues pass) session = .ok session') :
    SessionConsistent session' := by
  induction frames generalizing session with
  | nil => rwa [← pure_eq_ok.mp hrun]
  | cons frame frames ih =>
    rw [List.foldlM_cons] at hrun
    obtain ⟨next, hnext, hrun⟩ := bind_eq_ok.mp hrun
    exact ih (consistent_sessionStep h hnext) hrun

theorem consistent_requestDocuments {context : JobContext} {request response : Bytes}
    {documents : List NormalizedDocument}
    (h : requestDocuments context request response = .ok documents) :
    AllConsistent documents := by
  unfold requestDocuments at h
  obtain ⟨pass, -, h⟩ := bind_eq_ok.mp h
  obtain ⟨session, hsession, h⟩ := bind_eq_ok.mp h
  obtain ⟨closed, hclosed, h⟩ := bind_eq_ok.mp h
  rw [← pure_eq_ok.mp h]
  have hstart : SessionConsistent (openSession (requestSource context request response) request) := by
    refine ⟨fun document hin line hline => ?_, by simp [openSession]⟩
    obtain ⟨frame, -, rfl⟩ := List.mem_map.mp hin
    cases hline
  exact (consistent_finish (consistent_foldlM hstart hsession) hclosed).documents

theorem consistent_response (context : JobContext) (response : Bytes) :
    AllConsistent [responseDocument context response (RchFraming.frameStream response)] := by
  intro document hin line hline quantity hquantity
  rw [List.mem_singleton.mp hin] at hline
  obtain ⟨entry, -, rfl⟩ := List.mem_map.mp hline
  cases hquantity

/-- Every line of a request is consistent. -/
theorem consistent_parseRch {context : JobContext} {request response : Bytes}
    {documents : List NormalizedDocument} (h : parseRch context request response = .ok documents) :
    AllConsistent documents := by
  unfold parseRch at h
  obtain ⟨known, hknown, h⟩ := bind_eq_ok.mp h
  have hrequest : AllConsistent
      (if known.isEmpty && !request.isEmpty && !(RchFraming.frameStream request).issues.isEmpty then
        [unknownDocument context request (RchFraming.frameStream request).issues] else known) := by
    split
    · intro document hin line hline
      rw [List.mem_singleton.mp hin] at hline
      cases hline
    · exact consistent_requestDocuments hknown
  dsimp only at h
  generalize (if known.isEmpty && !request.isEmpty &&
    !(RchFraming.frameStream request).issues.isEmpty then
      [unknownDocument context request (RchFraming.frameStream request).issues]
    else known) = told at h hrequest
  split at h
  · rw [← pure_eq_ok.mp h]
    intro document hin
    rcases List.mem_append.mp hin with hin | hin
    · exact hrequest document hin
    · exact consistent_response context response document hin
  · rw [← pure_eq_ok.mp h]
    exact hrequest

end RetailPrintGuard.Parser.RchAmounts
