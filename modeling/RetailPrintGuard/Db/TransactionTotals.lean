import RetailPrintGuard.Db.TransactionView
import RetailPrintGuard.System

/-! # The totals of the view and of the engine

The engine reads a net total where a document has no gross total, the view reads
gross totals alone. The baselines are chosen from the prebills in two orders,
and from stand-ins by two rules. -/
namespace RetailPrintGuard.Db.TransactionTotals
open RetailPrintGuard.Common.Python RetailPrintGuard.Common.Domain
open RetailPrintGuard.Library RetailPrintGuard.Library.ListOrder
open RetailPrintGuard.Correlation.Lines RetailPrintGuard.Correlation.Scoring
open RetailPrintGuard.Correlation.Engine RetailPrintGuard.Correlation.CandidateBatch
open RetailPrintGuard.Correlation.Loading RetailPrintGuard.Db.Models
open RetailPrintGuard.Db.LineDiff RetailPrintGuard.Db.TransactionView RetailPrintGuard.System

/-! ## Baselines -/

/-- `(document_time, captured_at, id)`, the order of the view. The engine's is
`NormalizedDocument.Precedes`: document time, then id. -/
def Observed (a b : NormalizedDocument) : Prop :=
  a.documentTime.micros < b.documentTime.micros ∨
    (a.documentTime.micros = b.documentTime.micros ∧
      (a.capturedAt.micros < b.capturedAt.micros ∨
        (a.capturedAt.micros = b.capturedAt.micros ∧ a.id ≤ b.id)))

instance : DecidableRel Observed := fun _ _ => inferInstanceAs (Decidable (_ ∨ _))

instance : Std.Total Observed where
  total a b := by unfold Observed; grind

instance : IsTrans NormalizedDocument Observed where
  trans a b c := by unfold Observed; grind

section
variable {α : Type} (order : α → α → Prop) (candidate : α → Prop) (a : α)

/-- A candidate that no other comes before. -/
def First : Prop := candidate a ∧ ∀ other, candidate other → order a other

/-- A candidate that no other comes after. -/
def Last : Prop := candidate a ∧ ∀ other, candidate other → order other a

end

section
variable (documents : List NormalizedDocument)

/-- A prebill that no fiscal document precedes. -/
def Prebill (document : NormalizedDocument) : Prop :=
  document ∈ documents ∧ document.type = .preBill ∧
    ∀ fiscal ∈ validFiscalDocuments documents,
      document.documentTime.micros ≤ fiscal.documentTime.micros

/-- A management document not after the first fiscal one and tied to it. -/
def StandsIn (order tied : NormalizedDocument → NormalizedDocument → Prop)
    (document : NormalizedDocument) : Prop :=
  document ∈ documents ∧ document.type = .managementDocument ∧ isPrebillSource document = true ∧
    ∃ fiscal, First order (· ∈ validFiscalDocuments documents) fiscal ∧
      document.documentTime.micros ≤ fiscal.documentTime.micros ∧ tied fiscal document

/-- The tie of the engine: the same table and a common line key. -/
def EngineTied (rt : Runtime) (fiscal document : NormalizedDocument) : Prop :=
  (rt.normalise fiscal.tableCode).isSome ∧
    rt.normalise document.tableCode = rt.normalise fiscal.tableCode ∧
    sharedItems rt document.lines fiscal.lines ≠ []

/-- The tie of the view: the persisted criteria, the same table and a common
line key, in the spelling of the read model. -/
def ViewTied (rt : Runtime) (matchedCriteria : List String)
    (fiscal document : NormalizedDocument) : Prop :=
  saleSequenceMatched matchedCriteria = true ∧ (upperTable rt fiscal.tableCode).isSome ∧
    upperTable rt document.tableCode = upperTable rt fiscal.tableCode ∧
    ∃ key ∈ fiscal.lines.map (storedLineKey rt), key ∈ document.lines.map (storedLineKey rt)

/-- The baseline of the engine: the last prebill, or else the last stand-in. -/
def EngineBaseline (rt : Runtime) (document : NormalizedDocument) : Prop :=
  Last NormalizedDocument.Precedes (Prebill documents) document ∨
    ((∀ other, ¬Prebill documents other) ∧
      Last NormalizedDocument.Precedes
        (StandsIn documents NormalizedDocument.Precedes (EngineTied rt)) document)

/-- The baseline of the view, by its own order and its own ties. -/
def ViewBaseline (rt : Runtime) (matchedCriteria : List String) (document : NormalizedDocument) :
    Prop :=
  Last Observed (Prebill documents) document ∨
    ((∀ other, ¬Prebill documents other) ∧
      Last Observed (StandsIn documents Observed (ViewTied rt matchedCriteria)) document)

/-- A fiscal document, an economic closure or a cancellation is among the
documents. -/
def ReportsFinal : Prop :=
  validFiscalDocuments documents ≠ [] ∨
    (∃ document ∈ documents, document.type = .managementDocument ∧
      document.total.isSome = true ∧ document.economicClose = true) ∨
    ∃ document ∈ documents, document.type = .cancellation

/-- The management documents that close the sale. -/
def managementCloses : List NormalizedDocument :=
  documents.filter fun document =>
    document.type == .managementDocument && document.economicClose && document.total.isSome

/-- A document as the view reads it. -/
def grossOnly (document : NormalizedDocument) : NormalizedDocument := { document with netTotal := none }

def shown : List NormalizedDocument := documents.map grossOnly

/-- The document has a total for the engine alone. -/
def netOnly (document : NormalizedDocument) : Bool :=
  document.grossTotal.isNone && document.netTotal.isSome

def netSum : Money := (documents.map fun document => document.netTotal.getD 0).sum

/-- The net totals of the complete commercial documents without gross total. -/
def netFiscal : Money :=
  netSum (documents.filter fun document =>
    fiscalTypes document.type && document.complete && netOnly document)

/-- The net totals of the closing management documents without gross total. -/
def netCloses : Money :=
  netSum (documents.filter fun document =>
    document.type == .managementDocument && document.economicClose && netOnly document)

/-- The documents that only the engine has a total of add nothing: they are
counted next to fiscal documents of both, in place of the closures, or next to
the closures. -/
def SameFinal : Prop :=
  if validFiscalDocuments (shown documents) ≠ [] then netFiscal documents = 0
  else if validFiscalDocuments documents ≠ [] then
    netFiscal documents = totalOf (managementCloses (shown documents))
  else netCloses documents = 0

/-- A baseline of the one side carries a total exactly where one of the other
carries the same. -/
def SameBaseline (rt : Runtime) (matchedCriteria : List String) : Prop :=
  ∀ total,
    (∃ document, EngineBaseline documents rt document ∧ document.total = some total) ↔
      ∃ document, ViewBaseline (shown documents) rt matchedCriteria document ∧
        document.total = some total

end

/-! ## Rows behind both -/

variable {rt : Runtime} {db : Database} {correlation : DocumentCorrelation}

def memberRows (db : Database) (correlation : DocumentCorrelation) : List QueryRow :=
  (documentQuery db).filter fun row => correlation.memberIds.contains row.document.id

def ofRow (row : QueryRow) : ViewDocument := ⟨row.document, some row.version⟩

/-- Every member is loaded. -/
def Loaded (db : Database) (correlation : DocumentCorrelation) : Prop :=
  ∀ id ∈ correlation.memberIds, ∃ row ∈ documentQuery db, row.document.id = id

instance : Decidable (Loaded db correlation) :=
  inferInstanceAs (Decidable (∀ id ∈ _, ∃ row ∈ _, _))

variable (correlation) in
theorem map_filter_loaded (documents : List Document)
    (h : ∀ document ∈ documents, correlation.memberIds.contains document.id = true →
      ∃ row, queryRow db document = some row) :
    (documents.filter fun document => correlation.memberIds.contains document.id).map
        (fun document => (⟨document, latestVersion db document.id⟩ : ViewDocument)) =
      ((documents.filterMap (queryRow db)).filter fun row =>
        correlation.memberIds.contains row.document.id).map ofRow := by
  induction documents with
  | nil => rfl
  | cons document documents ih =>
    have htail := ih fun other hother => h other (List.mem_cons_of_mem _ hother)
    cases hq : queryRow db document with
    | none =>
      have hout : correlation.memberIds.contains document.id = false := by
        rw [Bool.eq_false_iff]
        intro hin
        obtain ⟨row, hrow⟩ := h document List.mem_cons_self hin
        rw [hq] at hrow
        cases hrow
      rw [List.filterMap_cons_none hq, List.filter_cons_of_neg (by rw [hout]; decide), htail]
    | some row =>
      obtain ⟨rfl, hversion, -⟩ := queryRow_eq_some.mp hq
      rw [List.filterMap_cons_some hq]
      by_cases hin : correlation.memberIds.contains row.document.id = true
      · simp only [List.filter_cons, if_pos hin, List.map_cons, htail, hversion, ofRow]
      · simp only [List.filter_cons, if_neg hin, htail]

/-- The view reads the rows the engine loads. -/
theorem viewDocuments_perm (h : Loaded db correlation) :
    (viewDocuments db correlation).Perm ((memberRows db correlation).map ofRow) := by
  have hrows := map_filter_loaded correlation db.documents.rows (by
    intro document hmem hin
    obtain ⟨row, hrow, hid⟩ := h document.id (List.contains_iff_mem.mp hin)
    obtain ⟨hstored, hq⟩ := mem_documentQuery.mp hrow
    rw [Table.eq_of_key hmem hstored hid.symm]
    exact ⟨row, hq⟩)
  rw [memberRows, documentQuery, ← hrows]
  exact (List.perm_insertionSort _ _).map _

theorem members_perm : (members db correlation).Perm ((memberRows db correlation).map
    QueryRow.value) := by
  have hsort := (List.perm_insertionSort LoadedBefore
    ((memberRows db correlation).map QueryRow.load)).map LoadedDocument.value
  rw [List.map_map] at hsort
  exact hsort

theorem mem_viewDocuments (h : Loaded db correlation) {item : ViewDocument} :
    item ∈ viewDocuments db correlation ↔
      ∃ row ∈ memberRows db correlation, ofRow row = item := by
  rw [(viewDocuments_perm h).mem_iff, List.mem_map]

theorem mem_members {document : NormalizedDocument} :
    document ∈ members db correlation ↔
      ∃ row ∈ memberRows db correlation, row.value = document := by
  rw [members_perm.mem_iff, List.mem_map]

/-- A row is determined by the id of its document. -/
theorem eq_of_memberRows {a b : QueryRow} (ha : a ∈ memberRows db correlation)
    (hb : b ∈ memberRows db correlation) (h : a.document.id = b.document.id) : a = b :=
  eq_of_documentId (List.mem_of_mem_filter ha) (List.mem_of_mem_filter hb) h

/-- The total the view reads. -/
theorem total_shown (row : QueryRow) : (grossOnly row.value).total = (ofRow row).grossTotal :=
  Option.or_none

theorem mem_shown {document : NormalizedDocument} :
    document ∈ shown (members db correlation) ↔
      ∃ row ∈ memberRows db correlation, grossOnly row.value = document := by
  rw [shown, List.mem_map]
  constructor
  · intro h
    obtain ⟨value, hvalue, rfl⟩ := h
    obtain ⟨row, hrow, rfl⟩ := mem_members.mp hvalue
    exact ⟨row, hrow, rfl⟩
  · intro h
    obtain ⟨row, hrow, rfl⟩ := h
    exact ⟨row.value, mem_members.mpr ⟨row, hrow, rfl⟩, rfl⟩

theorem nodup_members_ids : ((members db correlation).map NormalizedDocument.id).Nodup := by
  rw [members, List.map_map]
  exact nodup_loadLatestDocuments correlation.memberIds

theorem nodup_shown_ids : ((shown (members db correlation)).map NormalizedDocument.id).Nodup := by
  rw [shown, List.map_map]
  exact nodup_members_ids

/-! ## Closures -/

variable (db correlation) in
/-- A selection of the view documents is the same selection of the members. -/
theorem selection_perm (h : Loaded db correlation) {p : ViewDocument → Bool}
    {q : NormalizedDocument → Bool} (hpq : ∀ row : QueryRow, p (ofRow row) = q (grossOnly row.value)) :
    (((viewDocuments db correlation).filter p).map ViewDocument.grossTotal).Perm
      (((shown (members db correlation)).filter q).map NormalizedDocument.total) := by
  have hview := (((viewDocuments_perm h).filter p).map ViewDocument.grossTotal)
  have hmembers : ((shown (members db correlation)).filter q).Perm
      (((memberRows db correlation).map fun row => grossOnly row.value).filter q) := by
    have hperm := (@members_perm db correlation).map grossOnly
    rw [List.map_map] at hperm
    exact hperm.filter q
  refine hview.trans (List.Perm.trans (List.Perm.of_eq ?_) (hmembers.map _).symm)
  rw [List.filter_map, List.filter_map, List.map_map, List.map_map,
    show p ∘ ofRow = q ∘ fun row => grossOnly row.value from funext hpq]
  exact List.map_congr_left fun row _ => (total_shown row).symm

theorem fiscalTypes_eq (type : DocumentType) : fiscalTypes type = (type == .commercialDocument) := by
  cases type <;> rfl

theorem fiscalDocuments_perm (h : Loaded db correlation) :
    ((fiscalDocuments (viewDocuments db correlation)).map ViewDocument.grossTotal).Perm
      ((validFiscalDocuments (shown (members db correlation))).map NormalizedDocument.total) := by
  refine ((List.perm_insertionSort _ _).map _).trans (selection_perm db correlation h fun row => ?_)
  rw [total_shown, fiscalTypes_eq]
  rfl

theorem closures_perm (h : Loaded db correlation) :
    ((closures (viewDocuments db correlation)).map ViewDocument.grossTotal).Perm
      ((managementCloses (shown (members db correlation))).map NormalizedDocument.total) := by
  refine selection_perm db correlation h fun row => ?_
  rw [total_shown, Bool.and_right_comm]
  rfl

theorem grossSum_eq {items : List ViewDocument} {documents : List NormalizedDocument}
    (h : (items.map ViewDocument.grossTotal).Perm (documents.map NormalizedDocument.total)) :
    grossSum items = totalOf documents := by
  have hsum := (h.map fun total => total.getD 0).sum_eq
  rwa [List.map_map, List.map_map] at hsum

theorem isEmpty_of_perm {items : List ViewDocument} {documents : List NormalizedDocument}
    (h : (items.map ViewDocument.grossTotal).Perm (documents.map NormalizedDocument.total)) :
    items = [] ↔ documents = [] := by
  have hlength := h.length_eq
  rw [List.length_map, List.length_map] at hlength
  rw [← List.length_eq_zero_iff, hlength, List.length_eq_zero_iff]

theorem prebillOf_type {documents : List NormalizedDocument} {prebill : NormalizedDocument}
    (hvalid : validFiscalDocuments documents = []) (h : prebillOf rt documents = some prebill) :
    prebill ∈ documents ∧ prebill.type = .preBill := by
  have hlast : (documents.filter fun document => document.type == .preBill).getLast? =
      some prebill := by
    simp only [prebillOf, hvalid, List.head?_nil, Option.all_none, Bool.and_true] at h
    cases hlast : (documents.filter fun document => document.type == .preBill).getLast? with
    | none => rw [hlast] at h; cases h
    | some last => rw [hlast] at h; exact h
  obtain ⟨hmem, htype⟩ := List.mem_filter.mp (List.mem_of_getLast? hlast)
  exact ⟨hmem, beq_iff_eq.mp htype⟩

/-- Without fiscal documents every economic closure counts: the baseline is a
prebill then. -/
theorem economicClosures_eq {documents : List NormalizedDocument}
    (hnodup : (documents.map NormalizedDocument.id).Nodup)
    (hvalid : validFiscalDocuments documents = []) :
    economicClosures documents (prebillOf rt documents) = managementCloses documents := by
  simp only [economicClosures, hvalid, List.isEmpty_nil, Bool.not_true, Bool.false_eq_true, if_false]
  refine List.filter_congr fun document hdocument => ?_
  cases htype : document.type == .managementDocument with
  | false => rfl
  | true =>
    have hne : ((prebillOf rt documents).map NormalizedDocument.id != some document.id) = true := by
      rw [bne_iff_ne]
      intro hid
      obtain ⟨prebill, hprebill, heq⟩ := Option.map_eq_some_iff.mp hid
      obtain ⟨hmem, hpre⟩ := prebillOf_type hvalid hprebill
      rw [List.inj_on_of_nodup_map hnodup hmem hdocument heq, beq_iff_eq.mp htype] at hpre
      cases hpre
    rw [hne, Bool.true_and, Bool.true_and, Bool.true_and, Bool.and_comm]

/-- A selection adds up to what the view adds up and the net totals beside it. -/
theorem totalOf_selection (p : NormalizedDocument → Bool)
    (hp : ∀ document, p (grossOnly document) = p document) (documents : List NormalizedDocument) :
    totalOf (documents.filter fun document => p document && document.total.isSome) =
      totalOf ((shown documents).filter fun document => p document && document.total.isSome) +
        netSum (documents.filter fun document => p document && netOnly document) := by
  induction documents with
  | nil => rfl
  | cons document documents ih =>
    rw [shown, List.map_cons, ← shown]
    simp only [List.filter_cons, hp]
    cases p document with
    | false => exact ih
    | true =>
      have htotal : document.total = document.grossTotal.or document.netTotal := rfl
      have hshown : (grossOnly document).total = document.grossTotal := Option.or_none
      cases hgross : document.grossTotal with
      | some gross =>
        simp only [htotal, hshown, hgross, netOnly, Option.some_or, Option.isSome_some, Bool.and_self,
          if_true, Option.isNone_some, Bool.false_and, Bool.and_false, Bool.false_eq_true, if_false]
        simp only [totalOf, List.map_cons, List.sum_cons, htotal, hshown, hgross, Option.some_or,
          Option.getD_some]
        rw [Int.add_assoc]
        exact congrArg (gross + ·) ih
      | none =>
        cases hnet : document.netTotal with
        | none =>
          simp only [htotal, hshown, hgross, hnet, netOnly, Option.or_none, Option.isSome_none,
            Bool.and_false, Bool.false_eq_true, if_false]
          exact ih
        | some net =>
          simp only [htotal, hshown, hgross, hnet, netOnly, Option.none_or, Option.isSome_some,
            Option.isSome_none, Bool.and_false, Bool.false_eq_true, if_false, Option.isNone_none,
            Bool.and_self, if_true]
          simp only [totalOf, netSum, List.map_cons, List.sum_cons, htotal, hgross, hnet,
            Option.none_or, Option.getD_some] at ih ⊢
          rw [ih]
          exact Int.add_left_comm _ _ _

theorem totalOf_fiscal (documents : List NormalizedDocument) :
    totalOf (validFiscalDocuments documents) =
      totalOf (validFiscalDocuments (shown documents)) + netFiscal documents :=
  totalOf_selection (fun document => fiscalTypes document.type && document.complete)
    (fun _ => rfl) documents

theorem totalOf_closes (documents : List NormalizedDocument) :
    totalOf (managementCloses documents) =
      totalOf (managementCloses (shown documents)) + netCloses documents :=
  totalOf_selection (fun document => document.type == .managementDocument && document.economicClose)
    (fun _ => rfl) documents

/-- A fiscal document of the view is one of the engine. -/
theorem validFiscal_of_shown {documents : List NormalizedDocument}
    (h : validFiscalDocuments (shown documents) ≠ []) : validFiscalDocuments documents ≠ [] := by
  obtain ⟨document, hdocument⟩ := List.exists_mem_of_ne_nil _ h
  obtain ⟨hmem, hvalid⟩ := List.mem_filter.mp hdocument
  obtain ⟨value, hvalue, rfl⟩ := List.mem_map.mp hmem
  refine List.ne_nil_of_mem (List.mem_filter.mpr ⟨hvalue, ?_⟩)
  have htotal : value.total.isSome = true := by
    have hgross : (grossOnly value).total.isSome = true := (Bool.and_eq_true_iff.mp hvalid).2
    rw [show (grossOnly value).total = value.grossTotal from Option.or_none] at hgross
    rw [show value.total = value.grossTotal.or value.netTotal from rfl, Option.isSome_or, hgross,
      Bool.true_or]
  rw [htotal, Bool.and_true]
  exact (Bool.and_eq_true_iff.mp hvalid).1

/-- What the engine adds up. -/
theorem totalOf_economicClosures {documents : List NormalizedDocument}
    (hnodup : (documents.map NormalizedDocument.id).Nodup) :
    totalOf (economicClosures documents (prebillOf rt documents)) =
      if validFiscalDocuments documents ≠ [] then totalOf (validFiscalDocuments documents)
      else totalOf (managementCloses documents) := by
  by_cases hvalid : validFiscalDocuments documents = []
  · rw [if_neg (not_not.mpr hvalid), economicClosures_eq hnodup hvalid]
  · rw [if_pos hvalid, economicClosures, if_pos (by simpa using hvalid)]

/-- What the view adds up, where it reports a final total. -/
theorem observedFinalTotal_eq (h : Loaded db correlation) {final : Money}
    (hfinal : observedFinalTotal (viewDocuments db correlation) = some final) :
    final = if validFiscalDocuments (shown (members db correlation)) ≠ [] then
        totalOf (validFiscalDocuments (shown (members db correlation)))
      else totalOf (managementCloses (shown (members db correlation))) := by
  have hfiscal := isEmpty_of_perm (fiscalDocuments_perm h)
  have hcloses := isEmpty_of_perm (closures_perm h)
  rw [observedFinalTotal] at hfinal
  by_cases hempty : fiscalDocuments (viewDocuments db correlation) = []
  · rw [if_neg (by simp [hempty])] at hfinal
    rw [if_neg (not_not.mpr (hfiscal.mp hempty)), ← grossSum_eq (closures_perm h)]
    by_cases hnone : closures (viewDocuments db correlation) = []
    · rw [if_neg (by simp [hnone])] at hfinal
      split at hfinal
      · rw [hnone, ← Option.some.inj hfinal]
        rfl
      · cases hfinal
    · rw [if_pos (by simpa using hnone)] at hfinal
      exact (Option.some.inj hfinal).symm
  · rw [if_pos (by simpa using hempty)] at hfinal
    rw [if_pos (mt hfiscal.mpr hempty), ← grossSum_eq (fiscalDocuments_perm h)]
    exact (Option.some.inj hfinal).symm

/-- Both final totals agree exactly where the net totals alone add nothing. -/
theorem observedFinalTotal_spec (h : Loaded db correlation) {documents : List NormalizedDocument}
    (hdocuments : documents.Perm (members db correlation)) {final : Money}
    (hfinal : observedFinalTotal (viewDocuments db correlation) = some final) :
    final = totalOf (economicClosures documents (prebillOf rt documents)) ↔
      SameFinal (members db correlation) := by
  have hnodup : (documents.map NormalizedDocument.id).Nodup :=
    (hdocuments.map NormalizedDocument.id).nodup_iff.mpr nodup_members_ids
  have hvalid : (validFiscalDocuments documents).Perm
      (validFiscalDocuments (members db correlation)) := hdocuments.filter _
  have hcloses : (managementCloses documents).Perm (managementCloses (members db correlation)) :=
    hdocuments.filter _
  have hsum : ∀ {a b : List NormalizedDocument}, a.Perm b → totalOf a = totalOf b :=
    fun hab => (hab.map _).sum_eq
  have hempty : validFiscalDocuments documents ≠ [] ↔
      validFiscalDocuments (members db correlation) ≠ [] := by
    rw [Ne, Ne, ← List.length_eq_zero_iff, hvalid.length_eq, List.length_eq_zero_iff]
  have hfiscal := totalOf_fiscal (members db correlation)
  have hclosing := totalOf_closes (members db correlation)
  rw [observedFinalTotal_eq h hfinal, totalOf_economicClosures hnodup, hsum hvalid, hsum hcloses,
    SameFinal]
  simp only [hempty]
  by_cases hshown : validFiscalDocuments (shown (members db correlation)) = []
  · have hzero : totalOf (validFiscalDocuments (shown (members db correlation))) = 0 := by
      rw [hshown]
      rfl
    rw [if_neg (not_not.mpr hshown), if_neg (not_not.mpr hshown)]
    split
    · rw [hfiscal, hzero, Int.zero_add]
      exact eq_comm
    · rw [hclosing]
      exact left_eq_add
  · rw [if_pos hshown, if_pos hshown, if_pos (validFiscal_of_shown hshown), hfiscal]
    exact left_eq_add

theorem observedFinalTotal_ne_none (h : Loaded db correlation) :
    observedFinalTotal (viewDocuments db correlation) ≠ none ↔
      ReportsFinal (shown (members db correlation)) := by
  have hfiscal := isEmpty_of_perm (fiscalDocuments_perm h)
  have hcloses := isEmpty_of_perm (closures_perm h)
  have hclose : managementCloses (shown (members db correlation)) = [] ↔
      ¬∃ document ∈ shown (members db correlation), document.type = .managementDocument ∧
        document.total.isSome = true ∧ document.economicClose = true := by
    rw [managementCloses, List.filter_eq_nil_iff, not_exists]
    simp only [Bool.and_eq_true, beq_iff_eq]
    exact forall_congr' fun document =>
      ⟨fun hno hd => hno hd.1 ⟨⟨hd.2.1, hd.2.2.2⟩, hd.2.2.1⟩,
        fun hno hd hp => hno ⟨hd, hp.1.1, hp.2, hp.1.2⟩⟩
  have hcancellations : cancellations (viewDocuments db correlation) = [] ↔
      ¬∃ document ∈ shown (members db correlation), document.type = .cancellation := by
    rw [cancellations, List.filter_eq_nil_iff, not_exists]
    constructor
    · intro hnone document hdocument
      obtain ⟨row, hrow, rfl⟩ := mem_shown.mp hdocument.1
      exact hnone (ofRow row) ((mem_viewDocuments h).mpr ⟨row, hrow, rfl⟩)
        (beq_iff_eq.mpr hdocument.2)
    · intro hnone item hitem htype
      obtain ⟨row, hrow, rfl⟩ := (mem_viewDocuments h).mp hitem
      exact hnone (grossOnly row.value) ⟨mem_shown.mpr ⟨row, hrow, rfl⟩, beq_iff_eq.mp htype⟩
  rw [ReportsFinal, Ne, Ne, ← hfiscal, ← not_iff_comm.mp (hcloses.trans hclose).symm,
    ← not_iff_comm.mp hcancellations.symm]
  unfold observedFinalTotal
  cases fiscalDocuments (viewDocuments db correlation) <;>
    cases closures (viewDocuments db correlation) <;>
    cases cancellations (viewDocuments db correlation) <;> simp

/-! ## Selections from sorted lists -/

section
variable {α : Type} {order : α → α → Prop} [Std.Total order] {candidate : α → Prop} {l : List α}

theorem getLast?_eq_some_iff_last (hsorted : l.Pairwise order) (hl : Separates order l)
    (hmem : ∀ a, a ∈ l ↔ candidate a) {a : α} :
    l.getLast? = some a ↔ Last order candidate a := by
  rw [getLast?_of_pairwise hsorted hl, Last, hmem]
  simp only [hmem]

theorem head?_eq_some_iff_first (hsorted : l.Pairwise order) (hl : Separates order l)
    (hmem : ∀ a, a ∈ l ↔ candidate a) {a : α} :
    l.head? = some a ↔ First order candidate a := by
  rw [head?_of_pairwise hsorted hl, First, hmem]
  simp only [hmem]

theorem getLast?_eq_none_iff_forall (hmem : ∀ a, a ∈ l ↔ candidate a) :
    l.getLast? = none ↔ ∀ a, ¬candidate a := by
  rw [List.getLast?_eq_none_iff, List.eq_nil_iff_forall_not_mem]
  simp only [hmem]

/-- Being not after the first of a list is being not after all of it. -/
theorem head?_all_iff (hsorted : l.Pairwise order) (hl : Separates order l)
    (hmem : ∀ a, a ∈ l ↔ candidate a) {time : α → Int} (htime : ∀ a b, order a b → time a ≤ time b)
    {t : Int} : (l.head?.all fun a => t ≤ time a) = true ↔ ∀ a, candidate a → t ≤ time a := by
  cases hhead : l.head? with
  | none =>
    have hnil := List.head?_eq_none_iff.mp hhead
    constructor
    · intro _ a ha
      rw [← hmem, hnil] at ha
      exact absurd ha List.not_mem_nil
    · intro _
      rfl
  | some first =>
    obtain ⟨hfirst, hmin⟩ := (head?_eq_some_iff_first hsorted hl hmem).mp hhead
    rw [Option.all_some, decide_eq_true_iff]
    exact ⟨fun h a ha => h.trans (htime first a (hmin a ha)), fun h => h first hfirst⟩

end

/-! ## The baseline of the engine -/

theorem separates_precedes_members {documents : List NormalizedDocument}
    (h : ∀ document ∈ documents, document ∈ members db correlation) :
    Separates NormalizedDocument.Precedes documents := fun a ha b hb hab hba =>
  List.inj_on_of_nodup_map nodup_members_ids (h a ha) (h b hb) (hab.id_eq hba)

theorem precedes_time {a b : NormalizedDocument} (h : a.Precedes b) :
    a.documentTime.micros ≤ b.documentTime.micros := by
  unfold NormalizedDocument.Precedes at h
  omega

/-- The documents in the order of the engine. -/
def ordered (db : Database) (correlation : DocumentCorrelation) : List NormalizedDocument :=
  (members db correlation).insertionSort NormalizedDocument.Precedes

theorem mem_validFiscal_ordered {document : NormalizedDocument} :
    document ∈ validFiscalDocuments (ordered db correlation) ↔
      document ∈ validFiscalDocuments (members db correlation) :=
  ((List.perm_insertionSort _ _).filter _).mem_iff

variable (db correlation) in
/-- What a filter of the ordered documents is read by. -/
theorem filter_ordered (p : NormalizedDocument → Bool) :
    ((ordered db correlation).filter p).Pairwise NormalizedDocument.Precedes ∧
      Separates NormalizedDocument.Precedes ((ordered db correlation).filter p) ∧
      ∀ document, document ∈ (ordered db correlation).filter p ↔
        document ∈ members db correlation ∧ p document = true := by
  refine ⟨(List.pairwise_insertionSort _ _).filter p,
    @separates_precedes_members db correlation _ fun document hdocument => ?_, fun document => ?_⟩
  · exact mem_sorted.mp (List.mem_of_mem_filter hdocument)
  · rw [List.mem_filter, ordered, mem_sorted]

theorem firstFiscal_spec {fiscal : NormalizedDocument} :
    (validFiscalDocuments (ordered db correlation)).head? = some fiscal ↔
      First NormalizedDocument.Precedes (· ∈ validFiscalDocuments (members db correlation))
        fiscal := by
  obtain ⟨hsorted, hsep, -⟩ := filter_ordered db correlation
    fun document => fiscalTypes document.type && document.complete && document.total.isSome
  exact head?_eq_some_iff_first hsorted hsep fun document => mem_validFiscal_ordered

theorem mem_prebillCandidates {document : NormalizedDocument} :
    (document ∈ (ordered db correlation).filter fun document =>
      document.type == .preBill &&
        (validFiscalDocuments (ordered db correlation)).head?.all fun fiscal =>
          document.documentTime.micros ≤ fiscal.documentTime.micros) ↔
      Prebill (members db correlation) document := by
  obtain ⟨hsorted, hsep, -⟩ := filter_ordered db correlation
    fun document => fiscalTypes document.type && document.complete && document.total.isSome
  rw [(filter_ordered db correlation _).2.2, Bool.and_eq_true, beq_iff_eq]
  have hall := @head?_all_iff _ NormalizedDocument.Precedes _
    (· ∈ validFiscalDocuments (members db correlation)) _ hsorted hsep
    (fun _ => mem_validFiscal_ordered) (fun fiscal => fiscal.documentTime.micros)
    (fun _ _ => precedes_time) document.documentTime.micros
  exact and_congr_right fun _ => and_congr_right fun _ => hall

theorem mem_managementCandidates {fiscal document : NormalizedDocument}
    (hfiscal : First NormalizedDocument.Precedes (· ∈ validFiscalDocuments (members db correlation))
      fiscal) :
    (document ∈ (ordered db correlation).filter fun document =>
      isPrebillSource document && document.type == .managementDocument &&
        decide (document.documentTime.micros ≤ fiscal.documentTime.micros) &&
        (rt.normalise fiscal.tableCode).isSome &&
        rt.normalise document.tableCode == rt.normalise fiscal.tableCode &&
        !(sharedItems rt document.lines fiscal.lines).isEmpty) ↔
      StandsIn (members db correlation) NormalizedDocument.Precedes (EngineTied rt) document := by
  rw [(filter_ordered db correlation _).2.2]
  simp only [Bool.and_eq_true, beq_iff_eq, decide_eq_true_iff, Bool.not_eq_true',
    List.isEmpty_eq_false_iff]
  constructor
  · intro h
    obtain ⟨hmem, ⟨⟨⟨⟨hsource, htype⟩, htime⟩, htable⟩, hsame⟩, hshared⟩ := h
    exact ⟨hmem, htype, hsource, fiscal, hfiscal, htime, htable, hsame, hshared⟩
  · intro h
    obtain ⟨hmem, htype, hsource, first, hfirst, htime, htable, hsame, hshared⟩ := h
    have heq : first = fiscal := by
      have hab := hfirst.2 fiscal hfiscal.1
      have hba := hfiscal.2 first hfirst.1
      exact List.inj_on_of_nodup_map nodup_members_ids (List.mem_of_mem_filter hfirst.1)
        (List.mem_of_mem_filter hfiscal.1) (hab.id_eq hba)
    subst heq
    exact ⟨hmem, ⟨⟨⟨⟨hsource, htype⟩, htime⟩, htable⟩, hsame⟩, hshared⟩

theorem prebillOf_spec {document : NormalizedDocument} :
    prebillOf rt (ordered db correlation) = some document ↔
      EngineBaseline (members db correlation) rt document := by
  have hprebill := fun d => @mem_prebillCandidates db correlation d
  obtain ⟨hsorted, hsep, -⟩ := filter_ordered db correlation fun document =>
    document.type == .preBill &&
      (validFiscalDocuments (ordered db correlation)).head?.all fun fiscal =>
        document.documentTime.micros ≤ fiscal.documentTime.micros
  have hlast := fun d => @getLast?_eq_some_iff_last _ _ _ _ _ hsorted hsep hprebill d
  have hnone := @getLast?_eq_none_iff_forall _ _ _ hprebill
  rw [EngineBaseline, prebillOf, ← hlast, ← hnone]
  dsimp only
  cases hcandidate : ((ordered db correlation).filter fun document =>
      document.type == .preBill &&
        (validFiscalDocuments (ordered db correlation)).head?.all fun fiscal =>
          document.documentTime.micros ≤ fiscal.documentTime.micros).getLast? with
  | some prebill => simp
  | none =>
    cases hfiscal : (validFiscalDocuments (ordered db correlation)).head? with
    | none =>
      constructor
      · intro h
        cases h
      · intro h
        obtain h | ⟨-, ⟨-, -, -, fiscal, hfirst, -⟩, -⟩ := h
        · cases h
        · rw [firstFiscal_spec.mpr hfirst] at hfiscal
          cases hfiscal
    | some fiscal =>
      have hstandIn := fun d => @mem_managementCandidates rt db correlation fiscal d
        (firstFiscal_spec.mp hfiscal)
      obtain ⟨hsorted', hsep', -⟩ := filter_ordered db correlation fun document =>
        isPrebillSource document && document.type == .managementDocument &&
          decide (document.documentTime.micros ≤ fiscal.documentTime.micros) &&
          (rt.normalise fiscal.tableCode).isSome &&
          rt.normalise document.tableCode == rt.normalise fiscal.tableCode &&
          !(sharedItems rt document.lines fiscal.lines).isEmpty
      have hlast' := fun d => @getLast?_eq_some_iff_last _ _ _ _ _ hsorted' hsep' hstandIn d
      simp only [← hlast', reduceCtorEq, true_and, false_or]

/-! ## The baseline of the view -/

theorem before_time {a b : ViewDocument} (h : a.Before b) :
    a.documentTime.micros ≤ b.documentTime.micros := by
  unfold ViewDocument.Before at h
  omega

theorem Observed.id_eq {a b : NormalizedDocument} (h : Observed a b) (k : Observed b a) :
    a.id = b.id := by
  unfold Observed at h k
  grind

/-- The view document of a member with a property. -/
def AsMember (db : Database) (correlation : DocumentCorrelation)
    (property : NormalizedDocument → Prop) (item : ViewDocument) : Prop :=
  ∃ row ∈ memberRows db correlation, ofRow row = item ∧ property (grossOnly row.value)

/-- The orders of view documents and of their members are the same. -/
theorem last_asMember {property : NormalizedDocument → Prop}
    (hmembers : ∀ document, property document → document ∈ shown (members db correlation))
    {item : ViewDocument} :
    Last ViewDocument.Before (AsMember db correlation property) item ↔
      AsMember db correlation (Last Observed property) item := by
  constructor
  · intro h
    obtain ⟨⟨row, hrow, rfl, hproperty⟩, hlast⟩ := h
    refine ⟨row, hrow, rfl, hproperty, fun other hother => ?_⟩
    obtain ⟨row', hrow', rfl⟩ := mem_shown.mp (hmembers other hother)
    exact hlast (ofRow row') ⟨row', hrow', rfl, hother⟩
  · intro h
    obtain ⟨row, hrow, rfl, hproperty, hlast⟩ := h
    refine ⟨⟨row, hrow, rfl, hproperty⟩, fun other hother => ?_⟩
    obtain ⟨row', -, rfl, hproperty'⟩ := hother
    exact hlast (grossOnly row'.value) hproperty'

theorem first_asMember {property : NormalizedDocument → Prop}
    (hmembers : ∀ document, property document → document ∈ shown (members db correlation))
    {item : ViewDocument} (h : First ViewDocument.Before (AsMember db correlation property) item) :
    AsMember db correlation (First Observed property) item := by
  obtain ⟨⟨row, hrow, rfl, hproperty⟩, hfirst⟩ := h
  refine ⟨row, hrow, rfl, hproperty, fun other hother => ?_⟩
  obtain ⟨row', hrow', rfl⟩ := mem_shown.mp (hmembers other hother)
  exact hfirst (ofRow row') ⟨row', hrow', rfl, hother⟩

/-- What a sorted filter of the view documents is read by. -/
theorem sorted_filter (h : Loaded db correlation) (p : ViewDocument → Bool)
    (property : NormalizedDocument → Prop)
    (hp : ∀ row ∈ memberRows db correlation, p (ofRow row) = true ↔ property (grossOnly row.value)) :
    let l := ((viewDocuments db correlation).filter p).insertionSort ViewDocument.Before
    l.Pairwise ViewDocument.Before ∧ Separates ViewDocument.Before l ∧
      ∀ item, item ∈ l ↔ AsMember db correlation property item := by
  have hmem : ∀ item, item ∈ ((viewDocuments db correlation).filter p).insertionSort
      ViewDocument.Before ↔ AsMember db correlation property item := by
    intro item
    rw [mem_sorted, List.mem_filter, mem_viewDocuments h]
    constructor
    · intro hitem
      obtain ⟨⟨row, hrow, rfl⟩, hpitem⟩ := hitem
      exact ⟨row, hrow, rfl, (hp row hrow).mp hpitem⟩
    · intro hitem
      obtain ⟨row, hrow, rfl, hproperty⟩ := hitem
      exact ⟨⟨row, hrow, rfl⟩, (hp row hrow).mpr hproperty⟩
  refine ⟨List.pairwise_insertionSort _ _, fun a ha b hb hab hba => ?_, hmem⟩
  obtain ⟨row, hrow, rfl, -⟩ := (hmem a).mp ha
  obtain ⟨row', hrow', rfl, -⟩ := (hmem b).mp hb
  rw [eq_of_memberRows hrow hrow' (hab.id_eq hba)]

theorem fiscalDocuments_spec (h : Loaded db correlation) :
    (fiscalDocuments (viewDocuments db correlation)).Pairwise ViewDocument.Before ∧
      Separates ViewDocument.Before (fiscalDocuments (viewDocuments db correlation)) ∧
      ∀ item, item ∈ fiscalDocuments (viewDocuments db correlation) ↔
        AsMember db correlation (· ∈ validFiscalDocuments (shown (members db correlation))) item := by
  refine sorted_filter h _ _ fun row hrow => ?_
  rw [validFiscalDocuments, List.mem_filter, total_shown, fiscalTypes_eq]
  exact (and_iff_right (mem_shown.mpr ⟨row, hrow, rfl⟩)).symm

theorem prebillCandidates_spec (h : Loaded db correlation) :
    (prebillCandidates (viewDocuments db correlation)).Pairwise ViewDocument.Before ∧
      Separates ViewDocument.Before (prebillCandidates (viewDocuments db correlation)) ∧
      ∀ item, item ∈ prebillCandidates (viewDocuments db correlation) ↔
        AsMember db correlation (Prebill (shown (members db correlation))) item := by
  obtain ⟨hsorted, hsep, hmem⟩ := fiscalDocuments_spec h
  refine sorted_filter h _ _ fun row hrow => ?_
  have hall := @head?_all_iff _ ViewDocument.Before _ _ _ hsorted hsep hmem
    (fun fiscal => fiscal.documentTime.micros) (fun _ _ => before_time)
    (ofRow row).documentTime.micros
  simp only [Bool.and_eq_true, beq_iff_eq, Prebill]
  constructor
  · intro hrow'
    obtain ⟨⟨htype, -⟩, hhead⟩ := hrow'
    refine ⟨mem_shown.mpr ⟨row, hrow, rfl⟩, htype, fun fiscal hfiscal => ?_⟩
    obtain ⟨other, hother, rfl⟩ := mem_shown.mp (List.mem_of_mem_filter hfiscal)
    exact hall.mp hhead (ofRow other) ⟨other, hother, rfl, hfiscal⟩
  · intro hprebill
    refine ⟨⟨hprebill.2.1, rfl⟩, hall.mpr fun fiscal hfiscal => ?_⟩
    obtain ⟨other, -, rfl, hvalid⟩ := hfiscal
    exact hprebill.2.2 (grossOnly other.value) hvalid

theorem managementCandidates_spec (h : Loaded db correlation)
    {matchedCriteria : List String} (hmatched : saleSequenceMatched matchedCriteria = true)
    {fiscal : QueryRow}
    (hfirst : First Observed (· ∈ validFiscalDocuments (shown (members db correlation))) (grossOnly fiscal.value)) :
    let l := managementCandidates rt (viewDocuments db correlation) (ofRow fiscal)
    l.Pairwise ViewDocument.Before ∧ Separates ViewDocument.Before l ∧
      ∀ item, item ∈ l ↔ AsMember db correlation
        (StandsIn (shown (members db correlation)) Observed (ViewTied rt matchedCriteria)) item := by
  refine sorted_filter h _ _ fun row hrow => ?_
  have hsource : isPrebillSource (grossOnly row.value) = true ↔ (grossOnly row.value).type = .preBill ∨
      ((grossOnly row.value).type = .managementDocument ∧ (ofRow row).complete = true ∧
        (ofRow row).grossTotal.isSome = true ∧ (grossOnly row.value).commercialReferenceCode.isNone = true ∧
        (ofRow row).economicClose = false) := by
    rw [isPrebillSource, total_shown]
    simp only [Bool.or_eq_true, Bool.and_eq_true, beq_iff_eq, Bool.not_eq_true', and_assoc]
    exact Iff.rfl
  simp only [Bool.and_eq_true, beq_iff_eq, Bool.not_eq_true', List.any_eq_true,
    List.contains_iff_mem, notAfter, decide_eq_true_iff]
  constructor
  · intro hrow'
    obtain ⟨⟨⟨⟨⟨⟨⟨⟨⟨-, htype⟩, hcomplete⟩, htotal⟩, hreference⟩, hclose⟩, htime⟩, htable⟩, hsame⟩,
      hshared⟩ := hrow'
    exact ⟨mem_shown.mpr ⟨row, hrow, rfl⟩, htype,
      hsource.mpr (Or.inr ⟨htype, hcomplete, htotal, hreference, hclose⟩), (grossOnly fiscal.value), hfirst,
      htime, hmatched, htable, hsame, hshared⟩
  · intro hstandIn
    obtain ⟨-, htype, hprebill, first, hfirst', htime, -, htable, hsame, hshared⟩ := hstandIn
    have heq : first = (grossOnly fiscal.value) := by
      have hab := hfirst'.2 (grossOnly fiscal.value) hfirst.1
      have hba := hfirst.2 first hfirst'.1
      exact List.inj_on_of_nodup_map nodup_shown_ids (List.mem_of_mem_filter hfirst'.1)
        (List.mem_of_mem_filter hfirst.1) (Observed.id_eq hab hba)
    subst heq
    obtain hpre | ⟨-, hcomplete, htotal, hreference, hclose⟩ := hsource.mp hprebill
    · rw [htype] at hpre
      cases hpre
    · exact ⟨⟨⟨⟨⟨⟨⟨⟨⟨rfl, htype⟩, hcomplete⟩, htotal⟩, hreference⟩, hclose⟩, htime⟩, htable⟩, hsame⟩,
        hshared⟩

theorem baseline_spec (h : Loaded db correlation)
    {matchedCriteria : List String} {item : ViewDocument} :
    baseline rt matchedCriteria (viewDocuments db correlation) = some item ↔
      AsMember db correlation (ViewBaseline (shown (members db correlation)) rt matchedCriteria)
        item := by
  obtain ⟨hsorted, hsep, hmem⟩ := prebillCandidates_spec h
  obtain ⟨hsorted', hsep', hmem'⟩ := fiscalDocuments_spec h
  have hlast := fun item => (@getLast?_eq_some_iff_last _ _ _ _ _ hsorted hsep hmem item).trans
    (last_asMember fun _ hprebill => hprebill.1)
  have hnone : (prebillCandidates (viewDocuments db correlation)).getLast? = none ↔
      ∀ other, ¬Prebill (shown (members db correlation)) other := by
    rw [@getLast?_eq_none_iff_forall _ _ _ hmem]
    constructor
    · intro hno other hother
      obtain ⟨row, hrow, rfl⟩ := mem_shown.mp hother.1
      exact hno (ofRow row) ⟨row, hrow, rfl, hother⟩
    · intro hno other hother
      obtain ⟨row, -, -, hprebill⟩ := hother
      exact hno (grossOnly row.value) hprebill
  have hsplit : ∀ p q : NormalizedDocument → Prop, AsMember db correlation (fun d => p d ∨ q d) item ↔
      AsMember db correlation p item ∨ AsMember db correlation q item := by
    intro p q
    constructor
    · intro hitem
      obtain ⟨row, hrow, hof, hp | hq⟩ := hitem
      · exact Or.inl ⟨row, hrow, hof, hp⟩
      · exact Or.inr ⟨row, hrow, hof, hq⟩
    · intro hitem
      obtain ⟨row, hrow, hof, hp⟩ | ⟨row, hrow, hof, hq⟩ := hitem
      · exact ⟨row, hrow, hof, Or.inl hp⟩
      · exact ⟨row, hrow, hof, Or.inr hq⟩
  unfold ViewBaseline
  rw [hsplit, ← hlast, ← hnone, baseline]
  cases hcandidate : (prebillCandidates (viewDocuments db correlation)).getLast? with
  | some prebill => simp [AsMember]
  | none =>
    cases hfiscal : (fiscalDocuments (viewDocuments db correlation)).head? with
    | none =>
      constructor
      · intro hitem
        cases hitem
      · intro hitem
        obtain hitem | ⟨row, -, -, -, ⟨-, -, -, first, hfirst, -⟩, -⟩ := hitem
        · cases hitem
        · obtain ⟨row', hrow', rfl⟩ := mem_shown.mp (List.mem_of_mem_filter hfirst.1)
          have hin := (hmem' (ofRow row')).mpr ⟨row', hrow', rfl, hfirst.1⟩
          rw [List.head?_eq_none_iff.mp hfiscal] at hin
          exact absurd hin List.not_mem_nil
    | some fiscal =>
      obtain ⟨row, -, rfl, hfirst⟩ := first_asMember (fun _ => List.mem_of_mem_filter)
        ((@head?_eq_some_iff_first _ _ _ _ _ hsorted' hsep' hmem' fiscal).mp hfiscal)
      show (if saleSequenceMatched matchedCriteria = true then _ else _) = _ ↔ _
      by_cases hmatched : saleSequenceMatched matchedCriteria = true
      · obtain ⟨hsorted'', hsep'', hmem''⟩ :=
          @managementCandidates_spec rt db correlation h matchedCriteria hmatched row hfirst
        rw [if_pos hmatched, @getLast?_eq_some_iff_last _ _ _ _ _ hsorted'' hsep'' hmem'' item,
          last_asMember fun _ hstandIn => hstandIn.1]
        simp only [reduceCtorEq, true_and, false_or]
      · rw [if_neg hmatched]
        constructor
        · intro hitem
          cases hitem
        · intro hitem
          obtain hitem | ⟨-, -, -, -, ⟨-, -, -, -, -, -, hcriteria, -⟩, -⟩ := hitem
          · cases hitem
          · exact absurd hcriteria hmatched

/-! ## When the totals agree -/

/-- The two baselines have one total. -/
theorem baseline_total_iff (h : Loaded db correlation) {matchedCriteria : List String} :
    (baseline rt matchedCriteria (viewDocuments db correlation)).bind ViewDocument.grossTotal =
        (prebillOf rt (ordered db correlation)).bind NormalizedDocument.total ↔
      SameBaseline (members db correlation) rt matchedCriteria := by
  have hview : ∀ total,
      (baseline rt matchedCriteria (viewDocuments db correlation)).bind ViewDocument.grossTotal =
          some total ↔
        ∃ document, ViewBaseline (shown (members db correlation)) rt matchedCriteria document ∧
          document.total = some total := by
    intro total
    rw [Option.bind_eq_some_iff]
    constructor
    · intro hitem
      obtain ⟨item, hitem, htotal⟩ := hitem
      obtain ⟨row, -, rfl, hbaseline⟩ := (baseline_spec h).mp hitem
      exact ⟨grossOnly row.value, hbaseline, (total_shown row).trans htotal⟩
    · intro hdocument
      obtain ⟨document, hbaseline, htotal⟩ := hdocument
      have hmem : document ∈ shown (members db correlation) := by
        obtain hprebill | ⟨-, hstandIn⟩ := hbaseline
        · exact hprebill.1.1
        · exact hstandIn.1.1
      obtain ⟨row, hrow, rfl⟩ := mem_shown.mp hmem
      exact ⟨ofRow row, (baseline_spec h).mpr ⟨row, hrow, rfl, hbaseline⟩,
        (total_shown row).symm.trans htotal⟩
  have hengine : ∀ total,
      (prebillOf rt (ordered db correlation)).bind NormalizedDocument.total = some total ↔
        ∃ document, EngineBaseline (members db correlation) rt document ∧
          document.total = some total := by
    intro total
    rw [Option.bind_eq_some_iff]
    exact exists_congr fun document => and_congr_left fun _ => prebillOf_spec
  rw [Option.ext_iff, SameBaseline]
  exact forall_congr' fun total => (iff_congr (hview total) (hengine total)).trans iff_comm

theorem totals_difference {rt : Runtime} {criteria : List String} {documents : List ViewDocument}
    {final : Money} (hfinal : observedFinalTotal documents = some final) :
    (totals rt criteria documents).difference =
      ((baseline rt criteria documents).bind ViewDocument.grossTotal).map fun total =>
        total - final := by
  simp only [totals, hfinal]
  cases (baseline rt criteria documents).bind ViewDocument.grossTotal <;> rfl

/-- **When the view and the engine agree.** Where a final total is reported, the
net totals alone add nothing and both baselines carry the same total. -/
theorem totals_agree_iff (rt : Runtime) (engine : CorrelationEngine) (scored : List Edge)
    (db : Database) (correlation : DocumentCorrelation) (h : Loaded db correlation) :
    TotalsAgree (transactionView rt db correlation)
        (buildTransaction rt engine scored (members db correlation)) ↔
      (ReportsFinal (shown (members db correlation)) →
        SameFinal (members db correlation) ∧
          SameBaseline (members db correlation) rt correlation.matchedCriteria) := by
  rw [← baseline_total_iff h, ← observedFinalTotal_ne_none h]
  have hfinal := fun final => @observedFinalTotal_spec rt db correlation h
    (ordered db correlation) (List.perm_insertionSort _ _) final
  constructor
  · intro hagree hreports
    obtain ⟨final, hsome⟩ := Option.ne_none_iff_exists'.mp hreports
    obtain ⟨hbaseline, htotal, -⟩ := hagree final hsome
    exact ⟨(hfinal final hsome).mp htotal, hbaseline⟩
  · intro hsame final hsome
    obtain ⟨hsameFinal, hbaseline⟩ :=
      hsame (by rw [show observedFinalTotal _ = _ from hsome]; exact Option.some_ne_none _)
    have htotal := (hfinal final hsome).mpr hsameFinal
    refine ⟨hbaseline, htotal, ?_⟩
    rw [transactionView, totals_difference hsome, hbaseline]
    show _ = ((prebillOf rt (ordered db correlation)).bind NormalizedDocument.total).map _
    rw [htotal]
    rfl

/-! ## Two prebills of one minute -/

/-- A document of order 7 at table T1, printed and captured at two times. -/
def ofOrder (id : UUID) (job : String) (type : DocumentType) (printed captured : Nat)
    (total : Money) : NormalizedDocument :=
  { id
    sourceDeviceId := "rch"
    sourceJobId := job
    type
    orderCode := some "7"
    tableCode := some "T1"
    documentTimestamp := some { micros := seconds printed }
    capturedAt := { micros := seconds captured }
    grossTotal := some total
    netTotal := some total
    lines := [{ sequence := 1, description := some "MARGHERITA" }] }

/-- Two prebills show the same minute, and the one captured last has the
smaller id. -/
def tiedPrebills : List Step :=
  arrival (ofOrder 1 "j1" .preBill 60 100 90000) ++ arrival (ofOrder 2 "j2" .preBill 60 70 80000) ++
    arrival (ofOrder 3 "j3" .commercialDocument 180 200 80000) ++ [.runOnce 10]

def tiedCorrelation : DocumentCorrelation :=
  (run asciiRuntime standardEngine tiedPrebills).correlations.rows.get ⟨0, by decide +kernel⟩

theorem tied_loaded : Loaded (run asciiRuntime {} tiedPrebills) tiedCorrelation := by
  decide +kernel

theorem totals_agree_iff_tied :
    TotalsAgree (transactionView asciiRuntime (run asciiRuntime {} tiedPrebills) tiedCorrelation)
        (buildTransaction asciiRuntime {} []
          (members (run asciiRuntime {} tiedPrebills) tiedCorrelation)) ↔
      (ReportsFinal (shown (members (run asciiRuntime {} tiedPrebills) tiedCorrelation)) →
        SameFinal (members (run asciiRuntime {} tiedPrebills) tiedCorrelation) ∧
          SameBaseline (members (run asciiRuntime {} tiedPrebills) tiedCorrelation) asciiRuntime
            tiedCorrelation.matchedCriteria) :=
  totals_agree_iff asciiRuntime {} [] _ _ tied_loaded

/-- The engine compares with the prebill of the larger id and finds no
difference, the view with the one captured last and shows one. -/
theorem tied_prebills_disagree :
    ∃ transaction ∈ correlate asciiRuntime {}
        (members (run asciiRuntime {} tiedPrebills) tiedCorrelation),
      tiedCorrelation ∈ (run asciiRuntime {} tiedPrebills).correlations.rows ∧
        transaction.transactionId = tiedCorrelation.transactionId ∧
        transaction.ids = tiedCorrelation.memberIds ∧
        ¬TotalsAgree
          (transactionView asciiRuntime (run asciiRuntime {} tiedPrebills) tiedCorrelation)
          transaction := by
  have hmem : ∃ transaction ∈ correlate asciiRuntime {}
      (members (run asciiRuntime {} tiedPrebills) tiedCorrelation),
      transaction.transactionId = tiedCorrelation.transactionId ∧
        transaction.ids = tiedCorrelation.memberIds ∧ transaction.prebillTotal = some 80000 := by
    decide +kernel
  have hview : (transactionView asciiRuntime (run asciiRuntime {} tiedPrebills)
      tiedCorrelation).preBillTotal = some 90000 ∧
      (transactionView asciiRuntime (run asciiRuntime {} tiedPrebills)
        tiedCorrelation).fiscalTotal = some 80000 := by decide +kernel
  have hstored : tiedCorrelation ∈ (run asciiRuntime standardEngine tiedPrebills).correlations.rows :=
    List.get_mem _ _
  obtain ⟨transaction, htransaction, hid, hids, htotal⟩ := hmem
  refine ⟨transaction, htransaction, hstored, hid, hids, fun h => ?_⟩
  have hbaseline := (h 80000 hview.2).1
  rw [hview.1, htotal] at hbaseline
  exact absurd hbaseline (by decide)

end RetailPrintGuard.Db.TransactionTotals
