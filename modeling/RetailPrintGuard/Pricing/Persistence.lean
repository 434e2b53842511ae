import RetailPrintGuard.Db.Models
import RetailPrintGuard.Library.Runs
import RetailPrintGuard.Pricing.Attribution

/-! # The stored prices

The attributions of each correlated sale are kept in a table of their own that
is only added to, and a line shows a price where none of them contradicts it. -/
namespace RetailPrintGuard.Pricing.Persistence
open RetailPrintGuard.Common.Domain (DocumentType NormalizedDocument)
open RetailPrintGuard.Common.Python (UUID Timestamp)
open RetailPrintGuard.Db.Models (DocumentCorrelation priceAttributionAlgorithm)
open RetailPrintGuard.Library RetailPrintGuard.Library.Checks RetailPrintGuard.Library.DecimalFloat
open RetailPrintGuard.Library.DecimalDivision RetailPrintGuard.Library.Runs
open RetailPrintGuard.Pricing.Attribution

/-! ## Rows -/

structure DocumentLine where
  id : UUID
  documentVersionId : UUID
  sequence : Int
  itemCode : Option String
  description : Option String
  quantity : Option Decimal
  unitPrice : Option Decimal
  lineTotal : Option Decimal
  cancelled : Bool := false
  removed : Bool := false

/-- The stored versions with their lines, and `line_price_attributions` under
`uq_line_price_attr_fingerprint`. -/
structure Store where
  versions : List UUID := []
  lines : Table DocumentLine DocumentLine.id := .empty
  attributions : Table DerivedPriceAttribution DerivedPriceAttribution.attributionFingerprint := .empty

/-! ## Persisting -/

/-- `_TARGET_TYPES` -/
def targetType : DocumentType → Bool
  | .order | .orderChange | .kitchenOrder => true
  | _ => false

/-- `_SOURCE_KINDS` -/
def sourceKindOf : DocumentType → Option SourceKind
  | .preBill => some .prebill
  | .managementDocument => some .management
  | .commercialDocument => some .fiscal
  | _ => none

/-- `order_by(DocumentLine.sequence, DocumentLine.id)` -/
def LineBefore (a b : DocumentLine) : Prop :=
  a.sequence < b.sequence ∨ (a.sequence = b.sequence ∧ a.id ≤ b.id)

instance : DecidableRel LineBefore := fun _ _ => inferInstanceAs (Decidable (_ ∨ (_ ∧ _)))

/-- `lines_by_version.get(version_id, [])` -/
def Store.linesOf (store : Store) (versionId : UUID) : List DocumentLine :=
  (store.lines.rows.filter fun line => line.documentVersionId == versionId).insertionSort LineBefore

/-- `_evidence_line` -/
def evidenceLine (document : NormalizedDocument) (versionId : UUID) (line : DocumentLine) :
    PriceLineEvidence where
  lineId := line.id
  documentId := document.id
  documentVersionId := versionId
  sequence := line.sequence
  itemCode := line.itemCode
  description := line.description
  quantity := line.quantity
  unitPrice := line.unitPrice
  lineTotal := line.lineTotal
  observedAt := document.documentTime

/-- A line without a price of its own. -/
def unpriced (line : DocumentLine) : Bool := line.unitPrice.isNone

/-- A line that says what something costs. -/
def offersPrice (line : DocumentLine) : Bool :=
  !line.cancelled && !line.removed && (line.unitPrice.isSome || line.lineTotal.isSome)

/-- One correlated sale. -/
structure Call where
  correlationId : UUID
  documents : List NormalizedDocument
  /-- `version_ids.get` -/
  versionId : UUID → Option UUID

/-- The lines of a target document against those of a source document. -/
def Call.between (call : Call) (store : Store) (target source : NormalizedDocument) :
    List (Request × List PriceLineEvidence) :=
  match call.versionId target.id, call.versionId source.id, sourceKindOf source.type with
  | some targetVersionId, some sourceVersionId, some kind =>
    let sourceLines := ((store.linesOf sourceVersionId).filter offersPrice).map
      (evidenceLine source sourceVersionId)
    if sourceLines.isEmpty then []
    else ((store.linesOf targetVersionId).filter unpriced).map fun line =>
      ({ correlationId := call.correlationId
         target := evidenceLine target targetVersionId line
         sourceKind := kind
         sourceDocumentId := source.id
         sourceDocumentVersionId := sourceVersionId }, sourceLines)
  | _, _, _ => []

/-- An incomplete document prices nothing. -/
def Call.requests (call : Call) (store : Store) : List (Request × List PriceLineEvidence) :=
  (call.documents.filter fun document => targetType document.type).flatMap fun target =>
    (call.documents.filter NormalizedDocument.complete).flatMap fun source =>
      call.between store target source

section
variable (texts : Texts)

/-- `derived` -/
def Call.derived (call : Call) (store : Store) :
    Except ArithmeticError (List DerivedPriceAttribution) := do
  let derived ← (call.requests store).mapM fun (request, sourceLines) =>
    deriveDocumentAttributions texts request sourceLines
  return derived.flatten

/-- `persist_transaction_price_attributions` -/
def persist (store : Store) (call : Call) : Except ArithmeticError Store := do
  let derived ← call.derived texts store
  return { store with attributions := store.attributions.insertAll derived }

inductive Step where
  /-- a version is stored with all its lines -/
  | storeVersion (versionId : UUID) (lines : List DocumentLine)
  | persist (call : Call)

/-- What raises is rolled back. -/
def apply (store : Store) : Step → Store
  | .storeVersion versionId lines =>
    if versionId ∈ store.versions then store
    else
      { store with
        versions := versionId :: store.versions
        lines := store.lines.insertAll (lines.map fun line =>
          { line with documentVersionId := versionId }) }
  | .persist call =>
    match persist texts store call with
    | .ok next => next
    | .error _ => store

/-- The tables after a list of steps. -/
def run (steps : List Step) : Store := steps.foldl (apply texts) {}

end

/-- The sales among the steps. -/
def sales (steps : List Step) : List Call :=
  steps.filterMap fun step =>
    match step with
    | .persist call => some call
    | .storeVersion .. => none

/-! ## The price that is shown -/

inductive PriceSource where
  | conflictingSources
  | sourceKind (kind : SourceKind)
  deriving DecidableEq

structure LinePriceProjection where
  derivedUnitPrice : Option Decimal
  derivedPriceSource : Option PriceSource
  priceAttributions : List DerivedPriceAttribution

/-- `priorities` -/
def priority : SourceKind → Nat
  | .fiscal => 3
  | .management => 2
  | .prebill => 1

/-- The order of `max`: by priority, time and identifier. -/
def OutrankedBy (a b : DerivedPriceAttribution) : Prop :=
  priority a.sourceKind < priority b.sourceKind ∨ priority a.sourceKind = priority b.sourceKind ∧
    (a.sourceObservedAt.micros < b.sourceObservedAt.micros ∨
      a.sourceObservedAt.micros = b.sourceObservedAt.micros ∧ a.id < b.id)

instance : DecidableRel OutrankedBy := fun _ _ => inferInstanceAs (Decidable (_ ∨ _ ∧ (_ ∨ _ ∧ _)))

def eligible (rows : List DerivedPriceAttribution) : List DerivedPriceAttribution :=
  rows.filter fun row =>
    (row.status = .resolved || row.status = .agreed) && row.observedUnitPrice.isSome

def conflictingSources (rows : List DerivedPriceAttribution) : Bool :=
  (rows.any fun row => row.status = .ambiguous &&
    (row.observedUnitPrice.isSome || row.observedLineTotal.isSome)) ||
  decide (1 < (differentValues (rows.map DerivedPriceAttribution.observedUnitPrice)).length) ||
  decide (1 < (differentValues (rows.map DerivedPriceAttribution.observedLineTotal)).length)

/-- `selected` -/
def selected (rows : List DerivedPriceAttribution) : Option DerivedPriceAttribution :=
  rows.foldl (fun best row => if best.all (OutrankedBy · row) then some row else best) none

/-- `_line_price_projection` -/
def linePriceProjection (rows : List DerivedPriceAttribution) : LinePriceProjection :=
  if conflictingSources rows then ⟨none, some .conflictingSources, rows⟩
  else
    { derivedUnitPrice := (selected (eligible rows)).bind DerivedPriceAttribution.observedUnitPrice
      derivedPriceSource := (selected (eligible rows)).map fun row => .sourceKind row.sourceKind
      priceAttributions := rows }

/-- The order of the texts of the kinds. -/
def kindRank : SourceKind → Nat
  | .fiscal => 0
  | .management => 1
  | .prebill => 2

/-- `order_by(source_observed_at, source_kind, id)` -/
def ShownBefore (a b : DerivedPriceAttribution) : Prop :=
  a.sourceObservedAt.micros < b.sourceObservedAt.micros ∨
    a.sourceObservedAt.micros = b.sourceObservedAt.micros ∧
      (kindRank a.sourceKind < kindRank b.sourceKind ∨
        kindRank a.sourceKind = kindRank b.sourceKind ∧ a.id ≤ b.id)

instance : DecidableRel ShownBefore := fun _ _ => inferInstanceAs (Decidable (_ ∨ _ ∧ (_ ∨ _ ∧ _)))

/-- A row of the current algorithm in a correlation that stands. -/
def shown (correlations : List DocumentCorrelation) (row : DerivedPriceAttribution) : Bool :=
  row.algorithmVersion == priceAttributionAlgorithm &&
    correlations.any fun correlation => correlation.id == row.correlationId && correlation.active

/-- `price_attributions_by_line.get(line.id, [])` -/
def Store.attributionsOf (store : Store) (correlations : List DocumentCorrelation) (lineId : UUID) :
    List DerivedPriceAttribution :=
  (store.attributions.rows.filter fun row =>
    row.targetLineId == lineId && shown correlations row).insertionSort ShownBefore

/-! ## What a derived row says -/

section
variable {texts : Texts} {request : Request} {source target : PriceLineEvidence}
variable {sources candidates : List PriceLineEvidence} {basis : MatchBasis}
variable {row : DerivedPriceAttribution} {rows : List DerivedPriceAttribution}

/-- What the lines of a basis have in common. -/
def nameBy (texts : Texts) : MatchBasis → PriceLineEvidence → Option String
  | .itemCodeExact => codeOf texts
  | .descriptionNormalizedExact => descriptionOf texts

/-- The identity of an attribution, from its columns. -/
def rowIdentity (row : DerivedPriceAttribution) : Json := .obj [
  ("algorithm_version", .str row.algorithmVersion),
  ("correlation_id", .str (uuidText row.correlationId)),
  ("target_line_id", .str (uuidText row.targetLineId)),
  ("source_line_id", .str (uuidText row.sourceLineId))]

/-- The row is the attribution of a source line to the target of a request. -/
structure DerivedFrom (texts : Texts) (request : Request) (source : PriceLineEvidence)
    (row : DerivedPriceAttribution) : Prop where
  correlation : row.correlationId = request.correlationId
  targetDocument : row.targetDocumentId = request.target.documentId
  targetVersion : row.targetDocumentVersionId = request.target.documentVersionId
  targetLine : row.targetLineId = request.target.lineId
  sourceDocument : row.sourceDocumentId = request.sourceDocumentId
  sourceVersion : row.sourceDocumentVersionId = request.sourceDocumentVersionId
  sourceLine : row.sourceLineId = source.lineId
  kind : row.sourceKind = request.sourceKind
  fingerprint : row.attributionFingerprint = Attribution.fingerprint (rowIdentity row)
  named : (nameBy texts row.matchBasis request.target).isSome = true
  offers : Attribution.offers (nameBy texts row.matchBasis) request.target source = true
  signature : priceSignature source = .ok (row.observedUnitPrice, row.observedLineTotal)
  confidence : 0 ≤ row.confidence ∧ row.confidence ≤ 1

theorem derivedFrom_attribution {status : Status} {signatures : List (Option String × Option String)}
    (hnamed : (nameBy texts basis request.target).isSome = true)
    (hoffers : Attribution.offers (nameBy texts basis) request.target source = true)
    (h : attribution texts request basis status candidates signatures source = .ok (some row)) :
    DerivedFrom texts request source row := by
  obtain ⟨⟨unitPrice, unitOrigin⟩, hunit, h⟩ := bind_eq_ok.mp h
  dsimp only at h
  rw [offers_compatible hoffers] at h
  obtain ⟨lineTotal, htotal, h⟩ := bind_eq_ok.mp h
  obtain rfl := Option.some.inj (pure_eq_ok.mp h)
  have hsignature : priceSignature source = .ok (unitPrice, lineTotal) := by
    rw [priceSignature, hunit, ok_bind, htotal]
    rfl
  have hbounds := confidenceOf_bounds basis (quantityCompatibility request.target source).2
    unitOrigin status
  exact ⟨rfl, rfl, rfl, rfl, rfl, rfl, rfl, rfl, rfl, hnamed, hoffers, hsignature, hbounds.1,
    hbounds.2.1.trans (by decide +kernel)⟩

/-- The candidates are lines of the document that offer an amount under the name. -/
theorem candidatesOf_offer (h : candidatesOf texts target sources = some (basis, candidates)) :
    (nameBy texts basis target).isSome = true ∧
      ∀ line ∈ candidates, line ∈ sources ∧
        Attribution.offers (nameBy texts basis) target line = true := by
  rw [candidatesOf_eq] at h
  split_ifs at h with hcode hdescription
  · obtain ⟨rfl, rfl⟩ := Prod.mk.inj (Option.some.inj h)
    unfold byCode at hcode ⊢
    split at hcode
    · rw [if_pos ‹_›]
      exact ⟨‹_›, fun line hline => List.mem_filter.mp hline⟩
    · exact absurd rfl hcode
  · obtain ⟨rfl, rfl⟩ := Prod.mk.inj (Option.some.inj h)
    unfold byDescription at hdescription ⊢
    split at hdescription
    · rw [if_pos ‹_›]
      exact ⟨‹_›, fun line hline => List.mem_filter.mp hline⟩
    · exact absurd rfl hdescription

theorem derivedFrom_of_mem (h : deriveDocumentAttributions texts request sources = .ok rows)
    (hrow : row ∈ rows) : ∃ source ∈ sources, DerivedFrom texts request source row := by
  unfold deriveDocumentAttributions at h
  cases hcandidates : candidatesOf texts request.target sources with
  | none =>
    rw [hcandidates] at h
    obtain rfl := Except.ok.inj h
    exact absurd hrow List.not_mem_nil
  | some found =>
    obtain ⟨basis, candidates⟩ := found
    rw [hcandidates] at h
    obtain ⟨agreement, -, h⟩ := bind_eq_ok.mp h
    obtain ⟨signatures, -, h⟩ := bind_eq_ok.mp h
    obtain ⟨items, hitems, h⟩ := bind_eq_ok.mp h
    obtain rfl := pure_eq_ok.mp h
    obtain ⟨source, hsource, hitem⟩ :=
      forall₂_mem_right (mapM_eq_ok.mp hitems) (List.reduceOption_mem_iff.mp hrow)
    obtain ⟨hnamed, hoffers⟩ := candidatesOf_offer hcandidates
    have hline := hoffers source ((List.mem_insertionSort _).mp hsource)
    exact ⟨source, hline.1, derivedFrom_attribution hnamed hline.2 hitem⟩

theorem isSome_normaliseMoney {amount result : Option Decimal} (h : normaliseMoney amount = .ok result) :
    result.isSome = amount.isSome := by
  cases amount with
  | none =>
    obtain rfl := Except.ok.inj h
    rfl
  | some value =>
    obtain ⟨rounded, -, rfl⟩ := map_eq_ok.mp h
    rfl

/-- A source without any amount is no candidate. -/
theorem DerivedFrom.hasAmount (h : DerivedFrom texts request source row) :
    (row.observedUnitPrice.isSome || row.observedLineTotal.isSome) = true := by
  have hoffers := h.offers
  unfold Attribution.offers hasObservedAmount at hoffers
  simp only [Bool.and_eq_true] at hoffers
  obtain ⟨⟨unitPrice, origin⟩, hunit, hsignature⟩ := bind_eq_ok.mp h.signature
  obtain ⟨lineTotal, htotal, hpair⟩ := bind_eq_ok.mp hsignature
  obtain ⟨rfl, rfl⟩ := Prod.mk.inj (pure_eq_ok.mp hpair)
  rw [isSome_normaliseMoney htotal]
  cases hprice : source.unitPrice with
  | none => simpa [hprice] using Or.inr hoffers.2
  | some price =>
    rw [effectiveUnitPrice, hprice] at hunit
    obtain ⟨amount, hamount, hpair⟩ := bind_eq_ok.mp hunit
    obtain ⟨rfl, -⟩ := Prod.mk.inj (pure_eq_ok.mp hpair)
    rw [isSome_normaliseMoney hamount]
    rfl

end

/-! ## What is stored -/

section
variable {texts : Texts} {store store' : Store} {call : Call} {line : DocumentLine}
variable {row : DerivedPriceAttribution} {rows : List DerivedPriceAttribution}

theorem mem_linesOf {versionId : UUID} :
    line ∈ store.linesOf versionId ↔ line ∈ store.lines ∧ line.documentVersionId = versionId := by
  simp [Store.linesOf, List.mem_insertionSort]

/-- What an attribution of a sale rests on: a line of each of two of its documents. -/
structure Supports (texts : Texts) (call : Call) (targetDocument sourceDocument : NormalizedDocument)
    (target source : DocumentLine) (row : DerivedPriceAttribution) : Prop where
  targetMem : targetDocument ∈ call.documents
  targetVersion : call.versionId targetDocument.id = some target.documentVersionId
  targetType : targetType targetDocument.type = true
  unpriced : target.unitPrice = none
  sourceMem : sourceDocument ∈ call.documents
  sourceVersion : call.versionId sourceDocument.id = some source.documentVersionId
  sourceKind : sourceKindOf sourceDocument.type = some row.sourceKind
  complete : sourceDocument.complete = true
  offersPrice : offersPrice source = true
  derived : ∃ request,
    request.correlationId = call.correlationId ∧
    request.target = evidenceLine targetDocument target.documentVersionId target ∧
    request.sourceDocumentId = sourceDocument.id ∧
    request.sourceDocumentVersionId = source.documentVersionId ∧
    DerivedFrom texts request (evidenceLine sourceDocument source.documentVersionId source) row

/-- The attribution is one of a sale, and both lines are stored. -/
def Supported (texts : Texts) (calls : List Call) (store : Store) (row : DerivedPriceAttribution) :
    Prop :=
  ∃ call ∈ calls, ∃ targetDocument sourceDocument, ∃ target ∈ store.lines, ∃ source ∈ store.lines,
    Supports texts call targetDocument sourceDocument target source row

theorem supported_of_between {target source : NormalizedDocument}
    {request : Request} {sourceLines : List PriceLineEvidence}
    (htarget : target ∈ call.documents.filter fun document => targetType document.type)
    (hsource : source ∈ call.documents.filter NormalizedDocument.complete)
    (hrequest : (request, sourceLines) ∈ call.between store target source)
    (h : deriveDocumentAttributions texts request sourceLines = .ok rows) (hrow : row ∈ rows) :
    Supported texts [call] store row := by
  obtain ⟨htarget, htype⟩ := List.mem_filter.mp htarget
  obtain ⟨hsource, hcomplete⟩ := List.mem_filter.mp hsource
  unfold Call.between at hrequest
  split at hrequest
  · next targetVersionId sourceVersionId kind htargetVersion hsourceVersion hkind =>
    dsimp only at hrequest
    split at hrequest
    · exact absurd hrequest List.not_mem_nil
    · obtain ⟨line, hline, hpair⟩ := List.mem_map.mp hrequest
      obtain ⟨rfl, rfl⟩ := Prod.mk.inj hpair
      obtain ⟨evidence, hevidence, hderived⟩ := derivedFrom_of_mem h hrow
      obtain ⟨offered, hoffered, rfl⟩ := List.mem_map.mp hevidence
      rw [List.mem_filter, mem_linesOf] at hline hoffered
      obtain ⟨⟨hmem, rfl⟩, hunpriced⟩ := hline
      obtain ⟨⟨hstored, rfl⟩, hoffers⟩ := hoffered
      refine ⟨call, List.mem_singleton_self call, target, source, line, hmem, offered, hstored, ?_⟩
      exact ⟨htarget, htargetVersion, htype, Option.isNone_iff_eq_none.mp hunpriced, hsource,
        hsourceVersion, hderived.kind ▸ hkind, hcomplete, hoffers, _, rfl, rfl, rfl, rfl, hderived⟩
  · exact absurd hrequest List.not_mem_nil

theorem supported_of_derived (h : call.derived texts store = .ok rows) (hrow : row ∈ rows) :
    Supported texts [call] store row := by
  obtain ⟨lists, hlists, h⟩ := bind_eq_ok.mp h
  obtain rfl := pure_eq_ok.mp h
  obtain ⟨list, hlist, hrow⟩ := List.mem_flatten.mp hrow
  obtain ⟨⟨request, sourceLines⟩, hrequest, hderive⟩ :=
    forall₂_mem_right (mapM_eq_ok.mp hlists) hlist
  obtain ⟨target, htarget, hrequest⟩ := List.mem_flatMap.mp hrequest
  obtain ⟨source, hsource, hrequest⟩ := List.mem_flatMap.mp hrequest
  exact supported_of_between htarget hsource hrequest hderive hrow

/-! ## One step -/

theorem apply_cases (texts : Texts) (store : Store) (step : Step) :
    apply texts store step = store ∨
    (∃ (versionId : UUID) (lines : List DocumentLine), versionId ∉ store.versions ∧ apply texts store step =
      { store with
        versions := versionId :: store.versions
        lines := store.lines.insertAll (lines.map fun line =>
          { line with documentVersionId := versionId }) }) ∨
    ∃ call derived, step = .persist call ∧ call.derived texts store = .ok derived ∧
      apply texts store step = { store with attributions := store.attributions.insertAll derived } := by
  cases step with
  | storeVersion versionId lines =>
    rw [apply]
    split
    · exact Or.inl rfl
    · exact Or.inr (Or.inl ⟨versionId, lines, ‹_›, rfl⟩)
  | persist call =>
    rw [apply, persist]
    cases hderived : call.derived texts store with
    | error error => exact Or.inl rfl
    | ok derived => exact Or.inr (Or.inr ⟨call, derived, rfl, hderived, rfl⟩)

/-- Rows are only added, and a stored version keeps its lines. -/
structure Grown (store store' : Store) : Prop where
  versions : store.versions ⊆ store'.versions
  lines : ∀ line ∈ store.lines, line ∈ store'.lines
  linesOf : ∀ versionId ∈ store.versions, store'.linesOf versionId = store.linesOf versionId
  attributions : store.attributions.rows <+: store'.attributions.rows

theorem Grown.refl (store : Store) : Grown store store :=
  ⟨List.Subset.refl _, fun _ h => h, fun _ _ => rfl, List.prefix_rfl⟩

theorem Grown.trans {store'' : Store} (h : Grown store store') (h' : Grown store' store'') :
    Grown store store'' where
  versions := List.Subset.trans h.versions h'.versions
  lines line hline := h'.lines line (h.lines line hline)
  linesOf versionId hversion :=
    (h'.linesOf versionId (h.versions hversion)).trans (h.linesOf versionId hversion)
  attributions := h.attributions.trans h'.attributions

theorem grown_apply (store : Store) (step : Step) : Grown store (apply texts store step) := by
  obtain hsame | ⟨versionId, lines, hnew, happly⟩ | ⟨call, derived, -, -, happly⟩ :=
    apply_cases texts store step
  · rw [hsame]
    exact Grown.refl store
  · rw [happly]
    refine ⟨List.subset_cons_self _ _, fun line hline => Table.mem_insertAll_of_mem _ hline, ?_,
      List.prefix_rfl⟩
    intro old hold
    obtain ⟨added, hrows, hadded⟩ := Table.rows_insertAll store.lines
      (lines.map fun line : DocumentLine => { line with documentVersionId := versionId })
    have hother : added.filter (fun line => line.documentVersionId == old) = [] := by
      refine List.filter_eq_nil_iff.mpr fun line hline => ?_
      obtain ⟨_, -, rfl⟩ := List.mem_map.mp (hadded hline)
      rw [beq_iff_eq]
      rintro rfl
      exact hnew hold
    rw [Store.linesOf, Store.linesOf, hrows, List.filter_append, hother, List.append_nil]
  · rw [happly]
    obtain ⟨added, hrows, -⟩ := Table.rows_insertAll store.attributions derived
    exact ⟨List.Subset.refl _, fun _ h => h, fun _ _ => rfl, ⟨added, hrows.symm⟩⟩

theorem grown_run (store : Store) (steps : List Step) :
    Grown store (steps.foldl (apply texts) store) :=
  invariant (Grown store) (fun current step h => h.trans (grown_apply current step)) (Grown.refl store)
    steps

theorem Supported.grown {calls calls' : List Call} (h : Supported texts calls store row)
    (hcalls : calls ⊆ calls') (hgrown : Grown store store') : Supported texts calls' store' row := by
  obtain ⟨call, hcall, targetDocument, sourceDocument, target, htarget, source, hsource, hsupports⟩ := h
  exact ⟨call, hcalls hcall, targetDocument, sourceDocument, target, hgrown.lines target htarget, source,
    hgrown.lines source hsource, hsupports⟩

/-- Every stored attribution has what it rests on. -/
theorem supported_apply {steps : List Step}
    (h : ∀ row ∈ store.attributions, Supported texts (sales steps) store row) (step : Step) :
    ∀ row ∈ (apply texts store step).attributions,
      Supported texts (sales (steps ++ [step])) (apply texts store step) row := by
  intro row hrow
  have hgrown := @grown_apply texts store step
  have hsales : sales (steps ++ [step]) = sales steps ++ sales [step] := List.filterMap_append
  have hcalls : sales steps ⊆ sales (steps ++ [step]) := hsales ▸ List.subset_append_left _ _
  obtain hsame | ⟨versionId, lines, -, happly⟩ | ⟨call, derived, rfl, hderived, happly⟩ :=
    apply_cases texts store step
  · rw [hsame] at hrow
    exact (h row hrow).grown hcalls hgrown
  · rw [happly] at hrow
    exact (h row hrow).grown hcalls hgrown
  · rw [happly] at hrow
    obtain hold | hnew := Table.mem_of_mem_insertAll hrow
    · exact (h row hold).grown hcalls hgrown
    · refine (supported_of_derived hderived hnew).grown ?_ hgrown
      rw [hsales]
      exact List.subset_append_right _ _

theorem supported_run (texts : Texts) (steps : List Step) :
    ∀ row ∈ (run texts steps).attributions, Supported texts (sales steps) (run texts steps) row := by
  induction steps using List.reverseRecOn with
  | nil => exact fun _ h => absurd h List.not_mem_nil
  | append_singleton steps step ih =>
    rw [run, List.foldl_append]
    exact supported_apply ih step

/-! ## Persisting again -/

/-- The versions of the documents are stored. -/
def Call.Known (call : Call) (store : Store) : Prop :=
  ∀ document ∈ call.documents, ∀ versionId ∈ call.versionId document.id, versionId ∈ store.versions

theorem requests_congr (h : ∀ document ∈ call.documents, ∀ versionId ∈ call.versionId document.id,
    store'.linesOf versionId = store.linesOf versionId) :
    call.requests store' = call.requests store := by
  refine List.flatMap_congr fun target htarget => List.flatMap_congr fun source hsource => ?_
  have htargets := h target (List.mem_of_mem_filter htarget)
  have hsources := h source (List.mem_of_mem_filter hsource)
  unfold Call.between
  cases htargetVersion : call.versionId target.id with
  | none => rfl
  | some targetVersionId =>
    cases hsourceVersion : call.versionId source.id with
    | none => rfl
    | some sourceVersionId =>
      cases sourceKindOf source.type with
      | none => rfl
      | some kind =>
        dsimp only
        rw [htargets targetVersionId htargetVersion, hsources sourceVersionId hsourceVersion]

/-- The same sale gives the same rows, whatever was stored since. -/
theorem derived_of_grown (hknown : call.Known store) (hgrown : Grown store store') :
    call.derived texts store' = call.derived texts store := by
  rw [Call.derived, Call.derived, requests_congr fun document hdocument versionId hversion =>
    hgrown.linesOf versionId (hknown document hdocument versionId hversion)]

theorem persist_of_grown {next : Store} (hknown : call.Known store)
    (h : persist texts store call = .ok next) (hgrown : Grown next store') :
    persist texts store' call = .ok store' := by
  obtain ⟨derived, hderived, h⟩ := bind_eq_ok.mp h
  obtain rfl := pure_eq_ok.mp h
  have hsame : Grown store store' := by
    obtain ⟨added, hrows, -⟩ := Table.rows_insertAll store.attributions derived
    exact ⟨hgrown.versions, hgrown.lines, hgrown.linesOf, List.IsPrefix.trans ⟨added, hrows.symm⟩ hgrown.attributions⟩
  have hkeys : ∀ row ∈ derived, row.attributionFingerprint ∈
      store'.attributions.rows.map DerivedPriceAttribution.attributionFingerprint :=
    fun row hrow => (hgrown.attributions.map _).subset
      (Table.known_insertAll store.attributions hrow)
  rw [persist, derived_of_grown hknown hsame, hderived, ok_bind,
    Table.insertAll_of_known hkeys]
  rfl

end

/-! ## The table of prices -/

/-- One source line of one target line, in one correlation by one algorithm. -/
def SameIdentity (a b : DerivedPriceAttribution) : Prop :=
  a.correlationId = b.correlationId ∧ a.targetLineId = b.targetLineId ∧
    a.sourceLineId = b.sourceLineId ∧ a.algorithmVersion = b.algorithmVersion

/-- `line_price_attr_confidence` and `line_price_attr_has_amount` -/
def Checked (row : DerivedPriceAttribution) : Prop :=
  0 ≤ row.confidence ∧ row.confidence ≤ 1 ∧
    (row.observedUnitPrice.isSome || row.observedLineTotal.isSome) = true

section
variable {texts : Texts} {calls : List Call} {store : Store} {row : DerivedPriceAttribution}

theorem Supported.checked (h : Supported texts calls store row) : Checked row := by
  obtain ⟨call, -, targetDocument, sourceDocument, target, -, source, -, hsupports⟩ := h
  obtain ⟨request, -, -, -, -, hderived⟩ := hsupports.derived
  exact ⟨hderived.confidence.1, hderived.confidence.2, hderived.hasAmount⟩

theorem Supported.fingerprint (h : Supported texts calls store row) :
    row.attributionFingerprint = Attribution.fingerprint (rowIdentity row) := by
  obtain ⟨call, -, targetDocument, sourceDocument, target, -, source, -, hsupports⟩ := h
  obtain ⟨request, -, -, -, -, hderived⟩ := hsupports.derived
  exact hderived.fingerprint

/-- The fingerprint, which is unique, makes the identity unique. -/
theorem eq_of_sameIdentity (h : ∀ row ∈ store.attributions, Supported texts calls store row)
    {a b : DerivedPriceAttribution} (ha : a ∈ store.attributions) (hb : b ∈ store.attributions)
    (hsame : SameIdentity a b) : a = b := by
  have hidentity : rowIdentity a = rowIdentity b := by
    obtain ⟨hcorrelation, htarget, hsource, halgorithm⟩ := hsame
    simp only [rowIdentity, hcorrelation, htarget, hsource, halgorithm]
  refine Table.eq_of_key ha hb ?_
  rw [(h a ha).fingerprint, (h b hb).fingerprint, hidentity]

end

/-- **Prices are evidence.** Whatever sales are persisted, in whatever order and
between whatever versions, no stored attribution is changed or removed, every
one passes the checks of its table, no source line is attributed twice to a line
of one correlation, and every one is of a sale that was persisted and rests on
stored lines of its documents: an unpriced line of an order and a line that
still stands in a complete document of the kind, with the same name, a
compatible quantity and exactly these amounts. -/
theorem attributions_kept (texts : Texts) (steps more : List Step) :
    (run texts steps).attributions.rows <+: (run texts (steps ++ more)).attributions.rows ∧
    (∀ row ∈ (run texts steps).attributions,
      Checked row ∧ Supported texts (sales steps) (run texts (steps ++ more)) row) ∧
    ∀ a ∈ (run texts steps).attributions, ∀ b ∈ (run texts steps).attributions,
      SameIdentity a b → a = b := by
  have hsupported := supported_run texts steps
  have hgrown : Grown (run texts steps) (run texts (steps ++ more)) := by
    rw [run, run, List.foldl_append]
    exact grown_run _ more
  exact ⟨hgrown.attributions,
    fun row hrow => ⟨(hsupported row hrow).checked,
      (hsupported row hrow).grown (List.Subset.refl _) hgrown⟩,
    fun a ha b hb => eq_of_sameIdentity hsupported ha hb⟩

/-- **Persisting a sale again adds nothing**, whatever other sales and versions
were stored in between. -/
theorem persisted_once (texts : Texts) (steps more : List Step) (call : Call)
    (hknown : call.Known (run texts steps)) (h : Returns (persist texts (run texts steps) call)) :
    persist texts (run texts (steps ++ .persist call :: more)) call =
      .ok (run texts (steps ++ .persist call :: more)) := by
  obtain ⟨next, hnext⟩ := h
  refine persist_of_grown hknown hnext ?_
  have happly : apply texts (run texts steps) (.persist call) = next := by rw [apply, hnext]
  rw [run, List.foldl_append, List.foldl_cons, ← run, happly]
  exact grown_run next more

/-! ## The price that is shown -/

section
variable {rows : List DerivedPriceAttribution} {row : DerivedPriceAttribution}

/-- The rows say one thing: none is ambiguous, and their amounts are the same. -/
structure Consistent (rows : List DerivedPriceAttribution) : Prop where
  clear : ∀ row ∈ rows, row.status ≠ .ambiguous
  unitPrice : ∀ a ∈ rows, ∀ b ∈ rows, SameAmount a.observedUnitPrice b.observedUnitPrice
  lineTotal : ∀ a ∈ rows, ∀ b ∈ rows, SameAmount a.observedLineTotal b.observedLineTotal

theorem mem_differentValues {amounts : List (Option Decimal)} {x : ℚ} :
    x ∈ differentValues amounts ↔ ∃ amount, some amount ∈ amounts ∧ value amount = x := by
  simp only [differentValues, List.mem_dedup, List.mem_filterMap, Option.map_eq_some_iff]
  constructor
  · intro h
    obtain ⟨amount, hmem, decimal, rfl, hvalue⟩ := h
    exact ⟨decimal, hmem, hvalue⟩
  · intro h
    obtain ⟨decimal, hmem, hvalue⟩ := h
    exact ⟨some decimal, hmem, decimal, rfl, hvalue⟩

/-- There is at most one value where all observed amounts are the same. -/
theorem few_differentValues {amount : DerivedPriceAttribution → Option Decimal} :
    ¬ 1 < (differentValues (rows.map amount)).length ↔
      ∀ a ∈ rows, ∀ b ∈ rows, SameAmount (amount a) (amount b) := by
  constructor
  · intro h a ha b hb
    exact sameAmount_of_length (Nat.not_lt.mp h) (List.mem_map_of_mem ha) (List.mem_map_of_mem hb)
  · intro h
    have hsame : ∀ x ∈ differentValues (rows.map amount), ∀ y ∈ differentValues (rows.map amount),
        x = y := by
      intro x hx y hy
      obtain ⟨first, hfirst, rfl⟩ := mem_differentValues.mp hx
      obtain ⟨second, hsecond, rfl⟩ := mem_differentValues.mp hy
      obtain ⟨a, ha, hfirst⟩ := List.mem_map.mp hfirst
      obtain ⟨b, hb, hsecond⟩ := List.mem_map.mp hsecond
      exact h a ha b hb first hfirst second hsecond
    have hnodup : (differentValues (rows.map amount)).Nodup := List.nodup_dedup _
    match hvalues : differentValues (rows.map amount) with
    | [] => simp
    | [only] => simp
    | x :: y :: rest =>
      rw [hvalues] at hsame hnodup
      have hxy := hsame x List.mem_cons_self y (List.mem_cons_of_mem _ List.mem_cons_self)
      exact absurd (hxy ▸ List.mem_cons_self) (List.nodup_cons.mp hnodup).1

theorem conflictingSources_eq_false (h : ∀ row ∈ rows, Checked row) :
    conflictingSources rows = false ↔ Consistent rows := by
  have hambiguous : (rows.any fun row => row.status = .ambiguous &&
      (row.observedUnitPrice.isSome || row.observedLineTotal.isSome)) = false ↔
      ∀ row ∈ rows, row.status ≠ .ambiguous := by
    rw [List.any_eq_false]
    refine forall₂_congr fun row hrow => ?_
    rw [(h row hrow).2.2, Bool.and_true, decide_eq_true_eq]
  rw [conflictingSources, Bool.or_eq_false_iff, Bool.or_eq_false_iff, hambiguous, decide_eq_false_iff_not,
    decide_eq_false_iff_not, few_differentValues, few_differentValues]
  exact ⟨fun h => ⟨h.1.1, h.1.2, h.2⟩, fun h => ⟨⟨h.clear, h.unitPrice⟩, h.lineTotal⟩⟩

theorem mem_eligible (h : Consistent rows) :
    row ∈ eligible rows ↔ row ∈ rows ∧ row.observedUnitPrice.isSome = true := by
  have hclear : row ∈ rows → row.status = .resolved ∨ row.status = .agreed := by
    intro hrow
    have hstatus := h.clear row hrow
    cases hcase : row.status with
    | resolved => exact Or.inl rfl
    | agreed => exact Or.inr rfl
    | ambiguous => exact absurd hcase hstatus
  rw [eligible, List.mem_filter, Bool.and_eq_true, Bool.or_eq_true, decide_eq_true_eq, decide_eq_true_eq]
  exact ⟨fun hmem => ⟨hmem.1, hmem.2.2⟩, fun hmem => ⟨hmem.1, hclear hmem.1, hmem.2⟩⟩

theorem OutrankedBy.trans {a b c : DerivedPriceAttribution} (hab : OutrankedBy a b)
    (hbc : OutrankedBy b c) : OutrankedBy a c := by
  unfold OutrankedBy at hab hbc ⊢
  grind

theorem selected_concat : selected (rows ++ [row]) =
    if (selected rows).all (OutrankedBy · row) then some row else selected rows := by
  rw [selected, List.foldl_append]
  rfl

theorem selected_eq_none : selected rows = none ↔ rows = [] := by
  induction rows using List.reverseRecOn with
  | nil => simp [selected]
  | append_singleton rows row ih =>
    rw [selected_concat]
    cases h : selected rows with
    | none => simp
    | some best =>
      by_cases hrank : OutrankedBy best row <;> simp [hrank]

/-- What is selected is a row that no other outranks. -/
theorem selected_spec {best : DerivedPriceAttribution} (h : selected rows = some best) :
    best ∈ rows ∧ ∀ other ∈ rows, ¬ OutrankedBy best other := by
  induction rows using List.reverseRecOn generalizing best with
  | nil => simp [selected] at h
  | append_singleton rows row ih =>
    rw [selected_concat] at h
    cases hbefore : selected rows with
    | none =>
      obtain rfl := selected_eq_none.mp hbefore
      obtain rfl : row = best := by simpa [hbefore] using h
      simp [OutrankedBy]
    | some former =>
      obtain ⟨hmem, hfirst⟩ := ih hbefore
      rw [hbefore] at h
      by_cases hrank : OutrankedBy former row
      · obtain rfl : row = best := by simpa [hrank] using h
        refine ⟨by simp, fun other hother => ?_⟩
        obtain hother | rfl := by simpa using hother
        -- what outranks the row would have outranked the former one
        · exact fun hlt => hfirst other hother (hrank.trans hlt)
        · simp [OutrankedBy]
      · obtain rfl : former = best := by simpa [hrank] using h
        refine ⟨by simp [hmem], fun other hother => ?_⟩
        obtain hother | rfl := by simpa using hother
        · exact hfirst other hother
        · exact hrank

/-- The selected row has the highest priority. -/
theorem priority_le_selected (h : selected rows = some row) {other : DerivedPriceAttribution}
    (hother : other ∈ rows) : priority other.sourceKind ≤ priority row.sourceKind :=
  Nat.not_lt.mp fun hlt => (selected_spec h).2 other hother (Or.inl hlt)

/-- The projection of rows that say one thing, by the row that is selected. -/
theorem projection_of_consistent (hchecked : ∀ row ∈ rows, Checked row) (h : Consistent rows) :
    linePriceProjection rows =
      { derivedUnitPrice := (selected (eligible rows)).bind DerivedPriceAttribution.observedUnitPrice
        derivedPriceSource := (selected (eligible rows)).map fun row => .sourceKind row.sourceKind
        priceAttributions := rows } := by
  rw [linePriceProjection, (conflictingSources_eq_false hchecked).mpr h]
  rfl

theorem projection_of_conflict (hchecked : ∀ row ∈ rows, Checked row) (h : ¬ Consistent rows) :
    linePriceProjection rows = ⟨none, some .conflictingSources, rows⟩ := by
  have hconflict : conflictingSources rows = true := by
    by_contra hfalse
    exact h ((conflictingSources_eq_false hchecked).mp (Bool.eq_false_iff.mpr hfalse))
  rw [linePriceProjection, if_pos hconflict]

theorem conflicting_iff (hchecked : ∀ row ∈ rows, Checked row) :
    (linePriceProjection rows).derivedPriceSource = some .conflictingSources ↔ ¬ Consistent rows := by
  by_cases h : Consistent rows
  · rw [projection_of_consistent hchecked h]
    cases selected (eligible rows) <;> simp [h]
  · rw [projection_of_conflict hchecked h]
    simp [h]

theorem priced_iff (hchecked : ∀ row ∈ rows, Checked row) :
    (linePriceProjection rows).derivedUnitPrice.isSome = true ↔
      Consistent rows ∧ ∃ row ∈ rows, row.observedUnitPrice.isSome = true := by
  by_cases h : Consistent rows
  · rw [projection_of_consistent hchecked h, and_iff_right h]
    cases hselected : selected (eligible rows) with
    | none =>
      have hnone : ∀ row ∈ rows, row.observedUnitPrice.isSome ≠ true := by
        intro row hrow hprice
        have hmem := (mem_eligible h).mpr ⟨hrow, hprice⟩
        rw [selected_eq_none.mp hselected] at hmem
        exact absurd hmem List.not_mem_nil
      simpa using hnone
    | some row =>
      obtain ⟨hrow, hprice⟩ := (mem_eligible h).mp (selected_spec hselected).1
      exact ⟨fun _ => ⟨row, hrow, hprice⟩, fun _ => hprice⟩
  · rw [projection_of_conflict hchecked h]
    simp [h]

/-- A price is that of a row of the highest priority. -/
theorem row_of_price (hchecked : ∀ row ∈ rows, Checked row) {price : Decimal}
    (h : (linePriceProjection rows).derivedUnitPrice = some price) :
    ∃ row ∈ rows, row.observedUnitPrice = some price ∧
      (linePriceProjection rows).derivedPriceSource = some (.sourceKind row.sourceKind) ∧
      ∀ other ∈ rows, other.observedUnitPrice.isSome = true →
        priority other.sourceKind ≤ priority row.sourceKind := by
  have hconsistent : Consistent rows := ((priced_iff hchecked).mp (by rw [h]; rfl)).1
  rw [projection_of_consistent hchecked hconsistent] at h ⊢
  obtain ⟨row, hselected, hprice⟩ := Option.bind_eq_some_iff.mp h
  refine ⟨row, ((mem_eligible hconsistent).mp (selected_spec hselected).1).1, hprice, ?_, ?_⟩
  · dsimp only
    rw [hselected]
    rfl
  · exact fun other hother hamount =>
      priority_le_selected hselected ((mem_eligible hconsistent).mpr ⟨hother, hamount⟩)

end

/-- What a line of a document shows. -/
def Store.priceOf (store : Store) (correlations : List DocumentCorrelation) (lineId : UUID) :
    LinePriceProjection :=
  linePriceProjection (store.attributionsOf correlations lineId)

/-- A row that a shown price is taken from. -/
structure Shows (texts : Texts) (calls : List Call) (store : Store) (correlations : List DocumentCorrelation)
    (lineId : UUID) (price : Decimal) (row : DerivedPriceAttribution) : Prop where
  mem : row ∈ store.attributions
  line : row.targetLineId = lineId
  stands : ∃ correlation ∈ correlations, correlation.id = row.correlationId ∧ correlation.active = true
  price : row.observedUnitPrice = some price
  supported : Supported texts calls store row
  source : (store.priceOf correlations lineId).derivedPriceSource = some (.sourceKind row.sourceKind)
  first : ∀ other ∈ store.attributionsOf correlations lineId, other.observedUnitPrice.isSome = true →
    priority other.sourceKind ≤ priority row.sourceKind

/-- **A derived price is shown exactly when nothing contradicts it**, and then it
is the price of a stored line of the most authoritative document of a
correlation that stands; contradictions are shown as such. -/
theorem price_shown_iff (texts : Texts) (steps : List Step) (correlations : List DocumentCorrelation)
    (lineId : UUID) :
    (((run texts steps).priceOf correlations lineId).derivedPriceSource = some .conflictingSources ↔
      ¬ Consistent ((run texts steps).attributionsOf correlations lineId)) ∧
    (((run texts steps).priceOf correlations lineId).derivedUnitPrice.isSome = true ↔
      Consistent ((run texts steps).attributionsOf correlations lineId) ∧
        ∃ row ∈ (run texts steps).attributionsOf correlations lineId,
          row.observedUnitPrice.isSome = true) ∧
    ∀ price, ((run texts steps).priceOf correlations lineId).derivedUnitPrice = some price →
      ∃ row, Shows texts (sales steps) (run texts steps) correlations lineId price row := by
  have hmem : ∀ row ∈ (run texts steps).attributionsOf correlations lineId,
      row ∈ (run texts steps).attributions ∧ row.targetLineId = lineId ∧ shown correlations row = true := by
    intro row hrow
    simpa [Store.attributionsOf, List.mem_insertionSort] using hrow
  have hchecked : ∀ row ∈ (run texts steps).attributionsOf correlations lineId, Checked row :=
    fun row hrow => (supported_run texts steps row (hmem row hrow).1).checked
  refine ⟨conflicting_iff hchecked, priced_iff hchecked, fun price hprice => ?_⟩
  obtain ⟨row, hrow, hamount, hsource, hfirst⟩ := row_of_price hchecked hprice
  obtain ⟨hstored, hline, hshown⟩ := hmem row hrow
  refine ⟨row, hstored, hline, ?_, hamount, supported_run texts steps row hstored, hsource, hfirst⟩
  simpa [shown] using (Bool.and_eq_true_iff.mp hshown).2

/-! ## A sale -/

def kitchenOrder : NormalizedDocument where
  id := 1
  sourceDeviceId := "POS"
  sourceJobId := "J1"
  type := .kitchenOrder
  capturedAt := { micros := 0 }

def bill : NormalizedDocument :=
  { kitchenOrder with id := 2, sourceJobId := "J2", type := .preBill }

def orderedDish : DocumentLine where
  id := 11
  documentVersionId := 101
  sequence := 1
  itemCode := some "A1"
  description := none
  quantity := some ⟨false, 20000, -4⟩
  unitPrice := none
  lineTotal := none

def pricedDish : DocumentLine :=
  { orderedDish with id := 12, documentVersionId := 102, unitPrice := some ⟨false, 35000, -4⟩ }

/-- The order and the bill of a dish. -/
def saleSteps : List Step := [.storeVersion 101 [orderedDish], .storeVersion 102 [pricedDish]]

def sale : Call where
  correlationId := 7
  documents := [kitchenOrder, bill]
  versionId id := if id = 1 then some 101 else if id = 2 then some 102 else none

def receipt : NormalizedDocument :=
  { kitchenOrder with id := 3, sourceJobId := "J3", type := .commercialDocument }

def soldDish : DocumentLine :=
  { pricedDish with id := 13, documentVersionId := 103, unitPrice := some ⟨false, 40000, -4⟩ }

/-- The sale with the receipt, which has another price for the dish. -/
def closedSale : Call where
  correlationId := 8
  documents := [kitchenOrder, bill, receipt]
  versionId id := if id = 3 then some 103 else sale.versionId id

def closingSteps : List Step := [.storeVersion 103 [soldDish], .persist closedSale]

theorem sale_persisted_once :
    ((run sampleTexts (saleSteps ++ .persist sale :: closingSteps)).attributions.rows.map
        DerivedPriceAttribution.correlationId = [7, 8, 8]) ∧
      persist sampleTexts (run sampleTexts (saleSteps ++ .persist sale :: closingSteps)) sale =
        .ok (run sampleTexts (saleSteps ++ .persist sale :: closingSteps)) := by
  have hrun : ((sale.derived sampleTexts (run sampleTexts saleSteps)).map List.length) = .ok 1 := by
    decide +kernel
  obtain ⟨derived, hderived, -⟩ := map_eq_ok.mp hrun
  have hknown : sale.Known (run sampleTexts saleSteps) := by
    intro document hdocument versionId hversion
    have hall : ∀ document ∈ sale.documents, ∀ versionId ∈ sale.versionId document.id,
        versionId ∈ (run sampleTexts saleSteps).versions := by decide +kernel
    exact hall document hdocument versionId hversion
  exact ⟨by decide +kernel, persisted_once sampleTexts saleSteps closingSteps sale hknown
    ⟨_, by rw [persist, hderived]; rfl⟩⟩

end RetailPrintGuard.Pricing.Persistence
