import RetailPrintGuard.Correlation.Partition

/-! # Auxiliary documents never influence sales grouping

Core edges are merged before any auxiliary document, and each auxiliary
document is then a pendant of one component. -/
namespace RetailPrintGuard.Correlation.Auxiliary
open RetailPrintGuard.Common.Python RetailPrintGuard.Common.Domain
open RetailPrintGuard.Library.ConstrainedMerge RetailPrintGuard.Library.ListOrder
open RetailPrintGuard.Correlation.Scoring RetailPrintGuard.Correlation.Engine
open RetailPrintGuard.Correlation.Acceptance RetailPrintGuard.Correlation.Partition

variable {rt : Runtime} {engine : CorrelationEngine}

/-- A document of a sale: not auxiliary. -/
def ofSale (document : NormalizedDocument) : Bool := !isAuxiliary document

/-! ## All pairs -/

theorem listed_allPairs {ordered : List NormalizedDocument} {a b : NormalizedDocument}
    (ha : a ∈ ordered) (hb : b ∈ ordered) (hne : a ≠ b) : Listed (allPairs ordered) a.id b.id := by
  obtain h | h := orderedPairs_total ha hb hne
  · exact Or.inl (List.mem_map.mpr ⟨(a, b), h, rfl⟩)
  · exact Or.inr (List.mem_map.mpr ⟨(b, a), h, rfl⟩)

theorem mem_edges_allPairs {ordered : List NormalizedDocument} (hd : DistinctIds ordered)
    {edge : Edge} :
    edge ∈ edges rt engine ordered (allPairs ordered) ↔ IsEdge rt engine ordered edge := by
  rw [mem_edges hd]
  refine and_iff_left_of_imp fun h => listed_allPairs h.left_mem h.right_mem ?_
  intro heq
  exact h.lt.ne (congrArg NormalizedDocument.id heq)

/-! ## The sales documents alone -/

section
variable {ordered : List NormalizedDocument} (hd : DistinctIds ordered)
include hd

theorem coreEdges_ofSale :
    coreEdges engine (edges rt engine ordered (allPairs ordered)) =
      coreEdges engine (edges rt engine (ordered.filter ofSale)
        (allPairs (ordered.filter ofSale))) := by
  have hd' := hd.filter ofSale
  refine coreEdges_congr hd (edgeList_edges hd) (edgeList_edges hd') fun e hcore => ?_
  rw [mem_linking, mem_linking, mem_edges_allPairs hd, mem_edges_allPairs hd']
  obtain ⟨hl, hr⟩ := Bool.and_eq_true_iff.mp hcore
  refine and_congr_left fun _ => ⟨?_, ?_⟩
  · exact fun h => h.mono (List.mem_filter.mpr ⟨h.left_mem, hl⟩)
      (List.mem_filter.mpr ⟨h.right_mem, hr⟩)
  · exact fun h => h.mono (List.mem_of_mem_filter h.left_mem) (List.mem_of_mem_filter h.right_mem)

theorem attachments_ofSale :
    attachments engine (edges rt engine (ordered.filter ofSale)
      (allPairs (ordered.filter ofSale))) = [] := by
  rw [List.eq_nil_iff_forall_not_mem]
  intro ⟨a, t⟩ h
  obtain ⟨e, he, -, -⟩ := edge_of_mem_attachments h
  obtain ⟨he, hatt⟩ := mem_auxiliaryEdges.mp he
  have hedge := (mem_edges_allPairs (hd.filter ofSale)).mp (mem_linking.mp he).1
  have hl := (List.mem_filter.mp hedge.left_mem).2
  have hr := (List.mem_filter.mp hedge.right_mem).2
  simp only [ofSale, Bool.not_eq_true'] at hl hr
  simp [Edge.attaching, hl, hr] at hatt

omit hd in
theorem saleId_iff {id : UUID} :
    SaleId ordered id ↔ ∃ document ∈ ordered.filter ofSale, document.id = id := by
  simp only [SaleId, List.mem_filter, ofSale, Bool.not_eq_true']
  constructor
  · intro h
    obtain ⟨document, hm, hid, hs⟩ := h
    exact ⟨document, ⟨hm, hs⟩, hid⟩
  · intro h
    obtain ⟨document, ⟨hm, hs⟩, hid⟩ := h
    exact ⟨document, hm, hid, hs⟩

theorem accept_ofSale {ids : List UUID} (h : ∀ id ∈ ids, SaleId ordered id) :
    accept rt ordered ids = accept rt (ordered.filter ofSale) ids := by
  have hm : Members ordered ids = Members (ordered.filter ofSale) ids := by
    funext document
    refine propext (and_congr_left fun hid => ⟨fun hmem => ?_, List.mem_of_mem_filter⟩)
    obtain ⟨other, ho, heq⟩ := saleId_iff.mp (h _ hid)
    rwa [hd.eq_of_id hmem (List.mem_of_mem_filter ho) heq.symm]
  rw [Bool.eq_iff_iff, accept_iff hd, accept_iff (hd.filter ofSale), hm]

/-- The core edges alone give the partition of the sales documents. -/
theorem components_ofSale :
    components rt engine (ordered.filter ofSale)
        (edges rt engine (ordered.filter ofSale) (allPairs (ordered.filter ofSale))) =
      mergeAll (accept rt ordered)
        ((coreEdges engine (edges rt engine ordered (allPairs ordered))).map Edge.ids) .start := by
  rw [components, mergeOrder, attachments_ofSale hd, List.append_nil, ← coreEdges_ofSale hd]
  exact (mergeAll_congr (fun l hl => accept_ofSale hd hl)
    (fun e he => core_saleIds (edgeList_edges hd) he) (closed_start _)).symm

/-- With or without the auxiliary documents, the same sales documents end
together. -/
theorem together_ofSale {a b : NormalizedDocument} (ha : a ∈ ordered.filter ofSale)
    (hb : b ∈ ordered.filter ofSale) :
    Together rt engine ordered (edges rt engine ordered (allPairs ordered)) a b ↔
      Together rt engine (ordered.filter ofSale)
        (edges rt engine (ordered.filter ofSale) (allPairs (ordered.filter ofSale))) a b := by
  have hedges : EdgeList rt engine ordered (edges rt engine ordered (allPairs ordered)) :=
    edgeList_edges hd
  unfold Together
  rw [components_ofSale hd]
  exact same_sales hd hedges (fun e he => core_saleIds hedges he) (List.Sublist.refl _)
    (saleId_iff.mpr ⟨a, ha, rfl⟩) (saleId_iff.mpr ⟨b, hb, rfl⟩)

theorem classOf_ofSale {document : NormalizedDocument} (h : document ∈ ordered.filter ofSale) :
    classOf rt engine (ordered.filter ofSale)
        (edges rt engine (ordered.filter ofSale) (allPairs (ordered.filter ofSale))) document =
      (classOf rt engine ordered (edges rt engine ordered (allPairs ordered)) document).filter
        ofSale := by
  have hd' : (classOf rt engine ordered (edges rt engine ordered (allPairs ordered))
      document).filter ofSale = (ordered.filter ofSale).filter fun other =>
        Together rt engine ordered (edges rt engine ordered (allPairs ordered)) other document := by
    rw [classOf, List.filter_filter, List.filter_filter]
    exact List.filter_congr fun _ _ => Bool.and_comm _ _
  rw [hd', classOf]
  exact List.filter_congr fun other ho => decide_eq_decide.mpr (together_ofSale hd ho h).symm

end

/-! ## Transactions -/

section
variable {documents : List NormalizedDocument}

theorem mem_correlate_documents {group : List NormalizedDocument} :
    group ∈ (correlate rt engine documents).map CorrelatedTransaction.documents ↔
      ∃ document ∈ sortDocuments documents, group = classOf rt engine (sortDocuments documents)
        (edges rt engine (sortDocuments documents) (allPairs (sortDocuments documents)))
        document :=
  mem_documents_correlatePairs (pairwise_sortDocuments documents)

/-- The groups of the sales documents alone are the groups of all documents
less the auxiliary ones. -/
theorem mem_correlate_ofSale (hd : DistinctIds documents) {group : List NormalizedDocument} :
    group ∈ (correlate rt engine (documents.filter ofSale)).map CorrelatedTransaction.documents ↔
      group ≠ [] ∧ ∃ transaction ∈ correlate rt engine documents,
        group = transaction.documents.filter ofSale := by
  have hs := hd.sort
  have hall : (∃ transaction ∈ correlate rt engine documents,
      group = transaction.documents.filter ofSale) ↔
      ∃ whole, whole ∈ (correlate rt engine documents).map CorrelatedTransaction.documents ∧
        group = whole.filter ofSale := by
    simp [List.mem_map]
  rw [hall, mem_correlate_documents, sortDocuments_filter hd]
  simp only [mem_correlate_documents]
  constructor
  · intro h
    obtain ⟨document, hm, rfl⟩ := h
    rw [classOf_ofSale hs hm]
    have hself : document ∈ (classOf rt engine (sortDocuments documents) (edges rt engine
        (sortDocuments documents) (allPairs (sortDocuments documents))) document).filter ofSale :=
      List.mem_filter.mpr ⟨mem_classOf_self (List.mem_of_mem_filter hm), (List.mem_filter.mp hm).2⟩
    exact ⟨List.ne_nil_of_mem hself, _, ⟨document, List.mem_of_mem_filter hm, rfl⟩, rfl⟩
  · intro h
    obtain ⟨hne, whole, ⟨root, hroot, rfl⟩, rfl⟩ := h
    obtain ⟨document, hm⟩ := List.exists_mem_of_ne_nil _ hne
    obtain ⟨hclass, hsale⟩ := List.mem_filter.mp hm
    obtain ⟨hmem, htog⟩ := mem_classOf.mp hclass
    have hmem' := List.mem_filter.mpr ⟨hmem, hsale⟩
    refine ⟨document, hmem', ?_⟩
    rw [classOf_ofSale hs hmem']
    rw [classOf_congr htog]

/-- Sales grouping as if there were no auxiliary documents. -/
structure SalesGroupingUnaffected (rt : Runtime) (engine : CorrelationEngine)
    (documents : List NormalizedDocument) : Prop where
  /-- The groups of the sales documents are those found without the others. -/
  groups : ∀ group, group ∈ (correlate rt engine (documents.filter ofSale)).map
      CorrelatedTransaction.documents ↔
    group ≠ [] ∧ ∃ transaction ∈ correlate rt engine documents,
      group = transaction.documents.filter ofSale
  /-- An auxiliary document belongs to one transaction. -/
  attachedOnce : ∀ auxiliary ∈ documents, isAuxiliary auxiliary = true →
    ∃! transaction, transaction ∈ correlate rt engine documents ∧
      auxiliary ∈ transaction.documents
  /-- No transaction holds documents of two sales groups. -/
  neverBridged : ∀ transaction ∈ correlate rt engine documents,
    ∀ first ∈ correlate rt engine (documents.filter ofSale),
    ∀ second ∈ correlate rt engine (documents.filter ofSale),
    (∃ document ∈ first.documents, document ∈ transaction.documents) →
    (∃ document ∈ second.documents, document ∈ transaction.documents) → first = second

/-- **Auxiliary documents never influence sales grouping.** -/
theorem auxiliary_documents_never_group_sales (hd : DistinctIds documents) :
    SalesGroupingUnaffected rt engine documents := by
  refine ⟨fun group => mem_correlate_ofSale hd, ?_, ?_⟩
  · intro auxiliary hm _
    have hm' := mem_sortDocuments.mpr hm
    refine ⟨_, ⟨mem_correlatePairs.mpr ⟨auxiliary, hm', rfl⟩, ?_⟩, ?_⟩
    · rw [buildTransaction_documents, mem_sortDocuments]
      exact mem_classOf_self hm'
    · intro other ho
      refine eq_of_mem_correlatePairs (pairwise_sortDocuments _) ho.1 (mem_correlatePairs.mpr ⟨auxiliary, hm', rfl⟩) ho.2 ?_
      rw [buildTransaction_documents, mem_sortDocuments]
      exact mem_classOf_self hm'
  · intro transaction ht first hf second hs h k
    obtain ⟨a, haf, hat⟩ := h
    obtain ⟨b, hbs, hbt⟩ := k
    -- the sales documents of the transaction are a group of their own
    have hsale : ∀ other ∈ correlate rt engine (documents.filter ofSale),
        ∀ document ∈ other.documents, ofSale document = true := by
      intro other ho document hdoc
      have hg := (mem_correlate_ofSale hd).mp (List.mem_map_of_mem ho)
      obtain ⟨-, whole, -, heq⟩ := hg
      rw [heq] at hdoc
      exact (List.mem_filter.mp hdoc).2
    have ha' := List.mem_filter.mpr ⟨hat, hsale first hf a haf⟩
    have hb' := List.mem_filter.mpr ⟨hbt, hsale second hs b hbs⟩
    have hg := (mem_correlate_ofSale hd).mpr ⟨List.ne_nil_of_mem ha', transaction, ht, rfl⟩
    obtain ⟨group, hgm, hgd⟩ := List.mem_map.mp hg
    rw [← hgd] at ha' hb'
    exact (eq_of_mem_correlatePairs (pairwise_sortDocuments _) hf hgm haf ha').trans
      (eq_of_mem_correlatePairs (pairwise_sortDocuments _) hs hgm hbs hb').symm

end

/-- A prebill, its fiscal close and a copy of the close. -/
def copiedSale : List NormalizedDocument :=
  [ { id := 1, sourceDeviceId := "POS", sourceJobId := "J1", type := .preBill
      tableCode := some "12", capturedAt := { micros := 0 }
      lines := [{ sequence := 0, itemCode := some "A" }] }
  , { id := 2, sourceDeviceId := "RCH", sourceJobId := "J2", type := .commercialDocument
      externalDocumentCode := some "0031-0007", tableCode := some "12"
      capturedAt := { micros := 60000000 }, lines := [{ sequence := 0, itemCode := some "A" }] }
  , { id := 3, sourceDeviceId := "RCH", sourceJobId := "J3", type := .conformingCopy
      commercialReferenceCode := some "0031-0007", capturedAt := { micros := 90000000 } } ]

example : (correlate asciiRuntime {} copiedSale).map CorrelatedTransaction.ids = [[1, 2, 3]] := by
  decide +kernel

theorem copiedSale_grouping : SalesGroupingUnaffected asciiRuntime {} copiedSale :=
  auxiliary_documents_never_group_sales (by unfold DistinctIds; decide)

end RetailPrintGuard.Correlation.Auxiliary
