import RetailPrintGuard.Correlation.Acceptance

/-! # The partition the engine computes

The merge order depends on the set of linking edges alone, and a transaction
is the class of one of its documents. -/
namespace RetailPrintGuard.Correlation.Partition
open RetailPrintGuard.Common.Python RetailPrintGuard.Common.Domain
open RetailPrintGuard.Library.ConstrainedMerge RetailPrintGuard.Library.ListOrder
open RetailPrintGuard.Correlation.Scoring RetailPrintGuard.Correlation.Engine
open RetailPrintGuard.Correlation.Acceptance

variable {rt : Runtime} {engine : CorrelationEngine} {documents : List NormalizedDocument}
  {candidatePairs : List (UUID × UUID)}

/-! ## Edges -/

/-- A pair of ids is listed, in one orientation or the other. -/
def Listed (candidatePairs : List (UUID × UUID)) (a b : UUID) : Prop :=
  (a, b) ∈ candidatePairs ∨ (b, a) ∈ candidatePairs

theorem orient_of_lt {a b : UUID} (h : a < b) : orient (a, b) = (a, b) ∧ orient (b, a) = (a, b) := by
  simp [orient, min_eq_left h.le, max_eq_right h.le, min_eq_right h.le, max_eq_left h.le]

theorem mem_uniquePairs {a b : UUID} :
    (a, b) ∈ uniquePairs documents candidatePairs ↔
      a < b ∧ (byId documents a).isSome ∧ (byId documents b).isSome ∧ Listed candidatePairs a b := by
  simp only [uniquePairs, mem_sorted, List.mem_dedup, List.mem_map, List.mem_filter,
    Bool.and_eq_true, bne_iff_ne]
  constructor
  · intro h
    obtain ⟨⟨x, y⟩, ⟨hm, ⟨hne, hx⟩, hy⟩, ho⟩ := h
    obtain hlt | hlt := lt_or_gt_of_ne hne
    · rw [(orient_of_lt hlt).1] at ho
      cases ho
      exact ⟨hlt, hx, hy, Or.inl hm⟩
    · rw [(orient_of_lt hlt).2] at ho
      cases ho
      exact ⟨hlt, hy, hx, Or.inr hm⟩
  · intro h
    obtain ⟨hlt, ha, hb, hm | hm⟩ := h
    · exact ⟨(a, b), ⟨hm, ⟨hlt.ne, ha⟩, hb⟩, (orient_of_lt hlt).1⟩
    · exact ⟨(b, a), ⟨hm, ⟨hlt.ne', hb⟩, ha⟩, (orient_of_lt hlt).2⟩

theorem nodup_uniquePairs : (uniquePairs documents candidatePairs).Nodup :=
  ((List.perm_insertionSort _ _).nodup_iff).mpr (List.nodup_dedup _)

/-- A scored edge between two of the documents. -/
structure IsEdge (rt : Runtime) (engine : CorrelationEngine)
    (documents : List NormalizedDocument) (edge : Edge) : Prop where
  left_mem : edge.left ∈ documents
  right_mem : edge.right ∈ documents
  lt : edge.left.id < edge.right.id
  scored : edge.pairScore = engine.scoreCandidatePair rt edge.left edge.right

theorem IsEdge.mono {documents' : List NormalizedDocument} {edge : Edge}
    (h : IsEdge rt engine documents edge) (hl : edge.left ∈ documents')
    (hr : edge.right ∈ documents') : IsEdge rt engine documents' edge :=
  ⟨hl, hr, h.lt, h.scored⟩

theorem mem_edges (hd : DistinctIds documents) {edge : Edge} :
    edge ∈ edges rt engine documents candidatePairs ↔
      IsEdge rt engine documents edge ∧ Listed candidatePairs edge.left.id edge.right.id := by
  simp only [edges, List.mem_filterMap, Prod.exists, mem_uniquePairs]
  constructor
  · intro h
    obtain ⟨a, b, ⟨hlt, -, -, hm⟩, hs⟩ := h
    cases ha : byId documents a with
    | none => simp [scoredEdge, ha] at hs
    | some left =>
      cases hb : byId documents b with
      | none => simp [scoredEdge, ha, hb] at hs
      | some right =>
        simp only [scoredEdge, ha, hb, Option.some.injEq] at hs
        obtain ⟨hl, hla⟩ := byId_eq_some ha
        obtain ⟨hr, hrb⟩ := byId_eq_some hb
        subst hs hla hrb
        exact ⟨⟨hl, hr, hlt, rfl⟩, hm⟩
  · intro h
    obtain ⟨⟨hl, hr, hlt, hs⟩, hm⟩ := h
    have ha := byId_of_mem hd hl
    have hb := byId_of_mem hd hr
    refine ⟨edge.left.id, edge.right.id, ⟨hlt, by simp [ha], by simp [hb], hm⟩, ?_⟩
    simp only [scoredEdge, ha, hb, ← hs]

theorem scoredEdge_ids {pair : UUID × UUID} {edge : Edge}
    (h : scoredEdge rt engine documents pair = some edge) : edge.ids = pair := by
  cases ha : byId documents pair.1 with
  | none => simp [scoredEdge, ha] at h
  | some left =>
    cases hb : byId documents pair.2 with
    | none => simp [scoredEdge, ha, hb] at h
    | some right =>
      simp only [scoredEdge, ha, hb, Option.some.injEq] at h
      subst h
      exact Prod.ext (byId_eq_some ha).2 (byId_eq_some hb).2

theorem nodup_edges : (edges rt engine documents candidatePairs).Nodup := by
  refine List.Nodup.filterMap ?_ nodup_uniquePairs
  intro p q edge hp hq
  exact (scoredEdge_ids hp).symm.trans (scoredEdge_ids hq)

/-- The ids of an edge determine it. -/
theorem IsEdge.eq_of_ids (hd : DistinctIds documents) {e f : Edge}
    (he : IsEdge rt engine documents e) (hf : IsEdge rt engine documents f)
    (hl : e.left.id = f.left.id) (hr : e.right.id = f.right.id) : e = f := by
  have hl' := hd.eq_of_id he.left_mem hf.left_mem hl
  have hr' := hd.eq_of_id he.right_mem hf.right_mem hr
  have hs := he.scored
  rw [hl', hr', ← hf.scored] at hs
  cases e
  cases f
  cases hl'
  cases hr'
  cases hs
  rfl

/-! ## The merge order -/

/-- A list of edges of the documents, each once. -/
structure EdgeList (rt : Runtime) (engine : CorrelationEngine)
    (documents : List NormalizedDocument) (scored : List Edge) : Prop where
  nodup : scored.Nodup
  edge : ∀ e ∈ scored, IsEdge rt engine documents e

theorem edgeList_edges (hd : DistinctIds documents) :
    EdgeList rt engine documents (edges rt engine documents candidatePairs) :=
  ⟨nodup_edges, fun _ he => ((mem_edges hd).mp he).1⟩

variable {scored scored' : List Edge}

theorem EdgeList.filter (h : EdgeList rt engine documents scored) (p : Edge → Bool) :
    EdgeList rt engine documents (scored.filter p) :=
  ⟨h.nodup.filter p, fun e he => h.edge e (List.mem_of_mem_filter he)⟩

theorem mem_linking {edge : Edge} :
    edge ∈ linking engine scored ↔ edge ∈ scored ∧ engine.minimumScore ≤ edge.score := by
  simp [linking]

theorem mem_coreEdges {edge : Edge} :
    edge ∈ coreEdges engine scored ↔ edge ∈ linking engine scored ∧ edge.core = true := by
  simp [coreEdges]

theorem mem_auxiliaryEdges {edge : Edge} :
    edge ∈ auxiliaryEdges engine scored ↔
      edge ∈ linking engine scored ∧ edge.attaching = true := by
  simp [auxiliaryEdges]

theorem EdgeList.separates_before (hd : DistinctIds documents)
    (h : EdgeList rt engine documents scored) : Separates Edge.Before scored := by
  intro e he f hf hef hfe
  have hids : e.left.id = f.left.id ∧ e.right.id = f.right.id := by
    unfold Edge.Before at hef hfe
    grind
  exact (h.edge e he).eq_of_ids hd (h.edge f hf) hids.1 hids.2

/-- The core edges are a function of their set. -/
theorem coreEdges_congr {documents' : List NormalizedDocument} (hd : DistinctIds documents)
    (h : EdgeList rt engine documents scored) (h' : EdgeList rt engine documents' scored')
    (hmem : ∀ e, e.core = true → (e ∈ linking engine scored ↔ e ∈ linking engine scored')) :
    coreEdges engine scored = coreEdges engine scored' := by
  refine insertionSort_eq_of_mem_iff ?_ ((h.nodup.filter _).filter _) ((h'.nodup.filter _).filter _) ?_
  · intro e he f hf
    exact h.separates_before hd e (List.mem_of_mem_filter (List.mem_of_mem_filter he)) f
      (List.mem_of_mem_filter (List.mem_of_mem_filter hf))
  · intro e
    rw [List.mem_filter, List.mem_filter]
    exact and_congr_left (hmem e)

theorem coreEdges_filter (hd : DistinctIds documents) (h : EdgeList rt engine documents scored)
    (p : Edge → Bool) :
    (coreEdges engine scored).filter p = coreEdges engine (scored.filter p) := by
  have hs : Separates Edge.Before ((linking engine scored).filter Edge.core) := by
    intro e he f hf
    exact h.separates_before hd e (List.mem_of_mem_filter (List.mem_of_mem_filter he)) f
      (List.mem_of_mem_filter (List.mem_of_mem_filter hf))
  rw [coreEdges, coreEdges, filter_insertionSort hs, linking, linking, List.filter_filter,
    List.filter_filter, List.filter_filter, List.filter_filter]
  congr 1
  refine List.filter_congr fun e _ => ?_
  cases p e <;> cases e.core <;> simp

/-- An attaching edge joins its auxiliary document and its target. -/
theorem Edge.auxiliary_target {edge : Edge} (h : edge.attaching = true) :
    isAuxiliary edge.auxiliary = true ∧ isAuxiliary edge.target = false ∧
      ((edge.auxiliary = edge.left ∧ edge.target = edge.right) ∨
        (edge.auxiliary = edge.right ∧ edge.target = edge.left)) := by
  unfold Edge.attaching at h
  unfold Edge.auxiliary Edge.target
  cases hl : isAuxiliary edge.left
  · rw [hl, Bool.false_xor] at h
    simp [h, hl]
  · rw [hl, Bool.true_xor, Bool.not_eq_true'] at h
    simp [h, hl]

theorem IsEdge.eq_of_target (hd : DistinctIds documents) {e f : Edge}
    (he : IsEdge rt engine documents e) (hf : IsEdge rt engine documents f)
    (hea : e.attaching = true) (hfa : f.attaching = true)
    (ha : e.auxiliary.id = f.auxiliary.id) (ht : e.target.id = f.target.id) : e = f := by
  obtain ⟨-, -, ⟨hea', het⟩ | ⟨hea', het⟩⟩ := Edge.auxiliary_target hea <;>
    obtain ⟨-, -, ⟨hfa', hft⟩ | ⟨hfa', hft⟩⟩ := Edge.auxiliary_target hfa <;>
    rw [hea', hfa'] at ha <;> rw [het, hft] at ht
  · exact he.eq_of_ids hd hf ha ht
  · exact absurd (he.lt.trans_eq ht) (by rw [ha]; exact hf.lt.asymm)
  · exact absurd (he.lt.trans_eq ha) (by rw [ht]; exact hf.lt.asymm)
  · exact he.eq_of_ids hd hf ht ha

/-- The candidates of one auxiliary document. -/
def candidatesOf (engine : CorrelationEngine) (scored : List Edge) (auxiliaryId : UUID) :
    List Edge :=
  (auxiliaryEdges engine scored).filter fun edge => edge.auxiliary.id == auxiliaryId

theorem mem_candidatesOf {auxiliaryId : UUID} {edge : Edge} :
    edge ∈ candidatesOf engine scored auxiliaryId ↔
      edge ∈ auxiliaryEdges engine scored ∧ edge.auxiliary.id = auxiliaryId := by
  simp [candidatesOf]

theorem bestTarget_congr {documents' : List NormalizedDocument} (hd : DistinctIds documents)
    (h : EdgeList rt engine documents scored) (h' : EdgeList rt engine documents' scored')
    {auxiliaryId : UUID} (hmem : ∀ e, e ∈ candidatesOf engine scored auxiliaryId ↔
      e ∈ candidatesOf engine scored' auxiliaryId) :
    bestTarget engine scored auxiliaryId = bestTarget engine scored' auxiliaryId := by
  have hs : (candidatesOf engine scored auxiliaryId).insertionSort Edge.Closer =
      (candidatesOf engine scored' auxiliaryId).insertionSort Edge.Closer := by
    refine insertionSort_eq_of_mem_iff ?_ (((h.nodup.filter _).filter _).filter _)
      (((h'.nodup.filter _).filter _).filter _) hmem
    intro e he f hf hef hfe
    obtain ⟨he, hea⟩ := mem_candidatesOf.mp he
    obtain ⟨hf, hfa⟩ := mem_candidatesOf.mp hf
    obtain ⟨he, hatt⟩ := mem_auxiliaryEdges.mp he
    obtain ⟨hf, hatt'⟩ := mem_auxiliaryEdges.mp hf
    have ht : e.target.id = f.target.id := by
      unfold Edge.Closer at hef hfe
      grind
    exact (h.edge e (mem_linking.mp he).1).eq_of_target hd (h.edge f (mem_linking.mp hf).1) hatt
      hatt' (hea.trans hfa.symm) ht
  simp only [bestTarget]
  exact congrArg (fun l => (List.head? l).map fun edge => (auxiliaryId, edge.target.id)) hs

theorem bestTarget_eq_some {auxiliaryId : UUID} {pair : UUID × UUID}
    (h : bestTarget engine scored auxiliaryId = some pair) :
    ∃ edge ∈ candidatesOf engine scored auxiliaryId, pair = (auxiliaryId, edge.target.id) := by
  simp only [bestTarget, Option.map_eq_some_iff] at h
  obtain ⟨edge, hh, rfl⟩ := h
  exact ⟨edge, mem_sorted.mp (List.mem_of_mem_head? hh), rfl⟩

theorem isSome_bestTarget {edge : Edge} (h : edge ∈ auxiliaryEdges engine scored) :
    ∃ target, bestTarget engine scored edge.auxiliary.id = some (edge.auxiliary.id, target) := by
  have hc : edge ∈ candidatesOf engine scored edge.auxiliary.id := mem_candidatesOf.mpr ⟨h, rfl⟩
  have hs : edge ∈ (candidatesOf engine scored edge.auxiliary.id).insertionSort Edge.Closer :=
    mem_sorted.mpr hc
  cases hl : (candidatesOf engine scored edge.auxiliary.id).insertionSort Edge.Closer with
  | nil => simp [hl] at hs
  | cons best rest =>
    refine ⟨best.target.id, ?_⟩
    simp only [bestTarget]
    change Option.map _ (List.head? ((candidatesOf engine scored _).insertionSort _)) = _
    rw [hl]
    rfl

theorem mem_attachments {a t : UUID} :
    (a, t) ∈ attachments engine scored ↔ bestTarget engine scored a = some (a, t) := by
  simp only [attachments, List.mem_filterMap, mem_sorted, List.mem_dedup, List.mem_map]
  constructor
  · intro h
    obtain ⟨b, -, hb⟩ := h
    obtain ⟨edge, -, hp⟩ := bestTarget_eq_some hb
    cases hp
    exact hb
  · intro h
    obtain ⟨edge, he, -⟩ := bestTarget_eq_some h
    obtain ⟨he, hid⟩ := mem_candidatesOf.mp he
    exact ⟨a, ⟨edge, he, hid⟩, h⟩

/-- An attachment comes from a linking edge. -/
theorem edge_of_mem_attachments {a t : UUID} (h : (a, t) ∈ attachments engine scored) :
    ∃ edge ∈ auxiliaryEdges engine scored, edge.auxiliary.id = a ∧ edge.target.id = t := by
  obtain ⟨edge, he, hp⟩ := bestTarget_eq_some (mem_attachments.mp h)
  obtain ⟨he, hid⟩ := mem_candidatesOf.mp he
  cases hp
  exact ⟨edge, he, hid, rfl⟩

/-- Every auxiliary document is attached once. -/
theorem nodup_attachments : ((attachments engine scored).map Prod.fst).Nodup := by
  have hfst : ∀ l : List UUID, (l.filterMap (bestTarget engine scored)).map Prod.fst =
      l.filter fun a => (bestTarget engine scored a).isSome := by
    intro l
    induction l with
    | nil => rfl
    | cons a as ih =>
      cases hb : bestTarget engine scored a with
      | none => rw [List.filterMap_cons_none hb, ih, List.filter_cons_of_neg (by simp [hb])]
      | some pair =>
        obtain ⟨edge, -, rfl⟩ := bestTarget_eq_some hb
        rw [List.filterMap_cons_some hb, List.map_cons, ih, List.filter_cons_of_pos (by simp [hb])]
  rw [attachments, hfst]
  exact List.Nodup.filter _ (((List.perm_insertionSort _ _).nodup_iff).mpr (List.nodup_dedup _))

/-! ## Sales and auxiliary documents -/

/-- The id of a document that is not auxiliary. -/
def SaleId (documents : List NormalizedDocument) (id : UUID) : Prop :=
  ∃ document ∈ documents, document.id = id ∧ isAuxiliary document = false

/-- The id of an auxiliary document. -/
def AuxiliaryId (documents : List NormalizedDocument) (id : UUID) : Prop :=
  ∃ document ∈ documents, document.id = id ∧ isAuxiliary document = true

theorem SaleId.ne (hd : DistinctIds documents) {a b : UUID} (ha : SaleId documents a)
    (hb : AuxiliaryId documents b) : a ≠ b := by
  obtain ⟨x, hx, rfl, hxs⟩ := ha
  obtain ⟨y, hy, rfl, hya⟩ := hb
  intro heq
  rw [hd.eq_of_id hx hy heq, hya] at hxs
  cases hxs

theorem core_saleIds (h : EdgeList rt engine documents scored) {pair : UUID × UUID}
    (hp : pair ∈ (coreEdges engine scored).map Edge.ids) :
    SaleId documents pair.1 ∧ SaleId documents pair.2 := by
  obtain ⟨e, he, rfl⟩ := List.mem_map.mp hp
  obtain ⟨he, hcore⟩ := mem_coreEdges.mp he
  have hedge := h.edge e (mem_linking.mp he).1
  simp only [Edge.core, Bool.and_eq_true, Bool.not_eq_true'] at hcore
  exact ⟨⟨_, hedge.left_mem, rfl, hcore.1⟩, ⟨_, hedge.right_mem, rfl, hcore.2⟩⟩

theorem attachment_ends (h : EdgeList rt engine documents scored) {pair : UUID × UUID}
    (hp : pair ∈ attachments engine scored) :
    AuxiliaryId documents pair.1 ∧ SaleId documents pair.2 := by
  obtain ⟨e, he, h₁, h₂⟩ := edge_of_mem_attachments hp
  obtain ⟨he, hatt⟩ := mem_auxiliaryEdges.mp he
  have hedge := h.edge e (mem_linking.mp he).1
  obtain ⟨haux, htgt, hends⟩ := Edge.auxiliary_target hatt
  have hmem : e.auxiliary ∈ documents ∧ e.target ∈ documents := by
    obtain ⟨ha, ht⟩ | ⟨ha, ht⟩ := hends
    · rw [ha, ht]; exact ⟨hedge.left_mem, hedge.right_mem⟩
    · rw [ha, ht]; exact ⟨hedge.right_mem, hedge.left_mem⟩
  exact ⟨⟨_, hmem.1, h₁, haux⟩, ⟨_, hmem.2, h₂, htgt⟩⟩

/-- The unions tried are between documents. -/
theorem mergeOrder_mem (h : EdgeList rt engine documents scored) {pair : UUID × UUID}
    (hp : pair ∈ mergeOrder engine scored) :
    (∃ a ∈ documents, a.id = pair.1) ∧ ∃ b ∈ documents, b.id = pair.2 := by
  obtain hp | hp := List.mem_append.mp hp
  · obtain ⟨⟨a, ha, hae, -⟩, ⟨b, hb, hbe, -⟩⟩ := core_saleIds h hp
    exact ⟨⟨a, ha, hae⟩, b, hb, hbe⟩
  · obtain ⟨⟨a, ha, hae, -⟩, ⟨b, hb, hbe, -⟩⟩ := attachment_ends h hp
    exact ⟨⟨a, ha, hae⟩, b, hb, hbe⟩

/-- Attachments decide nothing about the sales documents. -/
theorem same_sales {accept : List UUID → Bool} (hd : DistinctIds documents)
    (h : EdgeList rt engine documents scored) {core attached : List (UUID × UUID)}
    (hcore : ∀ pair ∈ core, SaleId documents pair.1 ∧ SaleId documents pair.2)
    (hatt : attached.Sublist (attachments engine scored)) {a b : UUID}
    (ha : SaleId documents a) (hb : SaleId documents b) :
    (mergeAll accept (core ++ attached) .start).Same a b ↔
      (mergeAll accept core .start).Same a b := by
  have hends : ∀ e ∈ attached, AuxiliaryId documents e.1 ∧ SaleId documents e.2 :=
    fun e he => attachment_ends h (hatt.subset he)
  rw [mergeAll_append]
  refine same_mergeAll_pendant ((hatt.map Prod.fst).nodup nodup_attachments) ?_ ?_ ?_ ?_
  · intro e he y hy
    -- no core edge touches an auxiliary document
    refine (closed_of_uncrossed (T := (· = e.1)) (fun f hf => ?_) hy).mp rfl
    obtain ⟨h₁, h₂⟩ := hcore f hf
    exact iff_of_false (h₁.ne hd (hends e he).1) (h₂.ne hd (hends e he).1)
  · exact fun e he f hf => (hends e he).2.ne hd (hends f hf).1
  · exact fun e he => ha.ne hd (hends e he).1
  · exact fun e he => hb.ne hd (hends e he).1

/-! ## Components and transactions -/

/-- A component of two or more documents may stand as a whole. -/
theorem admissible_of_same (hd : DistinctIds documents) {tried : List (UUID × UUID)}
    {a b : NormalizedDocument} (hne : a.id ≠ b.id)
    (h : (mergeAll (accept rt documents) tried .start).Same a.id b.id) :
    Admissible rt fun d => d ∈ documents ∧
      (mergeAll (accept rt documents) tried .start).Same d.id a.id := by
  obtain ⟨l, hl, hmem⟩ := accepted_of_same h hne
  have hm : Members documents l = fun d => d ∈ documents ∧
      (mergeAll (accept rt documents) tried .start).Same d.id a.id := by
    funext d
    exact propext (and_congr_right fun _ => hmem d.id)
  rw [← hm]
  exact (accept_iff hd).mp hl

/-- Two documents end in one component. -/
def Together (rt : Runtime) (engine : CorrelationEngine) (documents : List NormalizedDocument)
    (scored : List Edge) (a b : NormalizedDocument) : Prop :=
  (components rt engine documents scored).Same a.id b.id

instance (scored : List Edge) (a b : NormalizedDocument) :
    Decidable (Together rt engine documents scored a b) :=
  inferInstanceAs (Decidable ((components rt engine documents scored).Same a.id b.id))

/-- The class of a document, in time order. -/
def classOf (rt : Runtime) (engine : CorrelationEngine) (ordered : List NormalizedDocument)
    (scored : List Edge) (document : NormalizedDocument) : List NormalizedDocument :=
  ordered.filter fun other => Together rt engine ordered scored other document

theorem mem_groups {ordered group : List NormalizedDocument} :
    group ∈ groups (components rt engine ordered scored) ordered ↔
      ∃ document ∈ ordered, group = classOf rt engine ordered scored document := by
  have heq : ∀ document, classOf rt engine ordered scored document =
      ordered.filter fun other => (components rt engine ordered scored).find other.id ==
        (components rt engine ordered scored).find document.id := by
    intro document
    refine List.filter_congr fun other _ => ?_
    rw [beq_eq_decide]
    rfl
  simp only [groups, List.mem_map, mem_sorted, List.mem_dedup, heq]
  constructor
  · intro h
    obtain ⟨root, ⟨document, hm, rfl⟩, rfl⟩ := h
    exact ⟨document, hm, rfl⟩
  · intro h
    obtain ⟨document, hm, rfl⟩ := h
    exact ⟨_, ⟨document, hm, rfl⟩, rfl⟩

/-- A transaction is built from the class of one of the documents. -/
theorem mem_correlatePairs {ordered : List NormalizedDocument} {transaction : CorrelatedTransaction} :
    transaction ∈ correlatePairs rt engine ordered candidatePairs ↔
      ∃ document ∈ ordered, transaction = buildTransaction rt engine
        (edges rt engine ordered candidatePairs)
        (classOf rt engine ordered (edges rt engine ordered candidatePairs) document) := by
  simp only [correlatePairs, mem_sorted, List.mem_map, mem_groups]
  constructor
  · intro h
    obtain ⟨group, ⟨document, hm, rfl⟩, rfl⟩ := h
    exact ⟨document, hm, rfl⟩
  · intro h
    obtain ⟨document, hm, rfl⟩ := h
    exact ⟨_, ⟨document, hm, rfl⟩, rfl⟩

@[simp] theorem buildTransaction_documents (group : List NormalizedDocument) :
    (buildTransaction rt engine scored group).documents = sortDocuments group := rfl

@[simp] theorem buildTransaction_transactionId (group : List NormalizedDocument) :
    (buildTransaction rt engine scored group).transactionId =
      transactionId rt (sortDocuments group) := rfl

theorem sortDocuments_classOf {ordered : List NormalizedDocument}
    (hs : ordered.Pairwise NormalizedDocument.Precedes) (document : NormalizedDocument) :
    sortDocuments (classOf rt engine ordered scored document) =
      classOf rt engine ordered scored document :=
  sortDocuments_sorted (hs.filter _)

theorem mem_classOf {ordered : List NormalizedDocument} {a b : NormalizedDocument} :
    a ∈ classOf rt engine ordered scored b ↔ a ∈ ordered ∧ Together rt engine ordered scored a b := by
  simp [classOf]

theorem mem_classOf_self {ordered : List NormalizedDocument} {document : NormalizedDocument}
    (h : document ∈ ordered) : document ∈ classOf rt engine ordered scored document :=
  mem_classOf.mpr ⟨h, Components.Same.refl _ _⟩

/-- The member lists of the transactions are the classes. -/
theorem mem_documents_correlatePairs {ordered group : List NormalizedDocument}
    (hs : ordered.Pairwise NormalizedDocument.Precedes) :
    group ∈ (correlatePairs rt engine ordered candidatePairs).map CorrelatedTransaction.documents ↔
      ∃ document ∈ ordered, group = classOf rt engine ordered
        (edges rt engine ordered candidatePairs) document := by
  simp only [List.mem_map, mem_correlatePairs]
  constructor
  · intro h
    obtain ⟨_, ⟨document, hm, rfl⟩, rfl⟩ := h
    exact ⟨document, hm, by rw [buildTransaction_documents, sortDocuments_classOf hs]⟩
  · intro h
    obtain ⟨document, hm, rfl⟩ := h
    exact ⟨_, ⟨document, hm, rfl⟩, by rw [buildTransaction_documents, sortDocuments_classOf hs]⟩

theorem classOf_congr {ordered : List NormalizedDocument} {a b : NormalizedDocument}
    (h : Together rt engine ordered scored a b) :
    classOf rt engine ordered scored a = classOf rt engine ordered scored b := by
  refine List.filter_congr fun other _ => decide_eq_decide.mpr ?_
  exact ⟨fun k => Components.Same.trans k h, fun k => Components.Same.trans k h.symm⟩

/-- Two transactions with a common document are one. -/
theorem eq_of_mem_correlatePairs {ordered : List NormalizedDocument}
    (hs : ordered.Pairwise NormalizedDocument.Precedes) {a b : CorrelatedTransaction}
    (ha : a ∈ correlatePairs rt engine ordered candidatePairs)
    (hb : b ∈ correlatePairs rt engine ordered candidatePairs)
    {document : NormalizedDocument} (hda : document ∈ a.documents) (hdb : document ∈ b.documents) :
    a = b := by
  obtain ⟨x, -, rfl⟩ := mem_correlatePairs.mp ha
  obtain ⟨y, -, rfl⟩ := mem_correlatePairs.mp hb
  rw [buildTransaction_documents, sortDocuments_classOf hs] at hda hdb
  have hx := (mem_classOf.mp hda).2
  have hy := (mem_classOf.mp hdb).2
  rw [classOf_congr (Components.Same.trans hx.symm hy)]

end RetailPrintGuard.Correlation.Partition
