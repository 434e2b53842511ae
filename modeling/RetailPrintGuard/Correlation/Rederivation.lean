import RetailPrintGuard.Correlation.Blocking

/-! # Re-deriving a persisted transaction

The fraud worker correlates the members of a transaction again, with every
pair of them. More edges can only keep kitchen tickets apart that the
candidate pairs had joined. -/
namespace RetailPrintGuard.Correlation.Rederivation
open RetailPrintGuard.Common.Python RetailPrintGuard.Common.Domain
open RetailPrintGuard.Library.ConstrainedMerge RetailPrintGuard.Library.ListOrder
open RetailPrintGuard.Correlation.Scoring RetailPrintGuard.Correlation.Engine
open RetailPrintGuard.Correlation.Acceptance RetailPrintGuard.Correlation.Partition
open RetailPrintGuard.Correlation.Auxiliary RetailPrintGuard.Correlation.Blocking

variable {rt : Runtime} {engine : CorrelationEngine}

/-- The kitchen tickets of a group are one dispatch, or each linked pair of
them is a candidate pair. -/
def KitchenSettled (rt : Runtime) (engine : CorrelationEngine) (pairs : List (UUID × UUID))
    (group : List NormalizedDocument) : Prop :=
  (∀ a ∈ group, a.type = .kitchenOrder → ∀ b ∈ group, b.type = .kitchenOrder →
    elapsed a b ≤ seconds crossDepartmentWindowSeconds) ∨
  (∀ a ∈ group, a.type = .kitchenOrder → ∀ b ∈ group, b.type = .kitchenOrder → a.id < b.id →
    engine.minimumScore ≤ (engine.scoreCandidatePair rt a b).score → Listed pairs a.id b.id)

/-- The ids of a group. -/
def GroupId (group : List NormalizedDocument) (id : UUID) : Prop :=
  id ∈ group.map fun document => document.id

instance (group : List NormalizedDocument) (id : UUID) : Decidable (GroupId group id) :=
  inferInstanceAs (Decidable (id ∈ group.map fun document => document.id))

instance (pairs : List (UUID × UUID)) (a b : UUID) : Decidable (Listed pairs a b) :=
  inferInstanceAs (Decidable (_ ∨ _))

theorem groupId_of_mem {group : List NormalizedDocument} {document : NormalizedDocument}
    (h : document ∈ group) : GroupId group document.id := List.mem_map_of_mem h

/-- The kitchen tickets of a group are one dispatch. -/
def OneDispatch (group : List NormalizedDocument) : Prop :=
  ∀ a ∈ group, a.type = .kitchenOrder → ∀ b ∈ group, b.type = .kitchenOrder →
    elapsed a b ≤ seconds crossDepartmentWindowSeconds

/-- A member that every part of the group may stand with: one that is no
kitchen ticket, or any when the tickets are one dispatch. -/
def Anchor (group : List NormalizedDocument) (id : UUID) : Prop :=
  ∃ document ∈ group, document.id = id ∧ (document.type = .kitchenOrder → OneDispatch group)

/-- A class the run on candidate pairs found. -/
structure Found (rt : Runtime) (engine : CorrelationEngine) (ordered : List NormalizedDocument)
    (pairs : List (UUID × UUID)) (group : List NormalizedDocument) : Prop where
  distinct : DistinctIds ordered
  sorted : ordered.Pairwise NormalizedDocument.Precedes
  isClass : ∃ document ∈ ordered, group = classOf rt engine ordered (edges rt engine ordered pairs)
    document

namespace Found
variable {ordered : List NormalizedDocument} {pairs : List (UUID × UUID)}
  {group : List NormalizedDocument} (h : Found rt engine ordered pairs group)
include h

theorem subset {a : NormalizedDocument} (ha : a ∈ group) : a ∈ ordered := by
  obtain ⟨document, -, rfl⟩ := h.isClass
  exact (mem_classOf.mp ha).1

theorem distinctGroup : DistinctIds group := by
  obtain ⟨document, -, rfl⟩ := h.isClass
  exact h.distinct.filter _

theorem sortedGroup : group.Pairwise NormalizedDocument.Precedes := by
  obtain ⟨document, -, rfl⟩ := h.isClass
  exact h.sorted.filter _

theorem together {a b : NormalizedDocument} (ha : a ∈ group) (hb : b ∈ group) :
    (components rt engine ordered (edges rt engine ordered pairs)).Same a.id b.id := by
  obtain ⟨document, -, rfl⟩ := h.isClass
  exact Components.Same.trans (mem_classOf.mp ha).2 (Components.Same.symm (mem_classOf.mp hb).2)

theorem mem_of_together {a b : NormalizedDocument} (ha : a ∈ group) (hb : b ∈ ordered)
    (hs : (components rt engine ordered (edges rt engine ordered pairs)).Same b.id a.id) :
    b ∈ group := by
  obtain ⟨document, -, rfl⟩ := h.isClass
  exact mem_classOf.mpr ⟨hb, Components.Same.trans hs (mem_classOf.mp ha).2⟩

theorem mem_of_groupId {a : NormalizedDocument} (ha : a ∈ ordered) (hg : GroupId group a.id) :
    a ∈ group := by
  obtain ⟨other, ho, heq⟩ := List.mem_map.mp hg
  rwa [h.distinct.eq_of_id ha (h.subset ho) heq.symm]

/-- A group of two or more documents passed the tests as a whole. -/
theorem admissible {a b : NormalizedDocument} (ha : a ∈ group) (hb : b ∈ group) (hne : a ≠ b) :
    Admissible rt (· ∈ group) := by
  have hid : a.id ≠ b.id := fun heq => hne (h.distinctGroup.eq_of_id ha hb heq)
  obtain ⟨l, hl, hmem⟩ := accepted_of_same (h.together ha hb) hid
  have hm : Members ordered l = (· ∈ group) := by
    funext document
    refine propext ⟨fun hd => h.mem_of_together ha hd.1 ((hmem _).mp hd.2), fun hd => ?_⟩
    exact ⟨h.subset hd, (hmem _).mpr (h.together hd ha)⟩
  rw [← hm]
  exact (accept_iff h.distinct).mp hl

theorem accept_group {ids : List UUID} (hids : ∀ id ∈ ids, GroupId group id) :
    accept rt ordered ids = accept rt group ids := by
  have hm : Members ordered ids = Members group ids := by
    funext document
    refine propext (and_congr_left fun hid => ⟨fun hd => ?_, h.subset⟩)
    exact h.mem_of_groupId hd (hids _ hid)
  rw [Bool.eq_iff_iff, accept_iff h.distinct, accept_iff h.distinctGroup, hm]

/-- Every part of the group with an anchor may stand. -/
theorem accept_of_anchor (hadm : Admissible rt (· ∈ group)) {ids : List UUID}
    (hanchor : ∃ id ∈ ids, Anchor group id) : accept rt group ids = true := by
  refine (accept_iff h.distinctGroup).mpr (hadm.mono (fun a ha => ha.1) fun hall => ?_)
  obtain ⟨id, hid, document, hd, rfl, hdisp⟩ := hanchor
  have hone := hdisp (hall document ⟨hd, hid⟩)
  exact fun a ha b hb => hone a ha.1 (hall a ha) b hb.1 (hall b hb)

/-! ### The edges inside the group -/

theorem edgeList_given : EdgeList rt engine ordered (edges rt engine ordered pairs) :=
  edgeList_edges h.distinct

/-- The core edges inside the group are the candidate pairs among its own. -/
theorem core_inside :
    ((coreEdges engine (edges rt engine ordered pairs)).map Edge.ids).filter
        (inside fun id => decide (GroupId group id)) =
      ((coreEdges engine (edges rt engine group (allPairs group))).map Edge.ids).filter
        fun pair => decide (Listed pairs pair.1 pair.2) := by
  have hdg := h.distinctGroup
  rw [List.filter_map, List.filter_map, coreEdges_filter h.distinct h.edgeList_given,
    coreEdges_filter hdg (edgeList_edges hdg)]
  congr 1
  refine coreEdges_congr h.distinct (h.edgeList_given.filter _) ((edgeList_edges hdg).filter _) ?_
  intro e _
  simp only [mem_linking, List.mem_filter, Function.comp_apply, inside, Edge.ids,
    Bool.and_eq_true, mem_edges h.distinct, mem_edges_allPairs hdg]
  refine and_congr_left fun _ => ⟨fun k => ?_, fun k => ?_⟩
  · obtain ⟨⟨he, hl⟩, hgl, hgr⟩ := k
    exact ⟨he.mono (h.mem_of_groupId he.left_mem (of_decide_eq_true hgl))
      (h.mem_of_groupId he.right_mem (of_decide_eq_true hgr)), decide_eq_true hl⟩
  · obtain ⟨he, hl⟩ := k
    exact ⟨⟨he.mono (h.subset he.left_mem) (h.subset he.right_mem), of_decide_eq_true hl⟩,
      decide_eq_true (groupId_of_mem he.left_mem), decide_eq_true (groupId_of_mem he.right_mem)⟩

theorem core_groupId {pair : UUID × UUID}
    (hp : pair ∈ (coreEdges engine (edges rt engine group (allPairs group))).map Edge.ids) :
    GroupId group pair.1 ∧ GroupId group pair.2 := by
  obtain ⟨e, he, rfl⟩ := List.mem_map.mp hp
  have hedge := (mem_edges_allPairs h.distinctGroup).mp (mem_linking.mp (mem_coreEdges.mp he).1).1
  exact ⟨groupId_of_mem hedge.left_mem, groupId_of_mem hedge.right_mem⟩

/-- A core edge that was no candidate pair has an anchor at one end. -/
theorem anchor_of_unlisted (hk : KitchenSettled rt engine pairs group) {pair : UUID × UUID}
    (hp : pair ∈ (coreEdges engine (edges rt engine group (allPairs group))).map Edge.ids)
    (hn : ¬ Listed pairs pair.1 pair.2) : Anchor group pair.1 ∨ Anchor group pair.2 := by
  obtain ⟨e, he, rfl⟩ := List.mem_map.mp hp
  obtain ⟨hedge, hscore⟩ := mem_linking.mp (mem_coreEdges.mp he).1
  have hedge := (mem_edges_allPairs h.distinctGroup).mp hedge
  obtain hone | hlisted := hk
  · exact Or.inl ⟨e.left, hedge.left_mem, rfl, fun _ => hone⟩
  · by_cases hl : e.left.type = .kitchenOrder
    · refine Or.inr ⟨e.right, hedge.right_mem, rfl, fun hr => absurd ?_ hn⟩
      refine hlisted _ hedge.left_mem hl _ hedge.right_mem hr hedge.lt ?_
      rw [← hedge.scored]
      exact hscore
    · exact Or.inl ⟨e.left, hedge.left_mem, rfl, fun hl' => absurd hl' hl⟩

/-- The unions of the first run that stay inside the group. -/
theorem same_inside {a b : NormalizedDocument} (ha : a ∈ group) (hb : b ∈ group) :
    (mergeAll (accept rt ordered) ((mergeOrder engine (edges rt engine ordered pairs)).filter
      (inside fun id => decide (GroupId group id))) .start).Same a.id b.id := by
  have hclosed : ∀ x, decide (GroupId group x) = true → ∀ y,
      (components rt engine ordered (edges rt engine ordered pairs)).Same x y →
      decide (GroupId group y) = true := by
    intro x hx y hy
    obtain ⟨c, hc, rfl⟩ := List.mem_map.mp (of_decide_eq_true hx)
    -- no edge leaves the documents
    have hdoc : GroupId ordered c.id ↔ GroupId ordered y := by
      refine closed_of_uncrossed (fun e he => ?_) hy
      obtain ⟨⟨a, ha, hae⟩, b, hb, hbe⟩ := mergeOrder_mem h.edgeList_given he
      exact iff_of_true (hae ▸ groupId_of_mem ha) (hbe ▸ groupId_of_mem hb)
    obtain ⟨d, hd, rfl⟩ := List.mem_map.mp (hdoc.mp (groupId_of_mem (h.subset hc)))
    exact decide_eq_true (groupId_of_mem (h.mem_of_together hc hd hy.symm))
  have hagree := mergeAll_filter_of_closed (extensional_accept h.distinct)
    (mergeOrder engine (edges rt engine ordered pairs)) .start .start (fun _ _ _ => Iff.rfl) hclosed
  exact (hagree a.id (decide_eq_true (groupId_of_mem ha)) b.id).mp (h.together ha hb)

/-! ### The run on the group alone -/

/-- The core edges of the group, merged with all of them and merged with the
candidate pairs only. -/
theorem core_refines (hadm : Admissible rt (· ∈ group))
    (hk : KitchenSettled rt engine pairs group) {a b : UUID} :
    (mergeAll (accept rt ordered) (((coreEdges engine (edges rt engine ordered pairs)).map
      Edge.ids).filter (inside fun id => decide (GroupId group id))) .start).Same a b →
    (mergeAll (accept rt group) ((coreEdges engine (edges rt engine group
      (allPairs group))).map Edge.ids) .start).Same a b := by
  rw [h.core_inside, mergeAll_congr (fun l hl => h.accept_group hl)
    (fun e he => h.core_groupId (List.mem_of_mem_filter he)) (closed_start _)]
  refine (mergeAll_refines (N := Anchor group) (T := GroupId group)
    (extensional_accept h.distinctGroup) (fun l _ hl => h.accept_of_anchor hadm hl) _ _ _ _
    (fun e he => h.core_groupId he) (fun e he hn => ?_) (closed_start _)
    (refines_start _)).coarser a b
  exact h.anchor_of_unlisted hk he (of_decide_eq_false hn)

theorem saleId_of_mem {a : NormalizedDocument} (ha : a ∈ group) (hs : isAuxiliary a = false) :
    SaleId ordered a.id ∧ SaleId group a.id :=
  ⟨⟨a, h.subset ha, rfl, hs⟩, ⟨a, ha, rfl, hs⟩⟩

/-- The sales documents of the group come together before any attachment. -/
theorem sales_together (hadm : Admissible rt (· ∈ group))
    (hk : KitchenSettled rt engine pairs group) {a b : NormalizedDocument} (ha : a ∈ group)
    (hb : b ∈ group) (has : isAuxiliary a = false) (hbs : isAuxiliary b = false) :
    (mergeAll (accept rt group) ((coreEdges engine (edges rt engine group
      (allPairs group))).map Edge.ids) .start).Same a.id b.id := by
  have hin := h.same_inside ha hb
  rw [mergeOrder, List.filter_append] at hin
  refine h.core_refines hadm hk ((same_sales h.distinct h.edgeList_given (fun e he => ?_)
    List.filter_sublist (h.saleId_of_mem ha has).1 (h.saleId_of_mem hb hbs).1).mp hin)
  exact core_saleIds h.edgeList_given (List.mem_of_mem_filter he)

/-- An auxiliary document that is not alone in the group has a linking edge
inside it. -/
theorem attached_inside {a b : NormalizedDocument} (ha : a ∈ group) (hb : b ∈ group)
    (hne : b ≠ a) (haux : isAuxiliary a = true) :
    ∃ target, (a.id, target) ∈ attachments engine (edges rt engine group (allPairs group)) := by
  have hauxId : AuxiliaryId ordered a.id := ⟨a, h.subset ha, rfl, haux⟩
  have hin := h.same_inside ha hb
  rw [mergeOrder, List.filter_append] at hin
  obtain ⟨target, ht⟩ : ∃ target, (a.id, target) ∈ (attachments engine
      (edges rt engine ordered pairs)).filter (inside fun id => decide (GroupId group id)) := by
    by_contra hno
    -- without one, no edge would touch the document at all
    have hiff := closed_of_uncrossed (T := (· = a.id)) (fun e he => ?_) hin
    · exact hne (h.distinctGroup.eq_of_id hb ha (hiff.mp rfl))
    · obtain he | he := List.mem_append.mp he
      · obtain ⟨h₁, h₂⟩ := core_saleIds h.edgeList_given (List.mem_of_mem_filter he)
        exact iff_of_false (h₁.ne h.distinct hauxId) (h₂.ne h.distinct hauxId)
      · obtain ⟨-, h₂⟩ := attachment_ends h.edgeList_given (List.mem_of_mem_filter he)
        refine iff_of_false (fun heq => hno ⟨e.2, ?_⟩) (h₂.ne h.distinct hauxId)
        rwa [← heq]
  obtain ⟨hatt, hinside⟩ := List.mem_filter.mp ht
  obtain ⟨e, he, hea, het⟩ := edge_of_mem_attachments hatt
  obtain ⟨hlink, hattaching⟩ := mem_auxiliaryEdges.mp he
  obtain ⟨hmem, hscore⟩ := mem_linking.mp hlink
  have hedge := ((mem_edges h.distinct).mp hmem).1
  have hgt := (Bool.and_eq_true_iff.mp hinside).2
  rw [← het] at hgt
  have hga : GroupId group e.auxiliary.id := hea ▸ groupId_of_mem ha
  have hown : e ∈ auxiliaryEdges engine (edges rt engine group (allPairs group)) := by
    refine mem_auxiliaryEdges.mpr ⟨mem_linking.mpr ⟨(mem_edges_allPairs h.distinctGroup).mpr ?_,
      hscore⟩, hattaching⟩
    obtain ⟨-, -, ⟨hal, htr⟩ | ⟨har, htl⟩⟩ := Edge.auxiliary_target hattaching
    · rw [hal] at hga
      rw [htr] at hgt
      exact hedge.mono (h.mem_of_groupId hedge.left_mem hga)
        (h.mem_of_groupId hedge.right_mem (of_decide_eq_true hgt))
    · rw [har] at hga
      rw [htl] at hgt
      exact hedge.mono (h.mem_of_groupId hedge.left_mem (of_decide_eq_true hgt))
        (h.mem_of_groupId hedge.right_mem hga)
  obtain ⟨best, hbest⟩ := isSome_bestTarget hown
  rw [hea] at hbest
  exact ⟨best, mem_attachments.mpr hbest⟩

/-- An auxiliary document joins a sales document of the group. -/
theorem auxiliary_joins (hadm : Admissible rt (· ∈ group)) {a b : NormalizedDocument}
    (ha : a ∈ group) (hb : b ∈ group) (hne : b ≠ a) (haux : isAuxiliary a = true) :
    ∃ target ∈ group, isAuxiliary target = false ∧
      (components rt engine group (edges rt engine group (allPairs group))).Same a.id
        target.id := by
  have hown : EdgeList rt engine group (edges rt engine group (allPairs group)) :=
    edgeList_edges h.distinctGroup
  obtain ⟨t, ht⟩ := h.attached_inside ha hb hne haux
  obtain ⟨-, ⟨target, htm, rfl, hts⟩⟩ := attachment_ends hown ht
  refine ⟨target, htm, hts, ?_⟩
  have hids : ∀ e ∈ mergeOrder engine (edges rt engine group (allPairs group)),
      GroupId group e.1 ↔ GroupId group e.2 := by
    intro e he
    obtain ⟨⟨x, hx, hxe⟩, y, hy, hye⟩ := mergeOrder_mem hown he
    exact iff_of_true (hxe ▸ groupId_of_mem hx) (hye ▸ groupId_of_mem hy)
  refine same_of_mem (e := (a.id, target.id)) hids (closed_start _)
    (List.mem_append_right _ ht) (groupId_of_mem ha) fun l hl _ => ?_
  refine h.accept_of_anchor hadm ⟨a.id, hl, a, ha, rfl, fun hkt => ?_⟩
  simp [isAuxiliary, auxiliaryTypes, hkt] at haux

/-- The group comes together again from its own pairs. -/
theorem rederives (hk : KitchenSettled rt engine pairs group) {a b : NormalizedDocument}
    (ha : a ∈ group) (hb : b ∈ group) :
    Together rt engine group (edges rt engine group (allPairs group)) a b := by
  by_cases hab : a = b
  · rw [hab]
    exact Components.Same.refl _ _
  have hadm := h.admissible ha hb hab
  have hsale : ∀ x ∈ group, ∀ y ∈ group, isAuxiliary x = false → isAuxiliary y = false →
      (components rt engine group (edges rt engine group (allPairs group))).Same x.id y.id := by
    intro x hx y hy hxs hys
    rw [components, mergeOrder, mergeAll_append]
    exact same_mergeAll_of_same (h.sales_together hadm hk hx hy hxs hys) _
  have hto : ∀ x ∈ group, ∃ t ∈ group, isAuxiliary t = false ∧
      (components rt engine group (edges rt engine group (allPairs group))).Same x.id t.id := by
    intro x hx
    cases hxs : isAuxiliary x with
    | false => exact ⟨x, hx, hxs, Components.Same.refl _ _⟩
    | true =>
      obtain ⟨y, hy, hyx⟩ : ∃ y ∈ group, y ≠ x := by
        by_cases hax : a = x
        · exact ⟨b, hb, fun hbx => hab (hax.trans hbx.symm)⟩
        · exact ⟨a, ha, hax⟩
      exact h.auxiliary_joins hadm hx hy hyx hxs
  obtain ⟨s, hs, hss, has⟩ := hto a ha
  obtain ⟨t, ht, hts, hbt⟩ := hto b hb
  exact has.trans ((hsale s hs t ht hss hts).trans hbt.symm)

end Found

/-- **A persisted transaction re-derives itself**, when its kitchen tickets
are one dispatch or each linked pair of them was a candidate pair. -/
theorem transaction_rederives {documents : List NormalizedDocument} (hd : DistinctIds documents)
    {seedIds : List UUID} {windowSeconds : Nat} {transaction : CorrelatedTransaction}
    (ht : transaction ∈ correlateCandidates rt engine documents
      (candidatePairs rt documents seedIds windowSeconds))
    (hk : KitchenSettled rt engine (candidatePairs rt documents seedIds windowSeconds)
      transaction.documents) :
    ∃ again ∈ correlate rt engine transaction.documents,
      again.documents = transaction.documents ∧
        again.transactionId = transaction.transactionId := by
  have hs := pairwise_sortDocuments documents
  obtain ⟨document, hm, rfl⟩ := mem_correlatePairs.mp ht
  rw [buildTransaction_documents, sortDocuments_classOf hs] at hk ⊢
  rw [buildTransaction_transactionId, sortDocuments_classOf hs]
  have hfound : Found rt engine (sortDocuments documents)
      (candidatePairs rt documents seedIds windowSeconds)
      (classOf rt engine (sortDocuments documents) (edges rt engine (sortDocuments documents)
        (candidatePairs rt documents seedIds windowSeconds)) document) :=
    ⟨hd.sort, hs, document, hm, rfl⟩
  have hself : document ∈ classOf rt engine (sortDocuments documents)
      (edges rt engine (sortDocuments documents)
        (candidatePairs rt documents seedIds windowSeconds)) document := mem_classOf_self hm
  generalize classOf rt engine (sortDocuments documents) (edges rt engine
    (sortDocuments documents) (candidatePairs rt documents seedIds windowSeconds)) document =
      group at hfound hk hself ⊢
  have hclass : classOf rt engine group (edges rt engine group (allPairs group)) document =
      group := by
    refine List.filter_eq_self.mpr fun other ho => decide_eq_true ?_
    exact hfound.rederives hk ho hself
  have hsorted := sortDocuments_sorted hfound.sortedGroup
  refine ⟨buildTransaction rt engine (edges rt engine group (allPairs group)) group, ?_, ?_, ?_⟩
  · rw [correlate, hsorted, mem_correlatePairs]
    exact ⟨document, hself, by rw [hclass]⟩
  · rw [buildTransaction_documents, hsorted]
  · rw [buildTransaction_transactionId, hsorted]

/-- Four kitchen tickets of one table, and the order two of them name. -/
def chained : List NormalizedDocument :=
  let ticket (id : UUID) (time : Nat) (order : Option String) : NormalizedDocument :=
    { id, sourceDeviceId := toString id, sourceJobId := toString id, type := .kitchenOrder
      orderCode := order, tableCode := some "7", capturedAt := { micros := seconds time } }
  [ ticket 1 0 (some "X"), ticket 2 20 none, ticket 3 35 (some "X"), ticket 4 55 none
  , { ticket 5 10 (some "X") with type := .order } ]

/-- With the tickets at 20 and 35 seconds no seeds, the pair of them is no
candidate: all five come together, and with that pair the last one is left. -/
theorem chained_does_not_rederive :
    DistinctIds chained ∧
    (correlateCandidates asciiRuntime {} chained
      (candidatePairs asciiRuntime chained [1, 4, 5] 7200)).map CorrelatedTransaction.ids =
        [[1, 5, 2, 3, 4]] ∧
    ∀ transaction ∈ correlateCandidates asciiRuntime {} chained
        (candidatePairs asciiRuntime chained [1, 4, 5] 7200),
      ¬ ∃ again ∈ correlate asciiRuntime {} transaction.documents,
        again.documents = transaction.documents := by
  unfold DistinctIds
  decide +kernel

/-- Two tickets of one dispatch. -/
def dispatched : List NormalizedDocument := chained.take 2

theorem transaction_rederives_dispatched :
    ∃ transaction ∈ correlateCandidates asciiRuntime {} dispatched
        (candidatePairs asciiRuntime dispatched [2] 7200),
      ∃ again ∈ correlate asciiRuntime {} transaction.documents,
        again.documents = transaction.documents ∧
          again.transactionId = transaction.transactionId := by
  have hne : correlateCandidates asciiRuntime {} dispatched
      (candidatePairs asciiRuntime dispatched [2] 7200) ≠ [] := by decide +kernel
  have hone : ∀ transaction ∈ correlateCandidates asciiRuntime {} dispatched
      (candidatePairs asciiRuntime dispatched [2] 7200), ∀ a ∈ transaction.documents,
      a.type = .kitchenOrder → ∀ b ∈ transaction.documents, b.type = .kitchenOrder →
        elapsed a b ≤ seconds crossDepartmentWindowSeconds := by decide +kernel
  exact ⟨_, List.head_mem hne, transaction_rederives (by unfold DistinctIds; decide)
    (List.head_mem hne) (Or.inl (hone _ (List.head_mem hne)))⟩

end RetailPrintGuard.Correlation.Rederivation
