import RetailPrintGuard.Correlation.Blocking
import RetailPrintGuard.Correlation.Separation

/-! # The partition does not depend on the order of the input

Documents with distinct ids have one time order, and the candidate pairs are
taken as a set of unordered pairs. -/
namespace RetailPrintGuard.Correlation.OrderFree
open RetailPrintGuard.Common.Python RetailPrintGuard.Common.Domain
open RetailPrintGuard.Library.ListOrder
open RetailPrintGuard.Correlation.Scoring RetailPrintGuard.Correlation.Engine
open RetailPrintGuard.Correlation.Acceptance RetailPrintGuard.Correlation.Partition
open RetailPrintGuard.Correlation.Blocking RetailPrintGuard.Correlation.Separation

/-- The same pairs in some order, each in some orientation. -/
def Reoriented (pairs pairs' : List (UUID × UUID)) : Prop :=
  ∃ permuted, pairs.Perm permuted ∧
    List.Forall₂ (fun pair pair' => pair' = pair ∨ pair' = pair.swap) permuted pairs'

variable {rt : Runtime} {engine : CorrelationEngine} {documents documents' : List NormalizedDocument}
  {pairs pairs' : List (UUID × UUID)}

theorem listed_of_forall₂ {a b : UUID}
    (h : List.Forall₂ (fun pair pair' => pair' = pair ∨ pair' = pair.swap) pairs pairs') :
    Listed pairs a b ↔ Listed pairs' a b := by
  induction h with
  | nil => exact Iff.rfl
  | cons hhead _ ih =>
    simp only [Listed, List.mem_cons] at ih ⊢
    cases hhead with
    | inl heq =>
      rw [heq]
      grind
    | inr heq =>
      rw [heq, Prod.ext_iff, Prod.ext_iff, Prod.ext_iff, Prod.ext_iff]
      simp only [Prod.fst_swap, Prod.snd_swap]
      grind

theorem Reoriented.listed (h : Reoriented pairs pairs') {a b : UUID} :
    Listed pairs a b ↔ Listed pairs' a b := by
  obtain ⟨permuted, hperm, hforall⟩ := h
  rw [← listed_of_forall₂ hforall, Listed, Listed, hperm.mem_iff, hperm.mem_iff]

theorem uniquePairs_congr (h : ∀ a b, Listed pairs a b ↔ Listed pairs' a b) :
    uniquePairs documents pairs = uniquePairs documents pairs' := by
  have hanti : ∀ p q : UUID × UUID, PairBefore p q → PairBefore q p → p = q := by
    intro p q hpq hqp
    unfold PairBefore at hpq hqp
    exact Prod.ext (by grind) (by grind)
  refine List.Perm.eq_of_pairwise (fun p q _ _ => hanti p q) pairwise_uniquePairs
    pairwise_uniquePairs ((List.perm_ext_iff_of_nodup nodup_uniquePairs nodup_uniquePairs).mpr ?_)
  intro pair
  rw [mem_uniquePairs, mem_uniquePairs, h]

/-- One time order for the documents. -/
theorem sortDocuments_congr (hd : DistinctIds documents) (h : documents.Perm documents') :
    sortDocuments documents = sortDocuments documents' :=
  insertionSort_congr (separates_precedes hd) h

/-- A document is in the group of its own representative and in no other. -/
theorem countP_correlatePairs {ordered : List NormalizedDocument} {document : NormalizedDocument}
    (h : document ∈ ordered) :
    (correlatePairs rt engine ordered pairs).countP
      (fun transaction => decide (document ∈ transaction.documents)) = 1 := by
  let partition := components rt engine ordered (edges rt engine ordered pairs)
  let roots := ((ordered.map fun d => partition.find d.id).dedup).insertionSort (· ≤ ·)
  have hperm := List.perm_insertionSort CorrelatedTransaction.Before
    ((groups partition ordered).map (buildTransaction rt engine (edges rt engine ordered pairs)))
  have hroot : ∀ root ∈ roots, (decide (document ∈ (buildTransaction rt engine
      (edges rt engine ordered pairs) (ordered.filter fun d => partition.find d.id == root)).documents))
      = (root == partition.find document.id) := by
    intro root _
    rw [Bool.eq_iff_iff, decide_eq_true_iff, buildTransaction_documents, mem_sortDocuments,
      List.mem_filter, beq_iff_eq, beq_iff_eq]
    exact ⟨fun hm => hm.2.symm, fun heq => ⟨h, heq.symm⟩⟩
  have hnodup : roots.Nodup := (List.perm_insertionSort _ _).nodup_iff.mpr (List.nodup_dedup _)
  have hmem : partition.find document.id ∈ roots :=
    mem_sorted.mpr (List.mem_dedup.mpr (List.mem_map_of_mem h))
  calc (correlatePairs rt engine ordered pairs).countP
        (fun transaction => decide (document ∈ transaction.documents))
      = ((groups partition ordered).map (buildTransaction rt engine
          (edges rt engine ordered pairs))).countP
          (fun transaction => decide (document ∈ transaction.documents)) := hperm.countP_eq _
    _ = roots.countP (· == partition.find document.id) := by
        rw [groups, List.map_map, List.countP_map]
        exact List.countP_congr fun root hr => by
          rw [Function.comp_apply, Function.comp_apply, hroot root hr]
    _ = 1 := List.count_eq_one_of_mem hnodup hmem

/-- **Correlation is a partition of the documents that depends on neither the
order of the documents nor the order and orientation of the pairs.** -/
theorem correlateCandidates_order_free (rt : Runtime) (engine : CorrelationEngine)
    (hd : DistinctIds documents) (hdocs : documents.Perm documents')
    (hpairs : Reoriented pairs pairs') :
    correlateCandidates rt engine documents pairs = correlateCandidates rt engine documents' pairs' ∧
      ∀ document ∈ documents, (correlateCandidates rt engine documents pairs).countP
        (fun transaction => decide (document ∈ transaction.documents)) = 1 := by
  constructor
  · unfold correlateCandidates
    rw [sortDocuments_congr hd hdocs]
    unfold correlatePairs edges
    rw [uniquePairs_congr fun a b => hpairs.listed]
  · exact fun document hm => countP_correlatePairs (mem_sortDocuments.mpr hm)

theorem tableSale_order_free :
    correlateCandidates asciiRuntime {} tableSale [(1, 2)] =
        correlateCandidates asciiRuntime {} tableSale.reverse [(2, 1)] ∧
      ∀ document ∈ tableSale, (correlateCandidates asciiRuntime {} tableSale [(1, 2)]).countP
        (fun transaction => decide (document ∈ transaction.documents)) = 1 :=
  correlateCandidates_order_free asciiRuntime {} (by unfold DistinctIds; decide)
    (List.reverse_perm _).symm
    ⟨[(1, 2)], List.Perm.refl _, List.Forall₂.cons (Or.inr rfl) List.Forall₂.nil⟩

end RetailPrintGuard.Correlation.OrderFree
