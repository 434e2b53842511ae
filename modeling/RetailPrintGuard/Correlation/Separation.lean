import RetailPrintGuard.Correlation.ScoreReports

/-! # Every group respects the separation constraints

The tests are made when two components are joined. A component of two or more
documents passed them as a whole, and attaching auxiliary documents joins no
two sales. -/
namespace RetailPrintGuard.Correlation.Separation
open RetailPrintGuard.Common.Python RetailPrintGuard.Common.Domain
open RetailPrintGuard.Library.ConstrainedMerge
open RetailPrintGuard.Correlation.Scoring RetailPrintGuard.Correlation.Engine
open RetailPrintGuard.Correlation.Acceptance RetailPrintGuard.Correlation.Partition
open RetailPrintGuard.Correlation.ScoreReports

/-- What separates the sales of one place and time. -/
structure Separated (rt : Runtime) (group : List NormalizedDocument) : Prop where
  compatible : ∀ a ∈ group, ∀ b ∈ group,
    identityConflict rt a b = none ∧ episodeBoundaryConflict a b = none
  dispatch : (∀ a ∈ group, isAuxiliary a = false → a.type = .kitchenOrder) →
    timeSpan (group.filter fun a => a.type == .kitchenOrder) ≤ seconds crossDepartmentWindowSeconds
  baseline : (∃ a ∈ group, a.type = .kitchenOrder) →
    (∃ a ∈ group, a.type = .managementDocument ∧ isPrebillSource a = true) →
    timeSpan (group.filter openingSource) ≤ seconds kitchenBaselineWindowSeconds ∨
      sharedStrongSaleIdentity rt (group.filter openingSource) = true

variable {rt : Runtime} {engine : CorrelationEngine} {ordered : List NormalizedDocument}
  {scored : List Edge}

theorem isAuxiliary_kitchenOrder {a : NormalizedDocument} (h : a.type = .kitchenOrder) :
    isAuxiliary a = false := by
  simp [isAuxiliary, auxiliaryTypes, h]

theorem openingSource_management {a : NormalizedDocument} (h : a.type = .managementDocument) :
    openingSource a = isPrebillSource a := by
  simp [openingSource, h]

/-- A group that may stand is separated, but for the span of its kitchen
orders next to auxiliary documents. -/
theorem Separated.of_admissible {group : List NormalizedDocument}
    (h : Admissible rt (· ∈ group))
    (hdispatch : (∀ a ∈ group, isAuxiliary a = false → a.type = .kitchenOrder) →
      ∀ a ∈ group, a.type = .kitchenOrder → ∀ b ∈ group, b.type = .kitchenOrder →
        elapsed a b ≤ seconds crossDepartmentWindowSeconds) : Separated rt group where
  compatible := h.compatible
  dispatch hall := by
    rw [timeSpan_le (by decide)]
    intro a ha b hb
    obtain ⟨ha, hta⟩ := List.mem_filter.mp ha
    obtain ⟨hb, htb⟩ := List.mem_filter.mp hb
    exact hdispatch hall a ha (beq_iff_eq.mp hta) b hb (beq_iff_eq.mp htb)
  baseline hkitchen hmanagement := by
    obtain ⟨kitchen, hk, hkt⟩ := hkitchen
    obtain ⟨management, hm, hmt, hsource⟩ := hmanagement
    -- the chain test reads the opening sources only
    have hopen := acceptable_iff.mpr h
    have hchain : baselineChain rt group = false := by
      unfold acceptable at hopen
      simp only [Bool.and_eq_true, Bool.not_eq_true'] at hopen
      exact hopen.2
    have hk' : kitchen ∈ group.filter openingSource :=
      List.mem_filter.mpr ⟨hk, by simp [openingSource, hkt]⟩
    have hm' : management ∈ group.filter openingSource :=
      List.mem_filter.mpr ⟨hm, (openingSource_management hmt).trans hsource⟩
    have hanyk : (group.filter openingSource).any (fun item => item.type == .kitchenOrder) = true :=
      List.any_eq_true.mpr ⟨kitchen, hk', by simp [hkt]⟩
    have hanym : (group.filter openingSource).any
        (fun item => item.type == .managementDocument) = true :=
      List.any_eq_true.mpr ⟨management, hm', by simp [hmt]⟩
    simp only [baselineChain, hanyk, hanym, Bool.true_and, Bool.and_eq_false_iff,
      decide_eq_false_iff_not, not_lt, Bool.not_eq_false'] at hchain
    exact hchain

/-- The sales of a class are one component of the core edges. -/
theorem same_core (hd : DistinctIds ordered) (h : EdgeList rt engine ordered scored)
    {a b : NormalizedDocument} (ha : a ∈ ordered) (hsa : isAuxiliary a = false) (hb : b ∈ ordered)
    (hsb : isAuxiliary b = false) :
    Together rt engine ordered scored a b ↔
      (mergeAll (accept rt ordered) ((coreEdges engine scored).map Edge.ids) .start).Same
        a.id b.id :=
  same_sales hd h (fun _ he => core_saleIds h he) (List.Sublist.refl _) ⟨a, ha, rfl, hsa⟩
    ⟨b, hb, rfl, hsb⟩

theorem elapsed_self (a : NormalizedDocument) : elapsed a a = 0 := Int.sub_self _

/-- Kitchen orders without another sale are one dispatch. -/
theorem dispatch_classOf (hd : DistinctIds ordered) (h : EdgeList rt engine ordered scored)
    {document : NormalizedDocument}
    (hall : ∀ a ∈ classOf rt engine ordered scored document, isAuxiliary a = false →
      a.type = .kitchenOrder) :
    ∀ a ∈ classOf rt engine ordered scored document, a.type = .kitchenOrder →
    ∀ b ∈ classOf rt engine ordered scored document, b.type = .kitchenOrder →
      elapsed a b ≤ seconds crossDepartmentWindowSeconds := by
  intro a ha hta b hb htb
  obtain ⟨ha, hda⟩ := mem_classOf.mp ha
  obtain ⟨hb, hdb⟩ := mem_classOf.mp hb
  have hsame := (same_core hd h ha (isAuxiliary_kitchenOrder hta) hb
    (isAuxiliary_kitchenOrder htb)).mp (hda.trans hdb.symm)
  by_cases hid : a.id = b.id
  · rw [hd.eq_of_id ha hb hid, elapsed_self]
    decide
  · refine (admissible_of_same hd hid hsame).dispatch (fun d hdm => ?_) a
      ⟨ha, Components.Same.refl _ _⟩ b ⟨hb, hsame.symm⟩
    -- a document the core edges join to a kitchen order is a sale of the class
    by_cases hda' : d.id = a.id
    · rw [hd.eq_of_id hdm.1 ha hda']
      exact hta
    · have hsale : isAuxiliary d = false := by
        by_contra haux
        refine hda' (@closed_of_uncrossed _ _ _ _ (fun x => x = d.id) (fun e he => ?_) _ _ hdm.2
          |>.mp rfl).symm
        obtain ⟨h₁, h₂⟩ := core_saleIds h he
        have hd' : AuxiliaryId ordered d.id := ⟨d, hdm.1, rfl, by simpa using haux⟩
        exact iff_of_false (h₁.ne hd hd') (h₂.ne hd hd')
      have htog := (same_core hd h hdm.1 hsale ha (isAuxiliary_kitchenOrder hta)).mpr hdm.2
      exact hall d (mem_classOf.mpr ⟨hdm.1, htog.trans hda⟩) hsale

theorem separated_singleton (document : NormalizedDocument) {group : List NormalizedDocument}
    (h : ∀ a ∈ group, a = document) : Separated rt group := by
  have hadm : Admissible rt (· ∈ group) := by
    refine (admissible_singleton document).mono h ?_
    intro _ a ha b hb
    rw [h a ha, h b hb, elapsed_self]
    decide
  refine Separated.of_admissible hadm fun _ a ha _ b hb _ => ?_
  rw [h a ha, h b hb, elapsed_self]
  decide

theorem separated_classOf (hd : DistinctIds ordered) (h : EdgeList rt engine ordered scored)
    {document : NormalizedDocument} (hm : document ∈ ordered) :
    Separated rt (classOf rt engine ordered scored document) := by
  by_cases hone : ∀ a ∈ classOf rt engine ordered scored document, a = document
  · exact separated_singleton document hone
  · obtain ⟨other, ho, hne⟩ : ∃ a ∈ classOf rt engine ordered scored document, a ≠ document := by
      simpa using hone
    obtain ⟨ho, hto⟩ := mem_classOf.mp ho
    have hid : document.id ≠ other.id := fun heq => hne (hd.eq_of_id ho hm heq.symm)
    have hclass : (fun d => d ∈ ordered ∧ Together rt engine ordered scored d document) =
        (· ∈ classOf rt engine ordered scored document) := by
      funext d
      exact propext mem_classOf.symm
    have hadm := admissible_of_same hd hid (hto.symm : Together rt engine ordered scored document other)
    exact Separated.of_admissible (hclass ▸ hadm) (dispatch_classOf hd h)

/-- **Every group of distinct documents respects the separation constraints**,
whatever pairs are given; no result of such a group is refused. -/
theorem correlateCandidates_separated (rt : Runtime) (engine : CorrelationEngine)
    {documents : List NormalizedDocument} (hd : DistinctIds documents)
    (candidatePairs : List (UUID × UUID)) :
    ∃ transactions,
      correlateCandidatesChecked rt engine documents candidatePairs = some transactions ∧
        ∀ transaction ∈ transactions, Separated rt transaction.documents := by
  refine ⟨_, correlatePairsChecked_of_distinctIds hd.sort, fun transaction ht => ?_⟩
  obtain ⟨document, hm, rfl⟩ := mem_correlatePairs.mp ht
  rw [buildTransaction_documents, sortDocuments_classOf (pairwise_sortDocuments documents)]
  exact separated_classOf hd.sort (edgeList_edges hd.sort) hm

/-- A baseline of table T1 and the close that follows it. -/
def tableSale : List NormalizedDocument :=
  [{ id := 1
     sourceDeviceId := "rch"
     sourceJobId := "j1"
     type := .managementDocument
     orderCode := some "A"
     capturedAt := { micros := 0 } },
   { id := 2
     sourceDeviceId := "rch"
     sourceJobId := "j2"
     type := .commercialDocument
     orderCode := some "A"
     capturedAt := { micros := seconds 20 } }]

theorem tableSale_separated : ∃ transactions,
    correlateCandidatesChecked asciiRuntime {} tableSale [(2, 1)] = some transactions ∧
      ∀ transaction ∈ transactions, Separated asciiRuntime transaction.documents :=
  correlateCandidates_separated asciiRuntime {} (by unfold DistinctIds; decide) [(2, 1)]

/-- A baseline, and a baseline and a close of another order: the two baselines
have one id. -/
def reusedId : List NormalizedDocument :=
  [{ id := 1
     sourceDeviceId := "rch"
     sourceJobId := "j1"
     type := .managementDocument
     orderCode := some "B"
     capturedAt := { micros := 0 } },
   { id := 1
     sourceDeviceId := "rch"
     sourceJobId := "j2"
     type := .managementDocument
     orderCode := some "A"
     capturedAt := { micros := 0 } },
   { id := 2
     sourceDeviceId := "rch"
     sourceJobId := "j3"
     type := .commercialDocument
     orderCode := some "A"
     capturedAt := { micros := seconds 20 } }]

/-- A document that shares the id of a linked one is grouped without a test. -/
theorem reusedId_not_separated :
    ¬ ∀ transactions, correlateCandidatesChecked asciiRuntime {} reusedId [(1, 2)] = some transactions →
      ∀ transaction ∈ transactions, Separated asciiRuntime transaction.documents := by
  intro h
  have hgroup : (correlateCandidatesChecked asciiRuntime {} reusedId [(1, 2)]).isSome = true ∧
      ∃ transaction ∈ (correlateCandidatesChecked asciiRuntime {} reusedId [(1, 2)]).getD [],
        ∃ a ∈ transaction.documents, ∃ b ∈ transaction.documents,
          identityConflict asciiRuntime a b ≠ none := by decide +kernel
  obtain ⟨hsome, transaction, ht, a, ha, b, hb, hne⟩ := hgroup
  obtain ⟨transactions, htransactions⟩ := Option.isSome_iff_exists.mp hsome
  rw [htransactions, Option.getD_some] at ht
  exact hne ((h transactions htransactions transaction ht).compatible a ha b hb).1

end RetailPrintGuard.Correlation.Separation
