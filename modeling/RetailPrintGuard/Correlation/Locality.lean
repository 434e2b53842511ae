import RetailPrintGuard.Correlation.Partition

/-! # Linked documents are grouped on their own

A set of documents no link leaves is grouped by its own links, whatever else
the engine is given. -/
namespace RetailPrintGuard.Correlation.Locality
open Relation RetailPrintGuard.Common.Python RetailPrintGuard.Common.Domain
open RetailPrintGuard.Library.ConstrainedMerge RetailPrintGuard.Library.ListOrder
open RetailPrintGuard.Correlation.Scoring RetailPrintGuard.Correlation.Engine
open RetailPrintGuard.Correlation.Acceptance RetailPrintGuard.Correlation.Partition

variable {rt : Runtime} {engine : CorrelationEngine} {documents documents' : List NormalizedDocument}
  {scored scored' : List Edge} {X : UUID → Bool}

/-- No link leaves the set. -/
def Uncrossed (engine : CorrelationEngine) (X : UUID → Bool) (scored : List Edge) : Prop :=
  ∀ edge ∈ linking engine scored, X edge.left.id = X edge.right.id

theorem Edge.ends {edge : Edge} (h : edge.attaching = true) (hX : X edge.left.id = X edge.right.id) :
    X edge.auxiliary.id = X edge.left.id ∧ X edge.target.id = X edge.left.id := by
  obtain ⟨-, -, ⟨ha, ht⟩ | ⟨ha, ht⟩⟩ := Edge.auxiliary_target h
  · rw [ha, ht]
    exact ⟨rfl, hX.symm⟩
  · rw [ha, ht]
    exact ⟨hX.symm, rfl⟩

/-- Every union tried stands for a link. -/
theorem edge_of_mem_mergeOrder {pair : UUID × UUID} (hp : pair ∈ mergeOrder engine scored) :
    ∃ edge ∈ linking engine scored, (edge.left.id = pair.1 ∧ edge.right.id = pair.2) ∨
      (edge.left.id = pair.2 ∧ edge.right.id = pair.1) := by
  obtain hp | hp := List.mem_append.mp hp
  · obtain ⟨edge, he, rfl⟩ := List.mem_map.mp hp
    exact ⟨edge, (mem_coreEdges.mp he).1, Or.inl ⟨rfl, rfl⟩⟩
  · obtain ⟨edge, he, ha, ht⟩ := edge_of_mem_attachments hp
    obtain ⟨hl, hatt⟩ := mem_auxiliaryEdges.mp he
    refine ⟨edge, hl, ?_⟩
    rw [← ha, ← ht]
    obtain ⟨-, -, ⟨ha, ht⟩ | ⟨ha, ht⟩⟩ := Edge.auxiliary_target hatt
    · exact Or.inl ⟨congrArg _ ha.symm, congrArg _ ht.symm⟩
    · exact Or.inr ⟨congrArg _ ht.symm, congrArg _ ha.symm⟩

theorem Uncrossed.mergeOrder (hX : Uncrossed engine X scored) {pair : UUID × UUID}
    (hp : pair ∈ mergeOrder engine scored) : X pair.1 = X pair.2 := by
  obtain ⟨edge, he, ⟨hl, hr⟩ | ⟨hl, hr⟩⟩ := edge_of_mem_mergeOrder hp
  · rw [← hl, ← hr]
    exact hX edge he
  · rw [← hl, ← hr]
    exact (hX edge he).symm

/-- Nor does a component. -/
theorem Uncrossed.same (hX : Uncrossed engine X scored) {x y : UUID}
    (h : (components rt engine documents scored).Same x y) : X x = X y := by
  have hT : ∀ e ∈ Engine.mergeOrder engine scored, X e.1 = true ↔ X e.2 = true :=
    fun e he => by rw [hX.mergeOrder he]
  exact Bool.eq_iff_iff.mpr (@closed_of_uncrossed _ _ _ _ (fun id => X id = true) hT x y h)

/-- A component without a link inside is a single document. -/
theorem eq_of_unlinked (hd : DistinctIds documents) {a b : UUID}
    (hab : (components rt engine documents scored).Same a b)
    (hno : ∀ edge ∈ linking engine scored,
      (components rt engine documents scored).Same a edge.left.id →
      ¬ (components rt engine documents scored).Same a edge.right.id) : a = b := by
  let T : UUID → Bool := fun x => decide ((components rt engine documents scored).Same a x)
  have hnil : (Engine.mergeOrder engine scored).filter (inside T) = [] := by
    refine List.filter_eq_nil_iff.mpr fun pair hp hin => ?_
    obtain ⟨h₁, h₂⟩ := Bool.and_eq_true_iff.mp hin
    obtain ⟨edge, he, ⟨hl, hr⟩ | ⟨hl, hr⟩⟩ := edge_of_mem_mergeOrder hp
    · exact hno edge he (hl ▸ of_decide_eq_true h₁) (hr ▸ of_decide_eq_true h₂)
    · exact hno edge he (hl ▸ of_decide_eq_true h₂) (hr ▸ of_decide_eq_true h₁)
  have hagree : AgreeOn T (components rt engine documents scored)
      (mergeAll (accept rt documents) ((Engine.mergeOrder engine scored).filter (inside T)) .start) := by
    refine mergeAll_filter_of_closed (extensional_accept hd) _ _ _ (fun _ _ _ => Iff.rfl) ?_
    intro x hx y hxy
    exact decide_eq_true (Components.Same.trans (of_decide_eq_true hx) hxy)
  rw [hnil] at hagree
  exact Components.same_start.mp ((hagree a (decide_eq_true (Components.Same.refl _ _)) b).mp hab)

/-! ## The same links, the same merges -/

theorem pairwise_attachments :
    (attachments engine scored).Pairwise fun p q => p.1 ≤ q.1 := by
  have hfst : ∀ l : List UUID, l.Pairwise (· ≤ ·) →
      (l.filterMap (bestTarget engine scored)).Pairwise fun p q => p.1 ≤ q.1 := by
    intro l hl
    refine List.Pairwise.filterMap (bestTarget engine scored) ?_ hl
    intro a b hab p hp q hq
    obtain ⟨-, -, rfl⟩ := bestTarget_eq_some hp
    obtain ⟨-, -, rfl⟩ := bestTarget_eq_some hq
    exact hab
  exact hfst _ (List.pairwise_insertionSort _ _)

/-- Inside the set, the two edge lists have the same links. -/
def SameLinks (engine : CorrelationEngine) (X : UUID → Bool) (scored scored' : List Edge) : Prop :=
  ∀ edge, X edge.left.id = true → (edge ∈ linking engine scored ↔ edge ∈ linking engine scored')

/-- The tests read the documents of the set only. -/
theorem accept_inside (hd : DistinctIds documents) (hd' : DistinctIds documents')
    (hmem : ∀ d : NormalizedDocument, X d.id = true → (d ∈ documents ↔ d ∈ documents'))
    {ids : List UUID} (hids : ∀ id ∈ ids, X id = true) :
    accept rt documents ids = accept rt documents' ids := by
  have hm : Members documents ids = Members documents' ids := by
    funext document
    exact propext (and_congr_left fun hid => hmem document (hids _ hid))
  rw [Bool.eq_iff_iff, accept_iff hd, accept_iff hd', hm]

theorem agreeOn_inside (hd : DistinctIds documents) (hX : Uncrossed engine X scored) :
    AgreeOn X (components rt engine documents scored)
      (mergeAll (accept rt documents) ((mergeOrder engine scored).filter (inside X)) .start) := by
  refine mergeAll_filter_of_closed (extensional_accept hd) _ _ _ (fun _ _ _ => Iff.rfl) ?_
  intro x hx y hxy
  have heq : X x = X y := hX.same hxy
  rw [← heq]
  exact hx

section
variable (hd : DistinctIds documents) (hd' : DistinctIds documents')
  (h : EdgeList rt engine documents scored) (h' : EdgeList rt engine documents' scored')
  (hX : Uncrossed engine X scored) (hX' : Uncrossed engine X scored')
  (hlinks : SameLinks engine X scored scored')
include hd hd' h h' hX hX' hlinks

omit hX hX' in
theorem coreEdges_inside :
    ((coreEdges engine scored).map Edge.ids).filter (inside X) =
      ((coreEdges engine scored').map Edge.ids).filter (inside X) := by
  rw [List.filter_map, List.filter_map, coreEdges_filter hd h, coreEdges_filter hd' h']
  refine congrArg (List.map Edge.ids) (coreEdges_congr hd (h.filter _) (h'.filter _) fun e _ => ?_)
  have hmem : ∀ s : List Edge, e ∈ linking engine (s.filter (inside X ∘ Edge.ids)) ↔
      e ∈ linking engine s ∧ X e.left.id = true ∧ X e.right.id = true := by
    intro s
    rw [mem_linking, mem_linking, List.mem_filter]
    simp only [Function.comp_apply, inside, Edge.ids, Bool.and_eq_true]
    exact and_right_comm
  rw [hmem, hmem]
  exact and_congr_left fun hin => hlinks e hin.1

omit hd' in
/-- An auxiliary document of the set has the same candidates. -/
theorem bestTarget_inside {a : UUID} (ha : X a = true) :
    bestTarget engine scored a = bestTarget engine scored' a := by
  refine bestTarget_congr hd h h' fun e => ?_
  rw [mem_candidatesOf, mem_candidatesOf, mem_auxiliaryEdges, mem_auxiliaryEdges]
  constructor
  · intro he
    obtain ⟨⟨hl, hatt⟩, rfl⟩ := he
    have hleft := (Edge.ends hatt (hX e hl)).1.symm.trans ha
    exact ⟨⟨(hlinks e hleft).mp hl, hatt⟩, rfl⟩
  · intro he
    obtain ⟨⟨hl, hatt⟩, rfl⟩ := he
    have hleft := (Edge.ends hatt (hX' e hl)).1.symm.trans ha
    exact ⟨⟨(hlinks e hleft).mpr hl, hatt⟩, rfl⟩

omit hd' in
theorem attachments_inside :
    (attachments engine scored).filter (inside X) =
      (attachments engine scored').filter (inside X) := by
  have hnodup : ∀ s : List Edge, (attachments engine s).Nodup :=
    fun s => List.Nodup.of_map _ nodup_attachments
  have hmem : ∀ pair : UUID × UUID, pair ∈ (attachments engine scored).filter (inside X) ↔
      pair ∈ (attachments engine scored').filter (inside X) := by
    intro ⟨a, t⟩
    rw [List.mem_filter, List.mem_filter]
    refine and_congr_left fun hin => ?_
    rw [mem_attachments, mem_attachments,
      bestTarget_inside hd h h' hX hX' hlinks (Bool.and_eq_true_iff.mp hin).1]
  refine @List.Perm.eq_of_pairwise (UUID × UUID) (fun p q => p.1 ≤ q.1) _ _ ?_
    (pairwise_attachments.filter _) (pairwise_attachments.filter _)
    ((List.perm_ext_iff_of_nodup ((hnodup _).filter _) ((hnodup _).filter _)).mpr hmem)
  intro p q hp hq hpq hqp
  have hq' := (hmem q).mpr hq
  exact List.inj_on_of_nodup_map nodup_attachments (List.mem_of_mem_filter hp)
    (List.mem_of_mem_filter hq') (le_antisymm hpq hqp)

theorem mergeOrder_inside :
    (mergeOrder engine scored).filter (inside X) = (mergeOrder engine scored').filter (inside X) := by
  rw [mergeOrder, mergeOrder, List.filter_append, List.filter_append,
    coreEdges_inside hd hd' h h' hlinks, attachments_inside hd h h' hX hX' hlinks]

/-- **A set no link leaves is grouped by its own links.** -/
theorem same_inside (hmem : ∀ d : NormalizedDocument, X d.id = true →
      (d ∈ documents ↔ d ∈ documents')) {x : UUID} (hx : X x = true) (y : UUID) :
    (components rt engine documents scored).Same x y ↔
      (components rt engine documents' scored').Same x y := by
  rw [agreeOn_inside hd hX x hx y, agreeOn_inside hd' hX' x hx y,
    mergeOrder_inside hd hd' h h' hX hX' hlinks]
  have hends : ∀ e ∈ (mergeOrder engine scored').filter (inside X), X e.1 = true ∧ X e.2 = true :=
    fun e he => Bool.and_eq_true_iff.mp (List.mem_filter.mp he).2
  rw [@mergeAll_congr _ _ _ (accept rt documents) (accept rt documents') (fun id => X id = true)
    (fun l hl => accept_inside hd hd' hmem hl) _ hends (closed_start _)]

end

/-! ## Documents that may all stand together -/

/-- Links join all documents of the set: the sales by core links, and every
auxiliary document to one of the sales. -/
structure JoinedBy (engine : CorrelationEngine) (documents : List NormalizedDocument)
    (X : UUID → Bool) (scored : List Edge) : Prop where
  sales : ∀ a ∈ documents, X a.id = true → isAuxiliary a = false →
    ∀ b ∈ documents, X b.id = true → isAuxiliary b = false →
      EqvGen (fun x y => X x = true ∧ (x, y) ∈ (coreEdges engine scored).map Edge.ids) a.id b.id
  auxiliary : ∀ a ∈ documents, X a.id = true → isAuxiliary a = true →
    ∃ edge ∈ auxiliaryEdges engine scored, edge.auxiliary = a

theorem JoinedBy.mono (hj : JoinedBy engine documents X scored)
    (hmem : ∀ d ∈ documents', X d.id = true → d ∈ documents)
    (hlinks : ∀ edge ∈ linking engine scored, X edge.left.id = true ∨ X edge.right.id = true →
      edge ∈ linking engine scored') : JoinedBy engine documents' X scored' where
  sales a ha hxa hsa b hb hxb hsb := by
    refine EqvGen.mono (fun x y hxy => ?_) _ _
      (hj.sales a (hmem a ha hxa) hxa hsa b (hmem b hb hxb) hxb hsb)
    obtain ⟨hx, hin⟩ := hxy
    obtain ⟨edge, he, hids⟩ := List.mem_map.mp hin
    cases hids
    obtain ⟨hl, hcore⟩ := mem_coreEdges.mp he
    exact ⟨hx, List.mem_map_of_mem (mem_coreEdges.mpr ⟨hlinks edge hl (Or.inl hx), hcore⟩)⟩
  auxiliary a ha hxa haux := by
    obtain ⟨edge, he, rfl⟩ := hj.auxiliary a (hmem a ha hxa) hxa haux
    obtain ⟨hl, hatt⟩ := mem_auxiliaryEdges.mp he
    refine ⟨edge, mem_auxiliaryEdges.mpr ⟨hlinks edge hl ?_, hatt⟩, rfl⟩
    obtain ⟨-, -, ⟨ha, -⟩ | ⟨ha, -⟩⟩ := Edge.auxiliary_target hatt
    · exact Or.inl (ha ▸ hxa)
    · exact Or.inr (ha ▸ hxa)

theorem JoinedBy.sale (hj : JoinedBy engine documents X scored)
    (h : EdgeList rt engine documents scored) (hX : Uncrossed engine X scored)
    {a : NormalizedDocument} (ha : a ∈ documents) (hxa : X a.id = true) :
    ∃ b ∈ documents, X b.id = true ∧ isAuxiliary b = false ∧
      EqvGen (fun x y => (x, y) ∈ mergeOrder engine scored) a.id b.id := by
  cases haux : isAuxiliary a with
  | false => exact ⟨a, ha, hxa, haux, .refl _⟩
  | true =>
    obtain ⟨edge, he, rfl⟩ := hj.auxiliary a ha hxa haux
    obtain ⟨t, ht⟩ := isSome_bestTarget he
    have hatt := mem_attachments.mpr ht
    obtain ⟨-, b, hb, hbt, hsale⟩ := attachment_ends h hatt
    have hin : (edge.auxiliary.id, t) ∈ mergeOrder engine scored := List.mem_append_right _ hatt
    have hX' := hX.mergeOrder hin
    exact ⟨b, hb, by rw [hbt, ← hX']; exact hxa, hsale, .rel _ _ (by rw [hbt]; exact hin)⟩

/-- **When every part of the set may stand, all of it ends together.** -/
theorem same_of_joined (hj : JoinedBy engine documents X scored)
    (h : EdgeList rt engine documents scored) (hX : Uncrossed engine X scored)
    (hacc : ∀ ids : List UUID, (∃ id, id ∈ ids) → (∀ id ∈ ids, X id = true) →
      accept rt documents ids = true) {a b : NormalizedDocument} (ha : a ∈ documents)
    (hxa : X a.id = true) (hb : b ∈ documents) (hxb : X b.id = true) :
    (components rt engine documents scored).Same a.id b.id := by
  obtain ⟨a', ha', hxa', hsa, hja⟩ := hj.sale h hX ha hxa
  obtain ⟨b', hb', hxb', hsb, hjb⟩ := hj.sale h hX hb hxb
  have hsales := EqvGen.mono
    (fun x y hxy => List.mem_append_left (attachments engine scored) hxy.2) _ _
    (hj.sales a' ha' hxa' hsa b' hb' hxb' hsb)
  have hconnected : EqvGen (fun x y => (x, y) ∈ mergeOrder engine scored) a.id b.id :=
    .trans _ _ _ hja (.trans _ _ _ hsales (.symm _ _ hjb))
  have hT : ∀ e ∈ mergeOrder engine scored, X e.1 = true ↔ X e.2 = true :=
    fun e he => by rw [hX.mergeOrder he]
  exact @same_of_connected _ _ _ (fun id => X id = true) hacc _ hT _ _ hxa hconnected

end RetailPrintGuard.Correlation.Locality
