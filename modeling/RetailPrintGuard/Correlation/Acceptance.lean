import RetailPrintGuard.Correlation.Engine

/-! # Which components the engine accepts

The tests of `union` on a list of documents, as a property of the set of its
members. -/
namespace RetailPrintGuard.Correlation.Acceptance
open RetailPrintGuard.Common.Python RetailPrintGuard.Common.Domain
open RetailPrintGuard.Library.ConstrainedMerge RetailPrintGuard.Library.ListOrder
open RetailPrintGuard.Correlation.Lines RetailPrintGuard.Correlation.Scoring
open RetailPrintGuard.Correlation.Engine

/-! ## Documents by id -/

/-- No two documents share an id: they come from a primary key. -/
def DistinctIds (documents : List NormalizedDocument) : Prop :=
  (documents.map fun document => document.id).Nodup

variable {documents : List NormalizedDocument}

theorem DistinctIds.eq_of_id (hd : DistinctIds documents) {a b : NormalizedDocument}
    (ha : a ∈ documents) (hb : b ∈ documents) (h : a.id = b.id) : a = b :=
  List.inj_on_of_nodup_map hd ha hb h

theorem DistinctIds.nodup (hd : DistinctIds documents) : documents.Nodup := List.Nodup.of_map _ hd

theorem DistinctIds.filter (hd : DistinctIds documents) (p : NormalizedDocument → Bool) :
    DistinctIds (documents.filter p) :=
  List.Nodup.sublist (List.filter_sublist.map _) hd

theorem byId_eq_some {id : UUID} {document : NormalizedDocument}
    (h : byId documents id = some document) : document ∈ documents ∧ document.id = id := by
  have hm := List.mem_of_find?_eq_some h
  have hp := List.find?_some h
  exact ⟨List.mem_reverse.mp hm, by simpa using hp⟩

theorem byId_of_mem (hd : DistinctIds documents) {document : NormalizedDocument}
    (h : document ∈ documents) : byId documents document.id = some document := by
  cases hf : byId documents document.id with
  | none =>
    have hn := List.find?_eq_none.mp hf document (List.mem_reverse.mpr h)
    simp at hn
  | some found =>
    obtain ⟨hm, hid⟩ := byId_eq_some hf
    rw [hd.eq_of_id hm h hid]

/-- The documents of a list of ids. -/
theorem mem_filterMap_byId (hd : DistinctIds documents) {ids : List UUID}
    {document : NormalizedDocument} :
    document ∈ ids.filterMap (byId documents) ↔ document ∈ documents ∧ document.id ∈ ids := by
  rw [List.mem_filterMap]
  constructor
  · intro h
    obtain ⟨id, hid, hb⟩ := h
    obtain ⟨hm, heq⟩ := byId_eq_some hb
    exact ⟨hm, heq ▸ hid⟩
  · intro h
    exact ⟨document.id, h.2, byId_of_mem hd h.1⟩

theorem separates_precedes (hd : DistinctIds documents) :
    Separates NormalizedDocument.Precedes documents :=
  fun _ ha _ hb h k => hd.eq_of_id ha hb (h.id_eq k)

@[simp] theorem mem_sortDocuments {document : NormalizedDocument} :
    document ∈ sortDocuments documents ↔ document ∈ documents := mem_sorted

theorem DistinctIds.sort (hd : DistinctIds documents) : DistinctIds (sortDocuments documents) :=
  (((List.perm_insertionSort _ documents).map _).nodup_iff).mpr hd

theorem sortDocuments_filter (hd : DistinctIds documents) (p : NormalizedDocument → Bool) :
    sortDocuments (documents.filter p) = (sortDocuments documents).filter p :=
  (filter_insertionSort (separates_precedes hd) p).symm

theorem sortDocuments_sorted {ordered : List NormalizedDocument}
    (hs : ordered.Pairwise NormalizedDocument.Precedes) : sortDocuments ordered = ordered :=
  hs.insertionSort_eq

theorem pairwise_sortDocuments (documents : List NormalizedDocument) :
    (sortDocuments documents).Pairwise NormalizedDocument.Precedes :=
  List.pairwise_insertionSort _ _

/-! ## What is accepted -/

theorem timeSpan_le {n : Int} (hn : 0 ≤ n) :
    timeSpan documents ≤ n ↔ ∀ a ∈ documents, ∀ b ∈ documents, elapsed a b ≤ n := by
  unfold timeSpan elapsed
  cases hmax : (documents.map fun item => item.documentTime.micros).max? with
  | none =>
    have hnil := List.map_eq_nil_iff.mp (List.max?_eq_none_iff.mp hmax)
    simp [hnil, hn]
  | some latest =>
    cases hmin : (documents.map fun item => item.documentTime.micros).min? with
    | none =>
      have hnil := List.map_eq_nil_iff.mp (List.min?_eq_none_iff.mp hmin)
      simp [hnil] at hmax
    | some earliest =>
      obtain ⟨hlm, hl⟩ := List.max?_eq_some_iff.mp hmax
      obtain ⟨hem, he⟩ := List.min?_eq_some_iff.mp hmin
      simp only [hmax, hmin, Option.getD_some]
      constructor
      · intro h a ha b hb
        have hb' := hl _ (List.mem_map_of_mem hb)
        have ha' := he _ (List.mem_map_of_mem ha)
        omega
      · intro h
        obtain ⟨b, hb, rfl⟩ := List.mem_map.mp hlm
        obtain ⟨a, ha, rfl⟩ := List.mem_map.mp hem
        exact h a ha b hb

/-- Every two members carry the same identity. -/
def OneIdentity (identity : NormalizedDocument → Option String)
    (members : NormalizedDocument → Prop) : Prop :=
  ∀ a, members a → (identity a).isSome ∧ ∀ b, members b → identity a = identity b

/-- A component that may stand: no two of its documents conflict, kitchen
tickets alone are one dispatch, and tickets and baselines together open one
episode or carry one identity. -/
structure Admissible (rt : Runtime) (members : NormalizedDocument → Prop) : Prop where
  compatible : ∀ a, members a → ∀ b, members b →
    identityConflict rt a b = none ∧ episodeBoundaryConflict a b = none
  dispatch : (∀ a, members a → a.type = .kitchenOrder) →
    ∀ a, members a → ∀ b, members b → elapsed a b ≤ seconds crossDepartmentWindowSeconds
  baseline : ∀ kitchen, members kitchen → kitchen.type = .kitchenOrder →
    ∀ management, members management → management.type = .managementDocument →
    openingSource management = true →
    (∀ a, members a → openingSource a = true → ∀ b, members b → openingSource b = true →
      elapsed a b ≤ seconds kitchenBaselineWindowSeconds) ∨
    OneIdentity (fun item => rt.normalise item.orderCode)
      (fun item => members item ∧ openingSource item = true) ∨
    OneIdentity (strongReference rt) (fun item => members item ∧ openingSource item = true)

variable {rt : Runtime}

theorem pairwiseCompatible_iff :
    pairwiseCompatible rt documents = true ↔ ∀ a ∈ documents, ∀ b ∈ documents,
      identityConflict rt a b = none ∧ episodeBoundaryConflict a b = none := by
  simp only [pairwiseCompatible, List.all_eq_true, Bool.and_eq_true, Option.isNone_iff_eq_none]
  refine forall_orderedPairs (R := fun a b =>
    identityConflict rt a b = none ∧ episodeBoundaryConflict a b = none) ?_ ?_
  · intro a b h
    exact ⟨identityConflict_symm rt h.1, episodeBoundaryConflict_symm h.2⟩
  · intro a
    exact ⟨identityConflict_refl rt a, episodeBoundaryConflict_refl a⟩

theorem kitchenChain_eq_false :
    kitchenChain documents = false ↔ ((∀ a ∈ documents, a.type = .kitchenOrder) →
      ∀ a ∈ documents, ∀ b ∈ documents, elapsed a b ≤ seconds crossDepartmentWindowSeconds) := by
  rw [← timeSpan_le (by decide)]
  cases documents with
  | nil => simp [kitchenChain, timeSpan, seconds]
  | cons d ds => simp [kitchenChain, -List.all_cons, -List.mem_cons, List.all_eq_true]

/-- One value in a list that has an element. -/
theorem dedup_length_eq_one {α : Type} [DecidableEq α] {l : List α} {a : α} (ha : a ∈ l) :
    l.dedup.length = 1 ↔ ∀ b ∈ l, b = a := by
  constructor
  · intro h b hb
    obtain ⟨c, hc⟩ := List.length_eq_one_iff.mp h
    have ha' : a ∈ l.dedup := List.mem_dedup.mpr ha
    have hb' : b ∈ l.dedup := List.mem_dedup.mpr hb
    rw [hc, List.mem_singleton] at ha' hb'
    rw [ha', hb']
  · intro h
    have hp : l.dedup.Perm [a] := by
      refine (List.perm_ext_iff_of_nodup (List.nodup_dedup l) (List.nodup_singleton a)).mpr ?_
      intro b
      rw [List.mem_dedup, List.mem_singleton]
      exact ⟨h b, fun hb => hb ▸ ha⟩
    simpa using hp.length_eq

theorem oneIdentity_iff {identity : NormalizedDocument → Option String}
    {d : NormalizedDocument} (hd : d ∈ documents) :
    ((documents.map identity).all Option.isSome = true ∧
      (documents.map identity).dedup.length = 1) ↔
    OneIdentity identity (· ∈ documents) := by
  rw [dedup_length_eq_one (List.mem_map_of_mem hd)]
  simp only [List.all_map, List.all_eq_true, Function.comp_apply, List.forall_mem_map]
  constructor
  · intro h a ha
    exact ⟨h.1 a ha, fun b hb => (h.2 a ha).trans (h.2 b hb).symm⟩
  · intro h
    exact ⟨fun a ha => (h a ha).1, fun b hb => ((h d hd).2 b hb).symm⟩

theorem sharedStrongSaleIdentity_iff (rt : Runtime) {a b : NormalizedDocument} (ha : a ∈ documents)
    (hb : b ∈ documents) (hne : a ≠ b) :
    sharedStrongSaleIdentity rt documents = true ↔
      OneIdentity (fun item => rt.normalise item.orderCode) (· ∈ documents) ∨
      OneIdentity (strongReference rt) (· ∈ documents) := by
  have hlen : ¬ documents.length < 2 := by
    have hs : [a, b].Subperm documents :=
      List.Nodup.subperm (by simp [hne]) (by simp [ha, hb])
    exact Nat.not_lt.mpr hs.length_le
  rw [← oneIdentity_iff ha, ← oneIdentity_iff ha]
  simp [sharedStrongSaleIdentity, hlen]

theorem baselineChain_eq_false :
    baselineChain rt documents = false ↔
      ∀ kitchen ∈ documents, kitchen.type = .kitchenOrder →
      ∀ management ∈ documents, management.type = .managementDocument →
      openingSource management = true →
      (∀ a, a ∈ documents → openingSource a = true → ∀ b, b ∈ documents →
        openingSource b = true → elapsed a b ≤ seconds kitchenBaselineWindowSeconds) ∨
      OneIdentity (fun item => rt.normalise item.orderCode)
        (fun item => item ∈ documents ∧ openingSource item = true) ∨
      OneIdentity (strongReference rt)
        (fun item => item ∈ documents ∧ openingSource item = true) := by
  have hmem : ∀ item, item ∈ documents.filter openingSource ↔
      item ∈ documents ∧ openingSource item = true := fun _ => List.mem_filter
  have hopen : ∀ item : NormalizedDocument, item.type = .kitchenOrder →
      openingSource item = true := by
    intro item h
    simp [openingSource, h]
  have hspan : (∀ a, a ∈ documents → openingSource a = true → ∀ b, b ∈ documents →
      openingSource b = true → elapsed a b ≤ seconds kitchenBaselineWindowSeconds) ↔
      timeSpan (documents.filter openingSource) ≤ seconds kitchenBaselineWindowSeconds := by
    rw [timeSpan_le (by decide)]
    simp only [hmem]
    exact ⟨fun h a ha b hb => h a ha.1 ha.2 b hb.1 hb.2,
      fun h a ha ha' b hb hb' => h a ⟨ha, ha'⟩ b ⟨hb, hb'⟩⟩
  constructor
  · intro h kitchen hk hkt management hm hmt hmo
    have hko := hopen kitchen hkt
    have hne : kitchen ≠ management := by
      intro heq
      rw [heq, hmt] at hkt
      cases hkt
    have hs := sharedStrongSaleIdentity_iff rt ((hmem _).mpr ⟨hk, hko⟩)
      ((hmem _).mpr ⟨hm, hmo⟩) hne
    simp only [hmem] at hs
    rw [← hs, hspan]
    have hanyk : (documents.filter openingSource).any (fun item => item.type == .kitchenOrder) =
        true := List.any_eq_true.mpr ⟨kitchen, (hmem _).mpr ⟨hk, hko⟩, by simp [hkt]⟩
    have hanym : (documents.filter openingSource).any
        (fun item => item.type == .managementDocument) = true :=
      List.any_eq_true.mpr ⟨management, (hmem _).mpr ⟨hm, hmo⟩, by simp [hmt]⟩
    simp only [baselineChain, hanyk, hanym, Bool.true_and] at h
    by_cases hle : timeSpan (documents.filter openingSource) ≤ seconds kitchenBaselineWindowSeconds
    · exact Or.inl hle
    · refine Or.inr ?_
      simpa [not_le.mp hle] using h
  · intro h
    by_contra hc
    simp only [baselineChain, Bool.not_eq_false, Bool.and_eq_true, List.any_eq_true, beq_iff_eq,
      decide_eq_true_eq, Bool.not_eq_true'] at hc
    obtain ⟨⟨⟨⟨kitchen, hk, hkt⟩, management, hm, hmt⟩, hlt⟩, hshared⟩ := hc
    have hne : kitchen ≠ management := by
      intro heq
      rw [heq, hmt] at hkt
      cases hkt
    have hs := sharedStrongSaleIdentity_iff rt hk hm hne
    simp only [hmem] at hs
    have hcases := h kitchen ((hmem _).mp hk).1 hkt management ((hmem _).mp hm).1 hmt
      ((hmem _).mp hm).2
    rw [← hs, hspan, hshared] at hcases
    simp only [Bool.false_eq_true, or_false] at hcases
    omega

/-- The tests of `union` say exactly that the component may stand. -/
theorem acceptable_iff : acceptable rt documents = true ↔ Admissible rt (· ∈ documents) := by
  simp only [acceptable, Bool.and_eq_true, Bool.not_eq_true', pairwiseCompatible_iff,
    kitchenChain_eq_false, baselineChain_eq_false]
  constructor
  · intro h
    exact ⟨h.1.1, h.1.2, h.2⟩
  · intro h
    exact ⟨⟨h.compatible, h.dispatch⟩, h.baseline⟩

/-- The documents of a list of ids, as a set. -/
def Members (documents : List NormalizedDocument) (ids : List UUID)
    (document : NormalizedDocument) : Prop := document ∈ documents ∧ document.id ∈ ids

theorem accept_iff (hd : DistinctIds documents) {ids : List UUID} :
    accept rt documents ids = true ↔ Admissible rt (Members documents ids) := by
  have hm : (· ∈ ids.filterMap (byId documents)) = Members documents ids :=
    funext fun _ => propext (mem_filterMap_byId hd)
  rw [accept, acceptable_iff, hm]

theorem extensional_accept (hd : DistinctIds documents) : Extensional (accept rt documents) := by
  intro l l' h
  have hm : Members documents l = Members documents l' := by
    funext document
    simp [Members, h]
  rw [Bool.eq_iff_iff, accept_iff hd, accept_iff hd, hm]

/-- Parts of an admissible component are admissible, but for kitchen tickets
on their own that are not one dispatch. -/
theorem Admissible.mono {members part : NormalizedDocument → Prop} (h : Admissible rt members)
    (hsub : ∀ a, part a → members a)
    (hdispatch : (∀ a, part a → a.type = .kitchenOrder) →
      ∀ a, part a → ∀ b, part b → elapsed a b ≤ seconds crossDepartmentWindowSeconds) :
    Admissible rt part where
  compatible a ha b hb := h.compatible a (hsub a ha) b (hsub b hb)
  dispatch := hdispatch
  baseline kitchen hk hkt management hm hmt hmo := by
    obtain hnear | hone | hone :=
      h.baseline kitchen (hsub _ hk) hkt management (hsub _ hm) hmt hmo
    · exact Or.inl fun a ha hao b hb hbo => hnear a (hsub a ha) hao b (hsub b hb) hbo
    · refine Or.inr (Or.inl fun a ha => ?_)
      obtain ⟨hs, heq⟩ := hone a ⟨hsub a ha.1, ha.2⟩
      exact ⟨hs, fun b hb => heq b ⟨hsub b hb.1, hb.2⟩⟩
    · refine Or.inr (Or.inr fun a ha => ?_)
      obtain ⟨hs, heq⟩ := hone a ⟨hsub a ha.1, ha.2⟩
      exact ⟨hs, fun b hb => heq b ⟨hsub b hb.1, hb.2⟩⟩

theorem admissible_singleton (document : NormalizedDocument) :
    Admissible rt (· = document) where
  compatible a ha b hb := by
    rw [ha, hb]
    exact ⟨identityConflict_refl rt document, episodeBoundaryConflict_refl document⟩
  dispatch _ a ha b hb := by
    rw [ha, hb, elapsed, Int.sub_self]
    decide
  baseline kitchen hk hkt management hm hmt _ := by
    rw [hk] at hkt
    rw [hm, hkt] at hmt
    cases hmt

end RetailPrintGuard.Correlation.Acceptance
