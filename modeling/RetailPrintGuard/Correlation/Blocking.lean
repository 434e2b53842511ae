import RetailPrintGuard.Correlation.Auxiliary

/-! # In-memory blocking

The worker blocks documents on exact keys and the engine scores normalised
ones. Blocking loses no link exactly as far as one key is not spelled in two
ways and a link does not rest on an embedded reference alone. -/
namespace RetailPrintGuard.Correlation.Blocking
open RetailPrintGuard.Common.Python RetailPrintGuard.Common.Domain
open RetailPrintGuard.Library.ConstrainedMerge RetailPrintGuard.Library.ListOrder
open RetailPrintGuard.Correlation.Lines RetailPrintGuard.Correlation.Scoring
open RetailPrintGuard.Correlation.Engine RetailPrintGuard.Correlation.Acceptance
open RetailPrintGuard.Correlation.Partition RetailPrintGuard.Correlation.Auxiliary

section
variable (rt : Runtime)

/-- The worker's `_printed_counter_suffix`: the digits after the last dash or
slash of the stripped value. -/
def printedCounterSuffix (value : Option String) : Option String :=
  match value with
  | none => none
  | some value =>
    if value = "" then none
    else
      let tail := (rt.upper (rt.strip value)).toList.reverse.takeWhile fun char =>
        char != '-' && char != '/'
      if !tail.isEmpty && tail.all rt.isDigit then some (String.ofList tail.reverse) else none

/-- `blocks[(name, value)].append(document)` under `if value`. -/
def keyFor (name : String) (value : Option String) : List (String × String) :=
  match value with
  | some value => if value = "" then [] else [(name, value)]
  | none => []

/-- The blocks a document is put into. -/
def blockKeys (document : NormalizedDocument) : List (String × String) :=
  keyFor "order" document.orderCode ++
  keyFor "external" document.externalDocumentCode ++
  keyFor "table" document.tableCode ++
  keyFor "job" (some document.sourceJobId) ++
  (if document.type = .commercialDocument then
    keyFor "commercial_link" document.externalDocumentCode else []) ++
  keyFor "commercial_link" document.commercialReferenceCode ++
  (if document.type = .commercialDocument then
    keyFor "commercial_suffix" document.externalDocumentCodeSuffix else []) ++
  (if referringTypes document.type then
    ((printedCounterSuffix rt document.commercialReferenceCode).map
      fun suffix => ("commercial_suffix", suffix)).toList else [])

/-- `blocks[key]`: a document put twice under one key stands there twice. -/
def block (loaded : List NormalizedDocument) (key : String × String) : List NormalizedDocument :=
  loaded.flatMap fun document =>
    ((blockKeys rt document).filter (· == key)).map fun _ => document

def candidatePairs (loaded : List NormalizedDocument) (seedIds : List UUID)
    (windowSeconds : Nat) : List (UUID × UUID) :=
  let keys := (loaded.flatMap (blockKeys rt)).dedup
  keys.flatMap fun key =>
    ((orderedPairs (block rt loaded key)).filter fun pair =>
      (seedIds.contains pair.1.id || seedIds.contains pair.2.id) &&
        decide (timeDelta pair.1 pair.2 ≤ windowSeconds * 1000000)).map
      fun pair => (pair.1.id, pair.2.id)

/-- Two documents stand in a common block. -/
def SharesBlock (a b : NormalizedDocument) : Prop := ∃ key ∈ blockKeys rt a, key ∈ blockKeys rt b

end

theorem timeDelta_comm (a b : NormalizedDocument) : timeDelta a b = timeDelta b a :=
  Timestamp.distance_comm _ _

variable {rt : Runtime} {engine : CorrelationEngine} {documents : List NormalizedDocument}
  {seedIds : List UUID} {windowSeconds : Nat}

theorem SharesBlock.symm {a b : NormalizedDocument} (h : SharesBlock rt a b) :
    SharesBlock rt b a := by
  obtain ⟨key, ha, hb⟩ := h
  exact ⟨key, hb, ha⟩

theorem mem_block {key : String × String} {document : NormalizedDocument} :
    document ∈ block rt documents key ↔ document ∈ documents ∧ key ∈ blockKeys rt document := by
  simp only [block, List.mem_flatMap, List.mem_map, List.mem_filter, beq_iff_eq]
  constructor
  · intro h
    obtain ⟨_, hm, _, ⟨hk, rfl⟩, rfl⟩ := h
    exact ⟨hm, hk⟩
  · intro h
    exact ⟨document, h.1, key, ⟨h.2, rfl⟩, rfl⟩

/-- The pairs blocking forms: a common block, a seed, and the window. -/
theorem listed_candidatePairs (hd : DistinctIds documents) {a b : NormalizedDocument}
    (ha : a ∈ documents) (hb : b ∈ documents) (hne : a ≠ b) :
    Listed (candidatePairs rt documents seedIds windowSeconds) a.id b.id ↔
      SharesBlock rt a b ∧ (a.id ∈ seedIds ∨ b.id ∈ seedIds) ∧
        timeDelta a b ≤ windowSeconds * 1000000 := by
  have hmem : ∀ x y : NormalizedDocument, x ∈ documents → y ∈ documents →
      ((x.id, y.id) ∈ candidatePairs rt documents seedIds windowSeconds ↔
        ∃ key, (x, y) ∈ orderedPairs (block rt documents key) ∧
          (x.id ∈ seedIds ∨ y.id ∈ seedIds) ∧ timeDelta x y ≤ windowSeconds * 1000000) := by
    intro x y hx hy
    simp only [candidatePairs, List.mem_flatMap, List.mem_map, List.mem_filter, List.mem_dedup,
      Bool.and_eq_true, Bool.or_eq_true, List.contains_iff_mem, decide_eq_true_eq]
    constructor
    · intro h
      obtain ⟨key, -, ⟨x', y'⟩, ⟨hp, hs, ht⟩, heq⟩ := h
      obtain ⟨hx', hy'⟩ := mem_of_mem_orderedPairs hp
      have hxx := hd.eq_of_id (mem_block.mp hx').1 hx (congrArg Prod.fst heq)
      have hyy := hd.eq_of_id (mem_block.mp hy').1 hy (congrArg Prod.snd heq)
      subst hxx hyy
      exact ⟨key, hp, hs, ht⟩
    · intro h
      obtain ⟨key, hp, hs, ht⟩ := h
      obtain ⟨hx', -⟩ := mem_of_mem_orderedPairs hp
      exact ⟨key, ⟨x, hx, (mem_block.mp hx').2⟩, (x, y), ⟨hp, hs, ht⟩, rfl⟩
  unfold Listed
  rw [hmem a b ha hb, hmem b a hb ha, timeDelta_comm b a]
  constructor
  · intro h
    obtain ⟨key, hp, hs, ht⟩ | ⟨key, hp, hs, ht⟩ := h
    · obtain ⟨hx, hy⟩ := mem_of_mem_orderedPairs hp
      exact ⟨⟨key, (mem_block.mp hx).2, (mem_block.mp hy).2⟩, hs, ht⟩
    · obtain ⟨hx, hy⟩ := mem_of_mem_orderedPairs hp
      exact ⟨⟨key, (mem_block.mp hy).2, (mem_block.mp hx).2⟩, hs.symm, ht⟩
  · intro h
    obtain ⟨⟨key, hka, hkb⟩, hs, ht⟩ := h
    obtain hp | hp := orderedPairs_total (mem_block.mpr ⟨ha, hka⟩) (mem_block.mpr ⟨hb, hkb⟩) hne
    · exact Or.inl ⟨key, hp, hs, ht⟩
    · exact Or.inr ⟨key, hp, hs.symm, ht⟩

/-! ## The result depends on the linking edges alone -/

theorem pairwise_uniquePairs {candidates : List (UUID × UUID)} :
    (uniquePairs documents candidates).Pairwise PairBefore := by
  have : Std.Total PairBefore := ⟨fun a b => by unfold PairBefore; grind⟩
  have : IsTrans (UUID × UUID) PairBefore := ⟨fun a b c => by unfold PairBefore; grind⟩
  exact List.pairwise_insertionSort _ _

theorem pairwise_edges {candidates : List (UUID × UUID)} :
    (edges rt engine documents candidates).Pairwise fun e f => PairBefore e.ids f.ids := by
  refine pairwise_uniquePairs.filterMap _ ?_
  intro p q hpq e he f hf
  rwa [scoredEdge_ids he, scoredEdge_ids hf]

/-- Candidate pairs with the same links give the same transactions. -/
theorem correlatePairs_congr (hd : DistinctIds documents) {candidates candidates' : List (UUID × UUID)}
    (h : ∀ e, e ∈ linking engine (edges rt engine documents candidates) ↔
      e ∈ linking engine (edges rt engine documents candidates')) :
    correlatePairs rt engine documents candidates = correlatePairs rt engine documents candidates' := by
  have hlink : linking engine (edges rt engine documents candidates) =
      linking engine (edges rt engine documents candidates') := by
    have hp := (List.perm_ext_iff_of_nodup (nodup_edges.filter _) (nodup_edges.filter _)).mpr h
    refine @List.Perm.eq_of_pairwise Edge (fun e f => PairBefore e.ids f.ids) _ _ ?_
      (pairwise_edges.filter _) (pairwise_edges.filter _) hp
    intro e f he hf hef hfe
    have he' := ((mem_edges hd).mp (mem_linking.mp he).1).1
    have hf' := ((mem_edges hd).mp (mem_linking.mp hf).1).1
    have hids : e.left.id = f.left.id ∧ e.right.id = f.right.id := by
      unfold PairBefore Edge.ids at hef hfe
      grind
    exact he'.eq_of_ids hd hf' hids.1 hids.2
  have hattach : attachments engine (edges rt engine documents candidates) =
      attachments engine (edges rt engine documents candidates') := by
    have hbest : ∀ a, bestTarget engine (edges rt engine documents candidates) a =
        bestTarget engine (edges rt engine documents candidates') a := by
      intro a
      simp only [bestTarget, auxiliaryEdges, hlink]
    simp only [attachments, auxiliaryEdges, hlink]
    exact List.filterMap_congr fun a _ => hbest a
  have hcomp : components rt engine documents (edges rt engine documents candidates) =
      components rt engine documents (edges rt engine documents candidates') := by
    rw [components, components, mergeOrder, mergeOrder, hattach, coreEdges, coreEdges, hlink]
  have hbuild : ∀ group, buildTransaction rt engine (edges rt engine documents candidates) group =
      buildTransaction rt engine (edges rt engine documents candidates') group := by
    intro group
    simp only [buildTransaction, correlationResult, relevantEdges, hlink]
  simp only [correlatePairs, hcomp, funext hbuild]

/-! ## Every link shares a block -/

theorem mem_keyFor {name value : String} (h : value ≠ "") : (name, value) ∈ keyFor name (some value) := by
  simp [keyFor, h]

theorem ne_empty_of_normalise {value : String} (h : (rt.normalise (some value)).isSome = true) :
    value ≠ "" := by
  intro he
  rw [he, Runtime.normalise_empty] at h
  cases h

/-- The two texts are not two spellings of one code. -/
def OneSpelling (rt : Runtime) (a b : Option String) : Prop :=
  (rt.normalise a).isSome = true → rt.normalise a = rt.normalise b → a = b

/-- Two documents do not spell an order, a table or a document code of the
other in a different way, nor the commercial reference to it. -/
structure SpelledAlike (rt : Runtime) (a b : NormalizedDocument) : Prop where
  order : OneSpelling rt a.orderCode b.orderCode
  table : OneSpelling rt a.tableCode b.tableCode
  external : OneSpelling rt a.externalDocumentCode b.externalDocumentCode
  reference : OneSpelling rt a.commercialReferenceCode b.externalDocumentCode

variable {left right : NormalizedDocument}

theorem mem_keyFor_of_normalise (name : String) {a b : Option String}
    (hspell : OneSpelling rt a b) (hs : (rt.normalise a).isSome = true)
    (heq : rt.normalise a = rt.normalise b) : ∃ key ∈ keyFor name a, key ∈ keyFor name b := by
  obtain rfl := hspell hs heq
  cases a with
  | none => simp at hs
  | some value =>
    exact ⟨(name, value), mem_keyFor (ne_empty_of_normalise hs), mem_keyFor (ne_empty_of_normalise hs)⟩

theorem sharesBlock_of_order (h : SpelledAlike rt left right)
    (hs : (rt.normalise left.orderCode).isSome = true)
    (heq : rt.normalise left.orderCode = rt.normalise right.orderCode) :
    SharesBlock rt left right := by
  obtain ⟨key, ha, hb⟩ := mem_keyFor_of_normalise "order" h.order hs heq
  exact ⟨key, by simp [blockKeys, ha], by simp [blockKeys, hb]⟩

theorem sharesBlock_of_table (h : SpelledAlike rt left right)
    (hs : (rt.normalise left.tableCode).isSome = true)
    (heq : rt.normalise left.tableCode = rt.normalise right.tableCode) :
    SharesBlock rt left right := by
  obtain ⟨key, ha, hb⟩ := mem_keyFor_of_normalise "table" h.table hs heq
  exact ⟨key, by simp [blockKeys, ha], by simp [blockKeys, hb]⟩

theorem sharesBlock_of_external (h : SpelledAlike rt left right)
    (hs : (rt.normalise left.externalDocumentCode).isSome = true)
    (heq : rt.normalise left.externalDocumentCode = rt.normalise right.externalDocumentCode) :
    SharesBlock rt left right := by
  obtain ⟨key, ha, hb⟩ := mem_keyFor_of_normalise "external" h.external hs heq
  exact ⟨key, by simp [blockKeys, ha], by simp [blockKeys, hb]⟩

/-- A commercial reference to the progressive of a fiscal document. -/
theorem sharesBlock_of_reference {fiscal referring : NormalizedDocument}
    (h : SpelledAlike rt referring fiscal) (hf : fiscal.type = .commercialDocument)
    (hs : (rt.normalise referring.commercialReferenceCode).isSome = true)
    (heq : rt.normalise referring.commercialReferenceCode =
      rt.normalise fiscal.externalDocumentCode) :
    SharesBlock rt referring fiscal := by
  obtain ⟨key, ha, hb⟩ := mem_keyFor_of_normalise "commercial_link" h.reference hs heq
  exact ⟨key, by simp [blockKeys, ha], by simp [blockKeys, hf, hb]⟩

theorem sharesBlock_of_job (hne : left.sourceJobId ≠ "") (h : left.sourceJobId = right.sourceJobId) :
    SharesBlock rt left right := by
  have hl : ("job", left.sourceJobId) ∈ keyFor "job" (some left.sourceJobId) := mem_keyFor hne
  have hr : ("job", left.sourceJobId) ∈ keyFor "job" (some right.sourceJobId) := by
    rw [← h]
    exact mem_keyFor hne
  exact ⟨("job", left.sourceJobId), by simp [blockKeys, hl], by simp [blockKeys, hr]⟩

/-! ### The weighted score -/

open CorrelationEngine

theorem roundHalfEven_le {num den bound : Int} (hden : 0 < den) (h : num ≤ bound * den) :
    roundHalfEven num den ≤ bound := by
  have hsign : den.sign = 1 := Int.sign_eq_one_of_pos hden
  have habs : (den.natAbs : Int) = den := Int.natAbs_of_nonneg hden.le
  simp only [roundHalfEven, hsign, habs, Int.mul_one]
  have hdiv := Int.mul_ediv_add_emod num den
  have hmod := Int.emod_nonneg num hden.ne'
  have hlt : num / den ≤ bound := Int.ediv_le_of_le_mul hden h
  by_cases heq : num / den = bound
  · -- then there is no remainder to round up
    have hr : num % den ≤ 0 := by
      rw [heq, Int.mul_comm] at hdiv
      omega
    split
    · exact hlt
    · omega
  · split
    · exact hlt
    · split
      · omega
      · split <;> omega

theorem lineCriterion_weight_le : (lineCriterion rt left right).weight ≤ 12 := by
  simp only [lineCriterion]
  cases h : lineSimilarity rt left right with
  | none => simp
  | some pair =>
    obtain ⟨common, all⟩ := pair
    have hle := lineSimilarity_le h
    by_cases hall : all = 0
    · have hc : common = 0 := by omega
      simp [hall, hc, roundHalfEven]
    · have hr : roundHalfEven (12 * (common : Int)) all ≤ 12 :=
        roundHalfEven_le (by omega) (by omega)
      simp only
      omega

theorem matchedWeight_cons_le {item : Criterion} {criteria : List Criterion} {weight total : Nat}
    (hitem : item.weight ≤ weight) (hrest : matchedWeight criteria ≤ total) :
    matchedWeight (item :: criteria) ≤ weight + total := by
  rw [matchedWeight_cons]
  split <;> omega

theorem matchedWeight_unmatched_le {item : Criterion} {criteria : List Criterion} {total : Nat}
    (hitem : item.matched = false) (hrest : matchedWeight criteria ≤ total) :
    matchedWeight (item :: criteria) ≤ total := by
  rw [matchedWeight_cons, hitem]
  simpa using hrest

theorem timeCriterion_weight_le {left right : NormalizedDocument} :
    (engine.timeCriterion left right).weight ≤ 12 := by
  simp only [timeCriterion]
  split_ifs <;> omega

theorem amountCriterion_weight_le {left right : NormalizedDocument} :
    (amountCriterion left right).weight ≤ 8 := by
  simp only [amountCriterion]
  split_ifs <;> omega

/-- A weighted score of 55 needs a common order, table, progressive or
reference: time, amounts, lines, operator, terminal and device give 54. -/
theorem scorePair_le (horder : (exact rt "order_code" 35 left.orderCode right.orderCode).matched = false)
    (hprog : (progressiveCriterion rt left right).matched = false)
    (htable : (exact rt "table_code" 12 left.tableCode right.tableCode).matched = false)
    (href : (referenceCriterion rt left right).matched = false) :
    (engine.scorePair rt left right).score ≤ 54 := by
  have hamounts : matchedWeight [amountCriterion left right, lineCriterion rt left right,
      sequenceCriterion left right, deviceCriterion left right] ≤ 8 + (12 + (8 + (2 + 0))) :=
    matchedWeight_cons_le amountCriterion_weight_le
      (matchedWeight_cons_le lineCriterion_weight_le
        (matchedWeight_cons_le (Nat.le_refl 8)
          (matchedWeight_cons_le (Nat.le_refl 2) (Nat.le_refl 0))))
  have htimes : matchedWeight (referenceCriterion rt left right :: engine.timeCriterion left right ::
      dateCriterion left right :: _) ≤ 12 + (3 + (8 + (12 + (8 + (2 + 0))))) :=
    matchedWeight_unmatched_le href (matchedWeight_cons_le timeCriterion_weight_le
      (matchedWeight_cons_le (Nat.le_refl 3) hamounts))
  have hcodes : matchedWeight (exact rt "operator_code" 5 left.operatorCode right.operatorCode ::
      exact rt "terminal_code" 4 left.terminalCode right.terminalCode ::
      exact rt "source_session" 0 left.sourceSessionId right.sourceSessionId :: _) ≤
        5 + (4 + (0 + (12 + (3 + (8 + (12 + (8 + (2 + 0)))))))) :=
    matchedWeight_cons_le (Nat.le_refl 5)
      (matchedWeight_cons_le (Nat.le_refl 4) (matchedWeight_cons_le (Nat.le_refl 0) htimes))
  have hsum : matchedWeight (engine.scoreCriteria rt left right) ≤ 54 :=
    matchedWeight_unmatched_le horder
      (matchedWeight_unmatched_le hprog (matchedWeight_unmatched_le htable hcodes))
  simp only [scorePair]
  split
  · omega
  · exact (Nat.min_le_right _ _).trans hsum

/-! ### Protocol-specific links -/

theorem followsAtTable_table {earlier later : NormalizedDocument} {limit : Nat}
    (h : followsAtTable rt earlier later limit = true) :
    (rt.normalise earlier.tableCode).isSome = true ∧
      rt.normalise earlier.tableCode = rt.normalise later.tableCode := by
  simp only [followsAtTable, Bool.and_eq_true, beq_iff_eq] at h
  exact ⟨h.1.1.1.1, h.1.1.1.2⟩

theorem sequencePair_table {earlier later : NormalizedDocument} {limit : Nat} {first : Criterion}
    {weights : Nat × Nat} {before after : String} {score : PairScore}
    (h : sequencePair rt left right earlier later limit first weights before after = some score) :
    (rt.normalise earlier.tableCode).isSome = true ∧
      rt.normalise earlier.tableCode = rt.normalise later.tableCode := by
  unfold sequencePair at h
  split at h
  · exact followsAtTable_table (by assumption)
  · cases h

/-- A link of documents at one table, in either orientation. -/
theorem sharesBlock_of_tables (h : SpelledAlike rt left right) (h' : SpelledAlike rt right left)
    {a b : NormalizedDocument} (hab : (a = left ∧ b = right) ∨ (a = right ∧ b = left))
    (ht : (rt.normalise a.tableCode).isSome = true ∧
      rt.normalise a.tableCode = rt.normalise b.tableCode) : SharesBlock rt left right := by
  obtain ⟨rfl, rfl⟩ | ⟨rfl, rfl⟩ := hab
  · exact sharesBlock_of_table h ht.1 ht.2
  · exact (sharesBlock_of_table h' ht.1 ht.2).symm

/-- Two documents in either orientation. -/
def Oriented (left right a b : NormalizedDocument) : Prop :=
  (a = left ∧ b = right) ∨ (a = right ∧ b = left)

/-- What a match on a commercial reference says. -/
theorem commercialReferencePair_spec {score : PairScore}
    (hs : engine.commercialReferencePair rt left right = some score) :
    ∃ referring fiscal, Oriented left right referring fiscal ∧ fiscal.type = .commercialDocument ∧
      (((rt.normalise referring.commercialReferenceCode).isSome = true ∧
        rt.normalise referring.commercialReferenceCode =
          rt.normalise fiscal.externalDocumentCode) ∨
      ((rt.normalise referring.tableCode).isSome = true ∧
        rt.normalise referring.tableCode = rt.normalise fiscal.tableCode)) := by
  have hcase : ∀ referring fiscal : NormalizedDocument, fiscal.type = .commercialDocument →
      (((rt.normalise referring.commercialReferenceCode).isSome &&
        rt.normalise referring.commercialReferenceCode ==
          rt.normalise fiscal.externalDocumentCode) = true ∨
      ((rt.normalise referring.tableCode).isNone ||
        rt.normalise referring.tableCode != rt.normalise fiscal.tableCode) = false) →
      fiscal.type = .commercialDocument ∧
      (((rt.normalise referring.commercialReferenceCode).isSome = true ∧
        rt.normalise referring.commercialReferenceCode =
          rt.normalise fiscal.externalDocumentCode) ∨
      ((rt.normalise referring.tableCode).isSome = true ∧
        rt.normalise referring.tableCode = rt.normalise fiscal.tableCode)) := by
    intro referring fiscal hf h
    refine ⟨hf, h.imp (by simp) fun ht => ?_⟩
    simpa [Option.isSome_iff_ne_none] using ht
  by_cases hl : left.type = .commercialDocument
  · refine ⟨right, left, Or.inr ⟨rfl, rfl⟩, hcase right left hl ?_⟩
    simp only [commercialReferencePair, if_pos hl] at hs
    split_ifs at hs with htype href hmatch htime hsuffix htable
    · have hf := Bool.eq_false_iff.mpr htable
      rw [Bool.or_eq_false_iff, Bool.or_eq_false_iff] at hf
      exact Or.inr hf.1.1
    · rw [Bool.eq_false_iff.mpr hsuffix, Bool.not_false, Bool.and_true, Bool.not_eq_true',
        Bool.not_eq_false] at hmatch
      exact Or.inl hmatch
  · simp only [commercialReferencePair, if_neg hl] at hs
    by_cases hr : right.type = .commercialDocument
    · refine ⟨left, right, Or.inl ⟨rfl, rfl⟩, hcase left right hr ?_⟩
      split_ifs at hs with htype href hmatch htime hsuffix htable
      · have hf := Bool.eq_false_iff.mpr htable
        rw [Bool.or_eq_false_iff, Bool.or_eq_false_iff] at hf
        exact Or.inr hf.1.1
      · rw [Bool.eq_false_iff.mpr hsuffix, Bool.not_false, Bool.and_true, Bool.not_eq_true',
          Bool.not_eq_false] at hmatch
        exact Or.inl hmatch
    · simp [hr] at hs

/-- Every sequence at a table is one of documents of one table. -/
theorem tableSaleSequencePair_spec {score : PairScore}
    (hs : tableSaleSequencePair rt left right = some score) :
    ∃ source fiscal, Oriented left right source fiscal ∧
      (rt.normalise source.tableCode).isSome = true ∧
      rt.normalise source.tableCode = rt.normalise fiscal.tableCode := by
  unfold tableSaleSequencePair at hs
  by_cases hl : isPrebillSource left = true
  · simp only [hl, if_true] at hs
    refine ⟨left, right, Or.inl ⟨rfl, rfl⟩, ?_⟩
    split_ifs at hs
    exact sequencePair_table hs
  · simp only [if_neg hl] at hs
    refine ⟨right, left, Or.inr ⟨rfl, rfl⟩, ?_⟩
    split_ifs at hs
    exact sequencePair_table hs

theorem kitchenManagementBaselinePair_spec {score : PairScore}
    (hs : kitchenManagementBaselinePair rt left right = some score) :
    ∃ kitchen management, Oriented left right kitchen management ∧
      (rt.normalise kitchen.tableCode).isSome = true ∧
      rt.normalise kitchen.tableCode = rt.normalise management.tableCode := by
  unfold kitchenManagementBaselinePair at hs
  by_cases hl : left.type = .kitchenOrder
  · simp only [hl, if_true] at hs
    refine ⟨left, right, Or.inl ⟨rfl, rfl⟩, ?_⟩
    split_ifs at hs
    exact sequencePair_table hs
  · simp only [hl, if_false] at hs
    refine ⟨right, left, Or.inr ⟨rfl, rfl⟩, ?_⟩
    split_ifs at hs
    exact sequencePair_table hs

theorem sameTableChangePair_spec {score : PairScore}
    (hs : sameTableChangePair rt left right = some score) :
    ∃ kitchen change, Oriented left right kitchen change ∧
      (rt.normalise kitchen.tableCode).isSome = true ∧
      rt.normalise kitchen.tableCode = rt.normalise change.tableCode := by
  unfold sameTableChangePair at hs
  by_cases hl : left.type = .kitchenOrder
  · have hc : ¬ left.type = .orderChange := by rw [hl]; decide
    simp only [if_pos hl, if_neg hc] at hs
    refine ⟨left, right, Or.inl ⟨rfl, rfl⟩, ?_⟩
    split_ifs at hs
    exact sequencePair_table hs
  · by_cases hc : left.type = .orderChange
    · simp only [if_neg hl, if_pos hc] at hs
      refine ⟨right, left, Or.inr ⟨rfl, rfl⟩, ?_⟩
      split_ifs at hs
      exact sequencePair_table hs
    · simp [hl, hc] at hs

theorem crossDepartmentDispatchPair_spec {score : PairScore}
    (hs : crossDepartmentDispatchPair rt left right = some score) :
    (rt.normalise left.tableCode).isSome = true ∧
      rt.normalise left.tableCode = rt.normalise right.tableCode := by
  unfold crossDepartmentDispatchPair at hs
  split_ifs at hs with htype hdev htable
  simpa [Option.isSome_iff_ne_none] using htable

theorem fiscalSiblings_spec {score : PairScore}
    (hs : engine.fiscalSiblings rt left right = some score) :
    (sharedReferences rt left right).isEmpty = false ∨
      ((rt.normalise left.orderCode).isSome = true ∧
        rt.normalise left.orderCode = rt.normalise right.orderCode) := by
  simp only [fiscalSiblings] at hs
  split_ifs at hs with htype htime hnone
  simpa only [Bool.and_eq_true, Bool.not_eq_true', not_and_or, Bool.not_eq_true,
    Bool.not_eq_false, beq_iff_eq] using hnone

/-- The links tried before the weighted score rest on a common block, but for
fiscal siblings that have only a reference in common. -/
theorem sharesBlock_of_protocolPair (h : SpelledAlike rt left right) (h' : SpelledAlike rt right left)
    (href : (sharedReferences rt left right).isEmpty = false → SharesBlock rt left right)
    {score : PairScore} (hs : engine.protocolPair rt left right = some score) :
    SharesBlock rt left right := by
  simp only [protocolPair, Option.or_eq_some_iff] at hs
  obtain hs | ⟨-, hs | ⟨-, hs | ⟨-, hs | ⟨-, hs | ⟨-, hs⟩⟩⟩⟩⟩ := hs
  · obtain ⟨referring, fiscal, ⟨rfl, rfl⟩ | ⟨rfl, rfl⟩, hf, hr | ht⟩ :=
      commercialReferencePair_spec hs
    · exact sharesBlock_of_reference h hf hr.1 hr.2
    · exact sharesBlock_of_table h ht.1 ht.2
    · exact (sharesBlock_of_reference h' hf hr.1 hr.2).symm
    · exact (sharesBlock_of_table h' ht.1 ht.2).symm
  · obtain ⟨_, _, ho, ht⟩ := tableSaleSequencePair_spec hs
    exact sharesBlock_of_tables h h' ho ht
  · obtain ⟨_, _, ho, ht⟩ := kitchenManagementBaselinePair_spec hs
    exact sharesBlock_of_tables h h' ho ht
  · obtain hr | ho := fiscalSiblings_spec hs
    · exact href hr
    · exact sharesBlock_of_order h ho.1 ho.2
  · obtain ⟨_, _, ho, ht⟩ := sameTableChangePair_spec hs
    exact sharesBlock_of_tables h h' ho ht
  · exact sharesBlock_of_tables h h' (Or.inl ⟨rfl, rfl⟩) (crossDepartmentDispatchPair_spec hs)

/-- A pair without a common block stays below 55. -/
theorem sharesBlock_of_score (h : SpelledAlike rt left right) (h' : SpelledAlike rt right left)
    (href : (sharedReferences rt left right).isEmpty = false → SharesBlock rt left right)
    (hs : 55 ≤ (engine.scoreCandidatePair rt left right).score) : SharesBlock rt left right := by
  unfold scoreCandidatePair at hs
  cases hresp : engine.deviceResponsePair left right with
  | some response =>
    rw [hresp] at hs
    unfold deviceResponsePair at hresp
    split_ifs at hresp with htype htime hjob
    · cases hresp
      simp [rejectedPair] at hs
    · cases hresp
      simp [rejectedPair] at hs
    · rw [not_or, not_not] at hjob
      exact sharesBlock_of_job hjob.1 hjob.2
  | none =>
    rw [hresp] at hs
    cases hb : episodeBoundaryConflict left right with
    | some reason => simp [hb, rejectedPair] at hs
    | none =>
      cases hc : identityConflict rt left right with
      | some reason => simp [hb, hc, rejectedPair] at hs
      | none =>
        cases hp : engine.protocolPair rt left right with
        | some score => exact sharesBlock_of_protocolPair h h' href hp
        | none =>
          simp only [hb, hc, hp, Option.getD_none] at hs
          by_contra hno
          have hle : (engine.scorePair rt left right).score ≤ 54 := by
            refine scorePair_le ?_ ?_ ?_ ?_
            · refine Bool.eq_false_iff.mpr fun hm => hno ?_
              simp only [exact, Bool.and_eq_true, beq_iff_eq] at hm
              exact sharesBlock_of_order h hm.1 hm.2
            · refine Bool.eq_false_iff.mpr fun hm => hno ?_
              simp only [progressiveCriterion, Bool.and_eq_true, beq_iff_eq] at hm
              exact sharesBlock_of_external h hm.1.2 hm.2
            · refine Bool.eq_false_iff.mpr fun hm => hno ?_
              simp only [exact, Bool.and_eq_true, beq_iff_eq] at hm
              exact sharesBlock_of_table h hm.1 hm.2
            · refine Bool.eq_false_iff.mpr fun hm => hno (href ?_)
              simpa [referenceCriterion] using hm
          omega

/-! ## Completeness -/

/-- No two documents of the list spell one code in two ways. -/
def ConsistentSpelling (rt : Runtime) (documents : List NormalizedDocument) : Prop :=
  ∀ a ∈ documents, ∀ b ∈ documents, SpelledAlike rt a b

/-- Documents with a common embedded reference stand in a common block. -/
def ReferencesBlocked (rt : Runtime) (documents : List NormalizedDocument) : Prop :=
  ∀ a ∈ documents, ∀ b ∈ documents, (sharedReferences rt a b).isEmpty = false → SharesBlock rt a b

/-- **Candidate blocking is complete** for consistently spelled codes: with
every document a seed and a window that covers them all, the candidate pairs
give the transactions of the exhaustive run. -/
theorem blocking_is_complete (hd : DistinctIds documents) (hmin : 55 ≤ engine.minimumScore)
    (hwindow : ∀ a ∈ documents, ∀ b ∈ documents, timeDelta a b ≤ windowSeconds * 1000000)
    (hspell : ConsistentSpelling rt documents) (href : ReferencesBlocked rt documents) :
    correlateCandidates rt engine documents
        (candidatePairs rt documents (documents.map fun document => document.id) windowSeconds) =
      correlate rt engine documents := by
  refine correlatePairs_congr hd.sort fun e => ?_
  rw [mem_linking, mem_linking, mem_edges hd.sort, mem_edges_allPairs hd.sort]
  refine and_congr_left fun hscore => and_iff_left_of_imp fun hedge => ?_
  have hl := mem_sortDocuments.mp hedge.left_mem
  have hr := mem_sortDocuments.mp hedge.right_mem
  have hne : e.left ≠ e.right := fun heq => hedge.lt.ne (congrArg NormalizedDocument.id heq)
  rw [listed_candidatePairs hd hl hr hne]
  refine ⟨?_, Or.inl (List.mem_map_of_mem hl), hwindow _ hl _ hr⟩
  have hreach : 55 ≤ (engine.scoreCandidatePair rt e.left e.right).score := by
    rw [← hedge.scored]
    exact hmin.trans hscore
  exact sharesBlock_of_score (hspell _ hl _ hr) (hspell _ hr _ hl) (href _ hl _ hr) hreach

/-- A prebill and its fiscal close that print one table as `T1` and `t1`. -/
def spelledTwice : List NormalizedDocument :=
  [ { id := 1, sourceDeviceId := "POS", sourceJobId := "J1", type := .preBill
      tableCode := some "T1", capturedAt := { micros := 0 }
      lines := [{ sequence := 0, itemCode := some "A" }] }
  , { id := 2, sourceDeviceId := "RCH", sourceJobId := "J2", type := .commercialDocument
      tableCode := some "t1", capturedAt := { micros := 60000000 }
      lines := [{ sequence := 0, itemCode := some "A" }] } ]

/-- The exhaustive run links them, blocking does not. -/
theorem blocking_misses_a_spelling :
    DistinctIds spelledTwice ∧
    (∀ a ∈ spelledTwice, ∀ b ∈ spelledTwice, timeDelta a b ≤ 7200 * 1000000) ∧
    (correlateCandidates asciiRuntime {} spelledTwice (candidatePairs asciiRuntime spelledTwice
      (spelledTwice.map fun document => document.id) 7200)).map CorrelatedTransaction.ids =
        [[1], [2]] ∧
    (correlate asciiRuntime {} spelledTwice).map CorrelatedTransaction.ids = [[1, 2]] := by
  unfold DistinctIds
  decide +kernel

/-- The same two documents with one spelling. -/
def spelledOnce : List NormalizedDocument :=
  spelledTwice.map fun document => { document with tableCode := some "T1" }

theorem blocking_is_complete_spelledOnce :
    correlateCandidates asciiRuntime {} spelledOnce (candidatePairs asciiRuntime spelledOnce
      (spelledOnce.map fun document => document.id) 7200) =
        correlate asciiRuntime {} spelledOnce := by
  have hcodes : ∀ a ∈ spelledOnce, a.orderCode = none ∧ a.externalDocumentCode = none ∧
      a.commercialReferenceCode = none ∧ a.tableCode = some "T1" := by decide
  refine blocking_is_complete (by unfold DistinctIds; decide) (by decide) (by decide) ?_ ?_
  · intro a ha b hb
    obtain ⟨hao, hae, har, hat⟩ := hcodes a ha
    obtain ⟨hbo, hbe, hbr, hbt⟩ := hcodes b hb
    constructor <;> intro _ _ <;> simp only [*]
  · intro a ha b hb h
    have hnone : ∀ x ∈ spelledOnce, ∀ y ∈ spelledOnce,
        (sharedReferences asciiRuntime x y).isEmpty = true := by decide
    rw [hnone a ha b hb] at h
    cases h

end RetailPrintGuard.Correlation.Blocking
