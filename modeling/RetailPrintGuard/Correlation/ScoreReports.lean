import Mathlib.Order.Bounds.Defs
import RetailPrintGuard.Correlation.Auxiliary

/-! # What a reported score says

The score of a transaction is computed after the merge, from the scored pairs
and not from the unions that were made. A component holds together by unions
inside it, so every member keeps a link of the group. -/
namespace RetailPrintGuard.Correlation.ScoreReports
open RetailPrintGuard.Common.Python RetailPrintGuard.Common.Domain
open RetailPrintGuard.Library.ConstrainedMerge RetailPrintGuard.Library.ListOrder
open RetailPrintGuard.Correlation.Lines RetailPrintGuard.Correlation.Scoring
open RetailPrintGuard.Correlation.Scoring.CorrelationEngine
open RetailPrintGuard.Correlation.Engine
open RetailPrintGuard.Correlation.Acceptance RetailPrintGuard.Correlation.Partition
open RetailPrintGuard.Correlation.Auxiliary
open Relation

/-! ## The score of a pair -/

variable {rt : Runtime} {engine : CorrelationEngine}

/-- A pair score is about its two documents and at most one hundred. -/
structure Scores (left right : NormalizedDocument) (pair : PairScore) : Prop where
  leftId : pair.leftId = left.id
  rightId : pair.rightId = right.id
  le : pair.score ≤ 100

theorem scores_of_le {left right : NormalizedDocument} {score : Nat} {criteria : List Criterion}
    (h : score ≤ 100) :
    Scores left right { leftId := left.id, rightId := right.id, score, criteria } := ⟨rfl, rfl, h⟩

theorem rejectedPair_scores (left right : NormalizedDocument) (reason : String) :
    Scores left right (rejectedPair left right reason) :=
  scores_of_le (Nat.zero_le 100)

theorem scorePair_scores (left right : NormalizedDocument) :
    Scores left right (engine.scorePair rt left right) := by
  refine ⟨rfl, rfl, ?_⟩
  unfold scorePair
  split
  · exact Nat.zero_le 100
  · exact Nat.min_le_left _ _

theorem sequencePair_scores {left right earlier later : NormalizedDocument} {limit : Nat}
    {first : Criterion} {weights : Nat × Nat} {before after : String} :
    ∀ pair ∈ sequencePair rt left right earlier later limit first weights before after,
      Scores left right pair := by
  intro pair hpair
  unfold sequencePair at hpair
  split at hpair
  · cases hpair
    exact scores_of_le (Nat.le_refl 100)
  · cases hpair

theorem deviceResponsePair_scores {left right : NormalizedDocument} :
    ∀ pair ∈ engine.deviceResponsePair left right, Scores left right pair := by
  intro pair hpair
  unfold deviceResponsePair at hpair
  split_ifs at hpair <;> cases hpair
  · exact rejectedPair_scores left right _
  · exact rejectedPair_scores left right _
  · exact scores_of_le (by decide)

theorem fiscalSiblings_scores {left right : NormalizedDocument} :
    ∀ pair ∈ engine.fiscalSiblings rt left right, Scores left right pair := by
  intro pair hpair
  unfold fiscalSiblings at hpair
  simp only at hpair
  split_ifs at hpair <;> cases hpair
  exact scores_of_le (by decide)

theorem crossDepartmentDispatchPair_scores {left right : NormalizedDocument} :
    ∀ pair ∈ crossDepartmentDispatchPair rt left right, Scores left right pair := by
  intro pair hpair
  unfold crossDepartmentDispatchPair at hpair
  split_ifs at hpair <;> cases hpair
  exact scores_of_le (by decide)

theorem commercialReferencePair_scores {left right : NormalizedDocument} :
    ∀ pair ∈ engine.commercialReferencePair rt left right, Scores left right pair := by
  intro pair hpair
  simp only [commercialReferencePair] at hpair
  split_ifs at hpair <;> cases hpair
  all_goals exact scores_of_le (by decide)

theorem tableSaleSequencePair_scores {left right : NormalizedDocument} :
    ∀ pair ∈ tableSaleSequencePair rt left right, Scores left right pair := by
  intro pair hpair
  simp only [tableSaleSequencePair] at hpair
  split_ifs at hpair
  all_goals first | exact sequencePair_scores pair hpair | cases hpair

theorem kitchenManagementBaselinePair_scores {left right : NormalizedDocument} :
    ∀ pair ∈ kitchenManagementBaselinePair rt left right, Scores left right pair := by
  intro pair hpair
  simp only [kitchenManagementBaselinePair] at hpair
  split_ifs at hpair
  all_goals first | exact sequencePair_scores pair hpair | cases hpair

theorem sameTableChangePair_scores {left right : NormalizedDocument} :
    ∀ pair ∈ sameTableChangePair rt left right, Scores left right pair := by
  intro pair hpair
  simp only [sameTableChangePair] at hpair
  split_ifs at hpair
  all_goals first | exact sequencePair_scores pair hpair | cases hpair

theorem or_scores {left right : NormalizedDocument} {first second : Option PairScore}
    (hfirst : ∀ pair ∈ first, Scores left right pair)
    (hsecond : ∀ pair ∈ second, Scores left right pair) :
    ∀ pair ∈ first.or second, Scores left right pair := by
  cases first with
  | none => exact hsecond
  | some value => exact hfirst

theorem protocolPair_scores {left right : NormalizedDocument} :
    ∀ pair ∈ engine.protocolPair rt left right, Scores left right pair :=
  or_scores commercialReferencePair_scores <|
    or_scores tableSaleSequencePair_scores <|
    or_scores kitchenManagementBaselinePair_scores <|
    or_scores fiscalSiblings_scores <|
    or_scores sameTableChangePair_scores crossDepartmentDispatchPair_scores

theorem scoreCandidatePair_scores (rt : Runtime) (engine : CorrelationEngine)
    (left right : NormalizedDocument) :
    Scores left right (engine.scoreCandidatePair rt left right) := by
  unfold scoreCandidatePair
  split
  · next responsePair hresponse => exact deviceResponsePair_scores responsePair hresponse
  · split
    · exact rejectedPair_scores left right _
    · split
      · exact rejectedPair_scores left right _
      · cases hpair : engine.protocolPair rt left right with
        | none => exact scorePair_scores left right
        | some pair => exact protocolPair_scores pair hpair

/-! ## The links of a group -/

variable {documents : List NormalizedDocument} {candidatePairs : List (UUID × UUID)}

theorem scoredEdge_of_mem {edge : Edge} (h : edge ∈ edges rt engine documents candidatePairs) :
    scoredEdge rt engine documents edge.ids = some edge := by
  obtain ⟨pair, -, hpair⟩ := List.mem_filterMap.mp h
  rw [scoredEdge_ids hpair]
  exact hpair

theorem scoredEdge_spec {pair : UUID × UUID} {edge : Edge}
    (h : scoredEdge rt engine documents pair = some edge) :
    edge.left ∈ documents ∧ edge.right ∈ documents ∧
      edge.pairScore = engine.scoreCandidatePair rt edge.left edge.right := by
  cases hleft : byId documents pair.1 with
  | none => simp [scoredEdge, hleft] at h
  | some left =>
    cases hright : byId documents pair.2 with
    | none => simp [scoredEdge, hleft, hright] at h
    | some right =>
      simp only [scoredEdge, hleft, hright, Option.some.injEq] at h
      subst h
      exact ⟨(byId_eq_some hleft).1, (byId_eq_some hright).1, rfl⟩

theorem lt_of_mem_edges {edge : Edge} (h : edge ∈ edges rt engine documents candidatePairs) :
    edge.left.id < edge.right.id := by
  obtain ⟨pair, hunique, hpair⟩ := List.mem_filterMap.mp h
  rw [← scoredEdge_ids hpair] at hunique
  exact (mem_uniquePairs.mp hunique).1

theorem scores_of_mem_edges {edge : Edge}
    (h : edge ∈ edges rt engine documents candidatePairs) :
    Scores edge.left edge.right edge.pairScore := by
  obtain ⟨-, -, hscored⟩ := scoredEdge_spec (scoredEdge_of_mem h)
  rw [hscored]
  exact scoreCandidatePair_scores rt engine edge.left edge.right

/-- The scored pairs of two members of a group that reach the minimum. -/
def groupLinks (engine : CorrelationEngine) (scored : List Edge)
    (members : List NormalizedDocument) : List Edge :=
  (linking engine scored).filter fun edge =>
    members.any (fun member => member.id == edge.left.id) &&
      members.any fun member => member.id == edge.right.id

variable {scored : List Edge} {members : List NormalizedDocument}

theorem mem_groupLinks {edge : Edge} :
    edge ∈ groupLinks engine scored members ↔
      edge ∈ scored ∧ engine.minimumScore ≤ edge.score ∧
        (∃ member ∈ members, member.id = edge.left.id) ∧
        ∃ member ∈ members, member.id = edge.right.id := by
  simp only [groupLinks, List.mem_filter, mem_linking, Bool.and_eq_true, List.any_eq_true,
    beq_iff_eq]
  exact and_assoc

/-- An edge has a document at one of its ends. -/
def Touching (edge : Edge) (id : UUID) : Prop := edge.left.id = id ∨ edge.right.id = id

/-- The scores of the links of a group at one of its members. -/
def linkScores (engine : CorrelationEngine) (scored : List Edge)
    (members : List NormalizedDocument) (member : NormalizedDocument) : Set Nat :=
  {score | ∃ edge ∈ groupLinks engine scored members, Touching edge member.id ∧ edge.score = score}

/-- Two ids with a link of the group between them. -/
def LinkedPair (engine : CorrelationEngine) (scored : List Edge)
    (members : List NormalizedDocument) (a b : UUID) : Prop :=
  ∃ edge ∈ groupLinks engine scored members, edge.ids = (a, b)

/-- What a result reports is justified by the scored pairs of its group: they
connect the members, the weakest of the best links gives the score, and a
criterion is on one side only. -/
structure Justified (engine : CorrelationEngine) (scored : List Edge)
    (members : List NormalizedDocument) (result : CorrelationResult) : Prop where
  connected : ∀ a ∈ members, ∀ b ∈ members, EqvGen (LinkedPair engine scored members) a.id b.id
  linked : ∀ member ∈ members, ∃ edge ∈ groupLinks engine scored members, Touching edge member.id
  minimum_le : engine.minimumScore ≤ result.score
  le_hundred : result.score ≤ 100
  weakest : IsLeast {score | ∃ member ∈ members,
    IsGreatest (linkScores engine scored members member) score} result.score
  disjoint : ∀ name ∈ result.matchedCriteria, name ∉ result.unmatchedCriteria

/-! ## A group holds together -/

/-- A union is tried along a linking edge, in one direction or the other. -/
theorem edge_of_mem_mergeOrder {pair : UUID × UUID} (h : pair ∈ mergeOrder engine scored) :
    ∃ edge ∈ linking engine scored, edge.ids = pair ∨ edge.ids = pair.swap := by
  obtain ⟨a, b⟩ := pair
  obtain h | h := List.mem_append.mp h
  · obtain ⟨edge, hedge, hids⟩ := List.mem_map.mp h
    exact ⟨edge, (mem_coreEdges.mp hedge).1, Or.inl hids⟩
  · obtain ⟨edge, hedge, rfl, rfl⟩ := edge_of_mem_attachments h
    obtain ⟨hlink, hattaching⟩ := mem_auxiliaryEdges.mp hedge
    refine ⟨edge, hlink, ?_⟩
    obtain ⟨-, -, ⟨ha, ht⟩ | ⟨ha, ht⟩⟩ := Edge.auxiliary_target hattaching
    · exact Or.inl (by rw [ha, ht]; rfl)
    · exact Or.inr (by rw [ha, ht]; rfl)

/-- The members of a transaction: a class, in time order. -/
theorem mem_members {document member : NormalizedDocument} :
    member ∈ sortDocuments (classOf rt engine documents scored document) ↔
      member ∈ documents ∧ Together rt engine documents scored member document :=
  mem_sorted.trans mem_classOf

/-- The members of a class are connected by the links of the class. -/
theorem connected_of_mem {document member other : NormalizedDocument}
    (hscored : scored = edges rt engine documents candidatePairs)
    (hmembers : members = sortDocuments (classOf rt engine documents scored document))
    (hmember : member ∈ members) (hother : other ∈ members) :
    EqvGen (LinkedPair engine scored members) member.id other.id := by
  have hclass : ∀ d, d ∈ members ↔ d ∈ documents ∧ Together rt engine documents scored d document :=
    fun d => by rw [hmembers, mem_members]
  have hm := ((hclass member).mp hmember).2
  have ho := ((hclass other).mp hother).2
  have hreached : ∀ d ∈ documents, (components rt engine documents scored).Same member.id d.id →
      d ∈ members := by
    intro d hd hsame
    exact (hclass d).mpr ⟨hd, hsame.symm.trans hm⟩
  refine EqvGen.eqvGen_le ?_ _ _ (within_of_same (Components.Same.trans hm ho.symm))
  intro a b hab
  obtain ⟨htried, ha, hb⟩ := hab
  obtain ⟨edge, hlink, hids⟩ := edge_of_mem_mergeOrder htried
  obtain ⟨hedge, hmin⟩ := mem_linking.mp hlink
  obtain ⟨hleft, hright, -⟩ := scoredEdge_spec (scoredEdge_of_mem (hscored ▸ hedge))
  have hlinked : (components rt engine documents scored).Same member.id edge.left.id →
      (components rt engine documents scored).Same member.id edge.right.id →
      LinkedPair engine scored members edge.left.id edge.right.id := by
    intro hl hr
    exact ⟨edge, mem_groupLinks.mpr ⟨hedge, hmin, ⟨_, hreached _ hleft hl, rfl⟩,
      _, hreached _ hright hr, rfl⟩, rfl⟩
  obtain hids | hids := hids
  · cases hids
    exact .rel _ _ (hlinked ha hb)
  · cases hids
    exact .symm _ _ (.rel _ _ (hlinked hb ha))

/-- In a group of two ids or more, every member has a link. -/
theorem linked_of_distinct
    (hconnected : ∀ a ∈ members, ∀ b ∈ members,
      EqvGen (LinkedPair engine scored members) a.id b.id)
    (hdistinct : 2 ≤ (members.map (·.id)).dedup.length) {member : NormalizedDocument}
    (hmember : member ∈ members) :
    ∃ edge ∈ groupLinks engine scored members, Touching edge member.id := by
  have hother : ∃ other ∈ members, member.id ≠ other.id := by
    by_contra hnone
    push Not at hnone
    have hall : (members.map (·.id)).dedup ⊆ [member.id] := by
      intro id hid
      obtain ⟨other, hmem, rfl⟩ := List.mem_map.mp (List.mem_dedup.mp hid)
      exact List.mem_singleton.mpr (hnone other hmem).symm
    have hle := (List.nodup_dedup _).length_le_of_subset hall
    simp only [List.length_singleton] at hle
    omega
  obtain ⟨other, hmem, hne⟩ := hother
  obtain heq | ⟨⟨d, hd⟩, -⟩ := eq_or_step_of_eqvGen (hconnected member hmember other hmem)
  · exact absurd heq hne
  · obtain ⟨edge, hedge, hids⟩ | ⟨edge, hedge, hids⟩ := hd
    · exact ⟨edge, hedge, Or.inl (congrArg Prod.fst hids)⟩
    · exact ⟨edge, hedge, Or.inr (congrArg Prod.snd hids)⟩

/-! ## The score is the weakest of the best links -/

/-- The relevant pairs are the links of the group. -/
theorem mem_relevantEdges (hscored : scored = edges rt engine documents candidatePairs)
    {pair : PairScore} :
    pair ∈ relevantEdges engine scored members ↔
      ∃ edge ∈ groupLinks engine scored members, edge.pairScore = pair := by
  simp only [relevantEdges, List.mem_filterMap, Option.map_eq_some_iff, Prod.exists]
  constructor
  · intro h
    obtain ⟨first, second, hpair, edge, hfind, rfl⟩ := h
    obtain ⟨hfirst, hsecond⟩ := mem_of_mem_orderedPairs hpair
    obtain ⟨hedge, hmin⟩ := mem_linking.mp (List.mem_of_find?_eq_some hfind)
    have hids : edge.ids = orient (first.id, second.id) := by
      simpa using List.find?_some hfind
    have hleft : edge.left.id = min first.id second.id := congrArg Prod.fst hids
    have hright : edge.right.id = max first.id second.id := congrArg Prod.snd hids
    refine ⟨edge, mem_groupLinks.mpr ⟨hedge, hmin, ?_, ?_⟩, rfl⟩
    · rw [hleft]
      obtain h | h := min_choice first.id second.id
      · exact ⟨first, hfirst, h.symm⟩
      · exact ⟨second, hsecond, h.symm⟩
    · rw [hright]
      obtain h | h := max_choice first.id second.id
      · exact ⟨first, hfirst, h.symm⟩
      · exact ⟨second, hsecond, h.symm⟩
  · intro h
    obtain ⟨edge, hlink, rfl⟩ := h
    obtain ⟨hedge, hmin, ⟨first, hfirst, hl⟩, ⟨second, hsecond, hr⟩⟩ := mem_groupLinks.mp hlink
    have hlt : first.id < second.id := by
      rw [hl, hr]
      exact lt_of_mem_edges (hscored ▸ hedge)
    have hfind : ((linking engine scored).find? fun other =>
        other.ids == (first.id, second.id)) = some edge := by
      have hids : edge.ids = (first.id, second.id) := Prod.ext hl.symm hr.symm
      cases hfound : (linking engine scored).find? fun other =>
          other.ids == (first.id, second.id) with
      | none =>
        have hno := List.find?_eq_none.mp hfound edge (mem_linking.mpr ⟨hedge, hmin⟩)
        simp [hids] at hno
      | some other =>
        have hother := scoredEdge_of_mem
          (hscored ▸ (mem_linking.mp (List.mem_of_find?_eq_some hfound)).1)
        have hsame : other.ids = (first.id, second.id) := by simpa using List.find?_some hfound
        rw [hsame, ← hids, scoredEdge_of_mem (hscored ▸ hedge)] at hother
        exact hother.symm
    have hne : first ≠ second := fun heq => hlt.ne (by rw [heq])
    obtain hpair | hpair := orderedPairs_total hfirst hsecond hne
    · exact ⟨first, second, hpair, edge, by rw [(orient_of_lt hlt).1]; exact hfind, rfl⟩
    · exact ⟨second, first, hpair, edge, by rw [(orient_of_lt hlt).2]; exact hfind, rfl⟩

theorem isGreatest_contribution (hscored : scored = edges rt engine documents candidatePairs)
    {member : NormalizedDocument}
    (hlinked : ∃ edge ∈ groupLinks engine scored members, Touching edge member.id) :
    IsGreatest (linkScores engine scored members member)
      (contribution (relevantEdges engine scored members) member) := by
  have hmem : ∀ score, score ∈ ((relevantEdges engine scored members).filter fun edge =>
      edge.leftId == member.id || edge.rightId == member.id).map PairScore.score ↔
      score ∈ linkScores engine scored members member := by
    intro score
    simp only [List.mem_map, List.mem_filter, mem_relevantEdges hscored, Bool.or_eq_true,
      beq_iff_eq, linkScores, Set.mem_ofPred_eq]
    constructor
    · intro h
      obtain ⟨_, ⟨⟨edge, hedge, rfl⟩, htouch⟩, rfl⟩ := h
      have hends := scores_of_mem_edges (hscored ▸ (mem_groupLinks.mp hedge).1)
      rw [hends.leftId, hends.rightId] at htouch
      exact ⟨edge, hedge, htouch, rfl⟩
    · intro h
      obtain ⟨edge, hedge, htouch, rfl⟩ := h
      have hends := scores_of_mem_edges (hscored ▸ (mem_groupLinks.mp hedge).1)
      refine ⟨edge.pairScore, ⟨⟨edge, hedge, rfl⟩, ?_⟩, rfl⟩
      rw [hends.leftId, hends.rightId]
      exact htouch
  unfold contribution
  cases hmax : (((relevantEdges engine scored members).filter fun edge =>
      edge.leftId == member.id || edge.rightId == member.id).map PairScore.score).max? with
  | none =>
    obtain ⟨edge, hedge, htouch⟩ := hlinked
    have hin := (hmem edge.score).mpr ⟨edge, hedge, htouch, rfl⟩
    rw [List.max?_eq_none_iff.mp hmax] at hin
    exact absurd hin List.not_mem_nil
  | some best =>
    obtain ⟨hbest, hall⟩ := List.max?_eq_some_iff.mp hmax
    exact ⟨(hmem best).mp hbest, fun score hscore => hall score ((hmem score).mpr hscore)⟩

theorem isLeast_score (hscored : scored = edges rt engine documents candidatePairs)
    (hnonempty : members ≠ [])
    (hlinked : ∀ member ∈ members,
      ∃ edge ∈ groupLinks engine scored members, Touching edge member.id) :
    IsLeast {score | ∃ member ∈ members,
        IsGreatest (linkScores engine scored members member) score}
      ((members.map (contribution (relevantEdges engine scored members))).min?.getD 0) := by
  cases hmin : (members.map (contribution (relevantEdges engine scored members))).min? with
  | none => exact absurd (List.map_eq_nil_iff.mp (List.min?_eq_none_iff.mp hmin)) hnonempty
  | some least =>
    obtain ⟨hleast, hall⟩ := List.min?_eq_some_iff.mp hmin
    constructor
    · obtain ⟨member, hmember, rfl⟩ := List.mem_map.mp hleast
      exact ⟨member, hmember, isGreatest_contribution hscored (hlinked member hmember)⟩
    · intro score hscore
      obtain ⟨member, hmember, hbest⟩ := hscore
      rw [hbest.unique (isGreatest_contribution hscored (hlinked member hmember))]
      exact hall _ (List.mem_map_of_mem hmember)

/-! ## Reports are justified -/

@[simp] theorem mem_sortedTexts {texts : List String} {text : String} :
    text ∈ sortedTexts texts ↔ text ∈ texts := by
  rw [sortedTexts, mem_sorted, List.mem_dedup]

theorem correlationResult_disjoint {result : CorrelationResult}
    (h : correlationResult rt engine scored members = some result) :
    ∀ name ∈ result.matchedCriteria, name ∉ result.unmatchedCriteria := by
  unfold correlationResult at h
  split at h
  · cases h
  · cases h
    intro name hmatched hunmatched
    have hnot := List.of_mem_filter (mem_sortedTexts.mp hunmatched)
    simp only [Bool.not_eq_true', List.contains_eq_mem, decide_eq_false_iff_not] at hnot
    exact hnot hmatched

/-- The score of a group of two ids or more is justified by its links. -/
theorem correlationResult_justified {document : NormalizedDocument}
    (hscored : scored = edges rt engine documents candidatePairs)
    (hmembers : members = sortDocuments (classOf rt engine documents scored document))
    (hdistinct : 2 ≤ (members.map (·.id)).dedup.length) {result : CorrelationResult}
    (h : correlationResult rt engine scored members = some result) :
    Justified engine scored members result := by
  have hconnected : ∀ a ∈ members, ∀ b ∈ members,
      EqvGen (LinkedPair engine scored members) a.id b.id :=
    fun a ha b hb => connected_of_mem hscored hmembers ha hb
  have hlinked : ∀ member ∈ members,
      ∃ edge ∈ groupLinks engine scored members, Touching edge member.id :=
    fun member hmember => linked_of_distinct hconnected hdistinct hmember
  have hnonempty : members ≠ [] := by
    rintro rfl
    exact absurd hdistinct (by simp)
  have hscore : result.score =
      (members.map (contribution (relevantEdges engine scored members))).min?.getD 0 := by
    unfold correlationResult at h
    split at h
    · cases h
    · cases h
      rfl
  have hweakest := isLeast_score hscored hnonempty hlinked
  rw [← hscore] at hweakest
  obtain ⟨member, hmember, hbest⟩ := hweakest.1
  obtain ⟨edge, hedge, -, hedgeScore⟩ := hbest.1
  obtain ⟨hin, hmin, -⟩ := mem_groupLinks.mp hedge
  exact
    { connected := hconnected
      linked := hlinked
      minimum_le := hedgeScore ▸ hmin
      le_hundred := hedgeScore ▸ (scores_of_mem_edges (hscored ▸ hin)).le
      weakest := hweakest
      disjoint := correlationResult_disjoint h }

theorem correlationResult_isSome (rt : Runtime) (engine : CorrelationEngine) (scored : List Edge)
    (hmany : 1 < members.length) :
    ∃ result, correlationResult rt engine scored members = some result ∧
      result.documentIds = members.map (·.id) := by
  rw [correlationResult, if_neg (by omega)]
  exact ⟨_, rfl, rfl⟩

/-- Documents with ids of their own are never refused. -/
theorem correlatePairsChecked_of_distinctIds {ordered : List NormalizedDocument}
    (hd : DistinctIds ordered) :
    correlatePairsChecked rt engine ordered candidatePairs =
      some (correlatePairs rt engine ordered candidatePairs) := by
  refine if_pos (List.all_eq_true.mpr fun transaction hmem => ?_)
  obtain ⟨document, -, rfl⟩ := mem_correlatePairs.mp hmem
  change Option.all validResult (correlationResult rt engine _ (sortDocuments _)) = true
  generalize hmembers : sortDocuments (classOf rt engine ordered
    (edges rt engine ordered candidatePairs) document) = members
  by_cases hmany : 1 < members.length
  · obtain ⟨result, hresult, hids⟩ := correlationResult_isSome rt engine
      (edges rt engine ordered candidatePairs) hmany
    have hnodup : (members.map (·.id)).Nodup := by
      rw [← hmembers]
      exact ((List.perm_insertionSort _ _).map _).nodup_iff.mpr (hd.filter _)
    have hdistinct : 2 ≤ (members.map (·.id)).dedup.length := by
      rw [hnodup.dedup, List.length_map]
      exact hmany
    have hjustified := correlationResult_justified rfl hmembers.symm hdistinct hresult
    rw [hresult, Option.all_some, validResult, hids, decide_eq_true hjustified.le_hundred,
      decide_eq_true hdistinct, Bool.and_self]
  · rw [correlationResult, if_pos (by omega), Option.all_none]

/-- Every transaction of more than one document reports a justified score. -/
theorem correlatePairs_justified (rt : Runtime) (engine : CorrelationEngine)
    (ordered : List NormalizedDocument) (candidatePairs : List (UUID × UUID))
    {transactions : List CorrelatedTransaction} {transaction : CorrelatedTransaction}
    (h : correlatePairsChecked rt engine ordered candidatePairs = some transactions)
    (hmem : transaction ∈ transactions) (hmany : 1 < transaction.documents.length) :
    ∃ result, transaction.correlation = some result ∧
      Justified engine (edges rt engine ordered candidatePairs) transaction.documents result := by
  simp only [correlatePairsChecked] at h
  split at h
  · next hvalid =>
    cases h
    have hcheck := List.all_eq_true.mp hvalid transaction hmem
    obtain ⟨document, -, rfl⟩ := mem_correlatePairs.mp hmem
    obtain ⟨result, hresult, hids⟩ := correlationResult_isSome rt engine
      (edges rt engine ordered candidatePairs) hmany
    refine ⟨result, hresult, ?_⟩
    have hvalidResult : validResult result = true := by
      change Option.all validResult (correlationResult rt engine _ _) = true at hcheck
      rw [buildTransaction_documents] at hresult
      rw [sortDocuments] at hresult
      rw [hresult] at hcheck
      exact hcheck
    rw [validResult, Bool.and_eq_true, decide_eq_true_iff, decide_eq_true_iff, hids]
      at hvalidResult
    exact correlationResult_justified rfl rfl hvalidResult.2 hresult
  · cases h

theorem copiedSale_justified :
    ∃ transaction ∈ correlatePairs asciiRuntime {} copiedSale [(1, 2), (2, 3)],
      ∃ result, transaction.correlation = some result ∧
        Justified {} (edges asciiRuntime {} copiedSale [(1, 2), (2, 3)])
          transaction.documents result := by
  have hchecked : correlatePairsChecked asciiRuntime {} copiedSale [(1, 2), (2, 3)] =
      some (correlatePairs asciiRuntime {} copiedSale [(1, 2), (2, 3)]) :=
    correlatePairsChecked_of_distinctIds (by unfold DistinctIds; decide)
  have hgroup : ∃ transaction ∈ correlatePairs asciiRuntime {} copiedSale [(1, 2), (2, 3)],
      1 < transaction.documents.length := by decide +kernel
  obtain ⟨transaction, hmem, hmany⟩ := hgroup
  exact ⟨transaction, hmem, correlatePairs_justified asciiRuntime {} copiedSale _ hchecked hmem
    hmany⟩

end RetailPrintGuard.Correlation.ScoreReports
