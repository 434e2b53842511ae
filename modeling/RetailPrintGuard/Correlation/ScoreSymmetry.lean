import RetailPrintGuard.Correlation.LineChanges
import RetailPrintGuard.Correlation.Scoring

/-! # Symmetry of pair scoring

The rules look at the left document first to tell the two parts of a pair
apart. No document qualifies for both parts of a rule, so the order does not
matter. -/
namespace RetailPrintGuard.Correlation.ScoreSymmetry
open RetailPrintGuard.Common.Python RetailPrintGuard.Common.Domain
open RetailPrintGuard.Correlation.Lines RetailPrintGuard.Correlation.Scoring
open RetailPrintGuard.Correlation.Scoring.CorrelationEngine RetailPrintGuard.Library.Grouping

/-- The score of a pair with its documents named in the other order. -/
def exchanged (pairScore : PairScore) : PairScore :=
  { pairScore with leftId := pairScore.rightId, rightId := pairScore.leftId }

variable {rt : Runtime} {engine : CorrelationEngine} {left right : NormalizedDocument}

/-! ## What the rules compare -/

theorem timeDelta_comm (left right : NormalizedDocument) :
    timeDelta left right = timeDelta right left :=
  Timestamp.distance_comm _ _

theorem distanceDetail_comm (left right : NormalizedDocument) :
    distanceDetail left right = distanceDetail right left := by
  rw [distanceDetail, timeDelta_comm, distanceDetail]

theorem nodup_lineKeys (lines : List DocumentLine) : (lineKeys rt lines).Nodup := by
  rw [lineKeys, Db.LineDiff.aggregateLines_eq]
  exact nodup_groupBy _

/-- The lists of common keys have the same keys. -/
theorem sharedItems_perm (lines others : List DocumentLine) :
    (sharedItems rt lines others).Perm (sharedItems rt others lines) := by
  have hnodup := fun lines others => (@nodup_lineKeys rt lines).filter
    fun key => (lineKeys rt others).contains key
  refine (List.perm_ext_iff_of_nodup (hnodup lines others) (hnodup others lines)).mpr fun key => ?_
  simp [and_comm]

theorem lineSimilarity_comm (left right : NormalizedDocument) :
    lineSimilarity rt left right = lineSimilarity rt right left := by
  have hcommon : (sharedItems rt left.lines right.lines).dedup.length =
      (sharedItems rt right.lines left.lines).dedup.length :=
    ((sharedItems_perm _ _).dedup).length_eq
  have hall : (lineKeys rt left.lines ++ lineKeys rt right.lines).dedup.length =
      (lineKeys rt right.lines ++ lineKeys rt left.lines).dedup.length :=
    (List.perm_append_comm.dedup).length_eq
  simp only [lineSimilarity, hcommon, hall, Bool.or_comm]

theorem sharedReferences_isEmpty_comm (left right : NormalizedDocument) :
    (sharedReferences rt left right).isEmpty = (sharedReferences rt right left).isEmpty := by
  rw [Bool.eq_iff_iff, List.isEmpty_iff, List.isEmpty_iff, sharedReferences, sharedReferences,
    List.filter_eq_nil_iff, List.filter_eq_nil_iff]
  simp only [List.contains_iff_mem]
  exact ⟨fun h reference hr hl => h reference hl hr, fun h reference hl hr => h reference hr hl⟩

theorem compatible_comm (left right : NormalizedDocument) :
    compatible left right = compatible right left := by
  unfold compatible
  cases left.type <;> cases right.type <;> rfl

theorem identityConflict_comm (left right : NormalizedDocument) :
    identityConflict rt left right = identityConflict rt right left := by
  have hpresent : ∀ a b : Option String, (a.isSome && b.isSome && a != b) =
      (b.isSome && a.isSome && b != a) := by
    intro a b
    rw [Bool.and_comm a.isSome, bne_comm]
  simp only [identityConflict, hpresent (rt.normalise left.orderCode),
    hpresent (rt.normalise left.tableCode), hpresent (strongReference rt left)]

/-- The text of a conflict does not tell the documents apart. -/
theorem episodeBoundaryConflict_comm (left right : NormalizedDocument) :
    episodeBoundaryConflict left right = episodeBoundaryConflict right left := by
  have htext : ∀ a b : NormalizedDocument, episodeBoundaryConflict a b ≠ none →
      episodeBoundaryConflict a b = some "nuovo episodio osservato dopo una chiusura economica" := by
    intro a b h
    by_cases hfirst : a.Precedes b
    · simp only [episodeBoundaryConflict, if_pos hfirst] at h ⊢
      exact if_pos (by_contra fun hnot => h (if_neg hnot))
    · simp only [episodeBoundaryConflict, if_neg hfirst] at h ⊢
      exact if_pos (by_contra fun hnot => h (if_neg hnot))
  by_cases hnone : episodeBoundaryConflict left right = none
  · rw [hnone, episodeBoundaryConflict_symm hnone]
  · have hother : episodeBoundaryConflict right left ≠ none := fun h =>
      hnone (episodeBoundaryConflict_symm h)
    rw [htext _ _ hnone, htext _ _ hother]

/-! ## The weighted score -/

theorem exact_comm (name : String) (weight : Nat) (first second : Option String) :
    exact rt name weight first second = exact rt name weight second first := by
  have hmatched : ((rt.normalise first).isSome && rt.normalise first == rt.normalise second) =
      ((rt.normalise second).isSome && rt.normalise second == rt.normalise first) := by
    grind
  simp only [exact, hmatched]

theorem progressiveCriterion_comm (left right : NormalizedDocument) :
    progressiveCriterion rt left right = progressiveCriterion rt right left := by
  have hsame : ((progressiveNamespace left).isSome &&
        progressiveNamespace left == progressiveNamespace right &&
        (rt.normalise left.externalDocumentCode).isSome &&
        rt.normalise left.externalDocumentCode == rt.normalise right.externalDocumentCode) =
      ((progressiveNamespace right).isSome &&
        progressiveNamespace right == progressiveNamespace left &&
        (rt.normalise right.externalDocumentCode).isSome &&
        rt.normalise right.externalDocumentCode == rt.normalise left.externalDocumentCode) := by
    grind
  simp only [progressiveCriterion, hsame]
  split
  · next h =>
    simp only [Bool.and_eq_true, beq_iff_eq] at h
    rw [h.1.1.2]
  · rfl

theorem referenceCriterion_comm (left right : NormalizedDocument) :
    referenceCriterion rt left right = referenceCriterion rt right left := by
  rw [referenceCriterion, sharedReferences_isEmpty_comm, referenceCriterion]

theorem withinWindow_comm (left right : NormalizedDocument) :
    engine.withinWindow left right = engine.withinWindow right left := by
  rw [withinWindow, timeDelta_comm, withinWindow]

theorem timeCriterion_comm (left right : NormalizedDocument) :
    engine.timeCriterion left right = engine.timeCriterion right left := by
  rw [timeCriterion, timeDelta_comm, withinWindow_comm, distanceDetail_comm, timeCriterion]

theorem dateCriterion_comm (left right : NormalizedDocument) :
    dateCriterion left right = dateCriterion right left := by
  rw [dateCriterion, BEq.comm, dateCriterion]

theorem plausiblePartial_comm (left right : Option Money) :
    plausiblePartial left right = plausiblePartial right left := by
  cases left with
  | none => cases right <;> rfl
  | some l =>
    cases right with
    | none => rfl
    | some r => simp only [plausiblePartial, min_comm l r, max_comm l r]

theorem equalTotals_comm (left right : Option Money) :
    (left.isSome && left == right) = (right.isSome && right == left) := by
  cases left <;> cases right <;> simp [BEq.comm]

theorem amountCriterion_comm (left right : NormalizedDocument) :
    amountCriterion left right = amountCriterion right left := by
  simp only [amountCriterion, equalTotals_comm left.total right.total,
    plausiblePartial_comm left.total right.total]

theorem lineCriterion_comm (left right : NormalizedDocument) :
    lineCriterion rt left right = lineCriterion rt right left := by
  simp only [lineCriterion, lineSimilarity_comm left right]

theorem sequenceCriterion_comm (left right : NormalizedDocument) :
    sequenceCriterion left right = sequenceCriterion right left := by
  simp only [sequenceCriterion, compatible_comm left right]

theorem deviceCriterion_comm (left right : NormalizedDocument) :
    deviceCriterion left right = deviceCriterion right left := by
  rw [deviceCriterion, BEq.comm, deviceCriterion]

theorem scoreCriteria_comm (left right : NormalizedDocument) :
    engine.scoreCriteria rt left right = engine.scoreCriteria rt right left := by
  rw [scoreCriteria, exact_comm, exact_comm "table_code", exact_comm "operator_code",
    exact_comm "terminal_code", exact_comm "source_session", progressiveCriterion_comm,
    referenceCriterion_comm, timeCriterion_comm, dateCriterion_comm, amountCriterion_comm,
    lineCriterion_comm, sequenceCriterion_comm, deviceCriterion_comm, scoreCriteria]

theorem scorePair_comm (left right : NormalizedDocument) :
    engine.scorePair rt right left = exchanged (engine.scorePair rt left right) := by
  rw [scorePair, compatible_comm right left, withinWindow_comm right left,
    scoreCriteria_comm right left]
  rfl

/-! ## Protocol-specific links -/

/-- A link between two parts scores its pair whichever part comes first. -/
theorem sequencePair_exchanged {left right earlier later : NormalizedDocument} (limit : Nat)
    (first : Criterion) (weights : Nat × Nat) (before after : String) :
    sequencePair rt right left earlier later limit first weights before after =
      (sequencePair rt left right earlier later limit first weights before after).map exchanged := by
  unfold sequencePair
  split <;> rfl

theorem deviceResponsePair_comm (left right : NormalizedDocument) :
    engine.deviceResponsePair right left =
      (engine.deviceResponsePair left right).map exchanged := by
  have htypes : (right.type ≠ .deviceResponse ∧ left.type ≠ .deviceResponse) =
      (left.type ≠ .deviceResponse ∧ right.type ≠ .deviceResponse) := propext and_comm
  have hjobs : (right.sourceJobId = "" ∨ right.sourceJobId ≠ left.sourceJobId) =
      (left.sourceJobId = "" ∨ left.sourceJobId ≠ right.sourceJobId) := by
    grind
  simp only [deviceResponsePair, htypes, hjobs, timeDelta_comm right left,
    distanceDetail_comm right left]
  split_ifs <;> rfl

theorem fiscalSiblings_comm (left right : NormalizedDocument) :
    engine.fiscalSiblings rt right left = (engine.fiscalSiblings rt left right).map exchanged := by
  have horder : ((rt.normalise right.orderCode).isSome &&
        rt.normalise right.orderCode == rt.normalise left.orderCode) =
      ((rt.normalise left.orderCode).isSome &&
        rt.normalise left.orderCode == rt.normalise right.orderCode) := by
    grind
  simp only [fiscalSiblings, horder, timeDelta_comm right left, distanceDetail_comm right left,
    sharedReferences_isEmpty_comm right left, Bool.or_comm (!fiscalSiblingTypes right.type)]
  split_ifs <;> rfl

theorem crossDepartmentDispatchPair_comm (left right : NormalizedDocument) :
    crossDepartmentDispatchPair rt right left =
      (crossDepartmentDispatchPair rt left right).map exchanged := by
  have htypes : (right.type ≠ .kitchenOrder ∨ left.type ≠ .kitchenOrder) =
      (left.type ≠ .kitchenOrder ∨ right.type ≠ .kitchenOrder) := propext or_comm
  have hdevices : (right.sourceDeviceId = left.sourceDeviceId) =
      (left.sourceDeviceId = right.sourceDeviceId) := propext eq_comm
  by_cases htable : rt.normalise left.tableCode = rt.normalise right.tableCode
  · have htext : tableText rt right = tableText rt left := by rw [tableText, tableText, htable]
    simp only [crossDepartmentDispatchPair, htypes, hdevices, htext, htable,
      timeDelta_comm right left, distanceDetail_comm right left]
    split_ifs <;> rfl
  · have hleft : (rt.normalise left.tableCode != rt.normalise right.tableCode) = true :=
      bne_iff_ne.mpr htable
    have hright : (rt.normalise right.tableCode != rt.normalise left.tableCode) = true :=
      bne_iff_ne.mpr fun h => htable h.symm
    simp only [crossDepartmentDispatchPair, htypes, hdevices, hleft, hright, Bool.or_true, if_true]
    split_ifs <;> rfl

theorem commercialReferencePair_comm (left right : NormalizedDocument) :
    engine.commercialReferencePair rt right left =
      (engine.commercialReferencePair rt left right).map exchanged := by
  by_cases hleft : left.type = .commercialDocument
  · by_cases hright : right.type = .commercialDocument
    · simp [commercialReferencePair, hleft, hright, referringTypes]
    · simp only [commercialReferencePair, if_pos hleft, if_neg hright,
        timeDelta_comm right left, distanceDetail_comm right left]
      split_ifs <;> rfl
  · by_cases hright : right.type = .commercialDocument
    · simp only [commercialReferencePair, if_neg hleft, if_pos hright,
        timeDelta_comm right left, distanceDetail_comm right left]
      split_ifs <;> rfl
    · simp [commercialReferencePair, hleft, hright]

/-- A fiscal document is no source. -/
theorem isPrebillSource_commercial {document : NormalizedDocument}
    (h : document.type = .commercialDocument) : isPrebillSource document = false := by
  simp [isPrebillSource, h]

theorem tableSaleSequencePair_comm (left right : NormalizedDocument) :
    tableSaleSequencePair rt right left = (tableSaleSequencePair rt left right).map exchanged := by
  by_cases hleft : isPrebillSource left = true
  · by_cases hright : isPrebillSource right = true
    · have hl : left.type ≠ .commercialDocument := fun h => by
        rw [isPrebillSource_commercial h] at hleft
        cases hleft
      have hr : right.type ≠ .commercialDocument := fun h => by
        rw [isPrebillSource_commercial h] at hright
        cases hright
      simp [tableSaleSequencePair, hleft, hright, hl, hr]
    · simp only [tableSaleSequencePair, if_pos hleft, if_neg hright]
      split_ifs <;> first | exact sequencePair_exchanged _ _ _ _ _ | rfl
  · by_cases hright : isPrebillSource right = true
    · simp only [tableSaleSequencePair, if_neg hleft, if_pos hright]
      split_ifs <;> first | exact sequencePair_exchanged _ _ _ _ _ | rfl
    · simp [tableSaleSequencePair, hleft, hright]

theorem kitchenManagementBaselinePair_comm (left right : NormalizedDocument) :
    kitchenManagementBaselinePair rt right left =
      (kitchenManagementBaselinePair rt left right).map exchanged := by
  by_cases hleft : left.type = .kitchenOrder
  · by_cases hright : right.type = .kitchenOrder
    · simp [kitchenManagementBaselinePair, hleft, hright]
    · simp only [kitchenManagementBaselinePair, if_pos hleft, if_neg hright]
      split_ifs <;> first | exact sequencePair_exchanged _ _ _ _ _ | rfl
  · by_cases hright : right.type = .kitchenOrder
    · simp only [kitchenManagementBaselinePair, if_neg hleft, if_pos hright]
      split_ifs <;> first | exact sequencePair_exchanged _ _ _ _ _ | rfl
    · simp [kitchenManagementBaselinePair, hleft, hright]

theorem sameTableChangePair_comm (left right : NormalizedDocument) :
    sameTableChangePair rt right left = (sameTableChangePair rt left right).map exchanged := by
  have hparts : ((right.type = .kitchenOrder ∧ left.type = .orderChange) ∨
        (right.type = .orderChange ∧ left.type = .kitchenOrder)) =
      ((left.type = .kitchenOrder ∧ right.type = .orderChange) ∨
        (left.type = .orderChange ∧ right.type = .kitchenOrder)) := by
    grind
  by_cases hpair : (left.type = .kitchenOrder ∧ right.type = .orderChange) ∨
      (left.type = .orderChange ∧ right.type = .kitchenOrder)
  · obtain ⟨hleft, hright⟩ | ⟨hleft, hright⟩ := hpair
    · simp only [sameTableChangePair, hleft, hright]
      split_ifs <;> first | exact sequencePair_exchanged _ _ _ _ _ | simp_all
    · simp only [sameTableChangePair, hleft, hright]
      split_ifs <;> first | exact sequencePair_exchanged _ _ _ _ _ | simp_all
  · simp [sameTableChangePair, hparts, hpair]

/-! ## The pair -/

theorem map_or_exchanged (first second : Option PairScore) :
    (first.map exchanged).or (second.map exchanged) = (first.or second).map exchanged := by
  cases first <;> rfl

theorem protocolPair_comm (left right : NormalizedDocument) :
    engine.protocolPair rt right left = (engine.protocolPair rt left right).map exchanged := by
  simp only [protocolPair, commercialReferencePair_comm left right,
    tableSaleSequencePair_comm left right, kitchenManagementBaselinePair_comm left right,
    fiscalSiblings_comm left right, sameTableChangePair_comm left right,
    crossDepartmentDispatchPair_comm left right, map_or_exchanged]

/-- A pair has one score and one list of criteria in either order. -/
theorem scoreCandidatePair_comm (rt : Runtime) (engine : CorrelationEngine)
    (left right : NormalizedDocument) :
    engine.scoreCandidatePair rt right left =
      exchanged (engine.scoreCandidatePair rt left right) := by
  simp only [scoreCandidatePair, deviceResponsePair_comm left right,
    episodeBoundaryConflict_comm right left, identityConflict_comm right left,
    protocolPair_comm left right, scorePair_comm left right]
  cases engine.deviceResponsePair left right with
  | some responsePair => rfl
  | none =>
    cases episodeBoundaryConflict left right with
    | some boundary => rfl
    | none =>
      cases identityConflict rt left right with
      | some conflict => rfl
      | none => cases engine.protocolPair rt left right <;> rfl

end RetailPrintGuard.Correlation.ScoreSymmetry
