import Mathlib.Data.Fintype.Basic
import RetailPrintGuard.Fraud.Rules
import RetailPrintGuard.Library.LeastOwner

/-! # Numbering anomalies across transactions

Gaps and duplicates may span several transactions. Each transaction decides
alone, from the common comparison set, whether it reports what it touches: it
does when the least document of all the anomalies it touches is its own. -/
namespace RetailPrintGuard.Fraud.Anchoring
open RetailPrintGuard.Common.Python RetailPrintGuard.Common.Domain
open RetailPrintGuard.Library.LeastOwner
open RetailPrintGuard.Correlation.Engine RetailPrintGuard.Fraud.Findings
open RetailPrintGuard.Fraud.Rules

/-! ## One comparison set -/

theorem unseen_append_of_known {seen : List UUID} {known documents : List NormalizedDocument}
    (h : ∀ document ∈ documents, document.id ∈ seen ∨ document.id ∈ known.map (·.id)) :
    unseen seen (known ++ documents) = unseen seen known := by
  induction known generalizing seen with
  | nil =>
    induction documents with
    | nil => rfl
    | cons document documents ih =>
      have hseen : seen.contains document.id = true := by simpa using h document (by simp)
      rw [List.nil_append]
      show (if seen.contains document.id then unseen seen documents else _) = []
      rw [if_pos hseen]
      exact ih fun other hother => h other (List.mem_cons_of_mem _ hother)
  | cons head known ih =>
    rw [List.cons_append, unseen, unseen]
    by_cases hc : seen.contains head.id = true
    · rw [if_pos hc, if_pos hc]
      refine ih fun document hdocument => ?_
      rcases h document hdocument with hs | hk
      · exact Or.inl hs
      · rcases List.mem_cons.mp hk with hhead | hk
        · exact Or.inl (hhead ▸ by simpa using hc)
        · exact Or.inr hk
    · rw [if_neg hc, if_neg hc, ih]
      intro document hdocument
      rcases h document hdocument with hs | hk
      · exact Or.inl (List.mem_cons_of_mem _ hs)
      · rcases List.mem_cons.mp hk with hhead | hk
        · exact Or.inl (hhead ▸ List.mem_cons_self)
        · exact Or.inr hk

theorem unseen_not_mem {seen : List UUID} {documents : List NormalizedDocument}
    {document : NormalizedDocument} (h : document ∈ unseen seen documents) :
    document.id ∉ seen := by
  induction documents generalizing seen with
  | nil => cases h
  | cons head documents ih =>
    rw [unseen] at h
    by_cases hc : seen.contains head.id = true
    · rw [if_pos hc] at h
      exact ih h
    · rw [if_neg hc] at h
      rcases List.mem_cons.mp h with rfl | h
      · simpa using hc
      · exact fun hs => ih h (List.mem_cons_of_mem _ hs)

theorem unseen_nodup {seen : List UUID} {documents : List NormalizedDocument} :
    ((unseen seen documents).map (·.id)).Nodup := by
  induction documents generalizing seen with
  | nil => exact List.nodup_nil
  | cons head documents ih =>
    rw [unseen]
    split
    · exact ih
    · refine List.nodup_cons.mpr ⟨fun hm => ?_, ih⟩
      obtain ⟨document, hd, hid⟩ := List.mem_map.mp hm
      exact unseen_not_mem hd (hid ▸ List.mem_cons_self)

/-- A family of transactions, without a common document, evaluated against one
comparison set that holds their documents. -/
structure CommonComparison {ι : Type} (common : List NormalizedDocument)
    (family : ι → FraudContext) : Prop where
  comparison : ∀ i, (family i).comparisonDocuments = common
  contained : ∀ i, ∀ id ∈ (family i).transaction.ids, id ∈ common.map (·.id)
  disjoint : ∀ i j, ∀ id ∈ (family i).transaction.ids, id ∈ (family j).transaction.ids → i = j

section
variable {ι : Type} {common : List NormalizedDocument} {family : ι → FraudContext}

theorem CommonComparison.candidates_eq (h : CommonComparison common family) (i : ι) :
    candidates (family i) = unseen [] common := by
  rw [candidates, h.comparison i]
  refine unseen_append_of_known fun document hdocument => Or.inr ?_
  exact h.contained i _ (List.mem_map_of_mem hdocument)

end

/-! ## Gaps -/

section
variable {rt : Runtime} {documents : List NormalizedDocument}

/-- Neighbours of a sorted list that differ are told apart by the first number. -/
theorem eq_of_neighbours {values : List Numbered}
    (hsorted : values.Pairwise fun a b => a.number ≤ b.number) {p q : Numbered × Numbered}
    (hp : p ∈ values.zip values.tail) (hq : q ∈ values.zip values.tail)
    (hpn : p.1.number < p.2.number) (hqn : q.1.number < q.2.number)
    (hfirst : p.1.number = q.1.number) : p = q := by
  induction values with
  | nil => cases hp
  | cons first rest ih =>
    cases rest with
    | nil => cases hp
    | cons second rest =>
      have htail := (List.pairwise_cons.mp hsorted).2
      -- a pair after the first one starts at the second number or later
      have hlater : ∀ r ∈ (second :: rest).zip rest, second.number ≤ r.1.number := by
        intro r hr
        rcases List.mem_cons.mp (List.of_mem_zip hr).1 with hr | hr
        · rw [hr]
        · exact (List.pairwise_cons.mp htail).1 _ hr
      rcases List.mem_cons.mp hp with rfl | hp <;> rcases List.mem_cons.mp hq with rfl | hq
      · rfl
      · have := hlater q hq
        simp only at hpn hfirst
        omega
      · have := hlater p hp
        simp only at hqn hfirst
        omega
      · exact ih htail hp hq

/-- A gap lies between two neighbours of one series. -/
theorem mem_sequenceGaps {gap : Numbered × Numbered} (h : gap ∈ sequenceGaps rt documents) :
    gap ∈ (ofSeries (documents.filterMap (numbered rt)) gap.1.series).zip
        (ofSeries (documents.filterMap (numbered rt)) gap.1.series).tail ∧
      gap.1.number < gap.2.number := by
  simp only [sequenceGaps, List.mem_flatMap, List.mem_filter, decide_eq_true_eq] at h
  obtain ⟨series, _, hzip, hlt⟩ := h
  have hfirst := (List.of_mem_zip hzip).1
  simp only [ofSeries, List.mem_insertionSort, List.mem_filter, beq_iff_eq] at hfirst
  rw [hfirst.2]
  exact ⟨hzip, by omega⟩

/-- The record of a gap tells which gap it is. -/
theorem gapEvidence_injOn {gap other : Numbered × Numbered}
    (hgap : gap ∈ sequenceGaps rt documents) (hother : other ∈ sequenceGaps rt documents)
    (h : gapEvidence gap = gapEvidence other) : gap = other := by
  simp only [gapEvidence, Evidence.sequenceGap.injEq] at h
  obtain ⟨hseries, hbefore, -, -⟩ := h
  obtain ⟨hzip, hlt⟩ := mem_sequenceGaps hgap
  obtain ⟨hzip', hlt'⟩ := mem_sequenceGaps hother
  rw [← hseries] at hzip'
  refine eq_of_neighbours ?_ hzip hzip' hlt hlt' hbefore
  have : Std.Total fun a b : Numbered => a.number ≤ b.number := ⟨fun a b => Nat.le_total _ _⟩
  have : IsTrans Numbered fun a b => a.number ≤ b.number := ⟨fun _ _ _ => Nat.le_trans⟩
  exact List.pairwise_insertionSort (fun a b : Numbered => a.number ≤ b.number) _

/-- The transaction's gap finding contains the gap. -/
def ReportsGap (rt : Runtime) (rule : RuleDefinition) (context : FraudContext)
    (gap : Numbered × Numbered) : Prop :=
  ∃ finding, handler rt .documentSequenceGap context rule = some finding ∧
    gapEvidence gap ∈ finding.evidence

theorem reportsGap_iff {rule : RuleDefinition} {context : FraudContext}
    {gap : Numbered × Numbered} (hgap : gap ∈ sequenceGaps rt (candidates context)) :
    ReportsGap rt rule context gap ↔
      Touches gapDocumentIds context.transaction.ids gap ∧
        Leads gapDocumentIds (sequenceGaps rt (candidates context)) context.transaction.ids := by
  unfold ReportsGap handler sequenceGap anchored
  rw [← min_owned_iff]
  constructor
  · rintro ⟨finding, hfinding, hevidence⟩
    dsimp only at hfinding
    split at hfinding
    · cases hfinding
    · next hnot =>
      cases hfinding
      simp only [Bool.or_eq_true, Bool.not_eq_true', not_or, Bool.not_eq_false] at hnot
      obtain ⟨other, hother, heq⟩ := List.mem_map.mp hevidence
      obtain ⟨hmem, htouch⟩ := List.mem_filter.mp hother
      rw [← gapEvidence_injOn hmem hgap heq]
      exact ⟨any_contains_iff.mp htouch, hnot.2⟩
  · rintro ⟨htouch, hmin⟩
    have hmem : gap ∈ (sequenceGaps rt (candidates context)).filter fun gap =>
        (gapDocumentIds gap).any context.transaction.ids.contains :=
      List.mem_filter.mpr ⟨hgap, any_contains_iff.mpr htouch⟩
    dsimp only
    rw [if_neg]
    · exact ⟨_, rfl, List.mem_map_of_mem hmem⟩
    · rw [hmin]
      simpa using List.ne_nil_of_mem hmem

theorem CommonComparison.reportsGap {ι : Type} {common : List NormalizedDocument}
    {family : ι → FraudContext} (h : CommonComparison common family) (rule : RuleDefinition)
    {gap : Numbered × Numbered} (hgap : gap ∈ sequenceGaps rt (unseen [] common)) (i : ι) :
    ReportsGap rt rule (family i) gap ↔
      Touches gapDocumentIds (family i).transaction.ids gap ∧
        Leads gapDocumentIds (sequenceGaps rt (unseen [] common)) (family i).transaction.ids := by
  have hc := h.candidates_eq i
  rw [← hc] at hgap ⊢
  exact reportsGap_iff hgap

/-- A gap is reported exactly once when exactly one transaction that touches it
leads the gaps it touches. -/
theorem gap_reported_once_iff {ι : Type} {common : List NormalizedDocument}
    {family : ι → FraudContext} (h : CommonComparison common family) (rule : RuleDefinition)
    {gap : Numbered × Numbered} (hgap : gap ∈ sequenceGaps rt (unseen [] common)) :
    (∃! i, ReportsGap rt rule (family i) gap) ↔
      ∃! i, Touches gapDocumentIds (family i).transaction.ids gap ∧
        Leads gapDocumentIds (sequenceGaps rt (unseen [] common)) (family i).transaction.ids :=
  existsUnique_congr (h.reportsGap rule hgap)

/-- Three receipts of one day, each alone in its transaction, with a gap after
the first and a gap after the second. -/
def receipt (id : UUID) (number : String) : NormalizedDocument :=
  { id
    sourceDeviceId := "register"
    sourceJobId := number
    type := .commercialDocument
    externalDocumentCode := some number
    capturedAt := { micros := 0 }
    grossTotal := some 50000 }

def receipts : List NormalizedDocument := [receipt 0 "100", receipt 1 "105", receipt 2 "110"]

/-- The default settings of the two numbering rules. -/
def numberingRule (code : RuleCode) : RuleDefinition := { code, severity := .high }

/-- Each document alone in its transaction. -/
def alone (documents : List NormalizedDocument) (i : Fin documents.length) : FraudContext where
  transaction :=
    buildTransaction asciiRuntime Correlation.Scoring.standardEngine [] [documents.get i]
  comparisonDocuments := documents
  evaluatedAt := { micros := 0 }

instance (rule : RuleDefinition) (context : FraudContext) (gap : Numbered × Numbered) :
    Decidable (ReportsGap rt rule context gap) :=
  decidable_of_iff ((handler rt .documentSequenceGap context rule).any fun finding =>
      finding.evidence.contains (gapEvidence gap)) (by
    simp [ReportsGap, Option.any_eq_true])

/-- The gap after the second receipt. -/
def secondGap : Numbered × Numbered :=
  let series : Series :=
    { sourceDeviceId := "register"
      documentType := .commercialDocument
      businessDate := 0
      leading := "" }
  (⟨series, 105, receipt 1 "105"⟩, ⟨series, 110, receipt 2 "110"⟩)

theorem receipts_common : CommonComparison receipts (alone receipts) :=
  ⟨fun _ => rfl, by decide +kernel, by decide +kernel⟩

theorem secondGap_mem : secondGap ∈ sequenceGaps asciiRuntime (unseen [] receipts) := by
  decide +kernel

/-- The transaction of the last receipt leaves its gap to the one before, and
this one leaves all it touches to the first. -/
theorem receipts_lose_a_gap :
    CommonComparison receipts (alone receipts) ∧
      secondGap ∈ sequenceGaps asciiRuntime (unseen [] receipts) ∧
      (∃ i, Touches gapDocumentIds (alone receipts i).transaction.ids secondGap) ∧
      ∀ rule, ¬ ∃! i, ReportsGap asciiRuntime rule (alone receipts i) secondGap := by
  refine ⟨receipts_common, secondGap_mem, by decide +kernel, fun rule => ?_⟩
  have hnone : ∀ i, ¬ ReportsGap asciiRuntime (numberingRule .documentSequenceGap)
      (alone receipts i) secondGap := by decide +kernel
  rintro ⟨i, hi, -⟩
  -- the rule's settings are not read
  exact hnone i hi

theorem receipts_gap_iff :
    (∃! i, ReportsGap asciiRuntime (numberingRule .documentSequenceGap) (alone receipts i)
      secondGap) ↔
      ∃! i, Touches gapDocumentIds (alone receipts i).transaction.ids secondGap ∧
        Leads gapDocumentIds (sequenceGaps asciiRuntime (unseen [] receipts))
          (alone receipts i).transaction.ids :=
  gap_reported_once_iff receipts_common _ secondGap_mem

/-- So it is when no transaction that touches it touches another gap, and its
first document belongs to one of them. -/
theorem gap_reported_once_of_sole {ι : Type} {common : List NormalizedDocument}
    {family : ι → FraudContext} (h : CommonComparison common family) (rule : RuleDefinition)
    {gap : Numbered × Numbered} (hgap : gap ∈ sequenceGaps rt (unseen [] common))
    (hsole : ∀ i, Touches gapDocumentIds (family i).transaction.ids gap →
      ∀ other ∈ sequenceGaps rt (unseen [] common),
        Touches gapDocumentIds (family i).transaction.ids other → other = gap)
    (howned : ∃ i, min gap.1.document.id gap.2.document.id ∈ (family i).transaction.ids) :
    ∃! i, ReportsGap rt rule (family i) gap := by
  rw [existsUnique_congr (h.reportsGap rule hgap)]
  refine existsUnique_leader_of_sole h.disjoint hgap hsole ?_
  obtain ⟨i, hi⟩ := howned
  refine ⟨i, _, hi, ?_, ?_⟩
  · rcases min_choice gap.1.document.id gap.2.document.id with hmin | hmin <;>
      simp [gapDocumentIds, hmin]
  · intro k hk
    simp only [gapDocumentIds, List.mem_cons, List.not_mem_nil, or_false] at hk
    rcases hk with rfl | rfl
    · exact min_le_left _ _
    · exact min_le_right _ _

/-! ## Duplicates -/

/-- The documents of a group, as its ends. -/
def groupIds (group : List NormalizedDocument) : List UUID := group.map (·.id)

theorem mem_duplicateGroups {group : List NormalizedDocument}
    (h : group ∈ duplicateGroups documents) :
    ∃ key, group = documents.filter (fun document => duplicateKey document == key) ∧
      group ≠ [] := by
  simp only [duplicateGroups, List.mem_filter, List.mem_map] at h
  obtain ⟨⟨key, _, hgroup⟩, hdup⟩ := h
  refine ⟨key, hgroup.symm, ?_⟩
  rintro rfl
  simp [duplicated] at hdup

/-- The record of a group tells which group it is. -/
theorem duplicateEvidence_injOn (hd : (documents.map (·.id)).Nodup)
    {group other : List NormalizedDocument} (hgroup : group ∈ duplicateGroups documents)
    (hother : other ∈ duplicateGroups documents)
    (h : duplicateEvidence group = duplicateEvidence other) : group = other := by
  simp only [duplicateEvidence, Evidence.duplicateDocument.injEq] at h
  obtain ⟨key, hg, hne⟩ := mem_duplicateGroups hgroup
  obtain ⟨key', ho, -⟩ := mem_duplicateGroups hother
  -- a document of the one group is in the other, so their keys agree
  obtain ⟨document, hdocument⟩ := List.exists_mem_of_ne_nil _ hne
  have hid : document.id ∈ other.map (·.id) := h.1 ▸ List.mem_map_of_mem hdocument
  obtain ⟨twin, htwin, heq⟩ := List.mem_map.mp hid
  rw [hg] at hdocument
  rw [ho] at htwin
  obtain ⟨hmem, hkey⟩ := List.mem_filter.mp hdocument
  obtain ⟨hmem', hkey'⟩ := List.mem_filter.mp htwin
  have hsame : twin = document := List.inj_on_of_nodup_map hd hmem' hmem heq
  rw [hsame] at hkey'
  rw [hg, ho, ← beq_iff_eq.mp hkey, ← beq_iff_eq.mp hkey']

/-- The transaction's duplicate finding contains the group. -/
def ReportsGroup (rt : Runtime) (rule : RuleDefinition) (context : FraudContext)
    (group : List NormalizedDocument) : Prop :=
  ∃ finding, handler rt .duplicateDocument context rule = some finding ∧
    duplicateEvidence group ∈ finding.evidence

theorem reportsGroup_iff {rule : RuleDefinition} {context : FraudContext}
    {group : List NormalizedDocument} (hgroup : group ∈ duplicateGroups (candidates context)) :
    ReportsGroup rt rule context group ↔
      Touches groupIds context.transaction.ids group ∧
        Leads groupIds (duplicateGroups (candidates context)) context.transaction.ids := by
  unfold ReportsGroup handler duplicateDocument anchored
  rw [← min_owned_iff]
  constructor
  · rintro ⟨finding, hfinding, hevidence⟩
    dsimp only at hfinding
    split at hfinding
    · cases hfinding
    · next hnot =>
      cases hfinding
      simp only [Bool.or_eq_true, Bool.not_eq_true', not_or, Bool.not_eq_false] at hnot
      obtain ⟨other, hother, heq⟩ := List.mem_map.mp hevidence
      obtain ⟨hmem, htouch⟩ := List.mem_filter.mp hother
      rw [← duplicateEvidence_injOn unseen_nodup hmem hgroup heq]
      exact ⟨any_contains_iff.mp htouch, hnot.2⟩
  · rintro ⟨htouch, hmin⟩
    have hmem : group ∈ (duplicateGroups (candidates context)).filter fun documents =>
        (documents.map (·.id)).any context.transaction.ids.contains :=
      List.mem_filter.mpr ⟨hgroup, any_contains_iff.mpr htouch⟩
    dsimp only
    rw [if_neg]
    · exact ⟨_, rfl, List.mem_map_of_mem hmem⟩
    · have hmin' : (((duplicateGroups (candidates context)).filter fun documents =>
          (documents.map (·.id)).any context.transaction.ids.contains).flatMap fun documents =>
            documents.map (·.id)).min?.any context.transaction.ids.contains = true := hmin
      rw [hmin']
      simpa using List.ne_nil_of_mem hmem

theorem CommonComparison.reportsGroup {ι : Type} {common : List NormalizedDocument}
    {family : ι → FraudContext} (h : CommonComparison common family) (rule : RuleDefinition)
    {group : List NormalizedDocument} (hgroup : group ∈ duplicateGroups (unseen [] common))
    (i : ι) :
    ReportsGroup rt rule (family i) group ↔
      Touches groupIds (family i).transaction.ids group ∧
        Leads groupIds (duplicateGroups (unseen [] common)) (family i).transaction.ids := by
  have hc := h.candidates_eq i
  rw [← hc] at hgroup ⊢
  exact reportsGroup_iff hgroup

/-- A duplicate group is reported exactly once when exactly one transaction
that touches it leads the groups it touches. -/
theorem duplicate_reported_once_iff {ι : Type} {common : List NormalizedDocument}
    {family : ι → FraudContext} (h : CommonComparison common family) (rule : RuleDefinition)
    {group : List NormalizedDocument} (hgroup : group ∈ duplicateGroups (unseen [] common)) :
    (∃! i, ReportsGroup rt rule (family i) group) ↔
      ∃! i, Touches groupIds (family i).transaction.ids group ∧
        Leads groupIds (duplicateGroups (unseen [] common)) (family i).transaction.ids :=
  existsUnique_congr (h.reportsGroup rule hgroup)

/-- Two numbers printed twice: the second printing of the one and the first of
the other are one transaction. -/
def printings : List NormalizedDocument :=
  [{ receipt 0 "100" with sourceJobId := "a" }, { receipt 1 "100" with sourceJobId := "b" },
   { receipt 2 "101" with sourceJobId := "c" }, { receipt 3 "101" with sourceJobId := "d" }]

def printingGroups : List (List NormalizedDocument) :=
  [printings.take 1, (printings.drop 1).take 2, printings.drop 3]

def printingContexts (i : Fin printingGroups.length) : FraudContext where
  transaction :=
    buildTransaction asciiRuntime Correlation.Scoring.standardEngine [] (printingGroups.get i)
  comparisonDocuments := printings
  evaluatedAt := { micros := 0 }

instance (rule : RuleDefinition) (context : FraudContext) (group : List NormalizedDocument) :
    Decidable (ReportsGroup rt rule context group) :=
  decidable_of_iff ((handler rt .duplicateDocument context rule).any fun finding =>
      finding.evidence.contains (duplicateEvidence group)) (by
    simp [ReportsGroup, Option.any_eq_true])

theorem printings_common : CommonComparison printings printingContexts :=
  ⟨fun _ => rfl, by decide +kernel, by decide +kernel⟩

theorem secondPrintings_mem : printings.drop 2 ∈ duplicateGroups (unseen [] printings) := by
  decide +kernel

/-- The last transaction leaves its duplicate to the middle one, which leaves
both of its duplicates to the first. -/
theorem printings_lose_a_duplicate :
    CommonComparison printings printingContexts ∧
      printings.drop 2 ∈ duplicateGroups (unseen [] printings) ∧
      (∃ i, Touches groupIds (printingContexts i).transaction.ids (printings.drop 2)) ∧
      ∀ rule, ¬ ∃! i, ReportsGroup asciiRuntime rule (printingContexts i) (printings.drop 2) := by
  refine ⟨printings_common, secondPrintings_mem, by decide +kernel, fun rule => ?_⟩
  have hnone : ∀ i, ¬ ReportsGroup asciiRuntime (numberingRule .duplicateDocument)
      (printingContexts i) (printings.drop 2) := by decide +kernel
  rintro ⟨i, hi, -⟩
  -- the rule's settings are not read
  exact hnone i hi

theorem printings_duplicate_iff :
    (∃! i, ReportsGroup asciiRuntime (numberingRule .duplicateDocument) (printingContexts i)
      (printings.drop 2)) ↔
      ∃! i, Touches groupIds (printingContexts i).transaction.ids (printings.drop 2) ∧
        Leads groupIds (duplicateGroups (unseen [] printings))
          (printingContexts i).transaction.ids :=
  duplicate_reported_once_iff printings_common _ secondPrintings_mem

/-- So it is when no transaction that touches the group touches another, and
its least document belongs to one of them. -/
theorem duplicate_reported_once_of_sole {ι : Type} {common : List NormalizedDocument}
    {family : ι → FraudContext} (h : CommonComparison common family) (rule : RuleDefinition)
    {group : List NormalizedDocument} (hgroup : group ∈ duplicateGroups (unseen [] common))
    (hsole : ∀ i, Touches groupIds (family i).transaction.ids group →
      ∀ other ∈ duplicateGroups (unseen [] common),
        Touches groupIds (family i).transaction.ids other → other = group)
    (howned : ∃ i, ∃ least ∈ (family i).transaction.ids,
      least ∈ groupIds group ∧ ∀ id ∈ groupIds group, least ≤ id) :
    ∃! i, ReportsGroup rt rule (family i) group := by
  rw [existsUnique_congr (h.reportsGroup rule hgroup)]
  exact existsUnique_leader_of_sole h.disjoint hgroup hsole howned

end

end RetailPrintGuard.Fraud.Anchoring
