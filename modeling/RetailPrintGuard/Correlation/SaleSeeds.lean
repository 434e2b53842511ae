import RetailPrintGuard.Correlation.Coverage
import RetailPrintGuard.Correlation.Episodes

/-! # The sale seeds

While every uncorrelated sale document is selected, the cursor has passed the
correlated ones, so the seeds among the sale documents are the uncorrelated
ones. -/
namespace RetailPrintGuard.Correlation.SaleSeeds
open RetailPrintGuard.Common.Python RetailPrintGuard.Common.Domain
open RetailPrintGuard.Library.ListOrder
open RetailPrintGuard.Correlation.Scoring RetailPrintGuard.Correlation.Engine
open RetailPrintGuard.Correlation.Acceptance RetailPrintGuard.Correlation.CandidateBatch
open RetailPrintGuard.Correlation.Loading RetailPrintGuard.Correlation.Worker
open RetailPrintGuard.Correlation.Persistence RetailPrintGuard.Correlation.Run
open RetailPrintGuard.Correlation.Arrivals RetailPrintGuard.Correlation.Coverage
open RetailPrintGuard.Db.Models RetailPrintGuard.Parser.FirstParse RetailPrintGuard.System

/-! ## Sale documents -/

/-- The sale documents the query returns, in time order. -/
def saleDocuments (db : Database) : List NormalizedDocument :=
  sortDocuments (((documentQuery db).map QueryRow.value).filter fun document =>
    !document.type.nonSale)

/-- The sale documents in an active correlation. -/
def correlatedDocuments (db : Database) : List NormalizedDocument :=
  (saleDocuments db).filter fun document => correlated db document.id

variable {rt : Runtime} {engine : CorrelationEngine} {db db' : Database} {limit w : Nat}
  {document : NormalizedDocument}

theorem mem_saleDocuments :
    document ∈ saleDocuments db ↔ ∃ row, SaleRow db row ∧ row.value = document := by
  simp only [saleDocuments, mem_sortDocuments, List.mem_filter, List.mem_map, Bool.not_eq_true',
    SaleRow]
  constructor
  · intro h
    obtain ⟨⟨row, hrow, rfl⟩, hsale⟩ := h
    exact ⟨row, ⟨hrow, hsale⟩, rfl⟩
  · intro h
    obtain ⟨row, ⟨hrow, hsale⟩, rfl⟩ := h
    exact ⟨⟨row, hrow, rfl⟩, hsale⟩

theorem distinct_saleDocuments : DistinctIds (saleDocuments db) := by
  have hall : DistinctIds ((documentQuery db).map QueryRow.value) := by
    rw [DistinctIds, List.map_map]
    exact nodup_documentQuery
  exact (hall.filter _).sort

theorem mem_correlatedDocuments :
    document ∈ correlatedDocuments db ↔
      document ∈ saleDocuments db ∧ correlated db document.id = true := List.mem_filter

theorem distinct_correlatedDocuments : DistinctIds (correlatedDocuments db) :=
  distinct_saleDocuments.filter _

theorem correlated_sub : ∀ d ∈ correlatedDocuments db, d ∈ saleDocuments db :=
  fun _ hd => (mem_correlatedDocuments.mp hd).1

/-- Sale documents are one list for each set of them. -/
theorem correlatedDocuments_congr
    (h : ∀ d, d ∈ correlatedDocuments db' ↔ d ∈ correlatedDocuments db) :
    correlatedDocuments db' = correlatedDocuments db := by
  have hsorted : ∀ db : Database, sortDocuments (correlatedDocuments db) = correlatedDocuments db :=
    fun db => sortDocuments_sorted ((pairwise_sortDocuments _).filter _)
  rw [← hsorted db', ← hsorted db]
  exact insertionSort_eq_of_mem_iff (separates_precedes distinct_correlatedDocuments)
    distinct_correlatedDocuments.nodup distinct_correlatedDocuments.nodup h

theorem saleDocuments_congr (h : documentQuery db' = documentQuery db) :
    saleDocuments db' = saleDocuments db := by
  rw [saleDocuments, saleDocuments, h]

/-- An active correlation is about correlated sale documents. -/
theorem document_of_member (h : Growing rt db) {c : DocumentCorrelation} (hc : Active db c)
    {id : UUID} (hid : id ∈ c.memberIds) : ∃ d ∈ correlatedDocuments db, d.id = id := by
  obtain ⟨row, hrow, rfl⟩ := h.members c hc id hid
  exact ⟨row.value, mem_correlatedDocuments.mpr ⟨mem_saleDocuments.mpr ⟨row, hrow, rfl⟩,
    (correlated_iff h.sound).mpr ⟨c, hc, hid⟩⟩, rfl⟩

/-! ## The cursor -/

/-- The cursor has passed the version, under the current parsers. -/
def Passed (db : Database) (version : DocumentVersion) : Prop :=
  ∃ watermark, db.watermark = some watermark ∧ stale db watermark = false ∧
    afterCursor watermark version = false

/-- Every uncorrelated sale document is a seed. -/
def Selected (db : Database) (limit lookbackSeconds : Nat) : Prop :=
  ∀ row ∈ documentQuery db, row.value.type.nonSale = false →
    correlated db row.document.id = false → row ∈ seedRows db limit lookbackSeconds

instance (db : Database) (limit lookbackSeconds : Nat) :
    Decidable (Selected db limit lookbackSeconds) :=
  inferInstanceAs (Decidable (∀ _ ∈ _, _))

/-- The cursor has passed every correlated sale document. -/
def PassedCorrelated (db : Database) : Prop :=
  ∀ row, SaleRow db row → correlated db row.document.id = true → Passed db row.version

theorem afterCursor_latest {watermark : AnalysisWatermark} {version : DocumentVersion}
    (ht : watermark.cursorTimestamp = version.parsedAt) (hi : watermark.cursorId = version.id) :
    afterCursor watermark version = false := by
  simp [afterCursor, ht, hi]

/-- The cursor only moves on. -/
theorem afterCursor_trans {old watermark : AnalysisWatermark} {latest version : DocumentVersion}
    (ht : watermark.cursorTimestamp = latest.parsedAt) (hi : watermark.cursorId = latest.id)
    (hlatest : afterCursor old latest = true) (hv : afterCursor old version = false) :
    afterCursor watermark version = false := by
  simp only [afterCursor, ht, hi, Bool.or_eq_true, Bool.or_eq_false_iff, Bool.and_eq_true,
    Bool.and_eq_false_iff, decide_eq_true_eq, decide_eq_false_iff_not, beq_iff_eq,
    beq_eq_false_iff_ne] at *
  grind

/-- What the new cursor has passed: the last seed, and all the old one had. -/
theorem advanceWatermark_passes {rows : List QueryRow} {latest : QueryRow}
    (h : rows.getLast? = some latest) :
    ∃ watermark, advanceWatermark db w rows = some watermark ∧ stale db watermark = false ∧
      afterCursor watermark latest.version = false ∧
      ∀ version, Passed db version → afterCursor watermark version = false := by
  simp only [advanceWatermark, h]
  cases hw : db.watermark with
  | none =>
    refine ⟨_, rfl, by simp [stale], afterCursor_latest rfl rfl, ?_⟩
    intro version hp
    obtain ⟨old, hold, -⟩ := hp
    rw [hw] at hold
    cases hold
  | some watermark =>
    dsimp only
    split
    · next hmove =>
      refine ⟨_, rfl, by simp [stale], afterCursor_latest rfl rfl, ?_⟩
      intro version hp
      obtain ⟨old, hold, hfresh, hv⟩ := hp
      rw [hw] at hold
      cases hold
      rw [hfresh, Bool.false_or] at hmove
      exact afterCursor_trans rfl rfl hmove hv
    · next hno =>
      rw [Bool.or_eq_true, not_or, Bool.not_eq_true, Bool.not_eq_true] at hno
      refine ⟨watermark, rfl, hno.1, hno.2, ?_⟩
      intro version hp
      obtain ⟨old, hold, -, hv⟩ := hp
      rw [hw] at hold
      cases hold
      exact hv

/-- No seed comes after the last one. -/
theorem parsedBefore_latest {latest seed : QueryRow}
    (h : (seedRows db limit w).getLast? = some latest) (hs : seed ∈ seedRows db limit w) :
    ParsedBefore seed latest := by
  have hsort : (seedRows db limit w).Pairwise ParsedBefore :=
    (List.pairwise_insertionSort ParsedBefore _).sublist (List.take_sublist _ _)
  obtain ⟨init, hinit⟩ := List.getLast?_eq_some_iff.mp h
  rw [hinit] at hs hsort
  obtain hs | hs := List.mem_append.mp hs
  · exact (List.pairwise_append.mp hsort).2.2 seed hs latest List.mem_cons_self
  · rw [List.mem_singleton.mp hs]
    exact Or.inr ⟨rfl, le_rfl⟩

theorem not_after_of_parsedBefore {watermark : AnalysisWatermark} {row latest : QueryRow}
    (h : ParsedBefore row latest) (hl : afterCursor watermark latest.version = false) :
    afterCursor watermark row.version = false := by
  unfold ParsedBefore at h
  simp only [afterCursor, Bool.or_eq_false_iff, Bool.and_eq_false_iff, decide_eq_false_iff_not,
    beq_eq_false_iff_ne] at *
  grind

/-- After a run that selects every uncorrelated sale document, the cursor has
passed all of them. -/
theorem passed_runOnce (hp : PassedCorrelated db) (hs : Selected db limit engine.timeWindowSeconds)
    {row : QueryRow} (hrow : SaleRow db row) : Passed (runOnce rt engine db limit) row.version := by
  have hwm : (runOnce rt engine db limit).watermark = advanceWatermark db
      engine.timeWindowSeconds (seedRows db limit engine.timeWindowSeconds) :=
    watermark_runOnce.trans candidateBatch_watermark
  cases hlast : (seedRows db limit engine.timeWindowSeconds).getLast? with
  | none =>
    have hnil := List.getLast?_eq_none_iff.mp hlast
    have hcorr : correlated db row.document.id = true := by
      refine Bool.not_eq_false _ |>.mp fun hun => ?_
      have hin := hs row hrow.1 hrow.2 hun
      rw [hnil] at hin
      exact List.not_mem_nil hin
    obtain ⟨watermark, hw, hfresh, hafter⟩ := hp row hrow hcorr
    simp only [advanceWatermark, hlast] at hwm
    exact ⟨watermark, hwm.trans hw, (stale_runOnce watermark).trans hfresh, hafter⟩
  | some latest =>
    obtain ⟨watermark, hadv, hfresh, hlatest, hold⟩ :=
      @advanceWatermark_passes db engine.timeWindowSeconds _ _ hlast
    refine ⟨watermark, hwm.trans hadv, (stale_runOnce watermark).trans hfresh, ?_⟩
    cases hcorr : correlated db row.document.id with
    | true => exact hold _ (hp row hrow hcorr)
    | false =>
      have hin := hs row hrow.1 hrow.2 hcorr
      exact not_after_of_parsedBefore (parsedBefore_latest hlast hin) hlatest

/-- **The seeds among the sale documents are the uncorrelated ones.** -/
theorem mem_seedRows_iff (hp : PassedCorrelated db) (hs : Selected db limit w) {row : QueryRow}
    (hrow : SaleRow db row) :
    row ∈ seedRows db limit w ↔ correlated db row.document.id = false := by
  constructor
  · intro hm
    cases hcorr : correlated db row.document.id with
    | false => rfl
    | true =>
      obtain ⟨watermark, hw, hfresh, hafter⟩ := hp row hrow hcorr
      have he := (mem_seedRows hm).2
      simp only [seedEligible, hw, hfresh, hafter, hcorr, Bool.not_true, Bool.or_self,
        Bool.and_false, Bool.false_eq_true] at he
  · exact hs row hrow.1 hrow.2

end RetailPrintGuard.Correlation.SaleSeeds
