import RetailPrintGuard.Correlation.Loading
import RetailPrintGuard.Correlation.Partition
import RetailPrintGuard.Correlation.Persistence

/-! # What a run does

The documents of a run are rows of the query with distinct ids, so its
transactions are disjoint and persisting them is described at once. -/
namespace RetailPrintGuard.Correlation.Run
open RetailPrintGuard.Common.Python RetailPrintGuard.Common.Domain
open RetailPrintGuard.Library.ListOrder
open RetailPrintGuard.Correlation.Scoring RetailPrintGuard.Correlation.Engine
open RetailPrintGuard.Correlation.Acceptance RetailPrintGuard.Correlation.Partition
open RetailPrintGuard.Correlation.CandidateBatch RetailPrintGuard.Correlation.Loading
open RetailPrintGuard.Correlation.Worker RetailPrintGuard.Correlation.Persistence
open RetailPrintGuard.Db.Models

variable (rt : Runtime) (engine : CorrelationEngine) (db : Database) (limit : Nat)

/-! ## The documents of a run -/

/-- The non-sale documents of the batch. -/
def nonSaleIds : List UUID :=
  ((candidateBatch rt db limit engine.timeWindowSeconds).loaded.filter
    fun item => item.value.type.nonSale).map (·.value.id)

/-- The members of the correlations the run retires. -/
def retiredIds : List UUID := (supersedeNonSaleCorrelations db (nonSaleIds rt engine db limit)).2

variable {rt engine db limit}

theorem mem_retiredIds {id : UUID} :
    id ∈ retiredIds rt engine db limit ↔ ∃ c, Active db c ∧
      c.overlaps (nonSaleIds rt engine db limit) = true ∧ id ∈ c.memberIds := by
  simp [retiredIds, supersedeNonSaleCorrelations, nonSaleCorrelation, Active, and_assoc]

theorem prepare_seedIds :
    (prepare rt engine db limit).seedIds =
      seedIds db limit engine.timeWindowSeconds ++ retiredIds rt engine db limit :=
  congrArg (fun ids => ids ++ retiredIds rt engine db limit) candidateBatch_seedIds

theorem prepare_loaded :
    (prepare rt engine db limit).loaded =
      if (retiredIds rt engine db limit).isEmpty then
        (candidateBatch rt db limit engine.timeWindowSeconds).loaded
      else
        ((candidateBatch rt db limit engine.timeWindowSeconds).loaded ++
          loadLatestDocuments db ((retiredIds rt engine db limit).filter fun id =>
            !((candidateBatch rt db limit engine.timeWindowSeconds).loaded.map
              (·.value.id)).contains id)).insertionSort LoadedBefore := rfl

theorem mem_prepare_of_batch {item : LoadedDocument}
    (h : item ∈ (candidateBatch rt db limit engine.timeWindowSeconds).loaded) :
    item ∈ (prepare rt engine db limit).loaded := by
  rw [prepare_loaded]
  split
  · exact h
  · exact mem_sorted.mpr (List.mem_append_left _ h)

/-- Every document of a run is the row of a document. -/
theorem row_of_mem_prepare {item : LoadedDocument}
    (h : item ∈ (prepare rt engine db limit).loaded) :
    ∃ row ∈ documentQuery db, row.load = item := by
  rw [prepare_loaded] at h
  split at h
  · exact row_of_mem_candidateBatch h
  · obtain h | h := List.mem_append.mp (mem_sorted.mp h)
    · exact row_of_mem_candidateBatch h
    · obtain ⟨row, hrow, -, hload⟩ := mem_loadLatestDocuments.mp h
      exact ⟨row, hrow, hload⟩

/-- The members of a retired correlation are loaded. -/
theorem mem_prepare_of_retired {row : QueryRow} (hrow : row ∈ documentQuery db)
    (hr : row.document.id ∈ retiredIds rt engine db limit) :
    row.load ∈ (prepare rt engine db limit).loaded := by
  have hne : (retiredIds rt engine db limit).isEmpty = false := by
    rw [List.isEmpty_eq_false_iff]
    exact List.ne_nil_of_mem hr
  by_cases hm : row.document.id ∈ (candidateBatch rt db limit engine.timeWindowSeconds).loaded.map
      (·.value.id)
  · obtain ⟨item, hi, hid⟩ := List.mem_map.mp hm
    obtain ⟨other, hother, rfl⟩ := row_of_mem_candidateBatch hi
    cases eq_of_documentId hother hrow hid
    exact mem_prepare_of_batch hi
  · rw [prepare_loaded, hne]
    refine mem_sorted.mpr (List.mem_append_right _ (mem_loadLatestDocuments.mpr ⟨row, hrow, ?_, rfl⟩))
    exact List.mem_filter.mpr ⟨hr, by simpa using hm⟩

theorem nodup_prepare : ((prepare rt engine db limit).loaded.map fun item => item.value.id).Nodup := by
  rw [prepare_loaded]
  split
  · exact nodup_candidateBatch
  · rw [((List.perm_insertionSort LoadedBefore _).map _).nodup_iff, List.map_append,
      List.nodup_append]
    refine ⟨nodup_candidateBatch, nodup_loadLatestDocuments _, ?_⟩
    intro a ha b hb hab
    subst hab
    obtain ⟨item, hi, rfl⟩ := List.mem_map.mp hb
    obtain ⟨row, -, hid, rfl⟩ := mem_loadLatestDocuments.mp hi
    have hno := (List.mem_filter.mp hid).2
    have hin : ((candidateBatch rt db limit engine.timeWindowSeconds).loaded.map
        (·.value.id)).contains row.document.id = true := List.contains_iff_mem.mpr ha
    rw [hin] at hno
    cases hno

/-- The documents the engine is given. -/
theorem mem_values {document : NormalizedDocument} :
    document ∈ (prepare rt engine db limit).values ↔
      ∃ item ∈ (prepare rt engine db limit).loaded, item.value.type.nonSale = false ∧
        item.value = document := by
  simp [Analysis.values, Analysis.sales, and_assoc]

theorem row_of_mem_values {document : NormalizedDocument}
    (h : document ∈ (prepare rt engine db limit).values) :
    ∃ row ∈ documentQuery db, row.load ∈ (prepare rt engine db limit).sales ∧
      row.value = document := by
  obtain ⟨item, hi, hsale, rfl⟩ := mem_values.mp h
  obtain ⟨row, hrow, rfl⟩ := row_of_mem_prepare hi
  exact ⟨row, hrow, List.mem_filter.mpr ⟨hi, by simpa using hsale⟩, rfl⟩

theorem distinct_values : DistinctIds (prepare rt engine db limit).values := by
  unfold DistinctIds Analysis.values Analysis.sales
  rw [List.map_map]
  exact List.Nodup.sublist (List.filter_sublist.map _) nodup_prepare

/-! ## The transactions of a run -/

theorem mem_persisted {t : CorrelatedTransaction} :
    t ∈ (prepare rt engine db limit).persisted rt engine ↔
      t ∈ (prepare rt engine db limit).transactions rt engine ∧
        ∃ id ∈ t.ids, id ∈ (prepare rt engine db limit).seedIds := by
  simp [Analysis.persisted, hasSeed]

theorem documents_of_transaction {t : CorrelatedTransaction}
    (h : t ∈ (prepare rt engine db limit).transactions rt engine) {document : NormalizedDocument}
    (hd : document ∈ t.documents) : document ∈ (prepare rt engine db limit).values := by
  obtain ⟨d, -, rfl⟩ := mem_correlatePairs.mp h
  rw [buildTransaction_documents, mem_sortDocuments, mem_classOf] at hd
  exact mem_sortDocuments.mp hd.1

theorem covered_transaction {t : CorrelatedTransaction}
    (h : t ∈ (prepare rt engine db limit).transactions rt engine) :
    Covered (prepare rt engine db limit).sales t := by
  intro document hd
  obtain ⟨row, -, hs, hv⟩ := row_of_mem_values (documents_of_transaction h hd)
  exact ⟨row.load, hs, congrArg NormalizedDocument.id hv⟩

/-- Two transactions of a run with a common id are one. -/
theorem disjoint_transactions : Disjoint ((prepare rt engine db limit).transactions rt engine) := by
  intro t ht t' ht' id hid hid'
  obtain ⟨d, hd, rfl⟩ := List.mem_map.mp hid
  obtain ⟨d', hd', heq⟩ := List.mem_map.mp hid'
  have hdd := distinct_values.eq_of_id (documents_of_transaction ht' hd')
    (documents_of_transaction ht hd) heq
  subst hdd
  exact eq_of_mem_correlatePairs (pairwise_sortDocuments _) ht ht' hd hd'

/-- Every document of a run is in a transaction. -/
theorem transaction_of_mem_values {document : NormalizedDocument}
    (h : document ∈ (prepare rt engine db limit).values) :
    ∃ t ∈ (prepare rt engine db limit).transactions rt engine, document ∈ t.documents := by
  refine ⟨_, mem_correlatePairs.mpr ⟨document, mem_sortDocuments.mpr h, rfl⟩, ?_⟩
  rw [buildTransaction_documents, mem_sortDocuments]
  exact mem_classOf_self (mem_sortDocuments.mpr h)

/-- A seed the engine is given is persisted. -/
theorem persisted_of_seed {document : NormalizedDocument}
    (h : document ∈ (prepare rt engine db limit).values)
    (hs : document.id ∈ (prepare rt engine db limit).seedIds) :
    ∃ t ∈ (prepare rt engine db limit).persisted rt engine, document ∈ t.documents := by
  obtain ⟨t, ht, hd⟩ := transaction_of_mem_values h
  exact ⟨t, mem_persisted.mpr ⟨ht, document.id, List.mem_map_of_mem hd, hs⟩, hd⟩

/-! ## The database after a run -/

/-- What the retirement leaves active. -/
theorem active_prepare {c : DocumentCorrelation} :
    Active (prepare rt engine db limit).database c ↔
      Active db c ∧ c.overlaps (nonSaleIds rt engine db limit) = false := by
  have hframe : Active (prepare rt engine db limit).database c ↔
      Active (supersedeWhere db (nonSaleCorrelation (nonSaleIds rt engine db limit))) c := Iff.rfl
  rw [hframe, active_supersedeWhere]
  constructor
  · intro h
    obtain ⟨ha, hq⟩ := h
    rw [nonSaleCorrelation, ha.2, Bool.true_and] at hq
    exact ⟨ha, hq⟩
  · intro h
    exact ⟨h.1, by rw [nonSaleCorrelation, h.2, Bool.and_false]⟩

theorem sound_prepare (h : Sound rt db) : Sound rt (prepare rt engine db limit).database :=
  (h.supersedeWhere : Sound rt (supersedeWhere db (nonSaleCorrelation
    (nonSaleIds rt engine db limit)))).frame rfl le_rfl

/-- **A run persists its transactions with a seed** over what the retirement
left. -/
theorem runOnce_spec (h : Sound rt db) :
    PersistedAll rt (prepare rt engine db limit).database (runOnce rt engine db limit)
      (prepare rt engine db limit).sales ((prepare rt engine db limit).persisted rt engine) :=
  persistAll_spec (sound_prepare h) (fun _ ht => covered_transaction (mem_persisted.mp ht).1)
    (fun t ht t' ht' => disjoint_transactions t (mem_persisted.mp ht).1 t' (mem_persisted.mp ht').1)

theorem sameInput_runOnce : SameInput db (runOnce rt engine db limit) :=
  (⟨rfl, rfl, rfl, rfl, rfl⟩ : SameInput db (prepare rt engine db limit).database).trans
    (sameInput_persistAll rt engine _ _ _).1

theorem drawn_le_runOnce : db.drawn ≤ (runOnce rt engine db limit).drawn :=
  drawn_le_persistAll rt engine (prepare rt engine db limit).database _ _

theorem watermark_runOnce :
    (runOnce rt engine db limit).watermark =
      (candidateBatch rt db limit engine.timeWindowSeconds).watermark :=
  (sameInput_persistAll rt engine (prepare rt engine db limit).database _ _).2

theorem documentQuery_runOnce : documentQuery (runOnce rt engine db limit) = documentQuery db :=
  documentQuery_congr sameInput_runOnce.jobs sameInput_runOnce.documents
    sameInput_runOnce.versions sameInput_runOnce.parserVersions sameInput_runOnce.activeParsers

end RetailPrintGuard.Correlation.Run
