import RetailPrintGuard.Correlation.Run

/-! # Correlations of current evidence

A correlation is current while every member loads and the versions loaded are
the ones it was computed from. -/
namespace RetailPrintGuard.Correlation.Current
open RetailPrintGuard.Common.Python RetailPrintGuard.Common.Domain
open RetailPrintGuard.Library.ListOrder
open RetailPrintGuard.Correlation.Scoring RetailPrintGuard.Correlation.Engine
open RetailPrintGuard.Correlation.Acceptance RetailPrintGuard.Correlation.CandidateBatch
open RetailPrintGuard.Correlation.Loading RetailPrintGuard.Correlation.Worker
open RetailPrintGuard.Correlation.Persistence RetailPrintGuard.Correlation.Run
open RetailPrintGuard.Db.Models

/-- The fingerprint of the current versions of the documents. -/
def currentFingerprint (db : Database) (documentIds : List UUID) : Fingerprint :=
  let loaded := loadLatestDocuments db documentIds
  correlationInputFingerprint (loaded.map (·.value)) loaded

/-- Every document loads. -/
def allLoaded (db : Database) (documentIds : List UUID) : Bool :=
  documentIds.all fun id => (loadLatestDocuments db documentIds).any fun item => item.value.id == id

/-- The stored fingerprint is the one of the current versions. -/
structure CurrentInput (db : Database) (correlation : DocumentCorrelation) : Prop where
  loaded : allLoaded db correlation.memberIds = true
  fingerprint : currentFingerprint db correlation.memberIds = correlation.inputFingerprint

instance (db : Database) (correlation : DocumentCorrelation) :
    Decidable (CurrentInput db correlation) :=
  decidable_of_iff (allLoaded db correlation.memberIds = true ∧
    currentFingerprint db correlation.memberIds = correlation.inputFingerprint)
    ⟨fun h => ⟨h.1, h.2⟩, fun h => ⟨h.1, h.2⟩⟩

variable {db db' : Database} {rt : Runtime} {engine : CorrelationEngine} {limit : Nat}

theorem allLoaded_iff {documentIds : List UUID} :
    allLoaded db documentIds = true ↔
      ∀ id ∈ documentIds, ∃ row ∈ documentQuery db, row.document.id = id := by
  simp only [allLoaded, List.all_eq_true, List.any_eq_true, beq_iff_eq, mem_loadLatestDocuments]
  constructor
  · intro h id hid
    obtain ⟨item, ⟨row, hrow, -, rfl⟩, heq⟩ := h id hid
    exact ⟨row, hrow, heq⟩
  · intro h id hid
    obtain ⟨row, hrow, heq⟩ := h id hid
    exact ⟨row.load, ⟨row, hrow, heq ▸ hid, rfl⟩, heq⟩

/-- Documents loaded alike are current alike. -/
theorem CurrentInput.congr {c : DocumentCorrelation} (h : CurrentInput db c)
    (hload : ∀ item, item ∈ loadLatestDocuments db' c.memberIds ↔
      item ∈ loadLatestDocuments db c.memberIds) : CurrentInput db' c := by
  have heq := loadLatestDocuments_congr hload
  refine ⟨?_, ?_⟩
  · rw [allLoaded, heq]
    exact h.loaded
  · rw [currentFingerprint, heq]
    exact h.fingerprint

theorem currentInput_of_query {c : DocumentCorrelation} (hq : documentQuery db' = documentQuery db)
    (h : CurrentInput db c) : CurrentInput db' c :=
  h.congr fun _ => by rw [mem_loadLatestDocuments, mem_loadLatestDocuments, hq]

/-! ## Fingerprints -/

theorem inputEvidence_of_mem {loaded : List LoadedDocument}
    (hn : (loaded.map fun item => item.value.id).Nodup) {item : LoadedDocument}
    (hi : item ∈ loaded) {document : NormalizedDocument} (hid : item.value.id = document.id) :
    inputEvidence loaded document =
      some { documentId := document.id
             versionId := item.versionId
             recordHash := item.versionRecordHash } := by
  unfold inputEvidence
  cases hf : loaded.find? fun item => item.value.id == document.id with
  | none =>
    have hno := List.find?_eq_none.mp hf item hi
    simp [hid] at hno
  | some found =>
    have hfid : found.value.id = document.id := by simpa using List.find?_some hf
    have heq := List.inj_on_of_nodup_map hn (List.mem_of_find?_eq_some hf) hi
      (hfid.trans hid.symm)
    rw [heq]
    rfl

/-- The fingerprint is a function of the set of documents and their evidence. -/
theorem fingerprint_congr {documents documents' : List NormalizedDocument}
    {loaded loaded' : List LoadedDocument} (hd : DistinctIds documents)
    (hd' : DistinctIds documents') (hmem : ∀ d, d ∈ documents ↔ d ∈ documents')
    (hev : ∀ d ∈ documents, inputEvidence loaded d = inputEvidence loaded' d) :
    correlationInputFingerprint documents loaded = correlationInputFingerprint documents' loaded' := by
  have : Std.Total fun a b : NormalizedDocument => a.id ≤ b.id := ⟨fun a b => le_total a.id b.id⟩
  have : IsTrans NormalizedDocument fun a b => a.id ≤ b.id := ⟨fun _ _ _ => le_trans⟩
  have hsep : Separates (fun a b : NormalizedDocument => a.id ≤ b.id) documents :=
    fun a ha b hb hab hba => hd.eq_of_id ha hb (le_antisymm hab hba)
  rw [correlationInputFingerprint, correlationInputFingerprint,
    insertionSort_eq_of_mem_iff hsep hd.nodup hd'.nodup hmem]
  congr 1
  refine List.filterMap_congr fun d hdm => hev d ?_
  exact (hmem d).mpr (mem_sorted.mp hdm)

/-- **The row of a transaction of a run is current.** -/
theorem currentInput_of_represents {t : CorrelatedTransaction} {c : DocumentCorrelation}
    (ht : t ∈ (prepare rt engine db limit).transactions rt engine)
    (h : Represents (prepare rt engine db limit).sales t c) : CurrentInput db c := by
  have hrows : ∀ d ∈ t.documents, ∃ row ∈ documentQuery db,
      row.load ∈ (prepare rt engine db limit).sales ∧ row.value = d :=
    fun d hd => row_of_mem_values (documents_of_transaction ht hd)
  have hdistinct : DistinctIds t.documents := by
    obtain ⟨d, -, rfl⟩ := Partition.mem_correlatePairs.mp ht
    rw [Partition.buildTransaction_documents]
    exact (distinct_values.sort.filter _).sort
  have hload : ∀ d, d ∈ (loadLatestDocuments db c.memberIds).map (·.value) ↔ d ∈ t.documents := by
    intro d
    simp only [List.mem_map, mem_loadLatestDocuments]
    constructor
    · intro hm
      obtain ⟨item, ⟨row, hrow, hid, rfl⟩, rfl⟩ := hm
      obtain ⟨e, he, heid⟩ := List.mem_map.mp ((h.members _).mp hid)
      obtain ⟨row', hrow', -, rfl⟩ := hrows e he
      cases eq_of_documentId hrow' hrow heid
      exact he
    · intro hd
      obtain ⟨row, hrow, -, rfl⟩ := hrows d hd
      exact ⟨row.load, ⟨row, hrow, (h.members _).mpr (List.mem_map_of_mem hd), rfl⟩, rfl⟩
  have hsales : ((prepare rt engine db limit).sales.map fun item => item.value.id).Nodup := by
    have hv : DistinctIds (prepare rt engine db limit).values := distinct_values
    rw [DistinctIds, Analysis.values, List.map_map] at hv
    exact hv
  refine ⟨allLoaded_iff.mpr fun id hid => ?_, ?_⟩
  · obtain ⟨d, hd, rfl⟩ := List.mem_map.mp ((h.members id).mp hid)
    obtain ⟨row, hrow, -, rfl⟩ := hrows d hd
    exact ⟨row, hrow, rfl⟩
  · rw [h.fingerprint, currentFingerprint]
    refine fingerprint_congr ?_ hdistinct hload fun d hd => ?_
    · rw [DistinctIds, List.map_map]
      exact nodup_loadLatestDocuments c.memberIds
    · have hdt := (hload d).mp hd
      obtain ⟨row, hrow, hs, rfl⟩ := hrows d hdt
      have hin : row.load ∈ loadLatestDocuments db c.memberIds :=
        mem_loadLatestDocuments.mpr ⟨row, hrow, (h.members _).mpr (List.mem_map_of_mem hdt), rfl⟩
      have hleft := inputEvidence_of_mem (nodup_loadLatestDocuments c.memberIds) hin
        (rfl : row.load.value.id = row.value.id)
      have hright := inputEvidence_of_mem hsales hs (rfl : row.load.value.id = row.value.id)
      exact hleft.trans hright.symm

end RetailPrintGuard.Correlation.Current
