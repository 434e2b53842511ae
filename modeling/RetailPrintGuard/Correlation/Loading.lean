import RetailPrintGuard.Correlation.Acceptance
import RetailPrintGuard.Correlation.CandidateBatch

/-! # What the document query returns

One row a document, of the document table; loading keeps the ids apart. -/
namespace RetailPrintGuard.Correlation.Loading
open RetailPrintGuard.Common.Python RetailPrintGuard.Common.Domain
open RetailPrintGuard.Library RetailPrintGuard.Library.ListOrder
open RetailPrintGuard.Correlation.Scoring RetailPrintGuard.Correlation.Engine
open RetailPrintGuard.Correlation.Acceptance RetailPrintGuard.Correlation.CandidateBatch
open RetailPrintGuard.Db.Models

variable {db db' : Database} {rt : Runtime} {limit lookbackSeconds : Nat}

/-! ## Rows -/

theorem queryRow_eq_some {document : Document} {row : QueryRow} :
    queryRow db document = some row ↔ row.document = document ∧
      latestVersion db document.id = some row.version ∧
      db.jobs.find document.jobId = some row.job ∧ analysable row.job = true := by
  unfold queryRow
  constructor
  · intro h
    split at h
    · next version job hv hj =>
      split at h
      · next ha =>
        cases h
        exact ⟨rfl, hv, hj, ha⟩
      · cases h
    · cases h
  · intro h
    obtain ⟨rfl, hv, hj, ha⟩ := h
    rw [hv, hj]
    exact if_pos ha

theorem mem_documentQuery {row : QueryRow} :
    row ∈ documentQuery db ↔ row.document ∈ db.documents ∧ queryRow db row.document = some row := by
  simp only [documentQuery, List.mem_filterMap]
  constructor
  · intro h
    obtain ⟨document, hm, hq⟩ := h
    obtain ⟨rfl, -⟩ := queryRow_eq_some.mp hq
    exact ⟨hm, hq⟩
  · intro h
    exact ⟨row.document, h.1, h.2⟩

theorem nodup_documentQuery : ((documentQuery db).map fun row => row.document.id).Nodup := by
  have hsub : ∀ l : List Document, ((l.filterMap (queryRow db)).map fun row =>
      row.document.id).Sublist (l.map Document.id) := by
    intro l
    induction l with
    | nil => exact List.Sublist.slnil
    | cons document rest ih =>
      cases hq : queryRow db document with
      | none =>
        rw [List.filterMap_cons_none hq]
        exact ih.cons _
      | some row =>
        obtain ⟨rfl, -⟩ := queryRow_eq_some.mp hq
        rw [List.filterMap_cons_some hq]
        exact ih.cons_cons _
  exact (hsub db.documents.rows).nodup db.documents.primaryKey

/-- A document has one row. -/
theorem eq_of_documentId {a b : QueryRow} (ha : a ∈ documentQuery db) (hb : b ∈ documentQuery db)
    (h : a.document.id = b.document.id) : a = b := List.inj_on_of_nodup_map nodup_documentQuery ha hb h

theorem mem_latestVersion {documentId : UUID} {version : DocumentVersion}
    (h : latestVersion db documentId = some version) :
    version ∈ db.versions ∧ version.documentId = documentId := by
  have hm := List.mem_of_mem_head? h
  rw [mem_sorted, List.mem_filter] at hm
  exact ⟨hm.1, by simpa using hm.2⟩

theorem version_of_row {row : QueryRow} (h : row ∈ documentQuery db) :
    row.version ∈ db.versions ∧ row.version.documentId = row.document.id :=
  mem_latestVersion (queryRow_eq_some.mp (mem_documentQuery.mp h).2).2.1

/-- A version stands in one row. -/
theorem eq_of_versionId {a b : QueryRow} (ha : a ∈ documentQuery db) (hb : b ∈ documentQuery db)
    (h : a.version.id = b.version.id) : a = b := by
  obtain ⟨hva, hda⟩ := version_of_row ha
  obtain ⟨hvb, hdb⟩ := version_of_row hb
  have hv := Table.eq_of_key hva hvb h
  exact eq_of_documentId ha hb (by rw [← hda, ← hdb, hv])

/-- The rows are read from documents, versions, jobs and parsers. -/
theorem latestVersion_congr (hv : db'.versions = db.versions)
    (hp : db'.parserVersions = db.parserVersions) (ha : db'.activeParsers = db.activeParsers)
    (documentId : UUID) : latestVersion db' documentId = latestVersion db documentId := by
  have hrank : activationRank db' = activationRank db := by
    funext version
    simp only [activationRank, hp, ha]
  have hnewer : Newer db' = Newer db := by
    funext a b
    simp only [Newer, hrank]
  unfold latestVersion
  rw [hv]
  simp only [hnewer]

theorem documentQuery_congr (hj : db'.jobs = db.jobs) (hd : db'.documents = db.documents)
    (hv : db'.versions = db.versions) (hp : db'.parserVersions = db.parserVersions)
    (ha : db'.activeParsers = db.activeParsers) : documentQuery db' = documentQuery db := by
  have hrow : queryRow db' = queryRow db := by
    funext document
    simp only [queryRow, latestVersion_congr hv hp ha, hj]
  simp only [documentQuery, hrow, hd]

/-! ## Loaded documents -/

theorem mem_loadLatestDocuments {ids : List UUID} {item : LoadedDocument} :
    item ∈ loadLatestDocuments db ids ↔
      ∃ row ∈ documentQuery db, row.document.id ∈ ids ∧ row.load = item := by
  simp [loadLatestDocuments, List.mem_map, List.mem_filter, and_assoc]

theorem nodup_loadLatestDocuments (ids : List UUID) :
    ((loadLatestDocuments db ids).map fun item => item.value.id).Nodup := by
  have hperm := (List.perm_insertionSort LoadedBefore
    (((documentQuery db).filter fun row => ids.contains row.document.id).map QueryRow.load)).map
      fun item => item.value.id
  rw [loadLatestDocuments, hperm.nodup_iff, List.map_map]
  exact List.Nodup.sublist (List.filter_sublist.map _) nodup_documentQuery

instance : Std.Total LoadedBefore where
  total a b := Std.Total.total (r := NormalizedDocument.Precedes) a.value b.value

instance : IsTrans LoadedDocument LoadedBefore where
  trans _ _ _ h k := IsTrans.trans (r := NormalizedDocument.Precedes) _ _ _ h k

/-- What loads depends on the rows of the documents asked for. -/
theorem loadLatestDocuments_congr {ids : List UUID}
    (h : ∀ item, item ∈ loadLatestDocuments db' ids ↔ item ∈ loadLatestDocuments db ids) :
    loadLatestDocuments db' ids = loadLatestDocuments db ids := by
  have hsorted : ∀ d : Database, (loadLatestDocuments d ids).insertionSort LoadedBefore =
      loadLatestDocuments d ids := fun d => (List.pairwise_insertionSort _ _).insertionSort_eq
  have hkeep : ∀ d : Database, (loadLatestDocuments d ids).Nodup :=
    fun d => List.Nodup.of_map _ (nodup_loadLatestDocuments ids)
  rw [← hsorted db', ← hsorted db]
  refine insertionSort_eq_of_mem_iff ?_ (hkeep db') (hkeep db) h
  intro a ha b hb hab hba
  exact List.inj_on_of_nodup_map (nodup_loadLatestDocuments ids) ha hb (hab.id_eq hba)

/-! ## Seeds -/

theorem mem_seedRows {row : QueryRow} (h : row ∈ seedRows db limit lookbackSeconds) :
    row ∈ documentQuery db ∧ seedEligible db lookbackSeconds row = true := by
  have hm := List.mem_of_mem_take h
  rw [mem_sorted, List.mem_filter] at hm
  exact hm

instance : Std.Total ParsedBefore where
  total a b := by unfold ParsedBefore; grind

instance : IsTrans QueryRow ParsedBefore where
  trans a b c := by unfold ParsedBefore; grind

/-- With room for one seed, none selected is none eligible. -/
theorem not_eligible_of_seedRows_eq_nil (hl : 0 < limit) (h : seedRows db limit lookbackSeconds = [])
    {row : QueryRow} (hrow : row ∈ documentQuery db) :
    seedEligible db lookbackSeconds row = false := by
  rw [seedRows, List.take_eq_nil_iff] at h
  rw [Bool.eq_false_iff]
  intro he
  obtain h | h := h
  · exact hl.ne' h
  · have hm : row ∈ ((documentQuery db).filter (seedEligible db lookbackSeconds)).insertionSort
        ParsedBefore := mem_sorted.mpr (List.mem_filter.mpr ⟨hrow, he⟩)
    rw [h] at hm
    exact List.not_mem_nil hm

/-- An eligible row the limit cut off comes after every seed. -/
theorem parsedBefore_of_not_mem {row seed : QueryRow} (hrow : row ∈ documentQuery db)
    (he : seedEligible db lookbackSeconds row = true)
    (hn : row ∉ seedRows db limit lookbackSeconds) (hs : seed ∈ seedRows db limit lookbackSeconds) :
    seed.version.parsedAt.micros < row.version.parsedAt.micros ∨
      (seed.version.parsedAt.micros = row.version.parsedAt.micros ∧
        seed.version.id < row.version.id) := by
  have hsort := List.pairwise_insertionSort ParsedBefore
    ((documentQuery db).filter (seedEligible db lookbackSeconds))
  rw [← List.take_append_drop limit (List.insertionSort _ _), List.pairwise_append] at hsort
  have hm : row ∈ ((documentQuery db).filter (seedEligible db lookbackSeconds)).insertionSort
      ParsedBefore := mem_sorted.mpr (List.mem_filter.mpr ⟨hrow, he⟩)
  rw [← List.take_append_drop limit (List.insertionSort _ _), List.mem_append] at hm
  have hb : ParsedBefore seed row := hsort.2.2 seed hs row (hm.resolve_left hn)
  have hne : seed.version.id ≠ row.version.id := by
    intro heq
    rw [eq_of_versionId (mem_seedRows hs).1 hrow heq] at hs
    exact hn hs
  unfold ParsedBefore at hb
  grind

theorem mem_seedIds {id : UUID} :
    id ∈ seedIds db limit lookbackSeconds ↔
      ∃ row ∈ seedRows db limit lookbackSeconds, row.document.id = id := List.mem_map

theorem mem_seedDocuments {document : NormalizedDocument} :
    document ∈ seedDocuments db limit lookbackSeconds ↔
      ∃ row ∈ seedRows db limit lookbackSeconds, row.value = document := by
  simp only [seedDocuments, List.mem_map, mem_loadLatestDocuments, mem_seedIds]
  constructor
  · intro h
    obtain ⟨item, ⟨row, hrow, ⟨seed, hseed, hid⟩, rfl⟩, rfl⟩ := h
    cases eq_of_documentId (mem_seedRows hseed).1 hrow hid
    exact ⟨row, hseed, rfl⟩
  · intro h
    obtain ⟨row, hrow, rfl⟩ := h
    exact ⟨row.load, ⟨row, (mem_seedRows hrow).1, ⟨row, hrow, rfl⟩, rfl⟩, rfl⟩

theorem mem_candidateIds {row : QueryRow} (h : row ∈ documentQuery db) :
    row.document.id ∈ candidateIds rt db limit lookbackSeconds ↔
      candidateRow rt db limit lookbackSeconds row = true := by
  simp only [candidateIds, List.mem_map, List.mem_filter]
  constructor
  · intro hm
    obtain ⟨other, ⟨ho, hc⟩, hid⟩ := hm
    cases eq_of_documentId ho h hid
    exact hc
  · intro hc
    exact ⟨row, ⟨h, hc⟩, rfl⟩

/-- The documents a batch loads, when it has a seed. -/
theorem mem_candidateBatch (hne : seedRows db limit lookbackSeconds ≠ []) {item : LoadedDocument} :
    item ∈ (candidateBatch rt db limit lookbackSeconds).loaded ↔
      ∃ row ∈ documentQuery db, candidateRow rt db limit lookbackSeconds row = true ∧
        row.load = item := by
  have hempty : (seedRows db limit lookbackSeconds).isEmpty = false := by
    simpa using hne
  simp only [candidateBatch, hempty, Bool.false_eq_true, if_false, mem_loadLatestDocuments]
  constructor
  · intro h
    obtain ⟨row, hrow, hid, rfl⟩ := h
    exact ⟨row, hrow, (mem_candidateIds hrow).mp hid, rfl⟩
  · intro h
    obtain ⟨row, hrow, hc, rfl⟩ := h
    exact ⟨row, hrow, (mem_candidateIds hrow).mpr hc, rfl⟩

theorem candidateBatch_empty (h : seedRows db limit lookbackSeconds = []) :
    candidateBatch rt db limit lookbackSeconds = ⟨[], [], db.watermark⟩ := by
  simp [candidateBatch, h]

theorem candidateBatch_seedIds :
    (candidateBatch rt db limit lookbackSeconds).seedIds = seedIds db limit lookbackSeconds := by
  unfold candidateBatch seedIds
  cases h : seedRows db limit lookbackSeconds with
  | nil => rfl
  | cons row rows => rfl

/-- Every loaded document is the row of a document. -/
theorem row_of_mem_candidateBatch {item : LoadedDocument}
    (h : item ∈ (candidateBatch rt db limit lookbackSeconds).loaded) :
    ∃ row ∈ documentQuery db, row.load = item := by
  by_cases hne : seedRows db limit lookbackSeconds = []
  · rw [candidateBatch_empty hne] at h
    exact absurd h List.not_mem_nil
  · obtain ⟨row, hrow, -, rfl⟩ := (mem_candidateBatch hne).mp h
    exact ⟨row, hrow, rfl⟩

theorem nodup_candidateBatch :
    ((candidateBatch rt db limit lookbackSeconds).loaded.map fun item => item.value.id).Nodup := by
  unfold candidateBatch
  dsimp only
  split
  · exact List.nodup_nil
  · exact nodup_loadLatestDocuments _

end RetailPrintGuard.Correlation.Loading
