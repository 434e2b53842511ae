import RetailPrintGuard.Correlation.Loading
import RetailPrintGuard.System

/-! # When the indexed neighbourhood is complete

The query bounds capture times by the printed times of the seeds, and looks
up each seed's keys among the columns of the other documents. Blocking in
memory bounds printed times, and forms its blocks from both sides. -/
namespace RetailPrintGuard.Correlation.Neighbourhood
open RetailPrintGuard.Common.Python RetailPrintGuard.Common.Domain
open RetailPrintGuard.Library.ListOrder RetailPrintGuard.Db.Models
open RetailPrintGuard.Correlation.Scoring RetailPrintGuard.Correlation.Engine
open RetailPrintGuard.Correlation.Acceptance RetailPrintGuard.Correlation.Partition
open RetailPrintGuard.Correlation.Blocking RetailPrintGuard.Correlation.CandidateBatch
open RetailPrintGuard.Correlation.Loading RetailPrintGuard.Parser.Repository
open RetailPrintGuard.System

/-! ## The two sets of pairs -/

/-- Every analysable document. -/
def analysableDocuments (db : Database) : List NormalizedDocument :=
  sortDocuments ((documentQuery db).map QueryRow.value)

/-- The documents a batch loads. -/
def batchDocuments (rt : Runtime) (db : Database) (limit lookbackSeconds : Nat) :
    List NormalizedDocument :=
  (candidateBatch rt db limit lookbackSeconds).loaded.map (·.value)

/-- The pair is formed from the documents. -/
def Formed (rt : Runtime) (db : Database) (limit lookbackSeconds : Nat)
    (documents : List NormalizedDocument) (a b : NormalizedDocument) : Prop :=
  Listed (candidatePairs rt documents (seedIds db limit lookbackSeconds) lookbackSeconds) a.id b.id

instance (rt : Runtime) (db : Database) (limit lookbackSeconds : Nat)
    (documents : List NormalizedDocument) (a b : NormalizedDocument) :
    Decidable (Formed rt db limit lookbackSeconds documents a b) :=
  inferInstanceAs (Decidable (_ ∨ _))

/-- Every pair formed from all analysable documents is formed from the batch. -/
def NeighbourhoodComplete (rt : Runtime) (db : Database) (limit lookbackSeconds : Nat) : Prop :=
  ∀ a ∈ analysableDocuments db, ∀ b ∈ analysableDocuments db, a ≠ b →
    Formed rt db limit lookbackSeconds (analysableDocuments db) a b →
      Formed rt db limit lookbackSeconds (batchDocuments rt db limit lookbackSeconds) a b

instance (rt : Runtime) (db : Database) (limit lookbackSeconds : Nat) :
    Decidable (NeighbourhoodComplete rt db limit lookbackSeconds) :=
  inferInstanceAs (Decidable (∀ _ ∈ _, ∀ _ ∈ _, _))

variable {rt : Runtime} {db : Database} {limit lookbackSeconds : Nat}

theorem mem_analysableDocuments {document : NormalizedDocument} :
    document ∈ analysableDocuments db ↔ ∃ row ∈ documentQuery db, row.value = document := by
  simp [analysableDocuments]

theorem distinct_analysableDocuments : DistinctIds (analysableDocuments db) := by
  refine DistinctIds.sort ?_
  unfold DistinctIds
  rw [List.map_map]
  exact nodup_documentQuery

theorem distinct_batchDocuments : DistinctIds (batchDocuments rt db limit lookbackSeconds) := by
  unfold DistinctIds batchDocuments
  rw [List.map_map]
  exact nodup_candidateBatch

theorem mem_batchDocuments (hne : seedRows db limit lookbackSeconds ≠ []) {row : QueryRow}
    (hrow : row ∈ documentQuery db) :
    row.value ∈ batchDocuments rt db limit lookbackSeconds ↔
      candidateRow rt db limit lookbackSeconds row = true := by
  simp only [batchDocuments, List.mem_map, mem_candidateBatch hne]
  constructor
  · intro h
    obtain ⟨item, ⟨other, ho, hc, rfl⟩, hv⟩ := h
    cases eq_of_documentId ho hrow (congrArg NormalizedDocument.id hv)
    exact hc
  · intro h
    exact ⟨row.load, ⟨row, hrow, h, rfl⟩, rfl⟩

/-- A formed pair is a pair of the documents. -/
theorem mem_of_formed {documents : List NormalizedDocument} {a b : NormalizedDocument}
    (h : Formed rt db limit lookbackSeconds documents a b) :
    (∃ x ∈ documents, x.id = a.id) ∧ ∃ y ∈ documents, y.id = b.id := by
  have hpair : ∀ x y : UUID, (x, y) ∈ candidatePairs rt documents
      (seedIds db limit lookbackSeconds) lookbackSeconds →
      (∃ d ∈ documents, d.id = x) ∧ ∃ d ∈ documents, d.id = y := by
    intro x y hm
    simp only [candidatePairs, List.mem_flatMap, List.mem_map, List.mem_filter] at hm
    obtain ⟨key, -, ⟨left, right⟩, ⟨hp, -⟩, heq⟩ := hm
    cases heq
    obtain ⟨hl, hr⟩ := mem_of_mem_orderedPairs hp
    exact ⟨⟨left, (mem_block.mp hl).1, rfl⟩, right, (mem_block.mp hr).1, rfl⟩
  obtain h | h := h
  · exact hpair _ _ h
  · exact (hpair _ _ h).symm

/-! ## The keys the query looks up -/

/-- A common block the query finds from the seed: any but a printed counter,
or the counter the seed cites of a commercial document. -/
def LookedUp (rt : Runtime) (seed other : NormalizedDocument) : Prop :=
  ∃ key ∈ blockKeys rt seed, key ∈ blockKeys rt other ∧ (key.1 = "commercial_suffix" →
    other.type = .commercialDocument ∧
      Blocking.printedCounterSuffix rt seed.commercialReferenceCode = some key.2)

theorem mem_keyFor_iff {name : String} {value : Option String} {key : String × String} :
    key ∈ keyFor name value ↔ key.1 = name ∧ value = some key.2 ∧ key.2 ≠ "" := by
  cases value with
  | none => simp [keyFor]
  | some value =>
    by_cases hv : value = ""
    · simp only [keyFor, hv, if_true, List.not_mem_nil, false_iff]
      rintro ⟨-, heq, hne⟩
      exact hne (Option.some.inj heq).symm
    · simp only [keyFor, hv, if_false, List.mem_singleton, Option.some.injEq]
      constructor
      · intro h
        subst h
        exact ⟨rfl, rfl, hv⟩
      · intro h
        exact Prod.ext h.1 h.2.1.symm

/-- A code of some seed on the column of the row. -/
theorem sqlIn_of_mem (rt : Runtime) {column : Option String} {codes : List String} {code : String}
    (hc : column = some code) (hm : code ∈ codes) : sqlIn rt column codes = true := by
  subst hc
  simp only [sqlIn, Option.any_some, List.any_eq_true, beq_iff_eq]
  exact ⟨code, hm, rfl⟩

theorem mem_codesOf (field : NormalizedDocument → Option String) {seeds : List NormalizedDocument}
    {seed : NormalizedDocument} {code : String} (hs : seed ∈ seeds) (hf : field seed = some code)
    (hne : code ≠ "") : code ∈ codesOf field seeds := by
  refine List.mem_filterMap.mpr ⟨seed, hs, ?_⟩
  rw [hf]
  simp [Option.filter, hne]

/-- The blocks of a document, key by key. -/
theorem mem_blockKeys {document : NormalizedDocument} {key : String × String} :
    key ∈ blockKeys rt document ↔
      (key.1 = "order" ∧ document.orderCode = some key.2 ∧ key.2 ≠ "") ∨
      (key.1 = "external" ∧ document.externalDocumentCode = some key.2 ∧ key.2 ≠ "") ∨
      (key.1 = "table" ∧ document.tableCode = some key.2 ∧ key.2 ≠ "") ∨
      (key.1 = "job" ∧ document.sourceJobId = key.2 ∧ key.2 ≠ "") ∨
      (key.1 = "commercial_link" ∧ key.2 ≠ "" ∧
        ((document.type = .commercialDocument ∧ document.externalDocumentCode = some key.2) ∨
          document.commercialReferenceCode = some key.2)) ∨
      (key.1 = "commercial_suffix" ∧
        ((document.type = .commercialDocument ∧
            document.externalDocumentCodeSuffix = some key.2 ∧ key.2 ≠ "") ∨
          (referringTypes document.type = true ∧
            Blocking.printedCounterSuffix rt document.commercialReferenceCode = some key.2))) := by
  simp only [blockKeys, List.mem_append, mem_keyFor_iff, apply_ite (key ∈ ·), List.not_mem_nil,
    Option.mem_toList, Option.map_eq_some_iff, Option.some.injEq]
  constructor
  · intro h
    obtain (((((((h | h) | h) | h) | h) | h) | h) | h) := h
    · exact Or.inl h
    · exact Or.inr (Or.inl h)
    · exact Or.inr (Or.inr (Or.inl h))
    · exact Or.inr (Or.inr (Or.inr (Or.inl h)))
    · split_ifs at h with htype
      exact Or.inr (Or.inr (Or.inr (Or.inr (Or.inl ⟨h.1, h.2.2, Or.inl ⟨htype, h.2.1⟩⟩))))
    · exact Or.inr (Or.inr (Or.inr (Or.inr (Or.inl ⟨h.1, h.2.2, Or.inr h.2.1⟩))))
    · split_ifs at h with htype
      exact Or.inr (Or.inr (Or.inr (Or.inr (Or.inr ⟨h.1, Or.inl ⟨htype, h.2⟩⟩))))
    · split_ifs at h with htype
      obtain ⟨suffix, hs, rfl⟩ := h
      exact Or.inr (Or.inr (Or.inr (Or.inr (Or.inr ⟨rfl, Or.inr ⟨htype, hs⟩⟩))))
  · intro h
    obtain h | h | h | h | ⟨hk, hne, ⟨ht, hv⟩ | hv⟩ | ⟨hk, ⟨ht, hv⟩ | ⟨ht, hv⟩⟩ := h
    · simp [h]
    · simp [h]
    · simp [h]
    · simp [h]
    · simp [hk, hne, ht, hv]
    · simp [hk, hne, hv]
    · simp [hk, ht, hv]
    · simp only [ht, if_true]
      exact Or.inr ⟨key.2, hv, Prod.ext hk.symm rfl⟩

/-- A key that is looked up brings the other document in. -/
theorem strongBlock_of_lookedUp {seeds : List NormalizedDocument} {seed : NormalizedDocument}
    (hs : seed ∈ seeds) {row : QueryRow} (h : LookedUp rt seed row.value) :
    strongBlock rt seeds row = true := by
  obtain ⟨key, hseed, hrow, hsuffix⟩ := h
  have hrow := mem_blockKeys.mp hrow
  simp only [strongBlock, Bool.or_eq_true]
  obtain ⟨hk, ha, hne⟩ | ⟨hk, ha, hne⟩ | ⟨hk, ha, hne⟩ | ⟨hk, ha, hne⟩ | ⟨hk, hne, ha⟩ | ⟨hk, -⟩ :=
    mem_blockKeys.mp hseed <;> rw [hk] at hrow
  · have hb : row.value.orderCode = some key.2 := by simpa [hne] using hrow
    have hin := sqlIn_of_mem rt hb (mem_codesOf (·.orderCode) hs ha hne)
    exact Or.inl (Or.inl (Or.inl (Or.inl (Or.inl (Or.inl hin)))))
  · have hb : row.value.externalDocumentCode = some key.2 := by simpa [hne] using hrow
    have hin := sqlIn_of_mem rt hb (mem_codesOf (·.externalDocumentCode) hs ha hne)
    exact Or.inl (Or.inl (Or.inl (Or.inl (Or.inl (Or.inr hin)))))
  · have hb : row.value.tableCode = some key.2 := by simpa [hne] using hrow
    have hin := sqlIn_of_mem rt hb (mem_codesOf (·.tableCode) hs ha hne)
    exact Or.inl (Or.inr hin)
  · have hb : row.value.sourceJobId = key.2 := by simpa [hne] using hrow
    have hin := sqlIn_of_mem rt (congrArg some hb)
      (mem_codesOf (fun seed => some seed.sourceJobId) hs (congrArg some ha) hne)
    exact Or.inr hin
  · have hb : (row.value.type = .commercialDocument ∧
        row.value.externalDocumentCode = some key.2) ∨
        row.value.commercialReferenceCode = some key.2 := by simpa [hne] using hrow
    have hcode : key.2 ∈ codesOf (·.externalDocumentCode) seeds ++
        codesOf (·.commercialReferenceCode) seeds := by
      obtain ⟨-, ha⟩ | ha := ha
      · exact List.mem_append_left _ (mem_codesOf (·.externalDocumentCode) hs ha hne)
      · exact List.mem_append_right _ (mem_codesOf (·.commercialReferenceCode) hs ha hne)
    obtain ⟨-, hb⟩ | hb := hb
    · exact Or.inl (Or.inl (Or.inl (Or.inl (Or.inr (sqlIn_of_mem rt hb hcode)))))
    · exact Or.inl (Or.inl (Or.inl (Or.inr (sqlIn_of_mem rt hb hcode))))
  · obtain ⟨htype, hcited⟩ := hsuffix hk
    have hb : row.value.externalDocumentCodeSuffix = some key.2 ∧ key.2 ≠ "" := by
      have hnot : referringTypes .commercialDocument = false := rfl
      simpa [htype, hnot] using hrow
    have hcode : key.2 ∈ seeds.filterMap fun seed =>
        Blocking.printedCounterSuffix rt seed.commercialReferenceCode :=
      List.mem_filterMap.mpr ⟨seed, hs, hcited⟩
    exact Or.inl (Or.inl (Or.inr (sqlIn_of_mem rt hb.1 hcode)))

/-! ## Completeness -/

/-- The query reaches a document that blocking would pair with a seed: both
were captured around the printed times of the seeds, and the document is a
seed, or a key the query looks up brings it in. -/
structure Reached (rt : Runtime) (db : Database) (limit lookbackSeconds : Nat)
    (seed other : QueryRow) : Prop where
  seed_captured : capturedWithin (seedDocuments db limit lookbackSeconds) lookbackSeconds
    seed.document.capturedAt = true
  other_captured : capturedWithin (seedDocuments db limit lookbackSeconds) lookbackSeconds
    other.document.capturedAt = true
  found : LookedUp rt seed.value other.value ∨ other ∈ seedRows db limit lookbackSeconds ∨
    strongBlock rt (seedDocuments db limit lookbackSeconds) other = true

/-- Every partner of a seed is reached. -/
def Reaches (rt : Runtime) (db : Database) (limit lookbackSeconds : Nat) : Prop :=
  ∀ seed ∈ seedRows db limit lookbackSeconds, ∀ other ∈ documentQuery db,
    seed.value ≠ other.value → SharesBlock rt seed.value other.value →
    timeDelta seed.value other.value ≤ lookbackSeconds * 1000000 →
      Reached rt db limit lookbackSeconds seed other

theorem candidateRow_of_reached {seed other : QueryRow}
    (hs : seed ∈ seedRows db limit lookbackSeconds)
    (h : Reached rt db limit lookbackSeconds seed other) :
    candidateRow rt db limit lookbackSeconds seed = true ∧
      candidateRow rt db limit lookbackSeconds other = true := by
  simp only [candidateRow, Bool.and_eq_true, Bool.or_eq_true, List.contains_iff_mem]
  refine ⟨⟨h.seed_captured, Or.inl (mem_seedIds.mpr ⟨seed, hs, rfl⟩)⟩, h.other_captured, ?_⟩
  obtain hl | ho | hb := h.found
  · exact Or.inr (strongBlock_of_lookedUp (mem_seedDocuments.mpr ⟨seed, hs, rfl⟩) hl)
  · exact Or.inl (mem_seedIds.mpr ⟨other, ho, rfl⟩)
  · exact Or.inr hb

theorem reached_of_candidateRow {seed other : QueryRow} (ho : other ∈ documentQuery db)
    (h : candidateRow rt db limit lookbackSeconds seed = true)
    (h' : candidateRow rt db limit lookbackSeconds other = true) :
    Reached rt db limit lookbackSeconds seed other := by
  simp only [candidateRow, Bool.and_eq_true, Bool.or_eq_true, List.contains_iff_mem] at h h'
  refine ⟨h.1, h'.1, ?_⟩
  obtain hseed | hb := h'.2
  · obtain ⟨row, hrow, hid⟩ := mem_seedIds.mp hseed
    cases eq_of_documentId (mem_seedRows hrow).1 ho hid
    exact Or.inr (Or.inl hrow)
  · exact Or.inr (Or.inr hb)

/-- **The SQL neighbourhood is complete exactly when it reaches every document
blocking would pair with a seed.** -/
theorem neighbourhood_complete_iff (rt : Runtime) (db : Database) (limit lookbackSeconds : Nat) :
    NeighbourhoodComplete rt db limit lookbackSeconds ↔ Reaches rt db limit lookbackSeconds := by
  constructor
  · intro h seed hs other ho hne hshare ht
    have hseed := (mem_seedRows hs).1
    have hsa := mem_analysableDocuments.mpr ⟨seed, hseed, rfl⟩
    have hoa := mem_analysableDocuments.mpr ⟨other, ho, rfl⟩
    have hformed : Formed rt db limit lookbackSeconds (analysableDocuments db) seed.value
        other.value := (listed_candidatePairs distinct_analysableDocuments hsa hoa hne).mpr
      ⟨hshare, Or.inl (mem_seedIds.mpr ⟨seed, hs, rfl⟩), ht⟩
    obtain ⟨⟨x, hx, hxid⟩, y, hy, hyid⟩ := mem_of_formed (h _ hsa _ hoa hne hformed)
    have hrows : seedRows db limit lookbackSeconds ≠ [] := List.ne_nil_of_mem hs
    have hin : ∀ z ∈ batchDocuments rt db limit lookbackSeconds, ∀ row ∈ documentQuery db,
        z.id = row.value.id → candidateRow rt db limit lookbackSeconds row = true := by
      intro z hz row hrow hid
      obtain ⟨item, hi, rfl⟩ := List.mem_map.mp hz
      obtain ⟨found, hf, hc, rfl⟩ := (mem_candidateBatch hrows).mp hi
      cases eq_of_documentId hf hrow hid
      exact hc
    exact reached_of_candidateRow ho (hin x hx seed hseed hxid) (hin y hy other ho hyid)
  · intro h a ha b hb hne hformed
    obtain ⟨rowA, hrowA, rfl⟩ := mem_analysableDocuments.mp ha
    obtain ⟨rowB, hrowB, rfl⟩ := mem_analysableDocuments.mp hb
    obtain ⟨hshare, hseed, ht⟩ :=
      (listed_candidatePairs distinct_analysableDocuments ha hb hne).mp hformed
    -- the seed of the pair is the selected row of its document
    have hloaded : rowA.value ∈ batchDocuments rt db limit lookbackSeconds ∧
        rowB.value ∈ batchDocuments rt db limit lookbackSeconds := by
      obtain hseed | hseed := hseed
      · obtain ⟨row, hrow, hid⟩ := mem_seedIds.mp hseed
        cases eq_of_documentId (mem_seedRows hrow).1 hrowA hid
        obtain ⟨hca, hcb⟩ := candidateRow_of_reached hrow (h rowA hrow rowB hrowB hne hshare ht)
        have hrows : seedRows db limit lookbackSeconds ≠ [] := List.ne_nil_of_mem hrow
        exact ⟨(mem_batchDocuments hrows hrowA).mpr hca, (mem_batchDocuments hrows hrowB).mpr hcb⟩
      · obtain ⟨row, hrow, hid⟩ := mem_seedIds.mp hseed
        cases eq_of_documentId (mem_seedRows hrow).1 hrowB hid
        have ht' := (timeDelta_comm _ _).trans_le ht
        obtain ⟨hcb, hca⟩ := candidateRow_of_reached hrow
          (h rowB hrow rowA hrowA hne.symm hshare.symm ht')
        have hrows : seedRows db limit lookbackSeconds ≠ [] := List.ne_nil_of_mem hrow
        exact ⟨(mem_batchDocuments hrows hrowA).mpr hca, (mem_batchDocuments hrows hrowB).mpr hcb⟩
    exact (listed_candidatePairs distinct_batchDocuments hloaded.1 hloaded.2 hne).mpr
      ⟨hshare, hseed, ht⟩

/-- A printer whose clock is ten hours ahead, and the document that follows
at the same table a minute later, captured at its printed time. -/
def clockAhead : List Step :=
  arrival
    { id := 1
      sourceDeviceId := "bar"
      sourceJobId := "j1"
      type := .managementDocument
      tableCode := some "T1"
      documentTimestamp := some { micros := seconds 36000 }
      capturedAt := { micros := 0 } } ++
  arrival
    { id := 2
      sourceDeviceId := "rch"
      sourceJobId := "j2"
      type := .commercialDocument
      tableCode := some "T1"
      capturedAt := { micros := seconds 36060 } }

/-- The batch of these two seeds does not load the first of them. -/
theorem neighbourhood_misses_a_seed :
    ¬ NeighbourhoodComplete asciiRuntime (run asciiRuntime {} clockAhead) 10 7200 := by
  decide +kernel

end RetailPrintGuard.Correlation.Neighbourhood
