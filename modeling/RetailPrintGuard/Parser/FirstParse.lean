import RetailPrintGuard.Correlation.Loading
import RetailPrintGuard.Library.Runs
import RetailPrintGuard.Parser.Repository

/-! # A first parse touches no stored document

The parse of a job without documents inserts rows under fresh identifiers, so
the document query returns every row it returned before. -/
namespace RetailPrintGuard.Parser.FirstParse
open RetailPrintGuard.Common.Python RetailPrintGuard.Common.Domain
open RetailPrintGuard.Correlation.CandidateBatch RetailPrintGuard.Correlation.Loading
open RetailPrintGuard.Db.Models RetailPrintGuard.Library RetailPrintGuard.Library.Runs
open RetailPrintGuard.Parser.Repository

/-- Foreign keys hold and document ids were drawn. -/
structure Referenced (rt : Runtime) (db : Database) : Prop where
  job : ∀ document ∈ db.documents, ∃ job ∈ db.jobs, job.id = document.jobId
  parser : ∀ version ∈ db.versions, ∃ parser ∈ db.parserVersions,
    parser.id = version.parserVersionId
  drawn : ∀ document ∈ db.documents, ∃ n < db.drawn, document.id = rt.uuid4 n

/-- No document of the job is stored. -/
def Unparsed (db : Database) (jobId : UUID) : Prop :=
  ∀ document ∈ db.documents.rows, document.jobId ≠ jobId

instance (db : Database) (jobId : UUID) : Decidable (Unparsed db jobId) :=
  inferInstanceAs (Decidable (∀ _ ∈ _, _))

/-- The query returns what it returned, and rows of new documents. -/
structure Arrival (db db' : Database) : Prop where
  kept : ∀ row ∈ documentQuery db, row ∈ documentQuery db'
  new : ∀ row ∈ documentQuery db', row ∈ documentQuery db ∨
    ∀ document ∈ db.documents, document.id ≠ row.document.id

theorem Arrival.refl (db : Database) : Arrival db db :=
  ⟨fun _ h => h, fun _ h => Or.inl h⟩

variable {rt : Runtime} {db db' : Database} {jobId : UUID}

/-- The rows of stored documents depend on their own versions and jobs. -/
theorem queryRow_congr (hr : Referenced rt db) {document : Document}
    (hversions : db'.versions.rows.filter (fun version => version.documentId == document.id) =
      db.versions.rows.filter fun version => version.documentId == document.id)
    (hparsers : ∀ parser ∈ db.parserVersions, parser ∈ db'.parserVersions)
    (hactive : db'.activeParsers = db.activeParsers)
    (hjob : db'.jobs.find document.jobId = db.jobs.find document.jobId) :
    queryRow db' document = queryRow db document := by
  have hrank : ∀ version ∈ db.versions.rows.filter (fun version =>
      version.documentId == document.id), activationRank db' version = activationRank db version := by
    intro version hv
    obtain ⟨parser, hp, hid⟩ := hr.parser version (List.mem_of_mem_filter hv)
    have hfind := Table.find_eq_some.mpr ⟨hp, hid⟩
    have hfind' := Table.find_eq_some.mpr ⟨hparsers parser hp, hid⟩
    simp only [activationRank, hfind, hfind', hactive]
  have hlatest : latestVersion db' document.id = latestVersion db document.id := by
    have hsort := List.map_insertionSort (Newer db') (Newer db) id
      (db.versions.rows.filter fun version => version.documentId == document.id)
      (fun a ha b hb => by simp only [Newer, hrank a ha, hrank b hb, id])
    simp only [List.map_id] at hsort
    simp only [latestVersion, hversions, hsort]
  simp only [queryRow, hlatest, hjob]

/-- A job under a key that is taken changes nothing, a new job has no
documents. -/
theorem arrival_of_job (hr : Referenced rt db) (job : PrintJob) :
    Arrival db { db with jobs := db.jobs.insert job } ∧
      Referenced rt { db with jobs := db.jobs.insert job } := by
  have hrow : ∀ document ∈ db.documents,
      queryRow { db with jobs := db.jobs.insert job } document = queryRow db document := by
    intro document hd
    refine queryRow_congr hr rfl (fun _ h => h) rfl ?_
    obtain ⟨known, hk, hid⟩ := hr.job document hd
    exact (Table.find_eq_some.mpr ⟨Table.mem_insert_of_mem hk, hid⟩).trans
      (Table.find_eq_some.mpr ⟨hk, hid⟩).symm
  refine ⟨⟨fun row h => ?_, fun row h => Or.inl ?_⟩, ?_, hr.parser, hr.drawn⟩
  · obtain ⟨hm, hq⟩ := mem_documentQuery.mp h
    exact mem_documentQuery.mpr ⟨hm, (hrow _ hm).trans hq⟩
  · obtain ⟨hm, hq⟩ := mem_documentQuery.mp h
    exact mem_documentQuery.mpr ⟨hm, (hrow _ hm).symm.trans hq⟩
  · intro document hd
    obtain ⟨known, hk, hid⟩ := hr.job document hd
    exact ⟨known, Table.mem_insert_of_mem hk, hid⟩

/-! ## One parse -/

/-- The state between two documents of a first parse. -/
structure Between (rt : Runtime) (db : Database) (jobId : UUID) (db' : Database) : Prop where
  documents : ∀ document ∈ db.documents, document ∈ db'.documents
  fresh : ∀ document ∈ db'.documents, document ∈ db.documents ∨
    (document.jobId = jobId ∧ ∀ old ∈ db.documents, old.id ≠ document.id)
  versions : ∀ document ∈ db.documents,
    db'.versions.rows.filter (fun version => version.documentId == document.id) =
      db.versions.rows.filter fun version => version.documentId == document.id
  parsers : ∀ parser ∈ db.parserVersions, parser ∈ db'.parserVersions
  jobs : db'.jobs = db.jobs
  activeParsers : db'.activeParsers = db.activeParsers
  referenced : Referenced rt db'

theorem between_self (hr : Referenced rt db) : Between rt db jobId db :=
  ⟨fun _ h => h, fun _ h => Or.inl h, fun _ _ => rfl, fun _ h => h, rfl, rfl, hr⟩

/-- A document of the parse: of its job, under an id of its own. -/
def OfParse (db : Database) (jobId : UUID) (document : Document) : Prop :=
  document.jobId = jobId ∧ ∀ old ∈ db.documents, old.id ≠ document.id

variable {mid : Database} {job : PrintJob}

theorem between_upsertDocument (hb : Between rt db job.id mid) (hu : Unparsed db job.id)
    (hj : job ∈ db.jobs) (parsed : ParsedDocument) :
    Between rt db job.id (upsertDocument rt mid job parsed).1 ∧
      OfParse db job.id (upsertDocument rt mid job parsed).2 := by
  unfold upsertDocument
  split
  · next document hf =>
    have hm : document ∈ mid.documents := List.mem_of_find?_eq_some hf
    have hjob : document.jobId = job.id := by
      have hp := List.find?_some hf
      simp only [Bool.and_eq_true, beq_iff_eq] at hp
      exact hp.1
    refine ⟨hb, hjob, ?_⟩
    obtain hold | hnew := hb.fresh document hm
    · exact absurd hjob (hu document hold)
    · exact hnew.2
  · have hfresh : ∀ old ∈ mid.documents, old.id ≠ rt.uuid4 mid.drawn := by
      intro old ho heq
      obtain ⟨n, hlt, hid⟩ := hb.referenced.drawn old ho
      exact hlt.ne (rt.uuid4_injective (hid.symm.trans heq))
    refine ⟨⟨?_, ?_, hb.versions, hb.parsers, hb.jobs, hb.activeParsers, ?_, ?_, ?_⟩, rfl, ?_⟩
    · exact fun old ho => Table.mem_insert_of_mem (hb.documents old ho)
    · intro document hm
      obtain hm | rfl := Table.mem_of_mem_insert hm
      · exact hb.fresh document hm
      · exact Or.inr ⟨rfl, fun old ho => hfresh old (hb.documents old ho)⟩
    · intro document hm
      obtain hm | rfl := Table.mem_of_mem_insert hm
      · exact hb.referenced.job document hm
      · exact ⟨job, hb.jobs ▸ hj, rfl⟩
    · exact hb.referenced.parser
    · intro document hm
      obtain hm | rfl := Table.mem_of_mem_insert hm
      · obtain ⟨n, hlt, hid⟩ := hb.referenced.drawn document hm
        exact ⟨n, Nat.lt_succ_of_lt hlt, hid⟩
      · exact ⟨mid.drawn, Nat.lt_succ_self _, rfl⟩
    · exact fun old ho => hfresh old (hb.documents old ho)

theorem between_upsertParser (hb : Between rt db jobId mid) (parsed : ParsedDocument) :
    Between rt db jobId (upsertParser rt mid parsed).1 ∧
      ∃ parser ∈ (upsertParser rt mid parsed).1.parserVersions,
        parser.id = (upsertParser rt mid parsed).2.id := by
  unfold upsertParser
  split
  · next parser hf => exact ⟨hb, parser, List.mem_of_find?_eq_some hf, rfl⟩
  · refine ⟨⟨hb.documents, hb.fresh, hb.versions, ?_, hb.jobs, hb.activeParsers, ?_, ?_, ?_⟩, ?_⟩
    · exact fun parser hp => Table.mem_insert_of_mem (hb.parsers parser hp)
    · exact hb.referenced.job
    · intro version hv
      obtain ⟨parser, hp, hid⟩ := hb.referenced.parser version hv
      exact ⟨parser, Table.mem_insert_of_mem hp, hid⟩
    · intro document hm
      obtain ⟨n, hlt, hid⟩ := hb.referenced.drawn document hm
      exact ⟨n, Nat.lt_succ_of_lt hlt, hid⟩
    · exact Table.exists_mem_insert _ _

theorem between_appendVersion (hb : Between rt db jobId mid) {document : Document}
    (hd : OfParse db jobId document) {parser : ParserVersion}
    (hp : ∃ known ∈ mid.parserVersions, known.id = parser.id) (parsed : ParsedDocument) :
    Between rt db jobId (appendVersion rt mid document parser parsed) := by
  have hrow : ∀ row, row ∈ (appendVersion rt mid document parser parsed).documents ↔
      ∃ old ∈ mid.documents, (if old.id = document.id then
        { old with projection := semanticsOf parsed.value } else old) = row := fun _ => List.mem_map
  refine ⟨?_, ?_, ?_, hb.parsers, hb.jobs, hb.activeParsers, ?_, ?_, ?_⟩
  · intro old ho
    exact (hrow old).mpr ⟨old, hb.documents old ho, if_neg (hd.2 old ho)⟩
  · intro row hm
    obtain ⟨old, ho, rfl⟩ := (hrow row).mp hm
    split
    · next heq => exact (hb.fresh old ho).imp (fun hold => absurd heq (hd.2 old hold)) id
    · exact hb.fresh old ho
  · intro old ho
    rw [← hb.versions old ho]
    exact Table.filter_insert (by simpa using (hd.2 old ho).symm)
  · intro row hm
    obtain ⟨old, ho, rfl⟩ := (hrow row).mp hm
    split <;> exact hb.referenced.job old ho
  · intro version hv
    obtain hv | rfl := Table.mem_of_mem_insert hv
    · exact hb.referenced.parser version hv
    · exact hp
  · intro row hm
    obtain ⟨old, ho, rfl⟩ := (hrow row).mp hm
    obtain ⟨n, hlt, hid⟩ := hb.referenced.drawn old ho
    refine ⟨n, Nat.lt_succ_of_lt hlt, ?_⟩
    split <;> exact hid

theorem between_storeDocument (hb : Between rt db job.id mid) (hu : Unparsed db job.id)
    (hj : job ∈ db.jobs) (parsed : ParsedDocument) :
    Between rt db job.id (storeDocument rt job mid parsed) := by
  obtain ⟨hdoc, hof⟩ := between_upsertDocument hb hu hj parsed
  obtain ⟨hparser, hknown⟩ := between_upsertParser hdoc parsed
  unfold storeDocument
  dsimp only
  split
  · exact hparser
  · exact between_appendVersion hparser hof hknown parsed

/-! ## The parse of a job -/

theorem arrival_of_between (hr : Referenced rt db) (hu : Unparsed db jobId)
    (hb : Between rt db jobId mid) (hdocs : db'.documents = mid.documents)
    (hvers : db'.versions = mid.versions) (hpars : db'.parserVersions = mid.parserVersions)
    (hact : db'.activeParsers = mid.activeParsers)
    (hjobs : ∀ id, id ≠ jobId → db'.jobs.find id = mid.jobs.find id) : Arrival db db' := by
  have hrow : ∀ document ∈ db.documents, queryRow db' document = queryRow db document := by
    intro document hd
    refine queryRow_congr hr ?_ (fun parser hp => ?_) (hact.trans hb.activeParsers) ?_
    · rw [hvers]
      exact hb.versions document hd
    · rw [hpars]
      exact hb.parsers parser hp
    · rw [hjobs _ (hu document hd), hb.jobs]
  refine ⟨fun row h => ?_, fun row h => ?_⟩
  · obtain ⟨hm, hq⟩ := mem_documentQuery.mp h
    refine mem_documentQuery.mpr ⟨?_, by rw [hrow _ hm, hq]⟩
    rw [hdocs]
    exact hb.documents _ hm
  · obtain ⟨hm, hq⟩ := mem_documentQuery.mp h
    rw [hdocs] at hm
    obtain hold | hnew := hb.fresh _ hm
    · rw [hrow _ hold] at hq
      exact Or.inl (mem_documentQuery.mpr ⟨hold, hq⟩)
    · exact Or.inr hnew.2

/-- **A first parse is an arrival.** -/
theorem arrival_storeDocuments (hr : Referenced rt db) (hu : Unparsed db jobId)
    (documents : List ParsedDocument) :
    Arrival db (storeDocuments rt db jobId documents) ∧
      Referenced rt (storeDocuments rt db jobId documents) := by
  refine storeDocuments_cases (P := fun after => Arrival db after ∧ Referenced rt after)
    ⟨Arrival.refl db, hr⟩ fun job hf => ?_
  obtain ⟨hj, rfl⟩ := Table.find_eq_some.mp hf
  have hb : Between rt db job.id (documents.foldl (storeDocument rt job) db) :=
    invariant (Between rt db job.id) (fun _ parsed h => between_storeDocument h hu hj parsed)
      (between_self hr) documents
  refine ⟨arrival_of_between hr hu hb rfl rfl rfl rfl (fun id hid => ?_), ?_,
    hb.referenced.parser, hb.referenced.drawn⟩
  · exact Table.find_update (fun row => by split <;> rfl) fun row hrow =>
      if_neg (by rw [hrow]; exact hid)
  · intro document hm
    obtain ⟨known, hk, hid⟩ := hb.referenced.job document hm
    rw [← hid]
    refine Table.exists_mem_update _ (fun row => ?_) hk
    split <;> rfl

end RetailPrintGuard.Parser.FirstParse
