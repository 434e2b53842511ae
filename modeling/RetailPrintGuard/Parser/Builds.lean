import RetailPrintGuard.Correlation.Run
import RetailPrintGuard.Parser.FirstParse
import RetailPrintGuard.System

/-! # A job several builds have parsed

Builds share the documents of a job by their source key and append versions to
them. The history of a job says what its rows hold after any sequence of
parses. -/
namespace RetailPrintGuard.Parser.Builds
open RetailPrintGuard.Common.Python RetailPrintGuard.Common.Domain
open RetailPrintGuard.Correlation.Scoring RetailPrintGuard.Correlation.Run
open RetailPrintGuard.Db.Models RetailPrintGuard.Db.Repository
open RetailPrintGuard.Library RetailPrintGuard.Library.Runs
open RetailPrintGuard.Parser.Repository RetailPrintGuard.Parser.FirstParse
open RetailPrintGuard.System

/-! ## Keys -/

/-- The identity of a parser build: name, version and digest of its code. -/
structure Build where
  name : String
  version : String
  sha256 : String
deriving DecidableEq

def buildOf (parser : ParserVersion) : Build := ⟨parser.name, parser.version, parser.buildSha256⟩

def producer (parsed : ParsedDocument) : Build :=
  ⟨parsed.parserName, parsed.parserVersion, parsed.buildSha256⟩

/-- Rows carry drawn identifiers, versions belong to stored documents and
parsers, and a build is registered once. -/
structure Keyed (rt : Runtime) (db : Database) : Prop where
  document : ∀ document ∈ db.documents, ∃ n < db.drawn, document.id = rt.uuid4 n
  version : ∀ version ∈ db.versions, ∃ n < db.drawn, version.id = rt.uuid4 n
  parser : ∀ parser ∈ db.parserVersions, ∃ n < db.drawn, parser.id = rt.uuid4 n
  owner : ∀ version ∈ db.versions, ∃ document ∈ db.documents, document.id = version.documentId
  registered : ∀ version ∈ db.versions, ∃ parser ∈ db.parserVersions,
    parser.id = version.parserVersionId
  build : ∀ parser ∈ db.parserVersions, ∀ other ∈ db.parserVersions,
    buildOf parser = buildOf other → parser = other

variable {rt : Runtime} {engine : CorrelationEngine} {db db' : Database}

theorem keyed_empty (rt : Runtime) : Keyed rt {} where
  document _ h := absurd h (Table.not_mem_empty _)
  version _ h := absurd h (Table.not_mem_empty _)
  parser _ h := absurd h (Table.not_mem_empty _)
  owner _ h := absurd h (Table.not_mem_empty _)
  registered _ h := absurd h (Table.not_mem_empty _)
  build _ h := absurd h (Table.not_mem_empty _)

/-- Drawing more identifiers keeps the rows keyed. -/
theorem Keyed.congr (h : Keyed rt db) (hd : db'.documents = db.documents)
    (hv : db'.versions = db.versions) (hp : db'.parserVersions = db.parserVersions)
    (hn : db.drawn ≤ db'.drawn) : Keyed rt db' := by
  have hlt : ∀ id, (∃ n < db.drawn, id = rt.uuid4 n) → ∃ n < db'.drawn, id = rt.uuid4 n :=
    fun id ⟨n, hlt, hid⟩ => ⟨n, hlt.trans_le hn, hid⟩
  constructor
  · rw [hd]
    exact fun document hm => hlt _ (h.document document hm)
  · rw [hv]
    exact fun version hm => hlt _ (h.version version hm)
  · rw [hp]
    exact fun parser hm => hlt _ (h.parser parser hm)
  · rw [hv, hd]
    exact h.owner
  · rw [hv, hp]
    exact h.registered
  · rw [hp]
    exact h.build

/-- An identifier still to be drawn is no key. -/
theorem fresh_of_drawn {id : UUID} (h : ∃ n < db.drawn, id = rt.uuid4 n) : id ≠ rt.uuid4 db.drawn := by
  obtain ⟨n, hlt, rfl⟩ := h
  exact fun heq => hlt.ne (rt.uuid4_injective heq)

theorem lt_succ_of_drawn {id : UUID} (h : ∃ n < db.drawn, id = rt.uuid4 n) :
    ∃ n < db.drawn + 1, id = rt.uuid4 n := by
  obtain ⟨n, hlt, hid⟩ := h
  exact ⟨n, Nat.lt_succ_of_lt hlt, hid⟩

/-! ## One document -/

/-- The document a parse belongs to, and the rows it leaves. -/
structure Upserted (job : PrintJob) (parsed : ParsedDocument) (db : Database) (document : Document)
    (db' : Database) : Prop where
  mem : document ∈ db'.documents
  jobId : document.jobId = job.id
  key : document.sourceDocumentKey = parsed.value.id
  versions : db'.versions = db.versions
  parserVersions : db'.parserVersions = db.parserVersions
  /-- a new document has a new id -/
  rows : (document ∈ db.documents ∧ db'.documents = db.documents) ∨
    ((∀ old ∈ db.documents, old.jobId = job.id → old.sourceDocumentKey ≠ parsed.value.id) ∧
      document.deviceExternalId = job.deviceExternalId ∧
      document.sourceSessionId = job.sourceSessionId ∧
      document.capturedAt = parsed.value.capturedAt ∧ (∀ old ∈ db.documents, old.id ≠ document.id) ∧
      ∀ row, row ∈ db'.documents ↔ row ∈ db.documents ∨ row = document)

theorem upsertDocument_spec (h : Keyed rt db) (job : PrintJob) (parsed : ParsedDocument) :
    Upserted job parsed db (upsertDocument rt db job parsed).2 (upsertDocument rt db job parsed).1 ∧
      Keyed rt (upsertDocument rt db job parsed).1 := by
  unfold upsertDocument
  split
  · next document hf =>
    have hm : document ∈ db.documents := List.mem_of_find?_eq_some hf
    have hp := List.find?_some hf
    simp only [Bool.and_eq_true, beq_iff_eq] at hp
    exact ⟨⟨hm, hp.1, hp.2, rfl, rfl, Or.inl ⟨hm, rfl⟩⟩, h⟩
  · next hf =>
    have hnone : ∀ old ∈ db.documents, old.jobId = job.id →
        old.sourceDocumentKey ≠ parsed.value.id := by
      intro old ho hj hk
      have := List.find?_eq_none.mp hf old ho
      simp [hj, hk] at this
    have hfresh : ∀ old ∈ db.documents, old.id ≠ rt.uuid4 db.drawn :=
      fun old ho => fresh_of_drawn (h.document old ho)
    refine ⟨⟨?_, rfl, rfl, rfl, rfl, Or.inr ⟨hnone, rfl, rfl, rfl, hfresh, ?_⟩⟩, ?_⟩
    · exact (Table.mem_insert hfresh).mpr (Or.inr rfl)
    · exact fun row => Table.mem_insert hfresh
    · constructor
      · intro document hm
        obtain hm | rfl := Table.mem_of_mem_insert hm
        · exact lt_succ_of_drawn (h.document document hm)
        · exact ⟨db.drawn, Nat.lt_succ_self _, rfl⟩
      · exact fun version hm => lt_succ_of_drawn (h.version version hm)
      · exact fun parser hm => lt_succ_of_drawn (h.parser parser hm)
      · intro version hm
        obtain ⟨document, hd, hid⟩ := h.owner version hm
        exact ⟨document, Table.mem_insert_of_mem hd, hid⟩
      · exact h.registered
      · exact h.build

/-- The row of the build, next to every row there was. -/
structure Registered (parsed : ParsedDocument) (db : Database) (parser : ParserVersion)
    (db' : Database) : Prop where
  mem : parser ∈ db'.parserVersions
  build : buildOf parser = producer parsed
  kept : ∀ known ∈ db.parserVersions, known ∈ db'.parserVersions
  documents : db'.documents = db.documents
  versions : db'.versions = db.versions

theorem upsertParser_spec (h : Keyed rt db) (parsed : ParsedDocument) :
    Registered parsed db (upsertParser rt db parsed).2 (upsertParser rt db parsed).1 ∧
      Keyed rt (upsertParser rt db parsed).1 := by
  unfold upsertParser
  split
  · next parser hf =>
    have hm : parser ∈ db.parserVersions := List.mem_of_find?_eq_some hf
    have hp := List.find?_some hf
    simp only [Bool.and_eq_true, beq_iff_eq] at hp
    refine ⟨⟨hm, ?_, fun _ hk => hk, rfl, rfl⟩, h⟩
    simp only [buildOf, producer, hp.1.1, hp.1.2, hp.2]
  · next hf =>
    have hfresh : ∀ old ∈ db.parserVersions, old.id ≠ rt.uuid4 db.drawn :=
      fun old ho => fresh_of_drawn (h.parser old ho)
    have hnew : ∀ old ∈ db.parserVersions, buildOf old ≠ producer parsed := by
      intro old ho heq
      have := List.find?_eq_none.mp hf old ho
      simp only [buildOf, producer, Build.mk.injEq] at heq
      simp [heq.1, heq.2.1, heq.2.2] at this
    refine ⟨⟨(Table.mem_insert hfresh).mpr (Or.inr rfl), rfl,
      fun _ hk => Table.mem_insert_of_mem hk, rfl, rfl⟩, ?_⟩
    constructor
    · exact fun document hm => lt_succ_of_drawn (h.document document hm)
    · exact fun version hm => lt_succ_of_drawn (h.version version hm)
    · intro parser hm
      obtain hm | rfl := Table.mem_of_mem_insert hm
      · exact lt_succ_of_drawn (h.parser parser hm)
      · exact ⟨db.drawn, Nat.lt_succ_self _, rfl⟩
    · exact h.owner
    · intro version hm
      obtain ⟨parser, hp, hid⟩ := h.registered version hm
      exact ⟨parser, Table.mem_insert_of_mem hp, hid⟩
    · intro parser hp other ho heq
      obtain hp | rfl := Table.mem_of_mem_insert hp <;>
        obtain ho | rfl := Table.mem_of_mem_insert ho
      · exact h.build parser hp other ho heq
      · exact absurd heq (hnew parser hp)
      · exact absurd heq.symm (hnew other ho)
      · rfl

theorem keyed_appendVersion (h : Keyed rt db) {document : Document} (hd : document ∈ db.documents)
    {parser : ParserVersion} (hp : parser ∈ db.parserVersions) (parsed : ParsedDocument) :
    Keyed rt (appendVersion rt db document parser parsed) := by
  have hrow : ∀ row ∈ (appendVersion rt db document parser parsed).documents,
      ∃ old ∈ db.documents, old.id = row.id := by
    intro row hm
    obtain ⟨old, ho, rfl⟩ := List.mem_map.mp hm
    refine ⟨old, ho, ?_⟩
    split <;> rfl
  have hkeep : ∀ old ∈ db.documents,
      ∃ row ∈ (appendVersion rt db document parser parsed).documents, row.id = old.id := by
    intro old ho
    refine Table.exists_mem_update _ (fun row => ?_) ho
    split <;> rfl
  constructor
  · intro row hm
    obtain ⟨old, ho, hid⟩ := hrow row hm
    rw [← hid]
    exact lt_succ_of_drawn (h.document old ho)
  · intro version hm
    obtain hm | rfl := Table.mem_of_mem_insert hm
    · exact lt_succ_of_drawn (h.version version hm)
    · exact ⟨db.drawn, Nat.lt_succ_self _, rfl⟩
  · exact fun row hm => lt_succ_of_drawn (h.parser row hm)
  · intro version hm
    obtain hm | rfl := Table.mem_of_mem_insert hm
    · obtain ⟨old, ho, hid⟩ := h.owner version hm
      obtain ⟨row, hrow, heq⟩ := hkeep old ho
      exact ⟨row, hrow, heq.trans hid⟩
    · exact hkeep document hd
  · intro version hm
    obtain hm | rfl := Table.mem_of_mem_insert hm
    · exact h.registered version hm
    · exact ⟨parser, hp, rfl⟩
  · exact h.build

theorem keyed_storeDocument (h : Keyed rt db) (job : PrintJob) (parsed : ParsedDocument) :
    Keyed rt (storeDocument rt job db parsed) := by
  obtain ⟨hu, hkd⟩ := upsertDocument_spec h job parsed
  obtain ⟨hp, hkp⟩ := upsertParser_spec hkd parsed
  unfold storeDocument
  dsimp only
  split
  · exact hkp
  · exact keyed_appendVersion hkp (hp.documents ▸ hu.mem) hp.mem parsed

theorem keyed_storeDocuments (h : Keyed rt db) (jobId : UUID) (documents : List ParsedDocument) :
    Keyed rt (storeDocuments rt db jobId documents) := by
  refine storeDocuments_cases h fun job _ => ?_
  have hfold : Keyed rt (documents.foldl (storeDocument rt job) db) :=
    invariant (Keyed rt) (fun _ parsed hk => keyed_storeDocument hk job parsed) h documents
  exact hfold.congr rfl rfl rfl le_rfl

theorem keyed_apply (h : Keyed rt db) (step : Step) : Keyed rt (apply rt engine db step) := by
  cases step with
  | importJob job => exact h.congr rfl rfl rfl le_rfl
  | storeDocuments jobId documents => exact keyed_storeDocuments h jobId documents
  | recordFailure jobId buildHash =>
    unfold apply recordFailure
    dsimp only
    split
    · exact h
    · exact h.congr rfl rfl rfl le_rfl
  | activateParserVersion name versionId rewind => exact h.congr rfl rfl rfl le_rfl
  | reviewJob jobId action =>
    unfold apply reviewJob
    dsimp only
    split
    · exact h
    · split
      · exact h
      · split
        · exact h.congr rfl rfl rfl le_rfl
        · exact h.congr rfl rfl rfl le_rfl
  | runOnce limit =>
    rw [apply]
    exact h.congr sameInput_runOnce.documents sameInput_runOnce.versions
      sameInput_runOnce.parserVersions drawn_le_runOnce

theorem keyed_run (steps : List Step) : Keyed rt (run rt engine steps) :=
  invariant (Keyed rt) (fun _ step h => keyed_apply h step) (keyed_empty rt) steps

/-! ## What a version keeps -/

/-- The part of a parse a version stores, with the build it came from. -/
structure Output where
  build : Build
  semantics : Semantics
  grossTotal : Option Money
  netTotal : Option Money
  discountTotal : Option Money
  sourcePayloadSha256 : String
  complete : Bool
  lines : List DocumentLine
  payments : List PaymentRecord
  rawMetadata : Metadata
deriving DecidableEq

def outputOf (parsed : ParsedDocument) : Output where
  build := producer parsed
  semantics := semanticsOf parsed.value
  grossTotal := parsed.value.grossTotal
  netTotal := parsed.value.netTotal
  discountTotal := parsed.value.discountTotal
  sourcePayloadSha256 := parsed.value.sourcePayloadSha256
  complete := parsed.value.complete
  lines := parsed.value.lines
  payments := parsed.value.payments
  rawMetadata := parsed.value.rawMetadata

/-- The output a stored version keeps. -/
def storedOutput (db : Database) (version : DocumentVersion) : Option Output :=
  match db.parserVersions.find version.parserVersionId, version.semantics with
  | some parser, some semantics =>
    some
      { build := buildOf parser
        semantics
        grossTotal := version.grossTotal
        netTotal := version.netTotal
        discountTotal := version.discountTotal
        sourcePayloadSha256 := version.sourcePayloadSha256
        complete := version.complete
        lines := version.lines
        payments := version.payments
        rawMetadata := version.rawMetadata }
  | _, _ => none

/-- This build stored an output for this payload before. -/
def repeats (kept : List Output) (parsed : ParsedDocument) : Bool :=
  kept.any fun output => output.build == producer parsed &&
    output.sourcePayloadSha256 == parsed.value.sourcePayloadSha256

def keep (key : UUID) (kept : List Output) (parsed : ParsedDocument) : List Output :=
  if parsed.value.id = key && !repeats kept parsed then kept ++ [outputOf parsed] else kept

/-- The outputs stored under a source key, oldest first. -/
def outputs (entries : List ParsedDocument) (key : UUID) : List Output :=
  entries.foldl (keep key) []

/-- What analysis reads under a source key: the last output of the active
build, or else the last output of any build. -/
def current (active : Build) (entries : List ParsedDocument) (key : UUID) : Option Output :=
  ((outputs entries key).filter fun output => output.build == active).getLast?.or
    (outputs entries key).getLast?

theorem outputs_snoc (entries : List ParsedDocument) (parsed : ParsedDocument) (key : UUID) :
    outputs (entries ++ [parsed]) key = keep key (outputs entries key) parsed := by
  simp [outputs, List.foldl_append]

theorem keep_of_ne {key : UUID} {kept : List Output} {parsed : ParsedDocument}
    (h : parsed.value.id ≠ key) : keep key kept parsed = kept := by
  simp [keep, h]

theorem outputs_eq_nil {entries : List ParsedDocument} {key : UUID}
    (h : ∀ parsed ∈ entries, parsed.value.id ≠ key) : outputs entries key = [] := by
  induction entries using List.reverseRecOn with
  | nil => rfl
  | append_singleton entries parsed ih =>
    rw [outputs_snoc, keep_of_ne (h parsed (by simp)), ih fun p hp => h p (by simp [hp])]

/-! ## The versions of a document -/

def versionsOf (db : Database) (documentId : UUID) : List DocumentVersion :=
  db.versions.rows.filter fun version => version.documentId == documentId

/-- The rows of one document: the parses under its key, in the order they were
stored. `seen` are the documents handed in so far, `entries` those through. -/
structure Record (db : Database) (job : PrintJob) (seen entries : List ParsedDocument)
    (document : Document) : Prop where
  device : document.deviceExternalId = job.deviceExternalId
  session : document.sourceSessionId = job.sourceSessionId
  capturedAt : ((seen.find? fun parsed => parsed.value.id == document.sourceDocumentKey).map
    fun parsed => parsed.value.capturedAt) = some document.capturedAt
  outputs : (versionsOf db document.id).map (storedOutput db) =
    (Builds.outputs entries document.sourceDocumentKey).map some
  sequences : (versionsOf db document.id).map DocumentVersion.versionSequence =
    List.range' 1 (versionsOf db document.id).length

/-- The documents of a job after its parses. -/
structure History (rt : Runtime) (job : PrintJob) (seen entries : List ParsedDocument)
    (db : Database) : Prop where
  keyed : Keyed rt db
  record : ∀ document ∈ db.documents, document.jobId = job.id → Record db job seen entries document
  stored : ∀ parsed ∈ seen, ∃ document ∈ db.documents, document.jobId = job.id ∧
    document.sourceDocumentKey = parsed.value.id
  unique : ∀ document ∈ db.documents, ∀ other ∈ db.documents, document.jobId = job.id →
    other.jobId = job.id → document.sourceDocumentKey = other.sourceDocumentKey → document = other

theorem history_unparsed {job : PrintJob} (h : Keyed rt db) (hu : Unparsed db job.id) :
    History rt job [] [] db where
  keyed := h
  record document hd hj := absurd hj (hu document hd)
  stored _ h := absurd h List.not_mem_nil
  unique document hd _ _ hj := absurd hj (hu document hd)

theorem storedOutput_congr (h : Keyed rt db)
    (hp : ∀ parser ∈ db.parserVersions, parser ∈ db'.parserVersions) {version : DocumentVersion}
    (hv : version ∈ db.versions) : storedOutput db' version = storedOutput db version := by
  obtain ⟨parser, hm, hid⟩ := h.registered version hv
  have hfind := Table.find_eq_some.mpr ⟨hm, hid⟩
  have hfind' := Table.find_eq_some.mpr ⟨hp parser hm, hid⟩
  unfold storedOutput
  rw [hfind, hfind']

theorem mem_versionsOf {documentId : UUID} {version : DocumentVersion} :
    version ∈ versionsOf db documentId ↔ version ∈ db.versions ∧ version.documentId = documentId := by
  simp [versionsOf]

/-- The rows of a document are read from the versions and their parsers. -/
theorem Record.congr {job : PrintJob} {seen seen' entries : List ParsedDocument} {document : Document}
    (hk : Keyed rt db) (h : Record db job seen entries document)
    (hv : versionsOf db' document.id = versionsOf db document.id)
    (hp : ∀ parser ∈ db.parserVersions, parser ∈ db'.parserVersions)
    (hseen : ∃ rest, seen' = seen ++ rest) : Record db' job seen' entries document where
  device := h.device
  session := h.session
  capturedAt := by
    obtain ⟨rest, rfl⟩ := hseen
    have hc := h.capturedAt
    cases hf : seen.find? fun parsed => parsed.value.id == document.sourceDocumentKey with
    | none => simp [hf] at hc
    | some first => simpa [List.find?_append, hf] using hc
  outputs := by
    rw [hv, ← h.outputs]
    exact List.map_congr_left fun version hm =>
      storedOutput_congr hk hp (mem_versionsOf.mp hm).1
  sequences := by
    rw [hv]
    exact h.sequences

/-- The rows of the job the parser reads do not change over its parses. -/
structure SameJob (job row : PrintJob) : Prop where
  id : row.id = job.id
  device : row.deviceExternalId = job.deviceExternalId
  session : row.sourceSessionId = job.sourceSessionId
  source : row.sourceJobId = job.sourceJobId

variable {job row : PrintJob} {entries : List ParsedDocument} {parsed : ParsedDocument}

theorem history_upsertDocument (h : History rt job entries entries db) (hrow : SameJob job row)
    (hk : Keyed rt db') {document : Document} (hu : Upserted row parsed db document db') :
    History rt job (entries ++ [parsed]) entries db' := by
  have hp : ∀ parser ∈ db.parserVersions, parser ∈ db'.parserVersions :=
    fun _ hm => hu.parserVersions ▸ hm
  have hversions : ∀ id, versionsOf db' id = versionsOf db id := by
    intro id
    unfold versionsOf
    rw [hu.versions]
  have hold : ∀ old ∈ db.documents, old.jobId = job.id →
      Record db' job (entries ++ [parsed]) entries old := fun old ho hj =>
    (h.record old ho hj).congr h.keyed (hversions old.id) hp ⟨[parsed], rfl⟩
  obtain ⟨hmem, hsame⟩ | ⟨hnone, hdevice, hsession, hcaptured, hfresh, hrows⟩ := hu.rows
  · have hdocument : ∀ d, d ∈ db'.documents ↔ d ∈ db.documents := fun d => by rw [hsame]
    refine ⟨hk, fun d hd => hold d ((hdocument d).mp hd), ?_, ?_⟩
    · intro p hpm
      obtain hpm | hpm := List.mem_append.mp hpm
      · obtain ⟨d, hd, hj⟩ := h.stored p hpm
        exact ⟨d, (hdocument d).mpr hd, hj⟩
      · cases List.mem_singleton.mp hpm
        exact ⟨document, hu.mem, hu.jobId.trans hrow.id, hu.key⟩
    · exact fun d hd o ho => h.unique d ((hdocument d).mp hd) o ((hdocument o).mp ho)
  · -- no parse of the job had the key, so the new document starts empty
    have hunseen : ∀ p ∈ entries, p.value.id ≠ parsed.value.id := by
      intro p hpm heq
      obtain ⟨d, hd, hj, hkey⟩ := h.stored p hpm
      exact hnone d hd (hj.trans hrow.id.symm) (hkey.trans heq)
    have hempty : versionsOf db' document.id = [] := by
      rw [hversions]
      refine List.eq_nil_iff_forall_not_mem.mpr fun version hm => ?_
      obtain ⟨hv, hid⟩ := mem_versionsOf.mp hm
      obtain ⟨old, ho, hown⟩ := h.keyed.owner version hv
      exact hfresh old ho (hown.trans hid)
    have hnew : Record db' job (entries ++ [parsed]) entries document := by
      refine ⟨hdevice.trans hrow.device, hsession.trans hrow.session, ?_, ?_, ?_⟩
      · have hf : entries.find? (fun p => p.value.id == document.sourceDocumentKey) = none := by
          refine List.find?_eq_none.mpr fun p hpm => ?_
          simpa [hu.key] using hunseen p hpm
        rw [List.find?_append, hf, Option.none_or]
        simp [hu.key, hcaptured]
      · rw [hempty, hu.key, outputs_eq_nil hunseen]
        rfl
      · rw [hempty]
        rfl
    refine ⟨hk, ?_, ?_, ?_⟩
    · intro d hd hj
      obtain hd | rfl := (hrows d).mp hd
      · exact hold d hd hj
      · exact hnew
    · intro p hpm
      obtain hpm | hpm := List.mem_append.mp hpm
      · obtain ⟨d, hd, hj⟩ := h.stored p hpm
        exact ⟨d, (hrows d).mpr (Or.inl hd), hj⟩
      · cases List.mem_singleton.mp hpm
        exact ⟨document, hu.mem, hu.jobId.trans hrow.id, hu.key⟩
    · intro d hd o ho hj hj' hkey
      obtain hd | rfl := (hrows d).mp hd <;> obtain ho | rfl := (hrows o).mp ho
      · exact h.unique d hd o ho hj hj' hkey
      · exact absurd (hkey.trans hu.key) (hnone d hd (hj.trans hrow.id.symm))
      · exact absurd (hkey.symm.trans hu.key) (hnone o ho (hj'.trans hrow.id.symm))
      · rfl

theorem history_upsertParser {seen : List ParsedDocument} (h : History rt job seen entries db)
    (hk : Keyed rt db') {parser : ParserVersion} (hp : Registered parsed db parser db') :
    History rt job seen entries db' := by
  have hversions : ∀ id, versionsOf db' id = versionsOf db id := by
    intro id
    unfold versionsOf
    rw [hp.versions]
  refine ⟨hk, fun d hd hj => ?_, fun p hpm => ?_, ?_⟩
  · rw [hp.documents] at hd
    exact (h.record d hd hj).congr h.keyed (hversions d.id) hp.kept ⟨[], (List.append_nil _).symm⟩
  · rw [hp.documents]
    exact h.stored p hpm
  · rw [hp.documents]
    exact h.unique

/-- The parse is known under its document exactly when its build stored an
output for the payload before. -/
theorem alreadyParsed_iff {seen : List ParsedDocument} {document : Document} (hk : Keyed rt db)
    (h : Record db job seen entries document) {parser : ParserVersion}
    (hp : parser ∈ db.parserVersions) (hb : buildOf parser = producer parsed) :
    alreadyParsed db document parser parsed =
      repeats (outputs entries document.sourceDocumentKey) parsed := by
  have hmem : ∀ output, output ∈ outputs entries document.sourceDocumentKey ↔
      ∃ version ∈ versionsOf db document.id, storedOutput db version = some output := by
    intro output
    have hm := congrArg (some output ∈ ·) h.outputs
    simpa using hm.symm
  have hout : ∀ version ∈ db.versions, ∀ output, storedOutput db version = some output →
      output.sourcePayloadSha256 = version.sourcePayloadSha256 ∧
        (output.build = producer parsed ↔ version.parserVersionId = parser.id) := by
    intro version hv output ho
    obtain ⟨known, hkm, hid⟩ := hk.registered version hv
    simp only [storedOutput, Table.find_eq_some.mpr ⟨hkm, hid⟩] at ho
    cases hs : version.semantics with
    | none => simp [hs] at ho
    | some semantics =>
      simp only [hs, Option.some.injEq] at ho
      subst ho
      refine ⟨rfl, ?_⟩
      rw [← hid, ← hb]
      exact ⟨fun heq => congrArg ParserVersion.id (hk.build known hkm parser hp heq),
        fun heq => congrArg buildOf (Table.eq_of_key hkm hp heq)⟩
  rw [Bool.eq_iff_iff]
  simp only [alreadyParsed, repeats, List.any_eq_true, Bool.and_eq_true, beq_iff_eq]
  constructor
  · rintro ⟨version, hv, ⟨hdoc, hparser⟩, hsha⟩
    have hin : version ∈ versionsOf db document.id := mem_versionsOf.mpr ⟨hv, hdoc⟩
    have hsome : storedOutput db version ∈
        (outputs entries document.sourceDocumentKey).map some :=
      h.outputs ▸ List.mem_map_of_mem hin
    obtain ⟨output, ho, heq⟩ := List.mem_map.mp hsome
    obtain ⟨hs, hb'⟩ := hout version hv output heq.symm
    exact ⟨output, ho, hb'.mpr hparser, hs.trans hsha⟩
  · rintro ⟨output, ho, hbuild, hsha⟩
    obtain ⟨version, hin, heq⟩ := (hmem output).mp ho
    obtain ⟨hv, hdoc⟩ := mem_versionsOf.mp hin
    obtain ⟨hs, hb'⟩ := hout version hv output heq
    exact ⟨version, hv, ⟨hdoc, hb'.mp hbuild⟩, hs.symm.trans hsha⟩

theorem lastSequence_of_record {seen : List ParsedDocument} {document : Document}
    (h : Record db job seen entries document) :
    lastSequence db document.id = (versionsOf db document.id).length := by
  have hs := h.sequences
  unfold versionsOf at hs
  unfold lastSequence versionsOf
  rw [hs]
  generalize (db.versions.rows.filter fun version => version.documentId == document.id).length = n
  cases n with
  | zero => rfl
  | succ n =>
    have hmax : (List.range' 1 (n + 1)).max? = some (n + 1) := by
      refine List.max?_eq_some_iff.mpr ⟨?_, ?_⟩
      · simp only [List.mem_range'_1]
        omega
      · intro b hb
        simp only [List.mem_range'_1] at hb
        omega
    rw [hmax]
    rfl

/-- Appending adds one version to its document, with the next sequence. -/
theorem versionsOf_appendVersion (hk : Keyed rt db) (document : Document)
    (parsed : ParsedDocument) {parser : ParserVersion}
    (hp : parser ∈ db.parserVersions) (hb : buildOf parser = producer parsed) :
    ∃ version : DocumentVersion, version.versionSequence = lastSequence db document.id + 1 ∧
      storedOutput (appendVersion rt db document parser parsed) version = some (outputOf parsed) ∧
      ∀ id, versionsOf (appendVersion rt db document parser parsed) id =
        if id = document.id then versionsOf db id ++ [version] else versionsOf db id := by
  have hfresh : ∀ old ∈ db.versions, old.id ≠ rt.uuid4 db.drawn :=
    fun old ho => fresh_of_drawn (hk.version old ho)
  have hfind : (appendVersion rt db document parser parsed).parserVersions.find parser.id =
      some parser := Table.find_eq_some.mpr ⟨hp, rfl⟩
  refine ⟨?version, ?sequence, ?output, fun id => ?rows⟩
  case rows =>
    unfold versionsOf appendVersion
    dsimp only
    rw [Table.insert_of_fresh hfresh, List.filter_append]
    by_cases hid : id = document.id
    · rw [if_pos hid, List.filter_cons_of_pos (by simp [hid]), List.filter_nil]
    · rw [if_neg hid, List.filter_cons_of_neg (by simpa using Ne.symm hid), List.filter_nil,
        List.append_nil]
  case sequence => rfl
  case output =>
    unfold storedOutput
    dsimp only
    rw [hfind]
    simp only [hb]
    rfl

theorem History.through {seen entries' : List ParsedDocument} (h : History rt job seen entries db)
    (heq : ∀ key, outputs entries' key = outputs entries key) : History rt job seen entries' db where
  keyed := h.keyed
  record document hd hj := by
    have hr := h.record document hd hj
    exact ⟨hr.device, hr.session, hr.capturedAt, hr.outputs.trans (by rw [heq]), hr.sequences⟩
  stored := h.stored
  unique := h.unique

theorem history_appendVersion {seen : List ParsedDocument} (h : History rt job seen entries db)
    {document : Document} (hd : document ∈ db.documents) (hj : document.jobId = job.id)
    (hkey : document.sourceDocumentKey = parsed.value.id) {parser : ParserVersion}
    (hp : parser ∈ db.parserVersions) (hb : buildOf parser = producer parsed)
    (hnew : repeats (outputs entries parsed.value.id) parsed = false) :
    History rt job seen (entries ++ [parsed]) (appendVersion rt db document parser parsed) := by
  obtain ⟨version, hseq, hout, hrows⟩ :=
    versionsOf_appendVersion h.keyed document parsed hp hb
  have hk := keyed_appendVersion h.keyed hd hp parsed
  have hdocuments : ∀ d, d ∈ (appendVersion rt db document parser parsed).documents →
      ∃ old ∈ db.documents, d.id = old.id ∧ d.jobId = old.jobId ∧
        d.sourceDocumentKey = old.sourceDocumentKey ∧
        (Record (appendVersion rt db document parser parsed) job seen (entries ++ [parsed]) old →
          Record (appendVersion rt db document parser parsed) job seen (entries ++ [parsed]) d) := by
    intro d hm
    obtain ⟨old, ho, rfl⟩ := List.mem_map.mp hm
    refine ⟨old, ho, ?_⟩
    split
    · exact ⟨rfl, rfl, rfl, fun hr => ⟨hr.device, hr.session, hr.capturedAt, hr.outputs, hr.sequences⟩⟩
    · exact ⟨rfl, rfl, rfl, id⟩
  have hrecord : ∀ old ∈ db.documents, old.jobId = job.id →
      Record (appendVersion rt db document parser parsed) job seen (entries ++ [parsed]) old := by
    intro old ho hjob
    have hr := h.record old ho hjob
    have hkept : (versionsOf db old.id).map
        (storedOutput (appendVersion rt db document parser parsed)) =
          (versionsOf db old.id).map (storedOutput db) := List.map_congr_left fun v hv =>
      storedOutput_congr h.keyed (fun _ hm => hm) (mem_versionsOf.mp hv).1
    by_cases hid : old.id = document.id
    · obtain rfl := Table.eq_of_key ho hd hid
      refine ⟨hr.device, hr.session, hr.capturedAt, ?_, ?_⟩
      · rw [hrows, if_pos rfl, List.map_append, hkept, hr.outputs, outputs_snoc, hkey]
        simp [keep, hnew, hout]
      · rw [hrows, if_pos rfl, List.map_append, hr.sequences, List.length_append,
          List.range'_append_1.symm]
        simp [hseq, lastSequence_of_record hr, Nat.add_comm]
    · have hne : parsed.value.id ≠ old.sourceDocumentKey := by
        intro heq
        exact hid (congrArg Document.id (h.unique old ho document hd hjob hj (heq.symm.trans hkey.symm)))
      refine ⟨hr.device, hr.session, hr.capturedAt, ?_, ?_⟩
      · rw [hrows, if_neg hid, hkept, hr.outputs, outputs_snoc, keep_of_ne hne]
      · rw [hrows, if_neg hid]
        exact hr.sequences
  refine ⟨hk, fun d hm hjob => ?_, fun p hpm => ?_, fun d hm o ho hjob hjob' heq => ?_⟩
  · obtain ⟨old, ho, -, hj', -, htransfer⟩ := hdocuments d hm
    exact htransfer (hrecord old ho (hj'.symm.trans hjob))
  · obtain ⟨old, ho, hjob, hk'⟩ := h.stored p hpm
    refine ⟨if old.id = document.id then { old with projection := semanticsOf parsed.value } else old,
      List.mem_map.mpr ⟨old, ho, rfl⟩, ?_, ?_⟩
    · split <;> exact hjob
    · split <;> exact hk'
  · obtain ⟨old, hom, hid, hj', hk', -⟩ := hdocuments d hm
    obtain ⟨old', hom', hid', hj'', hk'', -⟩ := hdocuments o ho
    have hsame := h.unique old hom old' hom' (hj'.symm.trans hjob) (hj''.symm.trans hjob')
      (hk'.symm.trans (heq.trans hk''))
    exact Table.eq_of_key hm ho (hid.trans ((congrArg Document.id hsame).trans hid'.symm))

/-- **One document through the parser transaction.** -/
theorem history_storeDocument (h : History rt job entries entries db) (hrow : SameJob job row)
    (parsed : ParsedDocument) :
    History rt job (entries ++ [parsed]) (entries ++ [parsed]) (storeDocument rt row db parsed) := by
  obtain ⟨hu, hkd⟩ := upsertDocument_spec h.keyed row parsed
  obtain ⟨hp, hkp⟩ := upsertParser_spec hkd parsed
  have hhist := history_upsertParser (history_upsertDocument h hrow hkd hu) hkp hp
  have hdoc := hp.documents ▸ hu.mem
  have hjob := hu.jobId.trans hrow.id
  have hrec := hhist.record _ hdoc hjob
  have hparsed := alreadyParsed_iff hkp hrec hp.mem hp.build
  rw [hu.key] at hparsed
  unfold storeDocument
  dsimp only
  split
  · next hdone =>
    rw [hparsed] at hdone
    refine hhist.through fun key => ?_
    rw [outputs_snoc, keep]
    by_cases hkey : parsed.value.id = key
    · subst hkey
      simp [hdone]
    · simp [hkey]
  · next hdone =>
    rw [hparsed, Bool.not_eq_true] at hdone
    exact history_appendVersion hhist hdoc hjob hu.key hp.mem hp.build hdone

/-! ## Runs of the parser over one job -/

/-- One call of `store_documents`: the tuple a build produced. -/
structure StoreCall where
  build : Build
  documents : List NormalizedDocument

def StoreCall.tuple (call : StoreCall) : List ParsedDocument :=
  call.documents.map fun value =>
    { value
      parserName := call.build.name
      parserVersion := call.build.version
      buildSha256 := call.build.sha256 }

/-- The lines of each document carry numbers of their own. -/
def Numbered (call : StoreCall) : Prop :=
  ∀ document ∈ call.documents, (document.lines.map DocumentLine.sequence).Nodup

/-- The documents of the calls, in the order they are stored. -/
def entriesOf (calls : List StoreCall) : List ParsedDocument := calls.flatMap StoreCall.tuple

def storeCalls (rt : Runtime) (jobId : UUID) (db : Database) (calls : List StoreCall) : Database :=
  calls.foldl (fun db call => storeDocuments rt db jobId call.tuple) db

/-- The stored job, whatever its status. -/
def Stands (job : PrintJob) (db : Database) : Prop := ∃ row ∈ db.jobs, SameJob job row

theorem history_foldl (h : History rt job entries entries db) (hrow : SameJob job row)
    (documents : List ParsedDocument) :
    History rt job (entries ++ documents) (entries ++ documents)
      (documents.foldl (storeDocument rt row) db) := by
  induction documents generalizing entries db with
  | nil =>
    rw [List.append_nil]
    exact h
  | cons parsed rest ih =>
    have hnext := ih (history_storeDocument h hrow parsed)
    rw [List.append_assoc] at hnext
    exact hnext

theorem jobs_storeDocument (rt : Runtime) (db : Database) (row : PrintJob) (parsed : ParsedDocument) :
    (storeDocument rt row db parsed).jobs = db.jobs := by
  unfold storeDocument upsertDocument upsertParser
  dsimp only
  split <;> split <;> split <;> rfl

theorem jobs_foldl_storeDocument (rt : Runtime) (db : Database) (row : PrintJob)
    (documents : List ParsedDocument) :
    (documents.foldl (storeDocument rt row) db).jobs = db.jobs :=
  invariant (fun d => d.jobs = db.jobs) (fun d parsed h => (jobs_storeDocument rt d row parsed).trans h)
    rfl documents

theorem History.congr {seen : List ParsedDocument} (h : History rt job seen entries db)
    (hd : db'.documents = db.documents) (hv : db'.versions = db.versions)
    (hp : db'.parserVersions = db.parserVersions) (hn : db.drawn ≤ db'.drawn) :
    History rt job seen entries db' := by
  have hversions : ∀ id, versionsOf db' id = versionsOf db id := by
    intro id
    unfold versionsOf
    rw [hv]
  refine ⟨h.keyed.congr hd hv hp hn, fun d hm hj => ?_, fun p hpm => ?_, ?_⟩
  · rw [hd] at hm
    exact (h.record d hm hj).congr h.keyed (hversions d.id) (fun _ hk => hp ▸ hk)
      ⟨[], (List.append_nil _).symm⟩
  · rw [hd]
    exact h.stored p hpm
  · rw [hd]
    exact h.unique

theorem history_storeDocuments (h : History rt job entries entries db) (hs : Stands job db)
    {documents : List ParsedDocument} (hlines : ∀ parsed ∈ documents, numbered parsed = true) :
    History rt job (entries ++ documents) (entries ++ documents)
        (storeDocuments rt db job.id documents) ∧
      Stands job (storeDocuments rt db job.id documents) := by
  obtain ⟨row, hm, hrow⟩ := hs
  have hfind : db.jobs.find job.id = some row := Table.find_eq_some.mpr ⟨hm, hrow.id⟩
  have hjobs := jobs_foldl_storeDocument rt db row documents
  rw [storeDocuments_of_numbered hfind hlines]
  refine ⟨(history_foldl h hrow documents).congr rfl rfl rfl le_rfl, ?_⟩
  refine ⟨{ row with importStatus := if documents.isEmpty then .parseEmpty else .parsed }, ?_,
    hrow.id, hrow.device, hrow.session, hrow.source⟩
  refine List.mem_map.mpr ⟨row, ?_, if_pos rfl⟩
  rw [hjobs]
  exact hm

theorem numbered_tuple {call : StoreCall} {parsed : ParsedDocument} (h : Numbered call)
    (hmem : parsed ∈ call.tuple) : numbered parsed = true := by
  obtain ⟨value, hvalue, rfl⟩ := List.mem_map.mp hmem
  exact decide_eq_true (h value hvalue)

/-- **The history of a job** after any sequence of parses. -/
theorem history_storeCalls (h : Keyed rt db) (hs : Stands job db) (hu : Unparsed db job.id)
    {calls : List StoreCall} (hlines : ∀ call ∈ calls, Numbered call) :
    History rt job (entriesOf calls) (entriesOf calls) (storeCalls rt job.id db calls) ∧
      Stands job (storeCalls rt job.id db calls) := by
  have hrun : ∀ (calls : List StoreCall), (∀ call ∈ calls, Numbered call) →
      ∀ (entries : List ParsedDocument) (db : Database),
      History rt job entries entries db → Stands job db →
        History rt job (entries ++ entriesOf calls) (entries ++ entriesOf calls)
          (storeCalls rt job.id db calls) ∧ Stands job (storeCalls rt job.id db calls) := by
    intro calls hlines
    induction calls with
    | nil =>
      intro entries db hh hstands
      exact ⟨by simpa [entriesOf, storeCalls] using hh, hstands⟩
    | cons call rest ih =>
      intro entries db hh hstands
      obtain ⟨hnext, hstands'⟩ := history_storeDocuments hh hstands
        fun _ => numbered_tuple (hlines call List.mem_cons_self)
      have := ih (fun other hother => hlines other (List.mem_cons_of_mem _ hother)) _ _ hnext hstands'
      rwa [List.append_assoc] at this
  exact hrun calls hlines [] db (history_unparsed h hu) hs

end RetailPrintGuard.Parser.Builds
