import RetailPrintGuard.Parser.Builds

/-! # What analysis reads of a job several builds have parsed

The ranking of the versions prefers the active build; a document the active
build did not produce falls back on the last version of another one. -/
namespace RetailPrintGuard.Parser.ActiveBuild
open RetailPrintGuard.Common.Python RetailPrintGuard.Common.Domain
open RetailPrintGuard.Correlation.CandidateBatch RetailPrintGuard.Correlation.Loading
open RetailPrintGuard.Correlation.Scoring
open RetailPrintGuard.Db.Models RetailPrintGuard.Db.Repository
open RetailPrintGuard.Library RetailPrintGuard.Library.Runs
open RetailPrintGuard.Parser.Repository RetailPrintGuard.Parser.FirstParse
open RetailPrintGuard.Parser.Builds RetailPrintGuard.System

variable {rt : Runtime} {db : Database} {job : PrintJob} {entries : List ParsedDocument}

/-! ## The version analysis reads -/

instance (db : Database) : Std.Total (Newer db) where
  total a b := by
    unfold Newer
    grind

instance (db : Database) : IsTrans DocumentVersion (Newer db) where
  trans a b c := by
    unfold Newer
    grind

/-- The pointer of the parser's name is on a registered build. -/
structure Points (db : Database) (active : Build) (parser : ParserVersion) : Prop where
  mem : parser ∈ db.parserVersions
  build : buildOf parser = active
  pointer : db.activeParsers.find active.name = some (active.name, parser.id)

/-- The version the ranking prefers among versions of the name. -/
def preferred (parser : ParserVersion) (versions : List DocumentVersion) : Option DocumentVersion :=
  (versions.filter fun version => version.parserVersionId == parser.id).getLast?.or versions.getLast?

variable {active : Build} {parser : ParserVersion}

theorem activationRank_of_points (hk : Keyed rt db) (h : Points db active parser) {version : DocumentVersion}
    {output : Output} (ho : storedOutput db version = some output)
    (hname : output.build.name = active.name) :
    activationRank db version = (if version.parserVersionId = parser.id then 2 else 1) ∧
      (output.build == active) = (version.parserVersionId == parser.id) := by
  unfold storedOutput at ho
  cases hf : db.parserVersions.find version.parserVersionId with
  | none => simp [hf] at ho
  | some known =>
    cases hs : version.semantics with
    | none => simp [hf, hs] at ho
    | some semantics =>
      simp only [hf, hs, Option.some.injEq] at ho
      subst ho
      obtain ⟨hkm, hid⟩ := Table.find_eq_some.mp hf
      have hpointer : db.activeParsers.find known.name = some (active.name, parser.id) := by
        rw [show known.name = active.name from hname]
        exact h.pointer
      refine ⟨?_, ?_⟩
      · simp only [activationRank, hf, hpointer, eq_comm]
      · rw [Bool.eq_iff_iff, beq_iff_eq, beq_iff_eq, ← hid, ← h.build]
        exact ⟨fun heq => congrArg ParserVersion.id (hk.build known hkm parser h.mem heq),
          fun heq => congrArg buildOf (Table.eq_of_key hkm h.mem heq)⟩

theorem le_of_getLast? {versions : List DocumentVersion} {last : DocumentVersion}
    (hs : versions.Pairwise fun a b => a.versionSequence < b.versionSequence)
    (h : versions.getLast? = some last) :
    ∀ version ∈ versions, version.versionSequence ≤ last.versionSequence := by
  obtain ⟨front, rfl⟩ := List.getLast?_eq_some_iff.mp h
  intro version hm
  rw [List.pairwise_append] at hs
  obtain hm | hm := List.mem_append.mp hm
  · exact (hs.2.2 version hm last (List.mem_singleton.mpr rfl)).le
  · rw [List.mem_singleton.mp hm]

theorem pairwise_versionsOf {seen : List ParsedDocument} {document : Document}
    (h : Record db job seen entries document) :
    (versionsOf db document.id).Pairwise fun a b => a.versionSequence < b.versionSequence := by
  have hp := List.pairwise_lt_range' (s := 1) (n := (versionsOf db document.id).length)
  rw [← h.sequences] at hp
  exact List.pairwise_map.mp hp

/-- The ranking picks the last version of the active build, or the last one. -/
theorem latestVersion_eq_preferred (hk : Keyed rt db) {seen : List ParsedDocument}
    {document : Document} (hr : Record db job seen entries document) (h : Points db active parser)
    (hname : ∀ output ∈ outputs entries document.sourceDocumentKey,
      output.build.name = active.name) :
    latestVersion db document.id = preferred parser (versionsOf db document.id) := by
  have hseq := pairwise_versionsOf hr
  have hrank : ∀ version ∈ versionsOf db document.id, activationRank db version =
      if version.parserVersionId = parser.id then 2 else 1 := by
    intro version hm
    have hout : storedOutput db version ∈ (outputs entries document.sourceDocumentKey).map some :=
      hr.outputs ▸ List.mem_map_of_mem hm
    obtain ⟨output, ho, heq⟩ := List.mem_map.mp hout
    exact (activationRank_of_points hk h heq.symm (hname output ho)).1
  have hsep : ListOrder.Separates (Newer db)
      ((versionsOf db document.id).insertionSort (Newer db)) := by
    intro a ha b hb hab hba
    rw [ListOrder.mem_sorted] at ha hb
    refine Table.eq_of_key (mem_versionsOf.mp ha).1 (mem_versionsOf.mp hb).1 ?_
    unfold Newer at hab hba
    grind
  have hlatest : latestVersion db document.id =
      ((versionsOf db document.id).insertionSort (Newer db)).head? := rfl
  have hfirst : ∀ best ∈ versionsOf db document.id,
      (∀ version ∈ versionsOf db document.id, Newer db best version) →
        latestVersion db document.id = some best := by
    intro best hm hbest
    rw [hlatest, ListOrder.head?_of_pairwise (List.pairwise_insertionSort _ _) hsep]
    refine ⟨ListOrder.mem_sorted.mpr hm, fun version hv => hbest version (ListOrder.mem_sorted.mp hv)⟩
  have hnewer : ∀ best ∈ versionsOf db document.id, ∀ version ∈ versionsOf db document.id,
      activationRank db best = activationRank db version →
        version.versionSequence ≤ best.versionSequence → Newer db best version := by
    intro best hb version hm heq hle
    refine Or.inr ⟨heq, ?_⟩
    obtain hlt | heq' := hle.lt_or_eq
    · exact Or.inl hlt
    · have hnodup : ((versionsOf db document.id).map DocumentVersion.versionSequence).Nodup := by
        rw [hr.sequences]
        exact List.nodup_range'
      rw [List.inj_on_of_nodup_map hnodup hm hb heq']
      exact Or.inr ⟨rfl, le_rfl⟩
  unfold preferred
  cases hactive : ((versionsOf db document.id).filter fun version =>
      version.parserVersionId == parser.id).getLast? with
  | some best =>
    -- a version of the active build comes before every other one
    have hbest := List.mem_filter.mp (List.mem_of_getLast? hactive)
    refine hfirst best hbest.1 fun version hm => ?_
    have hb : best.parserVersionId = parser.id := beq_iff_eq.mp hbest.2
    by_cases hv : version.parserVersionId = parser.id
    · have hle := le_of_getLast? (hseq.filter _) hactive version
        (List.mem_filter.mpr ⟨hm, beq_iff_eq.mpr hv⟩)
      refine hnewer best hbest.1 version hm ?_ hle
      rw [hrank best hbest.1, hrank version hm, if_pos hb, if_pos hv]
    · left
      rw [hrank best hbest.1, hrank version hm, if_pos hb, if_neg hv]
      decide
  | none =>
    rw [Option.none_or]
    have hother : ∀ version ∈ versionsOf db document.id, version.parserVersionId ≠ parser.id := by
      intro version hm heq
      have hin : version ∈ (versionsOf db document.id).filter fun version =>
          version.parserVersionId == parser.id := List.mem_filter.mpr ⟨hm, beq_iff_eq.mpr heq⟩
      rw [List.getLast?_eq_none_iff.mp hactive] at hin
      exact List.not_mem_nil hin
    cases hlast : (versionsOf db document.id).getLast? with
    | some best =>
      have hbest := List.mem_of_getLast? hlast
      refine hfirst best hbest fun version hm => ?_
      refine hnewer best hbest version hm ?_ (le_of_getLast? hseq hlast version hm)
      rw [hrank best hbest, hrank version hm, if_neg (hother best hbest), if_neg (hother version hm)]
    | none =>
      rw [hlatest, List.getLast?_eq_none_iff.mp hlast]
      rfl

section
variable {α β : Type} {f : α → Option β} {l : List α} {l' : List β}

theorem map_filter_of_map (h : l.map f = l'.map some) {p : α → Bool} {q : β → Bool}
    (hpq : ∀ a ∈ l, ∀ b, f a = some b → q b = p a) :
    (l.filter p).map f = (l'.filter q).map some := by
  induction l generalizing l' with
  | nil =>
    rw [List.map_nil, eq_comm, List.map_eq_nil_iff] at h
    subst h
    rfl
  | cons a l ih =>
    obtain ⟨b, rest, rfl, hb, hrest⟩ := List.map_eq_cons_iff.mp h.symm
    have htail := ih hrest.symm fun a ha => hpq a (List.mem_cons_of_mem _ ha)
    have hhead := hpq a List.mem_cons_self b hb.symm
    cases hp : p a with
    | true =>
      rw [List.filter_cons_of_pos hp, List.filter_cons_of_pos (hhead.trans hp), List.map_cons,
        List.map_cons, hb, htail]
    | false =>
      rw [List.filter_cons_of_neg (by simp [hp]), List.filter_cons_of_neg (by simp [hhead, hp]), htail]

theorem getLast?_bind_of_map (h : l.map f = l'.map some) : l.getLast?.bind f = l'.getLast? := by
  have hlast := congrArg List.getLast? h
  rw [List.getLast?_map, List.getLast?_map] at hlast
  cases hl : l.getLast? <;> cases hl' : l'.getLast? <;> simp_all

end

/-- What the version keeps is the current output of its source key. -/
theorem storedOutput_latestVersion (hk : Keyed rt db) {seen : List ParsedDocument}
    {document : Document} (hr : Record db job seen entries document) (h : Points db active parser)
    (hname : ∀ output ∈ outputs entries document.sourceDocumentKey,
      output.build.name = active.name) :
    (latestVersion db document.id).bind (storedOutput db) =
      current active entries document.sourceDocumentKey := by
  have hactive := map_filter_of_map hr.outputs (p := fun version =>
    version.parserVersionId == parser.id) (q := fun output => output.build == active)
    fun version hm output ho => by
      have hin : some output ∈ (outputs entries document.sourceDocumentKey).map some :=
        hr.outputs ▸ ho ▸ List.mem_map_of_mem hm
      exact (activationRank_of_points hk h ho (hname output (by simpa using hin))).2
  have hfirst := getLast?_bind_of_map hactive
  have hlast := getLast?_bind_of_map hr.outputs
  rw [latestVersion_eq_preferred hk hr h hname]
  unfold preferred current
  rw [← hfirst, ← hlast]
  cases hf : ((versionsOf db document.id).filter fun version =>
      version.parserVersionId == parser.id).getLast? with
  | none => rfl
  | some version =>
    rw [Option.some_or, Option.bind_some]
    cases ho : storedOutput db version with
    | some output => rfl
    | none =>
      have hm := (List.mem_filter.mp (List.mem_of_getLast? hf)).1
      have hin : storedOutput db version ∈ (outputs entries document.sourceDocumentKey).map some :=
        hr.outputs ▸ List.mem_map_of_mem hm
      simp [ho] at hin

/-! ## What loads -/

/-- The document an output loads as: the content its build produced, under the
ids of the stored rows. -/
def loadedAs (id : UUID) (job : PrintJob) (capturedAt : Timestamp) (output : Output) :
    NormalizedDocument where
  id := id
  sourceDeviceId := job.deviceExternalId
  sourceSessionId := job.sourceSessionId
  sourceJobId := job.sourceJobId
  type := output.semantics.documentType
  externalDocumentCode := output.semantics.externalDocumentCode
  externalDocumentCodeSuffix := output.semantics.externalDocumentCodeSuffix
  commercialReferenceCode := output.semantics.commercialReferenceCode
  orderCode := output.semantics.orderCode
  tableCode := output.semantics.tableCode
  operatorCode := output.semantics.operatorCode
  terminalCode := output.semantics.terminalCode
  documentTimestamp := output.semantics.documentTimestamp
  capturedAt := capturedAt
  grossTotal := output.grossTotal
  netTotal := output.netTotal
  discountTotal := output.discountTotal
  sourcePayloadSha256 := output.sourcePayloadSha256
  complete := output.complete
  lines := sortedLines output.lines
  payments := output.payments
  rawMetadata := output.rawMetadata

/-- The source key of the document a loaded value comes from. -/
def sourceKey (db : Database) (item : LoadedDocument) : Option UUID :=
  (db.documents.find item.value.id).map Document.sourceDocumentKey

/-- The source keys the builds have stored, each once. -/
def sourceKeys (calls : List StoreCall) : List UUID :=
  ((entriesOf calls).map fun parsed => parsed.value.id).dedup

theorem mem_outputs {key : UUID} {output : Output} (h : output ∈ outputs entries key) :
    ∃ parsed ∈ entries, parsed.value.id = key ∧ outputOf parsed = output := by
  induction entries using List.reverseRecOn with
  | nil => exact absurd h List.not_mem_nil
  | append_singleton entries parsed ih =>
    rw [outputs_snoc, keep] at h
    split at h
    · next hkeep =>
      obtain h | h := List.mem_append.mp h
      · obtain ⟨p, hp, hrest⟩ := ih h
        exact ⟨p, List.mem_append_left _ hp, hrest⟩
      · rw [List.mem_singleton.mp h]
        simp only [Bool.and_eq_true, decide_eq_true_eq] at hkeep
        exact ⟨parsed, by simp, hkeep.1, rfl⟩
    · obtain ⟨p, hp, hrest⟩ := ih h
      exact ⟨p, List.mem_append_left _ hp, hrest⟩

/-- A build that handed in a document under the key has an output there. -/
theorem exists_output {parsed : ParsedDocument} (h : parsed ∈ entries) :
    ∃ output ∈ outputs entries parsed.value.id, output.build = producer parsed := by
  induction entries using List.reverseRecOn with
  | nil => exact absurd h List.not_mem_nil
  | append_singleton entries last ih =>
    rw [outputs_snoc, keep]
    obtain h | h := List.mem_append.mp h
    · obtain ⟨output, ho, hb⟩ := ih h
      split
      · exact ⟨output, List.mem_append_left _ ho, hb⟩
      · exact ⟨output, ho, hb⟩
    · cases List.mem_singleton.mp h
      cases hrep : repeats (outputs entries parsed.value.id) parsed with
      | true =>
        obtain ⟨output, ho, hsame⟩ := List.any_eq_true.mp hrep
        simp only [Bool.and_eq_true, beq_iff_eq] at hsame
        exact ⟨output, by simpa using ho, hsame.1⟩
      | false => exact ⟨outputOf parsed, by simp, rfl⟩

theorem exists_current (active : Build) {key : UUID} (h : ∃ parsed ∈ entries, parsed.value.id = key) :
    ∃ output, current active entries key = some output := by
  obtain ⟨parsed, hp, rfl⟩ := h
  obtain ⟨output, ho, -⟩ := exists_output hp
  unfold current
  cases ((outputs entries parsed.value.id).filter fun output => output.build == active).getLast? with
  | some best => exact ⟨best, rfl⟩
  | none =>
    rw [Option.none_or]
    cases hl : (outputs entries parsed.value.id).getLast? with
    | some best => exact ⟨best, rfl⟩
    | none =>
      rw [List.getLast?_eq_none_iff.mp hl] at ho
      exact absurd ho List.not_mem_nil

theorem value_of_storedOutput {row : QueryRow} {output : Output}
    (hdevice : row.document.deviceExternalId = job.deviceExternalId)
    (hsession : row.document.sourceSessionId = job.sourceSessionId)
    (hsource : row.job.sourceJobId = job.sourceJobId)
    (ho : storedOutput db row.version = some output) :
    row.value = loadedAs row.document.id job row.document.capturedAt output := by
  unfold storedOutput at ho
  cases hf : db.parserVersions.find row.version.parserVersionId with
  | none => simp [hf] at ho
  | some known =>
    cases hs : row.version.semantics with
    | none => simp [hf, hs] at ho
    | some semantics =>
      simp only [hf, hs, Option.some.injEq] at ho
      subst ho
      simp only [QueryRow.value, QueryRow.load, QueryRow.semantics, hs, Option.getD_some, loadedAs,
        hdevice, hsession, hsource]

/-- The loaded documents of a job after its parses: one for each document row,
with the current output of its source key. -/
structure Loads (job : PrintJob) (entries : List ParsedDocument) (active : Build) (db : Database)
    (item : LoadedDocument) (document : Document) : Prop where
  id : item.value.id = document.id
  value : ∃ output, current active entries document.sourceDocumentKey = some output ∧
    item.value = loadedAs document.id job document.capturedAt output

/-- What the rows of the job have to satisfy for its documents to load. -/
structure Settled (rt : Runtime) (job : PrintJob) (entries : List ParsedDocument) (active : Build)
    (db : Database) : Prop where
  history : History rt job entries entries db
  stands : Stands job db
  points : ∃ parser, Points db active parser
  name : ∀ parsed ∈ entries, (producer parsed).name = active.name
  analysable : ∀ row ∈ db.jobs.find job.id, analysable row = true

theorem Settled.name_outputs (h : Settled rt job entries active db) {key : UUID} :
    ∀ output ∈ outputs entries key, output.build.name = active.name := by
  intro output ho
  obtain ⟨parsed, hp, -, rfl⟩ := mem_outputs ho
  exact h.name parsed hp

theorem Settled.loads_of_mem (h : Settled rt job entries active db) {item : LoadedDocument}
    (hi : item ∈ loadLatestDocuments db (jobDocumentIds db job.id)) :
    ∃ document ∈ db.documents, document.jobId = job.id ∧ Loads job entries active db item document := by
  obtain ⟨row, hrow, hid, rfl⟩ := mem_loadLatestDocuments.mp hi
  obtain ⟨hd, hq⟩ := mem_documentQuery.mp hrow
  obtain ⟨-, hv, hj, -⟩ := queryRow_eq_some.mp hq
  obtain ⟨other, ho, heq⟩ := List.mem_map.mp hid
  obtain ⟨hom, hojob⟩ := List.mem_filter.mp ho
  have hjob : row.document.jobId = job.id := by
    rw [Table.eq_of_key hd hom heq.symm]
    exact beq_iff_eq.mp hojob
  have hr := h.history.record row.document hd hjob
  obtain ⟨parser, hpoints⟩ := h.points
  obtain ⟨known, hkm, hsame⟩ := h.stands
  have hrowjob : row.job = known := Option.some.inj
    (hj.symm.trans (hjob ▸ Table.find_eq_some.mpr ⟨hkm, hsame.id⟩))
  have hout := storedOutput_latestVersion h.history.keyed hr hpoints h.name_outputs
  rw [hv, Option.bind_some] at hout
  obtain ⟨output, hcurrent⟩ : ∃ output,
      current active entries row.document.sourceDocumentKey = some output := by
    refine exists_current active ?_
    have hc := hr.capturedAt
    cases hf : entries.find? fun parsed => parsed.value.id == row.document.sourceDocumentKey with
    | none => simp [hf] at hc
    | some first =>
      exact ⟨first, List.mem_of_find?_eq_some hf, by simpa using List.find?_some hf⟩
  exact ⟨row.document, hd, hjob, rfl, output, hcurrent, value_of_storedOutput hr.device hr.session
    (hrowjob ▸ hsame.source) (hout.trans hcurrent)⟩

theorem Settled.exists_item (h : Settled rt job entries active db) {document : Document}
    (hd : document ∈ db.documents) (hj : document.jobId = job.id) :
    ∃ item ∈ loadLatestDocuments db (jobDocumentIds db job.id), item.value.id = document.id := by
  have hr := h.history.record document hd hj
  obtain ⟨parser, hpoints⟩ := h.points
  obtain ⟨known, hkm, hsame⟩ := h.stands
  have hfind : db.jobs.find job.id = some known := Table.find_eq_some.mpr ⟨hkm, hsame.id⟩
  have hout := storedOutput_latestVersion h.history.keyed hr hpoints h.name_outputs
  obtain ⟨version, hv⟩ : ∃ version, latestVersion db document.id = some version := by
    cases hl : latestVersion db document.id with
    | some version => exact ⟨version, rfl⟩
    | none =>
      rw [hl, Option.bind_none] at hout
      have hc := hr.capturedAt
      cases hf : entries.find? fun parsed => parsed.value.id == document.sourceDocumentKey with
      | none => simp [hf] at hc
      | some first =>
        obtain ⟨output, hcurrent⟩ := exists_current active
          ⟨first, List.mem_of_find?_eq_some hf, by simpa using List.find?_some hf⟩
        rw [← hout] at hcurrent
        cases hcurrent
  let row : QueryRow := { document, version, job := known }
  refine ⟨row.load, mem_loadLatestDocuments.mpr ⟨row, mem_documentQuery.mpr ⟨hd, ?_⟩, ?_, rfl⟩, rfl⟩
  · exact queryRow_eq_some.mpr ⟨rfl, hv, hj ▸ hfind, h.analysable known hfind⟩
  · exact List.mem_map.mpr ⟨document, List.mem_filter.mpr ⟨hd, beq_iff_eq.mpr hj⟩, rfl⟩

theorem sourceKey_of_loads {item : LoadedDocument} {document : Document}
    (hd : document ∈ db.documents) (h : Loads job entries active db item document) :
    sourceKey db item = some document.sourceDocumentKey := by
  rw [sourceKey, h.id, Table.find_eq_some.mpr ⟨hd, rfl⟩]
  rfl

/-- One loaded document for each source key any build has stored. -/
theorem Settled.perm_sourceKeys (h : Settled rt job entries active db) :
    ((loadLatestDocuments db (jobDocumentIds db job.id)).map (sourceKey db)).Perm
      (((entries.map fun parsed => parsed.value.id).dedup).map some) := by
  refine (List.perm_ext_iff_of_nodup ?_ ?_).mpr fun key => ?_
  · refine List.Nodup.map_on ?_ (List.Nodup.of_map _ (nodup_loadLatestDocuments _))
    intro a ha b hb hab
    obtain ⟨d, hd, hj, hl⟩ := h.loads_of_mem ha
    obtain ⟨o, ho, hj', hl'⟩ := h.loads_of_mem hb
    rw [sourceKey_of_loads hd hl, sourceKey_of_loads ho hl', Option.some.injEq] at hab
    refine List.inj_on_of_nodup_map (nodup_loadLatestDocuments _) ha hb ?_
    rw [hl.id, hl'.id, h.history.unique d hd o ho hj hj' hab]
  · exact (List.nodup_dedup _).map (Option.some_injective _)
  · simp only [List.mem_map, List.mem_dedup]
    constructor
    · rintro ⟨item, hi, rfl⟩
      obtain ⟨d, hd, hj, hl⟩ := h.loads_of_mem hi
      have hc := (h.history.record d hd hj).capturedAt
      refine ⟨d.sourceDocumentKey, ?_, (sourceKey_of_loads hd hl).symm⟩
      cases hf : entries.find? fun parsed => parsed.value.id == d.sourceDocumentKey with
      | none => simp [hf] at hc
      | some first => exact ⟨first, List.mem_of_find?_eq_some hf, by simpa using List.find?_some hf⟩
    · rintro ⟨_, ⟨parsed, hp, rfl⟩, rfl⟩
      obtain ⟨d, hd, hj, hk⟩ := h.history.stored parsed hp
      obtain ⟨item, hi, hid⟩ := h.exists_item hd hj
      refine ⟨item, hi, ?_⟩
      rw [sourceKey, hid, Table.find_eq_some.mpr ⟨hd, rfl⟩, ← hk]
      rfl

/-- The content of the first document handed in under a key gives its capture
time, the current output everything else. -/
theorem Settled.value_eq (h : Settled rt job entries active db) {item : LoadedDocument}
    (hi : item ∈ loadLatestDocuments db (jobDocumentIds db job.id)) :
    ∃ key first output, sourceKey db item = some key ∧
      (entries.find? fun parsed => parsed.value.id == key) = some first ∧
      current active entries key = some output ∧
      item.value = loadedAs item.value.id job first.value.capturedAt output := by
  obtain ⟨d, hd, hj, hl⟩ := h.loads_of_mem hi
  obtain ⟨output, hcurrent, hvalue⟩ := hl.value
  have hc := (h.history.record d hd hj).capturedAt
  cases hf : entries.find? fun parsed => parsed.value.id == d.sourceDocumentKey with
  | none => simp [hf] at hc
  | some first =>
    rw [hf, Option.map_some, Option.some.injEq] at hc
    exact ⟨_, first, output, sourceKey_of_loads hd hl, hf, hcurrent, by rw [hl.id, hc, hvalue]⟩

/-! ## The tuple of the active build -/

theorem mem_entriesOf {calls : List StoreCall} {parsed : ParsedDocument} :
    parsed ∈ entriesOf calls ↔ ∃ call ∈ calls, ∃ value ∈ call.documents,
      parsed = ⟨value, call.build.name, call.build.version, call.build.sha256⟩ := by
  simp only [entriesOf, StoreCall.tuple, List.mem_flatMap, List.mem_map]
  constructor
  · rintro ⟨call, hc, value, hv, rfl⟩
    exact ⟨call, hc, value, hv, rfl⟩
  · rintro ⟨call, hc, value, hv, rfl⟩
    exact ⟨call, hc, value, hv, rfl⟩

/-- A build that always handed in the same tuple is current with it. -/
theorem current_of_tuple {calls : List StoreCall} {call : StoreCall} (hcall : call ∈ calls)
    (hactive : call.build = active) (hnodup : (call.documents.map (·.id)).Nodup)
    (hsame : ∀ other ∈ calls, other.build = active → other.documents = call.documents)
    {document : NormalizedDocument} (hd : document ∈ call.documents) :
    current active (entriesOf calls) document.id =
      some (outputOf ⟨document, active.name, active.version, active.sha256⟩) := by
  subst hactive
  have honly : ∀ output ∈ outputs (entriesOf calls) document.id, output.build = call.build →
      output = outputOf ⟨document, call.build.name, call.build.version, call.build.sha256⟩ := by
    intro output ho hb
    obtain ⟨parsed, hp, hkey, rfl⟩ := mem_outputs ho
    obtain ⟨other, hother, value, hv, rfl⟩ := mem_entriesOf.mp hp
    have hbuild : other.build = call.build := hb
    rw [hsame other hother hbuild] at hv
    rw [List.inj_on_of_nodup_map hnodup hv hd hkey, hbuild]
  obtain ⟨output, ho, hb⟩ := exists_output (mem_entriesOf.mpr ⟨call, hcall, document, hd, rfl⟩)
  have hin : output ∈ (outputs (entriesOf calls) document.id).filter fun output =>
      output.build == call.build := List.mem_filter.mpr ⟨ho, beq_iff_eq.mpr hb⟩
  unfold current
  cases hl : ((outputs (entriesOf calls) document.id).filter fun output =>
      output.build == call.build).getLast? with
  | none =>
    rw [List.getLast?_eq_none_iff.mp hl] at hin
    exact absurd hin List.not_mem_nil
  | some best =>
    obtain ⟨hbest, hbuild⟩ := List.mem_filter.mp (List.mem_of_getLast? hl)
    rw [Option.some_or, honly best hbest (beq_iff_eq.mp hbuild)]

/-- The database after the calls, with the parsers activated in the end. -/
def afterCalls (rt : Runtime) (db : Database) (jobId : UUID) (calls : List StoreCall)
    (pointers : Table (String × UUID) Prod.fst) : Database :=
  { storeCalls rt jobId db calls with activeParsers := pointers }

def splitJob : PrintJob := { id := 7, sourceJobId := "job-7" }

def splitDocument (id : UUID) : NormalizedDocument where
  id := id
  sourceDeviceId := "rch"
  sourceJobId := "job-7"
  type := .commercialDocument
  capturedAt := ⟨0, 0⟩
  sourcePayloadSha256 := "payload"

def earlierBuild : Build := ⟨"retailprintguard-rch-observed", "1.5.0", "a"⟩
def activeBuild : Build := ⟨"retailprintguard-rch-observed", "1.6.0", "b"⟩

/-- The earlier build saw two documents, the active one sees the first alone. -/
def splitCalls : List StoreCall :=
  [⟨earlierBuild, [splitDocument 1, splitDocument 2]⟩, ⟨activeBuild, [splitDocument 1]⟩]

/-- The row of the active build is the sixth identifier drawn. -/
def splitAfter : Database :=
  afterCalls asciiRuntime
    (run asciiRuntime Correlation.Scoring.standardEngine [.importJob splitJob]) 7 splitCalls
    (Table.empty.insert (activeBuild.name, asciiRuntime.uuid4 5))

end RetailPrintGuard.Parser.ActiveBuild
