import RetailPrintGuard.Db.IngestStore

/-! # What an import asks of the tables

The rows of an import are compared table by table, with one another and with
what is stored. A job that is not stored owns no row yet. -/
namespace RetailPrintGuard.Db.IngestRows
open RetailPrintGuard.Library RetailPrintGuard.Library.Transaction RetailPrintGuard.Common.Formats
open RetailPrintGuard.Ingestion.Dto RetailPrintGuard.Db.Semantic RetailPrintGuard.Db.IngestStore

/-! ## Tables -/

def table : Row → Nat
  | .session _ => 0
  | .job _ => 1
  | .rawPayload _ => 2
  | .chunk _ => 3
  | .parser _ => 4
  | .document _ => 5
  | .version _ => 6
  | .line _ => 7
  | .payment _ => 8
  | .importItem _ => 9

/-- The job a row belongs to. -/
def owner : Row → Option JobKey
  | .session _ | .job _ | .parser _ => none
  | .rawPayload row => some row.job
  | .chunk row => some row.job
  | .document row => some row.key.job
  | .version row => some row.document.job
  | .line row => some row.document.job
  | .payment row => some row.document.job
  | .importItem row => some row.job

def asLine : Row → Option LineRow
  | .line row => some row
  | _ => none

section
variable (readers : Readers) (db : Database) (envelope : NormalizedEnvelope)

def JobStored (key : JobKey) : Prop := ∃ row, Row.job row ∈ db.rows ∧ row.key = key

/-- No row without its job. -/
def Owned : Prop := ∀ row ∈ db.rows, ∀ key ∈ owner row, JobStored db key

/-- The rows of the chunks. -/
def chunkRows : List ChunkRow :=
  envelope.chunks.zipIdx.map fun (chunk, position) => chunkRow readers envelope chunk position

/-- Two chunks share a sequence number, a place among what was observed or an offset. -/
def Collide (a b : ChunkRow) : Prop :=
  a.sequence = b.sequence ∨ a.observedSequence = b.observedSequence ∨
    (a.direction = b.direction ∧ a.directionOffset = b.directionOffset)

/-- A document raises nothing, and its rows can stand together. -/
structure DocumentAdmitted (document : NormalizedDocument) : Prop where
  quiet : ∀ error, Step.raise error ∉ insertDocument readers envelope document
  fits : ∀ row ∈ Transaction.added (insertDocument readers envelope document), row.fits = true
  lines : (((Transaction.added (insertDocument readers envelope document)).filterMap asLine).map
    LineRow.sequence).Nodup

/-- What the tables ask of an envelope whose job is not stored. -/
structure Admitted : Prop where
  newKey : db.jobWithKey readers envelope.sourceKey = none
  known : db.knows readers envelope.deviceId = true
  session : db.hasSession (sessionKey readers envelope) = true ∨
    (Row.session (sessionRow readers envelope)).fits = true
  job : (Row.job (jobRow readers envelope)).fits = true
  paths : ∀ artifact ∈ envelope.artifacts, inText artifact.originalPath = true
  files : (envelope.artifacts.map fun artifact =>
    (artifact.role, readers.codec.sha256 artifact.originalPath.toUTF8.toList)).Nodup
  inRaw : ∀ chunk ∈ envelope.chunks, chunkInRaw readers envelope chunk = true
  statuses : ∀ chunk ∈ envelope.chunks, within 64 (textOr chunk.forwardStatus "UNKNOWN") = true
  free : ∀ stored, Row.chunk stored ∈ db.rows → stored.session = sessionKey readers envelope →
    ∀ row ∈ chunkRows readers envelope, ¬Collide stored row
  apart : (chunkRows readers envelope).Pairwise fun a b => ¬Collide a b
  parser : envelope.documents = [] ∨ (Row.parser (parserRow readers envelope)).fits = true ∨
    ∃ row ∈ db.rows, Row.clash readers row (.parser (parserRow readers envelope)) = true
  documents : ∀ document ∈ envelope.documents, DocumentAdmitted readers envelope document
  documentKeys : (envelope.documents.map fun document =>
    readers.collation document.externalId).Nodup

end

section
variable {readers : Readers} {db : Database} {envelope : NormalizedEnvelope}

/-! ## Clashes -/

theorem clash_of_table {a b : Row} (h : table a ≠ table b) : Row.clash readers a b = false := by
  cases a <;> cases b <;> first | rfl | exact absurd rfl h

theorem clash_chunk {a b : ChunkRow} (h : a.session = b.session) :
    Row.clash readers (.chunk a) (.chunk b) = false ↔ ¬Collide a b := by
  simp only [Row.clash, h, beq_self_eq_true, Bool.true_and, Bool.or_eq_false_iff,
    Bool.and_eq_false_iff, beq_eq_false_iff_ne, Collide]
  tauto

/-- Rows of a job clash with rows of the same job only, but for chunks. -/
theorem clash_owner {a b : Row} {key : JobKey} (hchunk : ∀ row, b ≠ .chunk row)
    (hb : owner b = some key) (ha : owner a ≠ some key) : Row.clash readers a b = false := by
  by_contra h
  rw [Bool.not_eq_false] at h
  cases b with
  | session row => cases hb
  | job row => cases hb
  | parser row => cases hb
  | chunk row => exact hchunk row rfl
  | version row => cases a <;> cases h
  | payment row => cases a <;> cases h
  | rawPayload row =>
    cases a with
    | rawPayload other =>
      simp only [Row.clash, Bool.and_eq_true, beq_iff_eq] at h
      exact ha ((congrArg some h.1.1).trans hb)
    | _ => cases h
  | document row =>
    cases a with
    | document other =>
      simp only [Row.clash, beq_iff_eq] at h
      exact ha ((congrArg (fun k : DocumentKey => some k.job) h).trans hb)
    | _ => cases h
  | line row =>
    cases a with
    | line other =>
      simp only [Row.clash, Bool.and_eq_true, beq_iff_eq] at h
      exact ha ((congrArg (fun k : DocumentKey => some k.job) h.1).trans hb)
    | _ => cases h
  | importItem row =>
    cases a with
    | importItem other =>
      simp only [Row.clash, Bool.and_eq_true, beq_iff_eq] at h
      exact ha ((congrArg some h.1).trans hb)
    | _ => cases h

theorem jobWithKey_eq_none {sourceKey : String} : db.jobWithKey readers sourceKey = none ↔
    ∀ row, Row.job row ∈ db.rows → sameText readers row.sourceKey sourceKey = false := by
  rw [Database.jobWithKey, List.findSome?_eq_none_iff]
  constructor
  · intro h row hrow
    simpa using h (.job row) hrow
  · intro h row hrow
    cases row with
    | job row => simp [h row hrow]
    | _ => rfl

theorem hasSession_eq_false {key : SessionKey} : db.hasSession key = false ↔
    ∀ row, Row.session row ∈ db.rows → row.key ≠ key := by
  rw [Database.hasSession, List.any_eq_false]
  constructor
  · intro h row hrow
    simpa using h (.session row) hrow
  · intro h row hrow
    cases row with
    | session row => simp [h row hrow]
    | _ => simp

/-! ## The rows of an import -/

/-- The session of an import, if it is new. -/
def sessionRows (readers : Readers) (db : Database) (envelope : NormalizedEnvelope) : List Row :=
  if db.hasSession (sessionKey readers envelope) then []
  else [.session (sessionRow readers envelope)]

def parserRows (readers : Readers) (db : Database) (envelope : NormalizedEnvelope) : List Row :=
  let parser := Row.parser (parserRow readers envelope)
  if envelope.documents = [] ∨ ∃ row ∈ db.rows, Row.clash readers row parser = true then []
  else [parser]

def rawPayloadRows (readers : Readers) (envelope : NormalizedEnvelope) : List Row :=
  envelope.artifacts.map fun artifact => .rawPayload (rawPayloadRow readers envelope artifact)

def documentRows (readers : Readers) (envelope : NormalizedEnvelope) : List Row :=
  envelope.documents.flatMap fun document =>
    Transaction.added (insertDocument readers envelope document)

def itemRows (readers : Readers) (envelope : NormalizedEnvelope) : List Row :=
  (artifactRoles envelope).map fun role => .importItem (importItemRow readers envelope role)

theorem added_flatMap {α ε ρ : Type} {f : α → List (Step ρ ε)} {values : List α} :
    Transaction.added (values.flatMap f) = values.flatMap fun value => Transaction.added (f value) := by
  induction values with
  | nil => rfl
  | cons value values ih => rw [List.flatMap_cons, added_append, ih, List.flatMap_cons]

theorem added_insertChunks
    (h : ∀ chunk ∈ envelope.chunks, chunkInRaw readers envelope chunk = true) :
    Transaction.added (insertChunks readers envelope) =
      (chunkRows readers envelope).map Row.chunk := by
  have hsteps : insertChunks readers envelope = envelope.chunks.zipIdx.map fun entry =>
      Step.add (Row.chunk (chunkRow readers envelope entry.1 entry.2)) := by
    refine List.map_congr_left fun entry hentry => ?_
    have hchunk := h entry.1 (List.fst_mem_of_mem_zipIdx hentry)
    simp [hchunk]
  rw [hsteps, added_map, chunkRows, List.map_map]
  rfl

theorem added_insertDocuments : Transaction.added (insertDocuments readers db envelope) =
    parserRows readers db envelope ++ documentRows readers envelope := by
  unfold insertDocuments parserRows documentRows
  by_cases hdocuments : envelope.documents = []
  · simp [hdocuments, Transaction.added]
  · rw [if_neg hdocuments]
    by_cases hparser : ∃ row ∈ db.rows,
        Row.clash readers row (.parser (parserRow readers envelope)) = true
    · simp only [hparser, if_true, or_true, List.nil_append, added_flatMap]
    · simp only [hparser, hdocuments, if_false, or_self, added_append, added_flatMap]
      rfl

theorem added_importSteps
    (hknown : db.knows readers envelope.deviceId = true)
    (hraw : ∀ chunk ∈ envelope.chunks, chunkInRaw readers envelope chunk = true) :
    Transaction.added (importSteps readers db envelope) =
      sessionRows readers db envelope ++ ([.job (jobRow readers envelope)] ++
        (rawPayloadRows readers envelope ++ ((chunkRows readers envelope).map Row.chunk ++
          (parserRows readers db envelope ++ (documentRows readers envelope ++
            itemRows readers envelope))))) := by
  have hsession : Transaction.added (if db.hasSession (sessionKey readers envelope) = true then []
      else [.add (.session (sessionRow readers envelope)), (.flush : Step Row String)]) =
      sessionRows readers db envelope := by
    unfold sessionRows
    split <;> rfl
  have hartifacts : Transaction.added (insertArtifacts readers envelope) =
      rawPayloadRows readers envelope := by
    rw [insertArtifacts, added_append, added_map, rawPayloadRows]
    exact List.append_nil _
  have hitems : Transaction.added (recordImport readers envelope) = itemRows readers envelope :=
    added_map _ _
  simp only [importSteps, insertEnvelope, added_append, hsession, hartifacts, hitems,
    added_insertChunks hraw, added_insertDocuments, hknown, if_true, List.append_assoc]
  rfl

/-! ## The rows of a document -/

/-- A row under a document, but for the document itself. -/
def Part (key : DocumentKey) (row : Row) : Prop :=
  (∃ version, row = .version version ∧ version.document = key) ∨
    (∃ line, row = .line line ∧ line.document = key) ∨
      ∃ payment, row = .payment payment ∧ payment.document = key

theorem versionRow_document {document : NormalizedDocument} {row : VersionRow}
    (h : versionRow readers envelope document = .ok row) :
    row.document = documentKey readers envelope document := by
  simp only [versionRow, Checks.bind_eq_ok, Checks.pure_eq_ok] at h
  obtain ⟨_, -, _, -, rfl⟩ := h
  rfl

theorem lineRow_document {key : DocumentKey} {value : Json} {position : Nat} {row : LineRow}
    (h : lineRow readers key value position = .ok row) : row.document = key := by
  simp only [lineRow, Checks.bind_eq_ok, Checks.pure_eq_ok] at h
  obtain ⟨_, -, _, -, _, -, rfl⟩ := h
  rfl

theorem paymentRow_document {key : DocumentKey} {value : Json} {row : PaymentRow}
    (h : paymentRow readers key value = .ok row) : row.document = key := by
  simp only [paymentRow, Checks.bind_eq_ok, Checks.pure_eq_ok] at h
  obtain ⟨_, -, rfl⟩ := h
  rfl

theorem addTo_eq_add {α : Type} {place : α → Row} {value : Except String α} {row : Row} :
    addTo place value = .add row ↔ ∃ a, value = .ok a ∧ row = place a := by
  cases value with
  | ok a => simp [addTo, eq_comm]
  | error name => simp [addTo]

theorem mem_added {ρ ε : Type} {row : ρ} {steps : List (Step ρ ε)} :
    row ∈ Transaction.added steps ↔ .add row ∈ steps := by
  rw [Transaction.added, List.mem_filterMap]
  constructor
  · rintro ⟨step, hstep, hrow⟩
    cases step with
    | add other =>
      cases hrow
      exact hstep
    | _ => cases hrow
  · exact fun h => ⟨_, h, rfl⟩

/-- The rows of a document: the document and its parts. -/
theorem added_insertDocument {document : NormalizedDocument} :
    ∃ parts, Transaction.added (insertDocument readers envelope document) =
        .document (documentRow readers envelope document) :: parts ∧
      ∀ row ∈ parts, Part (documentKey readers envelope document) row := by
  refine ⟨Transaction.added ([.flush, addTo .version (versionRow readers envelope document), .flush] ++
    insertSemanticLines readers (documentKey readers envelope document) document.semantic ++
    insertSemanticPayments readers (documentKey readers envelope document) document.semantic),
    rfl, fun row hrow => ?_⟩
  rw [mem_added] at hrow
  simp only [List.cons_append, List.nil_append, List.mem_cons, List.mem_append, reduceCtorEq,
    false_or] at hrow
  rcases hrow with hversion | hline | hpayment
  · obtain ⟨version, hrow, rfl⟩ := addTo_eq_add.mp hversion.symm
    exact .inl ⟨version, rfl, versionRow_document hrow⟩
  · unfold insertSemanticLines at hline
    split at hline
    · obtain ⟨⟨value, position⟩, -, hvalue⟩ := List.mem_filterMap.mp hline
      split at hvalue
      · obtain ⟨line, hrow, rfl⟩ := addTo_eq_add.mp (Option.some.inj hvalue)
        exact .inr (.inl ⟨line, rfl, lineRow_document hrow⟩)
      · cases hvalue
    · cases hline
  · unfold insertSemanticPayments at hpayment
    obtain ⟨value, -, hvalue⟩ := List.mem_filterMap.mp hpayment
    split at hvalue
    · split at hvalue
      · cases hvalue
      · obtain ⟨payment, hrow, rfl⟩ := addTo_eq_add.mp (Option.some.inj hvalue)
        exact .inr (.inr ⟨payment, rfl, paymentRow_document hrow⟩)
    · cases hvalue

theorem owner_part {key : DocumentKey} {row : Row} (h : Part key row) :
    owner row = some key.job ∧ 6 ≤ table row ∧ table row ≤ 8 := by
  rcases h with ⟨version, rfl, hkey⟩ | ⟨line, rfl, hkey⟩ | ⟨payment, rfl, hkey⟩ <;>
    exact ⟨congrArg (fun k : DocumentKey => some k.job) hkey, by simp [table], by simp [table]⟩

theorem parts_apart {key : DocumentKey} {parts : List Row} (h : ∀ row ∈ parts, Part key row) :
    (parts.Pairwise fun a b => Row.clash readers a b = false) ↔
      ((parts.filterMap asLine).map LineRow.sequence).Nodup := by
  induction parts with
  | nil => simp
  | cons row parts ih =>
    rw [List.forall_mem_cons] at h
    rw [List.pairwise_cons, ih h.2]
    rcases h.1 with ⟨version, rfl, -⟩ | ⟨line, rfl, hkey⟩ | ⟨payment, rfl, -⟩
    · have hfree : ∀ other ∈ parts, Row.clash readers (.version version) other = false :=
        fun other _ => by cases other <;> rfl
      exact and_iff_right hfree
    · have hline : (∀ other ∈ parts, Row.clash readers (.line line) other = false) ↔
          line.sequence ∉ (parts.filterMap asLine).map LineRow.sequence := by
        constructor
        · intro hfree hmem
          obtain ⟨other, hother, hsequence⟩ := List.mem_map.mp hmem
          obtain ⟨row, hrow, hasLine⟩ := List.mem_filterMap.mp hother
          have hfree := hfree row hrow
          rcases h.2 row hrow with ⟨_, rfl, -⟩ | ⟨found, rfl, hfound⟩ | ⟨_, rfl, -⟩
          · cases hasLine
          · cases hasLine
            simp [Row.clash, hkey, hfound, hsequence] at hfree
          · cases hasLine
        · intro hnot other hother
          cases other with
          | line other =>
            have hne : line.sequence ≠ other.sequence := fun heq => hnot
              (List.mem_map.mpr ⟨other, List.mem_filterMap.mpr ⟨_, hother, rfl⟩, heq.symm⟩)
            simp [Row.clash, hne]
          | _ => rfl
      rw [hline]
      exact List.nodup_cons.symm
    · have hfree : ∀ other ∈ parts, Row.clash readers (.payment payment) other = false :=
        fun other _ => by cases other <;> rfl
      exact and_iff_right hfree

theorem document_apart {document : NormalizedDocument} :
    ((Transaction.added (insertDocument readers envelope document)).Pairwise
      fun a b => Row.clash readers a b = false) ↔
      (((Transaction.added (insertDocument readers envelope document)).filterMap asLine).map
        LineRow.sequence).Nodup := by
  obtain ⟨parts, hrows, hparts⟩ := @added_insertDocument readers envelope document
  have hfree : ∀ row ∈ parts,
      Row.clash readers (.document (documentRow readers envelope document)) row = false :=
    fun row hrow => clash_of_table (Nat.ne_of_lt (owner_part (hparts row hrow)).2.1)
  rw [hrows, List.pairwise_cons, parts_apart hparts]
  exact and_iff_right hfree

/-- Rows of two documents clash if the documents do. -/
theorem documents_apart {first second : NormalizedDocument} :
    (∀ a ∈ Transaction.added (insertDocument readers envelope first),
      ∀ b ∈ Transaction.added (insertDocument readers envelope second),
        Row.clash readers a b = false) ↔
      readers.collation first.externalId ≠ readers.collation second.externalId := by
  obtain ⟨parts, hrows, hparts⟩ := @added_insertDocument readers envelope first
  obtain ⟨parts', hrows', hparts'⟩ := @added_insertDocument readers envelope second
  rw [hrows, hrows']
  constructor
  · intro h heq
    have hclash := h _ (List.mem_cons_self) _ (List.mem_cons_self)
    simp [Row.clash, documentRow, documentKey, heq] at hclash
  · intro hne
    have hkey : documentKey readers envelope first ≠ documentKey readers envelope second :=
      fun heq => hne (congrArg DocumentKey.sourceDocumentKey heq)
    intro a ha b hb
    rcases List.mem_cons.mp ha with rfl | ha <;> rcases List.mem_cons.mp hb with rfl | hb
    · simpa [Row.clash, documentRow] using hkey
    · exact clash_of_table (Nat.ne_of_lt (owner_part (hparts' b hb)).2.1)
    · exact clash_of_table (Nat.ne_of_gt (owner_part (hparts a ha)).2.1)
    · rcases hparts a ha with ⟨_, rfl, -⟩ | ⟨line, rfl, hline⟩ | ⟨_, rfl, -⟩
      · cases b <;> rfl
      · rcases hparts' b hb with ⟨_, rfl, -⟩ | ⟨line', rfl, hline'⟩ | ⟨_, rfl, -⟩
        · rfl
        · simp [Row.clash, hline, hline', hkey]
        · rfl
      · cases b <;> rfl

theorem documentRows_apart :
    ((documentRows readers envelope).Pairwise fun a b => Row.clash readers a b = false) ↔
      (∀ document ∈ envelope.documents,
        (((Transaction.added (insertDocument readers envelope document)).filterMap asLine).map
          LineRow.sequence).Nodup) ∧
      (envelope.documents.map fun document => readers.collation document.externalId).Nodup := by
  rw [documentRows, List.pairwise_flatMap]
  simp only [document_apart, documents_apart]
  rw [List.nodup_iff_pairwise_ne, List.pairwise_map]

theorem mem_documentRows {row : Row} (h : row ∈ documentRows readers envelope) :
    owner row = some (jobKey readers envelope) ∧ 5 ≤ table row ∧ table row ≤ 8 := by
  obtain ⟨document, -, hrow⟩ := List.mem_flatMap.mp h
  obtain ⟨parts, hrows, hparts⟩ := @added_insertDocument readers envelope document
  rw [hrows] at hrow
  rcases List.mem_cons.mp hrow with rfl | hrow
  · exact ⟨rfl, by simp [table], by simp [table]⟩
  · obtain ⟨howner, hlow, hhigh⟩ := owner_part (hparts row hrow)
    exact ⟨howner, by omega, hhigh⟩

/-! ## What is asked of them -/

theorem quiet_iff : (∀ error, Step.raise error ∉ importSteps readers db envelope) ↔
    db.knows readers envelope.deviceId = true ∧
      (∀ chunk ∈ envelope.chunks, chunkInRaw readers envelope chunk = true) ∧
        ∀ document ∈ envelope.documents, ∀ error,
          Step.raise error ∉ insertDocument readers envelope document := by
  have hchunks : (∀ error, Step.raise error ∉ insertChunks readers envelope) ↔
      ∀ chunk ∈ envelope.chunks, chunkInRaw readers envelope chunk = true := by
    constructor
    · intro h chunk hchunk
      obtain ⟨position, hposition⟩ := List.mem_iff_getElem?.mp hchunk
      by_contra hraw
      refine h "ValueError" (List.mem_map.mpr
        ⟨(chunk, position), List.mk_mem_zipIdx_iff_getElem?.mpr hposition, ?_⟩)
      simp [hraw]
    · intro h error herror
      obtain ⟨⟨chunk, position⟩, hentry, hstep⟩ := List.mem_map.mp herror
      simp [h chunk (List.fst_mem_of_mem_zipIdx hentry)] at hstep
  have hdocuments : (∀ error, Step.raise error ∉ insertDocuments readers db envelope) ↔
      ∀ document ∈ envelope.documents, ∀ error,
        Step.raise error ∉ insertDocument readers envelope document := by
    unfold insertDocuments
    by_cases hnone : envelope.documents = []
    · simp [hnone]
    · rw [if_neg hnone]
      have hparser : ∀ error, Step.raise error ∉
          (if ∃ row ∈ db.rows, Row.clash readers row (.parser (parserRow readers envelope)) = true
            then [] else [.add (.parser (parserRow readers envelope)),
              (.flush : Step Row String)]) := by
        intro error
        split <;> simp
      simp only [List.mem_append, List.mem_flatMap, not_or, not_exists, not_and, hparser,
        not_false_iff, true_and]
      exact ⟨fun h document hdocument error => h error document hdocument,
        fun h error document hdocument => h document hdocument error⟩
  have hsession : ∀ error, Step.raise error ∉
      (if db.hasSession (sessionKey readers envelope) then []
        else [.add (.session (sessionRow readers envelope)), (.flush : Step Row String)]) := by
    intro error
    split <;> simp
  have hartifacts : ∀ error, Step.raise error ∉ insertArtifacts readers envelope := by
    simp [insertArtifacts]
  have hitems : ∀ error, Step.raise error ∉ recordImport readers envelope := by
    simp [recordImport]
  rw [← hchunks, ← hdocuments]
  simp only [importSteps, insertEnvelope, List.mem_append, not_or, hsession, hartifacts, hitems,
    not_false_iff, and_true, List.mem_cons, reduceCtorEq, List.not_mem_nil, or_self]
  rw [forall_and, forall_and, and_assoc]
  refine and_congr_left' ?_
  cases db.knows readers envelope.deviceId <;> simp

theorem importItem_fits (hpaths : ∀ artifact ∈ envelope.artifacts, inText artifact.originalPath = true)
    (hmanifest : inText (manifestPath envelope) = true) (role : ArtifactRole) :
    (Row.importItem (importItemRow readers envelope role)).fits = true := by
  unfold importItemRow Row.fits
  dsimp only
  split
  · next artifact hfind => exact hpaths artifact (List.mem_reverse.mp (List.mem_of_find?_eq_some hfind))
  · exact hmanifest

/-- The rows fit; an import item has a path that another row has. -/
theorem fits_iff : (∀ row ∈ sessionRows readers db envelope ++ ([.job (jobRow readers envelope)] ++
      (rawPayloadRows readers envelope ++ ((chunkRows readers envelope).map Row.chunk ++
        (parserRows readers db envelope ++ (documentRows readers envelope ++
          itemRows readers envelope))))), row.fits = true) ↔
    (db.hasSession (sessionKey readers envelope) = true ∨
      (Row.session (sessionRow readers envelope)).fits = true) ∧
    (Row.job (jobRow readers envelope)).fits = true ∧
    (∀ artifact ∈ envelope.artifacts, inText artifact.originalPath = true) ∧
    (∀ chunk ∈ envelope.chunks, within 64 (textOr chunk.forwardStatus "UNKNOWN") = true) ∧
    (envelope.documents = [] ∨ (Row.parser (parserRow readers envelope)).fits = true ∨
      ∃ row ∈ db.rows, Row.clash readers row (.parser (parserRow readers envelope)) = true) ∧
    ∀ document ∈ envelope.documents,
      ∀ row ∈ Transaction.added (insertDocument readers envelope document), row.fits = true := by
  have hsession : (∀ row ∈ sessionRows readers db envelope, row.fits = true) ↔
      (db.hasSession (sessionKey readers envelope) = true ∨
        (Row.session (sessionRow readers envelope)).fits = true) := by
    unfold sessionRows
    cases db.hasSession (sessionKey readers envelope) <;> simp
  have hpaths : (∀ row ∈ rawPayloadRows readers envelope, row.fits = true) ↔
      ∀ artifact ∈ envelope.artifacts, inText artifact.originalPath = true :=
    List.forall_mem_map
  have hchunks : (∀ row ∈ (chunkRows readers envelope).map Row.chunk, row.fits = true) ↔
      ∀ chunk ∈ envelope.chunks, within 64 (textOr chunk.forwardStatus "UNKNOWN") = true := by
    rw [List.forall_mem_map, chunkRows, List.forall_mem_map]
    constructor
    · intro h chunk hchunk
      obtain ⟨position, hposition⟩ := List.mem_iff_getElem?.mp hchunk
      have hfits := h (chunk, position) (List.mk_mem_zipIdx_iff_getElem?.mpr hposition)
      exact hfits
    · exact fun h entry hentry => h entry.1 (List.fst_mem_of_mem_zipIdx hentry)
  have hparser : (∀ row ∈ parserRows readers db envelope, row.fits = true) ↔
      (envelope.documents = [] ∨ (Row.parser (parserRow readers envelope)).fits = true ∨
        ∃ row ∈ db.rows, Row.clash readers row (.parser (parserRow readers envelope)) = true) := by
    unfold parserRows
    dsimp only
    split
    · next h => exact iff_of_true (by simp) (h.imp_right .inr)
    · next h =>
      rw [not_or] at h
      simp [h.1, h.2]
  have hdocuments : (∀ row ∈ documentRows readers envelope, row.fits = true) ↔
      ∀ document ∈ envelope.documents,
        ∀ row ∈ Transaction.added (insertDocument readers envelope document), row.fits = true := by
    rw [documentRows, List.forall_mem_flatMap]
  simp only [List.forall_mem_append, List.forall_mem_singleton, hsession, hpaths, hchunks, hparser,
    hdocuments]
  constructor
  · rintro ⟨h1, h2, h3, h4, h5, h6, -⟩
    exact ⟨h1, h2, h3, h4, h5, h6⟩
  · rintro ⟨h1, h2, h3, h4, h5, h6⟩
    refine ⟨h1, h2, h3, h4, h5, h6, List.forall_mem_map.mpr fun role _ => importItem_fits h3 ?_ role⟩
    simp only [Row.fits, Bool.and_eq_true] at h2
    exact h2.1.1.2

theorem owner_rawPayloadRows {row : Row} (h : row ∈ rawPayloadRows readers envelope) :
    owner row = some (jobKey readers envelope) ∧ table row = 2 := by
  obtain ⟨artifact, -, rfl⟩ := List.mem_map.mp h
  exact ⟨rfl, rfl⟩

theorem owner_itemRows {row : Row} (h : row ∈ itemRows readers envelope) :
    owner row = some (jobKey readers envelope) ∧ table row = 9 := by
  obtain ⟨role, -, rfl⟩ := List.mem_map.mp h
  exact ⟨rfl, rfl⟩

theorem mem_chunkRows {row : ChunkRow} (h : row ∈ chunkRows readers envelope) :
    row.session = sessionKey readers envelope := by
  obtain ⟨entry, -, rfl⟩ := List.mem_map.mp h
  rfl

/-- What is stored clashes with the rows of a new job by its source key, its
parser, its session and its chunks alone. -/
theorem free_iff (howned : Owned db) (hnew : ¬JobStored db (jobKey readers envelope)) :
    (∀ other ∈ db.rows, ∀ row ∈ sessionRows readers db envelope ++
      ([.job (jobRow readers envelope)] ++ (rawPayloadRows readers envelope ++
        ((chunkRows readers envelope).map Row.chunk ++ (parserRows readers db envelope ++
          (documentRows readers envelope ++ itemRows readers envelope))))),
      Row.clash readers other row = false) ↔
    db.jobWithKey readers envelope.sourceKey = none ∧
      ∀ stored, Row.chunk stored ∈ db.rows → stored.session = sessionKey readers envelope →
        ∀ row ∈ chunkRows readers envelope, ¬Collide stored row := by
  have hstranger : ∀ other ∈ db.rows, owner other ≠ some (jobKey readers envelope) :=
    fun other hother heq => hnew (howned other hother _ heq)
  have hsession : ∀ other ∈ db.rows, ∀ row ∈ sessionRows readers db envelope,
      Row.clash readers other row = false := by
    intro other hother row hrow
    unfold sessionRows at hrow
    split at hrow
    · cases hrow
    · next hsession =>
      rw [List.mem_singleton.mp hrow]
      cases other with
      | session stored =>
        have hkey := hasSession_eq_false.mp (Bool.eq_false_iff.mpr hsession) stored hother
        simp [Row.clash, sessionRow, hkey]
      | _ => rfl
  have hparser : ∀ other ∈ db.rows, ∀ row ∈ parserRows readers db envelope,
      Row.clash readers other row = false := by
    intro other hother row hrow
    unfold parserRows at hrow
    dsimp only at hrow
    split at hrow
    · cases hrow
    · next hparser =>
      rw [List.mem_singleton.mp hrow, Bool.eq_false_iff]
      exact fun hclash => hparser (.inr ⟨other, hother, hclash⟩)
  have howners : ∀ other ∈ db.rows, ∀ row, (∀ chunk, row ≠ .chunk chunk) →
      owner row = some (jobKey readers envelope) → Row.clash readers other row = false :=
    fun other hother row hchunk hrow => clash_owner hchunk hrow (hstranger other hother)
  constructor
  · intro h
    refine ⟨jobWithKey_eq_none.mpr fun row hrow => ?_, fun stored hstored hsame row hrow => ?_⟩
    · have hclash := h _ hrow (.job (jobRow readers envelope)) (by simp)
      simp only [Row.clash, Bool.or_eq_false_iff] at hclash
      exact hclash.1
    · have hclash := h _ hstored (.chunk row) (by simp [hrow])
      exact (clash_chunk (hsame.trans (mem_chunkRows hrow).symm)).mp hclash
  · rintro ⟨hkey, hchunks⟩ other hother row hrow
    simp only [List.mem_append, List.mem_singleton] at hrow
    rcases hrow with hrow | rfl | hrow | hrow | hrow | hrow | hrow
    · exact hsession other hother row hrow
    · cases other with
      | job stored =>
        have hother' : stored.key ≠ jobKey readers envelope := fun heq => hnew ⟨stored, hother, heq⟩
        have hsource := jobWithKey_eq_none.mp hkey stored hother
        simp only [Row.clash, jobRow, hsource, Bool.false_or, beq_eq_false_iff_ne]
        exact hother'
      | _ => rfl
    · refine howners other hother row ?_ (owner_rawPayloadRows hrow).1
      rintro chunk rfl
      cases (owner_rawPayloadRows hrow).2
    · obtain ⟨chunk, hchunk, rfl⟩ := List.mem_map.mp hrow
      cases other with
      | chunk stored =>
        by_cases hsame : stored.session = sessionKey readers envelope
        · exact (clash_chunk (hsame.trans (mem_chunkRows hchunk).symm)).mpr
            (hchunks stored hother hsame chunk hchunk)
        · simp [Row.clash, mem_chunkRows hchunk, hsame]
      | _ => rfl
    · exact hparser other hother row hrow
    · refine howners other hother row ?_ (mem_documentRows hrow).1
      rintro chunk rfl
      have := (mem_documentRows hrow).2.1
      simp [table] at this
    · refine howners other hother row ?_ (owner_itemRows hrow).1
      rintro chunk rfl
      cases (owner_itemRows hrow).2

/-- Rows of different tables do not have to be compared. -/
theorem apart_append {first second : List Row}
    (h : ∀ a ∈ first, ∀ b ∈ second, table a < table b) :
    ((first ++ second).Pairwise fun a b => Row.clash readers a b = false) ↔
      (first.Pairwise fun a b => Row.clash readers a b = false) ∧
        second.Pairwise fun a b => Row.clash readers a b = false := by
  rw [List.pairwise_append]
  have hcross : ∀ a ∈ first, ∀ b ∈ second, Row.clash readers a b = false :=
    fun a ha b hb => clash_of_table (Nat.ne_of_lt (h a ha b hb))
  exact ⟨fun h => ⟨h.1, h.2.1⟩, fun h => ⟨h.1, h.2, hcross⟩⟩

theorem table_sessionRows {row : Row} (h : row ∈ sessionRows readers db envelope) :
    table row = 0 := by
  unfold sessionRows at h
  split at h
  · cases h
  · rw [List.mem_singleton.mp h]
    rfl

theorem table_parserRows {row : Row} (h : row ∈ parserRows readers db envelope) :
    table row = 4 := by
  unfold parserRows at h
  dsimp only at h
  split at h
  · cases h
  · rw [List.mem_singleton.mp h]
    rfl

theorem sessionRows_apart :
    (sessionRows readers db envelope).Pairwise fun a b => Row.clash readers a b = false := by
  unfold sessionRows
  split <;> simp

theorem parserRows_apart :
    (parserRows readers db envelope).Pairwise fun a b => Row.clash readers a b = false := by
  unfold parserRows
  dsimp only
  split <;> simp

theorem nodup_artifactRoles : (artifactRoles envelope).Nodup := by
  unfold artifactRoles
  split
  · simp
  · next heq => exact List.nodup_dedup _

theorem itemRows_apart :
    (itemRows readers envelope).Pairwise fun a b => Row.clash readers a b = false := by
  rw [itemRows, List.pairwise_map]
  refine nodup_artifactRoles.imp fun hne => ?_
  simp [Row.clash, importItemRow, hne]

theorem rawPayloadRows_apart :
    ((rawPayloadRows readers envelope).Pairwise fun a b => Row.clash readers a b = false) ↔
      (envelope.artifacts.map fun artifact =>
        (artifact.role, readers.codec.sha256 artifact.originalPath.toUTF8.toList)).Nodup := by
  rw [rawPayloadRows, List.pairwise_map, List.nodup_iff_pairwise_ne, List.pairwise_map]
  refine List.Pairwise.iff fun a b => ?_
  simp only [Row.clash, rawPayloadRow, beq_self_eq_true, Bool.true_and, ne_eq, Prod.mk.injEq,
    Bool.and_eq_false_iff, beq_eq_false_iff_ne]
  tauto

theorem chunkRows_apart :
    (((chunkRows readers envelope).map Row.chunk).Pairwise
      fun a b => Row.clash readers a b = false) ↔
      (chunkRows readers envelope).Pairwise fun a b => ¬Collide a b := by
  rw [List.pairwise_map]
  constructor <;> intro h
  · refine h.imp_of_mem fun ha hb hclash => ?_
    exact (clash_chunk ((mem_chunkRows ha).trans (mem_chunkRows hb).symm)).mp hclash
  · refine h.imp_of_mem fun ha hb hcollide => ?_
    exact (clash_chunk ((mem_chunkRows ha).trans (mem_chunkRows hb).symm)).mpr hcollide

/-- The rows of an import clash by their files, their chunks and their documents alone. -/
theorem apart_iff : ((sessionRows readers db envelope ++ ([Row.job (jobRow readers envelope)] ++
      (rawPayloadRows readers envelope ++ ((chunkRows readers envelope).map Row.chunk ++
        (parserRows readers db envelope ++ (documentRows readers envelope ++
          itemRows readers envelope)))))).Pairwise fun a b => Row.clash readers a b = false) ↔
    (envelope.artifacts.map fun artifact =>
      (artifact.role, readers.codec.sha256 artifact.originalPath.toUTF8.toList)).Nodup ∧
    ((chunkRows readers envelope).Pairwise fun a b => ¬Collide a b) ∧
    (∀ document ∈ envelope.documents,
      (((Transaction.added (insertDocument readers envelope document)).filterMap asLine).map
        LineRow.sequence).Nodup) ∧
    (envelope.documents.map fun document => readers.collation document.externalId).Nodup := by
  have hitems : ∀ b ∈ itemRows readers envelope, table b = 9 := fun b hb => (owner_itemRows hb).2
  have hdocuments : ∀ b ∈ documentRows readers envelope ++ itemRows readers envelope,
      5 ≤ table b := by
    intro b hb
    rcases List.mem_append.mp hb with hb | hb
    · exact (mem_documentRows hb).2.1
    · rw [hitems b hb]
      decide
  have hparsers : ∀ b ∈ parserRows readers db envelope ++ (documentRows readers envelope ++
      itemRows readers envelope), 4 ≤ table b := by
    intro b hb
    rcases List.mem_append.mp hb with hb | hb
    · exact (table_parserRows hb).ge
    · exact Nat.le_of_succ_le (hdocuments b hb)
  have hchunks : ∀ b ∈ (chunkRows readers envelope).map Row.chunk ++
      (parserRows readers db envelope ++ (documentRows readers envelope ++
        itemRows readers envelope)), 3 ≤ table b := by
    intro b hb
    rcases List.mem_append.mp hb with hb | hb
    · obtain ⟨chunk, -, rfl⟩ := List.mem_map.mp hb
      exact Nat.le_refl 3
    · exact Nat.le_of_succ_le (hparsers b hb)
  have hraws : ∀ b ∈ rawPayloadRows readers envelope ++ ((chunkRows readers envelope).map Row.chunk ++
      (parserRows readers db envelope ++ (documentRows readers envelope ++
        itemRows readers envelope))), 2 ≤ table b := by
    intro b hb
    rcases List.mem_append.mp hb with hb | hb
    · exact (owner_rawPayloadRows hb).2.ge
    · exact Nat.le_of_succ_le (hchunks b hb)
  rw [apart_append, apart_append, apart_append, apart_append, apart_append, apart_append,
    rawPayloadRows_apart, chunkRows_apart, documentRows_apart]
  · simp only [sessionRows_apart, parserRows_apart, itemRows_apart, List.pairwise_singleton,
      true_and, and_true]
  · exact fun a ha b hb => by
      rw [hitems b hb]
      exact Nat.lt_succ_of_le (mem_documentRows ha).2.2
  · exact fun a ha b hb => by
      rw [table_parserRows ha]
      exact hdocuments b hb
  · intro a ha b hb
    obtain ⟨chunk, -, rfl⟩ := List.mem_map.mp ha
    exact hparsers b hb
  · exact fun a ha b hb => by
      rw [(owner_rawPayloadRows ha).2]
      exact hchunks b hb
  · intro a ha b hb
    rw [List.mem_singleton.mp ha]
    exact hraws b hb
  · intro a ha b hb
    rw [table_sessionRows ha]
    rcases List.mem_append.mp hb with hb | hb
    · rw [List.mem_singleton.mp hb]
      exact Nat.one_pos
    · exact Nat.lt_of_lt_of_le Nat.two_pos (hraws b hb)

/-- An envelope of a job that is not stored is imported exactly if the tables admit it. -/
theorem storable_iff (howned : Owned db) (hnew : ¬JobStored db (jobKey readers envelope)) :
    Storable readers db envelope ↔ Admitted readers db envelope := by
  constructor
  · intro h
    obtain ⟨hknown, hraw, hquiet⟩ := quiet_iff.mp h.quiet
    have hfits := h.fits
    have hfree := h.free
    have hapart := h.apart
    rw [added_importSteps hknown hraw] at hfits hfree hapart
    obtain ⟨hsession, hjob, hpaths, hstatuses, hparser, hdocuments⟩ := fits_iff.mp hfits
    obtain ⟨hkey, hchunks⟩ := (free_iff howned hnew).mp hfree
    obtain ⟨hfiles, hchunksApart, hlines, hkeys⟩ := apart_iff.mp hapart
    exact {
      newKey := hkey, known := hknown, session := hsession, job := hjob, paths := hpaths
      files := hfiles, inRaw := hraw, statuses := hstatuses, free := hchunks
      apart := hchunksApart, parser := hparser, documentKeys := hkeys
      documents := fun document hdocument =>
        ⟨hquiet document hdocument, hdocuments document hdocument, hlines document hdocument⟩ }
  · intro h
    have hrows := @added_importSteps readers db envelope h.known h.inRaw
    refine ⟨h.newKey, quiet_iff.mpr ⟨h.known, h.inRaw, fun d hd => (h.documents d hd).quiet⟩, ?_, ?_, ?_⟩
    · rw [hrows]
      exact fits_iff.mpr ⟨h.session, h.job, h.paths, h.statuses, h.parser,
        fun d hd => (h.documents d hd).fits⟩
    · rw [hrows]
      exact (free_iff howned hnew).mpr ⟨h.newKey, h.free⟩
    · rw [hrows]
      exact apart_iff.mpr ⟨h.files, h.apart, fun d hd => (h.documents d hd).lines, h.documentKeys⟩

/-! ## What imports keep -/

theorem jobStored_of_subset {db' : Database} {key : JobKey} (h : JobStored db key)
    (hsub : db.rows ⊆ db'.rows) : JobStored db' key := by
  obtain ⟨row, hrow, hkey⟩ := h
  exact ⟨row, hsub hrow, hkey⟩

/-- The rows a storable envelope adds belong to its own job. -/
theorem owner_added (h : Storable readers db envelope) {row : Row}
    (hrow : row ∈ Transaction.added (importSteps readers db envelope)) {key : JobKey}
    (hkey : owner row = some key) : key = jobKey readers envelope := by
  obtain ⟨hknown, hraw, -⟩ := quiet_iff.mp h.quiet
  rw [added_importSteps hknown hraw] at hrow
  simp only [List.mem_append, List.mem_singleton] at hrow
  rcases hrow with hrow | rfl | hrow | hrow | hrow | hrow | hrow
  · unfold sessionRows at hrow
    split at hrow
    · cases hrow
    · rw [List.mem_singleton.mp hrow] at hkey
      cases hkey
  · cases hkey
  · exact Option.some.inj (hkey.symm.trans (owner_rawPayloadRows hrow).1)
  · obtain ⟨chunk, hchunk, rfl⟩ := List.mem_map.mp hrow
    obtain ⟨entry, -, rfl⟩ := List.mem_map.mp hchunk
    exact Option.some.inj hkey.symm
  · unfold parserRows at hrow
    dsimp only at hrow
    split at hrow
    · cases hrow
    · rw [List.mem_singleton.mp hrow] at hkey
      cases hkey
  · exact Option.some.inj (hkey.symm.trans (mem_documentRows hrow).1)
  · exact Option.some.inj (hkey.symm.trans (owner_itemRows hrow).1)

theorem job_added (h : Storable readers db envelope) :
    Row.job (jobRow readers envelope) ∈ Transaction.added (importSteps readers db envelope) := by
  obtain ⟨hknown, hraw, -⟩ := quiet_iff.mp h.quiet
  rw [added_importSteps hknown hraw]
  simp

/-- The chunks an import adds are those of its envelope. -/
theorem chunk_added (h : Storable readers db envelope) {row : ChunkRow} :
    Row.chunk row ∈ Transaction.added (importSteps readers db envelope) ↔
      row ∈ chunkRows readers envelope := by
  obtain ⟨hknown, hraw, -⟩ := quiet_iff.mp h.quiet
  rw [added_importSteps hknown hraw]
  simp only [List.mem_append, List.mem_singleton]
  constructor
  · rintro (hrow | hrow | hrow | hrow | hrow | hrow | hrow)
    · unfold sessionRows at hrow
      split at hrow <;> simp at hrow
    · cases hrow
    · cases (owner_rawPayloadRows hrow).2
    · obtain ⟨chunk, hchunk, heq⟩ := List.mem_map.mp hrow
      cases heq
      exact hchunk
    · unfold parserRows at hrow
      dsimp only at hrow
      split at hrow <;> simp at hrow
    · exact absurd (mem_documentRows hrow).2.1 (by simp [table])
    · cases (owner_itemRows hrow).2
  · exact fun hrow => .inr (.inr (.inr (.inl (List.mem_map_of_mem hrow))))

/-- The job an import adds is the one of its envelope. -/
theorem job_of_added (h : Storable readers db envelope) {row : JobRow}
    (hrow : Row.job row ∈ Transaction.added (importSteps readers db envelope)) :
    row = jobRow readers envelope := by
  obtain ⟨hknown, hraw, -⟩ := quiet_iff.mp h.quiet
  rw [added_importSteps hknown hraw] at hrow
  simp only [List.mem_append, List.mem_singleton, Row.job.injEq] at hrow
  rcases hrow with hrow | hrow | hrow | hrow | hrow | hrow | hrow
  · unfold sessionRows at hrow
    split at hrow <;> simp at hrow
  · exact hrow
  · cases (owner_rawPayloadRows hrow).1
  · obtain ⟨chunk, -, heq⟩ := List.mem_map.mp hrow
    cases heq
  · unfold parserRows at hrow
    dsimp only at hrow
    split at hrow <;> simp at hrow
  · cases (mem_documentRows hrow).1
  · cases (owner_itemRows hrow).1

theorem jobStored_storeImport (h : Storable readers db envelope) :
    JobStored (storeImport readers db envelope).2 (jobKey readers envelope) := by
  rw [storeImport_rows h]
  exact ⟨_, List.mem_append_right _ (job_added h), rfl⟩

/-- Every row an import writes has its job. -/
theorem Owned.storeImport (howned : Owned db) : Owned (storeImport readers db envelope).2 := by
  by_cases h : Storable readers db envelope
  · have hstored := jobStored_storeImport h
    rw [storeImport_rows h] at hstored ⊢
    intro row hrow key hkey
    rcases List.mem_append.mp hrow with hrow | hrow
    · exact jobStored_of_subset (howned row hrow key hkey) (List.subset_append_left _ _)
    · rw [owner_added h hrow hkey]
      exact hstored
  · rw [storeImport_unchanged h]
    exact howned

end

end RetailPrintGuard.Db.IngestRows
