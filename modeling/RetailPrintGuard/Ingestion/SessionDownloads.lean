import RetailPrintGuard.Db.SessionRaw
import RetailPrintGuard.Ingestion.Crashes
import RetailPrintGuard.Ingestion.Storable

/-! # Session downloads after imports

The chunks of a session come from one job, and each of them is a slice of the
raw payload of this job. -/
namespace RetailPrintGuard.Ingestion.SessionDownloads
open RetailPrintGuard.Library RetailPrintGuard.Library.Checks RetailPrintGuard.Library.Tiling
open RetailPrintGuard.Common.Formats RetailPrintGuard.Ingestion.Adapters
open RetailPrintGuard.Ingestion.Dto RetailPrintGuard.Ingestion.Storable
open RetailPrintGuard.Db.Semantic RetailPrintGuard.Db.IngestStore RetailPrintGuard.Db.IngestRows
open RetailPrintGuard.Db.SessionRaw
open RetailPrintGuard.Proxy.Spool (JobDirectory)

/-- The data events of a direction. -/
def dataEvents (direction : Direction) (chunks : List StreamChunk) : List StreamChunk :=
  chunks.filter fun chunk => chunk.direction = direction ∧ chunk.eventKind = "data"

/-- The chunks of an envelope are slices of its raw payloads, which those of a
complete one cover. -/
structure Traced (fmt : Codec) (envelope : NormalizedEnvelope) : Prop where
  sliced : ∀ chunk ∈ envelope.chunks, ∃ raw, directionRaw envelope chunk.direction = some raw ∧
    chunk.jobOffset + chunk.byteCount ≤ raw.length ∧
      fmt.sha256 (slice raw (chunk.jobOffset, chunk.byteCount)) = chunk.sha256
  covered : envelope.complete = true → ∀ direction raw,
    directionRaw envelope direction = some raw →
      Contiguous 0 (Tilings.pieces (dataEvents direction envelope.chunks)) raw.length

theorem sliced_of_sound {fmt : Codec} {envelope : NormalizedEnvelope}
    {streams : ByDirection Bytes} {chunk : StreamChunk}
    (hraw : ∀ direction, directionRaw envelope direction = some (streams.get direction))
    (h : Sound fmt streams chunk) : ∃ raw, directionRaw envelope chunk.direction = some raw ∧
      chunk.jobOffset + chunk.byteCount ≤ raw.length ∧
        fmt.sha256 (slice raw (chunk.jobOffset, chunk.byteCount)) = chunk.sha256 :=
  ⟨_, hraw _, h.1, h.2⟩

/-- Without the events that have no bytes, the others still follow one another. -/
theorem contiguous_filter {α : Type} {f : α → Nat × Nat} {p : α → Bool} {start stop : Nat}
    {l : List α} (hempty : ∀ a ∈ l, p a = false → (f a).2 = 0)
    (h : Contiguous start (l.map f) stop) : Contiguous start ((l.filter p).map f) stop := by
  induction l generalizing start with
  | nil => exact h
  | cons a l ih =>
    rw [List.forall_mem_cons] at hempty
    obtain ⟨hoffset, hrest⟩ := h
    have hrest := ih hempty.2 hrest
    cases hp : p a with
    | true =>
      rw [List.filter_cons_of_pos hp]
      exact ⟨hoffset, hrest⟩
    | false =>
      rw [List.filter_cons_of_neg (by simp [hp])]
      rwa [hempty.1 hp, Nat.add_zero] at hrest

theorem dataEvents_eq (direction : Direction) (envelope : NormalizedEnvelope) :
    dataEvents direction envelope.chunks =
      (envelope.stream direction).filter fun chunk => chunk.eventKind = "data" := by
  rw [dataEvents, NormalizedEnvelope.stream, List.filter_filter]
  refine List.filter_congr fun chunk _ => ?_
  rw [Bool.decide_and, Bool.and_comm]

/-- Tiled streams stay so without the events that carry no bytes. -/
theorem covered_of_tiles {envelope : NormalizedEnvelope} {direction : Direction} {raw : Bytes}
    (hempty : ∀ chunk ∈ envelope.chunks, chunk.eventKind ≠ "data" → chunk.byteCount = 0)
    (h : ∃ raw, envelope.content (rawRole direction) = some raw ∧
      Tiles raw (Tilings.pieces (envelope.stream direction)))
    (hraw : directionRaw envelope direction = some raw) :
    Contiguous 0 (Tilings.pieces (dataEvents direction envelope.chunks)) raw.length := by
  obtain ⟨found, hfound, htiles⟩ := h
  obtain rfl : found = raw := Option.some.inj (hfound.symm.trans hraw)
  rw [dataEvents_eq, Tilings.pieces]
  refine contiguous_filter (fun chunk hchunk hkind => ?_) htiles.contiguous
  exact hempty chunk (List.mem_of_mem_filter hchunk) (of_decide_eq_false hkind)

/-! ## Canonical captures -/

section
open RetailPrintGuard.Ingestion.Canonical

variable {fmt : Codec} {identity : Identity} {streams : ByDirection Bytes}

theorem canonical_empty {state state' : TimelineState} {lineNumber : Nat} {lines : List Bytes}
    (hempty : ∀ chunk ∈ state.events, chunk.eventKind ≠ "data" → chunk.byteCount = 0)
    (h : parseLines fmt identity streams state lineNumber lines = .ok state') :
    ∀ chunk ∈ state'.events, chunk.eventKind ≠ "data" → chunk.byteCount = 0 := by
  induction lines generalizing state lineNumber with
  | nil =>
    cases h
    exact hempty
  | cons line lines ih =>
    obtain ⟨next, hline, hrest⟩ := bind_eq_ok.mp h
    obtain ⟨eventHash, chunk, rfl, -, hchunk⟩ := Tilings.canonical_parseLine hline
    refine ih (fun other hother => ?_) hrest
    rcases List.mem_append.mp hother with hother | hother
    · exact hempty other hother
    · rw [List.mem_singleton.mp hother]
      exact hchunk

theorem canonical_traced {adapter : Adapter} {job : JobDirectory}
    {envelope : Canonical.NormalizedEnvelope} (h : load fmt adapter job = .ok envelope) :
    Traced fmt (canonicalEnvelope envelope) := by
  have htiles := @Tilings.canonical_load fmt adapter job envelope h
  simp only [load, bind_eq_ok, pure_eq_ok] at h
  obtain ⟨⟨jobId, manifestHash⟩, -, manifest, -, ⟨session, descriptor⟩, -, digests, -, facts, -,
    chunks, htimeline, -, -, rfl⟩ := h
  simp only [parseTimeline, bind_eq_ok, pure_eq_ok] at htimeline
  obtain ⟨-, -, -, -, state, hlines, _, -, rfl⟩ := htimeline
  constructor
  · intro chunk hchunk
    obtain ⟨event, hevent, rfl⟩ := List.mem_map.mp hchunk
    exact @sliced_of_sound _ _ job.raw _ (fun direction => by cases direction <;> rfl)
      ((canonical_lines observed_nil hlines).sound event hevent)
  · intro hcomplete direction raw hraw
    refine covered_of_tiles (fun chunk hchunk => ?_) (htiles hcomplete direction) hraw
    obtain ⟨event, hevent, rfl⟩ := List.mem_map.mp hchunk
    exact canonical_empty (fun _ hnone => absurd hnone List.not_mem_nil) hlines event hevent

end

/-! ## RCH captures -/

section
open RetailPrintGuard.Ingestion.Rch

variable {fmt : Codec} {streams : ByDirection Bytes} {complete : Bool}
  {sessionId connectionId : String}

theorem rch_data {state state' : TimelineState} {lineNumber : Nat} {lines : List Bytes}
    (hdata : ∀ chunk ∈ state.events, chunk.eventKind = "data")
    (h : parseLines fmt streams complete sessionId connectionId state lineNumber lines =
      .ok state') : ∀ chunk ∈ state'.events, chunk.eventKind = "data" := by
  induction lines generalizing state lineNumber with
  | nil =>
    cases h
    exact hdata
  | cons line lines ih =>
    obtain ⟨next, hline, hrest⟩ := bind_eq_ok.mp h
    simp only [parseLine, bind_eq_ok, pure_eq_ok] at hline
    obtain ⟨-, -, value, -, event, -, position, -, chunk, hchunk, rfl⟩ := hline
    refine ih (fun other hother => ?_) hrest
    rcases List.mem_append.mp hother with hother | hother
    · exact hdata other hother
    · rw [List.mem_singleton.mp hother]
      simp only [readChunk, bind_eq_ok, pure_eq_ok] at hchunk
      obtain ⟨_, -, _, -, _, -, _, -, _, -, _, -, _, -, _, -, _, -, _, -, rfl⟩ := hchunk
      rfl

theorem rch_traced {adapter : Adapter} {directory : SourceDirectory}
    {envelope : NormalizedEnvelope} (h : load fmt adapter directory = .ok envelope) :
    Traced fmt envelope := by
  have htiles := @Tilings.rch_load fmt adapter directory envelope h
  simp only [load, bind_eq_ok, pure_eq_ok] at h
  obtain ⟨binding, hbinding, _, -, _, -, _, -, _, -, _, -, _, -, _, -, rfl⟩ := h
  have hbinding := checked_eq_ok.mp hbinding
  simp only [captureBinding, bind_eq_ok, pure_eq_ok, raiseIf_eq_ok, if_true] at hbinding
  obtain ⟨-, -, ⟨ready, manifestHash⟩, -, ⟨manifestRaw, manifest⟩, -, facts, -, files, -, chunks,
    htimeline, rfl⟩ := hbinding
  simp only [parseTimeline, bind_eq_ok, pure_eq_ok, raiseIf_eq_ok] at htimeline
  obtain ⟨-, -, state, hlines, -, -, -, -, rfl⟩ := htimeline
  constructor
  · exact fun chunk hchunk => @sliced_of_sound _ _ files.streams _
      (fun direction => by cases direction <;> rfl) ((rch_lines ascending_nil hlines).sound chunk hchunk)
  · intro hcomplete direction raw hraw
    refine covered_of_tiles (fun chunk hchunk hkind => ?_) (htiles hcomplete direction) hraw
    exact absurd (rch_data (fun _ hnone => absurd hnone List.not_mem_nil) hlines chunk hchunk) hkind

end

/-! ## Parsed RCH jobs -/

section
open RetailPrintGuard.Ingestion.RchParsed
open RetailPrintGuard.Ingestion.Rch (checked_eq_ok refuseIf_eq_ok)

variable {fmt : Codec}

/-- None of the artifacts is a raw payload. -/
def NoRaw (artifacts : List ArtifactSnapshot) : Prop :=
  ∀ artifact ∈ artifacts, ∀ direction, artifact.role ≠ rawRole direction

theorem NoRaw.directionRaw {envelope : NormalizedEnvelope} (h : NoRaw envelope.artifacts)
    (direction : Direction) : directionRaw envelope direction = none := by
  rw [Db.IngestStore.directionRaw, NormalizedEnvelope.content, Option.map_eq_none_iff,
    List.find?_eq_none]
  exact fun artifact hartifact => by simpa using h artifact hartifact direction

theorem NoRaw.concat {artifacts : List ArtifactSnapshot} (h : NoRaw artifacts)
    {artifact : ArtifactSnapshot} (hrole : ∀ direction, artifact.role ≠ rawRole direction) :
    NoRaw (artifacts ++ [artifact]) := by
  intro other hother
  rcases List.mem_append.mp hother with hother | hother
  · exact h other hother
  · rw [List.mem_singleton.mp hother]
    exact hrole

theorem noRaw_readOutput {directory : ParsedDirectory} {maxOutputBytes : Nat}
    {label kind outputKey mediaType : String} {outputs : Json} {role : ArtifactRole}
    {state state' : DocumentsState} (hrole : ∀ direction, role ≠ rawRole direction)
    (hstate : NoRaw state.artifacts)
    (h : readOutput fmt directory maxOutputBytes label kind outputs outputKey role mediaType state =
      .ok state') : NoRaw state'.artifacts := by
  unfold readOutput at h
  dsimp only at h
  split at h
  · cases h
    exact hstate
  · simp only [bind_eq_ok, pure_eq_ok] at h
    obtain ⟨_, -, _, -, _, -, _, -, _, -, _, -, _, -, _, -, rfl⟩ := h
    exact hstate.concat hrole

theorem noRaw_addDocuments {directory : ParsedDirectory} {maxOutputBytes requestSize index : Nat}
    {state state' : DocumentsState} {documents : List Json} (hstate : NoRaw state.artifacts)
    (h : addDocuments fmt directory maxOutputBytes requestSize index state documents =
      .ok state') : NoRaw state'.artifacts := by
  induction documents generalizing index state with
  | nil =>
    cases h
    exact hstate
  | cons document rest ih =>
    obtain ⟨next, hnext, hrest⟩ := bind_eq_ok.mp h
    refine ih ?_ hrest
    simp only [addDocument, bind_eq_ok] at hnext
    obtain ⟨_, -, _, -, _, -, _, -, _, -, _, -, _, -, _, -, _, -, _, -, middle, htext, hpdf⟩ := hnext
    refine noRaw_readOutput ?_ (noRaw_readOutput ?_ ?_ htext) hpdf
    · exact fun direction => by cases direction <;> decide
    · exact fun direction => by cases direction <;> decide
    · exact hstate

theorem rchParsed_traced {adapter : ParsedAdapter} {directory : ParsedDirectory}
    {envelope : NormalizedEnvelope} (h : load fmt adapter directory = .ok envelope) :
    Traced fmt envelope := by
  simp only [load, bind_eq_ok, pure_eq_ok] at h
  obtain ⟨binding, -, marker, -, parsed, -, state, hstate, _, -, _, -, _, -, _, -, _, -, _,
    -, _, -, _, -, rfl⟩ := h
  constructor
  · exact fun chunk hchunk => absurd hchunk List.not_mem_nil
  · intro _ direction raw hraw
    have hdocuments : NoRaw state.artifacts := by
      refine noRaw_addDocuments (fun artifact hartifact direction => ?_) hstate
      rw [List.mem_singleton.mp hartifact]
      cases direction <;> simp [rawRole]
    refine absurd (hraw.symm.trans (NoRaw.directionRaw (hdocuments.concat ?_) direction)) (by simp)
    exact fun direction => by cases direction <;> simp [rawRole]

end

/-! ## Archived printproxy jobs -/

section
open RetailPrintGuard.Ingestion.PrintProxy
open RetailPrintGuard.Ingestion.Rch (SourceDirectory)

variable {fmt : Codec} {adapter : PrintProxy.Adapter} {route : SourceDirectory}

/-- The response of an archived job is a preview, not a raw payload. -/
theorem printProxy_responseRaw {ledger : Ledger} {job : Archived} {envelope : NormalizedEnvelope}
    (h : PrintProxy.load fmt adapter route ledger job = .ok envelope) :
    directionRaw envelope .deviceToClient = none := by
  simp only [PrintProxy.load, bind_eq_ok, pure_eq_ok] at h
  obtain ⟨raw, -, metadata, -, endpoints, -, records, hrecords, clean, hclean, pdf, hpdf,
    ⟨preview, warnings⟩, hpreview, facts, -, chunk, -, sessionId, -, _, -, rfl⟩ := h
  rw [directionRaw, NormalizedEnvelope.content, Option.map_eq_none_iff, List.find?_eq_none]
  intro artifact hartifact hrole
  have hmem := List.mem_map_of_mem (f := ArtifactSnapshot.role) hartifact
  rw [of_decide_eq_true hrole] at hmem
  simp only [List.map_append, List.mem_append, List.map_cons, List.map_nil, List.mem_cons,
    List.not_mem_nil, or_false] at hmem
  rcases hmem with (((hmem | hmem) | hmem) | hmem) | hmem
  · rcases hmem with hmem | hmem <;> cases hmem
  · exact absurd ((roles_ledgerArtifacts hrecords).subset hmem) (by decide)
  · exact absurd ((roles_readRendered hclean).subset hmem) (by decide)
  · exact absurd ((roles_readRendered hpdf).subset hmem) (by decide)
  · exact absurd ((roles_readPreview hpreview).subset hmem) (by decide)

theorem printProxy_traced {ledger : Ledger} {job : Archived} {envelope : NormalizedEnvelope}
    (h : PrintProxy.load fmt adapter route ledger job = .ok envelope) : Traced fmt envelope := by
  have hresponse := printProxy_responseRaw h
  simp only [PrintProxy.load, bind_eq_ok, pure_eq_ok] at h
  obtain ⟨raw, hraw, metadata, -, endpoints, -, records, -, clean, -, pdf, -, ⟨preview, warnings⟩, -,
    facts, -, chunk, hchunk, sessionId, -, _, -, rfl⟩ := h
  have hdigest := (printProxy_raw hraw).2
  simp only [aggregateChunk, bind_eq_ok, pure_eq_ok] at hchunk
  obtain ⟨forwardStatus, -, error, -, rfl⟩ := hchunk
  by_cases hnil : raw.content = []
  · constructor
    · intro found hfound
      rw [show _ = [] from if_pos hnil] at hfound
      cases hfound
    · intro _ direction payload hpayload
      cases direction with
      | clientToDevice =>
        obtain rfl : raw.content = payload := Option.some.inj hpayload
        simp [hnil, dataEvents, Tilings.pieces, Contiguous]
      | deviceToClient => cases hresponse.symm.trans hpayload
  · constructor
    · intro found hfound
      rw [show _ = [_] from if_neg hnil, List.mem_singleton] at hfound
      subst hfound
      refine ⟨raw.content, rfl, Nat.le_of_eq (Nat.zero_add _), ?_⟩
      rw [slice, List.drop_zero, List.take_length]
      exact hdigest
    · intro _ direction payload hpayload
      cases direction with
      | clientToDevice =>
        obtain rfl : raw.content = payload := Option.some.inj hpayload
        simp [hnil, dataEvents, Tilings.pieces, Contiguous]
      | deviceToClient => cases hresponse.symm.trans hpayload

end

theorem traced_of_loaded {fmt : Codec} {envelope : NormalizedEnvelope} (h : Loaded fmt envelope) :
    Traced fmt envelope := by
  cases h with
  | canonical valid h => exact canonical_traced h
  | rch valid h => exact rch_traced h
  | rchParsed valid h => exact rchParsed_traced h
  | printProxy found h =>
    unfold PrintProxy.jobCandidate at found
    split at found
    · cases found
    · next job hjob =>
      cases found
      exact printProxy_traced h
    · cases found
      cases h

/-! ## The rows of a job -/

section
variable {readers : Readers} {envelope : NormalizedEnvelope}

theorem mem_storedChunks {sequences : ByDirection Nat} {chunks : List StreamChunk}
    {row : StoredChunk} (h : row ∈ storedChunks envelope sequences chunks) :
    ∃ chunk ∈ chunks, ∃ sequence, row = storedChunk envelope chunk sequence := by
  induction chunks generalizing sequences with
  | nil => cases h
  | cons chunk rest ih =>
    rcases List.mem_cons.mp h with rfl | h
    · exact ⟨chunk, List.mem_cons_self, _, rfl⟩
    · obtain ⟨found, hfound, hrow⟩ := ih h
      exact ⟨found, List.mem_cons_of_mem _ hfound, hrow⟩

theorem pieces_storedChunks {sequences : ByDirection Nat} {chunks : List StreamChunk}
    (direction : Direction) :
    pieces (dataOf direction (storedChunks envelope sequences chunks)) =
      Tilings.pieces (dataEvents direction chunks) := by
  induction chunks generalizing sequences with
  | nil => rfl
  | cons chunk rest ih =>
    rw [storedChunks, dataOf, dataEvents]
    by_cases h : chunk.direction = direction ∧ chunk.eventKind = "data"
    · rw [List.filter_cons_of_pos (by exact decide_eq_true h),
        List.filter_cons_of_pos (by exact decide_eq_true h)]
      exact congrArg (List.cons (chunk.jobOffset, chunk.byteCount)) ih
    · rw [List.filter_cons_of_neg (by exact fun hdata => h (of_decide_eq_true hdata)),
        List.filter_cons_of_neg (by exact fun hdata => h (of_decide_eq_true hdata))]
      exact ih

theorem raw_storedJob (direction : Direction) :
    (storedJob readers envelope).raw direction = (directionRaw envelope direction).getD [] := by
  rw [StoredJob.raw, storedJob, directionRaw, NormalizedEnvelope.content, List.find?_map]
  have hrole : ((fun payload : StoredPayload => decide (payload.artifactRole = rawRole direction)) ∘
      fun artifact : ArtifactSnapshot => (⟨artifact.role, artifact.content⟩ : StoredPayload)) =
      fun artifact => decide (artifact.role = rawRole direction) := rfl
  rw [hrole]
  cases envelope.artifacts.find? fun artifact => decide (artifact.role = rawRole direction) <;> rfl

theorem intact_storedJob (h : Traced readers.codec envelope) {direction : Direction}
    {row : StoredChunk} (hrow : row ∈ dataOf direction (storedJob readers envelope).chunks) :
    Intact readers.codec ((storedJob readers envelope).raw direction) row := by
  obtain ⟨hrow, hdirection⟩ := List.mem_filter.mp hrow
  obtain ⟨chunk, hchunk, sequence, rfl⟩ := mem_storedChunks hrow
  obtain ⟨raw, hraw, hinside, hsha⟩ := h.sliced chunk hchunk
  have hdirection : chunk.direction = direction := (of_decide_eq_true hdirection).1
  have hpayload : chunkPayload (directionRaw envelope chunk.direction) chunk =
      slice raw (chunk.jobOffset, chunk.byteCount) := by rw [hraw]; rfl
  rw [raw_storedJob, ← hdirection, hraw]
  exact ⟨hinside, hpayload, (congrArg _ hpayload).trans hsha⟩

end

/-! ## Reached databases -/

/-- What imports of loaded envelopes reach. -/
inductive Reached (readers : Readers) : Evidence → Prop
  | start (devices : List String) : Reached readers { tables := { devices }, jobs := [] }
  | store {evidence : Evidence} {envelope : NormalizedEnvelope} (reached : Reached readers evidence)
      (loaded : Loaded readers.codec envelope) :
      Reached readers (Db.SessionRaw.storeImport readers evidence envelope).2

/-- A job is of a loaded envelope whose chunks are in the tables. -/
structure JobKept (readers : Readers) (db : Database) (job : StoredJob)
    (envelope : NormalizedEnvelope) : Prop where
  loaded : Loaded readers.codec envelope
  stored : job = storedJob readers envelope
  offsets : (envelope.chunks.map fun chunk => (chunk.direction, chunk.jobOffset)).Nodup
  rows : ∀ row ∈ chunkRows readers envelope, Row.chunk row ∈ db.rows

/-- Of two jobs of a session, one has no chunks. -/
structure Kept (readers : Readers) (evidence : Evidence) : Prop where
  tables : Invariant evidence.tables
  jobs : ∀ job ∈ evidence.jobs, ∃ envelope, JobKept readers evidence.tables job envelope
  alone : evidence.jobs.Pairwise fun a b => a.session = b.session → a.chunks = [] ∨ b.chunks = []

section
variable {readers : Readers} {evidence : Evidence} {envelope : NormalizedEnvelope}

theorem storeImport_storable (h : Storable readers evidence.tables envelope) :
    (Db.SessionRaw.storeImport readers evidence envelope).2 =
      { tables := (Db.IngestStore.storeImport readers evidence.tables envelope).2
        jobs := evidence.jobs ++ [storedJob readers envelope] } := by
  rw [Db.SessionRaw.storeImport, storeImport_rows h]

theorem storeImport_refused (h : ¬Storable readers evidence.tables envelope) :
    (Db.SessionRaw.storeImport readers evidence envelope).2 = evidence := by
  have houtcome := mt storeImport_imported.mp h
  have htables := storeImport_unchanged h
  unfold Db.SessionRaw.storeImport
  generalize Db.IngestStore.storeImport readers evidence.tables envelope = result at houtcome htables
  obtain ⟨outcome, tables⟩ := result
  obtain rfl : tables = evidence.tables := htables
  dsimp only
  split
  · exact absurd rfl houtcome
  · rfl

theorem offsets_of_storable (hchecked : Checked readers envelope)
    (h : Storable readers evidence.tables envelope) :
    (envelope.chunks.map fun chunk => (chunk.direction, chunk.jobOffset)).Nodup := by
  obtain ⟨hknown, hraw, -⟩ := quiet_iff.mp h.quiet
  have hapart := h.apart
  rw [added_importSteps hknown hraw] at hapart
  exact (apart_iff_offsets hchecked.numbered).mp (apart_iff.mp hapart).2.1

/-- A session that has chunks takes no others. -/
theorem unused_of_storable (hdb : Invariant evidence.tables) (hchecked : Checked readers envelope)
    (h : Storable readers evidence.tables envelope) : envelope.chunks = [] ∨
      ∀ stored, Row.chunk stored ∈ evidence.tables.rows →
        stored.session ≠ sessionKey readers envelope := by
  refine (free_iff_unused hdb hchecked).mp fun stored hstored hsession row hrow => ?_
  refine (@clash_chunk readers _ _ (hsession.trans (mem_chunkRows hrow).symm)).mp ?_
  exact h.free _ hstored _ ((chunk_added h).mpr hrow)

theorem JobKept.mono {db db' : Database} {job : StoredJob} (h : JobKept readers db job envelope)
    (hsub : db.rows ⊆ db'.rows) : JobKept readers db' job envelope :=
  { h with rows := fun row hrow => hsub (h.rows row hrow) }

theorem JobKept.chunks {db : Database} {job : StoredJob} (h : JobKept readers db job envelope)
    (hnone : ∀ stored, Row.chunk stored ∈ db.rows → stored.session ≠ job.session) :
    job.chunks = [] := by
  have hrows : chunkRows readers envelope = [] := by
    refine List.eq_nil_iff_forall_not_mem.mpr fun row hrow => ?_
    refine hnone row (h.rows row hrow) ((mem_chunkRows hrow).trans ?_)
    rw [h.stored]
    rfl
  have hnil : envelope.chunks = [] := by
    rw [chunkRows, List.map_eq_nil_iff] at hrows
    rw [← List.zipIdx_map_fst 0 envelope.chunks, hrows]
    rfl
  rw [h.stored, storedJob, hnil]
  rfl

theorem Kept.storeImport (h : Kept readers evidence) (hloaded : Loaded readers.codec envelope) :
    Kept readers (Db.SessionRaw.storeImport readers evidence envelope).2 := by
  by_cases hstorable : Storable readers evidence.tables envelope
  · have hchecked := hloaded.checked
    have htables := h.tables.storeImport hchecked
    rw [storeImport_storable hstorable]
    rw [storeImport_rows hstorable] at htables ⊢
    refine ⟨htables, fun job hjob => ?_, ?_⟩
    · rcases List.mem_append.mp hjob with hjob | hjob
      · obtain ⟨found, hfound⟩ := h.jobs job hjob
        exact ⟨found, hfound.mono (List.subset_append_left _ _)⟩
      · rw [List.mem_singleton.mp hjob]
        refine ⟨envelope, hloaded, rfl, offsets_of_storable hchecked hstorable, fun row hrow => ?_⟩
        exact List.mem_append_right _ ((chunk_added hstorable).mpr hrow)
    · refine List.pairwise_append.mpr ⟨h.alone, List.pairwise_singleton _ _, ?_⟩
      intro job hjob added hadded hsession
      rw [List.mem_singleton.mp hadded] at hsession ⊢
      rcases unused_of_storable h.tables hchecked hstorable with hnil | hunused
      · right
        rw [storedJob, hnil]
        rfl
      · left
        obtain ⟨found, hfound⟩ := h.jobs job hjob
        exact hfound.chunks fun stored hstored => hsession ▸ hunused stored hstored
  · rw [storeImport_refused hstorable]
    exact h

theorem Reached.kept (h : Reached readers evidence) : Kept readers evidence := by
  induction h with
  | start devices =>
    exact ⟨(@Storable.Reached.start readers devices).invariant, by simp, List.Pairwise.nil⟩
  | store _ loaded ih => exact ih.storeImport loaded

end

/-! ## The chunks of a session -/

/-- Where all but one of the parts are empty, they join to this one. -/
theorem flatMap_of_alone {α β : Type} {f : α → List β} {l : List α}
    (h : l.Pairwise fun a b => f a = [] ∨ f b = []) :
    l.flatMap f = [] ∨ ∃ a ∈ l, l.flatMap f = f a := by
  induction l with
  | nil => exact .inl rfl
  | cons a l ih =>
    rw [List.pairwise_cons] at h
    rw [List.flatMap_cons]
    by_cases ha : f a = []
    · rw [ha, List.nil_append]
      rcases ih h.2 with hnil | ⟨b, hb, heq⟩
      · exact .inl hnil
      · exact .inr ⟨b, List.mem_cons_of_mem _ hb, heq⟩
    · have hrest : l.flatMap f = [] := List.flatMap_eq_nil_iff.mpr fun b hb =>
        (h.1 b hb).resolve_left ha
      exact .inr ⟨a, List.mem_cons_self, by rw [hrest, List.append_nil]⟩

/-- A part as long as the whole is the whole. -/
theorem flatMap_eq_of_length {α β : Type} {f : α → List β} {l : List α} {a : α} (ha : a ∈ l)
    (h : (l.flatMap f).length = (f a).length) : l.flatMap f = f a := by
  obtain ⟨before, behind, rfl⟩ := List.append_of_mem ha
  rw [List.flatMap_append, List.flatMap_cons] at h ⊢
  simp only [List.length_append] at h
  rw [List.length_eq_zero_iff.mp (show (before.flatMap f).length = 0 by omega),
    List.length_eq_zero_iff.mp (show (behind.flatMap f).length = 0 by omega), List.nil_append,
    List.append_nil]

section
variable {readers : Readers} {evidence : Evidence} {envelope : NormalizedEnvelope}
  {session : SessionKey} {direction : Direction}

/-- The chunks of a session are of one of its jobs, and intact. -/
theorem Kept.source (h : Kept readers evidence) (session : SessionKey) (direction : Direction) :
    evidence.chunks session direction = [] ∨ ∃ job ∈ evidence.sessionJobs session,
      ∀ chunk ∈ evidence.chunks session direction,
        Intact readers.codec (job.raw direction) chunk := by
  have halone : (evidence.sessionJobs session).Pairwise fun a b => a.chunks = [] ∨ b.chunks = [] := by
    refine (h.alone.filter _).imp_of_mem fun ha hb hab => hab ?_
    have ha := of_decide_eq_true (List.mem_filter.mp ha).2
    exact ha.trans (of_decide_eq_true (List.mem_filter.mp hb).2).symm
  rcases flatMap_of_alone halone with hnil | ⟨job, hjob, heq⟩
  · left
    rw [Evidence.chunks, hnil]
    exact List.mergeSort_nil
  · right
    refine ⟨job, hjob, fun chunk hchunk => ?_⟩
    rw [Evidence.chunks, heq, List.mem_mergeSort] at hchunk
    obtain ⟨envelope, hkept⟩ := h.jobs job (List.mem_of_mem_filter hjob)
    have hstored := hkept.stored
    subst hstored
    exact intact_storedJob (traced_of_loaded hkept.loaded) hchunk

/-- Pieces that follow one another are in order. -/
theorem pairwise_of_contiguous {start stop : Nat} {chunks : List StoredChunk}
    (h : Contiguous start (pieces chunks) stop) :
    (∀ chunk ∈ chunks, start ≤ chunk.directionOffset) ∧
      chunks.Pairwise fun a b => a.directionOffset ≤ b.directionOffset := by
  induction chunks generalizing start with
  | nil => exact ⟨fun _ hnone => absurd hnone List.not_mem_nil, .nil⟩
  | cons chunk rest ih =>
    obtain ⟨hoffset, hrest⟩ := h
    obtain ⟨hstart, hpairwise⟩ := ih hrest
    have hbehind : ∀ other ∈ rest, chunk.directionOffset ≤ other.directionOffset := by
      intro other hother
      have hother := hstart other hother
      omega
    refine ⟨List.forall_mem_cons.mpr ⟨hoffset.ge, fun other hother => ?_⟩,
      List.pairwise_cons.mpr ⟨hbehind, hpairwise⟩⟩
    exact hoffset ▸ hbehind other hother

/-- The order of the query is the one in which the chunks of a complete job came. -/
theorem JobKept.sorted {db : Database} {job : StoredJob} (h : JobKept readers db job envelope)
    {stop : Nat} (hcovered : Contiguous 0 (pieces (dataOf direction job.chunks)) stop) :
    (dataOf direction job.chunks).mergeSort StoredChunk.before = dataOf direction job.chunks := by
  have hstored := h.stored
  subst hstored
  have hoffsets : ((dataOf direction (storedJob readers envelope).chunks).map
      StoredChunk.directionOffset).Nodup := by
    have hpieces := congrArg (List.map Prod.fst)
      (@pieces_storedChunks envelope (.const 0) envelope.chunks direction)
    rw [pieces, Tilings.pieces, List.map_map, List.map_map] at hpieces
    have hsub := h.offsets.sublist ((List.filter_sublist (l := envelope.chunks)
      (p := fun chunk => decide (chunk.direction = direction ∧ chunk.eventKind = "data"))).map
        fun chunk => (chunk.direction, chunk.jobOffset))
    refine hpieces ▸ List.Nodup.of_map (fun offset => (direction, offset)) ?_
    rw [List.map_map]
    refine (List.map_congr_left fun chunk hchunk => ?_) ▸ hsub
    exact Prod.ext (of_decide_eq_true (List.mem_filter.mp hchunk).2).1 rfl
  refine List.mergeSort_of_pairwise ?_
  have hne := List.pairwise_map.mp (List.nodup_iff_pairwise_ne.mp hoffsets)
  refine ((pairwise_of_contiguous hcovered).2.and hne).imp fun hlt => ?_
  rw [StoredChunk.before, decide_eq_true (lt_of_le_of_ne hlt.1 hlt.2), Bool.true_or]

/-! ## Downloads -/

/-- A download is nothing or the raw payloads of all jobs, and of a complete capture
that has bytes it is all of them. -/
structure NeverShort (fmt : Codec) (evidence : Evidence) (session : SessionKey)
    (direction : String) (stored : Direction) (jobs : List StoredJob) : Prop where
  answers : ∃ result, getSessionRaw fmt evidence session direction = .ok result
  whole : ∀ artifact, getSessionRaw fmt evidence session direction = .ok (some artifact) →
    artifact.payload = jobs.flatMap (StoredJob.raw stored)
  complete : ∀ job, jobs = [job] → job.captureComplete = true → job.raw stored ≠ [] →
    ∃ artifact, getSessionRaw fmt evidence session direction = .ok (some artifact) ∧
      artifact.payload = job.raw stored

/-- Chunks that follow one another from the beginning reach the end of all the raw
payloads. -/
def ReachesEnd (evidence : Evidence) (session : SessionKey) (direction : Direction) : Prop :=
  ∀ stop, evidence.chunks session direction ≠ [] →
    Contiguous 0 (pieces (evidence.chunks session direction)) stop →
      stop = ((evidence.sessionJobs session).flatMap (StoredJob.raw direction)).length

/-- The chunks of the only job of a session, if it is complete. -/
theorem Kept.complete (h : Kept readers evidence) {job : StoredJob}
    (hjob : evidence.sessionJobs session = [job]) (hcomplete : job.captureComplete = true)
    (hraw : job.raw direction ≠ []) :
    evidence.chunks session direction ≠ [] ∧
      Contiguous 0 (pieces (evidence.chunks session direction)) (job.raw direction).length ∧
        ∀ chunk ∈ evidence.chunks session direction,
          Intact readers.codec (job.raw direction) chunk := by
  have hmem : job ∈ evidence.sessionJobs session := by rw [hjob]; exact List.mem_singleton_self _
  obtain ⟨envelope, hkept⟩ := h.jobs job (List.mem_of_mem_filter hmem)
  have hstored := hkept.stored
  subst hstored
  have hcovered : Contiguous 0 (pieces (dataOf direction (storedJob readers envelope).chunks))
      ((storedJob readers envelope).raw direction).length := by
    rw [raw_storedJob] at hraw ⊢
    cases hfound : directionRaw envelope direction with
    | none =>
      rw [hfound] at hraw
      exact absurd rfl hraw
    | some raw =>
      have htraced := (traced_of_loaded hkept.loaded).covered hcomplete direction raw hfound
      rwa [← @pieces_storedChunks envelope (.const 0)] at htraced
  have hchunks : evidence.chunks session direction =
      dataOf direction (storedJob readers envelope).chunks := by
    rw [Evidence.chunks, hjob, List.flatMap_singleton, hkept.sorted hcovered]
  rw [hchunks]
  refine ⟨fun hnil => ?_, hcovered, fun chunk => intact_storedJob (traced_of_loaded hkept.loaded)⟩
  rw [hnil] at hcovered
  exact hraw (List.length_eq_zero_iff.mp (show 0 = _ from hcovered).symm)

section
variable {jobs : List StoredJob} {name : String}

theorem Kept.source_perm (h : Kept readers evidence)
    (hjobs : jobs.Perm (evidence.sessionJobs session)) :
    evidence.chunks session direction = [] ∨ ∃ job ∈ jobs,
      ∀ chunk ∈ evidence.chunks session direction,
        Intact readers.codec (job.raw direction) chunk :=
  (h.source session direction).imp_right fun ⟨job, hjob, hintact⟩ =>
    ⟨job, hjobs.mem_iff.mpr hjob, hintact⟩

theorem length_raws (hjobs : jobs.Perm (evidence.sessionJobs session)) :
    (jobs.flatMap (StoredJob.raw direction)).length =
      ((evidence.sessionJobs session).flatMap (StoredJob.raw direction)).length :=
  (hjobs.flatMap_right _).length_eq

theorem NeverShort.reachesEnd (h : NeverShort readers.codec evidence session name direction jobs)
    (hkept : Kept readers evidence) (hsession : evidence.tables.hasSession session = true)
    (hjobs : jobs.Perm (evidence.sessionJobs session)) (hname : rawDirection name = .ok direction) :
    ReachesEnd evidence session direction := by
  intro stop hne hstop
  obtain ⟨job, hjob, hintact⟩ := (hkept.source_perm hjobs).resolve_left hne
  obtain ⟨result, hresult, hartifact⟩ := getSessionRaw_intact hname hsession hintact
  have hsome := (hartifact _).mpr ⟨hne, stop, hstop, rfl⟩
  have hwhole := h.whole _ (hresult.trans (congrArg Except.ok hsome))
  have hinside := Contiguous.stop_le hintact (Nat.zero_le _) hstop
  rw [← length_raws hjobs, ← hwhole, List.length_take, Nat.min_eq_left hinside]

theorem ReachesEnd.neverShort (h : ReachesEnd evidence session direction)
    (hkept : Kept readers evidence) (hsession : evidence.tables.hasSession session = true)
    (hjobs : jobs.Perm (evidence.sessionJobs session)) (hname : rawDirection name = .ok direction) :
    NeverShort readers.codec evidence session name direction jobs := by
  obtain ⟨raw, hintact, hraw⟩ : ∃ raw, (∀ chunk ∈ evidence.chunks session direction,
      Intact readers.codec raw chunk) ∧ (evidence.chunks session direction ≠ [] →
        ∃ job ∈ jobs, job.raw direction = raw) := by
    rcases hkept.source_perm hjobs with hnil | ⟨job, hjob, hintact⟩
    · refine ⟨[], fun chunk hchunk => ?_, fun hne => absurd hnil hne⟩
      rw [hnil] at hchunk
      cases hchunk
    · exact ⟨_, hintact, fun _ => ⟨job, hjob, rfl⟩⟩
  obtain ⟨result, hresult, hartifact⟩ := getSessionRaw_intact hname hsession hintact
  refine ⟨⟨result, hresult⟩, fun artifact hget => ?_, fun job hjob hcomplete hne => ?_⟩
  · have hsome := Except.ok.inj (hresult.symm.trans hget)
    obtain ⟨hne, stop, hstop, rfl⟩ := (hartifact artifact).mp hsome
    obtain ⟨job, hjob, rfl⟩ := hraw hne
    have hend := h stop hne hstop
    have hinside := Contiguous.stop_le hintact (Nat.zero_le _) hstop
    have hpart : (job.raw direction).length ≤ (jobs.flatMap (StoredJob.raw direction)).length :=
      List.Sublist.length_le (List.sublist_flatten_of_mem (List.mem_map_of_mem hjob))
    rw [← length_raws hjobs] at hend
    rw [flatMap_eq_of_length hjob (by omega)]
    exact List.take_of_length_le (by omega)
  · have hsingle : evidence.sessionJobs session = [job] :=
      List.perm_singleton.mp (hjob ▸ hjobs.symm)
    obtain ⟨hchunks, hcovered, hown⟩ := hkept.complete hsingle hcomplete hne
    obtain ⟨result', hresult', hartifact'⟩ := getSessionRaw_intact hname hsession hown
    have hsome := (hartifact' _).mpr ⟨hchunks, _, hcovered, rfl⟩
    exact ⟨_, hresult'.trans (congrArg Except.ok hsome), List.take_length⟩

/-- A download is never short exactly if the chunks that can be joined reach the end. -/
theorem session_download_iff (hreached : Reached readers evidence)
    (hsession : evidence.tables.hasSession session = true)
    (hjobs : jobs.Perm (evidence.sessionJobs session)) (hname : rawDirection name = .ok direction) :
    NeverShort readers.codec evidence session name direction jobs ↔
      ReachesEnd evidence session direction :=
  ⟨fun h => h.reachesEnd hreached.kept hsession hjobs hname,
    fun h => h.neverShort hreached.kept hsession hjobs hname⟩

end

end

/-! ## A capture that is cut off -/

section
open RetailPrintGuard.Common.Runtime (runtime)
open RetailPrintGuard.Ingestion.Canonical RetailPrintGuard.Ingestion.Timeline
open RetailPrintGuard.Ingestion.Reading RetailPrintGuard.Ingestion.RoundTrip
open RetailPrintGuard.Ingestion.Recovered RetailPrintGuard.Ingestion.Crashes
open RetailPrintGuard.Proxy.Spool RetailPrintGuard.Proxy.SpoolRuns RetailPrintGuard.Proxy.Crash
open RetailPrintGuard.Proxy.Recovery RetailPrintGuard.Proxy.Documents

def cutEvents : List CaptureEvent :=
  [sampleEvent 0 0 0 .clientToDevice "data" [0x1b, 0x40]]

noncomputable def cutSpool : SessionSpool :=
  cutEvents.foldl (written runtime) { descriptor := sampleDescriptor }

/-- A byte of the next event is on disk, and its line is not. -/
noncomputable def cutDirectory : SpoolDirectory :=
  onDisk (cutSpool.writeRaw .clientToDevice [0x41])

theorem cut_recorded : Recorded runtime cutEvents where
  recordable event h := by
    rw [List.mem_singleton.mp h]
    exact sample_recordable 0 0 0 _ (fun _ => by decide) (by decide)
  observed := by decide
  count := by decide

theorem cut_accepted :
    appendAll runtime { descriptor := sampleDescriptor } cutEvents = some cutSpool :=
  (appendAll_cons _).mpr ⟨⟨rfl, rfl, rfl, rfl, Or.inl rfl, fun h => absurd h (by decide)⟩, rfl⟩

theorem cut_raw (direction : Direction) :
    cutSpool.raw.get direction = payloads cutEvents direction := by
  rw [appendAll_raw _ cut_accepted]
  cases direction <;> rfl

theorem cut_rawFit (direction : Direction) : (cutSpool.raw.get direction).length ≤ maxInt := by
  rw [cut_raw]
  cases direction <;> decide

theorem cut_present : presentRaw cutDirectory = ⟨[0x1b, 0x40, 0x41], []⟩ := by
  have hclient := cut_raw .clientToDevice
  have hdevice := cut_raw .deviceToClient
  show (⟨cutSpool.raw.clientToDevice ++ [0x41], cutSpool.raw.deviceToClient⟩ :
    ByDirection Bytes) = _
  rw [show cutSpool.raw.clientToDevice = [0x1b, 0x40] from hclient,
    show cutSpool.raw.deviceToClient = [] from hdevice]
  rfl

theorem cut_interrupted : Interrupted cutSpool cutDirectory where
  deviceId := rfl
  session := rfl
  manifest := rfl
  ready := rfl
  untrusted := rfl
  raw direction := by
    rw [cut_raw, cut_present]
    cases direction
    · exact ⟨[0x41], rfl⟩
    · exact ⟨[], rfl⟩
  timeline := rfl

theorem cut_timeline : cutSpool.timeline.length ≤ maxTimelineLineBytes + 1 := by
  have h := length_timeline_le (consistent_fresh sampleDescriptor) cut_accepted
    cut_recorded.recordable (by rw [nextSequence_eq cut_accepted]; decide)
    sample_registered.shortNames shortHash_none cut_rawFit
  exact h.trans (by simp [cutEvents])

theorem cut_limits {inspection : Inspection} (h : Inspected cutSpool inspection) :
    WithinLimits sampleAdapter
      (recoveredJob runtime sampleClock sampleDescriptor cutDirectory inspection) where
  manifest := by
    have hfit := spoolFit cut_accepted cut_recorded.count cut_rawFit
    have hbytes : CountsFit (presentBytes cutDirectory) := by
      intro direction
      rw [get_presentBytes, cut_present]
      cases direction <;> decide
    have hevents : inspection.events ≤ maxInt := by
      rw [h.events, nextSequence_eq cut_accepted]
      decide
    have hlast : ShortHash inspection.lastEvent := by
      rw [h.lastEvent]
      exact shortHash_appendAll cut_accepted shortHash_none
    have htimeline : (cutDirectory.timeline.getD []).length ≤ maxInt :=
      cut_timeline.trans (by decide)
    have hdescriptor : (descriptorDocument sampleDescriptor).weight ≤ 4000 := by decide +kernel
    have hsize := @length_recoveredManifest_le runtime sampleDescriptor cutDirectory inspection
      sampleClock (sampleTimestamp_valid (by decide)) hbytes (h.dataChunks ▸ hfit.capturedChunks)
      (h.coveredBytes ▸ hfit.capturedBytes) (h.eofEvents ▸ hfit.eofEvents) hevents hlast htimeline
      (sample_sessionBytes.trans (by decide))
    exact hsize.trans ((Nat.add_le_add_left hdescriptor _).trans (by decide))
  session := sample_sessionBytes.trans (by decide)
  timeline := cut_timeline.trans (by decide)
  raw := by
    show (presentRaw cutDirectory).clientToDevice.length +
      (presentRaw cutDirectory).deviceToClient.length ≤ _
    rw [cut_present]
    decide
  rawInt direction := by
    show ((presentRaw cutDirectory).get direction).length ≤ _
    rw [cut_present]
    cases direction <;> decide

def shopWithSpool : Database := { devices := ["cassa1"] }

def emptyEvidence : Evidence := { tables := shopWithSpool, jobs := [] }

/-- The recovered job is loaded with one chunk, of two of its three bytes. -/
theorem cut_loaded : ∃ envelope, Loaded runtime envelope ∧
    Admissible plainReaders shopWithSpool envelope ∧ envelope.deviceId = "cassa1" ∧
    directionRaw envelope .clientToDevice = some [0x1b, 0x40, 0x41] ∧
    Tilings.pieces (dataEvents .clientToDevice envelope.chunks) = [(0, 2)] := by
  obtain ⟨inspection, -, hinspected⟩ := inspectTimeline_spool cut_accepted cut_recorded
  have hload := load_interrupted sample_registered cut_recorded cut_accepted cut_interrupted
    hinspected (sampleTimestamp_valid (by decide) : IsTimestamp runtime sampleClock.closed)
    (by decide +kernel) (cut_limits hinspected)
  have hfits := @canonical_fits plainReaders _ _ _ hload
  have hpaths : ∀ name ∈ ["client.raw", "device.raw", "timeline.jsonl", "session.json",
      "manifest.json", ".ready"], inText (artifactPath
        (recoveredJob runtime sampleClock sampleDescriptor cutDirectory inspection) name) = true := by
    show ∀ name ∈ _, inText ("cassa1/" ++ directoryName sampleDescriptor ++ "/" ++ name) = true
    decide +kernel
  refine ⟨_, .canonical (by decide) hload, ?_, rfl, ?_, rfl⟩
  · exact {
      newKey := rfl
      status := hfits.1
      boundary := by
        show optionalWithin 64 (some "connection_lifecycle") = true
        decide +kernel
      forwarding := hfits.2.1
      manifest := hpaths "manifest.json" (by decide)
      paths := by
        intro artifact hartifact
        change artifact ∈ List.map canonicalArtifact [_, _, _, _, _, _] at hartifact
        simp only [List.map_cons, List.map_nil, List.mem_cons, List.not_mem_nil,
          or_false] at hartifact
        rcases hartifact with rfl | rfl | rfl | rfl | rfl | rfl <;> exact hpaths _ (by decide)
      files := by
        have hroles := hfits.2.2
        exact List.Nodup.of_map Prod.fst (by rw [List.map_map]; exact hroles)
      session := .inr fun stored hstored => absurd hstored List.not_mem_nil
      offsets := List.nodup_singleton _
      documents := fun document hdocument => absurd hdocument List.not_mem_nil
      documentKeys := List.nodup_nil }
  · show some (presentRaw cutDirectory).clientToDevice = _
    rw [cut_present]

/-- What the import of the recovered job leaves. -/
theorem cut_stored : ∃ evidence job, Reached plainReaders evidence ∧
    evidence.tables.hasSession job.session = true ∧ evidence.sessionJobs job.session = [job] ∧
    job.raw .clientToDevice = [0x1b, 0x40, 0x41] ∧
    pieces (evidence.chunks job.session .clientToDevice) = [(0, 2)] := by
  obtain ⟨envelope, hloaded, hadmissible, hdevice, hraw, hpieces⟩ := cut_loaded
  have hknown : emptyEvidence.tables.knows plainReaders envelope.deviceId = true := by
    rw [hdevice]
    decide +kernel
  have hnew : ¬JobStored shopWithSpool (jobKey plainReaders envelope) :=
    fun ⟨_, hrow, _⟩ => absurd hrow List.not_mem_nil
  have hstorable : Storable plainReaders emptyEvidence.tables envelope :=
    (storable_iff_admissible (@Storable.Reached.start plainReaders ["cassa1"]).invariant
      hloaded.checked hknown hnew).mpr hadmissible
  have hreached : Reached plainReaders (Db.SessionRaw.storeImport plainReaders emptyEvidence
      envelope).2 := .store (.start ["cassa1"]) hloaded
  have hjob := @storeImport_storable plainReaders emptyEvidence envelope hstorable
  have hkept := hreached.kept
  have hsessionJobs : (Db.SessionRaw.storeImport plainReaders emptyEvidence
      envelope).2.sessionJobs (storedJob plainReaders envelope).session =
        [storedJob plainReaders envelope] := by
    rw [hjob, Evidence.sessionJobs]
    simp [emptyEvidence]
  refine ⟨_, storedJob plainReaders envelope, hreached, ?_, hsessionJobs, ?_, ?_⟩
  · rw [hjob, storeImport_rows hstorable]
    by_contra hnone
    rw [Bool.not_eq_true, hasSession_eq_false] at hnone
    refine hnone (sessionRow plainReaders envelope) (List.mem_append_right _ ?_) rfl
    rw [added_importSteps hknown hloaded.checked.inRaw]
    exact List.mem_append_left _ (List.mem_singleton_self _)
  · rw [raw_storedJob, hraw]
    rfl
  · have hcovered : Contiguous 0
        (pieces (dataOf .clientToDevice (storedJob plainReaders envelope).chunks)) 2 := by
      rw [storedJob, pieces_storedChunks, hpieces]
      exact ⟨rfl, rfl⟩
    have hmem : storedJob plainReaders envelope ∈ (Db.SessionRaw.storeImport plainReaders
        emptyEvidence envelope).2.jobs := by
      rw [hjob]
      exact List.mem_singleton_self _
    obtain ⟨found, hfound⟩ := hkept.jobs _ hmem
    rw [Evidence.chunks, hsessionJobs, List.flatMap_singleton, hfound.sorted hcovered, storedJob,
      pieces_storedChunks, hpieces]

/-- The criterion on the recovered job. -/
theorem session_download_cut : ∃ evidence job, (Reached plainReaders evidence ∧
      evidence.tables.hasSession job.session = true ∧
      [job].Perm (evidence.sessionJobs job.session) ∧
      rawDirection "request" = .ok .clientToDevice) ∧
    (NeverShort plainReaders.codec evidence job.session "request" .clientToDevice [job] ↔
      ReachesEnd evidence job.session .clientToDevice) := by
  obtain ⟨evidence, job, hreached, hsession, hjobs, -⟩ := cut_stored
  exact ⟨evidence, job, ⟨hreached, hsession, .of_eq hjobs.symm, rfl⟩,
    session_download_iff hreached hsession (.of_eq hjobs.symm) rfl⟩

/-- Its download has two of its three bytes. -/
theorem cut_download_is_short : ¬∀ (readers : Readers) (evidence : Evidence) (session : SessionKey)
    (name : String) (direction : Direction) (jobs : List StoredJob), Reached readers evidence →
      evidence.tables.hasSession session = true → jobs.Perm (evidence.sessionJobs session) →
        rawDirection name = .ok direction →
          NeverShort readers.codec evidence session name direction jobs := by
  intro h
  obtain ⟨evidence, job, hreached, hsession, hjobs, hraw, hpieces⟩ := cut_stored
  have hshort := h plainReaders evidence job.session "request" .clientToDevice [job] hreached
    hsession (.of_eq hjobs.symm) rfl
  have hend := hshort.reachesEnd hreached.kept hsession (.of_eq hjobs.symm) rfl 2
    (fun hnil => by rw [hnil] at hpieces; cases hpieces) (by rw [hpieces]; exact ⟨rfl, rfl⟩)
  rw [hjobs, List.flatMap_singleton, hraw] at hend
  exact absurd hend (by decide)

end

end RetailPrintGuard.Ingestion.SessionDownloads
