import RetailPrintGuard.Ingestion.SessionDownloads
import RetailPrintGuard.Library.Runs
import RetailPrintGuard.Proxy.RelayRuns

/-! # From the socket to the download

A relay writes a capture, the canonical adapter loads it, an import stores it
and an auditor downloads it. Each of them keeps its own promise; here they are
put together. -/
namespace RetailPrintGuard.Ingestion.RelayedDownloads
open RetailPrintGuard.Library RetailPrintGuard.Library.Checks RetailPrintGuard.Library.Tiling
open RetailPrintGuard.Common.Formats RetailPrintGuard.Ingestion.Adapters
open RetailPrintGuard.Ingestion.Dto RetailPrintGuard.Ingestion.Storable
open RetailPrintGuard.Ingestion.SessionDownloads
open RetailPrintGuard.Ingestion.PrintProxy (isSourceInstanceId)
open RetailPrintGuard.Db.Semantic RetailPrintGuard.Db.IngestStore RetailPrintGuard.Db.IngestRows
open RetailPrintGuard.Db.SessionRaw
open RetailPrintGuard.Proxy.Spool RetailPrintGuard.Proxy.SpoolRuns RetailPrintGuard.Proxy.Documents
open RetailPrintGuard.Proxy.Relay
open RetailPrintGuard.Proxy.RelayRuns (Moved invariant_of_reachable)

variable {readers : Readers} {evidence : Evidence} {envelope : NormalizedEnvelope}

/-! ## What the relay vouches for -/

section
variable {fmt : Codec} {queueMaxEvents : Nat} {descriptor : SessionDescriptor} {s : State}
  {adapter : Canonical.Adapter} {capture : Canonical.NormalizedEnvelope}

/-- A capture that is accepted as complete was closed so by its writer. -/
theorem complete_of_loaded {spool : SessionSpool} {closing : Closing}
    (h : Canonical.load fmt adapter (finalize fmt spool closing) = .ok capture)
    (hcomplete : capture.complete = true) : spool.complete closing = true := by
  simp only [Canonical.load, bind_eq_ok, pure_eq_ok] at h
  obtain ⟨⟨jobId, manifestHash⟩, -, manifest, hmanifest, ⟨session, facts⟩, -, digests, -, facts,
    hfacts, chunks, -, -, -, rfl⟩ := h
  have hread : manifest = (spool.manifest fmt closing).sortKeys := by
    simp only [Canonical.readManifest, bind_eq_ok, pure_eq_ok] at hmanifest
    obtain ⟨found, hfound, -, -, -, -, -, -, -, -, rfl⟩ := hmanifest
    have hsize : (finalize fmt spool closing).manifest.length ≤ Canonical.maxManifestBytes := by
      simp only [Canonical.readJsonObject, Canonical.readRegularFile, bind_eq_ok, raiseIf_eq_ok,
        pure_eq_ok] at hfound
      obtain ⟨_, ⟨-, hsize, -⟩, -⟩ := hfound
      exact Nat.not_lt.mp hsize
    exact Except.ok.inj (hfound.symm.trans
      (Reading.readJsonObject_line rfl manifest_readable ⟨_, rfl⟩ hsize))
  have hstatus : facts.status = spool.status closing := by
    simp only [Canonical.readFacts, bind_eq_ok, pure_eq_ok] at hfacts
    obtain ⟨status, hstatus, -, -, -, -, -, -, -, -, -, -, -, -, -, -, -, -, -, -, -, -, -, -, rfl⟩ :=
      hfacts
    have hfield := (requireString_eq_ok.mp hstatus).1
    rw [hread, field, Json.get?_sortKeys manifest_distinct] at hfield
    simp [SessionSpool.manifest, Json.get?, List.lookup_cons, Json.sortKeys] at hfield
    exact hfield.symm
  have hfound : facts.status = "COMPLETE" := by
    have hall : facts.complete = true := hcomplete
    simp only [Canonical.CaptureFacts.complete, Bool.and_eq_true, beq_iff_eq] at hall
    exact hall.1.1
  by_contra hfalse
  rw [hstatus, SessionSpool.status, if_neg hfalse] at hfound
  exact absurd hfound (by decide)

/-- The raw files of a capture that is accepted as complete hold what the relay
read, and the other side took it. -/
theorem relayed_of_loaded (hrelay : Reachable fmt queueMaxEvents descriptor s) {job : JobDirectory}
    (hjob : s.published = some job) (hload : Canonical.load fmt adapter job = .ok capture)
    (hcomplete : capture.complete = true) (direction : Direction) :
    job.raw.get direction = (s.sides.get direction).received.flatten ∧
      (s.sides.get direction).delivered = (s.sides.get direction).received := by
  have hs := invariant_of_reachable hrelay
  obtain ⟨spool, closing, rfl, hvouched, hraw⟩ := hs.published job hjob
  have hclosed := complete_of_loaded hload hcomplete
  simp only [SessionSpool.complete, Bool.and_eq_true, SessionSpool.byteComplete, beq_iff_eq,
    SessionSpool.allErrors, List.isEmpty_iff, List.append_eq_nil_iff] at hclosed
  obtain ⟨⟨⟨⟨htransport, hbytes⟩, -⟩, ⟨hspool, -⟩, -⟩, -⟩ := hclosed
  obtain ⟨hsettled, hobserved⟩ := hvouched htransport
  obtain ⟨hconsistent, hinitial⟩ := hraw hspool
  have hmoved := hs.moved direction
  rw [Moved, show (s.sides.get direction).pump = .returned from hsettled direction] at hmoved
  refine ⟨(hinitial direction).eq_of_length ?_, hmoved.1⟩
  rw [← hs.counted direction, ← hobserved, hbytes]
  exact hconsistent.capturedBytes direction

/-- The artifacts of a loaded capture are its raw files. -/
theorem directionRaw_of_loaded {job : JobDirectory}
    (h : Canonical.load fmt adapter job = .ok capture) (direction : Direction) :
    directionRaw (canonicalEnvelope capture) direction = some (job.raw.get direction) := by
  simp only [Canonical.load, bind_eq_ok, pure_eq_ok] at h
  obtain ⟨⟨jobId, manifestHash⟩, -, manifest, -, ⟨session, facts⟩, -, digests, -, facts, -, chunks, -,
    -, -, rfl⟩ := h
  cases direction <;> rfl

end

/-! ## What the imports keep -/

/-- The database after further imports. -/
def importAll (readers : Readers) (evidence : Evidence) (later : List NormalizedEnvelope) :
    Evidence :=
  later.foldl (fun evidence envelope => (Db.SessionRaw.storeImport readers evidence envelope).2)
    evidence

theorem storeImport_outcome : (Db.SessionRaw.storeImport readers evidence envelope).1 =
    (Db.IngestStore.storeImport readers evidence.tables envelope).1 := by
  unfold Db.SessionRaw.storeImport
  dsimp only
  split <;> rfl

/-- No import takes a row or a job away. -/
structure Grows (before after : Evidence) : Prop where
  rows : before.tables.rows ⊆ after.tables.rows
  jobs : before.jobs ⊆ after.jobs

theorem Grows.refl (evidence : Evidence) : Grows evidence evidence :=
  ⟨List.Subset.refl _, List.Subset.refl _⟩

theorem Grows.trans {a b c : Evidence} (h : Grows a b) (k : Grows b c) : Grows a c :=
  ⟨List.Subset.trans h.rows k.rows, List.Subset.trans h.jobs k.jobs⟩

theorem grows_storeImport (envelope : NormalizedEnvelope) :
    Grows evidence (Db.SessionRaw.storeImport readers evidence envelope).2 := by
  by_cases hstorable : Storable readers evidence.tables envelope
  · rw [storeImport_storable hstorable, storeImport_rows hstorable]
    exact ⟨List.subset_append_left _ _, List.subset_append_left _ _⟩
  · rw [storeImport_refused hstorable]
    exact Grows.refl evidence

theorem grows_importAll (later : List NormalizedEnvelope) :
    Grows evidence (importAll readers evidence later) :=
  Runs.invariant (Grows evidence) (fun _ envelope h => h.trans (grows_storeImport envelope))
    (Grows.refl evidence) later

theorem reached_importAll (h : SessionDownloads.Reached readers evidence) {later : List NormalizedEnvelope}
    (hlater : ∀ envelope ∈ later, Loaded readers.codec envelope) :
    SessionDownloads.Reached readers (importAll readers evidence later) :=
  Runs.invariant_of_mem (SessionDownloads.Reached readers) (fun _ hmem _ h => h.store (hlater _ hmem)) h

theorem hasSession_mono {before after : Evidence} (h : Grows before after) {session : SessionKey}
    (hsession : before.tables.hasSession session = true) :
    after.tables.hasSession session = true := by
  rw [← Bool.not_eq_false, hasSession_eq_false] at hsession ⊢
  exact fun hnone => hsession fun row hrow => hnone row (h.rows hrow)

/-- An imported job is there with its session. -/
theorem stored_of_storable (h : Storable readers evidence.tables envelope) :
    storedJob readers envelope ∈
        (Db.SessionRaw.storeImport readers evidence envelope).2.jobs ∧
      (Db.SessionRaw.storeImport readers evidence envelope).2.tables.hasSession
        (sessionKey readers envelope) = true := by
  rw [storeImport_storable h]
  refine ⟨List.mem_append_right _ (List.mem_singleton_self _), ?_⟩
  rw [storeImport_rows h]
  by_contra hnone
  rw [Bool.not_eq_true, hasSession_eq_false] at hnone
  have hold : evidence.tables.hasSession (sessionKey readers envelope) = false :=
    hasSession_eq_false.mpr fun row hrow => hnone row (List.mem_append_left _ hrow)
  refine hnone (sessionRow readers envelope) (List.mem_append_right _ ?_) rfl
  obtain ⟨hknown, hraw, -⟩ := quiet_iff.mp h.quiet
  rw [added_importSteps hknown hraw, sessionRows, hold]
  exact List.mem_append_left _ (List.mem_singleton_self _)

/-! ## What the parser reads -/

/-- `RawPayload`, as far as the parser reads it. -/
structure RawPayload where
  artifactRole : ArtifactRole
  payload : Bytes
  sha256 : String
  sourcePath : String

/-- `_insert_artifacts`, in the order of the chain -/
def rawPayloads (envelope : NormalizedEnvelope) : List RawPayload :=
  envelope.artifacts.map fun artifact =>
    ⟨artifact.role, artifact.content, artifact.sha256, artifact.originalPath⟩

/-- `{payload.artifact_role: payload for payload in payloads}` keeps the last of a role. -/
def byRole (payloads : List RawPayload) (role : ArtifactRole) : Option RawPayload :=
  payloads.reverse.find? fun payload => payload.artifactRole = role

/-- What `load_job` returns of the payloads. -/
structure JobPayloads where
  requestPath : String
  responsePath : Option String
  request : Bytes
  response : Bytes

/-- The payloads of `load_job` -/
def loadJob (fmt : Codec) (payloads : List RawPayload) : Except String JobPayloads := do
  match byRole payloads .requestRaw with
  | none => throw "parser job has no authoritative request RAW"
  | some request =>
    raiseIf (fmt.sha256 request.payload ≠ request.sha256)
      "request RAW hash differs from imported evidence"
    let response := byRole payloads .responseRaw
    raiseIf (∃ payload ∈ response, fmt.sha256 payload.payload ≠ payload.sha256)
      "response RAW hash differs from imported evidence"
    return {
      requestPath := request.sourcePath
      responsePath := response.map RawPayload.sourcePath
      request := request.payload
      response := (response.map RawPayload.payload).getD [] }

section
variable {fmt : Codec} {adapter : Canonical.Adapter} {capture : Canonical.NormalizedEnvelope}

theorem digest_of_fileSnapshot {path name digest : String} {files : Json} {content : Bytes}
    {limit : Nat} (h : Canonical.fileSnapshot fmt path name files content limit = .ok digest) :
    fmt.sha256 content = digest := by
  simp only [Canonical.fileSnapshot, Canonical.readRegularFile, bind_eq_ok, raiseIf_eq_ok,
    pure_eq_ok] at h
  obtain ⟨_, -, _, -, _, -, stated, -, read, ⟨-, -, rfl⟩, _, -, _, hdigest, rfl⟩ := h
  exact not_not.mp hdigest

theorem byRole_canonical {job : JobDirectory} {manifestHash : String} {manifest : Json}
    {descriptor : Canonical.SessionFacts} {digests : Canonical.FileDigests}
    {facts : Canonical.CaptureFacts} {chunks : List Canonical.StreamChunk} :
    byRole (rawPayloads (canonicalEnvelope (Canonical.envelope fmt adapter job manifestHash manifest
        descriptor digests facts chunks))) .requestRaw =
      some ⟨.requestRaw, job.raw.clientToDevice, digests.client,
        Canonical.artifactPath job "client.raw"⟩ ∧
    byRole (rawPayloads (canonicalEnvelope (Canonical.envelope fmt adapter job manifestHash manifest
        descriptor digests facts chunks))) .responseRaw =
      some ⟨.responseRaw, job.raw.deviceToClient, digests.device,
        Canonical.artifactPath job "device.raw"⟩ :=
  ⟨rfl, rfl⟩

/-- The parser is handed the raw files of a capture, whose digests it finds right. -/
theorem loadJob_of_loaded {job : JobDirectory} (h : Canonical.load fmt adapter job = .ok capture) :
    ∃ payloads, loadJob fmt (rawPayloads (canonicalEnvelope capture)) = .ok payloads ∧
      payloads.request = job.raw.clientToDevice ∧ payloads.response = job.raw.deviceToClient := by
  simp only [Canonical.load, bind_eq_ok, pure_eq_ok] at h
  obtain ⟨⟨jobId, manifestHash⟩, -, manifest, -, ⟨session, facts⟩, -, digests, hdigests, facts, -,
    chunks, -, -, -, rfl⟩ := h
  simp only [Canonical.readFiles, bind_eq_ok, pure_eq_ok] at hdigests
  obtain ⟨_, -, client, hclient, device, hdevice, _, -, _, -, _, -, _, -, _, -, hdigests⟩ := hdigests
  have hrequest : fmt.sha256 job.raw.clientToDevice = digests.client :=
    (digest_of_fileSnapshot hclient).trans (congrArg Canonical.FileDigests.client hdigests)
  have hresponse : fmt.sha256 job.raw.deviceToClient = digests.device :=
    (digest_of_fileSnapshot hdevice).trans (congrArg Canonical.FileDigests.device hdigests)
  refine ⟨⟨Canonical.artifactPath job "client.raw", some (Canonical.artifactPath job "device.raw"),
    job.raw.clientToDevice, job.raw.deviceToClient⟩, ?_, rfl, rfl⟩
  rw [loadJob, byRole_canonical.1, byRole_canonical.2]
  simp [raiseIf, hrequest, hresponse, bind, Except.bind, pure, Except.pure]

end

/-! ## From end to end -/

/-- Where all but one of the parts are empty, the one that is not is the whole. -/
theorem flatMap_eq_of_alone {α β : Type} {f : α → List β} {l : List α}
    (h : l.Pairwise fun a b => f a = [] ∨ f b = []) {a : α} (ha : a ∈ l) (hne : f a ≠ []) :
    l.flatMap f = f a := by
  obtain ⟨before, behind, rfl⟩ := List.append_of_mem ha
  obtain ⟨-, hbehind, hbefore⟩ := List.pairwise_append.mp h
  have hnone : before.flatMap f = [] := List.flatMap_eq_nil_iff.mpr fun b hb =>
    (hbefore b hb a List.mem_cons_self).resolve_right hne
  have hrest : behind.flatMap f = [] := List.flatMap_eq_nil_iff.mpr fun b hb =>
    ((List.pairwise_cons.mp hbehind).1 b hb).resolve_left hne
  rw [List.flatMap_append, List.flatMap_cons, hnone, hrest, List.nil_append, List.append_nil]

/-- A complete job with bytes is the download, whatever else its session has. -/
theorem getSessionRaw_complete (hkept : Kept readers evidence)
    (hsession : evidence.tables.hasSession (sessionKey readers envelope) = true)
    (hjob : storedJob readers envelope ∈ evidence.jobs)
    (hloaded : Loaded readers.codec envelope) (hcomplete : envelope.complete = true) {name : String}
    {direction : Direction} (hname : rawDirection name = .ok direction) {raw : Bytes}
    (hraw : directionRaw envelope direction = some raw) (hne : raw ≠ []) :
    getSessionRaw readers.codec evidence (sessionKey readers envelope) name =
      .ok (some ⟨raw, "_" ++ name ++ ".raw", readers.codec.sha256 raw⟩) := by
  have htraced := traced_of_loaded hloaded
  have hcovered : Contiguous 0 (pieces (dataOf direction (storedJob readers envelope).chunks))
      raw.length := by
    rw [storedJob, pieces_storedChunks]
    exact htraced.covered hcomplete direction raw hraw
  have hdata : dataOf direction (storedJob readers envelope).chunks ≠ [] := by
    intro hnil
    rw [hnil] at hcovered
    exact hne (List.length_eq_zero_iff.mp (show 0 = _ from hcovered).symm)
  have halone : (evidence.sessionJobs (sessionKey readers envelope)).Pairwise
      fun a b => a.chunks = [] ∨ b.chunks = [] := by
    refine (hkept.alone.filter _).imp_of_mem fun ha hb hab => hab ?_
    have ha := of_decide_eq_true (List.mem_filter.mp ha).2
    exact ha.trans (of_decide_eq_true (List.mem_filter.mp hb).2).symm
  have hmem : storedJob readers envelope ∈ evidence.sessionJobs (sessionKey readers envelope) :=
    List.mem_filter.mpr ⟨hjob, decide_eq_true rfl⟩
  obtain ⟨origin, horigin⟩ := hkept.jobs _ hjob
  have hchunks : evidence.chunks (sessionKey readers envelope) direction =
      dataOf direction (storedJob readers envelope).chunks := by
    rw [Evidence.chunks, flatMap_eq_of_alone halone hmem fun hnil => hdata (by rw [hnil]; rfl),
      horigin.sorted hcovered]
  have hintact : ∀ chunk ∈ evidence.chunks (sessionKey readers envelope) direction,
      Intact readers.codec raw chunk := by
    intro chunk hchunk
    have hown := intact_storedJob htraced (hchunks ▸ hchunk)
    rwa [raw_storedJob, hraw] at hown
  obtain ⟨result, hresult, hartifact⟩ := getSessionRaw_intact hname hsession hintact
  have hsome := (hartifact _).mpr ⟨hchunks ▸ hdata, _, hchunks ▸ hcovered, rfl⟩
  rw [hresult, hsome, List.take_length]

section
variable {queueMaxEvents : Nat} {descriptor : SessionDescriptor} {s : State} {job : JobDirectory}
  {adapter : Canonical.Adapter} {capture : Canonical.NormalizedEnvelope}

/-- **What went over the wire is what is downloaded.** Whatever the two pumps,
the writer and the supervisor of a session do in any order: once its capture is
loaded as complete and imported, the download of a direction that carried bytes
is what its source sent and its destination took, before and after any other
imports. -/
theorem relayed_is_downloaded (hrelay : Reachable readers.codec queueMaxEvents descriptor s)
    (hpublished : s.published = some job)
    (hadapter : isSourceInstanceId adapter.sourceInstanceId = true)
    (hload : Canonical.load readers.codec adapter job = .ok capture)
    (hcomplete : capture.complete = true) (hreached : SessionDownloads.Reached readers evidence)
    (himported : (Db.SessionRaw.storeImport readers evidence (canonicalEnvelope capture)).1 =
      .stored .imported)
    (later : List NormalizedEnvelope) (hlater : ∀ envelope ∈ later, Loaded readers.codec envelope)
    (name : String) (direction : Direction) (hname : rawDirection name = .ok direction)
    (hbytes : (s.sides.get direction).received.flatten ≠ []) :
    getSessionRaw readers.codec
        (importAll readers (Db.SessionRaw.storeImport readers evidence (canonicalEnvelope capture)).2
          later) (sessionKey readers (canonicalEnvelope capture)) name =
      .ok (some ⟨(s.sides.get direction).received.flatten, "_" ++ name ++ ".raw",
        readers.codec.sha256 (s.sides.get direction).received.flatten⟩) ∧
    (s.sides.get direction).delivered = (s.sides.get direction).received := by
  obtain ⟨hraw, hdelivered⟩ := relayed_of_loaded hrelay hpublished hload hcomplete direction
  refine ⟨?_, hdelivered⟩
  have hloaded : Loaded readers.codec (canonicalEnvelope capture) := .canonical hadapter hload
  have hstorable : Storable readers evidence.tables (canonicalEnvelope capture) :=
    storeImport_imported.mp (storeImport_outcome.symm.trans himported)
  have hgrows := @grows_importAll readers
    (Db.SessionRaw.storeImport readers evidence (canonicalEnvelope capture)).2 later
  obtain ⟨hjob, hsession⟩ := stored_of_storable hstorable
  have hkept := (reached_importAll (hreached.store hloaded) hlater).kept
  refine getSessionRaw_complete hkept (hasSession_mono hgrows hsession) (hgrows.jobs hjob) hloaded
    hcomplete hname ?_ hbytes
  rw [directionRaw_of_loaded hload, hraw]

/-- **What went over the wire is what is parsed.** The parser is handed the bytes
of both directions of such a session, and its hash checks let them pass. -/
theorem relayed_is_parsed (hrelay : Reachable readers.codec queueMaxEvents descriptor s)
    (hpublished : s.published = some job)
    (hload : Canonical.load readers.codec adapter job = .ok capture)
    (hcomplete : capture.complete = true) :
    ∃ payloads, loadJob readers.codec (rawPayloads (canonicalEnvelope capture)) = .ok payloads ∧
      payloads.request = (s.sides.get .clientToDevice).received.flatten ∧
      payloads.response = (s.sides.get .deviceToClient).received.flatten := by
  obtain ⟨payloads, hpayloads, hrequest, hresponse⟩ := loadJob_of_loaded hload
  have hraw := relayed_of_loaded hrelay hpublished hload hcomplete
  exact ⟨payloads, hpayloads, hrequest.trans (hraw .clientToDevice).1,
    hresponse.trans (hraw .deviceToClient).1⟩

end

/-! ## A session -/

section
open RetailPrintGuard.Common.Runtime (runtime)
open RetailPrintGuard.Ingestion.RoundTrip

/-- The relay publishes the sample session: the writer falls behind the pumps and
catches up. -/
theorem sample_relayed : ∃ s, Reachable runtime 4 sampleDescriptor s ∧
    s.published = some (finalize runtime sampleSpool sampleClosing) ∧
    (s.sides.get .clientToDevice).received = [[0x1b, 0x40], [0x41, 0x42, 0x0a]] ∧
    (s.sides.get .deviceToClient).received = [[0x06]] := by
  have h : Reachable runtime 4 sampleDescriptor (.opened .abort) := .opened .abort
  have h := h.step (.take _ .open [] rfl rfl rfl)
  have h := h.step (.openSpool _ rfl)
  have h := h.step (.read _ .clientToDevice [0x1b, 0x40] "2026-07-01T10:00:01.000000Z" 2000 rfl
    (List.cons_ne_nil _ _))
  have h := h.step (.forward _ .clientToDevice _ none "2026-07-01T10:00:01.000500Z" 0 rfl)
  have h := h.step (.read _ .deviceToClient [0x06] "2026-07-01T10:00:01.000000Z" 2000 rfl
    (List.cons_ne_nil _ _))
  have h := h.step (.forward _ .deviceToClient _ none "2026-07-01T10:00:01.000500Z" 0 rfl)
  have h := h.step (.take _ _ _ rfl rfl rfl)
  have h := h.step (.read _ .clientToDevice [0x41, 0x42, 0x0a] "2026-07-01T10:00:01.000000Z" 2000 rfl
    (List.cons_ne_nil _ _))
  have h := h.step (.handle _ _ none rfl)
  have h := h.step (.forward _ .clientToDevice _ none "2026-07-01T10:00:01.000500Z" 0 rfl)
  have h := h.step (.take _ _ _ rfl rfl rfl)
  have h := h.step (.handle _ _ none rfl)
  have h := h.step (.readEof _ .clientToDevice "2026-07-01T10:00:01.000000Z" 2000 rfl)
  have h := h.step (.forward _ .clientToDevice _ none "2026-07-01T10:00:01.000500Z" 0 rfl)
  have h := h.step (.firstWait _ .clientToDevice rfl (Or.inr (Or.inr ⟨.clientToDevice, rfl⟩)))
  have h := h.step (.readEof _ .deviceToClient "2026-07-01T10:00:01.000000Z" 2000 rfl)
  have h := h.step (.forward _ .deviceToClient _ none "2026-07-01T10:00:01.000500Z" 0 rfl)
  have h := h.step (.tailWait _ .deviceToClient rfl (Or.inr (Or.inr rfl)))
  have h := h.step (.close _ _ "2026-07-01T10:00:02.000000Z" 3000 rfl)
  have h := h.step (.finalize _ _ rfl)
  have h := h.step (.take _ _ _ rfl rfl rfl)
  have h := h.step (.handle _ _ none rfl)
  have h := h.step (.putClose _ _ 0 rfl rfl)
  have h := h.step (.take _ _ _ rfl rfl rfl)
  have h := h.step (.handle _ _ none rfl)
  have h := h.step (.take _ _ _ rfl rfl rfl)
  have h := h.step (.handle _ _ none rfl)
  have h := h.step (.take _ _ _ rfl rfl rfl)
  have h := h.step (.publish _ _ _ rfl rfl)
  exact ⟨_, h, rfl, rfl, rfl⟩

/-- The adapter loads it as complete, and nothing in it is against the tables. -/
theorem sample_accepted_complete : ∃ capture,
    Canonical.load runtime sampleAdapter (finalize runtime sampleSpool sampleClosing) =
      .ok capture ∧ capture.complete = true ∧ capture.deviceId = "cassa1" ∧
    Admissible plainReaders shopWithSpool (canonicalEnvelope capture) := by
  have hsaved : sampleSpool.complete sampleClosing = true := by decide +kernel
  have hfits := @canonical_fits plainReaders _ _ _ sample_load
  have hpaths : ∀ name ∈ ["client.raw", "device.raw", "timeline.jsonl", "session.json",
      "manifest.json", ".ready"],
      inText (Canonical.artifactPath (finalize runtime sampleSpool sampleClosing) name) = true := by
    show ∀ name ∈ _, inText ("cassa1/" ++ directoryName sampleDescriptor ++ "/" ++ name) = true
    decide +kernel
  refine ⟨_, sample_load, (complete_iff sample_summarised).1.mpr hsaved, rfl, ?_⟩
  exact {
    newKey := rfl
    status := hfits.1
    boundary := by
      show optionalWithin 64 (some "connection_lifecycle") = true
      decide +kernel
    forwarding := hfits.2.1
    manifest := hpaths "manifest.json" (by decide)
    paths := by
      intro artifact hartifact
      change artifact ∈ List.map canonicalArtifact [_, _, _, _, _, _] at hartifact
      simp only [List.map_cons, List.map_nil, List.mem_cons, List.not_mem_nil,
        or_false] at hartifact
      rcases hartifact with rfl | rfl | rfl | rfl | rfl | rfl <;> exact hpaths _ (by decide)
    files := by
      have hroles := hfits.2.2
      exact List.Nodup.of_map Prod.fst (by rw [List.map_map]; exact hroles)
    session := .inr fun stored hstored => absurd hstored List.not_mem_nil
    offsets := by
      show [(Direction.clientToDevice, 0), (Direction.deviceToClient, 0),
        (Direction.clientToDevice, 2), (Direction.clientToDevice, 5),
        (Direction.deviceToClient, 1)].Nodup
      decide
    documents := fun document hdocument => absurd hdocument List.not_mem_nil
    documentKeys := List.nodup_nil }

/-- Both directions are downloaded after the capture was delivered a second time. -/
theorem sample_downloaded : ∃ s evidence session, Reachable runtime 4 sampleDescriptor s ∧
    ∀ name direction, rawDirection name = .ok direction →
      getSessionRaw plainReaders.codec evidence session name =
        .ok (some ⟨(s.sides.get direction).received.flatten, "_" ++ name ++ ".raw",
          plainReaders.codec.sha256 (s.sides.get direction).received.flatten⟩) ∧
      (s.sides.get direction).delivered = (s.sides.get direction).received := by
  obtain ⟨s, hrelay, hpublished, hrequest, hresponse⟩ := sample_relayed
  obtain ⟨capture, hload, hcomplete, hdevice, hadmissible⟩ := sample_accepted_complete
  have hadapter : isSourceInstanceId sampleAdapter.sourceInstanceId = true := by decide
  have hknown : shopWithSpool.knows plainReaders (canonicalEnvelope capture).deviceId = true := by
    show shopWithSpool.knows plainReaders capture.deviceId = true
    rw [hdevice]
    decide +kernel
  have hloaded : Loaded plainReaders.codec (canonicalEnvelope capture) := .canonical hadapter hload
  have hstorable := (storable_iff_admissible
    (@Storable.Reached.start plainReaders ["cassa1"]).invariant hloaded.checked hknown
    fun ⟨_, hrow, _⟩ => absurd hrow List.not_mem_nil).mpr hadmissible
  have himported := (@storeImport_outcome plainReaders emptyEvidence (canonicalEnvelope capture)).trans
    (storeImport_imported.mpr hstorable)
  have hlater : ∀ envelope ∈ [canonicalEnvelope capture], Loaded plainReaders.codec envelope := by
    intro envelope henvelope
    rw [List.mem_singleton.mp henvelope]
    exact hloaded
  have hdownload := @relayed_is_downloaded plainReaders emptyEvidence 4 sampleDescriptor s _
    sampleAdapter capture hrelay hpublished hadapter hload hcomplete (.start ["cassa1"]) himported
    [canonicalEnvelope capture] hlater
  have hbytes : ∀ direction, (s.sides.get direction).received.flatten ≠ [] := by
    intro direction
    cases direction with
    | clientToDevice =>
      rw [hrequest]
      exact List.cons_ne_nil _ _
    | deviceToClient =>
      rw [hresponse]
      exact List.cons_ne_nil _ _
  exact ⟨s, _, _, hrelay, fun name direction hname => hdownload name direction hname (hbytes _)⟩

theorem sample_parsed : ∃ (s : State) (payloads : JobPayloads), Reachable runtime 4 sampleDescriptor s ∧
    payloads.request = (s.sides.get .clientToDevice).received.flatten ∧
    payloads.response = (s.sides.get .deviceToClient).received.flatten := by
  obtain ⟨s, hrelay, hpublished, -, -⟩ := sample_relayed
  obtain ⟨capture, hload, hcomplete, -⟩ := sample_accepted_complete
  obtain ⟨payloads, -, hpayloads⟩ := @relayed_is_parsed plainReaders 4 sampleDescriptor s _
    sampleAdapter capture hrelay hpublished hload hcomplete
  exact ⟨s, payloads, hrelay, hpayloads⟩

end

end RetailPrintGuard.Ingestion.RelayedDownloads
