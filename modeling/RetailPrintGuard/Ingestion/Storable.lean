import RetailPrintGuard.Db.IngestRows
import RetailPrintGuard.Ingestion.PrintProxy
import RetailPrintGuard.Ingestion.RchParsed
import RetailPrintGuard.Ingestion.RchWrites
import RetailPrintGuard.Ingestion.Tilings

/-! # Storing what an adapter accepted

The checks of the adapters against the columns and constraints of the tables. -/
namespace RetailPrintGuard.Ingestion.Storable
open RetailPrintGuard.Library RetailPrintGuard.Library.Checks RetailPrintGuard.Common.Formats
open RetailPrintGuard.Ingestion.Adapters RetailPrintGuard.Ingestion.Dto
open RetailPrintGuard.Db.Semantic RetailPrintGuard.Db.IngestStore RetailPrintGuard.Db.IngestRows
open RetailPrintGuard.Proxy.Spool (JobDirectory)
open RetailPrintGuard.Ingestion.PrintProxy (isSourceInstanceId)

section
variable (fmt : Codec)

/-- What the load of an adapter returns; the adapter has a valid instance id. -/
inductive Loaded : NormalizedEnvelope → Prop
  | canonical {adapter : Canonical.Adapter} {job : JobDirectory}
      {envelope : Canonical.NormalizedEnvelope}
      (valid : isSourceInstanceId adapter.sourceInstanceId = true)
      (h : Canonical.load fmt adapter job = .ok envelope) : Loaded (canonicalEnvelope envelope)
  | rch {adapter : Rch.Adapter} {directory : Rch.SourceDirectory} {envelope : NormalizedEnvelope}
      (valid : isSourceInstanceId adapter.sourceInstanceId = true)
      (h : Rch.load fmt adapter directory = .ok envelope) : Loaded envelope
  | rchParsed {adapter : RchParsed.ParsedAdapter} {directory : RchParsed.ParsedDirectory}
      {envelope : NormalizedEnvelope}
      (valid : isSourceInstanceId adapter.sourceInstanceId = true)
      (h : RchParsed.load fmt adapter directory = .ok envelope) : Loaded envelope
  | printProxy {adapter : PrintProxy.Adapter} {route : Rch.SourceDirectory}
      {ledger : PrintProxy.Ledger} {jobId : String} {candidate : Worker.Candidate}
      {envelope : NormalizedEnvelope}
      (found : PrintProxy.jobCandidate fmt adapter route ledger jobId = some candidate)
      (h : candidate.load = .ok envelope) : Loaded envelope

end

section
variable (readers : Readers)

/-- The databases that imports of loaded envelopes reach. -/
inductive Reached : Database → Prop
  | start (devices : List String) : Reached { devices }
  | store {db : Database} {envelope : NormalizedEnvelope} (reached : Reached db)
      (loaded : Loaded readers.codec envelope) : Reached (storeImport readers db envelope).2

/-- What the tables ask of a loaded envelope that its adapter did not check. -/
structure Admissible (db : Database) (envelope : NormalizedEnvelope) : Prop where
  newKey : db.jobWithKey readers envelope.sourceKey = none
  status : within 48 envelope.status = true
  boundary : optionalWithin 64 envelope.boundarySource = true
  forwarding : ∀ chunk ∈ envelope.chunks, within 64 (textOr chunk.forwardStatus "UNKNOWN") = true
  manifest : inText (manifestPath envelope) = true
  paths : ∀ artifact ∈ envelope.artifacts, inText artifact.originalPath = true
  files : (envelope.artifacts.map fun artifact =>
    (artifact.role, readers.codec.sha256 artifact.originalPath.toUTF8.toList)).Nodup
  session : envelope.chunks = [] ∨
    ∀ stored, Row.chunk stored ∈ db.rows → stored.session ≠ sessionKey readers envelope
  offsets : (envelope.chunks.map fun chunk => (chunk.direction, chunk.jobOffset)).Nodup
  documents : ∀ document ∈ envelope.documents, DocumentAdmitted readers envelope document
  documentKeys : (envelope.documents.map fun document =>
    readers.collation document.externalId).Nodup

end

/-! ## Lengths -/

theorem length_sha256 {text : String} (h : isSha256 text = true) : text.length = 64 := by
  rw [isSha256, Bool.and_eq_true, beq_iff_eq] at h
  exact h.1

theorem length_instance {text : String} (h : isSourceInstanceId text = true) :
    text.length ≤ 128 := by
  rw [isSourceInstanceId, Bool.and_eq_true, Bool.and_eq_true, decide_eq_true_eq] at h
  exact h.1.1

theorem within_iff {n : Nat} {text : String} : within n text = true ↔ text.length ≤ n := by
  simp [within]

/-- The identity of an envelope fits its columns. -/
structure Identified (envelope : NormalizedEnvelope) : Prop where
  sourceKey : envelope.sourceKey.length ≤ 512
  sourceInstance : envelope.sourceInstanceId.length ≤ 128
  sourceJobId : envelope.sourceJobId.length ≤ 128
  sourceSessionId : (sourceSessionId envelope).length ≤ 128

/-! ## Chunks -/

/-- The bytes of a chunk are in its stream, with the digest it has. -/
def Sound (fmt : Codec) (streams : ByDirection Bytes) (chunk : StreamChunk) : Prop :=
  chunk.jobOffset + chunk.byteCount ≤ (streams.get chunk.direction).length ∧
    fmt.sha256 (((streams.get chunk.direction).drop chunk.jobOffset).take chunk.byteCount) =
      chunk.sha256

/-- The first chunk of a session: numbered zero by the proxy, else the first
that was observed. -/
def Marked (row : ChunkRow) : Prop :=
  if row.session.sourceSystem = .retailprintguardCaptureV1 then row.sequence = 0
  else row.observedSequence = 1

section
variable {readers : Readers} {envelope : NormalizedEnvelope}

/-- The chunks of an envelope differ in their numbers, and one of them is the
first of a session. -/
structure Numbered (readers : Readers) (envelope : NormalizedEnvelope) : Prop where
  sequences : ((chunkRows readers envelope).map ChunkRow.sequence).Nodup
  observed : ((chunkRows readers envelope).map ChunkRow.observedSequence).Nodup
  marked : envelope.chunks ≠ [] → ∃ row ∈ chunkRows readers envelope, Marked row

theorem sequences_chunkRows : (chunkRows readers envelope).map ChunkRow.sequence =
    envelope.chunks.map StreamChunk.sequence := by
  rw [chunkRows, List.map_map]
  have h := congrArg (List.map StreamChunk.sequence) (List.zipIdx_map_fst 0 envelope.chunks)
  rw [List.map_map] at h
  exact h

theorem offsets_chunkRows : (chunkRows readers envelope).map (fun row =>
    (row.direction, row.directionOffset)) =
      envelope.chunks.map fun chunk => (chunk.direction, chunk.jobOffset) := by
  rw [chunkRows, List.map_map]
  have h := congrArg (List.map fun chunk : StreamChunk => (chunk.direction, chunk.jobOffset))
    (List.zipIdx_map_fst 0 envelope.chunks)
  rw [List.map_map] at h
  exact h

theorem observed_chunkRows (h : ∀ chunk ∈ envelope.chunks, chunk.observedSequence = none) :
    (chunkRows readers envelope).map ChunkRow.observedSequence =
      List.range' 1 envelope.chunks.length := by
  rw [chunkRows, List.map_map]
  have hsnd : envelope.chunks.zipIdx.map (fun entry => entry.2 + 1) =
      List.range' 1 envelope.chunks.length := by
    have hshift : List.range' 1 envelope.chunks.length =
        (List.range' 0 envelope.chunks.length).map (· + 1) := List.range'_succ_left
    rw [hshift, ← List.zipIdx_map_snd 0 envelope.chunks, List.map_map]
    rfl
  rw [← hsnd]
  refine List.map_congr_left fun entry hentry => ?_
  have hnone := h entry.1 (List.fst_mem_of_mem_zipIdx hentry)
  simp [chunkRow, hnone]

/-- Numbers in the order of the chunks tell the chunks apart. -/
theorem numbered_of_unobserved (h : ∀ chunk ∈ envelope.chunks, chunk.observedSequence = none)
    (hkind : envelope.sourceKind ≠ .retailprintguardCaptureV1)
    (hsequences : (envelope.chunks.map StreamChunk.sequence).Nodup) :
    Numbered readers envelope := by
  refine ⟨by rwa [sequences_chunkRows], ?_, fun hchunks => ?_⟩
  · rw [observed_chunkRows h]
    exact List.nodup_range'
  · obtain ⟨chunk, rest, hcons⟩ := List.exists_cons_of_ne_nil hchunks
    have hnone := h chunk (by simp [hcons])
    refine ⟨chunkRow readers envelope chunk 0, ?_, ?_⟩
    · exact List.mem_map.mpr ⟨(chunk, 0), by simp [hcons], rfl⟩
    · rw [Marked, if_neg (by exact hkind)]
      simp [chunkRow, hnone]

/-- Rows with numbers of their own collide by their offsets alone. -/
theorem apart_iff_offsets (h : Numbered readers envelope) :
    ((chunkRows readers envelope).Pairwise fun a b => ¬Collide a b) ↔
      (envelope.chunks.map fun chunk => (chunk.direction, chunk.jobOffset)).Nodup := by
  have hsequences := List.pairwise_map.mp (List.nodup_iff_pairwise_ne.mp h.sequences)
  have hobserved := List.pairwise_map.mp (List.nodup_iff_pairwise_ne.mp h.observed)
  rw [← @offsets_chunkRows readers, List.nodup_iff_pairwise_ne, List.pairwise_map]
  constructor
  · refine fun hapart => hapart.imp fun hfree heq => hfree (.inr (.inr ?_))
    simpa using heq
  · intro hoffsets
    refine (hsequences.and (hobserved.and hoffsets)).imp fun ⟨hsequence, hobserved, hoffset⟩ => ?_
    rintro (heq | heq | ⟨hdirection, heq⟩)
    · exact hsequence heq
    · exact hobserved heq
    · exact hoffset (by rw [hdirection, heq])

/-- The first chunk of a session leaves no room for another one. -/
theorem collide_of_marked {a b : ChunkRow} (hsession : a.session = b.session) (ha : Marked a)
    (hb : Marked b) : Collide a b := by
  unfold Marked at ha hb
  rw [hsession] at ha
  split at ha
  · next hkind =>
    rw [if_pos hkind] at hb
    exact .inl (ha.trans hb.symm)
  · next hkind =>
    rw [if_neg hkind] at hb
    exact .inr (.inl (ha.trans hb.symm))

end

/-- What the checks of an adapter give the tables. -/
structure Checked (readers : Readers) (envelope : NormalizedEnvelope) : Prop where
  identified : Identified envelope
  inRaw : ∀ chunk ∈ envelope.chunks, chunkInRaw readers envelope chunk = true
  numbered : Numbered readers envelope
  parser : envelope.documents = [] ∨ (Row.parser (parserRow readers envelope)).fits = true

theorem inRaw_of_sound {readers : Readers} {envelope : NormalizedEnvelope}
    {streams : ByDirection Bytes} {chunk : StreamChunk}
    (hraw : ∀ direction, directionRaw envelope direction = some (streams.get direction))
    (h : Sound readers.codec streams chunk) : chunkInRaw readers envelope chunk = true := by
  unfold chunkInRaw
  rw [hraw]
  simp [h.1, h.2]

theorem sourceSessionId_some {envelope : NormalizedEnvelope} {text : String}
    (h : envelope.sourceSessionId = some text) (hne : text ≠ "") : sourceSessionId envelope = text := by
  rw [sourceSessionId, h, textOr, if_neg hne]

/-! ## Canonical captures -/

section
open RetailPrintGuard.Ingestion.Canonical

variable {readers : Readers} {fmt : Codec} {identity : Identity} {streams : ByDirection Bytes}

theorem canonical_line {state state' : TimelineState} {lineNumber : Nat} {rawLine : Bytes}
    (h : parseLine fmt identity streams state lineNumber rawLine = .ok state') :
    ∃ eventHash chunk, state' = state.add eventHash chunk ∧ chunk.sequence = state.events.length ∧
      chunk.observedSequence ∉ state.observedSequences ∧
      Sound fmt streams (canonicalChunk chunk) ∧
      (chunk.forwardStatus = "FORWARDED" ∨ chunk.forwardStatus = "FAILED") := by
  simp only [parseLine, bind_eq_ok, pure_eq_ok] at h
  obtain ⟨⟨event, eventHash⟩, -, -, -, position, hposition, extent, hextent, chunk, hchunk, rfl⟩ := h
  refine ⟨eventHash, chunk, rfl, ?_⟩
  have hplace : position.sequence = state.events.length ∧
      position.observedSequence ∉ state.observedSequences := by
    simp only [readPosition, bind_eq_ok, raiseIf_eq_ok] at hposition
    obtain ⟨sequence, -, _, hsequence, observed, -, _, hobserved, name, -, hposition⟩ := hposition
    split at hposition
    · exact absurd hposition (by simp [throw, throwThe, MonadExceptOf.throw])
    · simp only [bind_eq_ok, pure_eq_ok, raiseIf_eq_ok] at hposition
      obtain ⟨_, -, _, -, rfl⟩ := hposition
      exact ⟨not_not.mp hsequence, hobserved⟩
  have hsound : extent.offset + extent.length ≤ (streams.get position.direction).length ∧
      fmt.sha256 (((streams.get position.direction).drop extent.offset).take extent.length) =
        extent.payloadHash := by
    simp only [readExtent, bind_eq_ok, pure_eq_ok, raiseIf_eq_ok] at hextent
    obtain ⟨_, -, _, -, _, -, _, -, _, -, _, hinside, _, -, _, -, _, -, _, hhash, rfl⟩ := hextent
    exact ⟨Nat.le_of_not_lt hinside, not_not.mp hhash⟩
  simp only [readChunk, bind_eq_ok, pure_eq_ok] at hchunk
  obtain ⟨forwarded, -, _, -, _, -, _, -, _, -, rfl⟩ := hchunk
  refine ⟨hplace.1, hplace.2, hsound, ?_⟩
  cases forwarded
  · exact .inr rfl
  · exact .inl rfl

/-- The events so far are numbered from zero, observed once and in their streams. -/
structure Observed (fmt : Codec) (streams : ByDirection Bytes) (state : TimelineState) : Prop where
  sequences : state.events.map Canonical.StreamChunk.sequence = List.range state.events.length
  observed : state.observedSequences = state.events.map Canonical.StreamChunk.observedSequence
  nodup : state.observedSequences.Nodup
  sound : ∀ chunk ∈ state.events, Sound fmt streams (canonicalChunk chunk)
  statuses : ∀ chunk ∈ state.events,
    chunk.forwardStatus = "FORWARDED" ∨ chunk.forwardStatus = "FAILED"

theorem observed_nil : Observed fmt streams {} := by
  constructor <;> simp

theorem canonical_lines {state state' : TimelineState} {lineNumber : Nat} {lines : List Bytes}
    (hstate : Observed fmt streams state)
    (h : parseLines fmt identity streams state lineNumber lines = .ok state') :
    Observed fmt streams state' := by
  induction lines generalizing state lineNumber with
  | nil =>
    cases h
    exact hstate
  | cons line lines ih =>
    obtain ⟨next, hline, hrest⟩ := bind_eq_ok.mp h
    obtain ⟨eventHash, chunk, rfl, hsequence, hobserved, hsound, hstatus⟩ := canonical_line hline
    refine ih ⟨?_, ?_, ?_, ?_, ?_⟩ hrest
    · show (state.events ++ [chunk]).map _ = _
      rw [List.map_append, hstate.sequences, List.map_singleton, hsequence]
      simp [TimelineState.add, List.range_succ]
    · show state.observedSequences ++ [chunk.observedSequence] = (state.events ++ [chunk]).map _
      rw [List.map_append, hstate.observed, List.map_singleton]
    · exact List.nodup_append.mpr ⟨hstate.nodup, List.nodup_singleton _, fun a ha b hb => by
        rw [List.mem_singleton.mp hb]
        exact fun heq => hobserved (heq ▸ ha)⟩
    · intro other hother
      rcases List.mem_append.mp hother with hother | hother
      · exact hstate.sound other hother
      · rw [List.mem_singleton.mp hother]
        exact hsound
    · intro other hother
      rcases List.mem_append.mp hother with hother | hother
      · exact hstate.statuses other hother
      · rw [List.mem_singleton.mp hother]
        exact hstatus

/-- Events numbered from zero and observed once make numbered rows. -/
theorem canonical_numbered {envelope : Canonical.NormalizedEnvelope} {state : TimelineState}
    (hstate : Observed fmt streams state) (hchunks : envelope.chunks = state.events) :
    Numbered readers (canonicalEnvelope envelope) := by
  have hsequences : (canonicalEnvelope envelope).chunks.map Dto.StreamChunk.sequence =
      List.range state.events.length := by
    rw [← hstate.sequences, ← hchunks]
    exact List.map_map
  have hobserved : (chunkRows readers (canonicalEnvelope envelope)).map ChunkRow.observedSequence =
      state.observedSequences := by
    rw [hstate.observed, ← hchunks, chunkRows, List.map_map]
    have hfst := congrArg (List.map fun chunk : Dto.StreamChunk => chunk.observedSequence.getD 0)
      (List.zipIdx_map_fst 0 (canonicalEnvelope envelope).chunks)
    rw [List.map_map] at hfst
    have hsome : (canonicalEnvelope envelope).chunks.map (fun chunk =>
        chunk.observedSequence.getD 0) =
        envelope.chunks.map Canonical.StreamChunk.observedSequence := List.map_map
    rw [← hsome, ← hfst]
    refine List.map_congr_left fun entry hentry => ?_
    obtain ⟨event, -, hevent⟩ := List.mem_map.mp (List.fst_mem_of_mem_zipIdx hentry)
    show (entry.1.observedSequence.getD (entry.2 + 1)) = entry.1.observedSequence.getD 0
    rw [← hevent]
    rfl
  refine ⟨?_, ?_, fun hne => ?_⟩
  · rw [sequences_chunkRows, hsequences]
    exact List.nodup_range
  · rw [hobserved]
    exact hstate.nodup
  · have hpos : 0 < state.events.length := by
      rw [← hchunks]
      exact List.length_pos_of_ne_nil fun heq => hne (List.map_eq_nil_iff.mpr heq)
    have hzero : 0 ∈ (chunkRows readers (canonicalEnvelope envelope)).map ChunkRow.sequence := by
      rw [sequences_chunkRows, hsequences]
      exact List.mem_range.mpr hpos
    obtain ⟨row, hrow, hsequence⟩ := List.mem_map.mp hzero
    refine ⟨row, hrow, ?_⟩
    rw [Marked, if_pos (by rw [mem_chunkRows hrow]; rfl)]
    exact hsequence

theorem canonical_checked {adapter : Adapter} {job : JobDirectory}
    {envelope : Canonical.NormalizedEnvelope}
    (valid : isSourceInstanceId adapter.sourceInstanceId = true)
    (h : load readers.codec adapter job = .ok envelope) :
    Checked readers (canonicalEnvelope envelope) := by
  simp only [load, bind_eq_ok, pure_eq_ok] at h
  obtain ⟨⟨jobId, manifestHash⟩, hmarker, manifest, -, ⟨session, descriptor⟩, hsession, digests, -,
    facts, -, chunks, htimeline, -, -, rfl⟩ := h
  have hmarker : jobId.length ≤ 64 ∧ manifestHash.length = 64 := by
    simp only [readMarker, bind_eq_ok, pure_eq_ok, Prod.mk.injEq] at hmarker
    obtain ⟨_, -, _, -, -, -, _, hjob, _, hhash, rfl, rfl⟩ := hmarker
    exact ⟨(requireUuid_eq_ok.mp hjob).2.2.1, length_sha256 (requireSha256_eq_ok.mp hhash).2⟩
  have hidentity : descriptor.identity.jobId = jobId ∧ descriptor.identity.deviceId.length ≤ 64 ∧
      descriptor.identity.sessionId ≠ "" ∧ descriptor.identity.sessionId.length ≤ 64 := by
    simp only [readSession, bind_eq_ok, pure_eq_ok, Prod.mk.injEq] at hsession
    obtain ⟨_, -, _, -, _, -, sessionId, hsessionId, deviceId, hdeviceId, _, -, _, -, _, -, _, -,
      _, -, _, -, _, -, _, -, _, -, _, -, _, -, _, -, _, -, _, -, -, rfl⟩ := hsession
    obtain ⟨-, hne, hlength, -⟩ := requireUuid_eq_ok.mp hsessionId
    exact ⟨rfl, (requireString_eq_ok.mp hdeviceId).2.2, hne, hlength⟩
  have hinstance := length_instance valid
  have hchunks : ∃ state, Observed readers.codec job.raw state ∧ chunks = state.events := by
    simp only [parseTimeline, bind_eq_ok, pure_eq_ok] at htimeline
    obtain ⟨-, -, -, -, state, hlines, _, -, rfl⟩ := htimeline
    exact ⟨state, canonical_lines observed_nil hlines, rfl⟩
  obtain ⟨state, hstate, rfl⟩ := hchunks
  refine ⟨⟨?_, hinstance, ?_, ?_⟩, ?_, canonical_numbered hstate rfl, .inl rfl⟩
  · show ("canonical:" ++ adapter.sourceInstanceId ++ ":" ++ descriptor.identity.deviceId ++ ":" ++
      descriptor.identity.jobId ++ ":" ++ manifestHash).length ≤ _
    simp only [String.length_append, hidentity.1]
    have hstart : "canonical:".length = 10 := rfl
    have hcolon : ":".length = 1 := rfl
    omega
  · show descriptor.identity.jobId.length ≤ 128
    rw [hidentity.1]
    omega
  · rw [sourceSessionId_some rfl hidentity.2.2.1]
    exact hidentity.2.2.2.trans (by decide)
  · intro chunk hchunk
    obtain ⟨event, hevent, rfl⟩ := List.mem_map.mp hchunk
    exact @inRaw_of_sound _ _ job.raw _ (fun direction => by cases direction <;> rfl)
      (hstate.sound event hevent)

/-- The roles of a canonical capture are all different, its status is short and
its chunks are forwarded or failed. -/
theorem canonical_fits {adapter : Adapter} {job : JobDirectory}
    {envelope : Canonical.NormalizedEnvelope} (h : load readers.codec adapter job = .ok envelope) :
    within 48 (canonicalEnvelope envelope).status = true ∧
      (∀ chunk ∈ (canonicalEnvelope envelope).chunks,
        within 64 (textOr chunk.forwardStatus "UNKNOWN") = true) ∧
      ((canonicalEnvelope envelope).artifacts.map Dto.ArtifactSnapshot.role).Nodup := by
  simp only [load, bind_eq_ok, pure_eq_ok] at h
  obtain ⟨-, -, manifest, -, ⟨session, descriptor⟩, -, digests, -, facts, hfacts, chunks, htimeline,
    -, -, rfl⟩ := h
  refine ⟨?_, ?_, ?_⟩
  · simp only [readFacts, bind_eq_ok, pure_eq_ok, raiseIf_eq_ok] at hfacts
    obtain ⟨status, hstatus, hfacts⟩ := hfacts
    have hshort := (requireString_eq_ok.mp hstatus).2.2
    obtain ⟨_, -, _, -, _, -, _, -, _, -, _, -, _, -, _, -, _, -, _, -, _, -, rfl⟩ := hfacts
    exact within_iff.mpr (hshort.trans (by decide))
  · simp only [parseTimeline, bind_eq_ok, pure_eq_ok] at htimeline
    obtain ⟨-, -, -, -, state, hlines, _, -, rfl⟩ := htimeline
    intro chunk hchunk
    obtain ⟨event, hevent, rfl⟩ := List.mem_map.mp hchunk
    rcases (canonical_lines (@observed_nil readers.codec job.raw) hlines).statuses event hevent with
      hstatus | hstatus
    · have hsome : (canonicalChunk event).forwardStatus = some "FORWARDED" := congrArg some hstatus
      rw [hsome]
      decide
    · have hsome : (canonicalChunk event).forwardStatus = some "FAILED" := congrArg some hstatus
      rw [hsome]
      decide
  · show ([.requestRaw, .responseRaw, .receiveTimeline, .sessionDescriptor, .captureManifest,
      .captureReadyMarker] : List Dto.ArtifactRole).Nodup
    decide

end

/-! ## RCH captures -/

section
open RetailPrintGuard.Ingestion.Rch

variable {readers : Readers} {fmt : Codec} {streams : ByDirection Bytes} {complete : Bool}
  {sessionId connectionId : String}

theorem rch_line {state state' : TimelineState} {lineNumber : Nat} {rawLine : Bytes}
    (h : parseLine fmt streams complete sessionId connectionId state lineNumber rawLine =
      .ok state') :
    ∃ chunk, state' = state.add chunk ∧ state.previousSequence < chunk.sequence ∧
      chunk.observedSequence = none ∧ Sound fmt streams chunk ∧ 1 ≤ chunk.byteCount ∧
      (complete = true → chunk.jobOffset = state.directionOffsets.get chunk.direction) := by
  simp only [parseLine, bind_eq_ok, pure_eq_ok] at h
  obtain ⟨-, -, value, -, event, -, position, hposition, chunk, hchunk, rfl⟩ := h
  refine ⟨chunk, rfl, ?_⟩
  have hplace : state.previousSequence < position.sequence ∧ 1 ≤ position.length ∧
      position.offset + position.length ≤ (streams.get position.direction).length ∧
      (complete = true → position.offset = state.directionOffsets.get position.direction) := by
    simp only [readPosition, bind_eq_ok, pure_eq_ok, raiseIf_eq_ok] at hposition
    obtain ⟨_, -, _, hsequence, _, -, _, -, _, -, _, -, length, hlength, _, hinside, _, hoffset, _,
      -, rfl⟩ := hposition
    exact ⟨Nat.lt_of_not_le hsequence, (requireInt_eq_ok.mp hlength).2.1, Nat.le_of_not_lt hinside,
      fun hcomplete => not_not.mp fun hne => hoffset ⟨hcomplete, hne⟩⟩
  simp only [readChunk, bind_eq_ok, pure_eq_ok] at hchunk
  obtain ⟨digest, hdigest, _, -, _, -, _, -, _, -, _, -, _, -, _, -, _, -, _, -, rfl⟩ := hchunk
  simp only [matchDigest, bind_eq_ok, pure_eq_ok, raiseIf_eq_ok] at hdigest
  obtain ⟨_, -, _, hhash, rfl⟩ := hdigest
  exact ⟨hplace.1, rfl, ⟨hplace.2.2.1, not_not.mp hhash⟩, hplace.2.1, hplace.2.2.2⟩

/-- The events so far are numbered upwards and in their streams; those of a
complete timeline end before the next offset. -/
structure Ascending (fmt : Codec) (streams : ByDirection Bytes) (complete : Bool)
    (state : TimelineState) : Prop where
  below : ∀ chunk ∈ state.events, chunk.sequence ≤ state.previousSequence
  sequences : (state.events.map StreamChunk.sequence).Nodup
  unobserved : ∀ chunk ∈ state.events, chunk.observedSequence = none
  sound : ∀ chunk ∈ state.events, Sound fmt streams chunk
  ends : complete = true → ∀ chunk ∈ state.events,
    chunk.jobOffset < state.directionOffsets.get chunk.direction
  offsets : complete = true →
    (state.events.map fun chunk => (chunk.direction, chunk.jobOffset)).Nodup

theorem ascending_nil : Ascending fmt streams complete {} := by
  constructor <;> simp

theorem rch_lines {state state' : TimelineState} {lineNumber : Nat} {lines : List Bytes}
    (hstate : Ascending fmt streams complete state)
    (h : parseLines fmt streams complete sessionId connectionId state lineNumber lines =
      .ok state') : Ascending fmt streams complete state' := by
  induction lines generalizing state lineNumber with
  | nil =>
    cases h
    exact hstate
  | cons line lines ih =>
    obtain ⟨next, hline, hrest⟩ := bind_eq_ok.mp h
    obtain ⟨chunk, rfl, hsequence, hobserved, hsound, hlength, hoffset⟩ := rch_line hline
    refine ih ?_ hrest
    have hmem : ∀ other, other ∈ (state.add chunk).events ↔ other ∈ state.events ∨ other = chunk :=
      fun other => by simp [TimelineState.add]
    constructor
    · intro other hother
      rcases (hmem other).mp hother with hother | rfl
      · exact (hstate.below other hother).trans hsequence.le
      · exact le_rfl
    · show ((state.events ++ [chunk]).map StreamChunk.sequence).Nodup
      rw [List.map_append, List.map_singleton]
      refine hstate.sequences.append (List.nodup_singleton _) ?_
      rw [List.disjoint_singleton]
      intro hfound
      obtain ⟨other, hother, heq⟩ := List.mem_map.mp hfound
      have hbelow := hstate.below other hother
      omega
    · intro other hother
      rcases (hmem other).mp hother with hother | rfl
      · exact hstate.unobserved other hother
      · exact hobserved
    · intro other hother
      rcases (hmem other).mp hother with hother | rfl
      · exact hstate.sound other hother
      · exact hsound
    · intro hcomplete other hother
      show other.jobOffset < (state.directionOffsets.set chunk.direction _).get other.direction
      rw [ByDirection.get_set]
      rcases (hmem other).mp hother with hother | rfl
      · have hends := hstate.ends hcomplete other hother
        by_cases heq : other.direction = chunk.direction
        · rw [if_pos heq, hoffset hcomplete, ← heq]
          omega
        · rwa [if_neg heq]
      · rw [if_pos rfl]
        omega
    · intro hcomplete
      show ((state.events ++ [chunk]).map fun chunk => (chunk.direction, chunk.jobOffset)).Nodup
      rw [List.map_append, List.map_singleton]
      refine (hstate.offsets hcomplete).append (List.nodup_singleton _) ?_
      rw [List.disjoint_singleton]
      intro hfound
      obtain ⟨other, hother, heq⟩ := List.mem_map.mp hfound
      obtain ⟨hdirection, hother'⟩ := Prod.mk.inj heq
      have hends := hstate.ends hcomplete other hother
      rw [hdirection, ← hoffset hcomplete] at hends
      omega

/-- What a capture binds together. -/
theorem rch_binding {directory : SourceDirectory} {maxPayloadBytes : Nat} {loadPayloads : Bool}
    {binding : Binding}
    (h : captureBinding fmt directory maxPayloadBytes loadPayloads = .ok binding) :
    binding.facts.jobId.length ≤ 64 ∧ binding.manifestHash.length = 64 ∧
      binding.facts.sessionId ≠ "" ∧ binding.facts.sessionId.length ≤ 128 ∧
      (binding.facts.status = "ready" ∨ binding.facts.status = "ready_capture_incomplete") := by
  simp only [captureBinding, bind_eq_ok, raiseIf_eq_ok] at h
  obtain ⟨-, -, ⟨ready, manifestHash⟩, hmarker, ⟨manifestRaw, manifest⟩, -, facts, hfacts, files, -,
    h⟩ := h
  have hhash : manifestHash.length = 64 := by
    simp only [readMarker, bind_eq_ok, pure_eq_ok, Prod.mk.injEq] at hmarker
    obtain ⟨_, -, _, -, _, -, _, -, _, hhash, _, -, -, rfl⟩ := hmarker
    exact length_sha256 (requireSha256_eq_ok.mp hhash).2
  have hread : facts.jobId.length ≤ 64 ∧ facts.sessionId ≠ "" ∧ facts.sessionId.length ≤ 128 ∧
      (facts.status = "ready" ∨ facts.status = "ready_capture_incomplete") := by
    simp only [readFacts, bind_eq_ok, pure_eq_ok, raiseIf_eq_ok] at hfacts
    obtain ⟨jobId, hjob, sessionId, hsession, _, -, _, -, _, -, _, -, _, -, _, -, _, -, _, -, _, -,
      _, -, _, -, status, -, _, hstatus, rfl⟩ := hfacts
    obtain ⟨-, hne, hlength⟩ := requireString_eq_ok.mp hsession
    exact ⟨(requireUuid_eq_ok.mp hjob).2.2.1, hne, hlength, by tauto⟩
  cases loadPayloads with
  | true =>
    rw [if_pos rfl] at h
    obtain ⟨_, -, hbinding⟩ := bind_eq_ok.mp h
    rw [← pure_eq_ok.mp hbinding]
    exact ⟨hread.1, hhash, hread.2⟩
  | false =>
    rw [if_neg (by decide)] at h
    rw [← pure_eq_ok.mp h]
    exact ⟨hread.1, hhash, hread.2⟩

theorem rch_checked {adapter : Adapter} {directory : SourceDirectory}
    {envelope : NormalizedEnvelope}
    (valid : isSourceInstanceId adapter.sourceInstanceId = true)
    (h : load readers.codec adapter directory = .ok envelope) : Checked readers envelope := by
  simp only [load, bind_eq_ok, pure_eq_ok] at h
  obtain ⟨binding, hbinding, _, -, _, -, _, -, _, -, _, -, _, -, _, -, rfl⟩ := h
  have hbinding := checked_eq_ok.mp hbinding
  obtain ⟨hjob, hhash, hne, hsession, -⟩ := rch_binding hbinding
  simp only [captureBinding, bind_eq_ok, pure_eq_ok, raiseIf_eq_ok, if_true] at hbinding
  obtain ⟨-, -, ⟨ready, manifestHash⟩, -, ⟨manifestRaw, manifest⟩, -, facts, -, files, -, chunks,
    htimeline, rfl⟩ := hbinding
  simp only [parseTimeline, bind_eq_ok, pure_eq_ok, raiseIf_eq_ok] at htimeline
  obtain ⟨-, -, state, hlines, -, -, -, -, rfl⟩ := htimeline
  have hstate := rch_lines ascending_nil hlines
  have hinstance := length_instance valid
  refine ⟨⟨?_, hinstance, hjob.trans (by decide), ?_⟩, ?_, ?_, .inl rfl⟩
  · simp only [String.length_append]
    have hstart : "rch-capture:".length = 12 := rfl
    have hcolon : ":".length = 1 := rfl
    dsimp only at hhash hjob
    omega
  · rw [sourceSessionId_some rfl hne]
    exact hsession
  · exact fun chunk hchunk => @inRaw_of_sound _ _ files.streams _
      (fun direction => by cases direction <;> rfl) (hstate.sound chunk hchunk)
  · exact numbered_of_unobserved hstate.unobserved (by simp) hstate.sequences

/-- The roles of an RCH capture are all different, its status is short, and the
offsets of a complete timeline are all different. -/
theorem rch_fits {adapter : Adapter} {directory : SourceDirectory} {envelope : NormalizedEnvelope}
    (h : load readers.codec adapter directory = .ok envelope) :
    within 48 envelope.status = true ∧
      (envelope.artifacts.map ArtifactSnapshot.role).Nodup ∧ envelope.documents = [] ∧
      (envelope.complete = true →
        (envelope.chunks.map fun chunk => (chunk.direction, chunk.jobOffset)).Nodup) := by
  simp only [load, bind_eq_ok, pure_eq_ok] at h
  obtain ⟨binding, hbinding, _, -, _, -, _, -, _, -, _, -, _, -, _, -, rfl⟩ := h
  have hbinding := checked_eq_ok.mp hbinding
  obtain ⟨-, -, -, -, hstatus⟩ := rch_binding hbinding
  simp only [captureBinding, bind_eq_ok, pure_eq_ok, raiseIf_eq_ok, if_true] at hbinding
  obtain ⟨-, -, ⟨ready, manifestHash⟩, -, ⟨manifestRaw, manifest⟩, -, facts, -, files, -, chunks,
    htimeline, rfl⟩ := hbinding
  simp only [parseTimeline, bind_eq_ok, pure_eq_ok, raiseIf_eq_ok] at htimeline
  obtain ⟨-, -, state, hlines, -, -, -, -, rfl⟩ := htimeline
  refine ⟨?_, ?_, rfl, fun hcomplete => ?_⟩
  · dsimp only at hstatus ⊢
    rcases hstatus with hstatus | hstatus <;> rw [hstatus] <;> decide
  · show ([.requestRaw, .responseRaw, .receiveTimeline, .captureManifest, .captureReadyMarker] :
      List ArtifactRole).Nodup
    decide
  · exact (rch_lines ascending_nil hlines).offsets (Bool.and_eq_true_iff.mp hcomplete).2

end

/-! ## Parsed RCH jobs -/

section
open RetailPrintGuard.Ingestion.RchParsed
open RetailPrintGuard.Ingestion.Rch (checked_eq_ok)

variable {readers : Readers} {fmt : Codec}

theorem numbered_nil {envelope : NormalizedEnvelope} (h : envelope.chunks = []) :
    Numbered readers envelope := by
  have hrows : chunkRows readers envelope = [] := by rw [chunkRows, h]; rfl
  refine ⟨?_, ?_, fun hne => absurd h hne⟩ <;> simp [hrows]

theorem rchParsed_checked {adapter : ParsedAdapter} {directory : ParsedDirectory}
    {envelope : NormalizedEnvelope}
    (valid : isSourceInstanceId adapter.sourceInstanceId = true)
    (h : load readers.codec adapter directory = .ok envelope) : Checked readers envelope := by
  simp only [load, bind_eq_ok, pure_eq_ok] at h
  obtain ⟨binding, hbinding, marker, hmarker, parsed, -, state, -, _, -, _, -, _, -, _, -, _, -, _,
    -, _, -, _, -, rfl⟩ := h
  obtain ⟨hjob, -, hne, hsession, -⟩ := rch_binding (checked_eq_ok.mp hbinding)
  have hmarker : marker.metadataHash.length = 64 ∧ marker.parserVersion ≠ "" ∧
      marker.parserVersion.length ≤ 64 := by
    simp only [readParsedMarker, bind_eq_ok, pure_eq_ok] at hmarker
    obtain ⟨_, -, _, -, _, -, _, -, _, -, _, -, _, hhash, _, hversion, _, -, _, -, rfl⟩ := hmarker
    obtain ⟨-, hne, hlength⟩ := requireString_eq_ok.mp (checked_eq_ok.mp hversion)
    exact ⟨length_sha256 (requireSha256_eq_ok.mp (checked_eq_ok.mp hhash)).2, hne, hlength⟩
  have hinstance := length_instance valid
  refine ⟨⟨?_, hinstance, hjob.trans (by decide), ?_⟩, ?_, numbered_nil rfl, .inr ?_⟩
  · simp only [String.length_append]
    have hstart : "rch-parsed:".length = 11 := rfl
    have hcolon : ":".length = 1 := rfl
    omega
  · rw [sourceSessionId_some rfl hne]
    exact hsession
  · simp
  · show within 64 (textOr (some marker.parserVersion) "unknown") = true
    rw [textOr, if_neg hmarker.2.1]
    exact within_iff.mpr hmarker.2.2

end

/-! ## Archived printproxy jobs -/

section
open RetailPrintGuard.Ingestion.PrintProxy
open RetailPrintGuard.Ingestion.Rch (SourceDirectory checked_eq_ok refuseIf_eq_ok)
open RetailPrintGuard.Ingestion.Worker (Candidate)

variable {readers : Readers} {fmt : Codec} {adapter : PrintProxy.Adapter} {route : SourceDirectory}

theorem printProxy_raw {job : Archived} {raw : RawFile}
    (h : readRaw fmt adapter route job = .ok raw) :
    raw.jobId.length ≤ 64 ∧ fmt.sha256 raw.content = raw.digest := by
  simp only [readRaw, bind_eq_ok, pure_eq_ok] at h
  obtain ⟨_, -, _, -, jobId, hjob, _, -, _, -, name, -, _, -, _, -, ⟨content, digest⟩, hdigested, _,
    -, _, -, rfl⟩ := h
  simp only [readDigested, bind_eq_ok, pure_eq_ok, refuseIf_eq_ok, Prod.mk.injEq] at hdigested
  obtain ⟨_, -, _, -, _, -, _, hhash, rfl, rfl⟩ := hdigested
  exact ⟨(requireUuid_eq_ok.mp (checked_eq_ok.mp hjob)).2.2.1, not_not.mp hhash⟩

/-- The hashes of an archived job are digests. -/
theorem printProxy_hashes {jobId : String} {events : List Json} {job : Archived}
    (h : candidateFromEvents fmt adapter jobId events = .ok (some job)) :
    job.archiveChainHash.length = 64 ∧ job.latestChainHash.length = 64 := by
  obtain ⟨history, -, h⟩ := bind_eq_ok.mp h
  split at h
  · cases h
  · split at h
    · cases h
    · simp only [bind_eq_ok, pure_eq_ok, Option.some.injEq] at h
      obtain ⟨_, -, _, -, _, -, _, -, _, harchive, _, hlatest, rfl⟩ := h
      exact ⟨length_sha256 (requireSha256_eq_ok.mp (checked_eq_ok.mp harchive)).2,
        length_sha256 (requireSha256_eq_ok.mp (checked_eq_ok.mp hlatest)).2⟩

theorem roles_readRendered {job : Archived} {raw : RawFile} {metadata : Json}
    {filenameKey hashKey suffix mediaType : String} {role : ArtifactRole}
    {artifacts : List ArtifactSnapshot}
    (h : readRendered fmt adapter route job raw metadata filenameKey hashKey suffix mediaType role =
      .ok artifacts) : (artifacts.map ArtifactSnapshot.role).Sublist [role] := by
  unfold readRendered at h
  dsimp only at h
  split at h
  · obtain ⟨_, -, h⟩ := bind_eq_ok.mp h
    rw [← pure_eq_ok.mp h]
    exact List.nil_sublist _
  · simp only [bind_eq_ok, pure_eq_ok] at h
    obtain ⟨_, -, _, -, ⟨content, digest⟩, -, rfl⟩ := h
    exact List.Sublist.refl _

theorem roles_readPreview {metadata : MetadataFile}
    {artifacts : List ArtifactSnapshot} {warnings : List String}
    (h : readPreview fmt adapter route metadata = .ok (artifacts, warnings)) :
    (artifacts.map ArtifactSnapshot.role).Sublist [.responsePreview] := by
  unfold readPreview at h
  dsimp only at h
  split at h
  · rw [ok_bind] at h
    obtain ⟨truncated, -, h⟩ := bind_eq_ok.mp h
    obtain ⟨declared, -, h⟩ := bind_eq_ok.mp h
    split at h
    · simp only [bind_eq_ok, pure_eq_ok, Prod.mk.injEq] at h
      obtain ⟨_, -, _, -, _, -, rfl, -⟩ := h
      exact List.Sublist.refl _
    · simp only [bind_eq_ok, pure_eq_ok, Prod.mk.injEq] at h
      obtain ⟨_, -, rfl, -⟩ := h
      exact List.nil_sublist _
  · cases h

theorem roles_ledgerArtifacts {job : Archived} {headRaw : Bytes}
    {artifacts : List ArtifactSnapshot}
    (h : ledgerArtifacts fmt route job headRaw = .ok artifacts) :
    (artifacts.map ArtifactSnapshot.role).Sublist
      [.integrityLedgerRecord, .integrityLedgerLatestRecord, .integrityLedgerHead] := by
  simp only [ledgerArtifacts, bind_eq_ok, pure_eq_ok] at h
  obtain ⟨archived, -, last, -, rfl⟩ := h
  split
  · exact ((List.Sublist.refl _).cons _).cons_cons _
  · exact List.Sublist.refl _

theorem printProxy_checked {ledger : Ledger} {job : Archived} {envelope : NormalizedEnvelope}
    (hhashes : job.archiveChainHash.length = 64 ∧ job.latestChainHash.length = 64)
    (h : PrintProxy.load readers.codec adapter route ledger job = .ok envelope) :
    Checked readers envelope := by
  simp only [PrintProxy.load, bind_eq_ok, pure_eq_ok] at h
  obtain ⟨raw, hraw, metadata, -, endpoints, -, records, -, clean, -, pdf, -, ⟨preview, warnings⟩, -,
    facts, -, chunk, hchunk, sessionId, hsession, _, -, rfl⟩ := h
  obtain ⟨hjob, hdigest⟩ := printProxy_raw hraw
  have hinstance := length_instance adapter.validInstance
  have hchunk : chunk.sequence = 1 ∧ chunk.direction = .clientToDevice ∧ chunk.jobOffset = 0 ∧
      chunk.byteCount = raw.content.length ∧ chunk.sha256 = raw.digest ∧
      chunk.observedSequence = none := by
    simp only [aggregateChunk, bind_eq_ok, pure_eq_ok] at hchunk
    obtain ⟨_, -, _, -, rfl⟩ := hchunk
    exact ⟨rfl, rfl, rfl, rfl, rfl, rfl⟩
  obtain ⟨-, hdirection, hoffset, hcount, hsha, hobserved⟩ := hchunk
  refine ⟨⟨?_, hinstance, hjob.trans (by decide), ?_⟩, ?_, ?_, .inl rfl⟩
  · simp only [String.length_append]
    have hstart : "printproxy-v3:".length = 14 := rfl
    have hcolon : ":".length = 1 := rfl
    omega
  · show (textOr sessionId (textOr none ("job:" ++ raw.jobId))).length ≤ 128
    rcases requireOptionalString_eq_ok.mp (checked_eq_ok.mp hsession) with
      ⟨-, rfl⟩ | ⟨text, -, rfl, hne, hlength⟩
    · show ("job:" ++ raw.jobId).length ≤ 128
      rw [String.length_append]
      have hstart : "job:".length = 4 := rfl
      omega
    · rw [textOr, if_neg hne]
      exact hlength.trans (by decide)
  · intro found hfound
    dsimp only at hfound
    split at hfound
    · cases hfound
    · rw [List.mem_singleton.mp hfound]
      simp [chunkInRaw, directionRaw, hdirection, rawRole, NormalizedEnvelope.content, hoffset,
        hcount, hsha, hdigest]
  · refine numbered_of_unobserved ?_ (by simp) ?_
    · intro found hfound
      dsimp only at hfound
      split at hfound
      · cases hfound
      · rw [List.mem_singleton.mp hfound]
        exact hobserved
    · dsimp only
      split <;> simp

/-- The roles of an archived job are all different, its status is short, and it
has one chunk at most. -/
theorem printProxy_fits {ledger : Ledger} {job : Archived} {envelope : NormalizedEnvelope}
    (h : PrintProxy.load readers.codec adapter route ledger job = .ok envelope) :
    within 48 envelope.status = true ∧
      (envelope.artifacts.map ArtifactSnapshot.role).Nodup ∧ envelope.documents = [] ∧
      (envelope.chunks.map fun chunk => (chunk.direction, chunk.jobOffset)).Nodup := by
  simp only [PrintProxy.load, bind_eq_ok, pure_eq_ok] at h
  obtain ⟨raw, -, metadata, -, endpoints, -, records, hrecords, clean, hclean, pdf, hpdf,
    ⟨preview, warnings⟩, hpreview, facts, hfacts, chunk, -, sessionId, -, _, -, rfl⟩ := h
  refine ⟨?_, ?_, rfl, ?_⟩
  · simp only [readFacts, bind_eq_ok, pure_eq_ok, refuseIf_eq_ok] at hfacts
    obtain ⟨_, -, _, -, state, -, _, hsafe, _, -, _, -, _, -, _, -, _, -, _, -, rfl⟩ := hfacts
    have hstates : ∀ state ∈ safeState, within 48 state = true := by decide
    exact hstates state (not_not.mp hsafe)
  · have hroles : ([.requestRaw, .sourceMetadata] ++
        [.integrityLedgerRecord, .integrityLedgerLatestRecord, .integrityLedgerHead] ++
        [.normalizedText] ++ [.receiptPdf] ++ [.responsePreview] : List ArtifactRole).Nodup := by
      decide
    refine hroles.sublist ?_
    simp only [List.map_append]
    exact ((((List.Sublist.refl _).append (roles_ledgerArtifacts hrecords)).append
      (roles_readRendered hclean)).append (roles_readRendered hpdf)).append
      (roles_readPreview hpreview)
  · dsimp only
    split <;> simp

end

/-! ## Every loaded envelope -/

theorem Loaded.checked {readers : Readers} {envelope : NormalizedEnvelope}
    (h : Loaded readers.codec envelope) : Checked readers envelope := by
  cases h with
  | canonical valid h => exact canonical_checked valid h
  | rch valid h => exact rch_checked valid h
  | rchParsed valid h => exact rchParsed_checked valid h
  | printProxy found h =>
    unfold PrintProxy.jobCandidate at found
    split at found
    · cases found
    · next job hjob =>
      cases found
      exact printProxy_checked (printProxy_hashes hjob) h
    · cases found
      cases h

/-! ## Reached databases -/

/-- Every row has its job, and the chunks of a session have a first one. -/
structure Invariant (db : Database) : Prop where
  owned : Owned db
  marked : ∀ stored, Row.chunk stored ∈ db.rows →
    ∃ first, Row.chunk first ∈ db.rows ∧ first.session = stored.session ∧ Marked first

theorem Invariant.storeImport {readers : Readers} {db : Database} {envelope : NormalizedEnvelope}
    (hdb : Invariant db) (hchecked : Checked readers envelope) :
    Invariant (storeImport readers db envelope).2 := by
  refine ⟨hdb.owned.storeImport, ?_⟩
  by_cases h : Storable readers db envelope
  · rw [storeImport_rows h]
    intro stored hstored
    rcases List.mem_append.mp hstored with hstored | hstored
    · obtain ⟨first, hfirst, hsession, hmarked⟩ := hdb.marked stored hstored
      exact ⟨first, List.mem_append_left _ hfirst, hsession, hmarked⟩
    · have hrow := (chunk_added h).mp hstored
      have hchunks : envelope.chunks ≠ [] := by
        rintro hnil
        simp [chunkRows, hnil] at hrow
      obtain ⟨first, hfirst, hmarked⟩ := hchecked.numbered.marked hchunks
      refine ⟨first, List.mem_append_right _ ((chunk_added h).mpr hfirst), ?_, hmarked⟩
      rw [mem_chunkRows hfirst, mem_chunkRows hrow]
  · rw [storeImport_unchanged h]
    exact hdb.marked

theorem Reached.invariant {readers : Readers} {db : Database} (h : Reached readers db) :
    Invariant db := by
  induction h with
  | start devices => exact ⟨by simp [Owned], by simp⟩
  | store _ loaded ih => exact ih.storeImport loaded.checked

/-! ## What is imported -/

section
variable {readers : Readers} {db : Database} {envelope : NormalizedEnvelope}

/-- A session takes the chunks of one job only. -/
theorem free_iff_unused (hdb : Invariant db) (hchecked : Checked readers envelope) :
    (∀ stored, Row.chunk stored ∈ db.rows → stored.session = sessionKey readers envelope →
      ∀ row ∈ chunkRows readers envelope, ¬Collide stored row) ↔
      envelope.chunks = [] ∨
        ∀ stored, Row.chunk stored ∈ db.rows → stored.session ≠ sessionKey readers envelope := by
  constructor
  · intro hfree
    rw [or_iff_not_imp_left]
    intro hchunks stored hstored hsession
    obtain ⟨first, hfirst, hsame, hmarked⟩ := hdb.marked stored hstored
    obtain ⟨row, hrow, hmarkedRow⟩ := hchecked.numbered.marked hchunks
    have hkey := hsame.trans hsession
    exact hfree first hfirst hkey row hrow
      (collide_of_marked (hkey.trans (mem_chunkRows hrow).symm) hmarked hmarkedRow)
  · rintro (hnil | hunused) stored hstored hsession row hrow
    · simp [chunkRows, hnil] at hrow
    · exact absurd hsession (hunused stored hstored)

/-- What the tables ask of an envelope, after the checks of its adapter. -/
theorem storable_iff_admissible (hdb : Invariant db) (hchecked : Checked readers envelope)
    (hknown : db.knows readers envelope.deviceId = true)
    (hnew : ¬JobStored db (jobKey readers envelope)) :
    Storable readers db envelope ↔ Admissible readers db envelope := by
  obtain ⟨hkey, hinstance, hjob, hsession⟩ := hchecked.identified
  rw [storable_iff hdb.owned hnew]
  constructor
  · intro h
    have hrow := h.job
    simp only [Row.fits, jobRow, Bool.and_eq_true] at hrow
    obtain ⟨⟨⟨-, hmanifest⟩, hboundary⟩, hstatus⟩ := hrow
    exact {
      newKey := h.newKey, status := hstatus, boundary := hboundary, forwarding := h.statuses
      manifest := hmanifest, paths := h.paths, files := h.files
      session := (free_iff_unused hdb hchecked).mp h.free
      offsets := (apart_iff_offsets hchecked.numbered).mp h.apart
      documents := h.documents, documentKeys := h.documentKeys }
  · intro h
    have hsessionRow : (Row.session (sessionRow readers envelope)).fits = true := by
      simp only [Row.fits, Bool.and_eq_true]
      exact ⟨⟨within_iff.mpr hinstance, within_iff.mpr hsession⟩, h.status⟩
    have hjobRow : (Row.job (jobRow readers envelope)).fits = true := by
      simp only [Row.fits, Bool.and_eq_true]
      exact ⟨⟨⟨⟨⟨within_iff.mpr hkey, within_iff.mpr hinstance⟩, within_iff.mpr hjob⟩, h.manifest⟩,
        h.boundary⟩, h.status⟩
    exact {
      newKey := h.newKey, known := hknown, session := .inr hsessionRow, job := hjobRow
      paths := h.paths, files := h.files, inRaw := hchecked.inRaw, statuses := h.forwarding
      free := (free_iff_unused hdb hchecked).mpr h.session
      apart := (apart_iff_offsets hchecked.numbered).mpr h.offsets
      parser := hchecked.parser.imp id .inl
      documents := h.documents, documentKeys := h.documentKeys }

/-- A loaded envelope of a configured device and a new job is imported exactly as
long as the tables admit what its adapter did not check. -/
theorem loaded_imported_iff (hreached : Reached readers db)
    (hloaded : Loaded readers.codec envelope) (hknown : db.knows readers envelope.deviceId = true)
    (hnew : ¬JobStored db (jobKey readers envelope)) :
    (storeImport readers db envelope).1 = .stored .imported ↔ Admissible readers db envelope := by
  rw [storeImport_imported]
  exact storable_iff_admissible hreached.invariant hloaded.checked hknown hnew

end

/-! ## Two jobs of a session -/

section
open RetailPrintGuard.Common.Runtime (runtime readTimestamp)
open RetailPrintGuard.Ingestion.Reading RetailPrintGuard.Ingestion.RchWrites

/-- A print in a session of a cash register. -/
def firstPrint : Write where
  code := "0001"
  jobId := "4b0e8f3c-5a1d-4c2e-9f70-1d2c3b4a5968"
  sessionId := "20260901-1"
  connectionId := "1"
  time := "2026-09-01T10:00:00.000000Z"
  boundary := "idle_timeout"
  printer := ("192.168.1.50", 23)
  client := ("192.168.1.20", 50123)
  listener := ("192.168.1.2", 9100)
  sessionOffset := 0
  request := [61, 75]

/-- The next one in the session. -/
def secondPrint : Write := { firstPrint with
  code := "0002"
  jobId := "9c1d7a52-0b3e-4f6a-8d21-7e5f4a3b2c1d"
  sessionOffset := 2 }

def register : Endpoint := ⟨"192.168.1.50", 23⟩

def rchAdapter : Rch.Adapter where
  sourceInstanceId := "cassa"
  devicesByTarget := [(register, "rch_1")]
  positive := maxPayloadBytes_pos

noncomputable def printed (print : Write) : NormalizedEnvelope :=
  envelope runtime "rch" print rchAdapter register ⟨"192.168.1.20", 50123⟩
    ⟨"192.168.1.2", 9100⟩ "rch_1"

theorem firstPrint_readable : firstPrint.Readable runtime rchAdapter register
    ⟨"192.168.1.20", 50123⟩ ⟨"192.168.1.2", 9100⟩ "rch_1" where
  code := by decide
  jobId := ⟨by decide, by decide, by decide +kernel⟩
  sessionId := by decide
  connectionId := by decide
  time := by
    have hread : (readTimestamp firstPrint.time).map ParsedTime.aware = some true := by
      decide +kernel
    obtain ⟨⟨micros, aware⟩, hparsed, rfl⟩ := Option.map_eq_some_iff.mp hread
    exact ⟨by decide, by decide, micros, hparsed⟩
  boundary := by decide
  toPrinter := ⟨by decide, by decide, by decide +kernel, by decide, rfl⟩
  fromClient := ⟨by decide, by decide, by decide +kernel, by decide, rfl⟩
  atListener := ⟨by decide, by decide, by decide +kernel, by decide, rfl⟩
  configured := by decide
  request := by decide
  size := by decide
  sessionOffset := by decide
  room := by decide

theorem secondPrint_readable : secondPrint.Readable runtime rchAdapter register
    ⟨"192.168.1.20", 50123⟩ ⟨"192.168.1.2", 9100⟩ "rch_1" :=
  { firstPrint_readable with
    code := by decide
    jobId := ⟨by decide, by decide, by decide +kernel⟩
    sessionOffset := by decide }

theorem printed_first : Loaded runtime (printed firstPrint) :=
  @Loaded.rch _ rchAdapter _ _ (by decide) (load_write firstPrint_readable)

theorem printed_second : Loaded runtime (printed secondPrint) :=
  @Loaded.rch _ rchAdapter _ _ (by decide) (load_write secondPrint_readable)

def shop : Database := { devices := ["rch_1"] }

theorem printed_admissible : Admissible plainReaders shop (printed firstPrint) where
  newKey := rfl
  status := by decide +kernel
  boundary := by decide +kernel
  forwarding := by
    intro found hfound
    rw [List.mem_singleton.mp hfound]
    decide +kernel
  manifest := by decide +kernel
  paths := by
    have hpaths : ∀ path ∈ ["rch/request.raw", "rch/response.raw", "rch/timeline.jsonl",
        "rch/manifest.json", "rch/.ready"], inText path = true := by decide +kernel
    exact fun artifact hartifact => hpaths _ (List.mem_map_of_mem hartifact)
  files := by
    refine List.Nodup.of_map Prod.fst ?_
    rw [List.map_map]
    show ([.requestRaw, .responseRaw, .receiveTimeline, .captureManifest, .captureReadyMarker] :
      List ArtifactRole).Nodup
    decide
  session := .inr fun stored hstored => absurd hstored List.not_mem_nil
  offsets := List.nodup_singleton _
  documents := fun document hdocument => absurd hdocument List.not_mem_nil
  documentKeys := List.nodup_nil

theorem unstored (print : Write) : ¬JobStored shop (jobKey plainReaders (printed print)) :=
  fun ⟨_, hrow, _⟩ => absurd hrow List.not_mem_nil

theorem printed_storable : Storable plainReaders shop (printed firstPrint) :=
  (storable_iff_admissible (@Reached.start plainReaders ["rch_1"]).invariant printed_first.checked
    (by decide +kernel) (unstored firstPrint)).mpr printed_admissible

/-- The first print of a session is imported. -/
theorem first_print_imported :
    (storeImport plainReaders shop (printed firstPrint)).1 = .stored .imported :=
  (loaded_imported_iff (.start ["rch_1"]) printed_first (by decide +kernel)
    (unstored firstPrint)).mpr printed_admissible

theorem sessionKey_printed (print : Write) : sessionKey plainReaders (printed print) =
    ⟨.commercialRchCaptureV1, "cassa", "192.168.1.50:23",
      textOr print.sessionId (textOr print.connectionId ("job:" ++ print.jobId))⟩ := rfl

/-- The next print of the session is accepted and new, and is not imported. -/
theorem next_print_refused : ∃ db envelope, Reached plainReaders db ∧
    Loaded plainReaders.codec envelope ∧ db.knows plainReaders envelope.deviceId = true ∧
    ¬JobStored db (jobKey plainReaders envelope) ∧
    (storeImport plainReaders db envelope).1 ≠ .stored .imported := by
  have hreached : Reached plainReaders (storeImport plainReaders shop (printed firstPrint)).2 :=
    .store (.start ["rch_1"]) printed_first
  rw [storeImport_rows printed_storable] at hreached
  have hknown : shop.knows plainReaders (printed secondPrint).deviceId = true := by decide +kernel
  let rows := shop.rows ++ Transaction.added (importSteps plainReaders shop (printed firstPrint))
  have hnew : ¬JobStored { shop with rows } (jobKey plainReaders (printed secondPrint)) := by
    rintro ⟨row, hrow, hkey⟩
    rw [job_of_added printed_storable hrow] at hkey
    exact absurd (congrArg JobKey.sourceJobId hkey) (by decide +kernel)
  refine ⟨_, printed secondPrint, hreached, printed_second, hknown, hnew, ?_⟩
  rw [Ne, storeImport_imported]
  intro hstorable
  have hadmissible := (storable_iff_admissible hreached.invariant printed_second.checked hknown
    hnew).mp hstorable
  have hstored := (chunk_added printed_storable).mpr
    (List.mem_singleton_self (chunkRow plainReaders (printed firstPrint) (chunk runtime firstPrint) 0))
  rcases hadmissible.session with hnil | hunused
  · cases hnil
  · refine hunused _ hstored ?_
    rw [sessionKey_printed secondPrint]
    exact (sessionKey_printed firstPrint).trans (by decide)

end

end RetailPrintGuard.Ingestion.Storable
