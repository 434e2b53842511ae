import Mathlib.Data.List.Sort
import RetailPrintGuard.Db.IngestStore
import RetailPrintGuard.Library.Tiling

/-! # Downloads of a session

The raw stream of a session, rebuilt from the rows of its chunks. -/
namespace RetailPrintGuard.Db.SessionRaw
open RetailPrintGuard.Library RetailPrintGuard.Library.Tiling RetailPrintGuard.Common.Formats
open RetailPrintGuard.Ingestion.Dto RetailPrintGuard.Db.Semantic RetailPrintGuard.Db.IngestStore
open RetailPrintGuard.Ingestion.Worker (StoreOutcome)

/-! ## What is stored -/

/-- `RawPayload` -/
structure StoredPayload where
  artifactRole : ArtifactRole
  payload : Bytes

/-- `StreamChunk` -/
structure StoredChunk where
  direction : Direction
  eventKind : String
  directionOffset : Nat
  directionSequence : Nat
  byteCount : Nat
  sha256 : String
  payload : Bytes

/-- `PrintJob` with its payloads and its chunks, which have its session. -/
structure StoredJob where
  session : SessionKey
  captureComplete : Bool
  payloads : List StoredPayload
  chunks : List StoredChunk

/-- The tables, and what they hold of each job, in the order of the imports. -/
structure Evidence where
  tables : Database
  jobs : List StoredJob

/-- `_chunk_payload`, where it does not raise -/
def chunkPayload (raw : Option Bytes) (chunk : StreamChunk) : Bytes :=
  match raw with
  | none => []
  | some raw => slice raw (chunk.jobOffset, chunk.byteCount)

def storedChunk (envelope : NormalizedEnvelope) (chunk : StreamChunk) (directionSequence : Nat) :
    StoredChunk where
  direction := chunk.direction
  eventKind := chunk.eventKind
  directionOffset := chunk.jobOffset
  directionSequence := directionSequence
  byteCount := chunk.byteCount
  sha256 := chunk.sha256
  payload := chunkPayload (directionRaw envelope chunk.direction) chunk

/-- The rows of `_insert_chunks`, after chunks with these numbers. -/
def storedChunks (envelope : NormalizedEnvelope) : ByDirection Nat → List StreamChunk →
    List StoredChunk
  | _, [] => []
  | sequences, chunk :: rest =>
    let sequence := chunk.directionSequence.getD (sequences.get chunk.direction + 1)
    storedChunk envelope chunk sequence ::
      storedChunks envelope (sequences.set chunk.direction sequence) rest

def storedJob (readers : Readers) (envelope : NormalizedEnvelope) : StoredJob where
  session := sessionKey readers envelope
  captureComplete := envelope.complete
  payloads := envelope.artifacts.map fun artifact => ⟨artifact.role, artifact.content⟩
  chunks := storedChunks envelope (.const 0) envelope.chunks

/-- `store_import` -/
def storeImport (readers : Readers) (evidence : Evidence) (envelope : NormalizedEnvelope) :
    StoreOutcome × Evidence :=
  let (outcome, tables) := IngestStore.storeImport readers evidence.tables envelope
  match outcome with
  | .stored .imported =>
    (outcome, { tables, jobs := evidence.jobs ++ [storedJob readers envelope] })
  | _ => (outcome, { evidence with tables })

/-! ## The download -/

/-- `RawArtifact`; its name begins with the id of the session. -/
structure RawArtifact where
  payload : Bytes
  nameSuffix : String
  sha256 : String

/-- `_raw_direction` -/
def rawDirection (direction : String) : Except String Direction :=
  if direction = "request" then .ok .clientToDevice
  else if direction = "response" then .ok .deviceToClient
  else .error "direction must be request or response"

def Evidence.sessionJobs (evidence : Evidence) (session : SessionKey) : List StoredJob :=
  evidence.jobs.filter fun job => job.session = session

/-- `ORDER BY direction_offset, direction_sequence` -/
def StoredChunk.before (a b : StoredChunk) : Bool :=
  a.directionOffset < b.directionOffset ||
    (a.directionOffset == b.directionOffset && decide (a.directionSequence ≤ b.directionSequence))

/-- The data events of a direction, whatever their order. -/
def dataOf (direction : Direction) (chunks : List StoredChunk) : List StoredChunk :=
  chunks.filter fun chunk => chunk.direction = direction ∧ chunk.eventKind = "data"

/-- The chunks that the query selects. -/
def Evidence.chunks (evidence : Evidence) (session : SessionKey) (direction : Direction) :
    List StoredChunk :=
  (dataOf direction ((evidence.sessionJobs session).flatMap StoredJob.chunks)).mergeSort
    StoredChunk.before

/-- The payload of chunks from an offset on, if each is where it has to be and intact. -/
def joinChunks (fmt : Codec) : Nat → List StoredChunk → Option Bytes
  | _, [] => some []
  | expectedOffset, chunk :: rest =>
    if chunk.directionOffset ≠ expectedOffset then none
    else if chunk.payload.length ≠ chunk.byteCount then none
    else if fmt.sha256 chunk.payload ≠ chunk.sha256 then none
    else (joinChunks fmt (expectedOffset + chunk.byteCount) rest).map (chunk.payload ++ ·)

/-- `get_session_raw` -/
def getSessionRaw (fmt : Codec) (evidence : Evidence) (session : SessionKey) (direction : String) :
    Except String (Option RawArtifact) := do
  let storedDirection ← rawDirection direction
  if evidence.tables.hasSession session = false then return none
  let chunks := evidence.chunks session storedDirection
  if chunks = [] then return none
  return (joinChunks fmt 0 chunks).map fun payload =>
    { payload, nameSuffix := "_" ++ direction ++ ".raw", sha256 := fmt.sha256 payload }

/-- The raw payload of a job in a direction. -/
def StoredJob.raw (direction : Direction) (job : StoredJob) : Bytes :=
  match job.payloads.find? fun payload => payload.artifactRole = rawRole direction with
  | none => []
  | some payload => payload.payload

/-! ## Joined chunks -/

def pieces (chunks : List StoredChunk) : List (Nat × Nat) :=
  chunks.map fun chunk => (chunk.directionOffset, chunk.byteCount)

/-- The row of a chunk has the bytes it stands for, which are in the raw payload. -/
def Intact (fmt : Codec) (raw : Bytes) (chunk : StoredChunk) : Prop :=
  chunk.directionOffset + chunk.byteCount ≤ raw.length ∧
    chunk.payload = slice raw (chunk.directionOffset, chunk.byteCount) ∧
      fmt.sha256 chunk.payload = chunk.sha256

/-- Intact chunks are joined exactly if they follow one another. -/
theorem joinChunks_eq_some {fmt : Codec} {raw payload : Bytes} {start : Nat}
    {chunks : List StoredChunk} (h : ∀ chunk ∈ chunks, Intact fmt raw chunk) :
    joinChunks fmt start chunks = some payload ↔
      ∃ stop, Contiguous start (pieces chunks) stop ∧
        payload = (raw.drop start).take (stop - start) := by
  induction chunks generalizing start payload with
  | nil =>
    constructor
    · intro hjoin
      cases hjoin
      exact ⟨start, rfl, by simp⟩
    · rintro ⟨stop, hstop, rfl⟩
      obtain rfl : start = stop := hstop
      simp [joinChunks]
  | cons chunk rest ih =>
    rw [List.forall_mem_cons] at h
    obtain ⟨⟨hinside, hpayload, hsha⟩, hrest⟩ := h
    have hlength : chunk.payload.length = chunk.byteCount := by
      rw [hpayload, slice, List.length_take, List.length_drop]
      omega
    by_cases hoffset : chunk.directionOffset = start
    · have hjoin : joinChunks fmt start (chunk :: rest) =
          (joinChunks fmt (start + chunk.byteCount) rest).map (chunk.payload ++ ·) := by
        rw [joinChunks, if_neg (not_not.mpr hoffset), if_neg (not_not.mpr hlength),
          if_neg (not_not.mpr hsha)]
      have htake : ∀ stop, start + chunk.byteCount ≤ stop → (raw.drop start).take (stop - start) =
          chunk.payload ++
            (raw.drop (start + chunk.byteCount)).take (stop - (start + chunk.byteCount)) := by
        intro stop hstop
        rw [hpayload, slice, hoffset, ← List.drop_drop,
          show stop - start = chunk.byteCount + (stop - (start + chunk.byteCount)) by omega,
          List.take_add]
      rw [hjoin, Option.map_eq_some_iff]
      constructor
      · rintro ⟨tail, htail, rfl⟩
        obtain ⟨stop, hcontiguous, rfl⟩ := (ih hrest).mp htail
        exact ⟨stop, ⟨hoffset, hcontiguous⟩, (htake stop hcontiguous.le).symm⟩
      · rintro ⟨stop, ⟨-, hcontiguous⟩, rfl⟩
        exact ⟨_, (ih hrest).mpr ⟨stop, hcontiguous, rfl⟩, (htake stop hcontiguous.le).symm⟩
    · rw [joinChunks, if_pos hoffset]
      refine iff_of_false (by simp) ?_
      rintro ⟨stop, hcontiguous, -⟩
      exact hoffset hcontiguous.1

theorem Contiguous.stop_le {fmt : Codec} {raw : Bytes} {start stop : Nat}
    {chunks : List StoredChunk} (h : ∀ chunk ∈ chunks, Intact fmt raw chunk)
    (hstart : start ≤ raw.length) (hcontiguous : Contiguous start (pieces chunks) stop) :
    stop ≤ raw.length := by
  induction chunks generalizing start with
  | nil => exact hcontiguous ▸ hstart
  | cons chunk rest ih =>
    rw [List.forall_mem_cons] at h
    obtain ⟨hoffset, hrest⟩ := hcontiguous
    exact ih h.2 (hoffset ▸ h.1.1) hrest

/-- A download of intact chunks is the part of the raw payload that they cover. -/
theorem getSessionRaw_intact {fmt : Codec} {evidence : Evidence} {session : SessionKey}
    {direction : String} {stored : Direction} {raw : Bytes}
    (hdirection : rawDirection direction = .ok stored)
    (hsession : evidence.tables.hasSession session = true)
    (h : ∀ chunk ∈ evidence.chunks session stored, Intact fmt raw chunk) :
    ∃ result, getSessionRaw fmt evidence session direction = .ok result ∧
      ∀ artifact, result = some artifact ↔
        evidence.chunks session stored ≠ [] ∧
          ∃ stop, Contiguous 0 (pieces (evidence.chunks session stored)) stop ∧
            artifact = ⟨raw.take stop, "_" ++ direction ++ ".raw", fmt.sha256 (raw.take stop)⟩ := by
  by_cases hchunks : evidence.chunks session stored = []
  · refine ⟨none, ?_, fun artifact => iff_of_false (by simp) fun h => h.1 hchunks⟩
    simp [getSessionRaw, hdirection, hsession, hchunks, bind, Except.bind, pure, Except.pure]
  · refine ⟨(joinChunks fmt 0 (evidence.chunks session stored)).map fun payload =>
      { payload, nameSuffix := "_" ++ direction ++ ".raw", sha256 := fmt.sha256 payload }, ?_,
      fun artifact => ?_⟩
    · simp [getSessionRaw, hdirection, hsession, hchunks, bind, Except.bind, pure, Except.pure]
    · rw [Option.map_eq_some_iff, and_iff_right hchunks]
      constructor
      · rintro ⟨payload, hjoin, rfl⟩
        obtain ⟨stop, hstop, rfl⟩ := (joinChunks_eq_some h).mp hjoin
        exact ⟨stop, hstop, rfl⟩
      · rintro ⟨stop, hstop, rfl⟩
        exact ⟨_, (joinChunks_eq_some h).mpr ⟨stop, hstop, rfl⟩, rfl⟩

end RetailPrintGuard.Db.SessionRaw
