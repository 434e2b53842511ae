import RetailPrintGuard.Ingestion.Timeline

/-! # Jobs whose manifest describes them

A job directory whose marker, manifest, files and session descriptor agree
passes every check before the timeline. What is left of `load` is the timeline
and the evidence against a complete status. -/
namespace RetailPrintGuard.Ingestion.Reading
open RetailPrintGuard.Library RetailPrintGuard.Library.Checks RetailPrintGuard.Common.Formats
open RetailPrintGuard.Ingestion.Adapters RetailPrintGuard.Ingestion.Canonical
open RetailPrintGuard.Ingestion.Timeline
open RetailPrintGuard.Proxy.Spool RetailPrintGuard.Proxy.SpoolRuns
open RetailPrintGuard.Proxy.Documents

/-! ## Descriptors of configured devices -/

structure IsEndpoint (fmt : Codec) (source : String × Int) (e : Endpoint) : Prop where
  nonempty : source.1 ≠ ""
  length : source.1.length ≤ 45
  address : fmt.ipv4Address source.1 = some e.ip
  port : 1 ≤ source.2 ∧ source.2 ≤ 65535
  same : e.port = source.2

structure IsUuid (fmt : Codec) (text : String) : Prop where
  nonempty : text ≠ ""
  length : text.length ≤ 64
  uuid : fmt.isUuid text = true

/-- A descriptor the relay writes for a device the adapter knows. -/
structure Registered (fmt : Codec) (adapter : Adapter) (descriptor : SessionDescriptor)
    (client listener target : Endpoint) : Prop where
  jobId : IsUuid fmt descriptor.jobId
  sessionId : IsUuid fmt descriptor.sessionId
  deviceId : descriptor.deviceId ≠ "" ∧ descriptor.deviceId.length ≤ 64
  deviceType : descriptor.deviceType = "pos" ∨ descriptor.deviceType = "rch"
  parser : descriptor.parser ≠ "" ∧ descriptor.parser.length ≤ 64
  clientEndpoint : IsEndpoint fmt descriptor.clientEndpoint client
  listenerEndpoint : IsEndpoint fmt descriptor.listenerEndpoint listener
  targetEndpoint : IsEndpoint fmt descriptor.targetEndpoint target
  configured : adapter.devicesByTarget.lookup target = some descriptor.deviceId
  connectedAt : IsTimestamp fmt descriptor.connectedAtUtc
  monotonic : 0 ≤ descriptor.connectedMonotonicNs ∧ descriptor.connectedMonotonicNs ≤ maxInt

theorem Registered.shortNames {fmt : Codec} {adapter : Adapter} {descriptor : SessionDescriptor}
    {client listener target : Endpoint}
    (h : Registered fmt adapter descriptor client listener target) : ShortNames descriptor :=
  ⟨h.sessionId.length, h.jobId.length, h.deviceId.2⟩

/-- The files are within the sizes the adapter reads. -/
structure WithinLimits (adapter : Adapter) (job : JobDirectory) : Prop where
  manifest : job.manifest.length ≤ maxManifestBytes
  session : job.session.length ≤ maxSessionBytes
  timeline : job.timeline.length ≤ maxTimelineBytes
  raw : job.raw.clientToDevice.length + job.raw.deviceToClient.length ≤ adapter.maxPayloadBytes
  rawInt : ∀ direction, (job.raw.get direction).length ≤ maxInt

/-- The manifest says of a file what it holds. -/
def FileDescribed (fmt : Codec) (manifest : Json) (name : String) (content : Bytes) : Prop :=
  field (field manifest "files") name = (fileFacts fmt name content).sortKeys

def CountsFit (counts : ByDirection Nat) : Prop := ∀ direction, counts.get direction ≤ maxInt

/-- The manifest says of its job what the files say. -/
structure Describes (fmt : Codec) (job : JobDirectory) (manifest : Json)
    (descriptor : SessionDescriptor) (closedAtUtc : String) (closedNs : Int)
    (facts : CaptureFacts) : Prop where
  schema : field manifest "schema_version" = .num 1
  format : field manifest "capture_format" = .str captureFormat
  session : field manifest "session" = (descriptorDocument descriptor).sortKeys
  closedAt : field manifest "closed_at_utc" = .str closedAtUtc
  closedNs : field manifest "closed_monotonic_ns" = .num closedNs
  files : ∃ fields, field manifest "files" = .obj fields
  clientRaw : FileDescribed fmt manifest "client.raw" job.raw.clientToDevice
  deviceRaw : FileDescribed fmt manifest "device.raw" job.raw.deviceToClient
  timelineFile : FileDescribed fmt manifest "timeline.jsonl" job.timeline
  sessionFile : FileDescribed fmt manifest "session.json" job.session
  status : field manifest "status" = .str facts.status
  transportComplete : field manifest "transport_complete" = .bool facts.transportComplete
  storageComplete : field manifest "storage_complete" = .bool facts.storageComplete
  errors : field manifest "errors" = .arr (facts.errors.map .str)
  droppedChunks : field manifest "dropped_chunks" = .num facts.droppedChunks
  droppedBytes : field manifest "dropped_bytes" = .num facts.droppedBytes
  observedBytes : field manifest "observed_bytes" = (countDocument facts.observedBytes).sortKeys
  observedChunks : field manifest "observed_chunks" = (countDocument facts.observedChunks).sortKeys
  capturedBytes : field manifest "captured_bytes" = (countDocument facts.capturedBytes).sortKeys
  capturedChunks : field manifest "captured_chunks" = (countDocument facts.capturedChunks).sortKeys
  closeReason : field manifest "close_reason" = .str facts.closeReason

/-- What a manifest says is within the adapter's limits, apart from the number
of its errors. -/
structure FactsFit (facts : CaptureFacts) : Prop where
  status : facts.status = "COMPLETE" ∨ facts.status = "PARTIAL"
  error : ∀ error ∈ facts.errors, error ≠ "" ∧ error.length ≤ 4096
  droppedChunks : facts.droppedChunks ≤ maxInt
  droppedBytes : facts.droppedBytes ≤ maxInt
  observedBytes : CountsFit facts.observedBytes
  observedChunks : CountsFit facts.observedChunks
  capturedBytes : CountsFit facts.capturedBytes
  capturedChunks : CountsFit facts.capturedChunks
  closeReason : facts.closeReason ≠ "" ∧ facts.closeReason.length ≤ 128

/-! ## Each part of the reading -/

section
variable {fmt : Codec}

theorem stringIntMap_countDocument {counts : ByDirection Nat} {label : String}
    (h : CountsFit counts) : stringIntMap (countDocument counts).sortKeys label = .ok counts := by
  simp only [stringIntMap, bind_eq_ok, pure_eq_ok, mapping_eq_ok, requireInt_eq_ok]
  refine ⟨_, ⟨rfl, _, rfl⟩, counts.clientToDevice, ⟨?_, Nat.zero_le _, h .clientToDevice⟩,
    counts.deviceToClient, ⟨?_, Nat.zero_le _, h .deviceToClient⟩, rfl⟩
  · rw [field_sortKeys (countDocument_distinct counts)]
    simp [countDocument, field, Json.get?, Json.sortKeys]
  · rw [field_sortKeys (countDocument_distinct counts)]
    simp [countDocument, field, Json.get?, List.lookup_cons, Json.sortKeys]

theorem readErrors_strings {errors : List String} (hlength : errors.length ≤ 1000)
    (h : ∀ error ∈ errors, error ≠ "" ∧ error.length ≤ 4096) :
    readErrors (.arr (errors.map .str)) = .ok errors := by
  simp only [readErrors, bind_eq_ok, raiseIf_eq_ok, mapM_eq_ok, List.length_map]
  refine ⟨(), Nat.not_lt.mpr hlength, ?_⟩
  induction errors with
  | nil => exact .nil
  | cons error errors ih =>
    refine .cons (requireString_eq_ok.mpr ⟨rfl, h error List.mem_cons_self⟩) (ih ?_ ?_)
    · exact (Nat.le_succ _).trans hlength
    · exact fun e he => h e (List.mem_cons_of_mem _ he)

theorem Describes.readFacts {job : JobDirectory} {manifest : Json} {descriptor : SessionDescriptor}
    {closedAtUtc : String} {closedNs : Int} {facts : CaptureFacts}
    (h : Describes fmt job manifest descriptor closedAtUtc closedNs facts) (hfit : FactsFit facts)
    (herrors : facts.errors.length ≤ 1000) : readFacts manifest = .ok facts := by
  have hstatus : facts.status ≠ "" ∧ facts.status.length ≤ 16 := by
    rcases hfit.status with h | h <;> rw [h] <;> decide
  simp only [Canonical.readFacts, bind_eq_ok, pure_eq_ok, raiseIf_eq_ok, requireString_eq_ok,
    requireBool_eq_ok, requireInt_eq_ok]
  refine ⟨facts.status, ⟨h.status, hstatus⟩, (), ?_, _, h.transportComplete, _, h.storageComplete,
    facts.errors, ?_, facts.droppedChunks, ⟨h.droppedChunks, Nat.zero_le _, hfit.droppedChunks⟩,
    facts.droppedBytes, ⟨h.droppedBytes, Nat.zero_le _, hfit.droppedBytes⟩, facts.observedBytes, ?_,
    facts.observedChunks, ?_, facts.capturedBytes, ?_, facts.capturedChunks, ?_, facts.closeReason,
    ⟨h.closeReason, hfit.closeReason⟩, rfl⟩
  · rintro ⟨hcomplete, hpartial⟩
    exact hfit.status.elim hcomplete hpartial
  · rw [h.errors]
    exact readErrors_strings herrors hfit.error
  · rw [h.observedBytes]
    exact stringIntMap_countDocument hfit.observedBytes
  · rw [h.observedChunks]
    exact stringIntMap_countDocument hfit.observedChunks
  · rw [h.capturedBytes]
    exact stringIntMap_countDocument hfit.capturedBytes
  · rw [h.capturedChunks]
    exact stringIntMap_countDocument hfit.capturedChunks

theorem readJsonObject_line {path label : String} {content : Bytes} {maxBytes : Nat} {value : Json}
    (hcontent : content = value.dumps ++ [newline]) (hreadable : Readable value)
    (hobject : ∃ fields, value = .obj fields) (hsize : content.length ≤ maxBytes) :
    readJsonObject fmt path content maxBytes label = .ok value.sortKeys := by
  obtain ⟨fields, rfl⟩ := hobject
  simp only [readJsonObject, readRegularFile, bind_eq_ok, raiseIf_eq_ok, pure_eq_ok,
    parseJsonBytes_eq_ok]
  refine ⟨_, ⟨(), Nat.not_lt.mpr hsize, rfl⟩, (Json.obj fields).sortKeys, ?_, rfl⟩
  rw [hcontent]
  exact fmt.parseJson_line _ hreadable

theorem length_readyBytes {jobId : String} (huuid : IsUuid fmt jobId) (manifest : Bytes) :
    (readyBytes fmt jobId manifest).length ≤ maxMarkerBytes := by
  have hsize := Json.length_dumps_le (readyDocument jobId (fmt.sha256 manifest))
  have hkeys : Json.weightKeys ["schema_version", "job_id", "manifest_sha256"] = 222 := by decide
  have hone : (Json.num 1).weight = 1 := by decide
  simp only [readyDocument, Json.weight_obj, List.map_cons, List.map_nil, List.sum_cons,
    List.sum_nil, Json.weight_str, length_sha256, hkeys, hone] at hsize
  have hjob := huuid.length
  rw [readyBytes, List.length_append, List.length_singleton, maxMarkerBytes]
  unfold readyDocument
  omega

theorem readMarker_ready {job : JobDirectory} {jobId : String} (huuid : IsUuid fmt jobId)
    (hready : job.ready = readyBytes fmt jobId job.manifest) :
    readMarker fmt job = .ok (jobId, fmt.sha256 job.manifest) := by
  have hsize : job.ready.length ≤ maxMarkerBytes := by
    rw [hready]
    exact length_readyBytes huuid job.manifest
  have hdistinct := readyDocument_distinct jobId (fmt.sha256 job.manifest)
  simp only [readMarker, bind_eq_ok, raiseIf_eq_ok, pure_eq_ok, requireInt_eq_ok,
    requireUuid_eq_ok, requireSha256_eq_ok]
  refine ⟨_, readJsonObject_line hready (readyDocument_readable _ _) ⟨_, rfl⟩ hsize, 1, ⟨?_, by decide, by decide⟩,
    (), by simp, jobId, ⟨?_, huuid.nonempty, huuid.length, huuid.uuid⟩, _,
    ⟨?_, fmt.sha256_hex _⟩, rfl⟩
  all_goals
    rw [field_sortKeys hdistinct]
    simp [readyDocument, field, Json.get?, List.lookup_cons, Json.sortKeys]

theorem readManifest_line {job : JobDirectory} {manifest : Json}
    {descriptor : SessionDescriptor} {closedAtUtc : String} {closedNs : Int} {facts : CaptureFacts}
    (hmanifest : job.manifest = manifest.dumps ++ [newline]) (hreadable : Readable manifest)
    (hobject : ∃ fields, manifest = .obj fields)
    (hsize : job.manifest.length ≤ maxManifestBytes)
    (h : Describes fmt job manifest.sortKeys descriptor closedAtUtc closedNs facts) :
    readManifest fmt job (fmt.sha256 job.manifest) = .ok manifest.sortKeys := by
  simp only [readManifest, bind_eq_ok, raiseIf_eq_ok, pure_eq_ok, requireInt_eq_ok]
  exact ⟨_, readJsonObject_line hmanifest hreadable hobject hsize, (), not_not.mpr rfl, 1,
    ⟨h.schema, by decide, by decide⟩, (), by simp, (), not_not.mpr h.format, rfl⟩

/-! ## The session of a manifest -/

/-- What the adapter keeps of a descriptor. -/
def sessionFacts (fmt : Codec) (descriptor : SessionDescriptor) (client listener target : Endpoint)
    (closedAtUtc : String) : SessionFacts where
  identity := identityOf descriptor
  parser := descriptor.parser
  sourceEndpoint := client
  proxyEndpoint := listener
  deviceEndpoint := target
  openedAt := instant fmt descriptor.connectedAtUtc
  closedAt := instant fmt closedAtUtc

theorem sessionEndpoint_document {session : Json} {name : String} {source : String × Int}
    {e : Endpoint} (hfield : field session name = (endpointDocument source).sortKeys)
    (h : IsEndpoint fmt source e) : sessionEndpoint fmt session name = .ok e := by
  simp only [sessionEndpoint, bind_eq_ok, mapping_eq_ok, endpoint_eq_ok]
  refine ⟨_, ⟨rfl, _, hfield⟩, source.1, source.2.toNat, ?_, h.nonempty, h.length, h.address, ?_,
    by have := h.port; omega, by have := h.port; omega, ?_⟩
  · rw [hfield, field_sortKeys (endpointDocument_distinct source)]
    simp [endpointDocument, field, Json.get?, Json.sortKeys]
  · rw [hfield, field_sortKeys (endpointDocument_distinct source),
      Int.toNat_of_nonneg (by have := h.port; omega)]
    simp [endpointDocument, field, Json.get?, List.lookup_cons, Json.sortKeys]
  · rw [h.same, Int.toNat_of_nonneg (by have := h.port; omega)]

theorem readSession_document {adapter : Adapter} {job : JobDirectory} {manifest : Json}
    {descriptor : SessionDescriptor} {client listener target : Endpoint} {closedAtUtc : String}
    {closedNs : Int} {facts : CaptureFacts}
    (hregistered : Registered fmt adapter descriptor client listener target)
    (hdevice : job.deviceId = descriptor.deviceId)
    (h : Describes fmt job manifest descriptor closedAtUtc closedNs facts)
    (hclosed : IsTimestamp fmt closedAtUtc) (hns : 0 ≤ closedNs ∧ closedNs ≤ maxInt)
    (hclock : instant fmt descriptor.connectedAtUtc ≤ instant fmt closedAtUtc) :
    readSession fmt adapter job descriptor.jobId manifest =
      .ok ((descriptorDocument descriptor).sortKeys,
        sessionFacts fmt descriptor client listener target closedAtUtc) := by
  have htype : descriptor.deviceType ≠ "" ∧ descriptor.deviceType.length ≤ 16 := by
    rcases hregistered.deviceType with h | h <;> rw [h] <;> decide
  have hfield : ∀ key, field (descriptorDocument descriptor).sortKeys key =
      (field (descriptorDocument descriptor) key).sortKeys :=
    field_sortKeys (descriptorDocument_distinct descriptor)
  simp only [readSession, bind_eq_ok, raiseIf_eq_ok, pure_eq_ok, mapping_eq_ok, requireUuid_eq_ok,
    requireString_eq_ok, requireInt_eq_ok, resolveDevice_eq_ok]
  refine ⟨_, ⟨h.session.symm, _, h.session⟩, descriptor.jobId, ⟨?_, hregistered.jobId.nonempty,
    hregistered.jobId.length, hregistered.jobId.uuid⟩, (), not_not.mpr rfl, descriptor.sessionId,
    ⟨?_, hregistered.sessionId.nonempty, hregistered.sessionId.length, hregistered.sessionId.uuid⟩,
    descriptor.deviceId, ⟨?_, hregistered.deviceId⟩, (), not_not.mpr hdevice,
    descriptor.deviceType, ⟨?_, htype⟩, (), ?_, descriptor.parser, ⟨?_, hregistered.parser⟩,
    client, sessionEndpoint_document ?_ hregistered.clientEndpoint, listener,
    sessionEndpoint_document ?_ hregistered.listenerEndpoint, target,
    sessionEndpoint_document ?_ hregistered.targetEndpoint, descriptor.deviceId,
    hregistered.configured, (), not_not.mpr rfl, instant fmt descriptor.connectedAtUtc, ?_,
    descriptor.connectedMonotonicNs.toNat, ⟨?_, Nat.zero_le _, ?_⟩, instant fmt closedAtUtc, ?_,
    (), Int.not_lt.mpr hclock, closedNs.toNat, ⟨?_, Nat.zero_le _, ?_⟩, rfl⟩
  all_goals try
    rw [hfield]
    simp [descriptorDocument, field, Json.get?, List.lookup_cons, Json.sortKeys]
  · rintro ⟨hpos, hrch⟩
    exact hregistered.deviceType.elim hpos hrch
  · exact hregistered.connectedAt.parseDatetime _
  · exact hregistered.monotonic.1
  · have := hregistered.monotonic
    omega
  · rw [h.closedAt]
    exact hclosed.parseDatetime _
  · rw [h.closedNs, Int.toNat_of_nonneg hns.1]
  · omega

/-! ## The files -/

theorem fileSnapshot_facts {files : Json} {path name : String} {content : Bytes} {limit : Nat}
    (hfile : field files name = (fileFacts fmt name content).sortKeys)
    (hsize : content.length ≤ limit) :
    fileSnapshot fmt path name files content limit = .ok (fmt.sha256 content) := by
  have hfield : ∀ key, field (fileFacts fmt name content).sortKeys key =
      (field (fileFacts fmt name content) key).sortKeys :=
    field_sortKeys (fileFacts_distinct name content)
  simp only [fileSnapshot, readRegularFile, bind_eq_ok, raiseIf_eq_ok, pure_eq_ok, mapping_eq_ok,
    requireInt_eq_ok, requireSha256_eq_ok]
  refine ⟨_, ⟨hfile.symm, _, hfile⟩, (), ?_, content.length, ⟨?_, Nat.zero_le _, hsize⟩,
    fmt.sha256 content, ⟨?_, fmt.sha256_hex _⟩, _, ⟨(), Nat.not_lt.mpr hsize, rfl⟩, (),
    not_not.mpr rfl, (), not_not.mpr rfl, rfl⟩
  all_goals
    rw [hfield]
    simp [fileFacts, field, Json.get?, List.lookup_cons, Json.sortKeys]

def digestsOf (fmt : Codec) (job : JobDirectory) : FileDigests where
  client := fmt.sha256 job.raw.clientToDevice
  device := fmt.sha256 job.raw.deviceToClient
  timeline := fmt.sha256 job.timeline
  session := fmt.sha256 job.session

theorem readFiles_described {adapter : Adapter} {job : JobDirectory} {manifest : Json}
    {descriptor : SessionDescriptor} {closedAtUtc : String} {closedNs : Int} {facts : CaptureFacts}
    (h : Describes fmt job manifest descriptor closedAtUtc closedNs facts)
    (hsession : job.session = sessionBytes descriptor) (hlimits : WithinLimits adapter job) :
    readFiles fmt adapter job manifest (descriptorDocument descriptor).sortKeys =
      .ok (digestsOf fmt job) := by
  have hraw := hlimits.raw
  simp only [readFiles, bind_eq_ok, raiseIf_eq_ok, pure_eq_ok, mapping_eq_ok, parseJsonBytes_eq_ok]
  refine ⟨_, ⟨rfl, h.files⟩, _, fileSnapshot_facts h.clientRaw (by omega), _,
    fileSnapshot_facts h.deviceRaw (by omega), (), by omega, _,
    fileSnapshot_facts h.timelineFile hlimits.timeline, _,
    fileSnapshot_facts h.sessionFile hlimits.session,
    (sessionDocument (descriptorDocument descriptor)).sortKeys, ?_, (), ?_, rfl⟩
  · rw [hsession]
    exact fmt.parseJson_line _ (sessionDocument_readable descriptor)
  · rw [Json.sortKeys_idem]
    exact not_not.mpr (sessionDocument_sortKeys _).symm

/-! ## The job -/

/-- A job published for a registered device, with a manifest that describes it. -/
structure Published (fmt : Codec) (adapter : Adapter) (job : JobDirectory) (manifest : Json)
    (descriptor : SessionDescriptor) (client listener target : Endpoint) (closedAtUtc : String)
    (closedNs : Int) (facts : CaptureFacts) : Prop where
  registered : Registered fmt adapter descriptor client listener target
  device : job.deviceId = descriptor.deviceId
  ready : job.ready = readyBytes fmt descriptor.jobId job.manifest
  session : job.session = sessionBytes descriptor
  manifestBytes : job.manifest = manifest.dumps ++ [newline]
  readable : Readable manifest
  object : ∃ fields, manifest = .obj fields
  describes : Describes fmt job manifest.sortKeys descriptor closedAtUtc closedNs facts
  closedAt : IsTimestamp fmt closedAtUtc
  monotonic : 0 ≤ closedNs ∧ closedNs ≤ maxInt
  clock : instant fmt descriptor.connectedAtUtc ≤ instant fmt closedAtUtc
  limits : WithinLimits adapter job
  fit : FactsFit facts

variable {adapter : Adapter} {job : JobDirectory} {manifest : Json}
  {descriptor : SessionDescriptor} {client listener target : Endpoint} {closedAtUtc : String}
  {closedNs : Int} {facts : CaptureFacts}

/-- The envelope of a described job with the chunks of its timeline. -/
def envelopeOf (fmt : Codec) (adapter : Adapter) (job : JobDirectory) (manifest : Json)
    (descriptor : SessionDescriptor) (client listener target : Endpoint) (closedAtUtc : String)
    (facts : CaptureFacts) (chunks : List StreamChunk) : NormalizedEnvelope :=
  envelope fmt adapter job (fmt.sha256 job.manifest) manifest.sortKeys
    (sessionFacts fmt descriptor client listener target closedAtUtc) (digestsOf fmt job) facts chunks

/-- Up to the facts of the manifest every check passes. -/
theorem load_readFacts (h : Published fmt adapter job manifest descriptor client listener target
    closedAtUtc closedNs facts) :
    load fmt adapter job = (do
      let facts ← readFacts manifest.sortKeys
      let chunks ← parseTimeline fmt job.timeline job.raw (identityOf descriptor) manifest.sortKeys
        facts.allowTrailingRaw
      raiseIf (facts.complete = true ∧ facts.Contradicts)
        "canonical COMPLETE status contradicts capture evidence"
      return envelopeOf fmt adapter job manifest descriptor client listener target closedAtUtc
        facts chunks) := by
  unfold load
  rw [readMarker_ready h.registered.jobId h.ready, ok_bind]
  dsimp only
  rw [readManifest_line h.manifestBytes h.readable h.object h.limits.manifest h.describes, ok_bind,
    readSession_document h.registered h.device h.describes h.closedAt h.monotonic h.clock, ok_bind]
  dsimp only
  rw [readFiles_described h.describes h.session h.limits, ok_bind]
  rfl

/-- A described job is read exactly when its errors are few enough, its timeline
is, and nothing contradicts a complete status. -/
theorem load_eq_ok (h : Published fmt adapter job manifest descriptor client listener target
    closedAtUtc closedNs facts) {result : NormalizedEnvelope} :
    load fmt adapter job = .ok result ↔
      facts.errors.length ≤ 1000 ∧ ∃ chunks,
        parseTimeline fmt job.timeline job.raw (identityOf descriptor) manifest.sortKeys
          facts.allowTrailingRaw = .ok chunks ∧
        ¬(facts.complete = true ∧ facts.Contradicts) ∧
        envelopeOf fmt adapter job manifest descriptor client listener target closedAtUtc facts
          chunks = result := by
  rw [load_readFacts h]
  by_cases herrors : facts.errors.length ≤ 1000
  · rw [h.describes.readFacts h.fit herrors, ok_bind]
    simp only [bind_eq_ok, raiseIf_eq_ok, pure_eq_ok]
    constructor
    · rintro ⟨chunks, hchunks, -, hcontradicts, hresult⟩
      exact ⟨herrors, chunks, hchunks, hcontradicts, hresult⟩
    · rintro ⟨-, chunks, hchunks, hcontradicts, hresult⟩
      exact ⟨chunks, hchunks, (), hcontradicts, hresult⟩
  · have hreject : readErrors (field manifest.sortKeys "errors") =
        .error "manifest.errors must be a bounded array" := by
      rw [h.describes.errors, readErrors, raiseIf, if_pos]
      · rfl
      · rw [List.length_map]
        exact Nat.lt_of_not_le herrors
    constructor
    · intro hload
      obtain ⟨facts', hfacts, -⟩ := bind_eq_ok.mp hload
      simp only [readFacts, bind_eq_ok, hreject] at hfacts
      obtain ⟨_, _, _, _, _, _, _, _, _, herror, _⟩ := hfacts
      cases herror
    · rintro ⟨hle, -⟩
      exact absurd hle herrors

@[simp] theorem envelopeOf_requestRaw {chunks : List StreamChunk} :
    (envelopeOf fmt adapter job manifest descriptor client listener target closedAtUtc facts
      chunks).content .requestRaw = some (job.raw.get .clientToDevice) := rfl

@[simp] theorem envelopeOf_responseRaw {chunks : List StreamChunk} :
    (envelopeOf fmt adapter job manifest descriptor client listener target closedAtUtc facts
      chunks).content .responseRaw = some (job.raw.get .deviceToClient) := rfl

/-! ## The totals of a timeline -/

/-- What a manifest counts of its timeline. -/
structure Totals where
  timelineEvents : Nat
  lastEvent : Option String
  capturedBytes : ByDirection Nat
  capturedChunks : ByDirection Nat
  eofEvents : ByDirection Nat
deriving DecidableEq

structure Counts (manifest : Json) (totals : Totals) : Prop where
  timelineEvents : field manifest "timeline_events" = .num totals.timelineEvents
  lastEvent : field manifest "last_event_sha256" = optionalText totals.lastEvent
  capturedBytes : field manifest "captured_bytes" = (countDocument totals.capturedBytes).sortKeys
  capturedChunks : field manifest "captured_chunks" = (countDocument totals.capturedChunks).sortKeys
  eofEvents : field manifest "eof_events" = (countDocument totals.eofEvents).sortKeys

structure Totals.Fit (totals : Totals) : Prop where
  capturedBytes : CountsFit totals.capturedBytes
  capturedChunks : CountsFit totals.capturedChunks
  eofEvents : CountsFit totals.eofEvents

/-- Every observed sequence below the number of events, each of them once. -/
def Contiguous (state : TimelineState) : Prop :=
  (∀ n ∈ state.observedSequences, n < state.events.length) ∧
    ∀ n ∈ List.range state.events.length, n ∈ state.observedSequences

/-- The bytes the timeline covers are the captured ones, or a recovered part of
them that the manifest states. -/
def Covers (manifest : Json) (allowTrailingRaw : Bool) (offsets capturedBytes : ByDirection Nat) :
    Prop :=
  offsets = capturedBytes ∨
    (allowTrailingRaw = true ∧
      stringIntMap (field manifest "timeline_covered_bytes") "manifest.timeline_covered_bytes" =
        .ok offsets ∧
      ∀ direction, offsets.get direction ≤ capturedBytes.get direction)

theorem optionalText_injective : Function.Injective optionalText := by
  intro a b h
  cases a <;> cases b <;> simp_all [optionalText]

theorem lengths_eq (raw : ByDirection Bytes) (counts : ByDirection Nat) :
    (⟨raw.clientToDevice.length, raw.deviceToClient.length⟩ : ByDirection Nat) = counts ↔
      ∀ direction, (raw.get direction).length = counts.get direction := by
  constructor
  · rintro rfl direction
    cases direction <;> rfl
  · intro h
    exact ByDirection.ext (h .clientToDevice) (h .deviceToClient)

theorem checkCoverage_eq_ok {manifest : Json} {allowTrailingRaw : Bool}
    {offsets capturedBytes : ByDirection Nat} {u : Unit} :
    checkCoverage manifest allowTrailingRaw offsets capturedBytes = .ok u ↔
      Covers manifest allowTrailingRaw offsets capturedBytes := by
  unfold checkCoverage Covers
  by_cases hsame : offsets = capturedBytes
  · simp [hsame]
  · simp only [if_neg hsame, bind_eq_ok, raiseIf_eq_ok]
    constructor
    · rintro ⟨-, hallow, covered, hcovered, hbounds⟩
      obtain ⟨hoffsets, hclient, hdevice⟩ : offsets = covered ∧
          offsets.clientToDevice ≤ capturedBytes.clientToDevice ∧
          offsets.deviceToClient ≤ capturedBytes.deviceToClient := by
        simpa [not_or, Nat.not_lt] using hbounds
      refine Or.inr ⟨by simpa using hallow, hoffsets ▸ hcovered, fun direction => ?_⟩
      cases direction
      · exact hclient
      · exact hdevice
    · rintro (h | ⟨hallow, hcovered, hbounds⟩)
      · exact absurd h hsame
      · refine ⟨(), by simp [hallow], offsets, hcovered, ?_⟩
        rintro (hne | hlt | hlt)
        · exact hne rfl
        · exact absurd (hbounds .clientToDevice) (Nat.not_le.mpr hlt)
        · exact absurd (hbounds .deviceToClient) (Nat.not_le.mpr hlt)

/-- The totals of a manifest are accepted exactly when they are those of the
timeline and of the raw files. -/
theorem checkTotals_eq_ok {streams : ByDirection Bytes} {manifest : Json} {totals : Totals}
    {allowTrailingRaw : Bool} {state : TimelineState} (h : Counts manifest totals)
    (hfit : totals.Fit) :
    checkTotals streams manifest allowTrailingRaw state = .ok () ↔
      totals.timelineEvents ≤ maxTimelineEvents ∧
      state.events.length = totals.timelineEvents ∧ state.previousHash = totals.lastEvent ∧
      (∀ direction, (streams.get direction).length = totals.capturedBytes.get direction) ∧
      Covers manifest allowTrailingRaw state.offsets totals.capturedBytes ∧
      state.dataCounts = totals.capturedChunks ∧ state.eofCounts = totals.eofEvents ∧
      (field manifest "status" = .str "COMPLETE" → Contiguous state) := by
  have hbytes : stringIntMap (field manifest "captured_bytes") "manifest.captured_bytes" =
      .ok totals.capturedBytes := by
    rw [h.capturedBytes, stringIntMap_countDocument hfit.capturedBytes]
  have hchunks : stringIntMap (field manifest "captured_chunks") "manifest.captured_chunks" =
      .ok totals.capturedChunks := by
    rw [h.capturedChunks, stringIntMap_countDocument hfit.capturedChunks]
  have heofs : stringIntMap (field manifest "eof_events") "manifest.eof_events" =
      .ok totals.eofEvents := by
    rw [h.eofEvents, stringIntMap_countDocument hfit.eofEvents]
  unfold checkTotals
  simp only [bind_eq_ok, raiseIf_eq_ok, hbytes, hchunks, heofs, checkCoverage_eq_ok,
    requireInt_eq_ok, h.timelineEvents, h.lastEvent, Except.ok.injEq, not_not]
  constructor
  · rintro ⟨n, ⟨hn, -, hmax⟩, -, hlength, -, hlast, _, rfl, -, hlengths, -, hcovers, _, rfl, -,
      hdata, _, rfl, -, heof, hcomplete⟩
    have hn : totals.timelineEvents = n := Int.ofNat.inj (Json.num.inj hn)
    refine ⟨hn ▸ hmax, hlength.trans hn.symm, (optionalText_injective hlast).symm,
      (lengths_eq _ _).mp hlengths.symm, hcovers, hdata, heof, fun hstatus => ?_⟩
    exact not_not.mp fun hgap => hcomplete ⟨hstatus, hgap⟩
  · rintro ⟨hmax, hlength, hlast, hlengths, hcovers, hdata, heof, hcomplete⟩
    refine ⟨totals.timelineEvents, ⟨rfl, Nat.zero_le _, hmax⟩, (), hlength, (),
      congrArg optionalText hlast.symm, _, rfl, (), ((lengths_eq _ _).mpr hlengths).symm, (),
      hcovers, _, rfl, (), hdata, _, rfl, (), heof, ?_⟩
    rintro ⟨hstatus, hgap⟩
    exact hgap (hcomplete hstatus)

end

end RetailPrintGuard.Ingestion.Reading
