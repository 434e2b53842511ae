import RetailPrintGuard.Library.Tiling
import RetailPrintGuard.Ingestion.Rch
import RetailPrintGuard.Ingestion.RoundTrip

/-! # Complete timelines tile the raw streams

The parsers keep, for each direction, where the chunks so far end. -/
namespace RetailPrintGuard.Ingestion.Tilings
open RetailPrintGuard.Library RetailPrintGuard.Library.Checks RetailPrintGuard.Library.Tiling
open RetailPrintGuard.Common.Formats RetailPrintGuard.Ingestion.Dto
open RetailPrintGuard.Proxy.Spool (JobDirectory)

/-- The offset and the length of each chunk. -/
def pieces (chunks : List StreamChunk) : List (Nat × Nat) :=
  chunks.map fun chunk => (chunk.jobOffset, chunk.byteCount)

def inDirection (direction : Direction) (chunks : List StreamChunk) : List StreamChunk :=
  chunks.filter fun chunk => chunk.direction = direction

/-- The chunks of each direction follow each other up to an offset. -/
def Follow (chunks : List StreamChunk) (offsets : ByDirection Nat) : Prop :=
  ∀ direction, Contiguous 0 (pieces (inDirection direction chunks)) (offsets.get direction)

theorem follow_nil : Follow [] (.const 0) := fun direction => by
  rw [ByDirection.get_const]
  rfl

theorem pieces_concat {direction : Direction} {chunks : List StreamChunk} {chunk : StreamChunk} :
    pieces (inDirection direction (chunks ++ [chunk])) =
      pieces (inDirection direction chunks) ++
        if chunk.direction = direction then [(chunk.jobOffset, chunk.byteCount)] else [] := by
  rw [pieces, inDirection, List.filter_append, List.map_append]
  congr 1
  by_cases h : chunk.direction = direction <;> simp [h]

/-- A chunk that starts where its direction ends moves that end. -/
theorem Follow.concat {chunks : List StreamChunk} {offsets : ByDirection Nat}
    (h : Follow chunks offsets) {chunk : StreamChunk}
    (hoffset : chunk.jobOffset = offsets.get chunk.direction) :
    Follow (chunks ++ [chunk])
      (offsets.set chunk.direction (chunk.jobOffset + chunk.byteCount)) := by
  intro direction
  rw [pieces_concat, ByDirection.get_set]
  by_cases heq : direction = chunk.direction
  · rw [if_pos heq.symm, if_pos heq, hoffset, ← heq]
    exact (h direction).concat chunk.byteCount
  · rw [if_neg (Ne.symm heq), if_neg heq, List.append_nil]
    exact h direction

theorem set_get (values : ByDirection Nat) (direction : Direction) :
    values.set direction (values.get direction) = values := by
  cases direction <;> rfl

section
variable {fmt : Codec}

/-! ## RCH captures -/

section
open RetailPrintGuard.Ingestion.Rch

variable {streams : ByDirection Bytes} {sessionId connectionId : String}

/-- A line of a complete timeline adds a chunk where its direction ends. -/
theorem rch_parseLine {state state' : TimelineState} {lineNumber : Nat} {rawLine : Bytes}
    (h : parseLine fmt streams true sessionId connectionId state lineNumber rawLine = .ok state') :
    ∃ chunk, state' = state.add chunk ∧
      chunk.jobOffset = state.directionOffsets.get chunk.direction := by
  simp only [parseLine, bind_eq_ok, pure_eq_ok] at h
  obtain ⟨-, -, value, -, event, -, position, hposition, chunk, hchunk, rfl⟩ := h
  refine ⟨chunk, rfl, ?_⟩
  have hoffset : position.offset = state.directionOffsets.get position.direction := by
    simp only [readPosition, bind_eq_ok, pure_eq_ok, raiseIf_eq_ok] at hposition
    obtain ⟨_, -, _, -, _, -, direction, -, offset, -, _, -, _, -, _, -, _, hoffset, _, -, rfl⟩ :=
      hposition
    exact not_not.mp fun hne => hoffset ⟨trivial, hne⟩
  simp only [readChunk, bind_eq_ok, pure_eq_ok] at hchunk
  obtain ⟨_, -, _, -, _, -, _, -, _, -, _, -, _, -, _, -, _, -, _, -, rfl⟩ := hchunk
  exact hoffset

theorem rch_parseLines {state state' : TimelineState} {lineNumber : Nat} {lines : List Bytes}
    (hfollow : Follow state.events state.directionOffsets)
    (h : parseLines fmt streams true sessionId connectionId state lineNumber lines = .ok state') :
    Follow state'.events state'.directionOffsets := by
  induction lines generalizing state lineNumber with
  | nil =>
    cases h
    exact hfollow
  | cons line lines ih =>
    obtain ⟨next, hline, hrest⟩ := bind_eq_ok.mp h
    obtain ⟨chunk, rfl, hoffset⟩ := rch_parseLine hline
    exact ih (hfollow.concat hoffset) hrest

/-- The chunks of a complete timeline end where the raw streams end. -/
theorem rch_parseTimeline {content : Bytes} {expectedCount : Nat} {chunks : List StreamChunk}
    (h : parseTimeline fmt content streams expectedCount true sessionId connectionId =
      .ok chunks) :
    Follow chunks ⟨streams.clientToDevice.length, streams.deviceToClient.length⟩ := by
  simp only [parseTimeline, bind_eq_ok, pure_eq_ok, raiseIf_eq_ok] at h
  obtain ⟨-, -, state, hlines, -, -, -, hcover, rfl⟩ := h
  have hend : state.directionOffsets =
      ⟨streams.clientToDevice.length, streams.deviceToClient.length⟩ :=
    not_not.mp fun hne => hcover ⟨trivial, hne⟩
  rw [← hend]
  exact rch_parseLines follow_nil hlines

/-- A capture that is accepted as complete has the tiled streams as its artifacts. -/
theorem rch_load {adapter : Adapter} {directory : SourceDirectory} {envelope : NormalizedEnvelope}
    (h : load fmt adapter directory = .ok envelope) (hcomplete : envelope.complete = true)
    (direction : Direction) :
    ∃ raw, envelope.content (rawRole direction) = some raw ∧
      Tiles raw (pieces (envelope.stream direction)) := by
  simp only [load, bind_eq_ok, pure_eq_ok] at h
  obtain ⟨binding, hbinding, _, -, _, -, _, -, _, -, _, -, _, -, _, -, rfl⟩ := h
  have hbinding := checked_eq_ok.mp hbinding
  simp only [captureBinding, bind_eq_ok, pure_eq_ok, raiseIf_eq_ok, if_true] at hbinding
  obtain ⟨-, -, ⟨ready, manifestHash⟩, -, ⟨manifestRaw, manifest⟩, -, facts, -, files, -, chunks,
    htimeline, rfl⟩ := hbinding
  have htimelineComplete : facts.timelineComplete = true := (Bool.and_eq_true_iff.mp hcomplete).2
  rw [htimelineComplete] at htimeline
  have hfollow := rch_parseTimeline htimeline direction
  cases direction with
  | clientToDevice => exact ⟨files.requestRaw.content, rfl, hfollow.tiles⟩
  | deviceToClient => exact ⟨files.responseRaw.content, rfl, hfollow.tiles⟩

end

/-! ## Canonical captures -/

section
open RetailPrintGuard.Ingestion.Canonical

variable {identity : Identity} {streams : ByDirection Bytes}

/-- A line adds a chunk where its direction ends, without bytes if it is an EOF. -/
theorem canonical_parseLine {state state' : TimelineState} {lineNumber : Nat} {rawLine : Bytes}
    (h : parseLine fmt identity streams state lineNumber rawLine = .ok state') :
    ∃ eventHash chunk, state' = state.add eventHash chunk ∧
      chunk.jobOffset = state.offsets.get chunk.direction ∧
      (chunk.eventKind ≠ "data" → chunk.byteCount = 0) := by
  simp only [parseLine, bind_eq_ok, pure_eq_ok] at h
  obtain ⟨⟨event, eventHash⟩, -, -, -, position, -, extent, hextent, chunk, hchunk, rfl⟩ := h
  refine ⟨eventHash, chunk, rfl, ?_⟩
  have hplace : extent.offset = state.offsets.get position.direction ∧
      (extent.kind ≠ "data" → extent.length = 0) := by
    simp only [readExtent, bind_eq_ok, pure_eq_ok, raiseIf_eq_ok] at hextent
    obtain ⟨kind, -, _, hkind, offset, -, length, -, _, hoffset, _, -, _, heof, _, -, _, -, _, -,
      rfl⟩ := hextent
    refine ⟨not_not.mp hoffset, fun hdata => ?_⟩
    have heofKind : kind = "eof" := not_not.mp fun hne => hkind ⟨hdata, hne⟩
    exact not_not.mp fun hne => heof ⟨heofKind, hne⟩
  simp only [readChunk, bind_eq_ok, pure_eq_ok] at hchunk
  obtain ⟨_, -, _, -, _, -, _, -, _, -, rfl⟩ := hchunk
  exact hplace

theorem canonical_parseLines {state state' : TimelineState} {lineNumber : Nat} {lines : List Bytes}
    (hfollow : Follow (state.events.map canonicalChunk) state.offsets)
    (h : parseLines fmt identity streams state lineNumber lines = .ok state') :
    Follow (state'.events.map canonicalChunk) state'.offsets := by
  induction lines generalizing state lineNumber with
  | nil =>
    cases h
    exact hfollow
  | cons line lines ih =>
    obtain ⟨next, hline, hrest⟩ := bind_eq_ok.mp h
    obtain ⟨eventHash, chunk, rfl, hoffset, heof⟩ := canonical_parseLine hline
    refine ih ?_ hrest
    have hnext := @Follow.concat _ _ hfollow (canonicalChunk chunk) hoffset
    show Follow ((state.events ++ [chunk]).map canonicalChunk) (if _ then _ else _)
    rw [List.map_append, List.map_singleton]
    split
    · rw [← hoffset]
      exact hnext
    · next hkind =>
      -- an EOF stands at the end of its direction, which stays
      have hstay : (canonicalChunk chunk).jobOffset + (canonicalChunk chunk).byteCount =
          state.offsets.get (canonicalChunk chunk).direction := by
        show chunk.jobOffset + chunk.byteCount = _
        rw [heof hkind, Nat.add_zero]
        exact hoffset
      rwa [hstay, set_get] at hnext

theorem canonical_parseTimeline {raw : Bytes} {manifest : Json}
    {chunks : List Canonical.StreamChunk}
    (h : parseTimeline fmt raw streams identity manifest false = .ok chunks) :
    Follow (chunks.map canonicalChunk)
      ⟨streams.clientToDevice.length, streams.deviceToClient.length⟩ := by
  simp only [parseTimeline, bind_eq_ok, pure_eq_ok, raiseIf_eq_ok] at h
  obtain ⟨-, -, -, -, state, hlines, _, htotals, rfl⟩ := h
  simp only [checkTotals, bind_eq_ok, raiseIf_eq_ok] at htotals
  obtain ⟨_, -, _, -, _, -, capturedBytes, -, _, hraw, _, hcover, -⟩ := htotals
  have hend : state.offsets = capturedBytes := by
    unfold checkCoverage at hcover
    split at hcover
    · next heq => exact heq
    · -- bytes without a chunk are not allowed
      obtain ⟨_, hallowed, -⟩ := bind_eq_ok.mp hcover
      exact absurd rfl (raiseIf_eq_ok.mp hallowed)
  rw [← not_not.mp hraw, ← hend]
  exact canonical_parseLines (show Follow (List.map canonicalChunk []) _ from follow_nil) hlines

theorem canonical_load {adapter : Adapter} {job : JobDirectory}
    {envelope : Canonical.NormalizedEnvelope} (h : load fmt adapter job = .ok envelope)
    (hcomplete : envelope.complete = true) (direction : Direction) :
    ∃ raw, (canonicalEnvelope envelope).content (rawRole direction) = some raw ∧
      Tiles raw (pieces ((canonicalEnvelope envelope).stream direction)) := by
  simp only [load, bind_eq_ok, pure_eq_ok] at h
  obtain ⟨⟨jobId, manifestHash⟩, -, manifest, -, ⟨session, descriptor⟩, -, digests, -, facts, -,
    chunks, htimeline, -, -, rfl⟩ := h
  have hstrict : facts.allowTrailingRaw = false := by
    have hstatus : facts.status = "COMPLETE" := by
      have hall : facts.complete = true := hcomplete
      simp only [CaptureFacts.complete, Bool.and_eq_true, beq_iff_eq] at hall
      exact hall.1.1
    rw [CaptureFacts.allowTrailingRaw, hstatus]
    rfl
  rw [hstrict] at htimeline
  have hfollow := canonical_parseTimeline htimeline direction
  cases direction with
  | clientToDevice => exact ⟨job.raw.clientToDevice, rfl, hfollow.tiles⟩
  | deviceToClient => exact ⟨job.raw.deviceToClient, rfl, hfollow.tiles⟩

end

/-! ## Both adapters -/

/-- A capture an adapter accepts. -/
inductive Accepted (fmt : Codec) : NormalizedEnvelope → Prop
  | canonical {adapter : Canonical.Adapter} {job : JobDirectory}
      {envelope : Canonical.NormalizedEnvelope}
      (h : Canonical.load fmt adapter job = .ok envelope) :
      Accepted fmt (canonicalEnvelope envelope)
  | rch {adapter : Rch.Adapter} {directory : Rch.SourceDirectory} {envelope : NormalizedEnvelope}
      (h : Rch.load fmt adapter directory = .ok envelope) : Accepted fmt envelope

/-- The chunks of a complete capture tile the raw payload of each direction. -/
theorem complete_tiles {envelope : NormalizedEnvelope} (h : Accepted fmt envelope)
    (hcomplete : envelope.complete = true) (direction : Direction) :
    ∃ raw, envelope.content (rawRole direction) = some raw ∧
      Tiles raw (pieces (envelope.stream direction)) := by
  cases h with
  | canonical h => exact canonical_load h hcomplete direction
  | rch h => exact rch_load h hcomplete direction

end

section
open RetailPrintGuard.Common.Runtime (runtime)
open RetailPrintGuard.Ingestion.RoundTrip RetailPrintGuard.Proxy.Spool

theorem sample_tiles : ∃ envelope,
    Canonical.load runtime sampleAdapter (finalize runtime sampleSpool sampleClosing) =
      .ok envelope ∧
    ∀ direction, ∃ raw, (canonicalEnvelope envelope).content (rawRole direction) = some raw ∧
      Tiles raw (pieces ((canonicalEnvelope envelope).stream direction)) := by
  have hsaved : sampleSpool.complete sampleClosing = true := by decide +kernel
  exact ⟨_, sample_load,
    complete_tiles (.canonical sample_load) ((complete_iff sample_summarised).1.mpr hsaved)⟩

end

end RetailPrintGuard.Ingestion.Tilings
