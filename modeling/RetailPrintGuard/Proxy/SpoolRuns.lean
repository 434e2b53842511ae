import RetailPrintGuard.Proxy.Spool

/-! # Runs of the writer

What a session directory holds after a sequence of events: the payloads of each
direction, and one line for each event, chained by its hash. -/
namespace RetailPrintGuard.Proxy.SpoolRuns
open RetailPrintGuard.Library RetailPrintGuard.Common.Formats RetailPrintGuard.Proxy.Spool

/-- The payloads of a direction, one after the other. -/
def payloads (events : List CaptureEvent) (direction : Direction) : Bytes :=
  (events.filter fun event => event.direction = direction).flatMap CaptureEvent.payload

@[simp] theorem payloads_nil (direction : Direction) : payloads [] direction = [] := rfl

theorem payloads_cons (event : CaptureEvent) (events : List CaptureEvent) (direction : Direction) :
    payloads (event :: events) direction =
      (if direction = event.direction then event.payload else []) ++ payloads events direction := by
  unfold payloads
  by_cases h : event.direction = direction
  · rw [List.filter_cons_of_pos (by simpa using h), List.flatMap_cons, if_pos h.symm]
  · rw [List.filter_cons_of_neg (by simpa using h), if_neg (Ne.symm h), List.nil_append]

def joinLines (lines : List Bytes) : Bytes := lines.flatMap fun line => line ++ [newline]

theorem joinLines_cons (line : Bytes) (lines : List Bytes) :
    joinLines (line :: lines) = line ++ [newline] ++ joinLines lines := rfl

/-- A line without its end is told by its last byte. -/
theorem getLast?_torn {text line : Bytes} {count : Nat} (hline : ∀ byte ∈ line, 32 ≤ byte)
    (hcount : count ≤ line.length) (htaken : (line ++ [newline]).take count ≠ []) :
    (text ++ (line ++ [newline]).take count).getLast? ≠ some newline := by
  rw [List.take_append_of_le_length hcount] at htaken ⊢
  rw [List.getLast?_append_of_ne_nil _ htaken]
  intro hlast
  have hbyte := hline newline (List.mem_of_mem_take (List.mem_of_getLast? hlast))
  exact absurd hbyte (by decide)

section
variable (fmt : Codec)

/-- The lines of a run of events, without their line feeds. -/
def timelineTexts (descriptor : SessionDescriptor) :
    Option String → List CaptureEvent → List Bytes
  | _, [] => []
  | previous, event :: events =>
    (timelineEntry fmt descriptor previous event).dumps ::
      timelineTexts descriptor (some (eventSha256 fmt descriptor previous event)) events

@[simp] theorem length_timelineTexts (descriptor : SessionDescriptor) (previous : Option String)
    (events : List CaptureEvent) :
    (timelineTexts fmt descriptor previous events).length = events.length := by
  induction events generalizing previous with
  | nil => rfl
  | cons event events ih => rw [timelineTexts, List.length_cons, ih, List.length_cons]

/-- The directory after events that were all accepted and written. -/
def appendAll : SessionSpool → List CaptureEvent → Option SessionSpool
  | spool, [] => some spool
  | spool, event :: events =>
    match append fmt spool event none with
    | (spool, none) => appendAll spool events
    | (_, some _) => none

/-! ## One event -/

/-- What an accepted event is, and what it leaves. -/
structure Accepted (spool : SessionSpool) (event : CaptureEvent) : Prop where
  opened : spool.closed = false
  sequence : event.sequence = spool.nextSequence
  directionSequence : event.directionSequence = spool.nextDirectionSequence.get event.direction
  offset : event.offset = spool.capturedBytes.get event.direction
  kind : event.kind = "data" ∨ event.kind = "eof"
  empty : event.kind = "eof" → event.payload = []

theorem appendError_eq_none {spool : SessionSpool} {event : CaptureEvent} :
    appendError spool event = none ↔ Accepted spool event := by
  simp only [appendError]
  constructor
  · intro h
    split at h
    · cases h
    next hopen =>
    split at h
    · cases h
    next hsequence =>
    split at h
    · cases h
    next hdirection =>
    split at h
    · cases h
    next hoffset =>
    split at h
    · cases h
    next hkind =>
    split at h
    · cases h
    next hempty =>
    refine ⟨by simpa using hopen, not_not.mp hsequence, not_not.mp hdirection, not_not.mp hoffset,
      ?_, fun heof => ?_⟩
    · by_cases hdata : event.kind = "data"
      · exact Or.inl hdata
      · exact Or.inr (not_not.mp fun heof => hkind ⟨hdata, heof⟩)
    · exact not_not.mp fun hne => hempty ⟨heof, hne⟩
  · intro h
    rw [if_neg (by simp [h.opened]), if_neg (not_not.mpr h.sequence),
      if_neg (not_not.mpr h.directionSequence), if_neg (not_not.mpr h.offset), if_neg, if_neg]
    · rintro ⟨heof, hne⟩
      exact hne (h.empty heof)
    · rintro ⟨hdata, heof⟩
      rcases h.kind with hkind | hkind
      · exact hdata hkind
      · exact heof hkind

/-- The directory after an event that was written. -/
def written (spool : SessionSpool) (event : CaptureEvent) : SessionSpool :=
  ((spool.writeRaw event.direction event.payload).writeTimeline
    (timelineLine fmt spool.descriptor spool.previousEventSha256 event)).count fmt event

theorem append_none {spool spool' : SessionSpool} {event : CaptureEvent} :
    append fmt spool event none = (spool', none) ↔
      Accepted spool event ∧ spool' = written fmt spool event := by
  unfold append
  rw [← appendError_eq_none]
  split
  · next error herror => simp [herror]
  · next hnone => simp [hnone, written, eq_comm]

theorem appendAll_cons {spool spool' : SessionSpool} {event : CaptureEvent}
    {events : List CaptureEvent} :
    appendAll fmt spool (event :: events) = some spool' ↔
      Accepted spool event ∧ appendAll fmt (written fmt spool event) events = some spool' := by
  rw [appendAll]
  split
  · next spool₁ happend =>
    obtain ⟨haccepted, rfl⟩ := (append_none fmt).mp happend
    exact ⟨fun h => ⟨haccepted, h⟩, fun h => h.2⟩
  · next spool₁ error happend =>
    constructor
    · intro h
      cases h
    · rintro ⟨haccepted, -⟩
      rw [(append_none fmt).mpr ⟨haccepted, rfl⟩] at happend
      cases happend

/-! ## The counters of a directory agree with its files -/

structure Consistent (spool : SessionSpool) : Prop where
  capturedBytes : ∀ direction,
    (spool.raw.get direction).length = spool.capturedBytes.get direction
  timelineEvents : spool.timelineEvents = spool.nextSequence
  directionSequence : ∀ direction,
    spool.nextDirectionSequence.get direction ≤ spool.nextSequence
  capturedChunks : ∀ direction, spool.capturedChunks.get direction ≤ spool.nextSequence
  eofEvents : ∀ direction, spool.eofEvents.get direction ≤ spool.nextSequence
  opened : spool.closed = false
  errors : spool.errors = []

theorem consistent_fresh (descriptor : SessionDescriptor) : Consistent { descriptor } where
  capturedBytes direction := by cases direction <;> rfl
  timelineEvents := rfl
  directionSequence direction := by cases direction <;> exact Nat.le_refl _
  capturedChunks direction := by cases direction <;> exact Nat.le_refl _
  eofEvents direction := by cases direction <;> exact Nat.le_refl _
  opened := rfl
  errors := rfl

@[simp] theorem written_descriptor (spool : SessionSpool) (event : CaptureEvent) :
    (written fmt spool event).descriptor = spool.descriptor := rfl

@[simp] theorem written_raw (spool : SessionSpool) (event : CaptureEvent) :
    (written fmt spool event).raw =
      spool.raw.set event.direction (spool.raw.get event.direction ++ event.payload) := rfl

@[simp] theorem written_timeline (spool : SessionSpool) (event : CaptureEvent) :
    (written fmt spool event).timeline =
      spool.timeline ++ timelineLine fmt spool.descriptor spool.previousEventSha256 event := rfl

@[simp] theorem written_previous (spool : SessionSpool) (event : CaptureEvent) :
    (written fmt spool event).previousEventSha256 =
      some (eventSha256 fmt spool.descriptor spool.previousEventSha256 event) := rfl

@[simp] theorem written_nextSequence (spool : SessionSpool) (event : CaptureEvent) :
    (written fmt spool event).nextSequence = spool.nextSequence + 1 := rfl

/-- An end of stream has no bytes, so the counted bytes grow by the payload in
both kinds. -/
theorem written_capturedBytes {spool : SessionSpool} {event : CaptureEvent}
    (h : Accepted spool event) (direction : Direction) :
    (written fmt spool event).capturedBytes.get direction =
      if direction = event.direction then
        spool.capturedBytes.get event.direction + event.payload.length
      else spool.capturedBytes.get direction := by
  by_cases hdata : event.kind = "data"
  · have hcaptured : (written fmt spool event).capturedBytes =
        spool.capturedBytes.set event.direction
          (spool.capturedBytes.get event.direction + event.payload.length) := if_pos hdata
    rw [hcaptured, ByDirection.get_set]
  · have hcaptured : (written fmt spool event).capturedBytes = spool.capturedBytes := if_neg hdata
    rw [hcaptured, h.empty (h.kind.resolve_left hdata)]
    split
    · next heq => rw [heq, List.length_nil, Nat.add_zero]
    · rfl

/-- A counter that an event increases by at most one stays below the events. -/
theorem get_set_succ_le {counts : ByDirection Nat} {direction : Direction} {n : Nat}
    (h : ∀ direction, counts.get direction ≤ n) (other : Direction) :
    (counts.set direction (counts.get direction + 1)).get other ≤ n + 1 := by
  rw [ByDirection.get_set]
  split
  · exact Nat.succ_le_succ (h direction)
  · exact Nat.le_succ_of_le (h other)

theorem Consistent.written {spool : SessionSpool} {event : CaptureEvent} (hs : Consistent spool)
    (h : Accepted spool event) : Consistent (written fmt spool event) where
  capturedBytes direction := by
    rw [written_capturedBytes fmt h, written_raw, ByDirection.get_set]
    split
    · rw [List.length_append, hs.capturedBytes]
    · exact hs.capturedBytes direction
  timelineEvents := congrArg (· + 1) hs.timelineEvents
  directionSequence direction := get_set_succ_le hs.directionSequence direction
  capturedChunks direction := by
    show (if event.kind = "data" then _ else _ : ByDirection Nat).get direction ≤ _
    split
    · exact get_set_succ_le hs.capturedChunks direction
    · exact Nat.le_succ_of_le (hs.capturedChunks direction)
  eofEvents direction := by
    show (if event.kind = "data" then _ else _ : ByDirection Nat).get direction ≤ _
    split
    · exact Nat.le_succ_of_le (hs.eofEvents direction)
    · exact get_set_succ_le hs.eofEvents direction
  opened := hs.opened
  errors := hs.errors

/-! ## A run -/

theorem appendAll_consistent {spool spool' : SessionSpool} {events : List CaptureEvent}
    (hs : Consistent spool) (h : appendAll fmt spool events = some spool') : Consistent spool' := by
  induction events generalizing spool with
  | nil =>
    cases h
    exact hs
  | cons event events ih =>
    obtain ⟨haccepted, hrest⟩ := (appendAll_cons fmt).mp h
    exact ih (hs.written fmt haccepted) hrest

theorem appendAll_descriptor {spool spool' : SessionSpool} {events : List CaptureEvent}
    (h : appendAll fmt spool events = some spool') : spool'.descriptor = spool.descriptor := by
  induction events generalizing spool with
  | nil =>
    cases h
    rfl
  | cons event events ih =>
    obtain ⟨-, hrest⟩ := (appendAll_cons fmt).mp h
    rw [ih hrest, written_descriptor]

theorem appendAll_nextSequence {spool spool' : SessionSpool} {events : List CaptureEvent}
    (h : appendAll fmt spool events = some spool') :
    spool'.nextSequence = spool.nextSequence + events.length := by
  induction events generalizing spool with
  | nil =>
    cases h
    rfl
  | cons event events ih =>
    obtain ⟨-, hrest⟩ := (appendAll_cons fmt).mp h
    rw [ih hrest, written_nextSequence, List.length_cons]
    omega

/-- The raw files grow by the payloads of their direction. -/
theorem appendAll_raw {spool spool' : SessionSpool} {events : List CaptureEvent}
    (h : appendAll fmt spool events = some spool') (direction : Direction) :
    spool'.raw.get direction = spool.raw.get direction ++ payloads events direction := by
  induction events generalizing spool with
  | nil =>
    cases h
    rw [payloads_nil, List.append_nil]
  | cons event events ih =>
    obtain ⟨-, hrest⟩ := (appendAll_cons fmt).mp h
    rw [ih hrest, written_raw, ByDirection.get_set, payloads_cons]
    split
    · next heq => rw [heq, List.append_assoc]
    · rw [List.nil_append]

/-- The timeline grows by one line for each event. -/
theorem appendAll_timeline {spool spool' : SessionSpool} {events : List CaptureEvent}
    (h : appendAll fmt spool events = some spool') :
    spool'.timeline = spool.timeline ++
      joinLines (timelineTexts fmt spool.descriptor spool.previousEventSha256 events) := by
  induction events generalizing spool with
  | nil =>
    cases h
    exact (List.append_nil _).symm
  | cons event events ih =>
    obtain ⟨-, hrest⟩ := (appendAll_cons fmt).mp h
    rw [ih hrest, written_timeline, written_descriptor, written_previous, timelineTexts,
      joinLines_cons, List.append_assoc, timelineLine]

theorem appendAll_append {spool spool' : SessionSpool} {events later : List CaptureEvent} :
    appendAll fmt spool (events ++ later) = some spool' ↔
      ∃ middle, appendAll fmt spool events = some middle ∧
        appendAll fmt middle later = some spool' := by
  induction events generalizing spool with
  | nil => simp [appendAll]
  | cons event events ih =>
    rw [List.cons_append, appendAll_cons, ih]
    constructor
    · rintro ⟨haccepted, middle, hfirst, hlater⟩
      exact ⟨middle, (appendAll_cons fmt).mpr ⟨haccepted, hfirst⟩, hlater⟩
    · rintro ⟨middle, hfirst, hlater⟩
      obtain ⟨haccepted, hrest⟩ := (appendAll_cons fmt).mp hfirst
      exact ⟨haccepted, middle, hrest, hlater⟩

end

end RetailPrintGuard.Proxy.SpoolRuns
