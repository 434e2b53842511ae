import RetailPrintGuard.Proxy.Recovery
import RetailPrintGuard.Proxy.SpoolRuns

/-! # Crashes

What is on disk when the process stops at any byte of the writes of a session,
from its first durable file to the rename that publishes it. -/
namespace RetailPrintGuard.Proxy.Crash
open RetailPrintGuard.Library RetailPrintGuard.Common.Formats
open RetailPrintGuard.Proxy.Spool RetailPrintGuard.Proxy.SpoolRuns RetailPrintGuard.Proxy.Recovery

/-- The files of a session that is being written. -/
def onDisk (spool : SessionSpool) : SpoolDirectory where
  deviceId := spool.descriptor.deviceId
  name := directoryName spool.descriptor
  isPartial := true
  raw := ⟨some spool.raw.clientToDevice, some spool.raw.deviceToClient⟩
  timeline := some spool.timeline
  session := some (sessionBytes spool.descriptor)
  manifest := none
  ready := none

/-- The same when its last file has been opened, or some of them. -/
def opening (descriptor : SessionDescriptor) (client device timeline : Bool) : SpoolDirectory :=
  { onDisk { descriptor } with
    raw := ⟨if client then some [] else none, if device then some [] else none⟩
    timeline := if timeline then some [] else none }

section
variable (fmt : Codec)

/-- The manifest is in place, and the directory renamed or not yet. -/
def finalDirectory (spool : SessionSpool) (closing : Closing) (renamed : Bool) : SpoolDirectory :=
  { onDisk spool with
    isPartial := !renamed
    manifest := some (finalize fmt spool closing).manifest }

/-- The directories a crash can leave, from a directory that is still to take
some events and then to be closed. -/
inductive Crashed (closing : Closing) :
    SessionSpool → List CaptureEvent → SpoolDirectory → Prop
  | opening (descriptor : SessionDescriptor) (events : List CaptureEvent)
      (client device timeline : Bool) :
      Crashed closing { descriptor } events (opening descriptor client device timeline)
  | idle (spool : SessionSpool) (events : List CaptureEvent) :
      Crashed closing spool events (onDisk spool)
  | raw {spool : SessionSpool} {event : CaptureEvent} (events : List CaptureEvent) (count : Nat)
      (h : Accepted spool event) :
      Crashed closing spool (event :: events)
        (onDisk (spool.writeRaw event.direction (event.payload.take count)))
  | timeline {spool : SessionSpool} {event : CaptureEvent} (events : List CaptureEvent)
      (count : Nat) (h : Accepted spool event) :
      Crashed closing spool (event :: events)
        (onDisk ((spool.writeRaw event.direction event.payload).writeTimeline
          ((timelineLine fmt spool.descriptor spool.previousEventSha256 event).take count)))
  | next {spool : SessionSpool} {event : CaptureEvent} {events : List CaptureEvent}
      {directory : SpoolDirectory} (h : Accepted spool event)
      (later : Crashed closing (written fmt spool event) events directory) :
      Crashed closing spool (event :: events) directory
  | closed (spool : SessionSpool) (renamed : Bool) :
      Crashed closing spool [] (finalDirectory fmt spool closing renamed)

theorem crashed_of_appendAll {spool final : SessionSpool} {events : List CaptureEvent}
    (closing : Closing) (renamed : Bool) (hrun : appendAll fmt spool events = some final) :
    Crashed fmt closing spool events (finalDirectory fmt final closing renamed) := by
  induction events generalizing spool with
  | nil =>
    cases hrun
    exact .closed _ _
  | cons event events ih =>
    obtain ⟨haccepted, hrest⟩ := (appendAll_cons fmt).mp hrun
    exact .next haccepted (ih hrest)

/-- A directory without a manifest, with the descriptor of its session. -/
structure Unfinished (descriptor : SessionDescriptor) (directory : SpoolDirectory) : Prop where
  deviceId : directory.deviceId = descriptor.deviceId
  session : directory.session = some (sessionBytes descriptor)
  manifest : directory.manifest = none
  ready : directory.ready = none
  untrusted : directory.untrusted = []

/-- One whose timeline is the one of a written session and whose raw files go at
least as far. -/
structure Interrupted (spool : SessionSpool) (directory : SpoolDirectory) : Prop extends
    Unfinished spool.descriptor directory where
  raw : ∀ direction, spool.raw.get direction <+: (presentRaw directory).get direction
  timeline : directory.timeline.getD [] = spool.timeline

section
variable (fmt : Codec)

/-- The line of an event, without its line feed. -/
def IsEntry (line : Bytes) : Prop :=
  ∃ descriptor previous event, line = (timelineEntry fmt descriptor previous event).dumps

/-- A line that may be torn. -/
def IsLine (line : Bytes) : Prop := ∃ entry, IsEntry fmt entry ∧ line <+: entry

/-- A timeline whose last line is torn. -/
def Torn (directory : SpoolDirectory) : Prop :=
  ∃ lines torn, directory.timeline.getD [] = joinLines lines ++ torn ∧
    (∀ line ∈ lines, IsEntry fmt line) ∧ torn ≠ [] ∧ IsLine fmt torn

/-- A timeline of whole lines. -/
def Whole (timeline : Bytes) : Prop :=
  ∃ lines, timeline = joinLines lines ∧ ∀ line ∈ lines, IsEntry fmt line

variable {fmt}

theorem IsEntry.text {line : Bytes} (h : IsEntry fmt line) : ∀ byte ∈ line, 32 ≤ byte := by
  obtain ⟨descriptor, previous, event, hline⟩ := h
  intro byte hbyte
  rw [hline] at hbyte
  exact Json.dumps_ge _ byte hbyte

theorem IsLine.text {line : Bytes} (h : IsLine fmt line) : ∀ byte ∈ line, 32 ≤ byte := by
  obtain ⟨entry, hentry, hline⟩ := h
  exact fun byte hbyte => hentry.text byte (hline.subset hbyte)

end

theorem presentRaw_onDisk (spool : SessionSpool) : presentRaw (onDisk spool) = spool.raw := rfl

theorem unfinished_onDisk (spool : SessionSpool) : Unfinished spool.descriptor (onDisk spool) :=
  ⟨rfl, rfl, rfl, rfl, rfl⟩

theorem interrupted_opening (descriptor : SessionDescriptor) (client device timeline : Bool) :
    Interrupted { descriptor } (opening descriptor client device timeline) where
  toUnfinished := ⟨rfl, rfl, rfl, rfl, rfl⟩
  raw direction := by cases direction <;> exact List.nil_prefix
  timeline := by cases timeline <;> rfl

theorem interrupted_idle (spool : SessionSpool) : Interrupted spool (onDisk spool) where
  toUnfinished := unfinished_onDisk spool
  raw direction := by
    show spool.raw.get direction <+: _
    exact List.prefix_refl _
  timeline := rfl

theorem interrupted_raw (spool : SessionSpool) (direction : Direction) (bytes : Bytes) :
    Interrupted spool (onDisk (spool.writeRaw direction bytes)) where
  toUnfinished := unfinished_onDisk (spool.writeRaw direction bytes)
  raw other := by
    rw [presentRaw_onDisk]
    show _ <+: (spool.raw.set direction (spool.raw.get direction ++ bytes)).get other
    rw [ByDirection.get_set]
    split
    · next heq =>
      rw [heq]
      exact List.prefix_append _ _
    · exact List.prefix_refl _
  timeline := rfl

theorem writeTimeline_nil (spool : SessionSpool) : spool.writeTimeline [] = spool := by
  rw [SessionSpool.writeTimeline, List.append_nil]

/-- The last line of a timeline is whole. -/
def WholeLines (directory : SpoolDirectory) : Prop :=
  directory.timeline.getD [] ≠ [] → (directory.timeline.getD []).getLast? = some newline

theorem Torn.not_wholeLines {directory : SpoolDirectory} (h : Torn fmt directory) :
    ¬WholeLines directory := by
  obtain ⟨lines, torn, htimeline, -, hne, htorn⟩ := h
  intro hwhole
  rw [WholeLines, htimeline, List.getLast?_append_of_ne_nil _ hne] at hwhole
  have hlast := hwhole fun h => hne (List.append_eq_nil_iff.mp h).2
  exact absurd (htorn.text newline (List.mem_of_getLast? hlast)) (by decide)

/-! ## Lines of events -/

theorem whole_written {spool : SessionSpool} (h : Whole fmt spool.timeline)
    (event : CaptureEvent) : Whole fmt (written fmt spool event).timeline := by
  obtain ⟨lines, htimeline, hlines⟩ := h
  refine ⟨lines ++ [(timelineEntry fmt spool.descriptor spool.previousEventSha256 event).dumps],
    ?_, ?_⟩
  · show spool.timeline ++ timelineLine fmt spool.descriptor spool.previousEventSha256 event = _
    rw [htimeline]
    simp [joinLines, timelineLine]
  · intro line hmem
    rcases List.mem_append.mp hmem with hmem | hmem
    · exact hlines line hmem
    · exact ⟨_, _, _, List.mem_singleton.mp hmem⟩

theorem torn_writeTimeline {spool : SessionSpool} {direction : Direction} {payload torn : Bytes}
    (h : Whole fmt spool.timeline) (hne : torn ≠ []) (htorn : IsLine fmt torn) :
    Torn fmt (onDisk ((spool.writeRaw direction payload).writeTimeline torn)) := by
  obtain ⟨lines, htimeline, hlines⟩ := h
  refine ⟨lines, torn, ?_, hlines, hne, htorn⟩
  show spool.timeline ++ torn = _
  rw [htimeline]

/-- Whatever a crash leaves has the name of the session. -/
theorem Crashed.name {closing : Closing} {spool : SessionSpool} {events : List CaptureEvent}
    {directory : SpoolDirectory} (h : Crashed fmt closing spool events directory) :
    directory.name = directoryName spool.descriptor := by
  induction h with
  | next _ _ ih => exact ih
  | _ => rfl

/-- A crash leaves a prefix of the events with whole lines, a torn line, or a
manifest. -/
theorem Crashed.cases {closing : Closing} {spool : SessionSpool} {events : List CaptureEvent}
    {directory : SpoolDirectory} (h : Crashed fmt closing spool events directory)
    (hwhole : Whole fmt spool.timeline) :
    (∃ done middle, done <+: events ∧ appendAll fmt spool done = some middle ∧
        Interrupted middle directory) ∨
      (Unfinished spool.descriptor directory ∧ Torn fmt directory) ∨
      ∃ final renamed, appendAll fmt spool events = some final ∧
        directory = finalDirectory fmt final closing renamed := by
  induction h with
  | opening descriptor events client device timeline =>
    exact Or.inl ⟨[], _, List.nil_prefix, rfl, interrupted_opening descriptor client device timeline⟩
  | idle spool events => exact Or.inl ⟨[], spool, List.nil_prefix, rfl, interrupted_idle spool⟩
  | @raw spool event events count h =>
    exact Or.inl ⟨[], spool, List.nil_prefix, rfl, interrupted_raw spool _ _⟩
  | @timeline spool event events count h =>
    by_cases hnone : (timelineLine fmt spool.descriptor spool.previousEventSha256 event).take count =
        []
    · -- only the raw write was done
      rw [hnone, writeTimeline_nil]
      exact Or.inl ⟨[], spool, List.nil_prefix, rfl, interrupted_raw spool _ _⟩
    · by_cases hcount : count ≤
          (timelineEntry fmt spool.descriptor spool.previousEventSha256 event).dumps.length
      · -- the line is torn
        rw [timelineLine, List.take_append_of_le_length hcount] at hnone ⊢
        exact Or.inr (Or.inl ⟨unfinished_onDisk ((spool.writeRaw event.direction
          event.payload).writeTimeline _), torn_writeTimeline fmt hwhole hnone
            ⟨_, ⟨_, _, _, rfl⟩, List.take_prefix _ _⟩⟩)
      · -- the line is whole
        rw [List.take_of_length_le (by
          rw [timelineLine, List.length_append, List.length_singleton]
          omega)]
        exact Or.inl ⟨[event], written fmt spool event, List.cons_prefix_cons.mpr
          ⟨rfl, List.nil_prefix⟩, (appendAll_cons fmt).mpr ⟨h, rfl⟩,
          interrupted_idle (written fmt spool event)⟩
  | @next spool event events directory haccepted later ih =>
    rcases ih (whole_written fmt hwhole event) with ⟨done, middle, hprefix, hrun, hinterrupted⟩ |
      htorn | ⟨final, renamed, hrun, heq⟩
    · exact Or.inl ⟨event :: done, middle, List.cons_prefix_cons.mpr ⟨rfl, hprefix⟩,
        (appendAll_cons fmt).mpr ⟨haccepted, hrun⟩, hinterrupted⟩
    · exact Or.inr (Or.inl htorn)
    · exact Or.inr (Or.inr ⟨final, renamed, (appendAll_cons fmt).mpr ⟨haccepted, hrun⟩, heq⟩)
  | closed spool renamed => exact Or.inr (Or.inr ⟨spool, renamed, rfl, rfl⟩)

end

end RetailPrintGuard.Proxy.Crash
