import RetailPrintGuard.Ingestion.Recovered

/-! # Jobs after a crash

Every directory a crash can leave is published once, with the raw bytes it holds. -/
namespace RetailPrintGuard.Ingestion.Crashes
open RetailPrintGuard.Library RetailPrintGuard.Library.Checks RetailPrintGuard.Common.Formats
open RetailPrintGuard.Ingestion.Adapters RetailPrintGuard.Ingestion.Canonical
open RetailPrintGuard.Ingestion.Timeline RetailPrintGuard.Ingestion.Reading
open RetailPrintGuard.Ingestion.RoundTrip RetailPrintGuard.Ingestion.Recovered
open RetailPrintGuard.Proxy.Spool RetailPrintGuard.Proxy.SpoolRuns
open RetailPrintGuard.Proxy.Documents
open RetailPrintGuard.Proxy.Recovery RetailPrintGuard.Proxy.Crash
open RetailPrintGuard.Common.Runtime (runtime)

section
variable {fmt : Codec} {adapter : Adapter} {spool : SessionSpool} {directory : SpoolDirectory}
  {clock : Clock} {taken : Bool}

/-- A session of a registered device that stays within the limits of the format. -/
structure Session (fmt : Codec) (adapter : Adapter) where
  descriptor : SessionDescriptor
  client : Endpoint
  listener : Endpoint
  target : Endpoint
  events : List CaptureEvent
  closing : Closing
  registered : Registered fmt adapter descriptor client listener target
  recorded : Recorded fmt events
  summarised : Summarised fmt descriptor closing
  errors : (closing.captureErrors ++ closing.summary.transportErrors).length ≤ 1000
  gapless : Gapless closing events

/-- A directory that a crash left of a session, found at a later time. -/
structure CrashOf (session : Session fmt adapter) (entry : SpoolDirectory × Clock) : Prop where
  crashed : Crashed fmt session.closing { descriptor := session.descriptor } session.events entry.1
  closedAt : IsTimestamp fmt entry.2.closed
  clock : instant fmt session.descriptor.connectedAtUtc ≤ instant fmt entry.2.closed

/-- The manifest in a directory says that its capture is complete. -/
def SaysComplete (fmt : Codec) (directory : SpoolDirectory) : Prop :=
  ∃ manifest document, directory.manifest = some manifest ∧
    fmt.jsonLoads manifest = some document ∧ field document "status" = .str "COMPLETE"

/-- A job keeps the raw bytes of a directory, and is read back with them when the
last line of the timeline is whole. -/
def Recovers (fmt : Codec) (adapter : Adapter) (entry : SpoolDirectory × Clock)
    (job : JobDirectory) : Prop :=
  job.raw = presentRaw entry.1 ∧
    (WholeLines entry.1 → WithinLimits adapter job →
      ∃ envelope, load fmt adapter job = .ok envelope ∧
        envelope.content .requestRaw = some ((presentRaw entry.1).get .clientToDevice) ∧
        envelope.content .responseRaw = some ((presentRaw entry.1).get .deviceToClient) ∧
        (envelope.complete = true ↔ SaysComplete fmt entry.1))

theorem not_saysComplete (h : directory.manifest = none) : ¬SaysComplete fmt directory := by
  rintro ⟨manifest, _, hmanifest, -⟩
  cases h.symm.trans hmanifest

theorem saysComplete_finalDirectory {closing : Closing} {renamed : Bool} :
    SaysComplete fmt (finalDirectory fmt spool closing renamed) ↔
      spool.status closing = "COMPLETE" := by
  have hstatus : field (spool.manifest fmt closing).sortKeys "status" =
      .str (spool.status closing) := finalize_describes.status
  constructor
  · rintro ⟨manifest, document, hmanifest, hload, hcomplete⟩
    obtain rfl : (finalize fmt spool closing).manifest = manifest := Option.some.inj hmanifest
    obtain rfl : (spool.manifest fmt closing).sortKeys = document :=
      Option.some.inj ((jsonLoads_manifest closing).symm.trans hload)
    exact Json.str.inj (hstatus.symm.trans hcomplete)
  · intro h
    exact ⟨_, _, rfl, jsonLoads_manifest closing, hstatus.trans (congrArg Json.str h)⟩

/-- A directory with its own manifest is published with it. -/
theorem recoverDirectory_final (closing : Closing) (renamed : Bool)
    (hname : invalidName (directoryName spool.descriptor) = false)
    (hfree : (!renamed && taken) = false) :
    recoverDirectory fmt clock taken (finalDirectory fmt spool closing renamed) =
      .ok (some (finalize fmt spool closing)) := by
  have hjob : manifestJob fmt (finalize fmt spool closing).manifest =
      .ok (.text spool.descriptor.jobId) := by
    have hload : fmt.loads (finalize fmt spool closing).manifest =
        .value (.ofJson (spool.manifest fmt closing).sortKeys) := fmt.loads_line _ manifest_readable
    have hsession : subscript (.ofJson (spool.manifest fmt closing).sortKeys) "session" =
        .ok (.ofJson (descriptorDocument spool.descriptor).sortKeys) := by
      rw [subscript_ofJson (spool.manifest fmt closing).sortKeys ⟨_, rfl⟩,
        Json.get?_sortKeys manifest_distinct]
      simp [SessionSpool.manifest, Json.get?, List.lookup_cons]
    have hid : (PyJson.ofJson (descriptorDocument spool.descriptor).sortKeys).get? "job_id" =
        some (.str (.text spool.descriptor.jobId)) := by
      rw [PyJson.get?_ofJson, Json.get?_sortKeys (descriptorDocument_distinct _)]
      rfl
    rw [manifestJob, hload, loaded, ok_bind, hsession, ok_bind]
    exact strAt_eq_ok.mpr ⟨_, hid, rfl⟩
  have hready : (finalDirectory fmt spool closing renamed).ready = none := rfl
  have hmanifest : (finalDirectory fmt spool closing renamed).manifest =
      some (finalize fmt spool closing).manifest := rfl
  have hpartial : (finalDirectory fmt spool closing renamed).isPartial = !renamed := rfl
  have hvalid : invalidName (finalDirectory fmt spool closing renamed).name = false := hname
  simp only [recoverDirectory, hready, hmanifest, hjob, publish, finishError, hpartial, hvalid, hfree,
    Bool.and_false]
  rfl

/-- The last character of a name is none a path or a suffix ends in. -/
def PlainEnd (name : String) : Prop := ∃ c, name.toList.getLast? = some c ∧ c ≠ '.' ∧ c ≠ 'l'

theorem plainEnd_directoryName {descriptor : SessionDescriptor}
    (h : IsUuid fmt descriptor.jobId) : PlainEnd (directoryName descriptor) := by
  have hne : descriptor.jobId.toList ≠ [] := fun hempty =>
    h.nonempty (String.toList_eq_nil_iff.mp hempty)
  refine ⟨descriptor.jobId.toList.getLast hne, ?_,
    fmt.isUuid_plain _ h.uuid _ (List.getLast_mem hne)⟩
  rw [directoryName, String.toList_append, List.getLast?_append_of_ne_nil _ hne,
    List.getLast?_eq_some_getLast hne]

theorem PlainEnd.ne {name other : String} (h : PlainEnd name)
    (hother : other.toList.getLast? ≠ none → other.toList.getLast? = some '.' ∨
      other.toList.getLast? = some 'l') : name ≠ other := by
  rintro rfl
  obtain ⟨c, hlast, hdot, hl⟩ := h
  rw [hlast] at hother
  rcases hother (Option.some_ne_none c) with h | h
  · exact hdot (Option.some.inj h)
  · exact hl (Option.some.inj h)

theorem PlainEnd.valid {name : String} (h : PlainEnd name) : invalidName name = false := by
  have hempty : name ≠ "" := h.ne (by decide)
  have hdot : name ≠ "." := h.ne (by decide)
  simp [invalidName, hempty, hdot]

theorem PlainEnd.not_partial {name other : String} (h : PlainEnd name) :
    name ≠ other ++ ".partial" := by
  refine h.ne fun _ => Or.inr ?_
  rw [String.toList_append, List.getLast?_append_of_ne_nil _ (by decide)]
  rfl

theorem CrashOf.plainEnd {session : Session fmt adapter} {entry : SpoolDirectory × Clock}
    (h : CrashOf session entry) : PlainEnd entry.1.name := by
  rw [h.crashed.name]
  exact plainEnd_directoryName session.registered.jobId

/-- What recovery makes of one crash. -/
theorem recoverDirectory_crash {session : Session fmt adapter} {entry : SpoolDirectory × Clock}
    (h : CrashOf session entry) (hfree : (entry.1.isPartial && taken) = false) :
    ∃ job, recoverDirectory fmt entry.2 taken entry.1 = .ok (some job) ∧
      Recovers fmt adapter entry job := by
  have hname := h.plainEnd.valid
  rcases Crashed.cases fmt h.crashed ⟨[], rfl, fun _ hline => absurd hline List.not_mem_nil⟩ with
    ⟨done, middle, hdone, hrun, hdirectory⟩ | ⟨hdirectory, htorn⟩ | ⟨final, renamed, hrun, heq⟩
  · have hrecorded : Recorded fmt done := {
      recordable := fun event hevent => session.recorded.recordable event (hdone.subset hevent)
      observed := session.recorded.observed.sublist (hdone.sublist.map _)
      count := hdone.length_le.trans session.recorded.count }
    have hdescriptor : middle.descriptor = session.descriptor := appendAll_descriptor fmt hrun
    obtain ⟨inspection, hinspect, hinspected⟩ := inspectTimeline_spool hrun hrecorded
    rw [← hdirectory.timeline] at hinspect
    refine ⟨_, recoverDirectory_unfinished (hdescriptor ▸ hdirectory.toUnfinished) hinspect hname
      hfree, rfl,
      fun _ hlimits => ⟨_, load_interrupted session.registered hrecorded hrun hdirectory hinspected
        h.closedAt h.clock hlimits, rfl, rfl, ?_⟩⟩
    constructor
    · intro hcomplete
      cases hcomplete
    · exact fun hsays => absurd hsays (not_saysComplete hdirectory.manifest)
  · obtain ⟨inspection, hinspect⟩ := @inspectTimeline_torn fmt _ htorn
    exact ⟨_, recoverDirectory_unfinished hdirectory hinspect hname hfree, rfl,
      fun hwhole => absurd hwhole htorn.not_wholeLines⟩
  · have hdescriptor : final.descriptor = session.descriptor := appendAll_descriptor fmt hrun
    rw [heq] at hfree hname
    refine ⟨_, heq ▸ recoverDirectory_final session.closing renamed hname hfree, heq ▸ rfl,
      fun _ hlimits => ?_⟩
    refine ⟨_, load_finalize (hdescriptor ▸ session.registered) session.recorded
      (hdescriptor ▸ hrun) (hdescriptor ▸ session.summarised) session.errors session.gapless hlimits,
      heq ▸ rfl, heq ▸ rfl, ?_⟩
    rw [heq, saysComplete_finalDirectory, status_eq_complete]
    exact (complete_iff (hdescriptor ▸ session.summarised)).1

/-- The names that are there at a turn: those of the spool, and the final names
of the turns before. -/
def NamesOf (directories done : List (SpoolDirectory × Clock)) (names : List (String × String)) :
    Prop :=
  ∀ name ∈ names, name ∈ spoolNames (directories.map Prod.fst) ∨
    name ∈ done.map fun entry => (entry.1.deviceId, entry.1.name)

theorem NamesOf.after {directories done : List (SpoolDirectory × Clock)}
    {names : List (String × String)} (h : NamesOf directories done names)
    (entry : SpoolDirectory × Clock) :
    NamesOf directories (done ++ [entry]) (namesAfter names entry.1) := by
  have hlater : NamesOf directories (done ++ [entry]) names := fun name hname =>
    (h name hname).imp_right fun hdone => by
      rw [List.map_append]
      exact List.mem_append_left _ hdone
  intro name hname
  unfold namesAfter at hname
  split at hname
  · rcases List.mem_cons.mp hname with rfl | hname
    · exact Or.inr (by simp)
    · exact hlater name (List.mem_of_mem_filter hname)
  · exact hlater name hname

/-- The final name of a partial directory is free where each is used once. -/
theorem partial_and_occupied {done entries : List (SpoolDirectory × Clock)}
    {entry : SpoolDirectory × Clock} {names : List (String × String)}
    (hnames : ((done ++ entry :: entries).map fun entry => (entry.1.deviceId, entry.1.name)).Nodup)
    (hpresent : NamesOf (done ++ entry :: entries) done names) (hend : PlainEnd entry.1.name) :
    (entry.1.isPartial && occupied names entry.1) = false := by
  rw [Bool.and_eq_false_imp]
  intro hpartial
  have hdots : entry.1.name ≠ ".." := hend.ne (by decide)
  have hfree : (entry.1.deviceId, entry.1.name) ∉ names := by
    intro hmem
    rcases hpresent _ hmem with hmem | hmem
    · -- a directory of the spool
      obtain ⟨directory, hdirectory, hsame⟩ := List.mem_map.mp hmem
      obtain ⟨other, hother, rfl⟩ := List.mem_map.mp hdirectory
      rw [Prod.mk.injEq, SpoolDirectory.fullName] at hsame
      split at hsame
      · exact hend.not_partial hsame.2.symm
      · next hfinal =>
        have hentry : other = entry := List.inj_on_of_nodup_map hnames hother
          (List.mem_append_right _ List.mem_cons_self) (Prod.ext hsame.1 hsame.2)
        exact hfinal (hentry ▸ hpartial)
    · -- a directory published before
      rw [List.map_append, List.map_cons] at hnames
      exact (List.nodup_append.mp hnames).2.2 _ hmem _ List.mem_cons_self rfl
  simp [occupied, hdots, hfree]

/-- Every crash is published, and read back when the last line of its timeline
is whole. -/
theorem crashes_recovered {directories : List (SpoolDirectory × Clock)}
    (hnames : (directories.map fun entry => (entry.1.deviceId, entry.1.name)).Nodup)
    (hcrashes : ∀ entry ∈ directories, entry.1.ready = none →
      ∃ session : Session fmt adapter, CrashOf session entry) :
    ∃ jobs, recoverIncompleteSpool fmt directories = .ok jobs ∧
      List.Forall₂ (Recovers fmt adapter)
        (directories.filter fun entry => entry.1.ready.isNone) jobs := by
  have hall : ∀ entries done names, directories = done ++ entries →
      NamesOf directories done names →
      ∃ jobs, recoverFrom fmt names entries = .ok jobs ∧
        List.Forall₂ (Recovers fmt adapter)
          (entries.filter fun entry => entry.1.ready.isNone) jobs := by
    intro entries
    induction entries with
    | nil => exact fun _ _ _ _ => ⟨[], rfl, .nil⟩
    | cons entry entries ih =>
      intro done names hsplit hpresent
      obtain ⟨jobs, hjobs, hrecovers⟩ := ih (done ++ [entry]) (namesAfter names entry.1)
        (by rw [hsplit, List.append_assoc, List.singleton_append]) (hpresent.after entry)
      cases hready : entry.1.ready with
      | some marker =>
        refine ⟨jobs, ?_, ?_⟩
        · have hskip : recoverDirectory fmt entry.2 (occupied names entry.1) entry.1 =
              .ok none := by
            rw [recoverDirectory, hready]
          exact bind_eq_ok.mpr ⟨none, hskip, bind_eq_ok.mpr ⟨jobs, hjobs, rfl⟩⟩
        · rwa [List.filter_cons_of_neg (by simp [hready])]
      | none =>
        have hentry : entry ∈ directories := by
          rw [hsplit]
          exact List.mem_append_right _ List.mem_cons_self
        obtain ⟨session, hcrash⟩ := hcrashes entry hentry hready
        obtain ⟨job, hjob, hrecover⟩ := recoverDirectory_crash hcrash
          (partial_and_occupied (hsplit ▸ hnames) (hsplit ▸ hpresent) hcrash.plainEnd)
        refine ⟨job :: jobs, ?_, ?_⟩
        · exact bind_eq_ok.mpr ⟨some job, hjob, bind_eq_ok.mpr ⟨jobs, hjobs, rfl⟩⟩
        · rw [List.filter_cons_of_pos (by simp [hready])]
          exact .cons hrecover hrecovers
  exact hall directories [] _ rfl fun _ h => Or.inl h

end

/-! ## Crashes of a session -/

def sampleClock : Clock where
  session := "2026-07-01T10:00:02.000000Z"
  closed := "2026-07-01T10:00:02.000000Z"
  unique := "5f0c1a7de2b34c6f8a9b0c1d2e3f4a5b"

noncomputable def sampleSession : Session runtime sampleAdapter where
  descriptor := sampleDescriptor
  client := ⟨"192.168.1.20", 50123⟩
  listener := ⟨"192.168.1.10", 9100⟩
  target := ⟨"192.168.1.50", 9100⟩
  events := sampleEvents
  closing := sampleClosing
  registered := sample_registered
  recorded := sample_recorded
  summarised := sample_summarised
  errors := by decide
  gapless := sample_gapless

/-- A byte of the first payload is on disk. -/
def sampleDirectory : SpoolDirectory :=
  onDisk (({ descriptor := sampleDescriptor } : SessionSpool).writeRaw .clientToDevice [0x1b])

theorem sample_crash : CrashOf sampleSession (sampleDirectory, sampleClock) where
  crashed := @Crashed.raw runtime sampleClosing _ _ _ 1
    ⟨rfl, rfl, rfl, rfl, Or.inl rfl, fun h => absurd h (by decide)⟩
  closedAt := sampleTimestamp_valid (by decide)
  clock := by decide +kernel

theorem sample_recovered : recoverIncompleteSpool runtime [(sampleDirectory, sampleClock)] =
    .ok [recoveredJob runtime sampleClock sampleDescriptor sampleDirectory {}] := by
  have hjob := @recoverDirectory_unfinished runtime sampleDescriptor sampleDirectory {} sampleClock
    (occupied (spoolNames [sampleDirectory]) sampleDirectory) ⟨rfl, rfl, rfl, rfl, rfl⟩ rfl
    (by decide +kernel) (by decide +kernel)
  exact bind_eq_ok.mpr ⟨_, hjob, bind_eq_ok.mpr ⟨[], rfl, rfl⟩⟩

theorem sample_recoveredLimits : WithinLimits sampleAdapter
    (recoveredJob runtime sampleClock sampleDescriptor sampleDirectory {}) where
  manifest := by
    have hzero : CountsFit (.const 0) := fun direction => by
      rw [ByDirection.get_const]
      exact Nat.zero_le _
    have hbytes : CountsFit (presentBytes sampleDirectory) := by
      intro direction
      cases direction <;> decide
    have hdescriptor : (descriptorDocument sampleDescriptor).weight ≤ 4000 := by decide +kernel
    have hsize := @length_recoveredManifest_le runtime sampleDescriptor sampleDirectory {}
      sampleClock (sampleTimestamp_valid (by decide)) hbytes hzero hzero hzero (Nat.zero_le _)
      shortHash_none (Nat.zero_le _) (sample_sessionBytes.trans (by decide))
    exact hsize.trans ((Nat.add_le_add_left hdescriptor _).trans (by decide))
  session := sample_sessionBytes.trans (by decide)
  timeline := Nat.zero_le _
  raw := by decide
  rawInt direction := by cases direction <;> decide

/-- The byte is read back from the recovered job. -/
theorem crash_is_read_back : ∃ jobs, recoverIncompleteSpool runtime
      [(sampleDirectory, sampleClock)] = .ok jobs ∧
    ∀ job ∈ jobs, ∃ envelope, load runtime sampleAdapter job = .ok envelope ∧
      envelope.complete = false ∧ envelope.content .requestRaw = some [0x1b] := by
  obtain ⟨jobs, hjobs, hrecovers⟩ := @crashes_recovered runtime sampleAdapter
    [(sampleDirectory, sampleClock)] (List.nodup_singleton _) (by
      intro entry hentry _
      rw [List.mem_singleton.mp hentry]
      exact ⟨sampleSession, sample_crash⟩)
  obtain rfl : [recoveredJob runtime sampleClock sampleDescriptor sampleDirectory {}] = jobs :=
    Except.ok.inj (sample_recovered.symm.trans hjobs)
  refine ⟨_, hjobs, fun job hjob => ?_⟩
  rw [List.mem_singleton.mp hjob]
  obtain ⟨-, hread⟩ := (List.forall₂_cons.mp hrecovers).1
  obtain ⟨envelope, hload, hrequest, -, hcomplete⟩ := hread (fun h => absurd rfl h)
    sample_recoveredLimits
  refine ⟨envelope, hload, ?_, hrequest⟩
  exact Bool.eq_false_iff.mpr fun h => not_saysComplete rfl (hcomplete.mp h)

/-- A crash between the manifest and the marker is published with the manifest
that is there, which says the capture is complete. -/
theorem crash_after_manifest_is_complete :
    ¬∀ directory, Crashed runtime sampleClosing { descriptor := sampleDescriptor } sampleEvents
        directory →
      ∃ job, recoverIncompleteSpool runtime [(directory, sampleClock)] = .ok [job] ∧
        ∃ envelope, load runtime sampleAdapter job = .ok envelope ∧ envelope.complete = false := by
  intro h
  have hcrashed : Crashed runtime sampleClosing { descriptor := sampleDescriptor } sampleEvents
      (finalDirectory runtime sampleSpool sampleClosing true) :=
    crashed_of_appendAll runtime sampleClosing true sample_accepted
  obtain ⟨job, hjob, envelope, hload, hcomplete⟩ := h _ hcrashed
  have hfinal := @recoverDirectory_final runtime sampleSpool sampleClock
    (occupied (spoolNames [finalDirectory runtime sampleSpool sampleClosing true])
      (finalDirectory runtime sampleSpool sampleClosing true)) sampleClosing true
    (plainEnd_directoryName sample_registered.jobId).valid rfl
  have hrun : recoverIncompleteSpool runtime
      [(finalDirectory runtime sampleSpool sampleClosing true, sampleClock)] =
        .ok [finalize runtime sampleSpool sampleClosing] :=
    bind_eq_ok.mpr ⟨_, hfinal, bind_eq_ok.mpr ⟨[], rfl, rfl⟩⟩
  have hsame : [finalize runtime sampleSpool sampleClosing] = [job] :=
    Except.ok.inj (hrun.symm.trans hjob)
  rw [← List.singleton_inj.mp hsame] at hload
  have hstatus : sampleSpool.complete sampleClosing = true := by decide +kernel
  have htrue := (complete_iff sample_summarised).1.mpr hstatus
  rw [← Except.ok.inj (sample_load.symm.trans hload)] at hcomplete
  exact Bool.false_ne_true (hcomplete.symm.trans htrue)

end RetailPrintGuard.Ingestion.Crashes
