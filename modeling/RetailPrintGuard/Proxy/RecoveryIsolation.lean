import RetailPrintGuard.Common.Runtime
import RetailPrintGuard.Proxy.Recovery

/-! # One remnant and the others

One loop recovers all directories, so that a remnant whose contents or name
raise what is not caught is the end of the directories after it. -/
namespace RetailPrintGuard.Proxy.RecoveryIsolation
open RetailPrintGuard.Library RetailPrintGuard.Library.Checks RetailPrintGuard.Common.Formats
open RetailPrintGuard.Proxy.Spool RetailPrintGuard.Proxy.Recovery
open RetailPrintGuard.Common.Runtime (runtime)

section
variable (fmt : Codec)

/-- A manifest can hold the session, with the job it names. -/
structure SessionRecoverable (session : PyJson) : Prop where
  named : ∃ jobId, session.get? "job_id" = some jobId ∧ Printable fmt jobId
  encodes : session.encodes = true
  nested : fmt.dumpsTooDeep (.obj [(.text "session", session)]) = false

/-- There is what a new manifest needs. -/
structure Derivable (directory : SpoolDirectory) : Prop where
  descriptor : ∀ content, directory.session = some content →
    fmt.loadsText content ≠ .recursionError
  session : ∀ session, loadSession fmt directory = .ok session → SessionRecoverable fmt session
  guessed : ¬Returns (loadSession fmt directory) → directory.undecoded = none
  timeline : LinesCaught fmt {} (rawLines (directory.timeline.getD []))
  untrusted : ∀ file ∈ directory.untrusted, file.1.text?.isSome = true

/-- The manifest names the job in a text of UTF-8, or cannot be read and there is
what a new one needs. -/
def ContentsRecoverable (directory : SpoolDirectory) : Prop :=
  match directory.manifest.map (manifestJob fmt) with
  | some (.ok jobId) => jobId.text?.isSome = true
  | some (.error error) => error.handled = true ∧ Derivable fmt directory
  | none => Derivable fmt directory

/-- The name without the suffix is a name, and is free. -/
def NameRecoverable (names : List (String × String)) (directory : SpoolDirectory) : Prop :=
  directory.isPartial = true →
    invalidName directory.name = false ∧ occupied names directory = false

def Recoverable (names : List (String × String)) (directory : SpoolDirectory) : Prop :=
  directory.ready = none → ContentsRecoverable fmt directory ∧ NameRecoverable names directory

/-- Every directory is recoverable at its turn. -/
def EveryTurn : List (String × String) → List (SpoolDirectory × Clock) → Prop
  | _, [] => True
  | names, (directory, _) :: rest =>
    Recoverable fmt names directory ∧ EveryTurn (namesAfter names directory) rest

/-- No directory raises, and what each would give alone is recovered. -/
def Isolates (files : List (String × String)) (directories : List (SpoolDirectory × Clock)) :
    Prop :=
  ∃ jobs, recoverIncompleteSpool fmt directories files = .ok jobs ∧
    ∀ entry ∈ directories, ∀ job, recoverIncompleteSpool fmt [entry] files = .ok [job] → job ∈ jobs

variable {fmt} {names : List (String × String)} {directory : SpoolDirectory} {clock : Clock}
  {taken : Bool}

/-! ## When one directory is recovered -/

theorem finishError_eq_none : finishError taken directory = none ↔
    (directory.isPartial = true → invalidName directory.name = false ∧ taken = false) := by
  unfold finishError
  cases directory.isPartial <;> cases invalidName directory.name <;> cases taken <;> simp

theorem returns_publish {manifest : Bytes} {jobId : PyText} :
    Returns (publish fmt taken directory manifest jobId) ↔ jobId.text?.isSome = true ∧
      (directory.isPartial = true → invalidName directory.name = false ∧ taken = false) := by
  rw [← finishError_eq_none]
  unfold publish
  cases finishError taken directory with
  | some error => exact iff_of_false (not_returns_error _) (fun h => by cases h.2)
  | none =>
    cases jobId with
    | text jobId => exact iff_of_true (returns_ok _) ⟨rfl, rfl⟩
    | lone points => exact iff_of_false (not_returns_error _) (fun h => by cases h.1)

theorem caught_loadSession : Caught (loadSession fmt directory) ↔
    ∀ content, directory.session = some content → fmt.loadsText content ≠ .recursionError := by
  unfold loadSession
  cases directory.session with
  | none => exact iff_of_true (caught_error.mpr rfl) (fun _ h => by cases h)
  | some content =>
    simp only [Option.some.injEq, forall_eq', caught_bind, caught_subscript, true_and]
    cases fmt.loadsText content with
    | recursionError =>
      exact iff_of_false (fun h => absurd (caught_error.mp h.1) (by decide)) (fun h => h rfl)
    | valueError =>
      exact iff_of_true ⟨caught_error.mpr rfl, fun _ h => by cases h⟩ (fun h => by cases h)
    | value document =>
      refine iff_of_true ⟨caught_ok _, fun _ _ session _ => ?_⟩ (fun h => by cases h)
      split
      · exact caught_ok _
      · exact caught_error.mpr rfl

/-- The session that is read is the descriptor's, or a guess where that raises
what is caught. -/
theorem readRecoverySession_eq_ok {session : PyJson} :
    readRecoverySession fmt clock directory = .ok session ↔ Caught (loadSession fmt directory) ∧
      (loadSession fmt directory = .ok session ∨
        ¬Returns (loadSession fmt directory) ∧ guessedSession clock directory = session) := by
  unfold readRecoverySession
  cases hload : loadSession fmt directory with
  | ok found =>
    rw [and_iff_right (caught_ok found)]
    exact ⟨.inl, fun h => h.resolve_right fun h => h.1 (returns_ok found)⟩
  | error error =>
    simp only [caught_error, reduceCtorEq, false_or, not_returns_error, not_false_eq_true, true_and]
    split <;> simp [*]

theorem guessedSession_recoverable :
    SessionRecoverable fmt (guessedSession clock directory) ↔ directory.undecoded = none := by
  have hnested : fmt.dumpsTooDeep (.obj [(.text "session", guessedSession clock directory)]) =
      false := fmt.dumpsTooDeep_shallow _ rfl
  have hencodes : (guessedSession clock directory).encodes = true ↔ directory.undecoded = none := by
    rw [guessedSession, PyJson.encodes_obj, List.forall_mem_cons, List.forall_mem_cons,
      and_iff_left (PyJson.encodes_ofFields _), guessedJobId]
    cases directory.undecoded <;>
      simp [PyText.text?, PyJson.encodes, PyJson.toJson?]
  exact ⟨fun h => hencodes.mp h.encodes,
    fun h => ⟨⟨_, rfl, .inl ⟨_, rfl⟩⟩, hencodes.mpr h, hnested⟩⟩

theorem encodes_recoveredFiles {raw : ByDirection Bytes} {timeline session : Bytes}
    {untrusted : List (PyText × Bytes)} :
    (recoveredFiles fmt raw timeline session untrusted).encodes = true ↔
      ∀ file ∈ untrusted, file.1.text?.isSome = true := by
  rw [recoveredFiles, filesDocument, PyJson.ofJson]
  dsimp only
  rw [PyJson.encodes_obj, List.forall_mem_append, and_iff_right (PyJson.encodes_ofFields _),
    List.forall_mem_map]
  refine forall₂_congr fun file _ => and_iff_left_of_imp fun h => ?_
  rw [preservedFacts, PyJson.encodes_obj, List.forall_mem_cons]
  refine ⟨⟨rfl, ?_⟩, PyJson.encodes_ofFields _⟩
  rw [PyJson.encodes, PyJson.toJson?, Option.isSome_map]
  exact h

theorem shallow_recoveredFiles {raw : ByDirection Bytes} {timeline session : Bytes}
    {untrusted : List (PyText × Bytes)} :
    (recoveredFiles fmt raw timeline session untrusted).shallow 2 = true := by
  rw [recoveredFiles, filesDocument, PyJson.ofJson]
  dsimp only
  rw [PyJson.shallow, List.all_append, List.all_map, Bool.and_eq_true]
  exact ⟨rfl, List.all_eq_true.mpr fun file _ => rfl⟩

theorem recoveredFields_plain {raw : ByDirection Bytes} {inspection : Inspection} :
    (Json.obj (recoveredFields clock raw inspection)).plain 2 = true := by
  have htext : (optionalText inspection.lastEvent).plain 1 = true := by
    cases inspection.lastEvent <;> rfl
  simp [recoveredFields, Json.plain, countDocument, htext, List.all_map]

/-- A recovered manifest is written exactly where its session and the names of the
manifests set aside allow it. -/
theorem returns_recoveredManifest {session : PyJson} {raw : ByDirection Bytes}
    {inspection : Inspection} {timeline content : Bytes} :
    Returns (canonicalJsonBytes fmt (recoveredManifest clock session raw inspection
        (recoveredFiles fmt raw timeline content directory.untrusted))) ↔
      session.encodes = true ∧ fmt.dumpsTooDeep (.obj [(.text "session", session)]) = false ∧
        ∀ file ∈ directory.untrusted, file.1.text?.isSome = true := by
  have hfiles : fmt.dumpsTooDeep (.obj [(.text "files",
      recoveredFiles fmt raw timeline content directory.untrusted)]) = false := by
    refine fmt.dumpsTooDeep_shallow _ (PyJson.shallow_mono (by decide : 3 ≤ 8) ?_)
    rw [PyJson.shallow, List.all_cons, shallow_recoveredFiles]
    rfl
  have hfields : ((PyJson.ofFields (recoveredFields clock raw inspection)).any fun field =>
      fmt.dumpsTooDeep (.obj [field])) = false := by
    refine List.any_eq_false.mpr fun field hfield => Bool.not_eq_true _ ▸ ?_
    refine fmt.dumpsTooDeep_shallow _ (PyJson.shallow_mono (by decide : 2 ≤ 8) ?_)
    rw [PyJson.shallow, List.all_cons, PyJson.shallow_ofFields recoveredFields_plain field hfield]
    rfl
  have hdeep : fmt.dumpsTooDeep (recoveredManifest clock session raw inspection
      (recoveredFiles fmt raw timeline content directory.untrusted)) =
      fmt.dumpsTooDeep (.obj [(.text "session", session)]) := by
    rw [recoveredManifest, fmt.dumpsTooDeep_obj, List.any_cons, List.any_cons, hfiles, hfields,
      Bool.or_self, Bool.or_false]
  have hencodes : (recoveredManifest clock session raw inspection
      (recoveredFiles fmt raw timeline content directory.untrusted)).encodes = true ↔
      session.encodes = true ∧ ∀ file ∈ directory.untrusted, file.1.text?.isSome = true := by
    rw [recoveredManifest, PyJson.encodes_obj, List.forall_mem_cons, List.forall_mem_cons,
      and_iff_left (PyJson.encodes_ofFields _), encodes_recoveredFiles]
    exact ⟨fun h => ⟨h.1.2, h.2.2⟩, fun h => ⟨⟨rfl, h.1⟩, rfl, h.2⟩⟩
  rw [← hdeep, ← and_assoc, and_right_comm, ← hencodes, PyJson.encodes, Option.isSome_iff_exists]
  unfold Returns
  simp only [canonicalJsonBytes_eq_ok]
  constructor
  · rintro ⟨_, hshallow, document, hdocument, -⟩
    exact ⟨⟨document, hdocument⟩, hshallow⟩
  · rintro ⟨⟨document, hdocument⟩, hshallow⟩
    exact ⟨_, hshallow, document, hdocument, rfl⟩

/-! ## Directories without a readable manifest -/

/-- The session that is read, or guessed, is one a manifest can hold. -/
theorem session_recoverable {session : PyJson}
    (h : readRecoverySession fmt clock directory = .ok session) :
    SessionRecoverable fmt session ↔
      (∀ session, loadSession fmt directory = .ok session → SessionRecoverable fmt session) ∧
        (¬Returns (loadSession fmt directory) → directory.undecoded = none) := by
  obtain ⟨-, hload | ⟨hload, rfl⟩⟩ := readRecoverySession_eq_ok.mp h
  · constructor
    · intro hrecoverable
      refine ⟨fun session' hload' => ?_, fun hnone => absurd ⟨session, hload⟩ hnone⟩
      cases hload.symm.trans hload'
      exact hrecoverable
    · exact fun hrecoverable => hrecoverable.1 session hload
  · rw [guessedSession_recoverable]
    exact ⟨fun hguessed => ⟨fun _ hload' => absurd ⟨_, hload'⟩ hload, fun _ => hguessed⟩,
      fun hrecoverable => hrecoverable.2 hload⟩

theorem returns_readRecoverySession : Returns (readRecoverySession fmt clock directory) ↔
    ∀ content, directory.session = some content → fmt.loadsText content ≠ .recursionError := by
  rw [← caught_loadSession]
  unfold readRecoverySession
  cases loadSession fmt directory with
  | ok session => exact iff_of_true (returns_ok _) (caught_ok _)
  | error error =>
    rw [caught_error]
    dsimp only
    split
    · next h => exact iff_of_true (returns_ok _) h
    · next h => exact iff_of_false (not_returns_error _) h

/-- The text of a field is one of UTF-8 where the whole value is. -/
theorem named_encodes {session value : PyJson} {key : String} {text : PyText}
    (h : session.encodes = true) (hvalue : session.get? key = some value)
    (hstr : strOf fmt value = .ok text) : text.text?.isSome = true := by
  cases session with
  | obj fields =>
    have hmem : (PyText.text key, value) ∈ fields := by
      obtain ⟨before, after, hfields, -⟩ := List.lookup_eq_some_iff.mp hvalue
      rw [hfields]
      exact List.mem_append_right _ List.mem_cons_self
    have hfield := (PyJson.encodes_obj.mp h _ hmem).2
    cases value with
    | str value =>
      cases hstr
      rw [PyJson.encodes, PyJson.toJson?, Option.isSome_map] at hfield
      exact hfield
    | _ =>
      simp only [strOf] at hstr
      split at hstr
      · cases hstr
      · cases hstr
        rfl
  | _ => cases hvalue

theorem returns_deriveManifest {session : PyJson} :
    Returns (deriveManifest fmt clock directory session) ↔
      LinesCaught fmt {} (rawLines (directory.timeline.getD [])) ∧ session.encodes = true ∧
        fmt.dumpsTooDeep (.obj [(.text "session", session)]) = false ∧
        ∀ file ∈ directory.untrusted, file.1.text?.isSome = true := by
  rw [← returns_inspectLines]
  simp only [deriveManifest, returns_bind, returns_pure, and_true]
  constructor
  · rintro ⟨inspection, hinspect, hmanifest⟩
    exact ⟨⟨inspection, hinspect⟩, returns_recoveredManifest.mp hmanifest⟩
  · rintro ⟨⟨inspection, hinspect⟩, hwritable⟩
    exact ⟨inspection, hinspect, returns_recoveredManifest.mpr hwritable⟩

/-- A manifest is derived exactly where its parts allow it. -/
theorem derivable_iff : Derivable fmt directory ↔
    ∃ session jobId manifest, recoverSession fmt clock directory = .ok (session, jobId) ∧
      deriveManifest fmt clock directory session = .ok manifest := by
  simp only [recoverSession_eq_ok]
  constructor
  · intro h
    obtain ⟨session, hsession⟩ := returns_readRecoverySession.mpr h.descriptor
    have hrecoverable := (@session_recoverable fmt directory clock _ hsession).mpr
      ⟨h.session, h.guessed⟩
    obtain ⟨value, hvalue, hprinted⟩ := hrecoverable.named
    obtain ⟨jobId, hjob⟩ := returns_strOf.mpr hprinted
    obtain ⟨manifest, hmanifest⟩ := (@returns_deriveManifest fmt directory clock _).mpr
      ⟨h.timeline, hrecoverable.encodes, hrecoverable.nested, h.untrusted⟩
    exact ⟨session, jobId, manifest, ⟨hsession, strAt_eq_ok.mpr ⟨value, hvalue, hjob⟩⟩, hmanifest⟩
  · rintro ⟨session, jobId, manifest, ⟨hsession, hjob⟩, hmanifest⟩
    obtain ⟨hlines, hencodes, hnested, huntrusted⟩ := returns_deriveManifest.mp ⟨manifest, hmanifest⟩
    obtain ⟨value, hvalue, hstr⟩ := strAt_eq_ok.mp hjob
    obtain ⟨hread, hguessed⟩ := (session_recoverable hsession).mp
      ⟨⟨value, hvalue, returns_strOf.mp ⟨jobId, hstr⟩⟩, hencodes, hnested⟩
    have hcaught := (readRecoverySession_eq_ok.mp hsession).1
    exact ⟨caught_loadSession.mp hcaught, hread, hguessed, hlines, huntrusted⟩

/-- The job of a session that a manifest holds is a text of UTF-8. -/
theorem job_encodes {session : PyJson} {jobId : PyText} {manifest : Bytes}
    (hsession : recoverSession fmt clock directory = .ok (session, jobId))
    (hmanifest : deriveManifest fmt clock directory session = .ok manifest) :
    jobId.text?.isSome = true := by
  obtain ⟨value, hvalue, hstr⟩ := strAt_eq_ok.mp (recoverSession_eq_ok.mp hsession).2
  exact named_encodes (returns_deriveManifest.mp ⟨manifest, hmanifest⟩).2.1 hvalue hstr

/-- It is published where its name allows it. -/
theorem returns_recoverFiles : Returns (recoverFiles fmt clock taken directory) ↔
    Derivable fmt directory ∧
      (directory.isPartial = true → invalidName directory.name = false ∧ taken = false) := by
  constructor
  · rintro ⟨job, hok⟩
    obtain ⟨session, jobId, manifest, hsession, hmanifest, hpublish⟩ := recoverFiles_eq_ok.mp hok
    exact ⟨derivable_iff.mpr ⟨session, jobId, manifest, hsession, hmanifest⟩,
      (returns_publish.mp ⟨job, hpublish⟩).2⟩
  · rintro ⟨h, hfree⟩
    obtain ⟨session, jobId, manifest, hsession, hmanifest⟩ := (@derivable_iff fmt _ clock).mp h
    obtain ⟨job, hpublish⟩ := (@returns_publish fmt directory taken manifest jobId).mpr
      ⟨job_encodes hsession hmanifest, hfree⟩
    exact ⟨job, recoverFiles_eq_ok.mpr ⟨session, jobId, manifest, hsession, hmanifest, hpublish⟩⟩

theorem derivable_setAside (manifest : Bytes) :
    Derivable fmt (setAside clock directory manifest) ↔ Derivable fmt directory := by
  have huntrusted : (∀ file ∈ (setAside clock directory manifest).untrusted,
      file.1.text?.isSome = true) ↔ ∀ file ∈ directory.untrusted, file.1.text?.isSome = true := by
    rw [setAside, List.forall_mem_append, List.forall_mem_singleton]
    exact and_iff_left rfl
  exact ⟨fun h => ⟨h.descriptor, h.session, h.guessed, h.timeline, huntrusted.mp h.untrusted⟩,
    fun h => ⟨h.descriptor, h.session, h.guessed, h.timeline, huntrusted.mpr h.untrusted⟩⟩

theorem returns_recoverDirectory :
    Returns (recoverDirectory fmt clock (occupied names directory) directory) ↔
      Recoverable fmt names directory := by
  unfold recoverDirectory Recoverable ContentsRecoverable NameRecoverable
  cases hready : directory.ready with
  | some marker => exact iff_of_true (returns_ok _) (fun h => by cases h)
  | none =>
    rw [eq_self_iff_true, true_implies]
    cases hmanifest : directory.manifest with
    | none =>
      dsimp only [Option.map_none]
      rw [returns_map, returns_recoverFiles]
    | some manifest =>
      dsimp only [Option.map_some]
      cases hjob : manifestJob fmt manifest with
      | error error =>
        dsimp only
        split
        · next h =>
          rw [returns_map, returns_recoverFiles, derivable_setAside, and_iff_right h]
          rfl
        · next h => exact iff_of_false (not_returns_error _) fun hok => h hok.1.1
      | ok jobId => exact returns_map.trans returns_publish

theorem returns_recoverFrom {entries : List (SpoolDirectory × Clock)} :
    Returns (recoverFrom fmt names entries) ↔ EveryTurn fmt names entries := by
  induction entries generalizing names with
  | nil => exact iff_of_true (returns_ok _) trivial
  | cons entry entries ih =>
    rw [recoverFrom, EveryTurn, ← @returns_recoverDirectory fmt names entry.1 entry.2, ← ih]
    simp only [returns_bind, returns_pure, and_true]
    exact exists_and_right

/-! ## What it is recovered to -/

theorem publish_unique {manifest : Bytes} {jobId : PyText} {taken taken' : Bool}
    {job job' : JobDirectory} (h : publish fmt taken directory manifest jobId = .ok job)
    (h' : publish fmt taken' directory manifest jobId = .ok job') : job = job' := by
  have hready : ∀ {taken job}, publish fmt taken directory manifest jobId = .ok job →
      publishReady fmt directory manifest jobId = .ok job := by
    intro taken job hok
    unfold publish at hok
    split at hok
    · cases hok
    · exact hok
  exact Except.ok.inj ((hready h).symm.trans (hready h'))

theorem recoverDirectory_unique {taken taken' : Bool} {job job' : Option JobDirectory}
    (h : recoverDirectory fmt clock taken directory = .ok job)
    (h' : recoverDirectory fmt clock taken' directory = .ok job') : job = job' := by
  have hfiles : ∀ directory {job job'}, (recoverFiles fmt clock taken directory).map some = .ok job →
      (recoverFiles fmt clock taken' directory).map some = .ok job' → job = job' := by
    intro directory job job' h h'
    obtain ⟨files, hfiles, rfl⟩ := map_eq_ok.mp h
    obtain ⟨files', hfiles', rfl⟩ := map_eq_ok.mp h'
    obtain ⟨session, jobId, manifest, hsession, hmanifest, hpublish⟩ :=
      recoverFiles_eq_ok.mp hfiles
    obtain ⟨session', jobId', manifest', hsession', hmanifest', hpublish'⟩ :=
      recoverFiles_eq_ok.mp hfiles'
    cases hsession.symm.trans hsession'
    cases hmanifest.symm.trans hmanifest'
    exact congrArg some (publish_unique hpublish hpublish')
  unfold recoverDirectory at h h'
  cases hready : directory.ready with
  | some marker =>
    rw [hready] at h h'
    exact Except.ok.inj (h.symm.trans h')
  | none =>
    rw [hready] at h h'
    cases hmanifest : directory.manifest with
    | none =>
      rw [hmanifest] at h h'
      exact hfiles _ h h'
    | some manifest =>
      rw [hmanifest] at h h'
      dsimp only at h h'
      cases hjob : manifestJob fmt manifest with
      | error error =>
        rw [hjob] at h h'
        dsimp only at h h'
        split at h
        · next hhandled =>
          rw [if_pos hhandled] at h'
          exact hfiles _ h h'
        · cases h
      | ok jobId =>
        rw [hjob] at h h'
        obtain ⟨published, hpublish, rfl⟩ := map_eq_ok.mp h
        obtain ⟨published', hpublish', rfl⟩ := map_eq_ok.mp h'
        exact congrArg some (publish_unique hpublish hpublish')

theorem mem_recoverFrom {entries : List (SpoolDirectory × Clock)} {jobs : List JobDirectory}
    (h : recoverFrom fmt names entries = .ok jobs) {entry : SpoolDirectory × Clock}
    (hentry : entry ∈ entries) {job : JobDirectory}
    (hjob : recoverDirectory fmt entry.2 taken entry.1 = .ok (some job)) : job ∈ jobs := by
  induction entries generalizing names jobs with
  | nil => exact absurd hentry List.not_mem_nil
  | cons first entries ih =>
    obtain ⟨recovered, hfirst, h⟩ := bind_eq_ok.mp h
    obtain ⟨later, hlater, h⟩ := bind_eq_ok.mp h
    rw [← pure_eq_ok.mp h]
    rcases List.mem_cons.mp hentry with rfl | hentry
    · rw [recoverDirectory_unique hfirst hjob]
      exact List.mem_append_left _ (List.mem_singleton.mpr rfl)
    · exact List.mem_append_right _ (ih hlater hentry)

theorem recoverFrom_singleton {entry : SpoolDirectory × Clock} {job : JobDirectory}
    (h : recoverFrom fmt names [entry] = .ok [job]) :
    recoverDirectory fmt entry.2 (occupied names entry.1) entry.1 = .ok (some job) := by
  obtain ⟨recovered, hrecover, h⟩ := bind_eq_ok.mp h
  obtain ⟨later, hlater, h⟩ := bind_eq_ok.mp h
  cases Except.ok.inj hlater
  have hjobs : recovered.toList ++ [] = [job] := pure_eq_ok.mp h
  cases recovered with
  | none => cases hjobs
  | some published =>
    cases hjobs
    exact hrecover

end

/-! ## A line that is a number -/

def startClock : Clock where
  session := "2026-07-01T10:00:02.000000Z"
  closed := "2026-07-01T10:00:02.000000Z"
  unique := "5f0c1a7de2b34c6f8a9b0c1d2e3f4a5b"

/-- A remnant with nothing but a timeline. -/
def remnant (name : String) (timeline : Bytes) : SpoolDirectory where
  deviceId := "pos_crash"
  name
  isPartial := true
  raw := .const none
  timeline := some timeline
  session := none
  manifest := none
  ready := none

/-- The first line of the first remnant is the number 1. -/
def scalarSpool : List (SpoolDirectory × Clock) :=
  [(remnant "20260701T100000000000Z_0" [49, newline], startClock),
    (remnant "20260701T100001000000Z_1" [], startClock)]

end RetailPrintGuard.Proxy.RecoveryIsolation
