import Mathlib.Data.Prod.Lex
import Mathlib.Data.List.Sort
import RetailPrintGuard.Proxy.RecoveryIsolation

/-! # What a recovery leaves behind

`recover_incomplete_spool` on a spool tree, with the directories as they are
after it, whether it returns or raises. -/
namespace RetailPrintGuard.Proxy.RecoveryRuns
open RetailPrintGuard.Library RetailPrintGuard.Library.Checks RetailPrintGuard.Common.Formats
open RetailPrintGuard.Proxy.Spool RetailPrintGuard.Proxy.Recovery
open RetailPrintGuard.Proxy.RecoveryIsolation
open RetailPrintGuard.Common.Runtime (runtime)

/-! ## Spool trees -/

structure Tree where
  directories : List SpoolDirectory
  /-- the plain files beside the directories -/
  files : List (String × String) := []
  distinct : (files ++ spoolNames directories).Nodup

/-- The device root, then the name in it. -/
def place (directory : SpoolDirectory) : String ×ₗ String :=
  toLex (directory.deviceId, directory.fullName)

/-- The directories in the order they are visited. -/
def inOrder (directories : List SpoolDirectory) : List SpoolDirectory :=
  directories.insertionSort fun a b => place a ≤ place b

/-- The files that are missing are created empty. -/
def SpoolDirectory.created (directory : SpoolDirectory) : SpoolDirectory :=
  { directory with
    raw := ⟨some (presentRaw directory).clientToDevice, some (presentRaw directory).deviceToClient⟩
    timeline := some (directory.timeline.getD [])
    session := some (directory.session.getD []) }

/-- What a run leaves: the directories in the order they were visited, the jobs
it published, and what it raised. -/
structure Outcome where
  directories : List SpoolDirectory := []
  published : List JobDirectory := []
  error : Option String := none

section
variable (fmt : Codec)

/-! ## One directory -/

/-- `_finish_recovered_directory` and `_publish_ready`: the directory is renamed
before the marker is written. -/
def finish (taken : Bool) (directory : SpoolDirectory) (manifest : Bytes) (jobId : PyText) :
    SpoolDirectory × Except String JobDirectory :=
  match finishError taken directory with
  | some error => (directory, .error error)
  | none =>
    let renamed := { directory with isPartial := false }
    match publishReady fmt directory manifest jobId with
    | .error error => (renamed, .error error)
    | .ok job => ({ renamed with ready := some job.ready }, .ok job)

/-- The manifest is derived and written before the directory gets its name. -/
def derive (clock : Clock) (taken : Bool) (directory : SpoolDirectory) :
    SpoolDirectory × Except String JobDirectory :=
  match recoverSession fmt clock directory with
  | .error error => (directory, .error error.name)
  | .ok (session, jobId) =>
    match deriveManifest fmt clock directory session with
    | .error error => (SpoolDirectory.created directory, .error error.name)
    | .ok manifest =>
      finish fmt taken { SpoolDirectory.created directory with manifest := some manifest } manifest
        jobId

def visit (clock : Clock) (taken : Bool) (directory : SpoolDirectory) :
    SpoolDirectory × Except String (Option JobDirectory) :=
  match directory.ready with
  | some _ => (directory, .ok none)
  | none =>
    match directory.manifest with
    | some manifest =>
      match manifestJob fmt manifest with
      | .ok jobId => (finish fmt taken directory manifest jobId).map id (Except.map some)
      | .error error =>
        if error.handled then
          (derive fmt clock taken (setAside clock directory manifest)).map id (Except.map some)
        else (directory, .error error.name)
    | none => (derive fmt clock taken directory).map id (Except.map some)

/-! ## The tree -/

variable (wanted : String → Bool) (clock : SpoolDirectory → Clock)

def visitFrom (names : List (String × String)) : List SpoolDirectory → Outcome
  | [] => {}
  | directory :: rest =>
    if wanted directory.deviceId then
      match visit fmt (clock directory) (occupied names directory) directory with
      | (after, .error error) => { directories := after :: rest, error := some error }
      | (after, .ok job) =>
        let later := visitFrom (namesAfter names directory) rest
        { directories := after :: later.directories
          published := job.toList ++ later.published
          error := later.error }
    else
      let later := visitFrom names rest
      { later with directories := directory :: later.directories }

/-- `recover_incomplete_spool` -/
def recoverSpool (deviceIds : Option (List String)) (files : List (String × String))
    (directories : List SpoolDirectory) : Outcome :=
  visitFrom fmt (fun deviceId => deviceIds.all fun ids => ids.contains deviceId) clock
    (files ++ spoolNames directories) (inOrder directories)

end

/-! ## What is kept -/

/-- No byte of an artifact changes; one that is missing may be created empty. -/
structure Keeps (before after : SpoolDirectory) : Prop where
  device : after.deviceId = before.deviceId
  name : after.name = before.name
  raw : ∀ direction, ∀ content ∈ before.raw.get direction, after.raw.get direction = some content
  created : ∀ direction, before.raw.get direction = none →
    after.raw.get direction = none ∨ after.raw.get direction = some []
  timeline : ∀ content ∈ before.timeline, after.timeline = some content
  session : ∀ content ∈ before.session, after.session = some content
  ready : before.ready.isSome = true → after = before

theorem keeps_refl (directory : SpoolDirectory) : Keeps directory directory :=
  ⟨rfl, rfl, fun _ _ h => h, fun _ h => .inl h, fun _ h => h, fun _ h => h, fun _ => rfl⟩

section
variable {fmt : Codec} {clock : Clock} {taken : Bool} {directory after : SpoolDirectory}

/-- A directory that is not published yet. -/
structure Remnant (before after : SpoolDirectory) : Prop where
  keeps : Keeps before after
  unready : after.ready = none
  same : after.isPartial = before.isPartial

theorem remnant_created (hready : directory.ready = none) :
    Remnant directory (SpoolDirectory.created directory) where
  keeps :=
    { device := rfl
      name := rfl
      raw := by
        intro direction content hcontent
        cases direction with
        | clientToDevice => exact congrArg some (congrArg (Option.getD · []) hcontent)
        | deviceToClient => exact congrArg some (congrArg (Option.getD · []) hcontent)
      created := by
        intro direction hnone
        cases direction with
        | clientToDevice => exact .inr (congrArg some (congrArg (Option.getD · []) hnone))
        | deviceToClient => exact .inr (congrArg some (congrArg (Option.getD · []) hnone))
      timeline := fun content hcontent => congrArg some (congrArg (Option.getD · []) hcontent)
      session := fun content hcontent => congrArg some (congrArg (Option.getD · []) hcontent)
      ready := fun h => by
        rw [hready] at h
        cases h }
  unready := hready
  same := rfl

/-- A manifest is no artifact. -/
theorem Remnant.withManifest (h : Remnant directory after) (manifest : Option Bytes)
    (untrusted : List (PyText × Bytes)) (hready : directory.ready = none) :
    Remnant directory { after with manifest, untrusted } where
  keeps :=
    { h.keeps with
      ready := fun hsome => by
        rw [hready] at hsome
        cases hsome }
  unready := h.unready
  same := h.same

theorem Remnant.trans {third : SpoolDirectory} (h : Remnant directory after)
    (h' : Remnant after third) (hready : directory.ready = none) : Remnant directory third where
  keeps :=
    { device := h'.keeps.device.trans h.keeps.device
      name := h'.keeps.name.trans h.keeps.name
      raw := fun direction content hcontent =>
        h'.keeps.raw direction content (h.keeps.raw direction content hcontent)
      created := fun direction hnone => by
        rcases h.keeps.created direction hnone with hafter | hafter
        · exact h'.keeps.created direction hafter
        · exact .inr (h'.keeps.raw direction [] hafter)
      timeline := fun content hcontent =>
        h'.keeps.timeline content (h.keeps.timeline content hcontent)
      session := fun content hcontent => h'.keeps.session content (h.keeps.session content hcontent)
      ready := fun hsome => by
        rw [hready] at hsome
        cases hsome }
  unready := h'.unready
  same := h'.same.trans h.same

theorem remnant_refl (hready : directory.ready = none) : Remnant directory directory :=
  ⟨keeps_refl directory, hready, rfl⟩

theorem remnant_setAside (hready : directory.ready = none) (manifest : Bytes) :
    Remnant directory (setAside clock directory manifest) :=
  (remnant_refl hready).withManifest none _ hready

/-! ## What one visit does -/

/-- The directory can be given its final name. -/
def NameFree (taken : Bool) (directory : SpoolDirectory) : Prop :=
  directory.isPartial = true → invalidName directory.name = false ∧ taken = false

/-- A manifest that says that the job is partial. -/
def SaysPartial (manifest : Bytes) : Prop :=
  ∃ document : Json, manifest = document.dumps ++ [newline] ∧
    document.get? "status" = some (.str "PARTIAL")

/-- The manifest of a directory names no job, or cannot be read. -/
def Unread (fmt : Codec) (directory : SpoolDirectory) : Prop :=
  ∀ manifest, directory.manifest = some manifest → ¬Returns (manifestJob fmt manifest)

/-- A job is published with the manifest of its directory where that can be read,
and as partial where it cannot. -/
def Justified (fmt : Codec) (before : SpoolDirectory) (job : JobDirectory) : Prop :=
  (before.manifest = some job.manifest ∧ Returns (manifestJob fmt job.manifest)) ∨
    (Unread fmt before ∧ SaysPartial job.manifest)

/-- A directory that gets its name, its manifest and its marker. -/
structure Published (before after : SpoolDirectory) (job : JobDirectory) : Prop where
  keeps : Keeps before after
  ready : after.ready = some job.ready
  manifest : after.manifest = some job.manifest
  named : after.isPartial = false

/-- A visit that raises leaves a remnant that raises again, with its final name
where only the marker cannot be written. -/
inductive Visited (fmt : Codec) (taken : Bool) (before after : SpoolDirectory) :
    Except String (Option JobDirectory) → Prop
  | skipped (hready : before.ready.isSome = true) (hsame : after = before) :
      Visited fmt taken before after (.ok none)
  | published (job : JobDirectory) (hready : before.ready = none) (hfree : NameFree taken before)
      (h : Published before after job) (hjustified : Justified fmt before job) :
      Visited fmt taken before after (.ok (some job))
  | raised (error : String) (hready : before.ready = none) (h : Remnant before after)
      (hagain : ¬(ContentsRecoverable fmt after ∧ NameFree taken after)) :
      Visited fmt taken before after (.error error)
  | unmarked (error : String) (hready : before.ready = none) (hfree : NameFree taken before)
      (hsame : after = { before with isPartial := false })
      (hagain : ¬ContentsRecoverable fmt after) :
      Visited fmt taken before after (.error error)

theorem finish_cases (manifest : Bytes) (jobId : PyText) :
    (∃ error, finish fmt taken directory manifest jobId = (directory, .error error) ∧
      ¬NameFree taken directory) ∨
    (∃ error, finish fmt taken directory manifest jobId =
        ({ directory with isPartial := false }, .error error) ∧
      NameFree taken directory ∧ jobId.text?.isSome = false) ∨
    ∃ job, finish fmt taken directory manifest jobId =
        ({ directory with isPartial := false, ready := some job.ready }, .ok job) ∧
      job.manifest = manifest ∧ NameFree taken directory := by
  have hnone := @finishError_eq_none directory taken
  unfold finish
  cases herror : finishError taken directory with
  | some error =>
    rw [herror] at hnone
    exact .inl ⟨error, rfl, fun hfree => Option.some_ne_none _ (hnone.mpr hfree)⟩
  | none =>
    have hfree : NameFree taken directory := hnone.mp herror
    cases jobId with
    | lone points => exact .inr (.inl ⟨_, rfl, hfree, rfl⟩)
    | text jobId => exact .inr (.inr ⟨_, rfl, rfl, hfree⟩)

/-- A remnant that is published. -/
theorem Remnant.published {job : JobDirectory} (h : Remnant directory after)
    (hready : directory.ready = none) (hmanifest : after.manifest = some job.manifest) :
    Published directory { after with isPartial := false, ready := some job.ready } job where
  keeps :=
    { h.keeps with
      ready := fun hsome => by
        rw [hready] at hsome
        cases hsome }
  ready := rfl
  manifest := hmanifest
  named := rfl

theorem Remnant.nameFree (h : Remnant directory after) :
    NameFree taken after ↔ NameFree taken directory := by
  rw [NameFree, NameFree, h.same, h.keeps.name]

theorem deriveManifest_partial {session : PyJson} {manifest : Bytes}
    (h : deriveManifest fmt clock directory session = .ok manifest) : SaysPartial manifest := by
  obtain ⟨inspection, _, -, hbytes, rfl⟩ := deriveManifest_eq_ok.mp h
  obtain ⟨-, document, hdocument, rfl⟩ := canonicalJsonBytes_eq_ok.mp hbytes
  have hstatus : (recoveredManifest clock session (presentRaw directory) inspection
      (recoveredFiles fmt (presentRaw directory) (directory.timeline.getD [])
        (directory.session.getD []) directory.untrusted)).get? "status" =
      some (.str (.text "PARTIAL")) := rfl
  exact ⟨document, rfl, PyJson.get?_toJson? hdocument hstatus⟩

/-- A descriptor that is created empty cannot be read either. -/
theorem loadSession_created (session : PyJson) :
    (loadSession fmt (SpoolDirectory.created directory) = .ok session ↔
      loadSession fmt directory = .ok session) ∧
    (Caught (loadSession fmt (SpoolDirectory.created directory)) ↔
      Caught (loadSession fmt directory)) := by
  unfold loadSession SpoolDirectory.created
  cases directory.session with
  | some content => exact ⟨Iff.rfl, Iff.rfl⟩
  | none =>
    dsimp only [Option.getD_none]
    rw [fmt.loadsText_nil]
    exact ⟨iff_of_false (fun h => by cases h) (fun h => by cases h),
      iff_of_true (caught_error.mpr rfl) (caught_error.mpr rfl)⟩

/-- The files that are created change nothing that a manifest needs. -/
theorem derivable_created :
    Derivable fmt (SpoolDirectory.created directory) ↔ Derivable fmt directory := by
  have hsession : ∀ session, loadSession fmt (SpoolDirectory.created directory) = .ok session ↔
      loadSession fmt directory = .ok session := fun session => (loadSession_created session).1
  have hcaught := (@loadSession_created fmt directory .null).2
  rw [caught_loadSession, caught_loadSession] at hcaught
  have hreturns : Returns (loadSession fmt (SpoolDirectory.created directory)) ↔
      Returns (loadSession fmt directory) := exists_congr hsession
  constructor
  · intro h
    exact ⟨hcaught.mp h.descriptor, fun session hload => h.session session ((hsession session).mpr hload),
      fun hnone => h.guessed (hreturns.not.mpr hnone), h.timeline, h.untrusted⟩
  · intro h
    exact ⟨hcaught.mpr h.descriptor, fun session hload => h.session session ((hsession session).mp hload),
      fun hnone => h.guessed (hreturns.not.mp hnone), h.timeline, h.untrusted⟩

theorem contentsRecoverable_of_none (hmanifest : directory.manifest = none) :
    ContentsRecoverable fmt directory ↔ Derivable fmt directory := by
  rw [ContentsRecoverable, hmanifest]
  rfl

/-- A directory whose manifest is derived, after what was set aside. -/
theorem derive_visited {before : SpoolDirectory} (hready : before.ready = none)
    (hunread : Unread fmt before) (h : Remnant before directory)
    (hmanifest : directory.manifest = none) :
    Visited fmt taken before (derive fmt clock taken directory).1
      ((derive fmt clock taken directory).2.map some) := by
  have hcreated : Remnant before (SpoolDirectory.created directory) :=
    h.trans (remnant_created h.unready) hready
  unfold derive
  cases hsession : recoverSession fmt clock directory with
  | error error =>
    refine .raised _ hready h fun hagain => ?_
    obtain ⟨session, jobId, manifest, hok, -⟩ := (@derivable_iff fmt directory clock).mp
      ((contentsRecoverable_of_none hmanifest).mp hagain.1)
    rw [hsession] at hok
    cases hok
  | ok found =>
    obtain ⟨session, jobId⟩ := found
    cases hderived : deriveManifest fmt clock directory session with
    | error error =>
      simp only [hderived]
      refine .raised _ hready hcreated fun hagain => ?_
      have hderivable := (@contentsRecoverable_of_none fmt (SpoolDirectory.created directory)
        hmanifest).mp hagain.1
      obtain ⟨session', jobId', manifest, hok, hok'⟩ := (@derivable_iff fmt directory clock).mp
        (derivable_created.mp hderivable)
      cases hsession.symm.trans hok
      rw [hderived] at hok'
      cases hok'
    | ok manifest =>
      simp only [hderived]
      let written := { SpoolDirectory.created directory with manifest := some manifest }
      have hwritten : Remnant before written :=
        hcreated.withManifest (some manifest) directory.untrusted hready
      show Visited fmt taken before (finish fmt taken written manifest jobId).1
        ((finish fmt taken written manifest jobId).2.map some)
      rcases @finish_cases fmt taken written manifest jobId with
        ⟨error, hfinish, hname⟩ | ⟨error, hfinish, -, hlone⟩ | ⟨job, hfinish, hjobManifest, hfree⟩
      · rw [hfinish]
        exact .raised error hready hwritten fun hagain => hname hagain.2
      · rw [job_encodes hsession hderived] at hlone
        cases hlone
      · rw [hfinish]
        refine .published job hready (hwritten.nameFree.mp hfree)
          (hwritten.published hready (congrArg some hjobManifest.symm)) (.inr ⟨hunread, ?_⟩)
        rw [hjobManifest]
        exact deriveManifest_partial hderived

theorem visit_visited : Visited fmt taken directory (visit fmt clock taken directory).1
    (visit fmt clock taken directory).2 := by
  unfold visit
  cases hready : directory.ready with
  | some marker => exact .skipped (by rw [hready]; rfl) rfl
  | none =>
    cases hmanifest : directory.manifest with
    | none =>
      refine derive_visited hready (fun manifest hsome => ?_) (remnant_refl hready) hmanifest
      rw [hmanifest] at hsome
      cases hsome
    | some manifest =>
      dsimp only
      have hcontents : ∀ {after : SpoolDirectory}, after.manifest = some manifest →
          (ContentsRecoverable fmt after ↔ match manifestJob fmt manifest with
            | .ok jobId => jobId.text?.isSome = true
            | .error error => error.handled = true ∧ Derivable fmt after) := by
        intro after hafter
        rw [ContentsRecoverable, hafter, Option.map_some]
        cases manifestJob fmt manifest <;> rfl
      cases hjob : manifestJob fmt manifest with
      | error error =>
        dsimp only
        split
        · next hhandled =>
          refine derive_visited hready (fun other hother => ?_) (remnant_setAside hready manifest) rfl
          cases hmanifest.symm.trans hother
          rw [hjob]
          exact not_returns_error error
        · next hunhandled =>
          refine .raised _ hready (remnant_refl hready) fun hagain => ?_
          have hrecoverable := (hcontents hmanifest).mp hagain.1
          rw [hjob] at hrecoverable
          exact hunhandled hrecoverable.1
      | ok jobId =>
        show Visited fmt taken directory (finish fmt taken directory manifest jobId).1
          ((finish fmt taken directory manifest jobId).2.map some)
        rcases @finish_cases fmt taken directory manifest jobId with
          ⟨error, hfinish, hname⟩ | ⟨error, hfinish, hfree, hlone⟩ |
            ⟨job, hfinish, hjobManifest, hfree⟩
        · rw [hfinish]
          exact .raised error hready (remnant_refl hready) fun hagain => hname hagain.2
        · rw [hfinish]
          refine .unmarked error hready hfree rfl fun hagain => ?_
          have hnamed := (@hcontents { directory with isPartial := false } hmanifest).mp hagain
          rw [hjob] at hnamed
          exact Bool.false_ne_true (hlone.symm.trans hnamed)
        · rw [hfinish]
          have hkept : directory.manifest = some job.manifest := by rw [hmanifest, hjobManifest]
          refine .published job hready hfree ((remnant_refl hready).published hready hkept)
            (.inl ⟨hkept, ?_⟩)
          rw [hjobManifest]
          exact ⟨jobId, hjob⟩

/-- What a visit returns is what is recovered. -/
theorem visit_result : (visit fmt clock taken directory).2 =
    recoverDirectory fmt clock taken directory := by
  have hfinish : ∀ (directory : SpoolDirectory) manifest jobId,
      (finish fmt taken directory manifest jobId).2 = publish fmt taken directory manifest jobId := by
    intro directory manifest jobId
    unfold finish publish
    cases finishError taken directory with
    | some error => rfl
    | none => cases jobId <;> rfl
  have hderive : ∀ directory : SpoolDirectory, (derive fmt clock taken directory).2 =
      recoverFiles fmt clock taken directory := by
    intro directory
    unfold derive recoverFiles
    cases recoverSession fmt clock directory with
    | error error => rfl
    | ok found =>
      obtain ⟨session, jobId⟩ := found
      dsimp only
      cases hderived : deriveManifest fmt clock directory session with
      | error error =>
        show _ = Except.bind (Except.mapError _ (deriveManifest fmt clock directory session)) _
        rw [hderived]
        rfl
      | ok manifest =>
        show _ = Except.bind (Except.mapError _ (deriveManifest fmt clock directory session)) _
        rw [hderived]
        exact (hfinish _ _ _).trans rfl
  unfold visit recoverDirectory
  cases directory.ready with
  | some marker => rfl
  | none =>
    cases directory.manifest with
    | none => exact congrArg (Except.map some) (hderive _)
    | some manifest =>
      dsimp only
      cases manifestJob fmt manifest with
      | error error =>
        dsimp only
        split
        · exact congrArg (Except.map some) (hderive _)
        · rfl
      | ok jobId => exact congrArg (Except.map some) (hfinish _ _ _)

/-- A directory that gets its final name. -/
theorem keeps_renamed (hready : directory.ready = none) :
    Keeps directory { directory with isPartial := false } :=
  { keeps_refl directory with
    ready := fun h => by
      rw [hready] at h
      cases h }

theorem Visited.keeps {result : Except String (Option JobDirectory)}
    (h : Visited fmt taken directory after result) : Keeps directory after := by
  cases h with
  | skipped _ hsame =>
    rw [hsame]
    exact keeps_refl directory
  | published job _ _ h => exact h.keeps
  | raised error _ h => exact h.keeps
  | unmarked error hready _ hsame =>
    rw [hsame]
    exact keeps_renamed hready

end

/-! ## Runs -/

section
variable {fmt : Codec} {wanted : String → Bool} {clock : SpoolDirectory → Clock}
  {names files : List (String × String)} {directories : List SpoolDirectory}

/-- A directory that is not recovered: one of another device, or with a marker. -/
def Settled (wanted : String → Bool) (directory : SpoolDirectory) : Prop :=
  wanted directory.deviceId = true → directory.ready.isSome = true

theorem visitFrom_keeps : List.Forall₂ Keeps directories
    (visitFrom fmt wanted clock names directories).directories := by
  induction directories generalizing names with
  | nil => exact .nil
  | cons directory rest ih =>
    unfold visitFrom
    split
    · have hvisited := (@visit_visited fmt (clock directory) (occupied names directory)
        directory).keeps
      split
      · next hvisit =>
        rw [hvisit] at hvisited
        exact .cons hvisited (List.forall₂_same.mpr fun d _ => keeps_refl d)
      · next hvisit =>
        rw [hvisit] at hvisited
        exact .cons hvisited ih
    · exact .cons (keeps_refl directory) ih

/-- Every job that is published is justified by the directory it was. -/
theorem visitFrom_published {job : JobDirectory}
    (hjob : job ∈ (visitFrom fmt wanted clock names directories).published) :
    ∃ before ∈ directories, before.ready = none ∧ Justified fmt before job ∧
      ∃ after ∈ (visitFrom fmt wanted clock names directories).directories,
        Published before after job := by
  induction directories generalizing names with
  | nil => cases hjob
  | cons directory rest ih =>
    unfold visitFrom at hjob ⊢
    split at hjob
    · next hwanted =>
      rw [if_pos hwanted]
      have hvisited := @visit_visited fmt (clock directory) (occupied names directory) directory
      cases hvisit : visit fmt (clock directory) (occupied names directory) directory with
      | mk after result =>
        rw [hvisit] at hjob hvisited
        cases hvisited with
        | raised error => cases hjob
        | unmarked error => cases hjob
        | skipped =>
          obtain ⟨before, hbefore, hready, hjustified, after', hafter', h⟩ := ih hjob
          exact ⟨before, List.mem_cons_of_mem _ hbefore, hready, hjustified, after',
            List.mem_cons_of_mem _ hafter', h⟩
        | published published hready _ hpublished hjustified =>
          rcases List.mem_cons.mp hjob with rfl | hjob
          · exact ⟨directory, List.mem_cons_self, hready, hjustified, after, List.mem_cons_self,
              hpublished⟩
          · obtain ⟨before, hbefore, hready, hjustified, after', hafter', h⟩ := ih hjob
            exact ⟨before, List.mem_cons_of_mem _ hbefore, hready, hjustified, after',
              List.mem_cons_of_mem _ hafter', h⟩
    · next hother =>
      rw [if_neg hother]
      obtain ⟨before, hbefore, hready, hjustified, after', hafter', h⟩ := ih hjob
      exact ⟨before, List.mem_cons_of_mem _ hbefore, hready, hjustified, after',
        List.mem_cons_of_mem _ hafter', h⟩

/-- Directories that are settled are passed over. -/
theorem visitFrom_settled {rest : List SpoolDirectory}
    (h : ∀ directory ∈ directories, Settled wanted directory) :
    (visitFrom fmt wanted clock names (directories ++ rest)).published =
      (visitFrom fmt wanted clock names rest).published := by
  induction directories with
  | nil => rfl
  | cons directory directories ih =>
    rw [List.forall_mem_cons] at h
    rw [List.cons_append, visitFrom]
    split
    · next hwanted =>
      obtain ⟨marker, hready⟩ := Option.isSome_iff_exists.mp (h.1 hwanted)
      have hnames : namesAfter names directory = names := by
        rw [namesAfter, hready]
        rfl
      have hvisit : visit fmt (clock directory) (occupied names directory) directory =
          (directory, .ok none) := by
        rw [visit, hready]
      rw [hvisit, hnames]
      exact ih h.2
    · exact ih h.2

/-! ## The names -/

theorem spoolNames_append (more : List SpoolDirectory) :
    spoolNames (directories ++ more) = spoolNames directories ++ spoolNames more :=
  List.map_append

/-- The names of a spool at a turn. -/
structure NamesOf (names files : List (String × String)) (directories : List SpoolDirectory) :
    Prop where
  distinct : (files ++ spoolNames directories).Nodup
  mem_iff : ∀ name, name ∈ names ↔ name ∈ files ++ spoolNames directories

theorem occupied_eq {names' : List (String × String)} {directory after : SpoolDirectory}
    (h : ∀ name, name ∈ names' ↔ name ∈ names)
    (hname : after.name = directory.name) (hdevice : after.deviceId = directory.deviceId) :
    occupied names' after = occupied names directory := by
  rw [occupied, occupied, hname, hdevice, Bool.eq_iff_iff]
  simp [h]

/-- One name for another in a list of names. -/
theorem replace_name {α : Type} {before after : List α} {a b : α}
    (h : (before ++ a :: after).Nodup) (hb : b ∉ before ++ a :: after) :
    (before ++ b :: after).Nodup ∧
      ∀ x, x ∈ before ++ b :: after ↔ x = b ∨ x ∈ before ++ a :: after ∧ x ≠ a := by
  rw [List.nodup_middle, List.nodup_cons] at h ⊢
  simp only [List.mem_append, List.mem_cons, not_or] at h hb ⊢
  refine ⟨⟨⟨hb.1, hb.2.2⟩, h.2⟩, fun x => ?_⟩
  constructor
  · rintro (hx | rfl | hx)
    · exact .inr ⟨.inl hx, fun heq => h.1.1 (heq ▸ hx)⟩
    · exact .inl rfl
    · exact .inr ⟨.inr (.inr hx), fun heq => h.1.2 (heq ▸ hx)⟩
  · rintro (rfl | ⟨hx | rfl | hx, hne⟩)
    · exact .inr (.inl rfl)
    · exact .inl hx
    · exact absurd rfl hne
    · exact .inr (.inr hx)

/-- The names after a directory got its final name. -/
theorem NamesOf.renamed {done rest : List SpoolDirectory} {before after : SpoolDirectory}
    (h : NamesOf names files (done ++ before :: rest))
    (hready : before.ready = none) (hfree : NameFree (occupied names before) before)
    (hkeeps : Keeps before after) (hnamed : after.isPartial = false) :
    NamesOf (namesAfter names before) files (done ++ after :: rest) := by
  have hdevice := hkeeps.device
  have hname : after.fullName = before.name := by
    rw [SpoolDirectory.fullName, hnamed, hkeeps.name]
    rfl
  have hsplit : ∀ d : SpoolDirectory, files ++ spoolNames (done ++ d :: rest) =
      (files ++ spoolNames done) ++ (d.deviceId, d.fullName) :: spoolNames rest := by
    intro d
    rw [spoolNames_append, List.append_assoc]
    rfl
  cases hpart : before.isPartial with
  | false =>
    have hsame : namesAfter names before = names := by
      rw [namesAfter, hpart, Bool.and_false]
      rfl
    have hfull : before.fullName = before.name := by
      rw [SpoolDirectory.fullName, hpart]
      rfl
    rw [hsame]
    refine ⟨?_, fun name => ?_⟩
    · rw [hsplit, hdevice, hname, ← hfull, ← hsplit]
      exact h.distinct
    · rw [hsplit, hdevice, hname, ← hfull, ← hsplit]
      exact h.mem_iff name
  | true =>
    have hfresh : (before.deviceId, before.name) ∉ files ++ spoolNames (done ++ before :: rest) := by
      have hunoccupied := (hfree hpart).2
      rw [occupied, Bool.or_eq_false_iff] at hunoccupied
      rw [← h.mem_iff]
      exact fun hmem => Bool.false_ne_true (hunoccupied.2.symm.trans (List.contains_iff_mem.mpr hmem))
    rw [hsplit] at hfresh
    have hdistinct := h.distinct
    rw [hsplit] at hdistinct
    obtain ⟨hnodup, hmem⟩ := replace_name hdistinct hfresh
    refine ⟨?_, fun name => ?_⟩
    · rw [hsplit, hdevice, hname]
      exact hnodup
    · rw [hsplit, hdevice, hname, hmem, ← hsplit, ← h.mem_iff, namesAfter, hready, hpart]
      simp

/-! ## A second run -/

/-- How a run ends: all directories are settled, or the first one that is not
raises again. -/
inductive Ended (fmt : Codec) (wanted : String → Bool) (files : List (String × String))
    (directories after : List SpoolDirectory) : Prop
  | returned (h : ∀ directory ∈ after, Settled wanted directory)
  | raised (visited rest prior : List SpoolDirectory) (before remnant : SpoolDirectory)
      (hafter : after = visited ++ remnant :: rest) (hbefore : directories = prior ++ before :: rest)
      (hvisited : ∀ directory ∈ visited, Settled wanted directory)
      (hwanted : wanted remnant.deviceId = true) (hplace : place remnant ≤ place before)
      (hagain : ∀ names, (∀ name, name ∈ names ↔ name ∈ files ++ spoolNames after) →
        ¬Recoverable fmt names remnant)

theorem Remnant.place_eq {before after : SpoolDirectory} (h : Remnant before after) :
    place after = place before := by
  rw [place, place, SpoolDirectory.fullName, SpoolDirectory.fullName, h.same, h.keeps.name,
    h.keeps.device]

theorem place_renamed_le (directory : SpoolDirectory) :
    place { directory with isPartial := false } ≤ place directory := by
  refine Prod.Lex.toLex_le_toLex.mpr (.inr ⟨rfl, ?_⟩)
  show directory.name ≤ directory.fullName
  unfold SpoolDirectory.fullName
  split
  · rw [String.le_iff_toList_le, String.toList_append]
    generalize directory.name.toList = chars
    induction chars with
    | nil => exact not_lt.mp (List.not_lt_nil _)
    | cons c chars ih => exact List.cons_le_cons c ih
  · exact le_rfl

theorem visitFrom_ended {done : List SpoolDirectory}
    (hnames : NamesOf names files (done ++ directories))
    (hdone : ∀ directory ∈ done, Settled wanted directory) :
    (files ++ spoolNames (done ++ (visitFrom fmt wanted clock names directories).directories)).Nodup ∧
      Ended fmt wanted files directories
        (done ++ (visitFrom fmt wanted clock names directories).directories) := by
  induction directories generalizing names done with
  | nil => exact ⟨hnames.distinct, .returned (by simpa [visitFrom] using hdone)⟩
  | cons directory rest ih =>
    -- the rest of the run, after a directory that is settled
    have hlater : ∀ {names' : List (String × String)} {after : SpoolDirectory},
        NamesOf names' files (done ++ after :: rest) → Settled wanted after →
        (files ++ spoolNames (done ++ after ::
          (visitFrom fmt wanted clock names' rest).directories)).Nodup ∧
          Ended fmt wanted files (directory :: rest)
            (done ++ after :: (visitFrom fmt wanted clock names' rest).directories) := by
      intro names' after hnames' hafter
      rw [List.append_cons] at hnames'
      have hdone' : ∀ d ∈ done ++ [after], Settled wanted d := by
        intro d hd
        rcases List.mem_append.mp hd with hd | hd
        · exact hdone d hd
        · rw [List.mem_singleton.mp hd]
          exact hafter
      obtain ⟨hnodup, hended⟩ := ih hnames' hdone'
      rw [← List.append_cons] at hnodup hended
      refine ⟨hnodup, ?_⟩
      cases hended with
      | returned h => exact .returned h
      | raised visited rest' prior before remnant hafter' hbefore hvisited hwanted hplace hagain =>
        exact .raised visited rest' (directory :: prior) before remnant hafter'
          (congrArg (directory :: ·) hbefore) hvisited hwanted hplace hagain
    rw [visitFrom]
    split
    · next hwanted =>
      have hvisited := @visit_visited fmt (clock directory) (occupied names directory) directory
      cases hvisit : visit fmt (clock directory) (occupied names directory) directory with
      | mk after result =>
        rw [hvisit] at hvisited
        cases hvisited with
        | skipped hready hsame =>
          obtain ⟨marker, hmarker⟩ := Option.isSome_iff_exists.mp hready
          have hkept : namesAfter names directory = names := by
            rw [namesAfter, hmarker]
            rfl
          obtain rfl : after = directory := hsame
          exact hlater (hkept.symm ▸ hnames) fun _ => hready
        | published job hready hfree hpublished =>
          refine hlater (hnames.renamed hready hfree hpublished.keeps hpublished.named) fun _ => ?_
          rw [hpublished.ready]
          rfl
        | raised error hready hremnant hagain =>
          have hplace := hremnant.place_eq
          have hsame : spoolNames (done ++ after :: rest) = spoolNames (done ++ directory :: rest) := by
            rw [spoolNames_append, spoolNames_append]
            exact congrArg (fun name => spoolNames done ++ ofLex name :: spoolNames rest) hplace
          refine ⟨hsame ▸ hnames.distinct, .raised done rest [] directory after rfl rfl hdone ?_
            hplace.le fun names' hnames' hrecoverable => hagain ?_⟩
          · rw [hremnant.keeps.device]
            exact hwanted
          · obtain ⟨hcontents, hfree⟩ := hrecoverable hremnant.unready
            refine ⟨hcontents, fun hpart => ?_⟩
            have hoccupied := @occupied_eq names names' directory after
              (fun name => by rw [hnames', hsame, hnames.mem_iff]) hremnant.keeps.name
              hremnant.keeps.device
            rw [← hoccupied]
            exact hfree hpart
        | unmarked error hready hfree hrenamed hagain =>
          have hsame : after = { directory with isPartial := false } := hrenamed
          have hkeeps : Keeps directory after := by
            rw [hsame]
            exact keeps_renamed hready
          have hnamed : after.isPartial = false := by rw [hsame]
          have hunready : after.ready = none := by rw [hsame, ← hready]
          refine ⟨(hnames.renamed hready hfree hkeeps hnamed).distinct, .raised done rest [] directory
            after rfl rfl hdone ?_ ?_ fun names' _ hrecoverable => hagain (hrecoverable hunready).1⟩
          · rw [hkeeps.device]
            exact hwanted
          · rw [hsame]
            exact place_renamed_le directory
    · next hother => exact hlater hnames fun hwanted => absurd hwanted hother

theorem inOrder_perm (directories : List SpoolDirectory) :
    (inOrder directories).Perm directories := List.perm_insertionSort _ _

theorem inOrder_sorted (directories : List SpoolDirectory) :
    (inOrder directories).Pairwise fun a b => place a ≤ place b :=
  List.pairwise_insertionSort _ _

theorem places_nodup (h : (files ++ spoolNames directories).Nodup) :
    (directories.map place).Nodup := by
  have hnames := (List.nodup_append.mp h).2.1
  rw [spoolNames] at hnames
  exact hnames

/-- A second run publishes nothing. -/
theorem second_run {after : List SpoolDirectory} (hordered : directories.Pairwise fun a b =>
      place a ≤ place b) (hdistinct : (files ++ spoolNames after).Nodup)
    (h : Ended fmt wanted files directories after) :
    (visitFrom fmt wanted clock (files ++ spoolNames after) (inOrder after)).published = [] := by
  cases h with
  | returned h =>
    have hsettled : ∀ d ∈ inOrder after, Settled wanted d :=
      fun d hd => h d ((inOrder_perm after).mem_iff.mp hd)
    have hrest := @visitFrom_settled fmt wanted clock (files ++ spoolNames after) _ [] hsettled
    rw [List.append_nil] at hrest
    exact hrest
  | raised visited rest prior before remnant hafter hbefore hvisited hwanted hplace hagain =>
    have hmem : remnant ∈ inOrder after := by
      rw [(inOrder_perm after).mem_iff, hafter]
      exact List.mem_append_right _ List.mem_cons_self
    obtain ⟨first, last, hsplit⟩ := List.append_of_mem hmem
    have hplaces := ((inOrder_perm after).map place).nodup_iff.mpr (places_nodup hdistinct)
    have hsorted := inOrder_sorted after
    rw [hsplit] at hplaces hsorted
    rw [hbefore] at hordered
    -- what comes before the remnant in the second run came before it in the first
    have hfirst : ∀ d ∈ first, Settled wanted d := by
      intro d hd
      have hle : place d ≤ place remnant :=
        (List.pairwise_append.mp hsorted).2.2 d hd remnant List.mem_cons_self
      have hne : place d ≠ place remnant := by
        intro heq
        rw [List.map_append, List.map_cons, List.nodup_middle, List.nodup_cons] at hplaces
        exact hplaces.1 (List.mem_append_left _ (heq ▸ List.mem_map_of_mem hd))
      have hdafter : d ∈ after :=
        (inOrder_perm after).mem_iff.mp (hsplit ▸ List.mem_append_left _ hd)
      rw [hafter, List.mem_append, List.mem_cons] at hdafter
      rcases hdafter with hd | rfl | hd
      · exact hvisited d hd
      · exact absurd rfl hne
      · have hlater := (List.pairwise_cons.mp (List.pairwise_append.mp hordered).2.1).1 d hd
        exact absurd (le_antisymm hle (hplace.trans hlater)) hne
    rw [hsplit, visitFrom_settled hfirst, visitFrom, if_pos hwanted]
    cases hvisit : visit fmt (clock remnant)
        (occupied (files ++ spoolNames after) remnant) remnant with
    | mk remnant' result =>
      cases result with
      | error error => rfl
      | ok job =>
        have hresult := @visit_result fmt (clock remnant)
          (occupied (files ++ spoolNames after) remnant) remnant
        rw [hvisit] at hresult
        exact absurd (returns_recoverDirectory.mp ⟨job, hresult.symm⟩)
          (hagain _ fun _ => Iff.rfl)

/-! ## The spool tree -/

/-- A recovery changes no byte of the artifacts, publishes no job as complete
unless its own manifest was readable, and a second one publishes nothing. -/
theorem recovery_preserves (tree : Tree) (deviceIds : Option (List String))
    (clock clock' : SpoolDirectory → Clock) :
    List.Forall₂ Keeps (inOrder tree.directories)
        (recoverSpool fmt clock deviceIds tree.files tree.directories).directories ∧
      (∀ job ∈ (recoverSpool fmt clock deviceIds tree.files tree.directories).published,
        ∃ before ∈ tree.directories, before.ready = none ∧ Justified fmt before job ∧
          ∃ after ∈ (recoverSpool fmt clock deviceIds tree.files tree.directories).directories,
            Published before after job) ∧
      (recoverSpool fmt clock' deviceIds tree.files
        (recoverSpool fmt clock deviceIds tree.files tree.directories).directories).published = [] := by
  have hperm := inOrder_perm tree.directories
  have hspool : (spoolNames (inOrder tree.directories)).Perm (spoolNames tree.directories) :=
    hperm.map _
  have hnames : NamesOf (tree.files ++ spoolNames tree.directories) tree.files
      ([] ++ inOrder tree.directories) :=
    ⟨((hspool.append_left tree.files).nodup_iff).mpr tree.distinct,
      fun name => (hspool.append_left tree.files).symm.mem_iff⟩
  refine ⟨visitFrom_keeps, fun job hjob => ?_, ?_⟩
  · obtain ⟨before, hbefore, h⟩ := visitFrom_published hjob
    exact ⟨before, hperm.mem_iff.mp hbefore, h⟩
  · obtain ⟨hdistinct, hended⟩ := @visitFrom_ended fmt
      (fun deviceId => deviceIds.all fun ids => ids.contains deviceId) clock _ _ _ [] hnames
      fun d hd => absurd hd List.not_mem_nil
    exact second_run (inOrder_sorted _) hdistinct hended

/-- A finished job, a remnant whose timeline raises and one after it. -/
def sampleTree : Tree where
  directories :=
    [{ remnant "20260701T095900000000Z_9" [] with isPartial := false, ready := some [] },
      remnant "20260701T100000000000Z_0" [49, newline], remnant "20260701T100001000000Z_1" []]
  files := [("pos_crash", "notes.txt")]
  distinct := by decide

theorem sampleTree_preserved :
    List.Forall₂ Keeps (inOrder sampleTree.directories)
        (recoverSpool runtime (fun _ => startClock) none sampleTree.files
          sampleTree.directories).directories ∧
      (recoverSpool runtime (fun _ => startClock) none sampleTree.files
        (recoverSpool runtime (fun _ => startClock) none sampleTree.files
          sampleTree.directories).directories).published = [] :=
  ⟨(recovery_preserves sampleTree none _ fun _ => startClock).1,
    (recovery_preserves sampleTree none _ fun _ => startClock).2.2⟩

end

end RetailPrintGuard.Proxy.RecoveryRuns
