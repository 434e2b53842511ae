import RetailPrintGuard.Db.IngestStore
import RetailPrintGuard.Library.OpenTransactions

/-! # Concurrent imports

Calls of `store_import`, statement by statement. A statement reads what is
committed when it runs, a row waits for the rows of the other calls that are not
committed, and a device is locked until the call that locked it ends. -/
namespace RetailPrintGuard.Ingestion.ConcurrentImports
open RetailPrintGuard.Library RetailPrintGuard.Library.Transaction
open RetailPrintGuard.Ingestion.Dto RetailPrintGuard.Ingestion.Worker
open RetailPrintGuard.Db.Semantic RetailPrintGuard.Db.IngestStore

/-! ## A call -/

section
variable (readers : Readers) (db : Database) (envelope : NormalizedEnvelope)

/-- What a call does, once its device is locked, until it looks for the parser version. -/
def beforeParser : List (Step Row String) :=
  (if db.hasSession (sessionKey readers envelope) then []
    else [.add (.session (sessionRow readers envelope)), .flush]) ++
  [.add (.job (jobRow readers envelope)), .flush] ++ insertArtifacts readers envelope ++
  insertChunks readers envelope

/-- What it does then, up to its last flush. -/
def afterParser : List (Step Row String) :=
  insertDocuments readers db envelope ++ recordImport readers envelope ++ [.flush]

theorem importSteps_eq : importSteps readers db envelope ++ [.flush] =
    (if db.knows readers envelope.deviceId then [] else [.raise "ValueError"]) ++
      (beforeParser readers db envelope ++ afterParser readers db envelope) := by
  simp only [importSteps, insertEnvelope, beforeParser, afterParser, List.append_assoc]

/-- The steps of a call, by what it found when it looked for the session and for
the parser version. -/
def script (devices : List String) (sessions parsers : List Row) : List (Step Row String) :=
  beforeParser readers { devices, rows := sessions } envelope ++
    afterParser readers { devices, rows := parsers } envelope

end

inductive Phase where
  | idle
  /-- found no job with the source key -/
  | looked
  /-- holds the lock of the device; the rows that wait for a flush, the steps
  that are left, and whether the parser version was looked for -/
  | inserting (pending : List Row) (steps : List (Step Row String)) (sought : Bool)
  /-- rolled back by a constraint -/
  | refused
  | ended (outcome : StoreOutcome)
  /-- the database failed -/
  | failed

structure State (ι : Type) where
  store : OpenTransactions.State ι Row
  phase : ι → Phase := fun _ => .idle

variable {ι : Type}

/-- The call holds the lock of its device. -/
def State.Locked (s : State ι) (i : ι) : Prop :=
  ∃ pending steps sought, s.phase i = .inserting pending steps sought

def State.set [DecidableEq ι] (s : State ι) (i : ι) (phase : Phase) : State ι :=
  { s with phase := Function.update s.phase i phase }

/-- The call is over, and nothing it wrote stays. -/
def State.abandon [DecidableEq ι] (s : State ι) (i : ι) (phase : Phase) : State ι where
  store := s.store.rollback i
  phase := Function.update s.phase i phase

section
variable (readers : Readers) (devices : List String)

/-- The first lookup of the source key. -/
def lookup (rows : List Row) (envelope : NormalizedEnvelope) : Phase :=
  match Database.jobWithKey readers { devices, rows } envelope.sourceKey with
  | some job =>
    .ended (if job.manifestSha256 ≠ envelope.manifestSha256 then .raised "ValueError"
      else .stored .duplicate)
  | none => .looked

/-- The lookup after an integrity error. -/
def lookupAgain (rows : List Row) (envelope : NormalizedEnvelope) : StoreOutcome :=
  match Database.jobWithKey readers { devices, rows } envelope.sourceKey with
  | some job =>
    if job.manifestSha256 = envelope.manifestSha256 then .stored .duplicate
    else .raised "ValueError"
  | none => .raised "ValueError"

/-- What can happen next. -/
inductive Next [DecidableEq ι] (calls : ι → NormalizedEnvelope) (s : State ι) : State ι → Prop
  | lookup (i : ι) (h : s.phase i = .idle) :
      Next calls s (s.set i (lookup readers devices s.store.rows (calls i)))
  | unknown (i : ι) (h : s.phase i = .looked)
      (hdevice : Database.knows readers { devices } (calls i).deviceId = false) :
      Next calls s (s.set i (.ended (.raised "ValueError")))
  -- the session is looked for under the lock
  | lock (i : ι) (h : s.phase i = .looked)
      (hdevice : Database.knows readers { devices } (calls i).deviceId = true)
      (hfree : ∀ j, s.Locked j → sameText readers (calls j).deviceId (calls i).deviceId = false) :
      Next calls s (s.set i (.inserting []
        (beforeParser readers { devices, rows := s.store.rows } (calls i)) false))
  | add (i : ι) (pending : List Row) (row : Row) (steps : List (Step Row String)) (sought : Bool)
      (h : s.phase i = .inserting pending (.add row :: steps) sought) :
      Next calls s (s.set i (.inserting (pending ++ [row]) steps sought))
  | write (i : ι) (row : Row) (pending : List Row) (steps : List (Step Row String)) (sought : Bool)
      (h : s.phase i = .inserting (row :: pending) (.flush :: steps) sought)
      (hfits : row.fits = true)
      (hfree : ∀ other ∈ s.store.rows ++ s.store.own i, Row.clash readers other row = false)
      (hwait : ∀ j ≠ i, ∀ other ∈ s.store.own j, Row.clash readers other row = false) :
      Next calls s { s with
        store := s.store.write i row
        phase := Function.update s.phase i (.inserting pending (.flush :: steps) sought) }
  | unfit (i : ι) (row : Row) (pending : List Row) (steps : List (Step Row String)) (sought : Bool)
      (h : s.phase i = .inserting (row :: pending) (.flush :: steps) sought)
      (hfits : row.fits = false) : Next calls s (s.abandon i (.ended .unavailable))
  | clashes (i : ι) (row : Row) (pending : List Row) (steps : List (Step Row String))
      (sought : Bool) (h : s.phase i = .inserting (row :: pending) (.flush :: steps) sought)
      (hfits : row.fits = true)
      (hclash : ∃ other ∈ s.store.rows ++ s.store.own i, Row.clash readers other row = true) :
      Next calls s (s.abandon i .refused)
  | flushed (i : ι) (steps : List (Step Row String)) (sought : Bool)
      (h : s.phase i = .inserting [] (.flush :: steps) sought) :
      Next calls s (s.set i (.inserting [] steps sought))
  | raises (i : ι) (pending : List Row) (name : String) (steps : List (Step Row String))
      (sought : Bool) (h : s.phase i = .inserting pending (.raise name :: steps) sought) :
      Next calls s (s.abandon i (.ended (.raised name)))
  -- the rows of the call itself hold no parser version yet
  | parser (i : ι) (pending : List Row) (h : s.phase i = .inserting pending [] false) :
      Next calls s (s.set i (.inserting pending
        (afterParser readers { devices, rows := s.store.rows } (calls i)) true))
  | commit (i : ι) (h : s.phase i = .inserting [] [] true) :
      Next calls s { s with
        store := s.store.commit i
        phase := Function.update s.phase i (.ended (.stored .imported)) }
  | retry (i : ι) (h : s.phase i = .refused) :
      Next calls s (s.set i (.ended (lookupAgain readers devices s.store.rows (calls i))))
  -- the database can fail a call at any point before it ends
  | fails (i : ι) (h : ∀ outcome, s.phase i ≠ .ended outcome) : Next calls s (s.abandon i .failed)

inductive Reachable [DecidableEq ι] (calls : ι → NormalizedEnvelope) (initial : List Row) :
    State ι → Prop
  | start : Reachable calls initial { store := { rows := initial } }
  | step {s t : State ι} (h : Reachable calls initial s) (hnext : Next readers devices calls s t) :
      Reachable calls initial t

end

/-! ## What a call holds -/

section
variable (readers : Readers) (devices : List String) (calls : ι → NormalizedEnvelope)
  (initial : List Row)

/-- Rows that were committed at some time, after which no other call of the
device committed. -/
def Seen (store : OpenTransactions.State ι Row) (i : ι) (rows : List Row) : Prop :=
  ∃ before later, store.log = before ++ later ∧ rows = initial ++ before.flatMap Prod.snd ∧
    ∀ entry ∈ later, sameText readers (calls entry.1).deviceId (calls i).deviceId = false

/-- The steps of a call from the lookup of the parser version on. -/
inductive Tail (store : OpenTransactions.State ι Row) (i : ι) :
    Bool → List (Step Row String) → Prop
  | unsought : Tail store i false []
  | sought (parsers : List Row) (h : Seen readers calls initial store i parsers) :
      Tail store i true (afterParser readers { devices, rows := parsers } (calls i))

/-- A call in the middle of its steps. -/
structure Inserting (store : OpenTransactions.State ι Row) (i : ι) (pending : List Row)
    (steps : List (Step Row String)) (sought : Bool) : Prop where
  known : Database.knows readers { devices } (calls i).deviceId = true
  progress : ∃ sessions tail done, Seen readers calls initial store i sessions ∧
    Tail readers devices calls initial store i sought tail ∧
    beforeParser readers { devices, rows := sessions } (calls i) ++ tail = done ++ steps ∧
    firstError done = none ∧ added done = store.own i ++ pending

/-- The rows of a call that committed. -/
def Wrote (i : ι) (rows : List Row) : Prop :=
  Database.knows readers { devices } (calls i).deviceId = true ∧ ∃ sessions parsers,
    initial ⊆ sessions ∧ initial ⊆ parsers ∧
    firstError (script readers (calls i) devices sessions parsers) = none ∧
    rows = added (script readers (calls i) devices sessions parsers)

/-- A job of the envelope is committed. -/
def Found (rows : List Row) (envelope : NormalizedEnvelope) : Prop :=
  ∃ job, Row.job job ∈ rows ∧ sameText readers job.sourceKey envelope.sourceKey = true ∧
    job.manifestSha256 = envelope.manifestSha256

/-- What a call holds in a phase. -/
def Held (store : OpenTransactions.State ι Row) (i : ι) : Phase → Prop
  | .inserting pending steps sought =>
    Inserting readers devices calls initial store i pending steps sought
  | .ended (.stored .imported) => store.own i = [] ∧ i ∈ store.log.map Prod.fst
  | .ended (.stored .duplicate) => store.own i = [] ∧ Found readers store.rows (calls i)
  | _ => store.own i = []

structure Invariant (s : State ι) : Prop where
  consistent : OpenTransactions.Consistent (rules readers) initial s.store
  exclusive : ∀ i j, i ≠ j → s.Locked i → s.Locked j →
    sameText readers (calls i).deviceId (calls j).deviceId = false
  logged : ∀ entry ∈ s.store.log, s.phase entry.1 = .ended (.stored .imported) ∧
    Wrote readers devices calls initial entry.1 entry.2
  once : (s.store.log.map Prod.fst).Nodup
  each : ∀ i, Held readers devices calls initial s.store i (s.phase i)

end

section
variable {readers : Readers} {devices : List String} {calls : ι → NormalizedEnvelope}
  {initial : List Row} {s t : State ι} {store store' : OpenTransactions.State ι Row}

theorem sameText_comm (a b : String) : sameText readers a b = sameText readers b a :=
  Bool.beq_comm

theorem Seen.subset {i : ι} {rows : List Row} (h : Seen readers calls initial store i rows) :
    initial ⊆ rows := by
  obtain ⟨before, later, -, rfl, -⟩ := h
  exact List.subset_append_left _ _

/-- What a call of the device committed was seen. -/
theorem Seen.before {i : ι} {rows : List Row} (h : Seen readers calls initial store i rows)
    {entry : ι × List Row} (hentry : entry ∈ store.log)
    (hdevice : sameText readers (calls entry.1).deviceId (calls i).deviceId = true) {row : Row}
    (hrow : row ∈ entry.2) : row ∈ rows := by
  obtain ⟨before, later, hlog, rfl, hlater⟩ := h
  rw [hlog] at hentry
  rcases List.mem_append.mp hentry with hentry | hentry
  · exact List.mem_append_right _ (List.mem_flatMap.mpr ⟨entry, hentry, hrow⟩)
  · rw [hlater entry hentry] at hdevice
    cases hdevice

theorem Seen.later {i : ι} {rows : List Row} {more : List (ι × List Row)}
    (h : Seen readers calls initial store i rows) (hlog : store'.log = store.log ++ more)
    (hmore : ∀ entry ∈ more,
      sameText readers (calls entry.1).deviceId (calls i).deviceId = false) :
    Seen readers calls initial store' i rows := by
  obtain ⟨before, later, hbefore, hrows, hlater⟩ := h
  refine ⟨before, later ++ more, by rw [hlog, hbefore, List.append_assoc], hrows, ?_⟩
  intro entry hentry
  rcases List.mem_append.mp hentry with hentry | hentry
  · exact hlater entry hentry
  · exact hmore entry hentry

/-- What is committed now. -/
theorem seen_now {i : ι} (h : OpenTransactions.Consistent (rules readers) initial store) :
    Seen readers calls initial store i store.rows :=
  ⟨store.log, [], (List.append_nil _).symm, h.logged, fun _ hentry => nomatch hentry⟩

theorem Tail.later {i : ι} {sought : Bool} {steps : List (Step Row String)}
    {more : List (ι × List Row)} (h : Tail readers devices calls initial store i sought steps)
    (hlog : store'.log = store.log ++ more)
    (hmore : ∀ entry ∈ more,
      sameText readers (calls entry.1).deviceId (calls i).deviceId = false) :
    Tail readers devices calls initial store' i sought steps := by
  cases h with
  | unsought => exact .unsought
  | sought parsers h => exact .sought parsers (h.later hlog hmore)

theorem Found.mono {rows rows' : List Row} {envelope : NormalizedEnvelope}
    (h : Found readers rows envelope) (hsub : rows ⊆ rows') : Found readers rows' envelope := by
  obtain ⟨job, hjob, hrest⟩ := h
  exact ⟨job, hsub hjob, hrest⟩

/-- A call that does not move keeps what it holds. -/
theorem Held.other {i : ι} {phase : Phase} {more : List (ι × List Row)}
    (h : Held readers devices calls initial store i phase) (hown : store'.own i = store.own i)
    (hlog : store'.log = store.log ++ more)
    (hmore : (∃ pending steps sought, phase = .inserting pending steps sought) → ∀ entry ∈ more,
      sameText readers (calls entry.1).deviceId (calls i).deviceId = false)
    (hrows : store.rows ⊆ store'.rows) : Held readers devices calls initial store' i phase := by
  unfold Held at h ⊢
  rw [hown]
  split at h
  · next pending steps sought =>
    obtain ⟨hknown, sessions, tail, done, hsessions, htail, hscript⟩ := h
    have hlater := hmore ⟨pending, steps, sought, rfl⟩
    refine ⟨hknown, sessions, tail, done, hsessions.later hlog hlater, htail.later hlog hlater, ?_⟩
    rw [hown]
    exact hscript
  · refine ⟨h.1, ?_⟩
    rw [hlog, List.map_append]
    exact List.mem_append_left _ h.2
  · exact ⟨h.1, h.2.mono hrows⟩
  · exact h

/-! ## Every step -/

/-- One call moves. What it commits is in the log. -/
theorem Invariant.advance [DecidableEq ι] {i : ι} {phase : Phase} {more : List (ι × List Row)}
    (hs : Invariant readers devices calls initial s)
    (hconsistent : OpenTransactions.Consistent (rules readers) initial t.store)
    (hphase : t.phase = Function.update s.phase i phase)
    (hown : ∀ j ≠ i, t.store.own j = s.store.own j) (hlog : t.store.log = s.store.log ++ more)
    (hrows : s.store.rows ⊆ t.store.rows) (hopen : s.phase i ≠ .ended (.stored .imported))
    (hlocked : t.Locked i → s.Locked i ∨
      ∀ j, s.Locked j → sameText readers (calls j).deviceId (calls i).deviceId = false)
    (hmore : more = [] ∨ ∃ rows, more = [(i, rows)] ∧ s.Locked i ∧
      phase = .ended (.stored .imported) ∧ Wrote readers devices calls initial i rows)
    (hi : Held readers devices calls initial t.store i phase) :
    Invariant readers devices calls initial t := by
  have hself : t.phase i = phase := by rw [hphase, Function.update_self]
  have hothers : ∀ j ≠ i, t.phase j = s.phase j := fun j hj => by
    rw [hphase, Function.update_of_ne hj]
  have hfresh : i ∉ s.store.log.map Prod.fst := fun hmem => by
    obtain ⟨entry, hentry, rfl⟩ := List.mem_map.mp hmem
    exact hopen (hs.logged entry hentry).1
  have hstill : ∀ j ≠ i, t.Locked j → s.Locked j := fun j hj h => by
    obtain ⟨pending, steps, sought, h⟩ := h
    exact ⟨pending, steps, sought, hothers j hj ▸ h⟩
  refine ⟨hconsistent, ?_, ?_, ?_, fun j => ?_⟩
  · intro j k hjk hj hk
    by_cases hji : j = i
    · have hki : k ≠ i := fun h => hjk (hji.trans h.symm)
      rcases hlocked (hji ▸ hj) with h | h
      · exact hs.exclusive j k hjk (hji ▸ h) (hstill k hki hk)
      · rw [hji, sameText_comm]
        exact h k (hstill k hki hk)
    · by_cases hki : k = i
      · rcases hlocked (hki ▸ hk) with h | h
        · exact hs.exclusive j k hjk (hstill j hji hj) (hki ▸ h)
        · rw [hki]
          exact h j (hstill j hji hj)
      · exact hs.exclusive j k hjk (hstill j hji hj) (hstill k hki hk)
  · intro entry hentry
    rw [hlog] at hentry
    rcases List.mem_append.mp hentry with hentry | hentry
    · have hne : entry.1 ≠ i := fun h => hfresh (h ▸ List.mem_map_of_mem hentry)
      rw [hothers entry.1 hne]
      exact hs.logged entry hentry
    · rcases hmore with rfl | ⟨rows, rfl, -, hended, hwrote⟩
      · cases hentry
      · rw [List.mem_singleton.mp hentry, hself]
        exact ⟨hended, hwrote⟩
  · rw [hlog, List.map_append]
    rcases hmore with rfl | ⟨rows, rfl, -⟩
    · rw [List.map_nil, List.append_nil]
      exact hs.once
    · exact List.nodup_append.mpr ⟨hs.once, List.nodup_singleton _, fun a ha b hb => by
        rw [List.mem_singleton.mp hb]
        exact fun h : a = i => hfresh (h ▸ ha)⟩
  · by_cases hj : j = i
    · rw [hj, hself]
      exact hi
    · rw [hothers j hj]
      refine (hs.each j).other (hown j hj) hlog (fun hlock entry hentry => ?_) hrows
      rcases hmore with rfl | ⟨rows, rfl, hlocked, -⟩
      · cases hentry
      · rw [List.mem_singleton.mp hentry]
        exact hs.exclusive i j (Ne.symm hj) hlocked hlock

/-- A call moves without writing. -/
theorem Invariant.set [DecidableEq ι] {i : ι} {phase : Phase}
    (hs : Invariant readers devices calls initial s)
    (hopen : s.phase i ≠ .ended (.stored .imported))
    (hlocked : (s.set i phase).Locked i → s.Locked i ∨
      ∀ j, s.Locked j → sameText readers (calls j).deviceId (calls i).deviceId = false)
    (hi : Held readers devices calls initial s.store i phase) :
    Invariant readers devices calls initial (s.set i phase) :=
  hs.advance hs.consistent rfl (fun _ _ => rfl) (List.append_nil _).symm (List.Subset.refl _) hopen
    hlocked (.inl rfl) hi

/-- A call ends, or is rolled back, with nothing written. -/
theorem Invariant.abandon [DecidableEq ι] {i : ι} {phase : Phase}
    (hs : Invariant readers devices calls initial s)
    (hopen : s.phase i ≠ .ended (.stored .imported))
    (hphase : phase = .refused ∨ phase = .failed ∨ phase = .ended .unavailable ∨
      ∃ name, phase = .ended (.raised name)) :
    Invariant readers devices calls initial (s.abandon i phase) := by
  have hself : (s.abandon i phase).phase i = phase := Function.update_self _ _ _
  have hown : (s.abandon i phase).store.own i = [] := Function.update_self _ _ _
  refine hs.advance (hs.consistent.rollback i) rfl (fun j hj => Function.update_of_ne hj _ _)
    (List.append_nil _).symm (List.Subset.refl _) hopen ?_ (.inl rfl) ?_
  · rintro ⟨pending, steps, sought, hinserting⟩
    rw [hself] at hinserting
    rcases hphase with rfl | rfl | rfl | ⟨name, rfl⟩ <;> cases hinserting
  · rcases hphase with rfl | rfl | rfl | ⟨name, rfl⟩ <;> exact hown

/-- A row that is a job with a source key. -/
def jobOf (readers : Readers) (sourceKey : String) : Row → Option JobRow
  | .job row => if sameText readers row.sourceKey sourceKey then some row else none
  | _ => none

theorem jobOf_eq_some {sourceKey : String} {row : Row} {job : JobRow} :
    jobOf readers sourceKey row = some job ↔
      row = .job job ∧ sameText readers job.sourceKey sourceKey = true := by
  constructor
  · intro h
    cases row with
    | job row =>
      rw [jobOf] at h
      split at h
      · next hsame =>
        cases h
        exact ⟨rfl, hsame⟩
      · cases h
    | _ => cases h
  · rintro ⟨rfl, hsame⟩
    exact if_pos hsame

theorem jobWithKey_eq_some {db : Database} {sourceKey : String} {job : JobRow}
    (h : db.jobWithKey readers sourceKey = some job) :
    Row.job job ∈ db.rows ∧ sameText readers job.sourceKey sourceKey = true := by
  obtain ⟨row, hrow, hjob⟩ := List.exists_of_findSome?_eq_some h
  obtain ⟨rfl, hsame⟩ := jobOf_eq_some.mp hjob
  exact ⟨hrow, hsame⟩

theorem held_lookup {i : ι} (h : store.own i = []) :
    Held readers devices calls initial store i
      (lookup readers devices store.rows (calls i)) := by
  unfold lookup
  split
  · next job hjob =>
    by_cases hmanifest : job.manifestSha256 = (calls i).manifestSha256
    · rw [if_neg (not_not.mpr hmanifest)]
      exact ⟨h, job, (jobWithKey_eq_some hjob).1, (jobWithKey_eq_some hjob).2, hmanifest⟩
    · rw [if_pos hmanifest]
      exact h
  · exact h

theorem held_lookupAgain {i : ι} (h : store.own i = []) :
    Held readers devices calls initial store i
      (.ended (lookupAgain readers devices store.rows (calls i))) := by
  unfold lookupAgain
  split
  · next job hjob =>
    split
    · next hmanifest =>
      exact ⟨h, job, (jobWithKey_eq_some hjob).1, (jobWithKey_eq_some hjob).2, hmanifest⟩
    · exact h
  · exact h

theorem firstError_append {ρ ε : Type} {first second : List (Step ρ ε)}
    (h : firstError first = none) : firstError (first ++ second) = firstError second := by
  induction first with
  | nil => rfl
  | cons step first ih =>
    cases step with
    | add row => exact ih h
    | flush => exact ih h
    | raise error => cases h

/-- A step of the call is done. -/
theorem Inserting.next {i : ι} {pending pending' : List Row} {step : Step Row String}
    {steps : List (Step Row String)} {sought : Bool}
    (h : Inserting readers devices calls initial store i pending (step :: steps) sought)
    (hstep : firstError [step] = none) (hpending : pending' = pending ++ added [step]) :
    Inserting readers devices calls initial store i pending' steps sought := by
  obtain ⟨hknown, sessions, tail, done, hsessions, htail, hscript, hquiet, hadded⟩ := h
  refine ⟨hknown, sessions, tail, done ++ [step], hsessions, htail, ?_, ?_, ?_⟩
  · rw [hscript, List.append_assoc]
    rfl
  · rw [firstError_append hquiet, hstep]
  · rw [added_append, hadded, hpending, List.append_assoc]

/-- A row of the call is written. -/
theorem Inserting.write [DecidableEq ι] {i : ι} {row : Row} {pending : List Row}
    {steps : List (Step Row String)} {sought : Bool}
    (h : Inserting readers devices calls initial store i (row :: pending) steps sought) :
    Inserting readers devices calls initial (store.write i row) i pending steps sought := by
  obtain ⟨hknown, sessions, tail, done, hsessions, htail, hscript, hquiet, hadded⟩ := h
  have hown : (store.write i row).own i = store.own i ++ [row] := Function.update_self _ _ _
  have hlog : (store.write i row).log = store.log ++ [] := (List.append_nil _).symm
  refine ⟨hknown, sessions, tail, done, hsessions.later hlog (fun _ hentry => nomatch hentry),
    htail.later hlog (fun _ hentry => nomatch hentry), hscript, hquiet, ?_⟩
  rw [hown, hadded, List.append_assoc]
  rfl

/-- A call that looked for the parser version goes on with what is committed. -/
theorem Inserting.seek {i : ι} {pending : List Row}
    (h : Inserting readers devices calls initial store i pending [] false)
    (hconsistent : OpenTransactions.Consistent (rules readers) initial store) :
    Inserting readers devices calls initial store i pending
      (afterParser readers { devices, rows := store.rows } (calls i)) true := by
  obtain ⟨hknown, sessions, tail, done, hsessions, htail, hscript, hquiet, hadded⟩ := h
  refine ⟨hknown, sessions, _, done, hsessions, .sought store.rows (seen_now hconsistent), ?_,
    hquiet, hadded⟩
  cases htail
  rw [List.append_nil, List.append_nil] at hscript
  rw [hscript]

/-- A call at its end wrote all its rows. -/
theorem Inserting.wrote {i : ι}
    (h : Inserting readers devices calls initial store i [] [] true) :
    Wrote readers devices calls initial i (store.own i) := by
  obtain ⟨hknown, sessions, tail, done, hsessions, htail, hscript, hquiet, hadded⟩ := h
  cases htail with
  | sought parsers hparsers =>
    rw [List.append_nil] at hscript hadded
    refine ⟨hknown, sessions, parsers, hsessions.subset, hparsers.subset, ?_, ?_⟩
    · rw [script, hscript]
      exact hquiet
    · rw [script, hscript]
      exact hadded.symm

theorem clash_comm (a b : Row) : Row.clash readers a b = Row.clash readers b a := by
  cases a <;> cases b <;> simp only [Row.clash, sameText, Bool.beq_comm]

theorem set_locked [DecidableEq ι] {i : ι} {phase : Phase} (h : (s.set i phase).Locked i) :
    ∃ pending steps sought, phase = .inserting pending steps sought := by
  obtain ⟨pending, steps, sought, h⟩ := h
  exact ⟨pending, steps, sought, (Function.update_self _ _ _).symm.trans h⟩

theorem Invariant.step [DecidableEq ι] (hs : Invariant readers devices calls initial s)
    (h : Next readers devices calls s t) : Invariant readers devices calls initial t := by
  have heach : ∀ {i phase}, s.phase i = phase →
      Held readers devices calls initial s.store i phase := fun {i} _ hphase => hphase ▸ hs.each i
  have hopen : ∀ {i phase}, s.phase i = phase → (∀ outcome, phase ≠ .ended outcome) →
      s.phase i ≠ .ended (.stored .imported) := fun hphase hopen => hphase ▸ hopen _
  cases h with
  | lookup i h =>
    have hheld := heach h
    refine hs.set (hopen h fun _ => Phase.noConfusion) (fun hlocked => ?_) (held_lookup hheld)
    obtain ⟨pending, steps, sought, hlocked⟩ := set_locked hlocked
    unfold lookup at hlocked
    split at hlocked <;> cases hlocked
  | unknown i h hdevice =>
    have hheld := heach h
    refine hs.set (hopen h fun _ => Phase.noConfusion) (fun hlocked => ?_) hheld
    obtain ⟨pending, steps, sought, hlocked⟩ := set_locked hlocked
    cases hlocked
  | lock i h hdevice hfree =>
    have hheld : s.store.own i = [] := heach h
    refine hs.set (hopen h fun _ => Phase.noConfusion) (fun _ => .inr hfree) ?_
    refine ⟨hdevice, s.store.rows, [], [], seen_now hs.consistent, .unsought, List.append_nil _,
      rfl, ?_⟩
    rw [hheld]
    rfl
  | add i pending row steps sought h =>
    have hheld := heach h
    exact hs.set (hopen h fun _ => Phase.noConfusion) (fun _ => .inl ⟨_, _, _, h⟩)
      (Inserting.next hheld rfl rfl)
  | write i row pending steps sought h hfits hfree hwait =>
    have hheld := heach h
    exact hs.advance (hs.consistent.write clash_comm hfree hwait) rfl
      (fun j hj => Function.update_of_ne hj _ _) (List.append_nil _).symm (List.Subset.refl _)
      (hopen h fun _ => Phase.noConfusion) (fun _ => .inl ⟨_, _, _, h⟩) (.inl rfl)
      (Inserting.write hheld)
  | unfit i row pending steps sought h hfits =>
    exact hs.abandon (hopen h fun _ => Phase.noConfusion) (.inr (.inr (.inl rfl)))
  | clashes i row pending steps sought h hfits hclash =>
    exact hs.abandon (hopen h fun _ => Phase.noConfusion) (.inl rfl)
  | flushed i steps sought h =>
    have hheld := heach h
    exact hs.set (hopen h fun _ => Phase.noConfusion) (fun _ => .inl ⟨_, _, _, h⟩)
      (Inserting.next hheld rfl rfl)
  | raises i pending name steps sought h =>
    exact hs.abandon (hopen h fun _ => Phase.noConfusion) (.inr (.inr (.inr ⟨name, rfl⟩)))
  | parser i pending h =>
    have hheld := heach h
    exact hs.set (hopen h fun _ => Phase.noConfusion) (fun _ => .inl ⟨_, _, _, h⟩)
      (Inserting.seek hheld hs.consistent)
  | commit i h =>
    have hheld := heach h
    refine hs.advance (hs.consistent.commit i) rfl (fun j hj => Function.update_of_ne hj _ _) rfl
      (List.subset_append_left _ _) (hopen h fun _ => Phase.noConfusion)
      (fun _ => .inl ⟨_, _, _, h⟩) (.inr ⟨_, rfl, ⟨_, _, _, h⟩, rfl, Inserting.wrote hheld⟩) ?_
    refine ⟨Function.update_self _ _ _, ?_⟩
    show i ∈ (s.store.log ++ [(i, s.store.own i)]).map Prod.fst
    rw [List.map_append]
    exact List.mem_append_right _ (List.mem_singleton_self i)
  | retry i h =>
    have hheld := heach h
    refine hs.set (hopen h fun _ => Phase.noConfusion) (fun hlocked => ?_) (held_lookupAgain hheld)
    obtain ⟨pending, steps, sought, hlocked⟩ := set_locked hlocked
    cases hlocked
  | fails i h => exact hs.abandon (h _) (.inr (.inl rfl))

theorem invariant_of_reachable [DecidableEq ι]
    (happart : OpenTransactions.Apart (rules readers) initial)
    (h : Reachable readers devices calls initial s) :
    Invariant readers devices calls initial s := by
  induction h with
  | start =>
    refine ⟨OpenTransactions.consistent_start happart, ?_, fun _ h => (nomatch h), List.nodup_nil,
      fun _ => rfl⟩
    rintro i j - ⟨pending, steps, sought, h⟩
    cases h
  | step _ hnext ih => exact ih.step hnext

/-! ## A call alone -/

/-- Nothing but the call moved, and it committed nothing. -/
structure Moved (s t : State ι) (i : ι) : Prop where
  rows : t.store.rows = s.store.rows
  phases : ∀ j ≠ i, t.phase j = s.phase j
  own : ∀ j ≠ i, t.store.own j = s.store.own j

theorem Moved.trans {u : State ι} {i : ι} (h : Moved s t i) (h' : Moved t u i) : Moved s u i where
  rows := h'.rows.trans h.rows
  phases j hj := (h'.phases j hj).trans (h.phases j hj)
  own j hj := (h'.own j hj).trans (h.own j hj)

theorem moved_set [DecidableEq ι] (i : ι) (phase : Phase) : Moved s (s.set i phase) i where
  rows := rfl
  phases _ hj := Function.update_of_ne hj _ _
  own _ _ := rfl

theorem moved_abandon [DecidableEq ι] (i : ι) (phase : Phase) : Moved s (s.abandon i phase) i where
  rows := rfl
  phases _ hj := Function.update_of_ne hj _ _
  own _ hj := Function.update_of_ne hj _ _

/-- Where a call is after a fault. -/
def faulted : Fault String → Phase
  | .data => .ended .unavailable
  | .integrity => .refused
  | .raised name => .ended (.raised name)

/-- A flush of a call that no other one is in the way of. -/
theorem flush_alone [DecidableEq ι] {i : ι} {pending : List Row} {steps : List (Step Row String)}
    {sought : Bool}
    (h : Reachable readers devices calls initial s)
    (hphase : s.phase i = .inserting pending (.flush :: steps) sought)
    (halone : ∀ j ≠ i, s.store.own j = []) :
    ∃ t, Reachable readers devices calls initial t ∧ Moved s t i ∧
      ((t.phase i = .inserting [] steps sought ∧
          insertAll (rules readers) (s.store.rows ++ s.store.own i) pending =
            (.ok (s.store.rows ++ t.store.own i) : Except (Fault String) (List Row))) ∨
        ∃ fault, t.phase i = faulted fault ∧ t.store.own i = [] ∧
          insertAll (rules readers) (s.store.rows ++ s.store.own i) pending = .error fault) := by
  induction pending generalizing s with
  | nil =>
    exact ⟨_, h.step (.flushed i steps sought hphase), moved_set _ _,
      .inl ⟨Function.update_self _ _ _, rfl⟩⟩
  | cons row pending ih =>
    by_cases hfits : row.fits = true
    · by_cases hclash : ∃ other ∈ s.store.rows ++ s.store.own i, Row.clash readers other row = true
      · refine ⟨_, h.step (.clashes i row pending steps sought hphase hfits hclash),
          moved_abandon _ _, .inr ⟨.integrity, Function.update_self _ _ _,
            Function.update_self _ _ _, ?_⟩⟩
        rw [insertAll, insert_eq_integrity.mpr ⟨hfits, hclash⟩]
        rfl
      · have hfree : ∀ other ∈ s.store.rows ++ s.store.own i, Row.clash readers other row = false :=
          fun other hother => Bool.eq_false_iff.mpr fun htrue => hclash ⟨other, hother, htrue⟩
        have hwait : ∀ j ≠ i, ∀ other ∈ s.store.own j, Row.clash readers other row = false := by
          intro j hj other hother
          rw [halone j hj] at hother
          cases hother
        have hwritten := h.step (.write i row pending steps sought hphase hfits hfree hwait)
        have hown : (s.store.write i row).own i = s.store.own i ++ [row] :=
          Function.update_self _ _ _
        obtain ⟨t, hreached, hmoved, hend⟩ := ih hwritten (Function.update_self _ _ _)
          (fun j hj => (Function.update_of_ne hj _ _).trans (halone j hj))
        refine ⟨t, hreached, ⟨hmoved.rows, fun j hj => (hmoved.phases j hj).trans
          (Function.update_of_ne hj _ _), fun j hj => (hmoved.own j hj).trans
            (Function.update_of_ne hj _ _)⟩, ?_⟩
        rw [insertAll, insert_eq_ok.mpr ⟨hfits, hfree, rfl⟩, Checks.ok_bind, List.append_assoc,
          ← hown]
        exact hend
    · rw [Bool.not_eq_true] at hfits
      refine ⟨_, h.step (.unfit i row pending steps sought hphase hfits), moved_abandon _ _,
        .inr ⟨.data, Function.update_self _ _ _, Function.update_self _ _ _, ?_⟩⟩
      have hinsert : insert (rules readers) (s.store.rows ++ s.store.own i) row =
          (.error .data : Except (Fault String) (List Row)) := if_pos hfits
      rw [insertAll, hinsert]
      rfl

/-- The first steps of a call that no other one is in the way of. -/
theorem steps_alone [DecidableEq ι] {i : ι} {pending : List Row}
    {steps rest : List (Step Row String)} {sought : Bool}
    (h : Reachable readers devices calls initial s)
    (hphase : s.phase i = .inserting pending (steps ++ rest) sought)
    (halone : ∀ j ≠ i, s.store.own j = []) :
    ∃ t, Reachable readers devices calls initial t ∧ Moved s t i ∧
      ((∃ left, t.phase i = .inserting left rest sought ∧ ∀ more : List (Step Row String),
          run (rules readers) (s.store.rows ++ s.store.own i) pending (steps ++ more) =
            run (rules readers) (s.store.rows ++ t.store.own i) left more) ∨
        ∃ fault, t.phase i = faulted fault ∧ t.store.own i = [] ∧
          ∀ more : List (Step Row String),
            run (rules readers) (s.store.rows ++ s.store.own i) pending (steps ++ more) =
              .error fault) := by
  induction steps generalizing s pending with
  | nil => exact ⟨s, h, ⟨rfl, fun _ _ => rfl, fun _ _ => rfl⟩, .inl ⟨pending, hphase, fun _ => rfl⟩⟩
  | cons step steps ih =>
    cases step with
    | add row =>
      obtain ⟨t, hreached, hmoved, hend⟩ := ih
        (h.step (.add i pending row (steps ++ rest) sought hphase)) (Function.update_self _ _ _)
        halone
      exact ⟨t, hreached, (moved_set _ _).trans hmoved, hend⟩
    | raise name =>
      exact ⟨_, h.step (.raises i pending name (steps ++ rest) sought hphase), moved_abandon _ _,
        .inr ⟨.raised name, Function.update_self _ _ _, Function.update_self _ _ _, fun _ => rfl⟩⟩
    | flush =>
      obtain ⟨t, hreached, hmoved, hend⟩ := flush_alone h hphase halone
      rcases hend with ⟨hnext, hwritten⟩ | ⟨fault, hfaulted, hnone, hwritten⟩
      · obtain ⟨u, hreached', hmoved', hend'⟩ := ih hreached hnext
          (fun j hj => (hmoved.own j hj).trans (halone j hj))
        have hrun : ∀ more : List (Step Row String),
            run (rules readers) (s.store.rows ++ s.store.own i) pending
              (.flush :: steps ++ more) =
                run (rules readers) (s.store.rows ++ t.store.own i) [] (steps ++ more) := by
          intro more
          rw [List.cons_append, run, hwritten, Checks.ok_bind]
        rw [hmoved.rows] at hend'
        refine ⟨u, hreached', hmoved.trans hmoved', ?_⟩
        simp only [hrun]
        exact hend'
      · refine ⟨t, hreached, hmoved, .inr ⟨fault, hfaulted, hnone, fun more => ?_⟩⟩
        rw [List.cons_append, run, hwritten]
        rfl

/-- A last flush writes what a commit would. -/
theorem run_flush {rows pending : List Row} {steps : List (Step Row String)} :
    run (rules readers) rows pending (steps ++ [.flush]) =
      run (rules readers) rows pending steps := by
  induction steps generalizing rows pending with
  | nil =>
    rw [List.nil_append, run, run]
    cases (insertAll (rules readers) rows pending : Except (Fault String) (List Row)) <;> rfl
  | cons step steps ih =>
    cases step with
    | add row => exact ih
    | raise name => rfl
    | flush =>
      rw [List.cons_append, run, run]
      exact congrArg _ (funext fun rows => ih)

/-- How a transaction of a call ends. -/
def Concluded (s t : State ι) (i : ι) : Except (Fault String) (List Row) → Prop
  | .ok rows => t.phase i = .ended (.stored .imported) ∧ t.store.rows = rows
  | .error fault => t.phase i = faulted fault ∧ t.store.rows = s.store.rows

theorem Moved.alone {i : ι} (h : Moved s t i) (hown : ∀ j, s.store.own j = [])
    (hnone : t.store.own i = []) (j : ι) : t.store.own j = [] := by
  by_cases hj : j = i
  · rw [hj]
    exact hnone
  · rw [h.own j hj]
    exact hown j

/-- The whole transaction of a call that no other one is in the way of. -/
theorem transaction_alone [DecidableEq ι] {i : ι} (h : Reachable readers devices calls initial s)
    (hphase : s.phase i = .inserting []
      (beforeParser readers { devices, rows := s.store.rows } (calls i)) false)
    (hown : ∀ j, s.store.own j = []) :
    ∃ t, Reachable readers devices calls initial t ∧ (∀ j ≠ i, t.phase j = s.phase j) ∧
      (∀ j, t.store.own j = []) ∧ Concluded s t i (run (rules readers) s.store.rows []
        (script readers (calls i) devices s.store.rows s.store.rows)) := by
  rw [← List.append_nil (beforeParser _ _ _)] at hphase
  obtain ⟨t, ht, hst, hbefore⟩ := steps_alone h hphase fun j _ => hown j
  rw [hown i, List.append_nil] at hbefore
  rcases hbefore with ⟨left, htphase, hrun⟩ | ⟨fault, htphase, hnone, hrun⟩
  swap
  · refine ⟨t, ht, hst.phases, hst.alone hown hnone, ?_⟩
    rw [script, hrun]
    exact ⟨htphase, hst.rows⟩
  have hparser := ht.step (.parser i left htphase)
  rw [hst.rows] at hparser
  have hrows : ∀ phase, (t.set i phase).store.rows = s.store.rows := fun _ => hst.rows
  have hsought := hst.trans (moved_set i (.inserting left
    (afterParser readers { devices, rows := s.store.rows } (calls i)) true))
  have halone : ∀ j ≠ i, t.store.own j = [] := fun j hj => (hst.own j hj).trans (hown j)
  have hscript : run (rules readers) s.store.rows []
      (script readers (calls i) devices s.store.rows s.store.rows) =
      run (rules readers) (s.store.rows ++ t.store.own i) left
        (afterParser readers { devices, rows := s.store.rows } (calls i)) := hrun _
  rw [hscript]
  obtain ⟨u, hu, htu, hafter⟩ := steps_alone hparser (Function.update_self _ _ _) halone
  have hsu := hsought.trans htu
  simp only [hrows] at hafter
  rcases hafter with ⟨left', huphase, hrun'⟩ | ⟨fault, huphase, hnone, hrun'⟩
  swap
  · refine ⟨u, hu, hsu.phases, hsu.alone hown hnone, ?_⟩
    have hfault : run (rules readers) (s.store.rows ++ t.store.own i) left
        (afterParser readers { devices, rows := s.store.rows } (calls i)) = .error fault :=
      hrun' [.flush]
    rw [hfault]
    exact ⟨huphase, hsu.rows⟩
  have hflushed : run (rules readers) (s.store.rows ++ t.store.own i) left
      (afterParser readers { devices, rows := s.store.rows } (calls i)) =
      run (rules readers) (s.store.rows ++ u.store.own i) left' [.flush] := hrun' [.flush]
  rw [hflushed]
  obtain ⟨v, hv, huv, hflush⟩ := flush_alone hu huphase fun j hj => (hsu.own j hj).trans (hown j)
  have hsv := hsu.trans huv
  rw [hsu.rows] at hflush
  rcases hflush with ⟨hvphase, hwritten⟩ | ⟨fault, hvphase, hnone, hwritten⟩
  swap
  · refine ⟨v, hv, hsv.phases, hsv.alone hown hnone, ?_⟩
    rw [run, hwritten]
    exact ⟨hvphase, hsv.rows⟩
  refine ⟨_, hv.step (.commit i hvphase), fun j hj => (Function.update_of_ne hj _ _).trans
    (hsv.phases j hj), fun j => ?_, ?_⟩
  · by_cases hj : j = i
    · rw [hj]
      exact Function.update_self _ _ _
    · exact (Function.update_of_ne hj _ _).trans ((hsv.own j hj).trans (hown j))
  · rw [run, hwritten]
    refine ⟨Function.update_self _ _ _, ?_⟩
    show v.store.rows ++ v.store.own i = _
    rw [hsv.rows]

/-- A call that runs alone does what `storeImport` does. -/
theorem turn [DecidableEq ι] {i : ι} (h : Reachable readers devices calls initial s)
    (hphase : s.phase i = .idle) (hfree : ∀ j, ¬s.Locked j) (hown : ∀ j, s.store.own j = []) :
    ∃ t, Reachable readers devices calls initial t ∧ (∀ j ≠ i, t.phase j = s.phase j) ∧
      (∀ j, t.store.own j = []) ∧
      t.phase i = .ended (storeImport readers { devices, rows := s.store.rows } (calls i)).1 ∧
      t.store.rows = (storeImport readers { devices, rows := s.store.rows } (calls i)).2.rows := by
  have hlooked := h.step (.lookup i hphase)
  have hphases : ∀ {phase : Phase}, ∀ j ≠ i, (s.set i phase).phase j = s.phase j :=
    fun j hj => Function.update_of_ne hj _ _
  have hself : ∀ {phase : Phase}, (s.set i phase).phase i = phase :=
    fun {_} => Function.update_self _ _ _
  unfold storeImport
  rw [lookup] at hlooked
  cases hkey : Database.jobWithKey readers { devices, rows := s.store.rows }
    (calls i).sourceKey with
  | some job =>
    rw [hkey] at hlooked
    refine ⟨_, hlooked, hphases, hown, hself.trans ?_, ?_⟩
    · dsimp only
      split <;> rfl
    · dsimp only
      split <;> rfl
  | none =>
    rw [hkey] at hlooked
    dsimp only at hlooked ⊢
    have hcommit : commit (rules readers) s.store.rows
        (importSteps readers { devices, rows := s.store.rows } (calls i)) =
        run (rules readers) s.store.rows [] ((if Database.knows readers { devices }
          (calls i).deviceId then [] else [.raise "ValueError"]) ++
            script readers (calls i) devices s.store.rows s.store.rows) := by
      rw [commit, ← run_flush, importSteps_eq]
      rfl
    rw [hcommit]
    cases hknown : Database.knows readers { devices } (calls i).deviceId with
    | false =>
      exact ⟨_, hlooked.step (.unknown i hself hknown),
        fun j hj => (Function.update_of_ne hj _ _).trans (hphases j hj), hown,
        Function.update_self _ _ _, rfl⟩
    | true =>
      have hunlocked : ∀ j, (s.set i .looked).Locked j →
          sameText readers (calls j).deviceId (calls i).deviceId = false := by
        rintro j ⟨pending, steps, sought, hj⟩
        by_cases hji : j = i
        · rw [hji, hself] at hj
          cases hj
        · rw [hphases j hji] at hj
          exact (hfree j ⟨_, _, _, hj⟩).elim
      obtain ⟨t, ht, htphases, htown, hconcluded⟩ := transaction_alone
        (hlooked.step (.lock i hself hknown hunlocked)) (Function.update_self _ _ _) hown
      have hothers : ∀ j ≠ i, t.phase j = s.phase j := fun j hj => (htphases j hj).trans
        ((Function.update_of_ne hj _ _).trans (hphases j hj))
      rw [if_pos rfl, List.nil_append]
      cases hrun : run (rules readers) s.store.rows []
        (script readers (calls i) devices s.store.rows s.store.rows) with
      | ok rows =>
        have hdone : Concluded _ t i (.ok rows) := hrun ▸ hconcluded
        exact ⟨t, ht, hothers, htown, hdone.1, hdone.2⟩
      | error fault =>
        have hdone : Concluded _ t i (.error fault) := hrun ▸ hconcluded
        cases fault with
        | data => exact ⟨t, ht, hothers, htown, hdone.1, hdone.2⟩
        | raised name => exact ⟨t, ht, hothers, htown, hdone.1, hdone.2⟩
        | integrity =>
          refine ⟨_, ht.step (.retry i hdone.1), fun j hj => (Function.update_of_ne hj _ _).trans
            (hothers j hj), htown, (Function.update_self _ _ _).trans ?_, ?_⟩
          · rw [lookupAgain, show t.store.rows = s.store.rows from hdone.2, hkey]
          · exact hdone.2

end

end RetailPrintGuard.Ingestion.ConcurrentImports
