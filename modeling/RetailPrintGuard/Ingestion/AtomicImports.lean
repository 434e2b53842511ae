import Mathlib.Data.List.Pairwise
import RetailPrintGuard.Db.IngestRows
import RetailPrintGuard.Ingestion.ConcurrentImports
import RetailPrintGuard.Ingestion.Isolation

/-! # Atomic imports

What concurrent calls of `store_import` leave in the tables, and what they
report of an envelope that no other one is in the way of. -/
namespace RetailPrintGuard.Ingestion.ConcurrentImports
open RetailPrintGuard.Library RetailPrintGuard.Library.Transaction
open RetailPrintGuard.Ingestion.Dto RetailPrintGuard.Ingestion.Worker
open RetailPrintGuard.Db.Semantic RetailPrintGuard.Db.IngestStore RetailPrintGuard.Db.IngestRows

variable {ι : Type}

section
variable {readers : Readers} {devices : List String} {calls : ι → NormalizedEnvelope}
  {initial : List Row} {s t : State ι} {store : OpenTransactions.State ι Row}
  {envelope : NormalizedEnvelope} {sessions parsers : List Row}

/-! ## The rows of a call -/

theorem raise_beforeParser {db db' : Database} {error : String} :
    Step.raise error ∈ beforeParser readers db envelope ↔
      Step.raise error ∈ beforeParser readers db' envelope := by
  have hsession : ∀ db : Database, Step.raise error ∉
      (if db.hasSession (sessionKey readers envelope) then []
        else [.add (.session (sessionRow readers envelope)), (.flush : Step Row String)]) := by
    intro db
    split <;> simp
  simp only [beforeParser, List.mem_append, hsession, false_or]

theorem raise_afterParser {db db' : Database} {error : String} :
    Step.raise error ∈ afterParser readers db envelope ↔
      Step.raise error ∈ afterParser readers db' envelope := by
  have hparser : ∀ db : Database, Step.raise error ∉
      (if ∃ row ∈ db.rows, Row.clash readers row (.parser (parserRow readers envelope)) = true
        then [] else [.add (.parser (parserRow readers envelope)),
          (.flush : Step Row String)]) := by
    intro db
    split <;> simp
  have hdocuments : ∀ db : Database, Step.raise error ∈ insertDocuments readers db envelope ↔
      Step.raise error ∈ envelope.documents.flatMap (insertDocument readers envelope) := by
    intro db
    unfold insertDocuments
    by_cases hnone : envelope.documents = []
    · rw [if_pos hnone, hnone, List.flatMap_nil]
    · rw [if_neg hnone]
      simp only [List.mem_append, hparser, false_or]
  simp only [afterParser, List.mem_append, hdocuments]

/-- What a call raises does not depend on what it finds. -/
theorem quiet_script (hknown : Database.knows readers { devices } envelope.deviceId = true) :
    firstError (script readers envelope devices sessions parsers) = none ↔
      ∀ error, Step.raise error ∉ importSteps readers { devices, rows := initial } envelope := by
  rw [firstError_eq_none]
  refine forall_congr' fun error => not_congr ?_
  have hsteps := importSteps_eq readers { devices, rows := initial } envelope
  rw [if_pos (show Database.knows readers { devices, rows := initial } envelope.deviceId = true from
    hknown), List.nil_append] at hsteps
  have hflush : Step.raise error ∈ importSteps readers { devices, rows := initial } envelope ↔
      Step.raise error ∈
        importSteps readers { devices, rows := initial } envelope ++ [Step.flush] := by
    simp
  rw [hflush, hsteps, script, List.mem_append, List.mem_append,
    @raise_beforeParser readers envelope _ { devices, rows := initial } error,
    @raise_afterParser readers envelope _ { devices, rows := initial } error]

theorem added_script
    (hraw : ∀ chunk ∈ envelope.chunks, chunkInRaw readers envelope chunk = true) :
    added (script readers envelope devices sessions parsers) =
      sessionRows readers { devices, rows := sessions } envelope ++
        ([.job (jobRow readers envelope)] ++ (rawPayloadRows readers envelope ++
          ((chunkRows readers envelope).map Row.chunk ++
            (parserRows readers { devices, rows := parsers } envelope ++
              (documentRows readers envelope ++ itemRows readers envelope))))) := by
  have hsession : added (if Database.hasSession { devices, rows := sessions }
      (sessionKey readers envelope) = true then []
      else [.add (.session (sessionRow readers envelope)), (.flush : Step Row String)]) =
      sessionRows readers { devices, rows := sessions } envelope := by
    unfold sessionRows
    split <;> rfl
  have hartifacts : added (insertArtifacts readers envelope) = rawPayloadRows readers envelope := by
    rw [insertArtifacts, added_append, added_map, rawPayloadRows]
    exact List.append_nil _
  have hitems : added (recordImport readers envelope) = itemRows readers envelope := added_map _ _
  have hflush : added [(Step.flush : Step Row String)] = [] := rfl
  have hjob : added [.add (.job (jobRow readers envelope)), (Step.flush : Step Row String)] =
      [.job (jobRow readers envelope)] := rfl
  simp only [script, beforeParser, afterParser, added_append, hsession, hartifacts, hitems, hflush,
    hjob, added_insertChunks hraw, added_insertDocuments, List.append_assoc, List.append_nil]

/-- The rows an envelope adds to the initial ones. -/
def importRows (readers : Readers) (devices : List String) (initial : List Row)
    (envelope : NormalizedEnvelope) : List Row :=
  added (importSteps readers { devices, rows := initial } envelope)

theorem hasSession_mono {db db' : Database} {key : SessionKey} (hsub : db.rows ⊆ db'.rows)
    (h : db.hasSession key = true) : db'.hasSession key = true := by
  rw [Database.hasSession, List.any_eq_true] at h ⊢
  obtain ⟨row, hrow, hkey⟩ := h
  exact ⟨row, hsub hrow, hkey⟩

/-- A call that found more adds less. -/
theorem script_sublist (hknown : Database.knows readers { devices } envelope.deviceId = true)
    (hquiet : firstError (script readers envelope devices sessions parsers) = none)
    (hsessions : initial ⊆ sessions) (hparsers : initial ⊆ parsers) :
    (added (script readers envelope devices sessions parsers)).Sublist
      (importRows readers devices initial envelope) := by
  obtain ⟨-, hraw, -⟩ := quiet_iff.mp ((@quiet_script readers devices initial envelope sessions
    parsers hknown).mp hquiet)
  have hsession : (sessionRows readers { devices, rows := sessions } envelope).Sublist
      (sessionRows readers { devices, rows := initial } envelope) := by
    unfold sessionRows
    split
    · exact List.nil_sublist _
    · next hnone =>
      rw [if_neg fun h => hnone (hasSession_mono hsessions h)]
  have hparser : (parserRows readers { devices, rows := parsers } envelope).Sublist
      (parserRows readers { devices, rows := initial } envelope) := by
    unfold parserRows
    dsimp only
    split
    · exact List.nil_sublist _
    · next hnone =>
      rw [if_neg]
      rintro (h | ⟨row, hrow, hclash⟩)
      · exact hnone (.inl h)
      · exact hnone (.inr ⟨row, hparsers hrow, hclash⟩)
  have hknown' : Database.knows readers { devices, rows := initial } envelope.deviceId = true :=
    hknown
  rw [added_script hraw, importRows, added_importSteps hknown' hraw]
  exact hsession.append (.append (.refl _) (.append (.refl _) (.append (.refl _)
    (hparser.append (.refl _)))))

theorem mem_script {row : Row}
    (hraw : ∀ chunk ∈ envelope.chunks, chunkInRaw readers envelope chunk = true)
    (hrow : row ∈ added (script readers envelope devices sessions parsers)) :
    row ∈ sessionRows readers { devices, rows := sessions } envelope ∨
      row = .job (jobRow readers envelope) ∨
      row ∈ parserRows readers { devices, rows := parsers } envelope ∨
      owner row = some (jobKey readers envelope) := by
  rw [added_script hraw] at hrow
  simp only [List.mem_append, List.mem_singleton] at hrow
  rcases hrow with hrow | hrow | hrow | hrow | hrow | hrow | hrow
  · exact .inl hrow
  · exact .inr (.inl hrow)
  · exact .inr (.inr (.inr (owner_rawPayloadRows hrow).1))
  · obtain ⟨chunk, hchunk, rfl⟩ := List.mem_map.mp hrow
    obtain ⟨entry, -, rfl⟩ := List.mem_map.mp hchunk
    exact .inr (.inr (.inr rfl))
  · exact .inr (.inr (.inl hrow))
  · exact .inr (.inr (.inr (mem_documentRows hrow).1))
  · exact .inr (.inr (.inr (owner_itemRows hrow).1))

/-- A session that is added was not found. -/
theorem session_not_found {row : SessionRow}
    (hraw : ∀ chunk ∈ envelope.chunks, chunkInRaw readers envelope chunk = true)
    (hrow : Row.session row ∈ added (script readers envelope devices sessions parsers)) :
    ∀ other ∈ sessions, Row.clash readers other (.session row) = false := by
  rcases mem_script hraw hrow with hrow | hrow | hrow | hrow
  · unfold sessionRows at hrow
    split at hrow
    · cases hrow
    · next hnone =>
      obtain rfl := Row.session.inj (List.mem_singleton.mp hrow)
      intro other hother
      cases other with
      | session other =>
        have hne := hasSession_eq_false.mp (by simpa using hnone) other hother
        exact beq_eq_false_iff_ne.mpr hne
      | _ => rfl
  · cases hrow
  · cases table_parserRows hrow
  · cases hrow

/-- A parser version that is added was not found. -/
theorem parser_not_found {row : ParserRow}
    (hraw : ∀ chunk ∈ envelope.chunks, chunkInRaw readers envelope chunk = true)
    (hrow : Row.parser row ∈ added (script readers envelope devices sessions parsers)) :
    ∀ other ∈ parsers, Row.clash readers other (.parser row) = false := by
  rcases mem_script hraw hrow with hrow | hrow | hrow | hrow
  · cases table_sessionRows hrow
  · cases hrow
  · unfold parserRows at hrow
    dsimp only at hrow
    split at hrow
    · cases hrow
    · next hnone =>
      rw [List.mem_singleton.mp hrow]
      intro other hother
      exact Bool.eq_false_iff.mpr fun hclash => hnone (.inr ⟨other, hother, hclash⟩)
  · cases hrow

/-- The job of a call is the one of its envelope. -/
theorem job_of_script {row : JobRow}
    (hraw : ∀ chunk ∈ envelope.chunks, chunkInRaw readers envelope chunk = true) :
    Row.job row ∈ added (script readers envelope devices sessions parsers) ↔
      row = jobRow readers envelope := by
  constructor
  · intro hrow
    rcases mem_script hraw hrow with hrow | hrow | hrow | hrow
    · cases table_sessionRows hrow
    · exact Row.job.inj hrow
    · cases table_parserRows hrow
    · cases hrow
  · rintro rfl
    rw [added_script hraw]
    exact List.mem_append_right _ (List.mem_append_left _ (List.mem_singleton_self _))

/-! ## Calls nobody disturbs -/

/-- A row that another call of the device may have stored: it is looked for under
the lock of the device. -/
def Shared : Row → Prop
  | .session _ | .parser _ => True
  | _ => False

/-- Another envelope adds a row that clashes with one of the envelope's, and that
the envelope's call does not look for. -/
def Disturbs (readers : Readers) (devices : List String) (initial : List Row)
    (other envelope : NormalizedEnvelope) : Prop :=
  ∃ a ∈ importRows readers devices initial other, ∃ b ∈ importRows readers devices initial envelope,
    Row.clash readers a b = true ∧
      ¬(sameText readers other.deviceId envelope.deviceId = true ∧ Shared b)

/-- An envelope that can be stored, among calls that store the same source with
the same manifest or do not disturb it. -/
structure Undisturbed (readers : Readers) (devices : List String)
    (calls : ι → NormalizedEnvelope) (initial : List Row) (envelope : NormalizedEnvelope) :
    Prop where
  storable : Storable readers { devices, rows := initial } envelope
  same : ∀ j, sameText readers (calls j).sourceKey envelope.sourceKey = true →
    (calls j).manifestSha256 = envelope.manifestSha256
  apart : ∀ j, sameText readers (calls j).sourceKey envelope.sourceKey = false →
    ¬Disturbs readers devices initial (calls j) envelope

theorem Wrote.raw {i : ι} {rows : List Row} (h : Wrote readers devices calls initial i rows) :
    ∀ chunk ∈ (calls i).chunks, chunkInRaw readers (calls i) chunk = true := by
  obtain ⟨hknown, sessions, parsers, -, -, hquiet, -⟩ := h
  exact (quiet_iff.mp ((@quiet_script readers devices [] (calls i) sessions parsers
    hknown).mp hquiet)).2.1

theorem Wrote.sublist {i : ι} {rows : List Row} (h : Wrote readers devices calls initial i rows) :
    rows.Sublist (importRows readers devices initial (calls i)) := by
  obtain ⟨hknown, sessions, parsers, hsessions, hparsers, hquiet, rfl⟩ := h
  exact script_sublist hknown hquiet hsessions hparsers

theorem Wrote.job {i : ι} {rows : List Row} (h : Wrote readers devices calls initial i rows)
    {row : JobRow} : Row.job row ∈ rows ↔ row = jobRow readers (calls i) := by
  have hraw := h.raw
  obtain ⟨-, sessions, parsers, -, -, -, rfl⟩ := h
  exact job_of_script hraw

/-- A committed job is an initial one, or the one of a call that committed. -/
theorem Invariant.job (hs : Invariant readers devices calls initial s) {row : JobRow} :
    Row.job row ∈ s.store.rows ↔ Row.job row ∈ initial ∨
      ∃ i ∈ s.store.log.map Prod.fst, row = jobRow readers (calls i) := by
  rw [hs.consistent.logged, List.mem_append, List.mem_flatMap]
  refine or_congr_right ⟨?_, ?_⟩
  · rintro ⟨entry, hentry, hrow⟩
    exact ⟨entry.1, List.mem_map_of_mem hentry, (hs.logged entry hentry).2.job.mp hrow⟩
  · rintro ⟨i, hi, rfl⟩
    obtain ⟨entry, hentry, rfl⟩ := List.mem_map.mp hi
    exact ⟨entry, hentry, (hs.logged entry hentry).2.job.mpr rfl⟩

/-- What a call holds of an envelope nobody disturbs. -/
def Clean (readers : Readers) (envelope : NormalizedEnvelope) (rows : List Row) : Phase → Prop
  | .ended (.raised _) | .ended .unavailable => False
  | .refused => ∃ job, Row.job job ∈ rows ∧
    sameText readers job.sourceKey envelope.sourceKey = true
  | _ => True

/-- The source of an undisturbed envelope is stored with its manifest only. -/
theorem Undisturbed.manifest (hu : Undisturbed readers devices calls initial envelope)
    (hs : Invariant readers devices calls initial s) {row : JobRow}
    (hrow : Row.job row ∈ s.store.rows)
    (hsame : sameText readers row.sourceKey envelope.sourceKey = true) :
    row.manifestSha256 = envelope.manifestSha256 := by
  rcases hs.job.mp hrow with hrow | ⟨i, -, rfl⟩
  · rw [jobWithKey_eq_none.mp hu.storable.newKey row hrow] at hsame
    cases hsame
  · exact hu.same i hsame

/-- The steps that are left raise nothing. -/
theorem Inserting.quiet {i : ι} {pending : List Row} {steps : List (Step Row String)}
    {sought : Bool} (hu : Undisturbed readers devices calls initial (calls i))
    (h : Inserting readers devices calls initial store i pending steps sought) (name : String) :
    Step.raise name ∉ steps := by
  obtain ⟨hknown, sessions, tail, done, -, htail, hscript, -⟩ := h
  have hfree : ∀ parsers, Step.raise name ∉ script readers (calls i) devices sessions parsers :=
    fun parsers => firstError_eq_none.mp ((quiet_script hknown).mpr hu.storable.quiet) name
  have hsteps : ∀ parsers, steps ⊆ beforeParser readers { devices, rows := sessions } (calls i) ++
      afterParser readers { devices, rows := parsers } (calls i) → Step.raise name ∉ steps :=
    fun parsers hsub hraise => hfree parsers (hsub hraise)
  have hleft : steps ⊆ beforeParser readers { devices, rows := sessions } (calls i) ++ tail := by
    rw [hscript]
    exact List.subset_append_right _ _
  cases htail with
  | unsought =>
    rw [List.append_nil] at hleft
    exact hsteps [] fun _ hstep => List.mem_append_left _ (hleft hstep)
  | sought parsers _ => exact hsteps parsers hleft

/-- The rows of a call in the middle of its steps, with what it found. -/
theorem Inserting.rows {i : ι} {pending : List Row} {steps : List (Step Row String)}
    {sought : Bool}
    (hu : Undisturbed readers devices calls initial (calls i))
    (h : Inserting readers devices calls initial store i pending steps sought)
    (hconsistent : OpenTransactions.Consistent (rules readers) initial store) :
    ∃ sessions parsers, Seen readers calls initial store i sessions ∧
      Seen readers calls initial store i parsers ∧
      firstError (script readers (calls i) devices sessions parsers) = none ∧
      (store.own i ++ pending).Sublist
        (added (script readers (calls i) devices sessions parsers)) := by
  obtain ⟨hknown, sessions, tail, done, hsessions, htail, hscript, hquiet, hadded⟩ := h
  have hfree : ∀ parsers, firstError (script readers (calls i) devices sessions parsers) = none :=
    fun parsers => (quiet_script hknown).mpr hu.storable.quiet
  cases htail with
  | unsought =>
    refine ⟨sessions, store.rows, hsessions, seen_now hconsistent, hfree _, ?_⟩
    rw [List.append_nil] at hscript
    rw [script, hscript, added_append, added_append, hadded, List.append_assoc]
    exact List.sublist_append_left _ _
  | sought parsers hparsers =>
    refine ⟨sessions, parsers, hsessions, hparsers, hfree _, ?_⟩
    rw [script, hscript, added_append, hadded]
    exact List.sublist_append_left _ _

/-- A row of an undisturbed envelope that clashes with a committed one finds its
job there. -/
theorem Undisturbed.clash {i : ι} {row : Row} {pending : List Row}
    {steps : List (Step Row String)} {sought : Bool}
    (hu : Undisturbed readers devices calls initial (calls i))
    (hs : Invariant readers devices calls initial s)
    (h : Inserting readers devices calls initial s.store i (row :: pending) steps sought)
    {other : Row} (hother : other ∈ s.store.rows ++ s.store.own i)
    (hclash : Row.clash readers other row = true) :
    ∃ job, Row.job job ∈ s.store.rows ∧
      sameText readers job.sourceKey (calls i).sourceKey = true := by
  obtain ⟨sessions, parsers, hsessions, hparsers, hquiet, hsublist⟩ := h.rows hu hs.consistent
  have hadded := script_sublist h.known hquiet hsessions.subset hparsers.subset
  have hraw := (quiet_iff.mp hu.storable.quiet).2.1
  have hscript := hsublist.subset (List.mem_append_right _ List.mem_cons_self)
  have hmine := hadded.subset hscript
  have hnot : ∀ {P : Prop}, Row.clash readers other row = false → P := fun hfree => by
    rw [hfree] at hclash
    cases hclash
  rcases List.mem_append.mp hother with hother | hother
  · rw [hs.consistent.logged, List.mem_append, List.mem_flatMap] at hother
    rcases hother with hother | ⟨⟨j, rows⟩, hentry, hother⟩
    · exact hnot (hu.storable.free other hother row hmine)
    · have hwrote := (hs.logged _ hentry).2
      cases hsame : sameText readers (calls j).sourceKey (calls i).sourceKey with
      | true =>
        exact ⟨_, hs.job.mpr (.inr ⟨j, List.mem_map_of_mem hentry, rfl⟩), hsame⟩
      | false =>
        -- the other call is one of the device, and stored the row before this one looked
        obtain ⟨hdevice, hshared⟩ : sameText readers (calls j).deviceId (calls i).deviceId = true ∧
            Shared row := by
          by_contra hapart
          exact hu.apart j hsame ⟨other, hwrote.sublist.subset hother, row, hmine, hclash, hapart⟩
        have hfound := fun {seen} (h : Seen readers calls initial s.store i seen) =>
          h.before hentry hdevice hother
        cases row with
        | session row => exact hnot (session_not_found hraw hscript other (hfound hsessions))
        | parser row => exact hnot (parser_not_found hraw hscript other (hfound hparsers))
        | _ => cases hshared
  · have hpairs := hu.storable.apart.sublist (hsublist.trans hadded)
    exact hnot ((List.pairwise_append.mp hpairs).2.2 other hother row List.mem_cons_self)

theorem Clean.mono {rows rows' : List Row} {phase : Phase}
    (h : Clean readers envelope rows phase) (hsub : rows ⊆ rows') :
    Clean readers envelope rows' phase := by
  unfold Clean at h ⊢
  split
  · exact h
  · exact h
  · obtain ⟨job, hjob, hsame⟩ := h
    exact ⟨job, hsub hjob, hsame⟩
  · trivial

theorem clean_advance [DecidableEq ι] {i : ι} {phase : Phase}
    (hclean : ∀ i, calls i = envelope → Clean readers envelope s.store.rows (s.phase i))
    (hphase : t.phase = Function.update s.phase i phase) (hrows : s.store.rows ⊆ t.store.rows)
    (hi : calls i = envelope → Clean readers envelope t.store.rows phase) :
    ∀ i, calls i = envelope → Clean readers envelope t.store.rows (t.phase i) := by
  intro j hj
  rw [hphase]
  by_cases hji : j = i
  · rw [hji, Function.update_self]
    exact hi (hji ▸ hj)
  · rw [Function.update_of_ne hji]
    exact (hclean j hj).mono hrows

theorem Undisturbed.lookup (hu : Undisturbed readers devices calls initial envelope)
    (hs : Invariant readers devices calls initial s) :
    Clean readers envelope s.store.rows (lookup readers devices s.store.rows envelope) := by
  unfold ConcurrentImports.lookup
  split
  · next job hjob =>
    obtain ⟨hrow, hsame⟩ := jobWithKey_eq_some hjob
    rw [if_neg (not_not.mpr (hu.manifest hs hrow hsame))]
    trivial
  · trivial

theorem Undisturbed.lookupAgain (hu : Undisturbed readers devices calls initial envelope)
    (hs : Invariant readers devices calls initial s) {job : JobRow}
    (hjob : Row.job job ∈ s.store.rows)
    (hsame : sameText readers job.sourceKey envelope.sourceKey = true) :
    lookupAgain readers devices s.store.rows envelope = .stored .duplicate := by
  unfold ConcurrentImports.lookupAgain
  split
  · next found hfound =>
    obtain ⟨hrow, hsame⟩ := jobWithKey_eq_some hfound
    rw [if_pos (hu.manifest hs hrow hsame)]
  · next hnone =>
    rw [jobWithKey_eq_none.mp hnone job hjob] at hsame
    cases hsame

/-- A call of an undisturbed envelope stays clean. -/
theorem Undisturbed.step [DecidableEq ι] (hu : Undisturbed readers devices calls initial envelope)
    (hs : Invariant readers devices calls initial s) (h : Next readers devices calls s t)
    (hclean : ∀ i, calls i = envelope → Clean readers envelope s.store.rows (s.phase i)) :
    ∀ i, calls i = envelope → Clean readers envelope t.store.rows (t.phase i) := by
  have heach : ∀ {i phase}, s.phase i = phase →
      Held readers devices calls initial s.store i phase := fun {i} _ hphase => hphase ▸ hs.each i
  cases h with
  | lookup i h =>
    have hlookup := hu.lookup hs
    refine clean_advance hclean rfl (List.Subset.refl _) fun hi => ?_
    rw [hi]
    exact hlookup
  | unknown i h hdevice =>
    refine clean_advance hclean rfl (List.Subset.refl _) fun hi => ?_
    have hknown := (quiet_iff.mp hu.storable.quiet).1
    rw [← hi] at hknown
    exact absurd (hdevice.symm.trans hknown) Bool.false_ne_true
  | unfit i row pending steps sought h hfits =>
    refine clean_advance hclean rfl (List.Subset.refl _) fun hi => ?_
    subst hi
    have hheld : Inserting readers devices calls initial s.store i (row :: pending)
      (.flush :: steps) sought := heach h
    obtain ⟨sessions, parsers, hsessions, hparsers, hquiet, hsublist⟩ :=
      hheld.rows hu hs.consistent
    have hmine := (hsublist.trans (script_sublist hheld.known hquiet hsessions.subset
      hparsers.subset)).subset (List.mem_append_right _ List.mem_cons_self)
    exact absurd (hfits.symm.trans (hu.storable.fits row hmine)) Bool.false_ne_true
  | clashes i row pending steps sought h hfits hclash =>
    refine clean_advance hclean rfl (List.Subset.refl _) fun hi => ?_
    subst hi
    obtain ⟨other, hother, hclash⟩ := hclash
    have hfound := hu.clash hs (heach h) hother hclash
    exact hfound
  | raises i pending name steps sought h =>
    refine clean_advance hclean rfl (List.Subset.refl _) fun hi => ?_
    subst hi
    have hheld : Inserting readers devices calls initial s.store i pending
      (.raise name :: steps) sought := heach h
    exact (hheld.quiet hu name List.mem_cons_self).elim
  | retry i h =>
    refine clean_advance hclean rfl (List.Subset.refl _) fun hi => ?_
    have hrefused := hclean i hi
    rw [h] at hrefused
    obtain ⟨job, hjob, hsame⟩ := hrefused
    rw [hi, hu.lookupAgain hs hjob hsame]
    trivial
  | commit i h =>
    exact clean_advance hclean rfl (List.subset_append_left _ _) fun _ => trivial
  | _ => exact clean_advance hclean rfl (List.Subset.refl _) fun _ => trivial

theorem clean_of_reachable [DecidableEq ι] (hu : Undisturbed readers devices calls initial envelope)
    (happart : OpenTransactions.Apart (rules readers) initial)
    (h : Reachable readers devices calls initial s) :
    ∀ i, calls i = envelope → Clean readers envelope s.store.rows (s.phase i) := by
  induction h with
  | start => exact fun _ _ => trivial
  | step h hnext ih => exact hu.step (invariant_of_reachable happart h) hnext ih

/-! ## One job -/

/-- The jobs with a source key. -/
def jobsOf (readers : Readers) (rows : List Row) (sourceKey : String) : List JobRow :=
  rows.filterMap (jobOf readers sourceKey)

theorem mem_jobsOf {rows : List Row} {sourceKey : String} {row : JobRow} :
    row ∈ jobsOf readers rows sourceKey ↔
      Row.job row ∈ rows ∧ sameText readers row.sourceKey sourceKey = true := by
  rw [jobsOf, List.mem_filterMap]
  constructor
  · rintro ⟨other, hother, heq⟩
    obtain ⟨rfl, hsame⟩ := jobOf_eq_some.mp heq
    exact ⟨hother, hsame⟩
  · rintro ⟨hrow, hsame⟩
    exact ⟨_, hrow, jobOf_eq_some.mpr ⟨rfl, hsame⟩⟩

theorem sameText_trans {a b c : String} (hab : sameText readers a b = true)
    (hbc : sameText readers b c = true) : sameText readers a c = true := by
  rw [sameText, beq_iff_eq] at hab hbc ⊢
  exact hab.trans hbc

/-- The constraint on source keys lets one job have each. -/
theorem jobsOf_eq {rows : List Row} (happart : OpenTransactions.Apart (rules readers) rows)
    {sourceKey : String} {row : JobRow} (hrow : Row.job row ∈ rows)
    (hsame : sameText readers row.sourceKey sourceKey = true) :
    jobsOf readers rows sourceKey = [row] := by
  have hmem := mem_jobsOf.mpr ⟨hrow, hsame⟩
  have hone : (jobsOf readers rows sourceKey).Pairwise fun _ _ => False := by
    refine List.Pairwise.filterMap _ ?_ happart
    intro a b hclash c hc d hd
    obtain ⟨hc, hsame⟩ := jobOf_eq_some.mp hc
    obtain ⟨hd, hsame'⟩ := jobOf_eq_some.mp hd
    rw [sameText_comm] at hsame'
    have hclash : (sameText readers c.sourceKey d.sourceKey || c.key == d.key) = false := by
      rw [hc, hd] at hclash
      exact hclash
    rw [sameText_trans hsame hsame', Bool.true_or] at hclash
    cases hclash
  match hjobs : jobsOf readers rows sourceKey, hmem, hone with
  | [other], hmem, _ => rw [List.mem_singleton.mp hmem]
  | _ :: _ :: _, _, hone => exact ((List.pairwise_cons.mp hone).1 _ List.mem_cons_self).elim

/-! ## Atomic imports -/

/-- All the rows of an import: its job with its payloads, its chunks and its
documents, and the session and the parser version where they were new. -/
def Whole (readers : Readers) (envelope : NormalizedEnvelope) (rows : List Row) : Prop :=
  ∃ session parser,
    (session = [] ∨ session = [.session (sessionRow readers envelope)]) ∧
    (parser = [] ∨ parser = [.parser (parserRow readers envelope)]) ∧
    rows = session ++ ([.job (jobRow readers envelope)] ++ (rawPayloadRows readers envelope ++
      ((chunkRows readers envelope).map Row.chunk ++ (parser ++
        (documentRows readers envelope ++ itemRows readers envelope)))))

theorem Wrote.whole {i : ι} {rows : List Row} (h : Wrote readers devices calls initial i rows) :
    Whole readers (calls i) rows := by
  have hraw := h.raw
  obtain ⟨-, sessions, parsers, -, -, -, rfl⟩ := h
  refine ⟨_, _, ?_, ?_, added_script hraw⟩
  · unfold sessionRows
    split
    · exact .inl rfl
    · exact .inr rfl
  · unfold parserRows
    dsimp only
    split
    · exact .inl rfl
    · exact .inr rfl

theorem Invariant.imported (hs : Invariant readers devices calls initial s) {i : ι} :
    i ∈ s.store.log.map Prod.fst ↔ s.phase i = .ended (.stored .imported) := by
  constructor
  · intro hi
    obtain ⟨entry, hentry, rfl⟩ := List.mem_map.mp hi
    exact (hs.logged entry hentry).1
  · intro hi
    have hheld := hs.each i
    rw [hi] at hheld
    exact hheld.2

/-- A call that stored its envelope, or found it stored, finds one job. -/
theorem Invariant.one (hs : Invariant readers devices calls initial s) {i : ι}
    {disposition : ImportDisposition} (hi : s.phase i = .ended (.stored disposition)) :
    ∃ job, jobsOf readers s.store.rows (calls i).sourceKey = [job] ∧
      job.manifestSha256 = (calls i).manifestSha256 ∧
      (disposition = .imported → job = jobRow readers (calls i)) := by
  have happart := hs.consistent.committed i
  cases disposition with
  | imported =>
    have hjob := hs.job.mpr (.inr ⟨i, hs.imported.mpr hi, rfl⟩)
    exact ⟨_, jobsOf_eq happart hjob (beq_self_eq_true _), rfl, fun _ => rfl⟩
  | duplicate =>
    have hheld := hs.each i
    rw [hi] at hheld
    obtain ⟨-, job, hjob, hsame, hmanifest⟩ := hheld
    exact ⟨job, jobsOf_eq happart hjob hsame, hmanifest, fun h => nomatch h⟩

/-- One call imports a source. -/
theorem Invariant.unique (hs : Invariant readers devices calls initial s) {i j : ι}
    (hi : s.phase i = .ended (.stored .imported)) (hj : s.phase j = .ended (.stored .imported))
    (hsame : sameText readers (calls i).sourceKey (calls j).sourceKey = true) : i = j := by
  by_contra hne
  obtain ⟨a, ha, rfl⟩ := List.mem_map.mp (hs.imported.mpr hi)
  obtain ⟨b, hb, rfl⟩ := List.mem_map.mp (hs.imported.mpr hj)
  have happart := hs.consistent.committed a.1
  rw [hs.consistent.logged] at happart
  have hpairs := (List.pairwise_flatMap.mp (List.pairwise_append.mp happart).2.1).2
  have hsymm : Std.Symm fun a b : ι × List Row =>
      ∀ x ∈ a.2, ∀ y ∈ b.2, (rules readers).clash x y = false :=
    ⟨fun a b hab y hy x hx => (clash_comm y x).trans (hab x hx y hy)⟩
  have hclash := hpairs.forall ha hb (fun h => hne (congrArg Prod.fst h)) _
    ((hs.logged a ha).2.job.mpr rfl) _ ((hs.logged b hb).2.job.mpr rfl)
  have hkeys : (sameText readers (calls a.1).sourceKey (calls b.1).sourceKey ||
      (jobRow readers (calls a.1)).key == (jobRow readers (calls b.1)).key) = false := hclash
  rw [hsame, Bool.true_or] at hkeys
  cases hkeys

/-- In every interleaving the committed rows are those of the calls that report
an import, each with all its rows; the others leave nothing. A source has one
job, and one call imports it. Where the envelope can be stored and nobody
disturbs it, its calls report an import or a duplicate. -/
theorem imports_atomic [DecidableEq ι] (happart : OpenTransactions.Apart (rules readers) initial)
    (h : Reachable readers devices calls initial s) :
    (s.store.rows = initial ++ s.store.log.flatMap Prod.snd ∧
      (s.store.log.map Prod.fst).Nodup ∧
      (∀ i, i ∈ s.store.log.map Prod.fst ↔ s.phase i = .ended (.stored .imported)) ∧
      ∀ entry ∈ s.store.log, Whole readers (calls entry.1) entry.2) ∧
    (∀ i disposition, s.phase i = .ended (.stored disposition) →
      ∃ job, jobsOf readers s.store.rows (calls i).sourceKey = [job] ∧
        job.manifestSha256 = (calls i).manifestSha256 ∧
        (disposition = .imported → job = jobRow readers (calls i))) ∧
    (∀ i j, s.phase i = .ended (.stored .imported) → s.phase j = .ended (.stored .imported) →
      sameText readers (calls i).sourceKey (calls j).sourceKey = true → i = j) ∧
    ∀ envelope, Undisturbed readers devices calls initial envelope →
      (∀ i outcome, calls i = envelope → s.phase i = .ended outcome →
        outcome = .stored .imported ∨ outcome = .stored .duplicate) ∧
      ((∃ i disposition, calls i = envelope ∧ s.phase i = .ended (.stored disposition)) →
        ∃! i, sameText readers (calls i).sourceKey envelope.sourceKey = true ∧
          s.phase i = .ended (.stored .imported)) := by
  have hs := invariant_of_reachable happart h
  refine ⟨⟨hs.consistent.logged, hs.once, fun i => hs.imported,
    fun entry hentry => (hs.logged entry hentry).2.whole⟩, fun i disposition => hs.one,
    fun i j => hs.unique, fun envelope hu => ⟨?_, ?_⟩⟩
  · intro i outcome hi hended
    have hclean := clean_of_reachable hu happart h i hi
    rw [hended] at hclean
    cases outcome with
    | stored disposition =>
      cases disposition with
      | imported => exact .inl rfl
      | duplicate => exact .inr rfl
    | unavailable => exact hclean.elim
    | raised name => exact hclean.elim
  · rintro ⟨i, disposition, rfl, hi⟩
    obtain ⟨job, hjobs, -⟩ := hs.one hi
    obtain ⟨hjob, hsame⟩ := mem_jobsOf.mp (hjobs ▸ List.mem_singleton_self job)
    rcases hs.job.mp hjob with hinitial | ⟨j, hj, rfl⟩
    · rw [jobWithKey_eq_none.mp hu.storable.newKey job hinitial] at hsame
      cases hsame
    · refine ⟨j, ⟨hsame, hs.imported.mp hj⟩, fun k hk => ?_⟩
      have hsame' : sameText readers (calls i).sourceKey (calls j).sourceKey = true := by
        rw [sameText_comm]
        exact hsame
      exact hs.unique hk.2 (hs.imported.mp hj) (sameText_trans hk.1 hsame')

end

/-! ## Two calls for one receipt -/

section
open RetailPrintGuard.Ingestion.Isolation

theorem duplicate_receipt : (storeImport plainReaders
    (storeImport plainReaders configured (receiptOf "pos_1" "4b0e8f3c")).2
    (receiptOf "pos_1" "4b0e8f3c")).1 = .stored .duplicate := by
  decide +kernel

theorem receipt_undisturbed : Undisturbed plainReaders ["pos_1"]
    (fun _ : Bool => receiptOf "pos_1" "4b0e8f3c") [] (receiptOf "pos_1" "4b0e8f3c") where
  storable := receiptOf_storable
  same _ _ := rfl
  apart _ h := absurd h (by simp [sameText])

/-- The first call imports the receipt and the second finds it. -/
theorem imports_atomic_twice : ∃ s : State Bool, s.phase true = .ended (.stored .imported) ∧
    s.phase false = .ended (.stored .duplicate) ∧
    jobsOf plainReaders s.store.rows (receiptOf "pos_1" "4b0e8f3c").sourceKey =
      [jobRow plainReaders (receiptOf "pos_1" "4b0e8f3c")] ∧
    ∃! i, s.phase i = .ended (.stored .imported) := by
  have hfirst : storeImport plainReaders { devices := ["pos_1"], rows := [] }
      (receiptOf "pos_1" "4b0e8f3c") = (.stored .imported, _) := storeImport_rows receiptOf_storable
  obtain ⟨s, hs, hothers, hown, himported, hrows⟩ := @turn Bool plainReaders ["pos_1"]
    (fun _ => receiptOf "pos_1" "4b0e8f3c") [] { store := { rows := [] } } _ true .start rfl
    (fun _ h => by obtain ⟨_, _, _, h⟩ := h; cases h) fun _ => rfl
  rw [hfirst] at himported hrows
  have hidle : s.phase false = .idle := hothers false (by decide)
  obtain ⟨t, ht, hothers', -, hduplicate, -⟩ := turn hs hidle (fun j h => by
    obtain ⟨_, _, _, h⟩ := h
    cases j with
    | true => cases himported.symm.trans h
    | false => cases hidle.symm.trans h) hown
  have hsecond : (storeImport plainReaders { devices := ["pos_1"], rows := s.store.rows }
      (receiptOf "pos_1" "4b0e8f3c")).1 = .stored .duplicate := by
    have hduplicate := duplicate_receipt
    rw [storeImport_rows receiptOf_storable] at hduplicate
    rw [hrows]
    exact hduplicate
  rw [hsecond] at hduplicate
  have himported' : t.phase true = .ended (.stored .imported) :=
    (hothers' true (by decide)).trans himported
  obtain ⟨-, hone, -, hundisturbed⟩ := imports_atomic List.Pairwise.nil ht
  obtain ⟨job, hjobs, -, hjob⟩ := hone true .imported himported'
  refine ⟨t, himported', hduplicate, by rw [hjobs, hjob rfl], ?_⟩
  obtain ⟨i, ⟨-, hi⟩, hunique⟩ := (hundisturbed _ receipt_undisturbed).2 ⟨true, _, rfl, himported'⟩
  exact ⟨i, hi, fun j hj => hunique j ⟨rfl, hj⟩⟩

/-- A receipt of a device nobody configured is not imported. -/
theorem unknown_device_not_imported : ∃ s : State Unit,
    Reachable plainReaders ["pos_1"] (fun _ => receiptOf "pos_9" "9c1d7a52") [] s ∧
      s.phase () = .ended (.raised "ValueError") ∧
      jobsOf plainReaders s.store.rows (receiptOf "pos_9" "9c1d7a52").sourceKey = [] := by
  obtain ⟨t, ht, -, -, hphase, hrows⟩ := @turn Unit plainReaders ["pos_1"]
    (fun _ => receiptOf "pos_9" "9c1d7a52") [] { store := { rows := [] } } _ () .start rfl
    (fun _ h => by obtain ⟨_, _, _, h⟩ := h; cases h) fun _ => rfl
  have hrefused : storeImport plainReaders { devices := ["pos_1"], rows := [] }
      (receiptOf "pos_9" "9c1d7a52") = (.raised "ValueError", configured) := receiptOf_refused
  rw [hrefused] at hphase hrows
  refine ⟨t, ht, hphase, ?_⟩
  rw [hrows]
  rfl

end

end RetailPrintGuard.Ingestion.ConcurrentImports
