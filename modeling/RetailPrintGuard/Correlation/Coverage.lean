import RetailPrintGuard.Correlation.Current
import RetailPrintGuard.Correlation.Membership

/-! # No document is dropped from the analysis

While every selected seed is loaded and every document a transaction unsettles
can still be selected, each sale document is either settled in a current
active correlation or on its way to a run. -/
namespace RetailPrintGuard.Correlation.Coverage
open RetailPrintGuard.Common.Python RetailPrintGuard.Common.Domain RetailPrintGuard.Library
open RetailPrintGuard.Correlation.Scoring RetailPrintGuard.Correlation.Engine
open RetailPrintGuard.Correlation.CandidateBatch RetailPrintGuard.Correlation.Loading
open RetailPrintGuard.Correlation.Worker RetailPrintGuard.Correlation.Persistence
open RetailPrintGuard.Correlation.Run RetailPrintGuard.Correlation.Current
open RetailPrintGuard.Correlation.Membership RetailPrintGuard.Db.Models
open RetailPrintGuard.Db.Repository RetailPrintGuard.Parser.Repository
open RetailPrintGuard.Library.Runs RetailPrintGuard.System

/-! ## The states of a document -/

/-- The document is a member of a current active correlation. -/
def Settled (db : Database) (documentId : UUID) : Prop :=
  ∃ c ∈ db.correlations.rows, c.active = true ∧ documentId ∈ c.memberIds ∧ CurrentInput db c

instance (db : Database) (documentId : UUID) : Decidable (Settled db documentId) :=
  inferInstanceAs (Decidable (∃ _ ∈ _, _))

/-- When a run selects no seed, every analysable sale document is settled. -/
def NothingDropped (db : Database) (limit lookbackSeconds : Nat) : Prop :=
  seedRows db limit lookbackSeconds = [] →
    ∀ row ∈ documentQuery db, row.value.type.nonSale = false → Settled db row.document.id

instance (db : Database) (limit lookbackSeconds : Nat) :
    Decidable (NothingDropped db limit lookbackSeconds) :=
  inferInstanceAs (Decidable (_ → ∀ _ ∈ _, _))

/-- Settled, or selectable, or in an active correlation that a selectable
document will renew. -/
def Accounted (db : Database) (lookbackSeconds : Nat) (row : QueryRow) : Prop :=
  seedEligible db lookbackSeconds row = true ∨
    ∃ c, Active db c ∧ row.document.id ∈ c.memberIds ∧ (CurrentInput db c ∨
      ∃ other ∈ documentQuery db, other.document.id ∈ c.memberIds ∧
        seedEligible db lookbackSeconds other = true)

/-- Every analysable sale document is accounted for. -/
structure Accounts (rt : Runtime) (lookbackSeconds : Nat) (db : Database) : Prop where
  sound : Sound rt db
  accounted : ∀ row ∈ documentQuery db, row.value.type.nonSale = false →
    Accounted db lookbackSeconds row

/-! ## Steps that drop nothing -/

/-- The document is a member of no active correlation. -/
def Uncorrelated (db : Database) (documentId : UUID) : Prop :=
  ∀ c ∈ db.correlations.rows, c.active = true → documentId ∉ c.memberIds

instance (db : Database) (documentId : UUID) : Decidable (Uncorrelated db documentId) :=
  inferInstanceAs (Decidable (∀ _ ∈ _, _))

/-- The document had this version before. -/
def Kept (db : Database) (row : QueryRow) : Prop :=
  ∃ old ∈ documentQuery db, old.version = row.version ∧ old.load = row.load

instance (db : Database) (row : QueryRow) : Decidable (Kept db row) :=
  inferInstanceAs (Decidable (∃ _ ∈ _, _))

/-- No sale document is left in the active correlations of the document. -/
def Alone (db : Database) (documentId : UUID) : Prop :=
  ∀ c ∈ db.correlations.rows, c.active = true → documentId ∈ c.memberIds →
    ∀ row ∈ documentQuery db, row.document.id ∈ c.memberIds → row.value.type.nonSale = true

instance (db : Database) (documentId : UUID) : Decidable (Alone db documentId) :=
  inferInstanceAs (Decidable (∀ _ ∈ _, _))

/-- A transaction of the parser leaves every document whose current version it
changes selectable (or settled, or non-sale and in no active correlation), and
takes none out of the analysis that shares an active correlation with a sale
document. -/
structure Announces (db db' : Database) (lookbackSeconds : Nat) : Prop where
  changed : ∀ row ∈ documentQuery db', Kept db row ∨ seedEligible db' lookbackSeconds row = true ∨
    Settled db' row.document.id ∨
    (row.value.type.nonSale = true ∧ Uncorrelated db' row.document.id)
  gone : ∀ row ∈ documentQuery db, (∃ new ∈ documentQuery db', new.document.id = row.document.id) ∨
    Alone db' row.document.id

instance (db db' : Database) (lookbackSeconds : Nat) :
    Decidable (Announces db db' lookbackSeconds) :=
  decidable_of_iff ((∀ row ∈ documentQuery db', Kept db row ∨
      seedEligible db' lookbackSeconds row = true ∨ Settled db' row.document.id ∨
      (row.value.type.nonSale = true ∧ Uncorrelated db' row.document.id)) ∧
    ∀ row ∈ documentQuery db, (∃ new ∈ documentQuery db', new.document.id = row.document.id) ∨
      Alone db' row.document.id) ⟨fun h => ⟨h.1, h.2⟩, fun h => ⟨h.1, h.2⟩⟩

/-- The cursor a batch leaves is at most one lookback after the parse. -/
def WithinLookback (db : Database) (limit lookbackSeconds : Nat) (row : QueryRow) : Prop :=
  ∀ watermark ∈ advanceWatermark db lookbackSeconds (seedRows db limit lookbackSeconds),
    watermark.cursorTimestamp.micros - seconds lookbackSeconds ≤ row.version.parsedAt.micros

instance (db : Database) (limit lookbackSeconds : Nat) (row : QueryRow) :
    Decidable (WithinLookback db limit lookbackSeconds row) :=
  inferInstanceAs (Decidable (∀ _ ∈ _, _))

/-- The seed was captured where the batch looks for it. -/
def SeedCaptured (db : Database) (limit lookbackSeconds : Nat) (seed : QueryRow) : Prop :=
  capturedWithin (seedDocuments db limit lookbackSeconds) lookbackSeconds
    seed.document.capturedAt = true

instance (db : Database) (limit lookbackSeconds : Nat) (seed : QueryRow) :
    Decidable (SeedCaptured db limit lookbackSeconds seed) :=
  inferInstanceAs (Decidable (_ = true))

/-- A run loads every seed it selects, or the seed is uncorrelated and can still
be selected after it; so can every document it may orphan, one that shares an
active correlation with a document of the batch. -/
structure LosesNone (rt : Runtime) (db : Database) (limit lookbackSeconds : Nat) : Prop where
  seeds : ∀ seed ∈ seedRows db limit lookbackSeconds, SeedCaptured db limit lookbackSeconds seed ∨
    (Uncorrelated db seed.document.id ∧ (seed.value.type.nonSale = true ∨
      WithinLookback db limit lookbackSeconds seed))
  orphans : ∀ c ∈ db.correlations.rows, c.active = true →
    (∃ row ∈ documentQuery db, row.document.id ∈ c.memberIds ∧
      candidateRow rt db limit lookbackSeconds row = true) →
    ∀ row ∈ documentQuery db, row.document.id ∈ c.memberIds →
      row ∈ seedRows db limit lookbackSeconds ∨ WithinLookback db limit lookbackSeconds row

instance (rt : Runtime) (db : Database) (limit lookbackSeconds : Nat) :
    Decidable (LosesNone rt db limit lookbackSeconds) :=
  decidable_of_iff ((∀ seed ∈ seedRows db limit lookbackSeconds,
      SeedCaptured db limit lookbackSeconds seed ∨
      (Uncorrelated db seed.document.id ∧ (seed.value.type.nonSale = true ∨
        WithinLookback db limit lookbackSeconds seed))) ∧
    ∀ c ∈ db.correlations.rows, c.active = true →
      (∃ row ∈ documentQuery db, row.document.id ∈ c.memberIds ∧
        candidateRow rt db limit lookbackSeconds row = true) →
      ∀ row ∈ documentQuery db, row.document.id ∈ c.memberIds →
        row ∈ seedRows db limit lookbackSeconds ∨ WithinLookback db limit lookbackSeconds row)
    ⟨fun h => ⟨h.1, h.2⟩, fun h => ⟨h.1, h.2⟩⟩

/-- The steps that drop no document. -/
def Safe (rt : Runtime) (engine : CorrelationEngine) (db : Database) : Step → Prop
  | .runOnce limit => LosesNone rt db limit engine.timeWindowSeconds
  | .reviewJob _ _ => True
  | .activateParserVersion _ _ rewind => rewind = true
  | .importJob job => Announces db (importJob db job) engine.timeWindowSeconds
  | .storeDocuments jobId documents =>
    Announces db (storeDocuments rt db jobId documents) engine.timeWindowSeconds
  | .recordFailure jobId buildHash =>
    Announces db (recordFailure db jobId buildHash) engine.timeWindowSeconds

instance (rt : Runtime) (engine : CorrelationEngine) (db : Database) :
    (step : Step) → Decidable (Safe rt engine db step)
  | .runOnce limit => inferInstanceAs (Decidable (LosesNone rt db limit _))
  | .reviewJob _ _ => inferInstanceAs (Decidable True)
  | .activateParserVersion _ _ rewind => inferInstanceAs (Decidable (rewind = true))
  | .importJob job => inferInstanceAs (Decidable (Announces db (importJob db job) _))
  | .storeDocuments jobId documents =>
    inferInstanceAs (Decidable (Announces db (storeDocuments rt db jobId documents) _))
  | .recordFailure jobId buildHash =>
    inferInstanceAs (Decidable (Announces db (recordFailure db jobId buildHash) _))

variable {rt : Runtime} {engine : CorrelationEngine} {db db' : Database} {limit w : Nat}

/-! ## Transactions of the parser -/

theorem seedEligible_congr (hk : KeepsAnalysis db db') {row old : QueryRow}
    (hv : old.version = row.version) (hid : old.document.id = row.document.id) :
    seedEligible db' w row = seedEligible db w old := by
  simp only [seedEligible, hk.watermark, stale, activationFingerprint, hk.activeParsers, correlated,
    hk.correlations, hv, hid]

theorem active_congr (hk : KeepsAnalysis db db') {c : DocumentCorrelation} :
    Active db' c ↔ Active db c := by
  unfold Active
  rw [hk.correlations]

/-- Members that kept their versions load as before. -/
theorem currentInput_of_kept {c : DocumentCorrelation} (h : CurrentInput db c)
    (hkept : ∀ row ∈ documentQuery db', row.document.id ∈ c.memberIds → Kept db row)
    (hstay : ∀ row ∈ documentQuery db, row.document.id ∈ c.memberIds →
      ∃ new ∈ documentQuery db', new.document.id = row.document.id) : CurrentInput db' c := by
  refine h.congr fun item => ?_
  rw [mem_loadLatestDocuments, mem_loadLatestDocuments]
  constructor
  · intro hm
    obtain ⟨row, hrow, hid, rfl⟩ := hm
    obtain ⟨old, hold, -, hload⟩ := hkept row hrow hid
    have hoid : old.document.id = row.document.id :=
      congrArg (fun item : LoadedDocument => item.value.id) hload
    exact ⟨old, hold, hoid ▸ hid, hload⟩
  · intro hm
    obtain ⟨row, hrow, hid, rfl⟩ := hm
    obtain ⟨new, hnew, hnid⟩ := hstay row hrow hid
    obtain ⟨old, hold, -, hload⟩ := hkept new hnew (hnid ▸ hid)
    have hoid : old.document.id = new.document.id :=
      congrArg (fun item : LoadedDocument => item.value.id) hload
    cases eq_of_documentId hold hrow (hoid.trans hnid)
    exact ⟨new, hnew, hnid ▸ hid, hload.symm⟩

/-- A member whose version changed can be selected, or is settled there. -/
theorem eligible_of_changed (hs : Sound rt db') (ha : Announces db db' w)
    {c : DocumentCorrelation} (hc : Active db' c) {row : QueryRow} (hrow : row ∈ documentQuery db')
    (hid : row.document.id ∈ c.memberIds) (hn : ¬ Kept db row) :
    seedEligible db' w row = true ∨ CurrentInput db' c := by
  obtain hkept | he | ⟨c', hm, hact, hid', hcur⟩ | ⟨-, hun⟩ := ha.changed row hrow
  · exact absurd hkept hn
  · exact Or.inl he
  · rw [hs.single c c' hc ⟨hm, hact⟩ _ hid hid']
    exact Or.inr hcur
  · exact absurd hid (hun c hc.1 hc.2)

theorem accounts_of_announces (h : Accounts rt w db) (hk : KeepsAnalysis db db')
    (ha : Announces db db' w) : Accounts rt w db' := by
  have hsound := sound_keepsAnalysis h.sound hk
  refine ⟨hsound, fun row hrow hsale => ?_⟩
  obtain ⟨old, hold, hv, hload⟩ | he | ⟨c, hm, hact, hmem, hcur⟩ | ⟨hnon, -⟩ := ha.changed row hrow
  · have hoid : old.document.id = row.document.id :=
      congrArg (fun item : LoadedDocument => item.value.id) hload
    have hvalue : old.value = row.value := congrArg LoadedDocument.value hload
    obtain he | ⟨c, hc, hmem, hcur⟩ := h.accounted old hold (hvalue ▸ hsale)
    · exact Or.inl ((seedEligible_congr hk hv hoid).trans he)
    · have hc' := (active_congr hk).mpr hc
      rw [hoid] at hmem
      refine Or.inr ⟨c, hc', hmem, ?_⟩
      have hstay : ∀ r ∈ documentQuery db, r.document.id ∈ c.memberIds →
          ∃ new ∈ documentQuery db', new.document.id = r.document.id := by
        intro r hr hrid
        obtain hnew | halone := ha.gone r hr
        · exact hnew
        · rw [halone c hc'.1 hc'.2 hrid row hrow hmem] at hsale
          cases hsale
      by_cases hall : ∀ r ∈ documentQuery db', r.document.id ∈ c.memberIds → Kept db r
      · obtain hcur | ⟨other, ho, hom, hoe⟩ := hcur
        · exact Or.inl (currentInput_of_kept hcur hall hstay)
        · obtain ⟨new, hnew, hnid⟩ := hstay other ho hom
          obtain ⟨old', hold', hv', hload'⟩ := hall new hnew (hnid ▸ hom)
          have hid' : old'.document.id = new.document.id :=
            congrArg (fun item : LoadedDocument => item.value.id) hload'
          cases eq_of_documentId hold' ho (hid'.trans hnid)
          exact Or.inr ⟨new, hnew, hnid ▸ hom, (seedEligible_congr hk hv' hid').trans hoe⟩
      · simp only [not_forall] at hall
        obtain ⟨r, hr, hrid, hn⟩ := hall
        obtain he | hcur := eligible_of_changed hsound ha hc' hr hrid hn
        · exact Or.inr ⟨r, hr, hrid, he⟩
        · exact Or.inl hcur
  · exact Or.inl he
  · exact Or.inr ⟨c, ⟨hm, hact⟩, hmem, Or.inl hcur⟩
  · rw [hnon] at hsale
    cases hsale

/-- Without a watermark every document can be selected. -/
theorem accounts_of_rewound (hs : Sound rt db) (hw : db.watermark = none) : Accounts rt w db :=
  ⟨hs, fun row _ _ => Or.inl (by simp [seedEligible, hw])⟩

theorem accounts_reviewJob (h : Accounts rt w db) (jobId : UUID) (action : ReviewAction) :
    Accounts rt w (reviewJob db jobId action) := by
  have hs := sound_reviewJob h.sound jobId action
  unfold reviewJob at hs ⊢
  split at hs
  · exact h
  · dsimp only at hs ⊢
    split_ifs at hs ⊢
    · exact h
    · exact accounts_of_rewound hs rfl
    · exact accounts_of_rewound hs rfl

/-! ## A run -/

theorem correlated_iff (h : Sound rt db) {documentId : UUID} :
    correlated db documentId = true ↔ ∃ c, Active db c ∧ documentId ∈ c.memberIds := by
  simp only [correlated, List.any_eq_true, Bool.and_eq_true, beq_iff_eq, List.contains_iff_mem]
  constructor
  · intro hc
    obtain ⟨c, hm, ⟨-, hact⟩, hid⟩ := hc
    exact ⟨c, ⟨hm, hact⟩, hid⟩
  · intro hc
    obtain ⟨c, ⟨hm, hact⟩, hid⟩ := hc
    exact ⟨c, hm, ⟨h.algorithm c hm, hact⟩, hid⟩

theorem candidateBatch_watermark :
    (candidateBatch rt db limit w).watermark = advanceWatermark db w (seedRows db limit w) := by
  unfold candidateBatch
  cases h : seedRows db limit w with
  | nil => rfl
  | cons row rows => rfl

/-- The cursor goes to the last seed, or stays. -/
theorem advanceWatermark_spec {rows : List QueryRow} {latest : QueryRow}
    (h : rows.getLast? = some latest) :
    ∃ watermark, advanceWatermark db w rows = some watermark ∧ stale db watermark = false ∧
      ((watermark.cursorTimestamp = latest.version.parsedAt ∧
          watermark.cursorId = latest.version.id) ∨ db.watermark = some watermark) := by
  simp only [advanceWatermark, h]
  cases hw : db.watermark with
  | none => exact ⟨_, rfl, by simp [stale], Or.inl ⟨rfl, rfl⟩⟩
  | some watermark =>
    dsimp only
    split
    · exact ⟨_, rfl, by simp [stale], Or.inl ⟨rfl, rfl⟩⟩
    · next hno =>
      rw [Bool.or_eq_true, not_or, Bool.not_eq_true] at hno
      exact ⟨watermark, rfl, hno.1, Or.inr rfl⟩

theorem stale_runOnce (watermark : AnalysisWatermark) :
    stale (runOnce rt engine db limit) watermark = stale db watermark := by
  simp only [stale, activationFingerprint, sameInput_runOnce.activeParsers]

/-- The members of the transactions of a run are settled by it. -/
theorem settled_of_persisted (h : Sound rt db) {t : CorrelatedTransaction}
    (ht : t ∈ (prepare rt engine db limit).persisted rt engine) {documentId : UUID}
    (hid : documentId ∈ t.ids) :
    ∃ c, Active (runOnce rt engine db limit) c ∧ documentId ∈ c.memberIds ∧
      CurrentInput (runOnce rt engine db limit) c := by
  obtain ⟨c, hc, hrep⟩ := (runOnce_spec h).represented t ht
  exact ⟨c, hc, (hrep.members _).mpr hid, currentInput_of_query documentQuery_runOnce
    (currentInput_of_represents (mem_persisted.mp ht).1 hrep)⟩

/-- Outside its transactions a run correlates nothing. -/
theorem correlated_of_runOnce (h : Sound rt db) {documentId : UUID}
    (hc : correlated (runOnce rt engine db limit) documentId = true)
    (hno : ∀ t ∈ (prepare rt engine db limit).persisted rt engine, documentId ∉ t.ids) :
    ∃ c, Active db c ∧ documentId ∈ c.memberIds ∧
      ∀ t ∈ (prepare rt engine db limit).persisted rt engine, c.overlaps t.ids = false := by
  obtain ⟨c, hact, hid⟩ := (correlated_iff (runOnce_spec h).sound).mp hc
  obtain ⟨t, ht, hrep⟩ | ⟨hold, hover⟩ := (runOnce_spec h).origin c hact
  · exact absurd ((hrep.members _).mp hid) (hno t ht)
  · exact ⟨c, (active_prepare.mp hold).1, hid, hover⟩

/-- What was selectable and not selected stays selectable, unless it is
settled. -/
theorem eligible_of_not_selected (h : Sound rt db) {row : QueryRow} (hrow : row ∈ documentQuery db)
    (he : seedEligible db engine.timeWindowSeconds row = true)
    (hn : row ∉ seedRows db limit engine.timeWindowSeconds)
    (hno : ∀ t ∈ (prepare rt engine db limit).persisted rt engine, row.document.id ∉ t.ids) :
    seedEligible (runOnce rt engine db limit) engine.timeWindowSeconds row = true := by
  have hstay : ∀ watermark, db.watermark = some watermark →
      (runOnce rt engine db limit).watermark = some watermark →
      seedEligible (runOnce rt engine db limit) engine.timeWindowSeconds row = true := by
    intro watermark hw hw'
    simp only [seedEligible, hw, hw', stale_runOnce, Bool.or_eq_true, Bool.and_eq_true,
      Bool.not_eq_true'] at he ⊢
    obtain he | ⟨hin, hafter | hun⟩ := he
    · exact Or.inl he
    · exact Or.inr ⟨hin, Or.inl hafter⟩
    · refine Or.inr ⟨hin, Or.inr (Bool.eq_false_iff.mpr fun hc => ?_)⟩
      obtain ⟨c, hact, hid, -⟩ := correlated_of_runOnce h hc hno
      rw [(correlated_iff h).mpr ⟨c, hact, hid⟩] at hun
      cases hun
  have hwm : (runOnce rt engine db limit).watermark = advanceWatermark db
      engine.timeWindowSeconds (seedRows db limit engine.timeWindowSeconds) :=
    watermark_runOnce.trans candidateBatch_watermark
  cases hlast : (seedRows db limit engine.timeWindowSeconds).getLast? with
  | none =>
    simp only [advanceWatermark, hlast] at hwm
    cases hw : db.watermark with
    | none => simp [seedEligible, hwm, hw]
    | some watermark => exact hstay watermark hw (hwm.trans hw)
  | some latest =>
    obtain ⟨watermark, hadv, hfresh, ⟨ht, hi⟩ | hw⟩ := advanceWatermark_spec hlast
    · have hb := parsedBefore_of_not_mem hrow he hn (List.mem_of_getLast? hlast)
      have hpos : 0 ≤ seconds engine.timeWindowSeconds := by
        unfold seconds
        omega
      have hafter : afterCursor watermark row.version = true := by
        simp only [afterCursor, ht, hi, Bool.or_eq_true, Bool.and_eq_true, decide_eq_true_eq,
          beq_iff_eq]
        obtain hlt | ⟨heq, hid⟩ := hb
        · exact Or.inl hlt
        · exact Or.inr ⟨heq.symm, hid⟩
      have hin : watermark.cursorTimestamp.micros - seconds engine.timeWindowSeconds ≤
          row.version.parsedAt.micros := by
        rw [ht]
        omega
      have hwm' := hwm.trans hadv
      simp only [seedEligible, hwm', hafter, Bool.true_or, Bool.and_true, Bool.or_eq_true]
      exact Or.inr (decide_eq_true hin)
    · exact hstay watermark hw (hwm.trans hadv)

/-- An orphan within the lookback can be selected. -/
theorem eligible_of_orphan {row : QueryRow}
    (hin : WithinLookback db limit engine.timeWindowSeconds row)
    (hun : correlated (runOnce rt engine db limit) row.document.id = false) :
    seedEligible (runOnce rt engine db limit) engine.timeWindowSeconds row = true := by
  have hwm : (runOnce rt engine db limit).watermark = advanceWatermark db
      engine.timeWindowSeconds (seedRows db limit engine.timeWindowSeconds) :=
    watermark_runOnce.trans candidateBatch_watermark
  simp only [seedEligible, hwm]
  cases hadv : advanceWatermark db engine.timeWindowSeconds
      (seedRows db limit engine.timeWindowSeconds) with
  | none => rfl
  | some watermark =>
    simp only [hun, Bool.not_false, Bool.or_true, Bool.and_true, Bool.or_eq_true]
    exact Or.inr (decide_eq_true (hin watermark hadv))

/-- A document of the batch is given to the engine, or is non-sale. -/
theorem mem_prepare_of_candidateRow {row : QueryRow} (hrow : row ∈ documentQuery db)
    (hne : seedRows db limit engine.timeWindowSeconds ≠ [])
    (hc : candidateRow rt db limit engine.timeWindowSeconds row = true) :
    row.load ∈ (prepare rt engine db limit).loaded :=
  mem_prepare_of_batch ((mem_candidateBatch hne).mpr ⟨row, hrow, hc, rfl⟩)

theorem candidateRow_of_seed {seed : QueryRow} (hs : seed ∈ seedRows db limit w)
    (hc : SeedCaptured db limit w seed) : candidateRow rt db limit w seed = true := by
  simp only [candidateRow, Bool.and_eq_true, Bool.or_eq_true, List.contains_iff_mem]
  exact ⟨hc, Or.inl (mem_seedIds.mpr ⟨seed, hs, rfl⟩)⟩

/-- A selected member of an active correlation is loaded. -/
theorem captured_of_member (hl : LosesNone rt db limit w) {seed : QueryRow}
    (hs : seed ∈ seedRows db limit w) {c : DocumentCorrelation} (hc : Active db c)
    (hid : seed.document.id ∈ c.memberIds) : SeedCaptured db limit w seed := by
  obtain hcap | ⟨hun, -⟩ := hl.seeds seed hs
  · exact hcap
  · exact absurd hid (hun c hc.1 hc.2)

/-- A loaded sale seed is in a transaction of the run. -/
theorem persisted_of_selected {row : QueryRow}
    (hs : row ∈ seedRows db limit engine.timeWindowSeconds)
    (hcap : SeedCaptured db limit engine.timeWindowSeconds row)
    (hsale : row.value.type.nonSale = false) :
    ∃ t ∈ (prepare rt engine db limit).persisted rt engine, row.document.id ∈ t.ids := by
  have hloaded : row.load ∈ (prepare rt engine db limit).loaded :=
    mem_prepare_of_candidateRow (mem_seedRows hs).1 (List.ne_nil_of_mem hs)
      (candidateRow_of_seed hs hcap)
  have hvalue : row.value ∈ (prepare rt engine db limit).values :=
    mem_values.mpr ⟨row.load, hloaded, hsale, rfl⟩
  obtain ⟨t, ht, hd⟩ := persisted_of_seed hvalue (by
    rw [prepare_seedIds]
    exact List.mem_append_left _ (mem_seedIds.mpr ⟨row, hs, rfl⟩))
  exact ⟨t, ht, List.mem_map_of_mem hd⟩

/-- So is a sale member of a retired correlation. -/
theorem persisted_of_retired {row : QueryRow} (hrow : row ∈ documentQuery db)
    (hsale : row.value.type.nonSale = false)
    (hr : row.document.id ∈ retiredIds rt engine db limit) :
    ∃ t ∈ (prepare rt engine db limit).persisted rt engine, row.document.id ∈ t.ids := by
  have hvalue : row.value ∈ (prepare rt engine db limit).values :=
    mem_values.mpr ⟨row.load, mem_prepare_of_retired hrow hr, hsale, rfl⟩
  obtain ⟨t, ht, hd⟩ := persisted_of_seed hvalue (by
    rw [prepare_seedIds]
    exact List.mem_append_right _ hr)
  exact ⟨t, ht, List.mem_map_of_mem hd⟩

/-- A document of a transaction that is a member of a correlation the run did
not retire came with the batch. -/
theorem candidateRow_of_overlap (h : Sound rt db) {c : DocumentCorrelation} (hc : Active db c)
    (hnot : c.overlaps (nonSaleIds rt engine db limit) = false) {t : CorrelatedTransaction}
    (ht : t ∈ (prepare rt engine db limit).persisted rt engine) (hover : c.overlaps t.ids = true) :
    seedRows db limit engine.timeWindowSeconds ≠ [] ∧ ∃ row ∈ documentQuery db,
      row.document.id ∈ c.memberIds ∧
        candidateRow rt db limit engine.timeWindowSeconds row = true := by
  obtain ⟨id, hid, hin⟩ := DocumentCorrelation.overlaps_iff.mp hover
  obtain ⟨d, hd, rfl⟩ := List.mem_map.mp hin
  obtain ⟨item, hi, -, hv⟩ := mem_values.mp (documents_of_transaction (mem_persisted.mp ht).1 hd)
  have hbatch : item ∈ (candidateBatch rt db limit engine.timeWindowSeconds).loaded := by
    rw [prepare_loaded] at hi
    split at hi
    · exact hi
    · obtain hi | hi := List.mem_append.mp (ListOrder.mem_sorted.mp hi)
      · exact hi
      · -- loaded for a retired correlation, which would be this one
        obtain ⟨row, -, hmiss, rfl⟩ := mem_loadLatestDocuments.mp hi
        obtain ⟨c', hc', hover', hmem'⟩ := mem_retiredIds.mp (List.mem_filter.mp hmiss).1
        have hsame := h.single c c' hc hc' _ hid (by rw [← hv]; exact hmem')
        rw [hsame, hover'] at hnot
        cases hnot
  have hne : seedRows db limit engine.timeWindowSeconds ≠ [] := by
    intro hnil
    rw [candidateBatch_empty hnil] at hbatch
    exact List.not_mem_nil hbatch
  obtain ⟨row, hrow, hcand, rfl⟩ := (mem_candidateBatch hne).mp hbatch
  exact ⟨hne, row, hrow, by rw [← hv] at hid; exact hid, hcand⟩

/-- A selected member of a correlation leads to its renewal. -/
theorem not_selected_of_untouched (hl : LosesNone rt db limit engine.timeWindowSeconds)
    {c : DocumentCorrelation} (hc : Active db c)
    (hnot : c.overlaps (nonSaleIds rt engine db limit) = false)
    (hno : ∀ t ∈ (prepare rt engine db limit).persisted rt engine, c.overlaps t.ids = false)
    {row : QueryRow} (hid : row.document.id ∈ c.memberIds) :
    row ∉ seedRows db limit engine.timeWindowSeconds := by
  intro hs
  have hcap := captured_of_member hl hs hc hid
  cases htype : row.value.type.nonSale with
  | false =>
    obtain ⟨t, ht, hin⟩ := persisted_of_selected hs hcap htype
    have hover := DocumentCorrelation.overlaps_iff.mpr ⟨_, hid, hin⟩
    rw [hno t ht] at hover
    cases hover
  | true =>
    have hbatch : row.load ∈ (candidateBatch rt db limit engine.timeWindowSeconds).loaded :=
      (mem_candidateBatch (List.ne_nil_of_mem hs)).mpr
        ⟨row, (mem_seedRows hs).1, candidateRow_of_seed hs hcap, rfl⟩
    have hin : row.document.id ∈ nonSaleIds rt engine db limit :=
      List.mem_map.mpr ⟨row.load, List.mem_filter.mpr ⟨hbatch, htype⟩, rfl⟩
    have hover := DocumentCorrelation.overlaps_iff.mpr ⟨_, hid, hin⟩
    rw [hnot] at hover
    cases hover

/-- **A run that loses no seed and no orphan accounts for every document.** -/
theorem accounts_runOnce (h : Accounts rt engine.timeWindowSeconds db)
    (hl : LosesNone rt db limit engine.timeWindowSeconds) :
    Accounts rt engine.timeWindowSeconds (runOnce rt engine db limit) := by
  refine ⟨(runOnce_spec h.sound).sound, fun row hrow hsale => ?_⟩
  rw [documentQuery_runOnce] at hrow
  by_cases hin : ∃ t ∈ (prepare rt engine db limit).persisted rt engine, row.document.id ∈ t.ids
  · obtain ⟨t, ht, hid⟩ := hin
    obtain ⟨c, hc, hmem, hcur⟩ := settled_of_persisted h.sound ht hid
    exact Or.inr ⟨c, hc, hmem, Or.inl hcur⟩
  have hno : ∀ t ∈ (prepare rt engine db limit).persisted rt engine, row.document.id ∉ t.ids :=
    fun t ht hid => hin ⟨t, ht, hid⟩
  obtain he | ⟨c, hc, hmem, hcur⟩ := h.accounted row hrow hsale
  · by_cases hs : row ∈ seedRows db limit engine.timeWindowSeconds
    · obtain hcap | ⟨hun, hnon | hwithin⟩ := hl.seeds row hs
      · exact absurd (persisted_of_selected hs hcap hsale) hin
      · rw [hnon] at hsale
        cases hsale
      · refine Or.inl (eligible_of_orphan hwithin (Bool.eq_false_iff.mpr fun hcorr => ?_))
        obtain ⟨c, hc, hmem, -⟩ := correlated_of_runOnce h.sound hcorr hno
        exact hun c hc.1 hc.2 hmem
    · exact Or.inl (eligible_of_not_selected h.sound hrow he hs hno)
  cases hret : c.overlaps (nonSaleIds rt engine db limit) with
  | true =>
    exact absurd (persisted_of_retired hrow hsale (mem_retiredIds.mpr ⟨c, hc, hret, hmem⟩)) hin
  | false =>
    by_cases hover : ∃ t ∈ (prepare rt engine db limit).persisted rt engine,
        c.overlaps t.ids = true
    · -- the run took a member away: the document is an orphan
      obtain ⟨t, ht, hover⟩ := hover
      obtain ⟨-, hbatch⟩ := candidateRow_of_overlap h.sound hc hret ht hover
      have hun : correlated (runOnce rt engine db limit) row.document.id = false := by
        refine Bool.eq_false_iff.mpr fun hcorr => ?_
        obtain ⟨c', hc', hmem', hfree⟩ := correlated_of_runOnce h.sound hcorr hno
        rw [h.sound.single c c' hc hc' _ hmem hmem', hfree t ht] at hover
        cases hover
      obtain hs | hwithin := hl.orphans c hc.1 hc.2 hbatch row hrow hmem
      · exact absurd (persisted_of_selected hs (captured_of_member hl hs hc hmem) hsale) hin
      · exact Or.inl (eligible_of_orphan hwithin hun)
    · have hfree : ∀ t ∈ (prepare rt engine db limit).persisted rt engine,
          c.overlaps t.ids = false :=
        fun t ht => Bool.eq_false_iff.mpr fun hover' => hover ⟨t, ht, hover'⟩
      have hc' : Active (runOnce rt engine db limit) c :=
        (runOnce_spec h.sound).kept c (active_prepare.mpr ⟨hc, hret⟩) hfree
      refine Or.inr ⟨c, hc', hmem, ?_⟩
      obtain hcur | ⟨other, ho, hom, hoe⟩ := hcur
      · exact Or.inl (currentInput_of_query documentQuery_runOnce hcur)
      · have ho' : other ∈ documentQuery (runOnce rt engine db limit) := by
          rw [documentQuery_runOnce]
          exact ho
        refine Or.inr ⟨other, ho', hom, ?_⟩
        refine eligible_of_not_selected h.sound ho hoe
          (not_selected_of_untouched hl hc hret hfree hom) fun t ht hid => ?_
        have hover' := DocumentCorrelation.overlaps_iff.mpr ⟨_, hom, hid⟩
        rw [hfree t ht] at hover'
        cases hover'

/-! ## Any run of the system -/

theorem accounts_apply {step : Step} (hsafe : Safe rt engine db step)
    (h : Accounts rt engine.timeWindowSeconds db) :
    Accounts rt engine.timeWindowSeconds (apply rt engine db step) := by
  cases step with
  | importJob job => exact accounts_of_announces h ⟨rfl, rfl, rfl, le_rfl⟩ hsafe
  | storeDocuments jobId documents =>
    exact accounts_of_announces h (keepsAnalysis_storeDocuments jobId documents) hsafe
  | recordFailure jobId buildHash =>
    exact accounts_of_announces h (keepsAnalysis_recordFailure jobId buildHash) hsafe
  | activateParserVersion name versionId rewind =>
    obtain rfl : rewind = true := hsafe
    exact accounts_of_rewound (h.sound.frame rfl le_rfl) rfl
  | reviewJob jobId action => exact accounts_reviewJob h jobId action
  | runOnce limit =>
    rw [System.apply]
    exact accounts_runOnce h hsafe

/-- **No document is dropped**: after safe steps, a run that selects no seed
finds every analysable sale document in an active correlation of current
versions. -/
theorem no_document_is_dropped (rt : Runtime) (engine : CorrelationEngine) {steps : List Step}
    (h : AllSteps (apply rt engine) (Safe rt engine) {} steps) {limit : Nat} (hl : 0 < limit) :
    NothingDropped (run rt engine steps) limit engine.timeWindowSeconds := by
  have hstart : Accounts rt engine.timeWindowSeconds {} :=
    accounts_of_rewound (sound_empty rt) rfl
  have hrun : Accounts rt engine.timeWindowSeconds (run rt engine steps) :=
    invariant_of_allSteps (Accounts rt engine.timeWindowSeconds)
      (fun _ _ hsafe ha => accounts_apply hsafe ha) hstart h
  intro hnone row hrow hsale
  obtain he | ⟨c, hc, hmem, hcur | ⟨other, ho, -, hoe⟩⟩ := hrun.accounted row hrow hsale
  · rw [not_eligible_of_seedRows_eq_nil hl hnone hrow] at he
    cases he
  · exact ⟨c, hc.1, hc.2, hmem, hcur⟩
  · rw [not_eligible_of_seedRows_eq_nil hl hnone ho] at hoe
    cases hoe

/-- A prebill and its close at one table, and their run. -/
def quietEvening : List Step :=
  arrival
    { id := 1
      sourceDeviceId := "rch"
      sourceJobId := "j1"
      type := .preBill
      tableCode := some "T1"
      capturedAt := { micros := seconds 100 }
      grossTotal := some 250000 } ++
  arrival
    { id := 2
      sourceDeviceId := "rch"
      sourceJobId := "j2"
      type := .commercialDocument
      tableCode := some "T1"
      capturedAt := { micros := seconds 160 }
      grossTotal := some 250000 } ++
  [.runOnce 10]

theorem quietEvening_drops_nothing :
    seedRows (run asciiRuntime {} quietEvening) 10 7200 = [] ∧
      NothingDropped (run asciiRuntime {} quietEvening) 10 7200 :=
  ⟨by decide +kernel, no_document_is_dropped asciiRuntime {} (by decide +kernel) (by decide)⟩

/-- A clock on which twenty thousand seconds pass with every row. -/
def slowRuntime : Runtime :=
  { asciiRuntime with utcNow := fun n => { micros := seconds (20000 * n) } }

/-- A printer whose clock is ten hours ahead, and the next document the day
after. -/
def lateClock : List Step :=
  arrival
    { id := 1
      sourceDeviceId := "bar"
      sourceJobId := "j1"
      type := .managementDocument
      tableCode := some "T1"
      documentTimestamp := some { micros := seconds 76000 }
      capturedAt := { micros := seconds 40000 } } ++
  [.runOnce 10] ++
  arrival
    { id := 2
      sourceDeviceId := "rch"
      sourceJobId := "j2"
      type := .commercialDocument
      tableCode := some "T2"
      capturedAt := { micros := seconds 80000 } } ++
  [.runOnce 10]

/-- The first document is a seed of both runs, is loaded by neither, and is out
of the lookback afterwards. -/
theorem lateClock_drops_a_document :
    ¬ NothingDropped (run slowRuntime {} lateClock) 10 7200 := by
  decide +kernel

end RetailPrintGuard.Correlation.Coverage
