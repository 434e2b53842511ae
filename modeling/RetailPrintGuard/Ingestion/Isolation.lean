import RetailPrintGuard.Db.IngestStore
import RetailPrintGuard.Importer.Historical

/-! # Isolation of failures

The worker over the evidence tables. The database may be away at any call. -/
namespace RetailPrintGuard.Ingestion.Isolation
open RetailPrintGuard.Library.Checks RetailPrintGuard.Ingestion.Dto
open RetailPrintGuard.Ingestion.Worker RetailPrintGuard.Db.Semantic RetailPrintGuard.Db.IngestStore

section
variable (readers : Readers) (available : Nat → Bool)

/-- The repository of the worker: the tables, and the calls so far. -/
def repository : Repository (Database × Nat) where
  storeImport envelope s :=
    if available s.2 then
      let (outcome, db) := storeImport readers s.1 envelope
      (outcome, (db, s.2 + 1))
    else (.unavailable, (s.1, s.2 + 1))
  quarantine _ s := (available s.2, (s.1, s.2 + 1))

variable (retryAttempts : Nat)

/-- Every candidate of a poll has its turn, and one that is valid at its turn is
imported then. -/
def Isolates (s : Database × Nat) (candidates : List Candidate) : Prop :=
  ∃ outcomes s', scan (repository readers available) retryAttempts s candidates = .ok (outcomes, s') ∧
    outcomes.map Prod.fst = candidates ∧
    ∀ before candidate outcome after, outcomes = before ++ (candidate, outcome) :: after →
      ∃ t, scan (repository readers available) retryAttempts s (before.map Prod.fst) =
          .ok (before, t) ∧
        ∀ envelope, candidate.load = .ok envelope → Storable readers t.1 envelope →
          available t.2 = true → outcome = .imported

/-- Loading a candidate raises only what the worker handles, and if its envelope
is refused then the database is away at every attempt. -/
def Guarded (s : Database × Nat) (candidate : Candidate) : Prop :=
  (∀ name, candidate.load ≠ .error (.other name)) ∧
    ∀ envelope, candidate.load = .ok envelope → Refused readers s.1 envelope →
      ∀ i < retryAttempts, available (s.2 + i) = false

end

section
variable {readers : Readers} {available : Nat → Bool} {db : Database}
  {envelope : NormalizedEnvelope}

theorem storeWithRetry_away {attempts calls : Nat} (h : available calls = false) :
    storeWithRetry (repository readers available) envelope (attempts + 1) (db, calls) =
      storeWithRetry (repository readers available) envelope attempts (db, calls + 1) := by
  rw [storeWithRetry]
  simp [repository, h]

/-- An attempt at a database that is there. -/
theorem storeWithRetry_there {attempts calls : Nat} (h : available calls = true) :
    storeWithRetry (repository readers available) envelope (attempts + 1) (db, calls) =
      match storeImport readers db envelope with
      | (.stored .imported, db) => .ok (.imported, (db, calls + 1))
      | (.stored .duplicate, db) => .ok (.duplicate, (db, calls + 1))
      | (.unavailable, db) =>
        storeWithRetry (repository readers available) envelope attempts (db, calls + 1)
      | (.raised name, _) => .error name := by
  rw [storeWithRetry]
  simp only [repository, h, if_true]
  rcases storeImport readers db envelope with ⟨outcome, db'⟩
  cases outcome with
  | stored disposition => cases disposition <;> rfl
  | unavailable => rfl
  | raised name => rfl

theorem storeImport_unavailable (h : (storeImport readers db envelope).1 = .unavailable) :
    (storeImport readers db envelope).2 = db := by
  refine storeImport_unchanged fun hstorable => ?_
  rw [storeImport_imported.mpr hstorable] at h
  cases h

theorem returns_storeWithRetry {attempts calls : Nat} :
    Returns (storeWithRetry (repository readers available) envelope attempts (db, calls)) ↔
      (Refused readers db envelope → ∀ i < attempts, available (calls + i) = false) := by
  induction attempts generalizing calls with
  | zero => exact iff_of_true (returns_ok _) fun _ i hi => absurd hi (Nat.not_lt_zero i)
  | succ attempts ih =>
    cases hcall : available calls with
    | false =>
      rw [storeWithRetry_away hcall, ih]
      refine imp_congr_right fun _ => ⟨fun h i hi => ?_, fun h i hi => ?_⟩
      · cases i with
        | zero => exact hcall
        | succ i =>
          have hlater := h i (by omega)
          rwa [Nat.add_right_comm] at hlater
      · rw [Nat.add_right_comm]
        exact h (i + 1) (by omega)
    | true =>
      rw [storeWithRetry_there hcall]
      have hraised := @storeImport_raised readers db envelope
      have hunavailable := @storeImport_unavailable readers db envelope
      rcases hstore : storeImport readers db envelope with ⟨outcome, db'⟩
      rw [hstore] at hraised hunavailable
      have hquiet : (∀ name, outcome ≠ .raised name) → ¬Refused readers db envelope :=
        fun h hrefused => by
          obtain ⟨name, hname⟩ := hraised.mpr hrefused
          exact h name hname
      cases outcome with
      | stored disposition =>
        have h := hquiet (by simp)
        cases disposition <;> exact iff_of_true (returns_ok _) fun hrefused => absurd hrefused h
      | unavailable =>
        obtain rfl : db' = db := hunavailable rfl
        have h := hquiet (by simp)
        exact iff_of_true (ih.mpr fun hrefused => absurd hrefused h) fun hrefused => absurd hrefused h
      | raised name =>
        refine iff_of_false (not_returns_error _) fun h => ?_
        have haway := h (hraised.mp ⟨name, rfl⟩) 0 (Nat.succ_pos _)
        rw [Nat.add_zero, hcall] at haway
        cases haway

theorem unraised_iff {retryAttempts : Nat} {s : Database × Nat} {candidate : Candidate} :
    Unraised (repository readers available) retryAttempts s candidate ↔
      Guarded readers available retryAttempts s candidate := by
  obtain ⟨db, calls⟩ := s
  unfold Unraised Guarded
  simp only [returns_storeWithRetry]

/-- A valid envelope is imported by the first attempt. -/
theorem attempt_imported {retryAttempts : Nat} (hattempts : 1 ≤ retryAttempts) {s : Database × Nat}
    {candidate : Candidate} (hload : candidate.load = .ok envelope)
    (hvalid : Storable readers s.1 envelope) (hthere : available s.2 = true) :
    ∃ s', attempt (repository readers available) retryAttempts s candidate = .ok (.imported, s') := by
  obtain ⟨attempts, rfl⟩ := Nat.exists_eq_add_of_le' hattempts
  unfold attempt
  rw [hload]
  dsimp only
  rw [storeWithRetry_there hthere, storeImport_rows hvalid]
  exact ⟨_, rfl⟩

theorem attempt_raised {retryAttempts : Nat} (hattempts : 1 ≤ retryAttempts) {s : Database × Nat}
    {candidate : Candidate} {name : String} (hload : candidate.load = .ok envelope)
    (hraised : (storeImport readers s.1 envelope).1 = .raised name) (hthere : available s.2 = true) :
    attempt (repository readers available) retryAttempts s candidate = .error name := by
  obtain ⟨attempts, rfl⟩ := Nat.exists_eq_add_of_le' hattempts
  unfold attempt
  rw [hload]
  dsimp only
  rw [storeWithRetry_there hthere]
  rcases hstore : storeImport readers s.1 envelope with ⟨outcome, db'⟩
  rw [hstore] at hraised
  cases hraised
  rfl

/-- The turns of a pass that returns. -/
theorem scan_split {retryAttempts : Nat} {s s' : Database × Nat} {candidates : List Candidate}
    {outcomes before after : List (Candidate × Outcome)} {candidate : Candidate} {outcome : Outcome}
    (h : scan (repository readers available) retryAttempts s candidates = .ok (outcomes, s'))
    (hsplit : outcomes = before ++ (candidate, outcome) :: after) :
    ∃ t t', scan (repository readers available) retryAttempts s (before.map Prod.fst) =
        .ok (before, t) ∧
      attempt (repository readers available) retryAttempts t candidate = .ok (outcome, t') := by
  induction before generalizing s candidates outcomes with
  | nil =>
    cases candidates with
    | nil =>
      cases h
      cases hsplit
    | cons first rest =>
      obtain ⟨⟨firstOutcome, t'⟩, hfirst, h⟩ := bind_eq_ok.mp h
      obtain ⟨⟨later, last⟩, -, h⟩ := bind_eq_ok.mp h
      cases pure_eq_ok.mp h
      cases hsplit
      exact ⟨s, t', rfl, hfirst⟩
  | cons entry before ih =>
    cases candidates with
    | nil =>
      cases h
      cases hsplit
    | cons first rest =>
      obtain ⟨⟨firstOutcome, next⟩, hfirst, h⟩ := bind_eq_ok.mp h
      obtain ⟨⟨later, last⟩, hlater, h⟩ := bind_eq_ok.mp h
      cases pure_eq_ok.mp h
      cases hsplit
      obtain ⟨t, t', hbefore, hattempt⟩ := ih hlater rfl
      refine ⟨t, t', ?_, hattempt⟩
      rw [List.map_cons, scan, hfirst, ok_bind]
      dsimp only
      rw [hbefore]
      rfl

/-- Failures are isolated exactly as long as every candidate is guarded at its turn. -/
theorem isolates_iff {retryAttempts : Nat} (hattempts : 1 ≤ retryAttempts) {s : Database × Nat}
    {candidates : List Candidate} : Isolates readers available retryAttempts s candidates ↔
      EveryTurn (repository readers available) retryAttempts
        (Guarded readers available retryAttempts) s candidates := by
  have hturns : Returns (scan (repository readers available) retryAttempts s candidates) ↔
      EveryTurn (repository readers available) retryAttempts
        (Guarded readers available retryAttempts) s candidates := by
    rw [returns_scan]
    have hguarded : Unraised (repository readers available) retryAttempts =
        Guarded readers available retryAttempts :=
      funext fun _ => funext fun _ => propext unraised_iff
    rw [hguarded]
  rw [← hturns]
  constructor
  · rintro ⟨outcomes, s', hscan, -⟩
    exact ⟨_, hscan⟩
  · rintro ⟨⟨outcomes, s'⟩, hscan⟩
    refine ⟨outcomes, s', hscan, scan_candidates hscan, ?_⟩
    intro before candidate outcome after hsplit
    obtain ⟨t, t', hbefore, hattempt⟩ := scan_split hscan hsplit
    refine ⟨t, hbefore, fun envelope hload hvalid hthere => ?_⟩
    obtain ⟨s'', himported⟩ := attempt_imported hattempts hload hvalid hthere
    cases hattempt.symm.trans himported
    rfl

end

/-! ## A candidate of a device nobody configured -/

section
open RetailPrintGuard.Importer.Historical (receipt)

/-- A receipt of a device, under a job id. -/
def receiptOf (deviceId jobId : String) : NormalizedEnvelope :=
  { receipt with
    sourceKey := "printproxy-v3:cucina:" ++ jobId
    deviceId
    sourceJobId := jobId }

def loaded (deviceId jobId : String) : Candidate where
  candidateKey := "printproxy-v3:cucina:" ++ jobId
  sourcePath := "cucina"
  load := .ok (receiptOf deviceId jobId)

def configured : Database := { devices := ["pos_1"] }

theorem receiptOf_storable : Storable plainReaders configured (receiptOf "pos_1" "4b0e8f3c") := by
  rw [← storeImport_imported]
  decide +kernel

theorem receiptOf_refused : storeImport plainReaders configured (receiptOf "pos_9" "9c1d7a52") =
    (.raised "ValueError", configured) := by
  decide +kernel

/-- The receipt of an unknown device ends the pass before the valid one. -/
theorem unknown_device_ends_pass : ¬Isolates plainReaders (fun _ => true) 5 (configured, 0)
    [loaded "pos_9" "9c1d7a52", loaded "pos_1" "4b0e8f3c"] := by
  rintro ⟨outcomes, s', hscan, -⟩
  obtain ⟨turn, hattempt, -⟩ := bind_eq_ok.mp hscan
  rw [@attempt_raised _ _ _ 5 (by decide) (configured, 0) (loaded "pos_9" "9c1d7a52") "ValueError"
    rfl (by rw [receiptOf_refused]) rfl] at hattempt
  cases hattempt

theorem known_device_isolates : Isolates plainReaders (fun _ => true) 5 (configured, 0)
    [loaded "pos_1" "4b0e8f3c"] := by
  refine (isolates_iff (by decide)).mpr ⟨⟨fun name h => (by cases h), ?_⟩, fun _ _ _ => trivial⟩
  intro envelope hload hrefused
  cases hload
  exact absurd hrefused receiptOf_storable.not_refused

end

end RetailPrintGuard.Ingestion.Isolation
