import RetailPrintGuard.Library.Checks
import RetailPrintGuard.Library.Rotation
import RetailPrintGuard.Ingestion.Dto

/-! # Ingestion worker

One pass asks each adapter for candidates and hands what it loads of each to the
repository. -/
namespace RetailPrintGuard.Ingestion.Worker
open RetailPrintGuard.Library.Checks RetailPrintGuard.Library.Rotation
open RetailPrintGuard.Ingestion.Dto

inductive ImportDisposition where
  | imported | duplicate
deriving DecidableEq

/-- `store_import` returns, or raises `RepositoryUnavailable` or another exception. -/
inductive StoreOutcome where
  | stored (disposition : ImportDisposition)
  | unavailable
  | raised (name : String)
deriving DecidableEq

/-- `IngestionRepository`. Each call may find the database unavailable. -/
structure Repository (σ : Type) where
  storeImport : NormalizedEnvelope → σ → StoreOutcome × σ
  /-- whether the record of a refused candidate was written -/
  quarantine : String → σ → Bool × σ

/-- A candidate of a source that does not change: its key, its path and what
`load` gives of it. -/
structure Candidate where
  candidateKey : String
  sourcePath : String
  load : Except LoadError NormalizedEnvelope

/-- An adapter: what its discovery finds, and where the next poll starts. -/
structure Adapter where
  candidates : List Candidate
  discoveryCursor : Nat
  nodup : candidates.Nodup

/-- What became of a candidate. -/
inductive Outcome where
  | imported | duplicate | quarantined | retryExhausted | sourceBusy
deriving DecidableEq

section
variable {σ : Type} (repository : Repository σ) (retryAttempts : Nat)

/-- `_quarantine`, by the attempts that are left. -/
def quarantine (candidateKey : String) : Nat → σ → Outcome × σ
  | 0, s => (.retryExhausted, s)
  | attempts + 1, s =>
    match repository.quarantine candidateKey s with
    | (true, s) => (.quarantined, s)
    | (false, s) => quarantine candidateKey attempts s

/-- `_store_with_retry`, by the attempts that are left. -/
def storeWithRetry (envelope : NormalizedEnvelope) : Nat → σ → Except String (Outcome × σ)
  | 0, s => .ok (.retryExhausted, s)
  | attempts + 1, s =>
    match repository.storeImport envelope s with
    | (.stored .imported, s) => .ok (.imported, s)
    | (.stored .duplicate, s) => .ok (.duplicate, s)
    | (.unavailable, s) => storeWithRetry envelope attempts s
    | (.raised name, _) => .error name

/-- The turn of a candidate in `_scan_adapter`. -/
def attempt (s : σ) (candidate : Candidate) : Except String (Outcome × σ) :=
  match candidate.load with
  | .error (.sourceBusy _) => .ok (.sourceBusy, s)
  | .error (.sourceValidation _) =>
    .ok (quarantine repository candidate.candidateKey retryAttempts s)
  | .error (.other name) => .error name
  | .ok envelope => storeWithRetry repository envelope retryAttempts s

/-- The candidates of a poll, each with what became of it. -/
def scan : σ → List Candidate → Except String (List (Candidate × Outcome) × σ)
  | s, [] => .ok ([], s)
  | s, candidate :: rest => do
    let (outcome, s) ← attempt repository retryAttempts s candidate
    let (outcomes, s) ← scan s rest
    return ((candidate, outcome) :: outcomes, s)

/-- `discover` of an adapter whose source does not change. -/
def Adapter.discover (adapter : Adapter) (maximum : Nat) : List Candidate × Adapter :=
  let (selected, discoveryCursor) := rotating adapter.candidates maximum adapter.discoveryCursor
  (selected, { adapter with discoveryCursor })

/-- `run_once`: what became of the candidates of each adapter. -/
def runOnce (maximum : Nat) :
    List Adapter → σ → Except String (List (List (Candidate × Outcome)) × List Adapter × σ)
  | [], s => .ok ([], [], s)
  | adapter :: adapters, s => do
    let (selected, adapter) := adapter.discover maximum
    let (report, s) ← scan repository retryAttempts s selected
    let (reports, adapters, s) ← runOnce maximum adapters s
    return (report :: reports, adapter :: adapters, s)

/-! ## What a pass raises -/

/-- What is loaded of a candidate and stored raises nothing but what the worker
handles. -/
def Unraised (s : σ) (candidate : Candidate) : Prop :=
  (∀ name, candidate.load ≠ .error (.other name)) ∧
    ∀ envelope, candidate.load = .ok envelope →
      Returns (storeWithRetry repository envelope retryAttempts s)

/-- A condition on each candidate and the state at its turn. -/
def EveryTurn (ok : σ → Candidate → Prop) : σ → List Candidate → Prop
  | _, [] => True
  | s, candidate :: rest =>
    ok s candidate ∧ ∀ outcome s', attempt repository retryAttempts s candidate = .ok (outcome, s') →
      EveryTurn ok s' rest

variable {repository retryAttempts}

theorem returns_attempt {s : σ} {candidate : Candidate} :
    Returns (attempt repository retryAttempts s candidate) ↔
      Unraised repository retryAttempts s candidate := by
  unfold attempt Unraised
  cases candidate.load with
  | ok envelope =>
    simp only [reduceCtorEq, ne_eq, not_false_iff, implies_true, true_and, Except.ok.injEq,
      forall_eq']
  | error error =>
    cases error with
    | sourceBusy message =>
      exact iff_of_true (returns_ok _) ⟨fun _ h => (by cases h), fun _ h => (by cases h)⟩
    | sourceValidation message =>
      exact iff_of_true (returns_ok _) ⟨fun _ h => (by cases h), fun _ h => (by cases h)⟩
    | other name => exact iff_of_false (not_returns_error _) fun h => h.1 name rfl

theorem returns_scan {s : σ} {candidates : List Candidate} :
    Returns (scan repository retryAttempts s candidates) ↔
      EveryTurn repository retryAttempts (Unraised repository retryAttempts) s candidates := by
  induction candidates generalizing s with
  | nil => exact iff_of_true (returns_ok _) trivial
  | cons candidate rest ih =>
    rw [scan, EveryTurn, returns_bind, ← returns_attempt]
    constructor
    · rintro ⟨⟨outcome, s'⟩, hattempt, hrest⟩
      refine ⟨⟨_, hattempt⟩, fun outcome' t ht => ?_⟩
      cases hattempt.symm.trans ht
      obtain ⟨result, hscan, -⟩ := returns_bind.mp hrest
      exact ih.mp ⟨result, hscan⟩
    · rintro ⟨⟨⟨outcome, s'⟩, hattempt⟩, hrest⟩
      obtain ⟨result, hscan⟩ := ih.mpr (hrest outcome s' hattempt)
      exact ⟨_, hattempt, returns_bind.mpr ⟨result, hscan, returns_pure _⟩⟩

theorem scan_candidates {s s' : σ} {candidates : List Candidate}
    {outcomes : List (Candidate × Outcome)}
    (h : scan repository retryAttempts s candidates = .ok (outcomes, s')) :
    outcomes.map Prod.fst = candidates := by
  induction candidates generalizing s outcomes with
  | nil =>
    cases h
    rfl
  | cons candidate rest ih =>
    obtain ⟨⟨outcome, t⟩, -, h⟩ := bind_eq_ok.mp h
    obtain ⟨⟨later, t'⟩, hlater, h⟩ := bind_eq_ok.mp h
    cases pure_eq_ok.mp h
    rw [List.map_cons, ih hlater]

theorem scan_append {s : σ} {first second : List Candidate} :
    scan repository retryAttempts s (first ++ second) = do
      let (outcomes, s) ← scan repository retryAttempts s first
      let (later, s) ← scan repository retryAttempts s second
      return (outcomes ++ later, s) := by
  induction first generalizing s with
  | nil =>
    simp only [List.nil_append, scan, ok_bind]
    cases scan repository retryAttempts s second <;> rfl
  | cons candidate rest ih =>
    rw [List.cons_append, scan, scan]
    cases attempt repository retryAttempts s candidate with
    | error name => rfl
    | ok result =>
      obtain ⟨outcome, t⟩ := result
      simp only [ok_bind, ih]
      cases scan repository retryAttempts t rest with
      | error name => rfl
      | ok result =>
        obtain ⟨outcomes, t'⟩ := result
        simp only [ok_bind, pure, Except.pure]
        cases scan repository retryAttempts t' second <;> rfl

end

end RetailPrintGuard.Ingestion.Worker
