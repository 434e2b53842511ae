import RetailPrintGuard.Correlation.Arrivals
import RetailPrintGuard.Correlation.Coverage

/-! # Repeated runs

Once the runs have caught up, the seeds of the next run are the documents in
no active correlation. Repeating the run changes nothing exactly when no such
sale document is loaded. -/
namespace RetailPrintGuard.Correlation.Idempotence
open RetailPrintGuard.Common.Python RetailPrintGuard.Common.Domain
open RetailPrintGuard.Correlation.Scoring RetailPrintGuard.Correlation.Engine
open RetailPrintGuard.Correlation.CandidateBatch RetailPrintGuard.Correlation.Loading
open RetailPrintGuard.Correlation.Worker RetailPrintGuard.Correlation.Persistence
open RetailPrintGuard.Correlation.Run RetailPrintGuard.Correlation.Arrivals
open RetailPrintGuard.Correlation.Coverage RetailPrintGuard.Db.Models
open RetailPrintGuard.Library RetailPrintGuard.Library.Runs RetailPrintGuard.System

/-- However often the run is repeated, no correlation appears and none changes. -/
def Idempotent (rt : Runtime) (engine : CorrelationEngine) (limit : Nat) (db : Database) : Prop :=
  ∀ n : Nat, ((fun db => runOnce rt engine db limit)^[n] db).correlations = db.correlations

/-- The cursor has passed every current version, under the current parsers and
algorithms. -/
def CaughtUp (db : Database) : Prop :=
  match db.watermark with
  | none => documentQuery db = []
  | some watermark => stale db watermark = false ∧
    ∀ row ∈ documentQuery db, afterCursor watermark row.version = false

instance (db : Database) : Decidable (CaughtUp db) := by
  unfold CaughtUp
  split <;> infer_instance

/-- No sale document in no active correlation is selected and loaded. -/
def NoOrphanLoaded (db : Database) (limit lookbackSeconds : Nat) : Prop :=
  ∀ seed ∈ seedRows db limit lookbackSeconds, seed.value.type.nonSale = false →
    ¬ SeedCaptured db limit lookbackSeconds seed

instance (db : Database) (limit lookbackSeconds : Nat) :
    Decidable (NoOrphanLoaded db limit lookbackSeconds) :=
  inferInstanceAs (Decidable (∀ _ ∈ _, _))

variable {rt : Runtime} {engine : CorrelationEngine} {db : Database} {limit : Nat}

/-- A seed of a caught-up state is in no active correlation. -/
theorem uncorrelated_of_seed (hc : CaughtUp db) {seed : QueryRow}
    (hs : seed ∈ seedRows db limit engine.timeWindowSeconds) :
    correlated db seed.document.id = false := by
  obtain ⟨hrow, he⟩ := mem_seedRows hs
  unfold CaughtUp at hc
  unfold seedEligible at he
  cases hw : db.watermark with
  | none =>
    rw [hw] at hc
    exact absurd hrow (hc ▸ List.not_mem_nil)
  | some watermark =>
    rw [hw] at hc he
    simp only [hc.1, hc.2 seed hrow, Bool.false_or, Bool.and_eq_true, Bool.not_eq_true'] at he
    exact he.2

/-- Nothing is persisted when no orphan is loaded. -/
theorem persisted_eq_nil (h : Growing rt db)
    (hn : NoOrphanLoaded db limit engine.timeWindowSeconds) :
    (prepare rt engine db limit).persisted rt engine = [] := by
  refine List.eq_nil_iff_forall_not_mem.mpr fun t ht => ?_
  obtain ⟨ht, id, hid, hseed⟩ := mem_persisted.mp ht
  rw [h.prepare_seedIds] at hseed
  obtain ⟨seed, hs, rfl⟩ := mem_seedIds.mp hseed
  obtain ⟨d, hd, heq⟩ := List.mem_map.mp hid
  obtain ⟨row, ⟨hrow, hsale⟩, hcand, rfl⟩ :=
    (h.mem_values (List.ne_nil_of_mem hs)).mp (documents_of_transaction ht hd)
  cases eq_of_documentId hrow (mem_seedRows hs).1 heq
  refine hn seed hs hsale ?_
  simp only [candidateRow, Bool.and_eq_true] at hcand
  exact hcand.1

/-- A run without transactions to persist leaves a caught-up state as it is. -/
theorem runOnce_eq_self (h : Growing rt db) (hc : CaughtUp db)
    (hp : (prepare rt engine db limit).persisted rt engine = []) :
    runOnce rt engine db limit = db := by
  have hcorr : (supersedeWhere db (nonSaleCorrelation (nonSaleIds rt engine db limit))).correlations =
      db.correlations := by
    refine Table.update_eq_self (fun c => by split <;> rfl) fun c hm => if_neg ?_
    intro hq
    obtain ⟨hact, hover⟩ := Bool.and_eq_true_iff.mp hq
    rw [h.not_overlaps_nonSale ⟨hm, hact⟩] at hover
    cases hover
  have hwm : (candidateBatch rt db limit engine.timeWindowSeconds).watermark = db.watermark := by
    rw [candidateBatch_watermark]
    cases hlast : (seedRows db limit engine.timeWindowSeconds).getLast? with
    | none => simp only [advanceWatermark, hlast]
    | some latest =>
      have hrow := (mem_seedRows (List.mem_of_getLast? hlast)).1
      unfold CaughtUp at hc
      cases hw : db.watermark with
      | none =>
        rw [hw] at hc
        exact absurd hrow (hc ▸ List.not_mem_nil)
      | some watermark =>
        rw [hw] at hc
        simp only [advanceWatermark, hlast, hw, hc.1, hc.2 latest hrow, Bool.or_self,
          Bool.false_eq_true, if_false]
  have hdb : runOnce rt engine db limit =
      { db with
        correlations := (supersedeWhere db (nonSaleCorrelation
          (nonSaleIds rt engine db limit))).correlations
        watermark := (candidateBatch rt db limit engine.timeWindowSeconds).watermark } := by
    simp only [runOnce, hp, List.foldl_nil]
    rfl
  rw [hdb, hcorr, hwm]

/-- **Runs that have caught up are idempotent exactly when they load no orphan**,
in every state arrivals and runs reach. -/
theorem runs_are_idempotent_iff (rt : Runtime) (engine : CorrelationEngine) {steps : List Step}
    (h : AllSteps (apply rt engine) Arrives {} steps) (hc : CaughtUp (run rt engine steps))
    (limit : Nat) :
    Idempotent rt engine limit (run rt engine steps) ↔
      NoOrphanLoaded (run rt engine steps) limit engine.timeWindowSeconds := by
  have hg := growing_run h
  generalize run rt engine steps = db at hc hg
  constructor
  · intro hi seed hs hsale hcap
    obtain ⟨t, ht, hid⟩ := persisted_of_selected hs hcap hsale
    obtain ⟨c, ⟨hm, hact⟩, hmem, -⟩ := settled_of_persisted hg.sound ht hid
    have hsame := hi 1
    rw [Function.iterate_one] at hsame
    rw [hsame] at hm
    have hcorr := (correlated_iff hg.sound).mpr ⟨c, ⟨hm, hact⟩, hmem⟩
    rw [uncorrelated_of_seed hc hs] at hcorr
    cases hcorr
  · intro hn n
    have hself := runOnce_eq_self hg hc (persisted_eq_nil hg hn)
    have hfix := @Function.iterate_fixed Database (fun db => runOnce rt engine db limit) db hself n
    exact congrArg Database.correlations hfix

theorem quietEvening_idempotent :
    Idempotent asciiRuntime {} 10 (run asciiRuntime {} quietEvening) :=
  (runs_are_idempotent_iff asciiRuntime {} (by decide +kernel) (by decide +kernel) 10).mpr
    (by decide +kernel)

/-! ## A group that never settles -/

def margherita : DocumentLine :=
  { sequence := 1, description := some "MARGHERITA", quantity := some 10000, lineTotal := some 80000 }

/-- A document of one dish at table T1. -/
def atTable (id : UUID) (device job : String) (type : DocumentType) (second : Nat) :
    NormalizedDocument :=
  { id
    sourceDeviceId := device
    sourceJobId := job
    type
    tableCode := some "T1"
    capturedAt := { micros := seconds second }
    grossTotal := some 80000
    lines := [margherita] }

def kitchenTicket : NormalizedDocument := atTable 1 "kitchen" "j1" .kitchenOrder 0

def baseline : NormalizedDocument := atTable 2 "rch" "j2" .managementDocument 20

def close : NormalizedDocument := atTable 3 "rch" "j3" .commercialDocument 200

/-- The close arrives after the ticket and its baseline were correlated. -/
def closeArrivesLater : List Step :=
  arrival kitchenTicket ++ arrival baseline ++ [.runOnce 10] ++ arrival close ++ [.runOnce 10]

/-- The ticket and the close take the baseline from each other, run after run. -/
theorem closeArrivesLater_not_idempotent :
    AllSteps (apply asciiRuntime {}) Arrives {} closeArrivesLater ∧
      CaughtUp (run asciiRuntime {} closeArrivesLater) ∧
      ¬ Idempotent asciiRuntime {} 10 (run asciiRuntime {} closeArrivesLater) := by
  refine ⟨by decide +kernel, by decide +kernel, fun h => ?_⟩
  have hsame := congrArg (fun table => table.rows.map DocumentCorrelation.active) (h 1)
  revert hsame
  decide +kernel

end RetailPrintGuard.Correlation.Idempotence
