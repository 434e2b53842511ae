import RetailPrintGuard.Correlation.Idempotence
import RetailPrintGuard.Correlation.OrderEvidence

/-! # Order evidence in every run of the system

Chains and stored records hold in every run; a transaction that is processed
again adds nothing as long as its documents have events in one order only. -/
namespace RetailPrintGuard.Correlation.OrderRuns
open RetailPrintGuard.Common.Python RetailPrintGuard.Correlation.Scoring
open RetailPrintGuard.Correlation.Worker RetailPrintGuard.Correlation.Run
open RetailPrintGuard.Correlation.Orders RetailPrintGuard.Correlation.OrderEvidence
open RetailPrintGuard.Db.Models RetailPrintGuard.Library RetailPrintGuard.Library.Runs

variable {rt : Runtime} {engine : CorrelationEngine} {timezone : Int → Int}

/-! ## The system -/

/-- The versions only grow. -/
def KeepsVersions (db db' : Database) : Prop :=
  ∀ version ∈ db.versions, version ∈ db'.versions

theorem keepsVersions_of_eq {db db' : Database} (h : db'.versions = db.versions) :
    KeepsVersions db db' := fun _ hv => h ▸ hv

theorem versions_upsertDocument (db : Database) (job : PrintJob)
    (parsed : Parser.Repository.ParsedDocument) :
    (Parser.Repository.upsertDocument rt db job parsed).1.versions = db.versions := by
  unfold Parser.Repository.upsertDocument
  split
  · rfl
  · rfl

theorem versions_upsertParser (db : Database) (parsed : Parser.Repository.ParsedDocument) :
    (Parser.Repository.upsertParser rt db parsed).1.versions = db.versions := by
  unfold Parser.Repository.upsertParser
  split
  · rfl
  · rfl

theorem keepsVersions_storeDocument (job : PrintJob) (db : Database)
    (parsed : Parser.Repository.ParsedDocument) :
    KeepsVersions db (Parser.Repository.storeDocument rt job db parsed) := by
  intro version hversion
  have hrows : version ∈ (Parser.Repository.upsertParser rt
      (Parser.Repository.upsertDocument rt db job parsed).1 parsed).1.versions := by
    rw [versions_upsertParser, versions_upsertDocument]
    exact hversion
  unfold Parser.Repository.storeDocument
  dsimp only
  split
  · exact hrows
  · exact Table.mem_insert_of_mem hrows

theorem keepsVersions_storeDocuments (db : Database) (jobId : UUID)
    (documents : List Parser.Repository.ParsedDocument) :
    KeepsVersions db (Parser.Repository.storeDocuments rt db jobId documents) := by
  refine Parser.Repository.storeDocuments_cases (fun _ hv => hv) fun job _ => ?_
  exact invariant (KeepsVersions db)
    (fun stored parsed h version hv => keepsVersions_storeDocument job stored parsed version
      (h version hv)) (fun _ hv => hv) documents

theorem versions_recordFailure (db : Database) (jobId : UUID) (buildHash : String) :
    (Parser.Repository.recordFailure db jobId buildHash).versions = db.versions := by
  unfold Parser.Repository.recordFailure
  split
  · rfl
  · rfl

theorem versions_reviewJob (db : Database) (jobId : UUID) (action : Db.Repository.ReviewAction) :
    (Db.Repository.reviewJob db jobId action).versions = db.versions := by
  unfold Db.Repository.reviewJob
  split
  · rfl
  · split
    · rfl
    · dsimp only
      split
      · rfl
      · rfl

/-- No step takes a version away. -/
theorem keepsVersions_apply (db : Database) (step : System.Step) :
    KeepsVersions db (System.apply rt engine db step) := by
  cases step with
  | importJob job => exact fun _ hv => hv
  | storeDocuments jobId documents => exact keepsVersions_storeDocuments db jobId documents
  | recordFailure jobId buildHash =>
    exact keepsVersions_of_eq (versions_recordFailure db jobId buildHash)
  | activateParserVersion parserName parserVersionId rewind => exact fun _ hv => hv
  | reviewJob jobId action => exact keepsVersions_of_eq (versions_reviewJob db jobId action)
  | runOnce maxDocuments =>
    rw [System.apply]
    exact keepsVersions_of_eq sameInput_runOnce.versions

/-- What holds of the order tables in every state. -/
structure Settled (rt : Runtime) (s : State) : Prop where
  chains : Chains s.store
  rows : ∀ row ∈ s.store.events, Owned s.db s.store.orders row
  recorded : ∀ p ∈ s.log, Recorded rt s.store.events p.documents

/-- A transaction over documents and versions processed before adds nothing. -/
def Idempotent (log : List Processed) : Prop :=
  log.Pairwise fun earlier later => later.documents = earlier.documents →
    later.events = 0 ∧ later.snapshots = 0

/-- No stored record changes or goes. -/
structure Appends (before after : OrderStore) : Prop where
  events : before.events <+: after.events
  snapshots : before.snapshots <+: after.snapshots

section
variable (rt : Runtime) (engine : CorrelationEngine)

/-- The documents of every transaction a run processes have their stored events
in one order. -/
def Unambiguous (s : State) (step : Step) : Prop :=
  match step.step with
  | .runOnce maxDocuments =>
    ∀ t ∈ (prepare rt engine s.db maxDocuments).persisted rt engine, OneOrder s.store t.ids
  | _ => True

instance (s : State) (step : Step) : Decidable (Unambiguous rt engine s step) :=
  match h : step.step with
  | .runOnce maxDocuments =>
    decidable_of_iff (∀ t ∈ (prepare rt engine s.db maxDocuments).persisted rt engine,
      OneOrder s.store t.ids) (by rw [Unambiguous, h])
  | .importJob _ => isTrue (by rw [Unambiguous, h]; trivial)
  | .storeDocuments _ _ => isTrue (by rw [Unambiguous, h]; trivial)
  | .recordFailure _ _ => isTrue (by rw [Unambiguous, h]; trivial)
  | .activateParserVersion _ _ _ => isTrue (by rw [Unambiguous, h]; trivial)
  | .reviewJob _ _ => isTrue (by rw [Unambiguous, h]; trivial)

end

theorem Appends.refl (store : OrderStore) : Appends store store :=
  ⟨List.prefix_rfl, List.prefix_rfl⟩

theorem Appends.trans {a b c : OrderStore} (h : Appends a b) (k : Appends b c) : Appends a c :=
  ⟨h.events.trans k.events, h.snapshots.trans k.snapshots⟩

variable {s : State}

theorem Settled.of_database (h : Settled rt s) {db' : Database} (hdb : KeepsVersions s.db db') :
    Settled rt { s with db := db' } := by
  refine ⟨h.chains, fun row hrow => ?_, h.recorded⟩
  obtain ⟨horder, hnamed, version, hversion, hids⟩ := h.rows row hrow
  exact ⟨horder, hnamed, version, hdb version hversion, hids⟩

/-- One step: the tables stay sound and only grow, and an unambiguous run adds
nothing for what was processed before. -/
theorem settled_apply (h : Settled rt s) (step : Step) :
    Settled rt (apply rt engine timezone s step) ∧
      Appends s.store (apply rt engine timezone s step).store ∧
      (Unambiguous rt engine s step → Idempotent s.log →
        Idempotent (apply rt engine timezone s step).log) := by
  have hother : ∀ db', KeepsVersions s.db db' →
      Settled rt { s with db := db' } ∧ Appends s.store s.store ∧
        (Unambiguous rt engine s step → Idempotent s.log → Idempotent s.log) :=
    fun db' hdb => ⟨h.of_database hdb, Appends.refl _, fun _ hlog => hlog⟩
  unfold apply
  split
  · next maxDocuments hstep =>
    split
    · next db store processed hrun =>
      have hcommitted := committed_runOrders h.chains h.rows hrun
      have hkeeps : KeepsVersions s.db db := by
        rw [hcommitted.database]
        exact keepsVersions_of_eq sameInput_runOnce.versions
      refine ⟨⟨hcommitted.chains, fun row hrow => ?_, fun p hp => ?_⟩,
        ⟨hcommitted.grows, hcommitted.growsSnapshots⟩, fun hone hlog => ?_⟩
      · obtain ⟨horder, hnamed, version, hversion, hids⟩ := hcommitted.rows row hrow
        exact ⟨horder, hnamed, version, hkeeps version hversion, hids⟩
      · obtain hp | hp := List.mem_append.mp hp
        · exact (h.recorded p hp).mono fun row hrow => hcommitted.grows.subset hrow
        · exact hcommitted.recorded p hp
      · rw [Unambiguous, hstep] at hone
        refine List.pairwise_append.mpr ⟨hlog, ?_, fun q hq p hp heq => ?_⟩
        · exact hcommitted.different.imp fun hne heq => absurd heq.symm hne
        · exact hcommitted.idle s.log h.recorded hone p hp q hq heq
    · exact hother s.db fun _ hv => hv
  · exact hother _ (keepsVersions_apply s.db _)

theorem settled_empty : Settled rt {} :=
  ⟨⟨⟨fun _ => trivial, fun _ h => absurd h List.not_mem_nil⟩,
    ⟨fun _ => trivial, fun _ h => absurd h List.not_mem_nil⟩⟩,
    fun _ h => absurd h List.not_mem_nil, fun _ h => absurd h List.not_mem_nil⟩

theorem settled_run (steps : List Step) : Settled rt (run rt engine timezone steps) :=
  invariant (Settled rt) (fun _ step h => (settled_apply h step).1) settled_empty steps

theorem appends_run (steps more : List Step) :
    Appends (run rt engine timezone steps).store (run rt engine timezone (steps ++ more)).store := by
  unfold run
  rw [List.foldl_append]
  have hgrows := invariant
    (fun s => Settled rt s ∧ Appends (run rt engine timezone steps).store s.store)
    (fun s step h =>
      ⟨(@settled_apply rt engine timezone _ h.1 step).1,
        h.2.trans (settled_apply h.1 step).2.1⟩)
    (s := run rt engine timezone steps)
    ⟨settled_run steps, Appends.refl _⟩ more
  exact hgrows.2

theorem idempotent_run {steps : List Step}
    (h : AllSteps (apply rt engine timezone) (Unambiguous rt engine) {} steps) :
    Idempotent (run rt engine timezone steps).log :=
  (invariant_of_allSteps (fun s => Settled rt s ∧ Idempotent s.log)
    (fun _ step hone hs => ⟨(settled_apply hs.1 step).1, (settled_apply hs.1 step).2.2 hone hs.2⟩)
    ⟨settled_empty, List.Pairwise.nil⟩ h).2

/-- **Order evidence is append-only, and idempotent** in every run that meets
no transaction with the events of its documents in two orders. -/
theorem order_evidence (rt : Runtime) (engine : CorrelationEngine) (timezone : Int → Int)
    (steps : List Step) :
    Chains (run rt engine timezone steps).store ∧
      (∀ more, Appends (run rt engine timezone steps).store
        (run rt engine timezone (steps ++ more)).store) ∧
      (AllSteps (apply rt engine timezone) (Unambiguous rt engine) {} steps →
        Idempotent (run rt engine timezone steps).log) :=
  ⟨(settled_run steps).chains, fun more => appends_run steps more, idempotent_run⟩

/-! ## Two orders of one sale -/

open RetailPrintGuard.Correlation.Idempotence in
/-- A ticket and its close are correlated apart, then together with the baseline
that arrives last; the activation of a parser makes the next run process the
group again. `choice` is the row the last run is given. -/
def regrouped (choice : Nat) : List Step :=
  let before : List System.Step := System.arrival kitchenTicket ++ [.runOnce 10] ++ System.arrival close ++
    [.runOnce 10] ++ System.arrival baseline ++ [.runOnce 10, .activateParserVersion "rch" 1 true]
  before.map (fun step => ⟨step, fun _ => ⟨0, false⟩⟩) ++ [⟨.runOnce 10, fun _ => ⟨choice, false⟩⟩]

open RetailPrintGuard.Correlation.Idempotence in
/-- The ticket and the baseline, processed twice, and the close after them. -/
def reprocessed : List Step :=
  let before : List System.Step := System.arrival kitchenTicket ++ System.arrival baseline ++
    [.runOnce 10, .activateParserVersion "rch" 1 true, .runOnce 10] ++ System.arrival close ++
    [.runOnce 10]
  before.map fun step => ⟨step, fun _ => ⟨0, false⟩⟩

theorem order_evidence_reprocessed :
    Idempotent (run asciiRuntime {} (fun _ => 0) reprocessed).log :=
  (order_evidence asciiRuntime {} (fun _ => 0) reprocessed).2.2 (by decide +kernel)

/-- The other order gets the events again. -/
theorem regrouped_not_idempotent :
    ¬ Idempotent (run asciiRuntime {} (fun _ => 0) (regrouped 1)).log := by
  unfold Idempotent
  decide +kernel

end RetailPrintGuard.Correlation.OrderRuns
