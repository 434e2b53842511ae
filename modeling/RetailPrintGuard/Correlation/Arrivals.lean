import RetailPrintGuard.Correlation.Membership
import RetailPrintGuard.Parser.FirstParse

/-! # Arrivals and runs

Documents arrive, each once, and the worker runs; nothing is reparsed,
activated or reviewed. -/
namespace RetailPrintGuard.Correlation.Arrivals
open RetailPrintGuard.Common.Python RetailPrintGuard.Common.Domain
open RetailPrintGuard.Correlation.Scoring RetailPrintGuard.Correlation.Engine
open RetailPrintGuard.Correlation.CandidateBatch RetailPrintGuard.Correlation.Loading
open RetailPrintGuard.Correlation.Worker RetailPrintGuard.Correlation.Persistence
open RetailPrintGuard.Correlation.Run RetailPrintGuard.Correlation.Membership
open RetailPrintGuard.Db.Models RetailPrintGuard.Library RetailPrintGuard.Library.Runs
open RetailPrintGuard.Parser.FirstParse RetailPrintGuard.Parser.Repository
open RetailPrintGuard.System

/-- A job is imported, parsed for the first time, or the worker runs. -/
def Arrives (db : Database) : Step → Prop
  | .importJob _ => True
  | .storeDocuments jobId _ => Unparsed db jobId
  | .runOnce _ => True
  | .recordFailure _ _ | .activateParserVersion _ _ _ | .reviewJob _ _ => False

instance (db : Database) : (step : Step) → Decidable (Arrives db step)
  | .importJob _ => inferInstanceAs (Decidable True)
  | .storeDocuments jobId _ => inferInstanceAs (Decidable (Unparsed db jobId))
  | .runOnce _ => inferInstanceAs (Decidable True)
  | .recordFailure _ _ => inferInstanceAs (Decidable False)
  | .activateParserVersion _ _ _ => inferInstanceAs (Decidable False)
  | .reviewJob _ _ => inferInstanceAs (Decidable False)

/-- The sale documents the query returns. -/
def SaleRow (db : Database) (row : QueryRow) : Prop :=
  row ∈ documentQuery db ∧ row.value.type.nonSale = false

/-- What arrivals and runs keep: an active correlation is about documents the
query returns as sales. -/
structure Growing (rt : Runtime) (db : Database) : Prop where
  sound : Sound rt db
  referenced : Referenced rt db
  members : ∀ c, Active db c → ∀ id ∈ c.memberIds, ∃ row, SaleRow db row ∧ row.document.id = id

theorem growing_empty (rt : Runtime) : Growing rt {} where
  sound := sound_empty rt
  referenced := ⟨fun _ h => absurd h (Table.not_mem_empty _),
    fun _ h => absurd h (Table.not_mem_empty _), fun _ h => absurd h (Table.not_mem_empty _)⟩
  members _ hc := absurd hc.1 (Table.not_mem_empty _)

variable {rt : Runtime} {engine : CorrelationEngine} {db db' : Database} {limit : Nat}

theorem Growing.arrival (h : Growing rt db) (hk : KeepsAnalysis db db') (ha : Arrival db db')
    (hr : Referenced rt db') : Growing rt db' := by
  refine ⟨sound_keepsAnalysis h.sound hk, hr, fun c hc id hid => ?_⟩
  unfold Active at hc
  rw [hk.correlations] at hc
  obtain ⟨row, ⟨hrow, hsale⟩, heq⟩ := h.members c hc id hid
  exact ⟨row, ⟨ha.kept row hrow, hsale⟩, heq⟩

theorem referenced_runOnce (h : Referenced rt db) : Referenced rt (runOnce rt engine db limit) where
  job := by
    rw [sameInput_runOnce.documents, sameInput_runOnce.jobs]
    exact h.job
  parser := by
    rw [sameInput_runOnce.versions, sameInput_runOnce.parserVersions]
    exact h.parser
  drawn := by
    rw [sameInput_runOnce.documents]
    intro document hd
    obtain ⟨n, hlt, hid⟩ := h.drawn document hd
    exact ⟨n, hlt.trans_le drawn_le_runOnce, hid⟩

theorem Growing.runOnce (h : Growing rt db) : Growing rt (runOnce rt engine db limit) := by
  refine ⟨(runOnce_spec h.sound).sound, referenced_runOnce h.referenced, fun c hc id hid => ?_⟩
  simp only [SaleRow, documentQuery_runOnce]
  obtain ⟨t, ht, hrep⟩ | ⟨hold, -⟩ := (runOnce_spec h.sound).origin c hc
  · obtain ⟨d, hd, rfl⟩ := List.mem_map.mp ((hrep.members id).mp hid)
    have hv := documents_of_transaction (mem_persisted.mp ht).1 hd
    obtain ⟨row, hrow, -, rfl⟩ := row_of_mem_values hv
    obtain ⟨item, -, hsale, heq⟩ := mem_values.mp hv
    rw [heq] at hsale
    exact ⟨row, ⟨hrow, hsale⟩, rfl⟩
  · exact h.members c (active_prepare.mp hold).1 id hid

theorem Growing.apply {step : Step} (hstep : Arrives db step) (h : Growing rt db) :
    Growing rt (apply rt engine db step) := by
  cases step with
  | importJob job =>
    obtain ⟨ha, hr⟩ := arrival_of_job h.referenced job
    exact h.arrival ⟨rfl, rfl, rfl, le_rfl⟩ ha hr
  | storeDocuments jobId documents =>
    obtain ⟨ha, hr⟩ := arrival_storeDocuments h.referenced hstep documents
    exact h.arrival (keepsAnalysis_storeDocuments jobId documents) ha hr
  | runOnce limit =>
    rw [System.apply]
    exact h.runOnce
  | recordFailure jobId buildHash => exact hstep.elim
  | activateParserVersion name versionId rewind => exact hstep.elim
  | reviewJob jobId action => exact hstep.elim

theorem growing_run {steps : List Step} (h : AllSteps (System.apply rt engine) Arrives {} steps) :
    Growing rt (run rt engine steps) :=
  invariant_of_allSteps (Growing rt) (fun _ _ hstep hg => hg.apply hstep) (growing_empty rt) h

/-- No correlation is retired: no active one holds a non-sale document. -/
theorem Growing.not_overlaps_nonSale (h : Growing rt db) {c : DocumentCorrelation}
    (hc : Active db c) : c.overlaps (nonSaleIds rt engine db limit) = false := by
  refine Bool.eq_false_iff.mpr fun hover => ?_
  obtain ⟨id, hid, hin⟩ := DocumentCorrelation.overlaps_iff.mp hover
  obtain ⟨item, hi, rfl⟩ := List.mem_map.mp hin
  obtain ⟨hloaded, hnon⟩ := List.mem_filter.mp hi
  obtain ⟨row, hrow, rfl⟩ := row_of_mem_candidateBatch hloaded
  obtain ⟨sale, ⟨hsale, htype⟩, heq⟩ := h.members c hc _ hid
  cases eq_of_documentId hsale hrow heq
  have hnon' : row.value.type.nonSale = true := hnon
  rw [hnon'] at htype
  cases htype

theorem Growing.retiredIds_eq_nil (h : Growing rt db) : retiredIds rt engine db limit = [] := by
  refine List.eq_nil_iff_forall_not_mem.mpr fun id hid => ?_
  obtain ⟨c, hc, hover, -⟩ := mem_retiredIds.mp hid
  rw [h.not_overlaps_nonSale hc] at hover
  cases hover

theorem Growing.prepare_loaded (h : Growing rt db) :
    (prepare rt engine db limit).loaded =
      (candidateBatch rt db limit engine.timeWindowSeconds).loaded := by
  rw [Run.prepare_loaded, h.retiredIds_eq_nil]
  rfl

theorem Growing.prepare_seedIds (h : Growing rt db) :
    (prepare rt engine db limit).seedIds = seedIds db limit engine.timeWindowSeconds := by
  rw [Run.prepare_seedIds, h.retiredIds_eq_nil, List.append_nil]

/-- The documents of a run are the sale documents of its batch. -/
theorem Growing.mem_values (h : Growing rt db)
    (hne : seedRows db limit engine.timeWindowSeconds ≠ []) {document : NormalizedDocument} :
    document ∈ (prepare rt engine db limit).values ↔ ∃ row, SaleRow db row ∧
      candidateRow rt db limit engine.timeWindowSeconds row = true ∧ row.value = document := by
  rw [Run.mem_values, h.prepare_loaded]
  constructor
  · intro hm
    obtain ⟨item, hi, hsale, rfl⟩ := hm
    obtain ⟨row, hrow, hc, rfl⟩ := (mem_candidateBatch hne).mp hi
    exact ⟨row, ⟨hrow, hsale⟩, hc, rfl⟩
  · intro hm
    obtain ⟨row, ⟨hrow, hsale⟩, hc, rfl⟩ := hm
    exact ⟨row.load, (mem_candidateBatch hne).mpr ⟨row, hrow, hc, rfl⟩, hsale, rfl⟩

end RetailPrintGuard.Correlation.Arrivals
