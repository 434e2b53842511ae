import RetailPrintGuard.Correlation.Coverage

/-! # Progress of the seeds

The seeds of a run come in the order they were parsed, and those behind the
cursor come first. A run reaches a document after the cursor when what is
waiting behind it leaves room. -/
namespace RetailPrintGuard.Correlation.Progress
open RetailPrintGuard.Common.Python RetailPrintGuard.Common.Domain
open RetailPrintGuard.Library.ListOrder
open RetailPrintGuard.Correlation.Scoring RetailPrintGuard.Correlation.Engine
open RetailPrintGuard.Correlation.CandidateBatch RetailPrintGuard.Correlation.Loading
open RetailPrintGuard.Correlation.Worker RetailPrintGuard.Correlation.Coverage
open RetailPrintGuard.Db.Models RetailPrintGuard.System

/-- The document was parsed after the watermark. Without a watermark, or with
one of other parsers or algorithms, every document was. -/
def afterWatermark (db : Database) (row : QueryRow) : Bool :=
  match db.watermark with
  | none => true
  | some watermark => stale db watermark || afterCursor watermark row.version

/-- What the next run looks at again: parsed within the lookback before the
watermark, and in no active correlation. -/
def backlog (db : Database) (lookbackSeconds : Nat) : List QueryRow :=
  match db.watermark with
  | none => []
  | some watermark =>
    if stale db watermark then []
    else
      (documentQuery db).filter fun row =>
        decide (watermark.cursorTimestamp.micros - seconds lookbackSeconds ≤
          row.version.parsedAt.micros) &&
        !afterCursor watermark row.version && !correlated db row.document.id

/-- A run selects a document after the watermark. -/
def SelectsNew (db : Database) (limit lookbackSeconds : Nat) : Prop :=
  ∃ row ∈ seedRows db limit lookbackSeconds, afterWatermark db row = true

instance (db : Database) (limit lookbackSeconds : Nat) :
    Decidable (SelectsNew db limit lookbackSeconds) :=
  inferInstanceAs (Decidable (∃ row ∈ seedRows db limit lookbackSeconds, afterWatermark db row = true))

variable {db : Database} {limit w : Nat}

theorem seconds_nonneg (n : Nat) : 0 ≤ seconds n := by
  unfold seconds
  omega

/-- What is after the watermark is eligible. -/
theorem seedEligible_of_after {row : QueryRow} (h : afterWatermark db row = true) :
    seedEligible db w row = true := by
  unfold afterWatermark at h
  unfold seedEligible
  cases hw : db.watermark with
  | none => rfl
  | some watermark =>
    rw [hw] at h
    have hlookback := seconds_nonneg w
    cases hs : stale db watermark with
    | true => simp [hs]
    | false =>
      have hafter : afterCursor watermark row.version = true := by simpa [hs] using h
      have hwithin : watermark.cursorTimestamp.micros - seconds w ≤ row.version.parsedAt.micros := by
        simp only [afterCursor, Bool.or_eq_true, decide_eq_true_eq, Bool.and_eq_true,
          beq_iff_eq] at hafter
        omega
      simp [hafter, hwithin]

/-- Later rows stay after the watermark. -/
theorem afterWatermark_mono {a b : QueryRow} (hab : ParsedBefore a b)
    (ha : afterWatermark db a = true) : afterWatermark db b = true := by
  unfold afterWatermark at ha ⊢
  cases hw : db.watermark with
  | none => rfl
  | some watermark =>
    rw [hw] at ha
    unfold ParsedBefore at hab
    simp only [Bool.or_eq_true, afterCursor, decide_eq_true_eq, Bool.and_eq_true, beq_iff_eq] at ha ⊢
    rcases ha with ha | ha
    · exact Or.inl ha
    · refine Or.inr ?_
      grind

/-- The eligible rows behind the watermark are the backlog. -/
theorem eligible_before_watermark :
    ((documentQuery db).filter (seedEligible db w)).filter (fun row => !afterWatermark db row) =
      backlog db w := by
  rw [List.filter_filter]
  unfold backlog
  cases hw : db.watermark with
  | none => exact List.filter_eq_nil_iff.mpr fun row _ => by simp [afterWatermark, hw]
  | some watermark =>
    dsimp only
    cases hs : stale db watermark with
    | true =>
      rw [if_pos rfl]
      exact List.filter_eq_nil_iff.mpr fun row _ => by simp [afterWatermark, hw, hs]
    | false =>
      rw [if_neg (by decide)]
      refine List.filter_congr fun row _ => ?_
      simp only [afterWatermark, seedEligible, hw, hs, Bool.false_or]
      cases afterCursor watermark row.version <;> simp

/-- A run reaches what is after the watermark exactly when the backlog leaves
room for it. -/
theorem selectsNew_iff (hnew : ∃ row ∈ documentQuery db, afterWatermark db row = true) :
    SelectsNew db limit w ↔ (backlog db w).length < limit := by
  have hsorted := List.pairwise_insertionSort ParsedBefore
    ((documentQuery db).filter (seedEligible db w))
  have hex : ∃ row ∈ ((documentQuery db).filter (seedEligible db w)).insertionSort ParsedBefore,
      afterWatermark db row = true := by
    obtain ⟨row, hrow, hafter⟩ := hnew
    exact ⟨row, mem_sorted.mpr (List.mem_filter.mpr ⟨hrow, seedEligible_of_after hafter⟩), hafter⟩
  rw [SelectsNew, seedRows, exists_late_mem_take_iff hsorted
    (fun _ _ _ _ hab => afterWatermark_mono hab) hex, ← eligible_before_watermark]
  have hperm := (List.perm_insertionSort ParsedBefore
    ((documentQuery db).filter (seedEligible db w))).filter fun row => !afterWatermark db row
  rw [hperm.length_eq]

/-- **In every state that is reached, with a document after the watermark, the
next run selects one after it exactly when fewer documents than its limit are
waiting behind.** -/
theorem seeds_make_progress_iff (rt : Runtime) (engine : CorrelationEngine) (steps : List Step)
    (limit : Nat)
    (hnew : ∃ row ∈ documentQuery (run rt engine steps),
      afterWatermark (run rt engine steps) row = true) :
    SelectsNew (run rt engine steps) limit engine.timeWindowSeconds ↔
      (backlog (run rt engine steps) engine.timeWindowSeconds).length < limit :=
  selectsNew_iff hnew

/-- The shift report of one till, which is in no correlation, and the sale
after it. -/
def reportBeforeSale : List Step :=
  arrival
    { id := 1
      sourceDeviceId := "rch"
      sourceJobId := "j1"
      type := .shiftEndReport
      capturedAt := { micros := seconds 100 } } ++
  [.runOnce 1] ++
  arrival
    { id := 2
      sourceDeviceId := "rch"
      sourceJobId := "j2"
      type := .commercialDocument
      tableCode := some "T1"
      capturedAt := { micros := seconds 160 }
      grossTotal := some 250000 }

/-- With room for two, the run behind the report selects the sale too. -/
theorem report_leaves_room :
    SelectsNew (run asciiRuntime {} reportBeforeSale) 2 7200 ↔
      (backlog (run asciiRuntime {} reportBeforeSale) 7200).length < 2 :=
  seeds_make_progress_iff asciiRuntime {} reportBeforeSale 2 (by decide +kernel)

example : (backlog (run asciiRuntime {} reportBeforeSale) 7200).length = 1 := by decide +kernel

/-- Run after run selects the report again, and never the sale. -/
theorem report_starves_the_sale :
    (∃ row ∈ documentQuery (run asciiRuntime {} reportBeforeSale),
        afterWatermark (run asciiRuntime {} reportBeforeSale) row = true) ∧
      ¬ SelectsNew (run asciiRuntime {} reportBeforeSale) 1 7200 ∧
      ¬ SelectsNew (run asciiRuntime {} (reportBeforeSale ++ [.runOnce 1])) 1 7200 := by
  decide +kernel

end RetailPrintGuard.Correlation.Progress
