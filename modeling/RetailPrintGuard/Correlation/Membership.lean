import RetailPrintGuard.Correlation.Run
import RetailPrintGuard.System

/-! # Single membership

A document stands in at most one active correlation, after any transactions
in any order. -/
namespace RetailPrintGuard.Correlation.Membership
open RetailPrintGuard.Correlation.Scoring RetailPrintGuard.Correlation.Worker
open RetailPrintGuard.Correlation.Persistence RetailPrintGuard.Correlation.Run
open RetailPrintGuard.Common.Python RetailPrintGuard.Db.Models RetailPrintGuard.Db.Repository
open RetailPrintGuard.Library.Runs RetailPrintGuard.System

variable {rt : Runtime} {engine : CorrelationEngine} {db : Database}

theorem sound_keepsAnalysis {db' : Database} (h : Sound rt db) (hk : KeepsAnalysis db db') :
    Sound rt db' := h.frame hk.correlations hk.drawn

theorem sound_reviewJob (h : Sound rt db) (jobId : UUID) (action : ReviewAction) :
    Sound rt (reviewJob db jobId action) := by
  unfold reviewJob
  split
  · exact h
  · dsimp only
    split_ifs
    · exact h
    · exact Sound.supersedeWhere (h.frame rfl le_rfl)
    · exact h.frame rfl le_rfl

/-- No transaction breaks what the worker keeps of its rows. -/
theorem sound_apply (h : Sound rt db) (step : Step) : Sound rt (apply rt engine db step) := by
  cases step with
  | importJob job => exact h.frame rfl le_rfl
  | storeDocuments jobId documents =>
    exact sound_keepsAnalysis h (keepsAnalysis_storeDocuments jobId documents)
  | recordFailure jobId buildHash =>
    exact sound_keepsAnalysis h (keepsAnalysis_recordFailure jobId buildHash)
  | activateParserVersion name versionId rewind => exact h.frame rfl le_rfl
  | reviewJob jobId action => exact sound_reviewJob h jobId action
  | runOnce maxDocuments =>
    rw [apply]
    exact (runOnce_spec h).sound

theorem sound_run (rt : Runtime) (engine : CorrelationEngine) (steps : List Step) :
    Sound rt (run rt engine steps) :=
  invariant (Sound rt) (fun _ step h => sound_apply h step) (sound_empty rt) steps

/-- **Every document is a member of at most one active correlation**, after
correlation runs, job exclusions and re-inclusions, reclassifications and
reactivations in any order. -/
theorem single_membership (rt : Runtime) (engine : CorrelationEngine) (steps : List Step) :
    SingleMembership (run rt engine steps) := (sound_run rt engine steps).single

end RetailPrintGuard.Correlation.Membership
