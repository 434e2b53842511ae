import RetailPrintGuard.Correlation.Worker

/-! # Job reviews -/
namespace RetailPrintGuard.Db.Repository
open RetailPrintGuard.Common.Python RetailPrintGuard.Correlation.CandidateBatch
open RetailPrintGuard.Correlation.Worker RetailPrintGuard.Db.Models

inductive ReviewAction where
  | verifyUsable | excludeFromAnalysis | reopenReview
deriving DecidableEq

/-- `state_by_action` -/
def ReviewAction.target : ReviewAction → ReviewState × Bool
  | verifyUsable => (.verifiedUsable, false)
  | excludeFromAnalysis => (.excluded, true)
  | reopenReview => (.pending, true)

/-- The documents of a job. -/
def jobDocumentIds (db : Database) (jobId : UUID) : List UUID :=
  (db.documents.rows.filter fun document => document.jobId == jobId).map Document.id

/-- Only a technically incomplete job can be reviewed. Its exclusion retires
the active correlations of its documents; any review rewinds the analysis. -/
def reviewJob (db : Database) (jobId : UUID) (action : ReviewAction) : Database :=
  match db.jobs.find jobId with
  | none => db
  | some job =>
    if technicallyComplete job then db
    else
      let reviewed : Database :=
        { db with
          jobs := db.jobs.update
            (fun row =>
              if row.id = jobId then
                { row with
                  reviewState := action.target.1
                  analysisExcluded := action.target.2 }
              else row)
            (fun row => by split <;> rfl)
          watermark := none }
      if action.target.2 then
        supersedeWhere reviewed fun correlation =>
          correlation.active && correlation.overlaps (jobDocumentIds db jobId)
      else reviewed

end RetailPrintGuard.Db.Repository
