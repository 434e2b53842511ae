import RetailPrintGuard.Correlation.Worker
import RetailPrintGuard.Db.Repository
import RetailPrintGuard.Library.Runs
import RetailPrintGuard.Parser.Repository

/-! # The system the correlation worker is part of

Every transaction that changes what the worker reads, in any order. -/
namespace RetailPrintGuard.System
open RetailPrintGuard.Common.Python RetailPrintGuard.Common.Domain
open RetailPrintGuard.Correlation.Scoring
open RetailPrintGuard.Correlation.Worker RetailPrintGuard.Db.Models
open RetailPrintGuard.Db.Repository RetailPrintGuard.Parser.Repository
open RetailPrintGuard.Library RetailPrintGuard.Library.Runs

inductive Step where
  | importJob (job : PrintJob)
  | storeDocuments (jobId : UUID) (documents : List ParsedDocument)
  | recordFailure (jobId : UUID) (buildHash : String)
  | activateParserVersion (parserName : String) (parserVersionId : UUID) (rewind : Bool)
  | reviewJob (jobId : UUID) (action : ReviewAction)
  | runOnce (maxDocuments : Nat)

/-- The importer adds a job under a key that is not taken. -/
def importJob (db : Database) (job : PrintJob) : Database :=
  { db with jobs := db.jobs.insert job }

section
variable (rt : Runtime) (engine : CorrelationEngine)

def apply (db : Database) : Step → Database
  | .importJob job => importJob db job
  | .storeDocuments jobId documents => storeDocuments rt db jobId documents
  | .recordFailure jobId buildHash => recordFailure db jobId buildHash
  | .activateParserVersion parserName parserVersionId rewind =>
    activateParserVersion db parserName parserVersionId rewind
  | .reviewJob jobId action => reviewJob db jobId action
  | .runOnce maxDocuments => runOnce rt engine db maxDocuments

/-- The database after a list of steps. -/
def run (steps : List Step) : Database := steps.foldl (apply rt engine) {}

end

/-- The arrival of a job with one document: its import and its first parse. -/
def arrival (document : NormalizedDocument) : List Step :=
  [.importJob { id := document.id, sourceJobId := document.sourceJobId },
    .storeDocuments document.id
      [{ value := document, parserName := "rch", parserVersion := "1.0", buildSha256 := "" }]]

/-! ## What the parser leaves alone -/

/-- No correlation changes, the cursor stays, identifiers are only drawn. -/
structure KeepsAnalysis (db db' : Database) : Prop where
  correlations : db'.correlations = db.correlations
  watermark : db'.watermark = db.watermark
  activeParsers : db'.activeParsers = db.activeParsers
  drawn : db.drawn ≤ db'.drawn

variable {rt : Runtime} {db : Database}

theorem KeepsAnalysis.refl (db : Database) : KeepsAnalysis db db := ⟨rfl, rfl, rfl, le_rfl⟩

theorem KeepsAnalysis.trans {a b c : Database} (h : KeepsAnalysis a b) (k : KeepsAnalysis b c) :
    KeepsAnalysis a c :=
  ⟨k.correlations.trans h.correlations, k.watermark.trans h.watermark,
    k.activeParsers.trans h.activeParsers, h.drawn.trans k.drawn⟩

theorem keepsAnalysis_upsertDocument (rt : Runtime) (db : Database) (job : PrintJob) (parsed : ParsedDocument) :
    KeepsAnalysis db (upsertDocument rt db job parsed).1 := by
  unfold upsertDocument
  split
  · exact KeepsAnalysis.refl db
  · exact ⟨rfl, rfl, rfl, Nat.le_succ _⟩

theorem keepsAnalysis_upsertParser (rt : Runtime) (db : Database) (parsed : ParsedDocument) :
    KeepsAnalysis db (upsertParser rt db parsed).1 := by
  unfold upsertParser
  split
  · exact KeepsAnalysis.refl db
  · exact ⟨rfl, rfl, rfl, Nat.le_succ _⟩

theorem keepsAnalysis_storeDocument (job : PrintJob) (parsed : ParsedDocument) :
    KeepsAnalysis db (storeDocument rt job db parsed) := by
  have hd := keepsAnalysis_upsertDocument rt db job parsed
  have hp := keepsAnalysis_upsertParser rt (upsertDocument rt db job parsed).1 parsed
  unfold storeDocument
  dsimp only
  split
  · exact hd.trans hp
  · exact (hd.trans hp).trans ⟨rfl, rfl, rfl, Nat.le_succ _⟩

theorem keepsAnalysis_storeDocuments (jobId : UUID) (documents : List ParsedDocument) :
    KeepsAnalysis db (storeDocuments rt db jobId documents) := by
  refine storeDocuments_cases (KeepsAnalysis.refl db) fun job _ => ?_
  have hfold : KeepsAnalysis db (documents.foldl (storeDocument rt job) db) :=
    invariant (KeepsAnalysis db) (fun _ parsed h => h.trans (keepsAnalysis_storeDocument job parsed))
      (KeepsAnalysis.refl db) documents
  exact hfold.trans ⟨rfl, rfl, rfl, le_rfl⟩

theorem keepsAnalysis_recordFailure (jobId : UUID) (buildHash : String) :
    KeepsAnalysis db (recordFailure db jobId buildHash) := by
  unfold recordFailure
  split
  · exact KeepsAnalysis.refl db
  · exact ⟨rfl, rfl, rfl, le_rfl⟩

end RetailPrintGuard.System
