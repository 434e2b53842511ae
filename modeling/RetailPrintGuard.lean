import RetailPrintGuard.Library.ConstrainedMerge
import RetailPrintGuard.Library.ListOrder
import RetailPrintGuard.Library.Paging
import RetailPrintGuard.Library.Substitution
import RetailPrintGuard.Library.Paths
import RetailPrintGuard.Library.SlidingWindow
import RetailPrintGuard.Library.Table
import RetailPrintGuard.Library.Grouping
import RetailPrintGuard.Library.Regex
import RetailPrintGuard.Library.RegexGroups
import RetailPrintGuard.Library.DecimalFloat
import RetailPrintGuard.Library.DecimalRounding
import RetailPrintGuard.Library.DecimalDivision
import RetailPrintGuard.Common.PrintedText
import RetailPrintGuard.Common.CodePages
import RetailPrintGuard.Common.Amounts
import RetailPrintGuard.Common.Python
import RetailPrintGuard.Common.Domain
import RetailPrintGuard.Correlation.Lines
import RetailPrintGuard.Correlation.Scoring
import RetailPrintGuard.Correlation.Engine
import RetailPrintGuard.Correlation.Acceptance
import RetailPrintGuard.Correlation.Partition
import RetailPrintGuard.Correlation.Locality
import RetailPrintGuard.Correlation.Separation
import RetailPrintGuard.Correlation.Auxiliary
import RetailPrintGuard.Correlation.Blocking
import RetailPrintGuard.Correlation.OrderFree
import RetailPrintGuard.Correlation.Rederivation
import RetailPrintGuard.Db.Models
import RetailPrintGuard.Correlation.CandidateBatch
import RetailPrintGuard.Correlation.Worker
import RetailPrintGuard.Library.Runs
import RetailPrintGuard.Parser.PendingJobs
import RetailPrintGuard.Parser.Repository
import RetailPrintGuard.Db.Repository
import RetailPrintGuard.Db.LineDiff
import RetailPrintGuard.Correlation.LineChanges
import RetailPrintGuard.Correlation.ScoreSymmetry
import RetailPrintGuard.Correlation.ScoreReports
import RetailPrintGuard.Correlation.Loading
import RetailPrintGuard.Correlation.Persistence
import RetailPrintGuard.System
import RetailPrintGuard.Db.TransactionView
import RetailPrintGuard.Db.TransactionTotals
import RetailPrintGuard.Correlation.Run
import RetailPrintGuard.Correlation.Membership
import RetailPrintGuard.Correlation.Neighbourhood
import RetailPrintGuard.Correlation.Current
import RetailPrintGuard.Correlation.Coverage
import RetailPrintGuard.Parser.FirstParse
import RetailPrintGuard.Parser.EscposCommands
import RetailPrintGuard.Parser.EscposSegments
import RetailPrintGuard.Library.Bitmap
import RetailPrintGuard.Parser.EscposRaster
import RetailPrintGuard.Parser.EscposSpans
import RetailPrintGuard.Parser.EscposPatterns
import RetailPrintGuard.Parser.EscposLines
import RetailPrintGuard.Parser.Escpos
import RetailPrintGuard.Parser.PrintedAmounts
import RetailPrintGuard.Parser.SegmentPartition
import RetailPrintGuard.Parser.RchPatterns
import RetailPrintGuard.Parser.RchFraming
import RetailPrintGuard.Parser.RchAccounting
import RetailPrintGuard.Parser.RchCounters
import RetailPrintGuard.Parser.RchDrafts
import RetailPrintGuard.Parser.Rch
import RetailPrintGuard.Parser.Worker
import RetailPrintGuard.Parser.Builds
import RetailPrintGuard.Parser.ActiveBuild
import RetailPrintGuard.Correlation.Arrivals
import RetailPrintGuard.Correlation.Idempotence
import RetailPrintGuard.Correlation.Episodes
import RetailPrintGuard.Correlation.Progress
import RetailPrintGuard.Correlation.SaleSeeds
import RetailPrintGuard.Correlation.Incremental
import RetailPrintGuard.Fraud.Findings
import RetailPrintGuard.Fraud.Rules
import RetailPrintGuard.Fraud.Evaluation
import RetailPrintGuard.Library.LeastOwner
import RetailPrintGuard.Fraud.Anchoring
import RetailPrintGuard.Library.CanonicalJson
import RetailPrintGuard.Library.Checks
import RetailPrintGuard.Common.Formats
import RetailPrintGuard.Library.Sha256
import RetailPrintGuard.Library.JsonSize
import RetailPrintGuard.Common.Runtime
import RetailPrintGuard.Common.Calendar
import RetailPrintGuard.Parser.Documents
import RetailPrintGuard.Proxy.Spool
import RetailPrintGuard.Proxy.Documents
import RetailPrintGuard.Proxy.SpoolRuns
import RetailPrintGuard.Proxy.Recovery
import RetailPrintGuard.Proxy.RecoveryIsolation
import RetailPrintGuard.Proxy.Crash
import RetailPrintGuard.Proxy.WriteFailure
import RetailPrintGuard.Proxy.Relay
import RetailPrintGuard.Proxy.RelayRuns
import RetailPrintGuard.Ingestion.Adapters
import RetailPrintGuard.Ingestion.Canonical
import RetailPrintGuard.Library.Tiling
import RetailPrintGuard.Library.Transaction
import RetailPrintGuard.Ingestion.Dto
import RetailPrintGuard.Ingestion.Rch
import RetailPrintGuard.Ingestion.Timeline
import RetailPrintGuard.Ingestion.Reading
import RetailPrintGuard.Ingestion.RoundTrip
import RetailPrintGuard.Ingestion.Tilings
import RetailPrintGuard.Ingestion.RchParsed
import RetailPrintGuard.Ingestion.RchWrites
import RetailPrintGuard.Db.Semantic
import RetailPrintGuard.Db.IngestStore
import RetailPrintGuard.Db.IngestRows
import RetailPrintGuard.Library.RecentlyUsed
import RetailPrintGuard.Library.Rotation
import RetailPrintGuard.Ingestion.Worker
import RetailPrintGuard.Importer.Historical
import RetailPrintGuard.Ingestion.PrintProxy
import RetailPrintGuard.Ingestion.Storable
import RetailPrintGuard.Ingestion.SessionDownloads
import RetailPrintGuard.Ingestion.Isolation
import RetailPrintGuard.Ingestion.PartialCapture
import RetailPrintGuard.Ingestion.Recovered
import RetailPrintGuard.Ingestion.Crashes
import RetailPrintGuard.Ingestion.Discovery
import RetailPrintGuard.Ingestion.Indexing
import RetailPrintGuard.Ingestion.Published
import RetailPrintGuard.Library.HashChain
import RetailPrintGuard.Library.RowLock
import RetailPrintGuard.Library.OpenTransactions
import RetailPrintGuard.Library.Periods
import RetailPrintGuard.Correlation.OrderLines
import RetailPrintGuard.Correlation.OrderChanges
import RetailPrintGuard.Correlation.Orders
import RetailPrintGuard.Correlation.OrderChains
import RetailPrintGuard.Correlation.OrderEvidence
import RetailPrintGuard.Correlation.OrderRuns
import RetailPrintGuard.Proxy.RecoveryRuns
import RetailPrintGuard.Proxy.EventNumbers
import RetailPrintGuard.Ingestion.ConcurrentImports
import RetailPrintGuard.Ingestion.AtomicImports
import RetailPrintGuard.Fraud.RuleVersions
import RetailPrintGuard.Fraud.FindingChain
import RetailPrintGuard.Common.HashChain
import RetailPrintGuard.Db.AuditChain
import RetailPrintGuard.Db.Login
import RetailPrintGuard.Ingestion.LedgerEvidence
import RetailPrintGuard.Parser.RchGrammar
import RetailPrintGuard.Parser.RchFilling
import RetailPrintGuard.Parser.RchAmounts
import RetailPrintGuard.Parser.LineAmounts
import RetailPrintGuard.Parser.Beeper
import RetailPrintGuard.Parser.EarlyBeep
import RetailPrintGuard.Parser.RchSessions
import RetailPrintGuard.Parser.RchSegmentation
import RetailPrintGuard.Parser.RchIntegrity
import RetailPrintGuard.Parser.RchLimits
import RetailPrintGuard.Ingestion.FairDiscovery
import RetailPrintGuard.Ingestion.JobHistories
import RetailPrintGuard.Library.BoundedMemory
import RetailPrintGuard.Db.Lists
import RetailPrintGuard.Render.SettledText
import RetailPrintGuard.Db.SessionRaw
import RetailPrintGuard.Pricing.Attribution
import RetailPrintGuard.Api.Auth
import RetailPrintGuard.Parser.BeeperDispatch
import RetailPrintGuard.Parser.SpoolBeeper
import RetailPrintGuard.Common.Logging
import RetailPrintGuard.Frontend.InputFields
import RetailPrintGuard.Fraud.ExcludedJobs
import RetailPrintGuard.Ingestion.RelayedDownloads
import RetailPrintGuard.Pricing.Persistence
import RetailPrintGuard.Fraud.Superseded
import RetailPrintGuard.Fraud.Calls
import RetailPrintGuard.Fraud.Polling
