import Mathlib.Algebra.Order.Ring.Rat
import Mathlib.Data.Prod.Lex
import RetailPrintGuard.Common.Python
import RetailPrintGuard.Library.Paging
import RetailPrintGuard.Library.Table

/-! # The lists of the API

Each list is a query of its own for every page. The database may return rows
that are equal under `ORDER BY` in any order, and in another one for the next
page. -/
namespace RetailPrintGuard.Db.Lists
open RetailPrintGuard.Common.Python (UUID)
open RetailPrintGuard.Library RetailPrintGuard.Library.Paging

/-! ## Rows; times in microseconds -/

/-- `FraudAlert` with the code of its rule. -/
structure AlertRow where
  id : UUID
  severity : String
  status : String
  isCanonical : Bool
  ruleCode : String
  transactionId : UUID
  correlationId : Option UUID
  openedAt : Int

/-- `PrintJob` with its device. -/
structure JobRow where
  id : UUID
  deviceId : String
  status : String
  importStatus : String
  captureComplete : Bool
  timelineComplete : Bool
  reviewState : String
  capturedAt : Int

/-- `ProxySession` with its device. -/
structure SessionRow where
  id : UUID
  deviceId : String
  startedAt : Int

structure OrderRow where
  id : UUID
  tableCode : Option String
  orderCode : String
  openedAt : Int

/-- The latest version of a document. -/
structure LatestVersion where
  type : String
  orderCode : Option String
  externalDocumentCode : Option String
  externalDocumentCodeSuffix : Option String
  commercialReferenceCode : Option String
  complete : Bool
  /-- `_document_has_business_content` -/
  hasBusinessContent : Bool

structure DocumentRow where
  id : UUID
  deviceId : String
  capturedAt : Int
  latest : Option LatestVersion

/-- The codes of a member document, by its latest version. -/
structure MemberCodes where
  tableCode : Option String
  orderCode : Option String
  operatorCode : Option String

/-- `DocumentCorrelation` -/
structure CorrelationRow where
  id : UUID
  transactionId : UUID
  /-- `_latest_transaction_occurrences`: of the latest correlation of a transaction only -/
  occurredAt : Option Int
  members : List MemberCodes
  /-- of the transaction view -/
  difference : Option ℚ

/-- The tables, with what the subqueries find in the others. -/
structure Database where
  alerts : Table AlertRow AlertRow.id
  jobs : Table JobRow JobRow.id
  sessions : Table SessionRow SessionRow.id
  orders : Table OrderRow OrderRow.id
  documents : Table DocumentRow DocumentRow.id
  correlations : Table CorrelationRow CorrelationRow.id
  /-- equality under the collation of the columns -/
  same : String → String → Bool
  /-- the occurrence of the current correlation of a transaction -/
  transactionOccurrence : UUID → Option Int
  /-- `_historical_correlation_occurrences` -/
  correlationOccurrence : UUID → Option Int
  /-- `_alert_has_device` -/
  alertHasDevice : UUID → String → Bool
  /-- `_alert_has_operator` -/
  alertHasOperator : UUID → String → Bool
  /-- a document of the job with `_operator_visible_document` -/
  jobHasVisibleDocument : UUID → Bool
  /-- `_order_has_current_correlation` -/
  orderHasCurrentCorrelation : UUID → Bool
  /-- a canonical operational alert of an economic rule with a difference above zero -/
  transactionIsEconomic : UUID → Bool

/-! ## Filters -/

/-- A filter that is not given, or empty, lets everything through. -/
def allows (filter : Option String) (condition : String → Bool) : Bool :=
  match filter with
  | none => true
  | some text => text == "" || condition text

/-- A column that may be null equals no filter then. -/
def equals (db : Database) (column : Option String) (text : String) : Bool :=
  column.any (db.same · text)

/-- The bounds `from` and `to` on a time. -/
def within (since until_ : Option Int) (time : Int) : Bool :=
  since.all (· ≤ time) && until_.all (time < ·)

structure AlertFilters where
  severity : Option String := none
  status : Option String := none
  view : Option String := none
  since : Option Int := none
  until_ : Option Int := none
  rule : Option String := none
  deviceId : Option String := none
  operatorCode : Option String := none

structure JobFilters where
  deviceId : Option String := none
  status : Option String := none
  incomplete : Option Bool := none
  includeTechnical : Bool := false
  since : Option Int := none
  until_ : Option Int := none
  reviewState : Option String := none

structure OrderFilters where
  tableCode : Option String := none
  orderCode : Option String := none

structure DocumentFilters where
  type : Option String := none
  excludeType : Option String := none
  includeTechnical : Bool := false
  deviceId : Option String := none
  orderCode : Option String := none
  externalDocumentCode : Option String := none
  externalDocumentCodeSuffix : Option String := none
  commercialReferenceCode : Option String := none
  since : Option Int := none
  until_ : Option Int := none

structure TransactionFilters where
  tableCode : Option String := none
  orderCode : Option String := none
  operatorCode : Option String := none
  operationalEconomicOnly : Bool := false
  since : Option Int := none
  until_ : Option Int := none
  minimumDifference : Option ℚ := none
  reductionOnly : Bool := false

/-! ## Matching rows -/

def operationalAlertStates : List String := ["OPEN", "UNDER_REVIEW", "CONFIRMED"]

def archivedAlertStates : List String := ["FALSE_POSITIVE", "JUSTIFIED", "CLOSED"]

variable (db : Database)

/-- The time of the sale an alert is about, as its view has it. -/
def alertOccurrence (filters : AlertFilters) (alert : AlertRow) : Option Int :=
  if filters.view = some "operational" then db.transactionOccurrence alert.transactionId
  else alert.correlationId.bind db.correlationOccurrence

def matchingAlerts (filters : AlertFilters) : List AlertRow :=
  db.alerts.rows.filter fun alert =>
    alert.isCanonical &&
    allows filters.severity (db.same alert.severity) &&
    allows filters.status (db.same alert.status) &&
    (if filters.view = some "operational" then operationalAlertStates.any (db.same alert.status)
      else if filters.view = some "archive" then archivedAlertStates.any (db.same alert.status)
      else true) &&
    ((filters.since.isNone && filters.until_.isNone) ||
      (alertOccurrence db filters alert).any (within filters.since filters.until_)) &&
    allows filters.rule (db.same alert.ruleCode) &&
    allows filters.deviceId (db.alertHasDevice alert.id) &&
    allows filters.operatorCode (db.alertHasOperator alert.id)

/-- `_incomplete_job_predicate` -/
def incompleteJob (job : JobRow) : Bool :=
  !job.captureComplete || !job.timelineComplete ||
    ["FAILED", "INCOMPLETE", "MALFORMED"].any (db.same job.status) ||
    ["FAILED", "QUARANTINED", "PARSE_RETRY", "PARSE_FAILED"].any (db.same job.importStatus)

/-- `_job_has_operator_relevant_content` -/
def relevantJob (job : JobRow) : Bool :=
  !(["PARSED", "PARSE_EMPTY"].any (db.same job.importStatus)) || db.jobHasVisibleDocument job.id

def matchingJobs (filters : JobFilters) : List JobRow :=
  db.jobs.rows.filter fun job =>
    allows filters.deviceId (db.same job.deviceId) &&
    allows filters.status (db.same job.status) &&
    (match filters.incomplete with
      | some true => incompleteJob db job && (filters.includeTechnical || relevantJob db job)
      | some false => !incompleteJob db job
      | none => true) &&
    within filters.since filters.until_ job.capturedAt &&
    allows filters.reviewState (db.same job.reviewState)

def matchingSessions (deviceId : Option String) : List SessionRow :=
  db.sessions.rows.filter fun item => allows deviceId (db.same item.deviceId)

def matchingOrders (filters : OrderFilters) : List OrderRow :=
  db.orders.rows.filter fun order =>
    db.orderHasCurrentCorrelation order.id &&
    allows filters.tableCode (equals db order.tableCode) &&
    allows filters.orderCode (db.same order.orderCode)

/-- The condition on the type of a document. -/
def allowsType (filters : DocumentFilters) (type : String) : Bool :=
  if filters.type.any (· ≠ "") then allows filters.type (db.same type)
  else if filters.excludeType.any (· ≠ "") then
    allows filters.excludeType fun excluded => !db.same type excluded
  else filters.includeTechnical || !db.same type "DEVICE_RESPONSE"

def matchingDocuments (filters : DocumentFilters) : List DocumentRow :=
  db.documents.rows.filter fun document => document.latest.any fun version =>
    allowsType db filters version.type &&
    (filters.includeTechnical || version.complete || version.hasBusinessContent) &&
    allows filters.deviceId (db.same document.deviceId) &&
    allows filters.orderCode (equals db version.orderCode) &&
    allows filters.externalDocumentCode (equals db version.externalDocumentCode) &&
    allows filters.externalDocumentCodeSuffix (equals db version.externalDocumentCodeSuffix) &&
    allows filters.commercialReferenceCode (equals db version.commercialReferenceCode) &&
    within filters.since filters.until_ document.capturedAt

/-- One member has all the codes that are asked for. -/
def hasMember (filters : TransactionFilters) (correlation : CorrelationRow) : Bool :=
  [filters.tableCode, filters.orderCode, filters.operatorCode].all
      (fun code => !code.any (· ≠ "")) ||
    correlation.members.any fun member =>
      allows filters.tableCode (equals db member.tableCode) &&
      allows filters.orderCode (equals db member.orderCode) &&
      allows filters.operatorCode (equals db member.operatorCode)

/-- What the query of the transactions selects. -/
def selectedTransactions (filters : TransactionFilters) : List CorrelationRow :=
  db.correlations.rows.filter fun correlation =>
    correlation.occurredAt.any (within filters.since filters.until_) &&
    hasMember db filters correlation &&
    (!filters.operationalEconomicOnly || db.transactionIsEconomic correlation.transactionId)

/-- The filters on the difference, which only the view knows. -/
def keepsDifference (filters : TransactionFilters) (correlation : CorrelationRow) : Bool :=
  let minimum := filters.minimumDifference.getD 0
  correlation.difference.any fun difference =>
    (if filters.reductionOnly then minimum ≤ difference else minimum ≤ |difference|) &&
    (!filters.reductionOnly || 0 < difference)

def matchingTransactions (filters : TransactionFilters) : List CorrelationRow :=
  if filters.minimumDifference.isNone && !filters.reductionOnly then selectedTransactions db filters
  else (selectedTransactions db filters).filter (keepsDifference filters)

/-! ## Lists -/

/-- A page of rows and the total; `_page` refuses other limits. -/
def Listed {α κ : Type} [LinearOrder κ] (key : α → κ) (rows : List α) (limit offset : Nat)
    (result : List α × Nat) : Prop :=
  (1 ≤ limit ∧ limit ≤ 10000) ∧ Selects key rows limit offset result.1 ∧ result.2 = rows.length

/-- `ORDER BY opened_at DESC` -/
def alertKey (alert : AlertRow) : Intᵒᵈ := OrderDual.toDual alert.openedAt

/-- `ORDER BY captured_at DESC` -/
def jobKey (job : JobRow) : Intᵒᵈ := OrderDual.toDual job.capturedAt

/-- `ORDER BY started_at DESC` -/
def sessionKey (item : SessionRow) : Intᵒᵈ := OrderDual.toDual item.startedAt

/-- `ORDER BY opened_at DESC` -/
def orderKey (order : OrderRow) : Intᵒᵈ := OrderDual.toDual order.openedAt

/-- `ORDER BY captured_at DESC, id` -/
def documentKey (document : DocumentRow) : Intᵒᵈ ×ₗ Nat :=
  toLex (OrderDual.toDual document.capturedAt, document.id)

/-- `ORDER BY occurred_at DESC, id DESC` -/
def transactionKey (correlation : CorrelationRow) : Intᵒᵈ ×ₗ Natᵒᵈ :=
  toLex (OrderDual.toDual (correlation.occurredAt.getD 0), OrderDual.toDual correlation.id)

/-- `list_alerts` -/
def ListsAlerts (filters : AlertFilters) := Listed alertKey (matchingAlerts db filters)

/-- `list_jobs` -/
def ListsJobs (filters : JobFilters) := Listed jobKey (matchingJobs db filters)

/-- `list_sessions` -/
def ListsSessions (deviceId : Option String) := Listed sessionKey (matchingSessions db deviceId)

/-- `list_orders` -/
def ListsOrders (filters : OrderFilters) := Listed orderKey (matchingOrders db filters)

/-- `list_documents` -/
def ListsDocuments (filters : DocumentFilters) := Listed documentKey (matchingDocuments db filters)

/-- `list_transactions`: the filters on the difference are applied to all rows, before
the page is cut. -/
def ListsTransactions (filters : TransactionFilters) (limit offset : Nat)
    (result : List CorrelationRow × Nat) : Prop :=
  if filters.minimumDifference.isNone && !filters.reductionOnly then
    Listed transactionKey (selectedTransactions db filters) limit offset result
  else
    (1 ≤ limit ∧ limit ≤ 10000) ∧ ∃ l, Arranged transactionKey (selectedTransactions db filters) l ∧
      result = (pageAt offset limit (l.filter (keepsDifference filters)),
        (l.filter (keepsDifference filters)).length)

/-- However the ties are broken, the pages have every matching row exactly once, and
each page tells how many there are. -/
def PagesCover {α : Type} (lists : Nat → Nat → List α × Nat → Prop) (rows : List α)
    (size : Nat) : Prop :=
  ∀ pages : Nat → List α × Nat, (∀ k, lists size (k * size) (pages k)) →
    (∀ k, (pages k).2 = rows.length) ∧
      ∀ n, rows.length ≤ n * size → ((List.range n).flatMap fun k => (pages k).1).Perm rows

/-! ## One order for all pages -/

section
variable {α κ : Type} {key : α → κ} {rows : List α} {size : Nat}

/-- Rows of a table, whose `ORDER BY` ends with the primary key. -/
theorem nodup_keys_of_id {ρ : α → UUID} (table : Table α ρ) (keep : α → Bool) (id : κ → UUID)
    (hid : ∀ row, id (key row) = ρ row) : ((table.rows.filter keep).map key).Nodup := by
  have hids : ((table.rows.map key).map id).Nodup := by
    rw [List.map_map, show id ∘ key = ρ from funext hid]
    exact table.primaryKey
  exact (hids.of_map id).sublist (List.filter_sublist.map key)

variable [LinearOrder κ]

theorem pagesCover_iff (hlow : 1 ≤ size) (hhigh : size ≤ 10000) :
    PagesCover (Listed key rows) rows size ↔ CoversOnce key rows size := by
  constructor
  · intro h pages hpages n hn
    exact (h (fun k => (pages k, rows.length)) fun k => ⟨⟨hlow, hhigh⟩, hpages k, rfl⟩).2 n hn
  · intro h pages hpages
    exact ⟨fun k => (hpages k).2.2, h _ fun k => (hpages k).2.1⟩

/-- Rows of a table, whose `ORDER BY` is on a time only. -/
theorem pagesCover_iff_untied {ρ : α → UUID} (table : Table α ρ) (keep : α → Bool)
    (hlow : 1 ≤ size) (hhigh : size ≤ 10000) :
    PagesCover (Listed key (table.rows.filter keep)) (table.rows.filter keep) size ↔
      Untied key (table.rows.filter keep) size := by
  have hnodup : (table.rows.filter keep).Nodup := (table.primaryKey.of_map ρ).filter keep
  exact (pagesCover_iff hlow hhigh).trans (coversOnce_iff hlow hnodup)

theorem pagesCover_of_nodup (hlow : 1 ≤ size) (hhigh : size ≤ 10000)
    (hnodup : (rows.map key).Nodup) : PagesCover (Listed key rows) rows size :=
  (pagesCover_iff hlow hhigh).mpr (coversOnce_of_untied (untied_of_nodup hlow hnodup))

end

theorem documents_cover (filters : DocumentFilters) {size : Nat} (hlow : 1 ≤ size)
    (hhigh : size ≤ 10000) :
    PagesCover (ListsDocuments db filters) (matchingDocuments db filters) size :=
  pagesCover_of_nodup hlow hhigh
    (nodup_keys_of_id db.documents _ (fun key => (ofLex key).2) fun _ => rfl)

theorem matchingTransactions_eq (filters : TransactionFilters) :
    ∃ keep, matchingTransactions db filters = db.correlations.rows.filter keep := by
  unfold matchingTransactions
  split
  · exact ⟨_, rfl⟩
  · exact ⟨_, by rw [selectedTransactions, List.filter_filter]⟩

/-- A page cut from the views that are left is one of a query for these rows. -/
theorem ListsTransactions.listed {filters : TransactionFilters} {limit offset : Nat}
    {result : List CorrelationRow × Nat} (h : ListsTransactions db filters limit offset result) :
    Listed transactionKey (matchingTransactions db filters) limit offset result := by
  unfold ListsTransactions at h
  unfold matchingTransactions
  split
  case isTrue hplain =>
    rw [if_pos hplain] at h
    exact h
  case isFalse hderived =>
    rw [if_neg hderived] at h
    obtain ⟨hlimit, l, hl, rfl⟩ := h
    have hkept := hl.filter (keepsDifference filters)
    exact ⟨hlimit, ⟨_, hkept, rfl⟩, hkept.perm.length_eq⟩

theorem transactions_cover (filters : TransactionFilters) {size : Nat} (hlow : 1 ≤ size)
    (hhigh : size ≤ 10000) :
    PagesCover (ListsTransactions db filters) (matchingTransactions db filters) size := by
  intro pages hpages
  obtain ⟨keep, hkeep⟩ := matchingTransactions_eq db filters
  have hnodup : ((matchingTransactions db filters).map transactionKey).Nodup := by
    rw [hkeep]
    exact nodup_keys_of_id db.correlations keep (fun key => OrderDual.ofDual (ofLex key).2)
      fun _ => rfl
  exact pagesCover_of_nodup hlow hhigh hnodup pages fun k => (hpages k).listed

/-! ## The pages of each list -/

/-- The lists whose order is a time only have each row once unless the boundary of
a page separates two rows with one time. -/
theorem pages_cover_iff_untied (alerts : AlertFilters) (jobs : JobFilters)
    (sessions : Option String) (orders : OrderFilters) (documents : DocumentFilters)
    (transactions : TransactionFilters) (size : Nat) (hlow : 1 ≤ size) (hhigh : size ≤ 10000) :
    (PagesCover (ListsAlerts db alerts) (matchingAlerts db alerts) size ↔
      Untied alertKey (matchingAlerts db alerts) size) ∧
    (PagesCover (ListsJobs db jobs) (matchingJobs db jobs) size ↔
      Untied jobKey (matchingJobs db jobs) size) ∧
    (PagesCover (ListsSessions db sessions) (matchingSessions db sessions) size ↔
      Untied sessionKey (matchingSessions db sessions) size) ∧
    (PagesCover (ListsOrders db orders) (matchingOrders db orders) size ↔
      Untied orderKey (matchingOrders db orders) size) ∧
    PagesCover (ListsDocuments db documents) (matchingDocuments db documents) size ∧
    PagesCover (ListsTransactions db transactions) (matchingTransactions db transactions) size :=
  ⟨pagesCover_iff_untied db.alerts _ hlow hhigh, pagesCover_iff_untied db.jobs _ hlow hhigh,
    pagesCover_iff_untied db.sessions _ hlow hhigh, pagesCover_iff_untied db.orders _ hlow hhigh,
    documents_cover db documents hlow hhigh, transactions_cover db transactions hlow hhigh⟩

/-- Two alerts and nothing else. -/
private def twoAlerts (first second : Int) : Database where
  alerts :=
    { rows :=
        [{ id := 1, severity := "HIGH", status := "OPEN", isCanonical := true, ruleCode := "VOID",
           transactionId := 1, correlationId := none, openedAt := first },
         { id := 2, severity := "HIGH", status := "OPEN", isCanonical := true, ruleCode := "VOID",
           transactionId := 2, correlationId := none, openedAt := second }]
      primaryKey := by simp }
  jobs := .empty
  sessions := .empty
  orders := .empty
  documents := .empty
  correlations := .empty
  same := (· == ·)
  transactionOccurrence := fun _ => none
  correlationOccurrence := fun _ => none
  alertHasDevice := fun _ _ => false
  alertHasOperator := fun _ _ => false
  jobHasVisibleDocument := fun _ => false
  orderHasCurrentCorrelation := fun _ => false
  transactionIsEconomic := fun _ => false

theorem pages_cover_two_alerts : (1 ≤ 1 ∧ 1 ≤ 10000) ∧
    (PagesCover (ListsAlerts (twoAlerts 5 3) {}) (matchingAlerts (twoAlerts 5 3) {}) 1 ↔
      Untied alertKey (matchingAlerts (twoAlerts 5 3) {}) 1) :=
  ⟨by decide, (pages_cover_iff_untied (twoAlerts 5 3) {} {} none {} {} {} 1 (by decide)
    (by decide)).1⟩

/-- Two alerts opened at one time, on pages of one. -/
theorem not_pages_cover_one_time : ¬ ∀ (db : Database) (filters : AlertFilters) (size : Nat),
    1 ≤ size → size ≤ 10000 →
      PagesCover (ListsAlerts db filters) (matchingAlerts db filters) size := by
  intro h
  have hcovers := h (twoAlerts 5 5) {} 1 (by decide) (by decide)
  have huntied := (pagesCover_iff_untied (twoAlerts 5 5).alerts _
    (by decide) (by decide)).mp hcovers
  exact huntied 1 (by decide) (by decide) (by decide)

end RetailPrintGuard.Db.Lists
