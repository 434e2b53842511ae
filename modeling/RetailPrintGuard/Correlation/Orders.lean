import RetailPrintGuard.Correlation.OrderLines
import RetailPrintGuard.System

/-! # Order evidence

Every transaction of a correlation run is attached to an order, and the events
its documents tell are appended to the chains of that order. The session does
not flush by itself: queries see the rows of the last flush. -/
namespace RetailPrintGuard.Correlation.Orders
open RetailPrintGuard.Common.Python RetailPrintGuard.Common.Domain
open RetailPrintGuard.Correlation.Lines RetailPrintGuard.Correlation.Scoring
open RetailPrintGuard.Correlation.Engine RetailPrintGuard.Correlation.CandidateBatch
open RetailPrintGuard.Correlation.Worker RetailPrintGuard.Correlation.OrderLines
open RetailPrintGuard.Db.Models RetailPrintGuard.Library

/-! ## Events -/

/-- `OrderEventType`, the values the worker derives. -/
inductive OrderEventType where
  | orderCreated | itemAdded | itemRemoved | quantityChanged | priceChanged | discountApplied
  | discountRemoved | orderVoided | preBillPrinted | fiscalDocumentIssued | paymentRecorded
  | copyPrinted | orderClosed
deriving DecidableEq

def OrderEventType.value : OrderEventType → String
  | orderCreated => "ORDER_CREATED"
  | itemAdded => "ITEM_ADDED"
  | itemRemoved => "ITEM_REMOVED"
  | quantityChanged => "QUANTITY_CHANGED"
  | priceChanged => "PRICE_CHANGED"
  | discountApplied => "DISCOUNT_APPLIED"
  | discountRemoved => "DISCOUNT_REMOVED"
  | orderVoided => "ORDER_VOIDED"
  | preBillPrinted => "PRE_BILL_PRINTED"
  | fiscalDocumentIssued => "FISCAL_DOCUMENT_ISSUED"
  | paymentRecorded => "PAYMENT_RECORDED"
  | copyPrinted => "COPY_PRINTED"
  | orderClosed => "ORDER_CLOSED"

inductive SettlementKind where
  | roomCharge | commercialDocument
deriving DecidableEq

/-- The JSON object of an event. -/
inductive EventDetails where
  | created (documentType : DocumentType) (total : Option Money)
  | document (documentType : DocumentType) (externalDocumentCode : Option String)
      (total : Option Money)
  | payments (payments : List PaymentRecord)
  | change (change : OrderLineChange)
  | closed (fiscalTotal observedFinalTotal : Money) (settlementKind : SettlementKind)
deriving DecidableEq

def lineChangeEvent (change : OrderLineChange) : Option OrderEventType :=
  match change.changeType with
  | .added => some .itemAdded
  | .removed => some .itemRemoved
  | .quantityChanged => some .quantityChanged
  | .priceChanged => some .priceChanged
  | .discountChanged =>
    some (if change.afterDiscount.getD 0 ≤ 0 then .discountRemoved else .discountApplied)
  | .unchanged => none

/-- The event a document of some types tells by itself. -/
def documentEvent : DocumentType → Option OrderEventType
  | .preBill => some .preBillPrinted
  | .commercialDocument => some .fiscalDocumentIssued
  | .payment => some .paymentRecorded
  | .conformingCopy | .reprint => some .copyPrinted
  | .cancellation => some .orderVoided
  | _ => none

/-- A document and the version it was loaded from. -/
structure Versioned where
  value : NormalizedDocument
  versionId : UUID
deriving DecidableEq

/-- What `_desired_events` reads of a transaction. -/
structure Evidence where
  documents : List Versioned
  fiscalTotal : Money
  observedFinalTotal : Money
deriving DecidableEq

structure DesiredEvent where
  occurredAt : Timestamp
  eventType : OrderEventType
  document : Versioned
  details : EventDetails
  snapshotLines : List OrderLine
deriving DecidableEq

namespace Versioned

/-- `(_document_time(item), str(item.id))` -/
def Precedes (a b : Versioned) : Prop := a.value.Precedes b.value

instance : DecidableRel Precedes := fun _ _ => inferInstanceAs (Decidable (_ ∨ _))

def lines (document : Versioned) : List OrderLine := storedLines document.value

/-- An event told by a document, with the lines of the document. -/
def tells (document : Versioned) (eventType : OrderEventType) (details : EventDetails) :
    DesiredEvent where
  occurredAt := document.value.documentTime
  eventType
  document
  details
  snapshotLines := document.lines

end Versioned

/-- `(item[0], item[1].value, str(item[2].id))` -/
def DesiredEvent.Before (a b : DesiredEvent) : Prop :=
  a.occurredAt.micros < b.occurredAt.micros ∨ (a.occurredAt.micros = b.occurredAt.micros ∧
    (a.eventType.value < b.eventType.value ∨ (a.eventType.value = b.eventType.value ∧
      a.document.value.id ≤ b.document.value.id)))

instance : DecidableRel DesiredEvent.Before := fun _ _ => inferInstanceAs (Decidable (_ ∨ _))

def first (documents : List Versioned) : Option Versioned :=
  (documents.insertionSort Versioned.Precedes).head?

def last (documents : List Versioned) : Option Versioned :=
  (documents.insertionSort Versioned.Precedes).getLast?

def sources (documents : List Versioned) : List Versioned :=
  documents.filter fun document => sourceTypes document.value.type

def openingEvents (documents : List Versioned) : List DesiredEvent :=
  let openingSources :=
    (sources documents).filter fun document => document.value.type != .orderChange
  (first openingSources).toList.map fun document =>
    document.tells .orderCreated (.created document.value.type document.value.grossTotal)

def documentEvents (document : Versioned) : List DesiredEvent :=
  ((documentEvent document.value.type).toList.map fun eventType =>
    document.tells eventType
      (.document document.value.type document.value.externalDocumentCode
        document.value.grossTotal)) ++
  if !document.value.payments.isEmpty && document.value.type != .payment then
    [document.tells .paymentRecorded (.payments document.value.payments)]
  else []

/-! ### Comparisons -/

/-- Two states of the lines, and the document that tells the later one. -/
structure Comparison where
  before : List OrderLine
  after : List OrderLine
  document : Versioned

/-- The scan over the sources: a state for each device and table. -/
structure PosScan where
  posState : List ((String × String) × List OrderLine) := []
  comparisons : List Comparison := []
  nonPosSources : List Versioned := []

section
variable (rt : Runtime)

/-- `document.table_code.strip().upper() if document.table_code else ""` -/
def tableOf (document : NormalizedDocument) : String :=
  match document.tableCode with
  | some code => if code ≠ "" then rt.upper (rt.strip code) else ""
  | none => ""

def scanSource (scan : PosScan) (document : Versioned) : PosScan :=
  let table := tableOf rt document.value
  let stateKey := (document.value.sourceDeviceId, table)
  match document.value.type with
  | .kitchenOrder =>
    if table ≠ "" then { scan with posState := (stateKey, document.lines) :: scan.posState }
    else scan
  | .orderChange =>
    match if table ≠ "" then scan.posState.lookup stateKey else none with
    | some before =>
      let after := applyOrderChangeLines rt before document.lines
      { scan with
        posState := (stateKey, after) :: scan.posState
        comparisons := scan.comparisons ++ [⟨before, after, document⟩] }
    | none => scan
  | _ => { scan with nonPosSources := scan.nonPosSources ++ [document] }

def sourceComparisons (documents : List Versioned) : List Comparison :=
  let scan := ((sources documents).insertionSort Versioned.Precedes).foldl (scanSource rt) {}
  scan.comparisons ++ (scan.nonPosSources.zip scan.nonPosSources.tail).map fun pair =>
    ⟨pair.1.lines, pair.2.lines, pair.2⟩

def saleFiscals (documents : List Versioned) : List Versioned :=
  documents.filter fun document => fiscalTypes document.value.type && document.value.complete

def roomClosures (documents : List Versioned) : List Versioned :=
  documents.filter fun document =>
    document.value.type == .managementDocument && document.value.economicClose

def finalClosures (documents : List Versioned) : List Versioned :=
  if !(saleFiscals documents).isEmpty then saleFiscals documents else roomClosures documents

/-- A split bill is one settlement: the prebill against all final lines. -/
def finalComparison (documents : List Versioned) : List Comparison :=
  let prebill := documents.reverse.find? fun document => document.value.type == .preBill
  match prebill, last (finalClosures documents) with
  | some prebill, some final =>
    [⟨prebill.lines, (finalClosures documents).flatMap Versioned.lines, final⟩]
  | _, _ => []

def comparisonEvents (comparison : Comparison) : List DesiredEvent :=
  (compareOrderLines rt comparison.before comparison.after).filterMap fun change =>
    (lineChangeEvent change).map fun eventType =>
      { occurredAt := comparison.document.value.documentTime
        eventType
        document := comparison.document
        details := .change change
        snapshotLines := comparison.after }

/-- `seen_changes`: a change is told once. -/
def addUnseen (kept : List DesiredEvent) (event : DesiredEvent) : List DesiredEvent :=
  if kept.any fun other => other.details == event.details then kept else kept ++ [event]

def changeEvents (documents : List Versioned) : List DesiredEvent :=
  ((sourceComparisons rt documents ++ finalComparison documents).flatMap
    (comparisonEvents rt)).foldl addUnseen []

def closingEvents (evidence : Evidence) : List DesiredEvent :=
  (last (finalClosures evidence.documents)).toList.map fun document =>
    document.tells .orderClosed
      (.closed evidence.fiscalTotal evidence.observedFinalTotal
        (if document ∈ roomClosures evidence.documents then .roomCharge else .commercialDocument))

def desiredEvents (evidence : Evidence) : List DesiredEvent :=
  (openingEvents evidence.documents ++ evidence.documents.flatMap documentEvents ++
    changeEvents rt evidence.documents ++ closingEvents evidence).insertionSort DesiredEvent.Before

end

/-! ## Rows -/

structure Order where
  id : UUID
  sourceDeviceId : UUID
  businessDate : Int
  orderCode : String
deriving DecidableEq

/-- `uuid5` of `retailprintguard:event:…`, kept as the name it is of. -/
structure EventId where
  orderId : UUID
  versionId : UUID
  eventType : OrderEventType
  details : EventDetails
deriving DecidableEq

/-- `uuid5` of `retailprintguard:snapshot:…` -/
structure SnapshotId where
  event : EventId
deriving DecidableEq

/-- The payload of an event, and of a snapshot. -/
structure EventRecord where
  id : EventId
  orderId : UUID
  sourceDocumentId : UUID
  sequence : Nat
  eventType : OrderEventType
  occurredAt : Int
  operatorCode : Option String
  details : EventDetails
deriving DecidableEq

structure SnapshotRecord where
  id : SnapshotId
  orderId : UUID
  orderEventId : EventId
  sequence : Nat
  capturedAt : Int
  grossTotal : Option Money
  netTotal : Option Money
  discountTotal : Option Money
  lines : List OrderLine
deriving DecidableEq

/-- `ZERO_HASH` -/
def zeroHash {α : Type} : Digest (List α) := ⟨[]⟩

/-- `chained_hash`, kept as the payloads of the chain. -/
def chainedHash {α : Type} (payload : α) (previous : Digest (List α)) : Digest (List α) :=
  ⟨payload :: previous.preimage⟩

/-- A stored record with its two hashes. -/
structure Row (ρ : Type) where
  record : ρ
  previousRecordHash : Digest (List ρ)
  recordHash : Digest (List ρ)
deriving DecidableEq

abbrev OrderEvent := Row EventRecord

abbrev OrderSnapshot := Row SnapshotRecord

def Row.seal {ρ : Type} (record : ρ) (previous : Digest (List ρ)) : Row ρ :=
  ⟨record, previous, chainedHash record previous⟩

structure OrderStore where
  orders : List Order := []
  events : List OrderEvent := []
  snapshots : List OrderSnapshot := []
  /-- identifiers drawn for orders so far -/
  drawn : Nat := 0
deriving DecidableEq

namespace OrderStore

def eventsOf (store : OrderStore) (orderId : UUID) : List OrderEvent :=
  store.events.filter fun event => event.record.orderId == orderId

def snapshotsOf (store : OrderStore) (orderId : UUID) : List OrderSnapshot :=
  store.snapshots.filter fun snapshot => snapshot.record.orderId == orderId

/-- The orders with an event of one of the documents. -/
def linkedOrders (store : OrderStore) (documentIds : List UUID) : List Order :=
  store.orders.filter fun order =>
    (store.eventsOf order.id).any fun event => documentIds.contains event.record.sourceDocumentId

end OrderStore

section
variable (rt : Runtime)

/-- The unique key of an order; texts compare under the collation. -/
def orderKey (sourceDeviceId : UUID) (businessDate : Int) (orderCode : String) :
    UUID × Int × String := (sourceDeviceId, businessDate, rt.collation orderCode)

def Order.key (order : Order) : UUID × Int × String :=
  orderKey rt order.sourceDeviceId order.businessDate order.orderCode

/-- The primary and unique keys of the three tables. -/
structure OrderStore.Unique (store : OrderStore) : Prop where
  orderIds : (store.orders.map Order.id).Nodup
  orderKeys : (store.orders.map (Order.key rt)).Nodup
  eventIds : (store.events.map fun event => event.record.id).Nodup
  eventSequences :
    (store.events.map fun event => (event.record.orderId, event.record.sequence)).Nodup
  snapshotIds : (store.snapshots.map fun snapshot => snapshot.record.id).Nodup
  snapshotSequences :
    (store.snapshots.map fun snapshot =>
      (snapshot.record.orderId, snapshot.record.sequence)).Nodup

instance (store : OrderStore) : Decidable (store.Unique rt) :=
  decidable_of_iff
    ((store.orders.map Order.id).Nodup ∧ (store.orders.map (Order.key rt)).Nodup ∧
      (store.events.map fun event => event.record.id).Nodup ∧
      (store.events.map fun event => (event.record.orderId, event.record.sequence)).Nodup ∧
      (store.snapshots.map fun snapshot => snapshot.record.id).Nodup ∧
      (store.snapshots.map fun snapshot =>
        (snapshot.record.orderId, snapshot.record.sequence)).Nodup)
    ⟨fun h => ⟨h.1, h.2.1, h.2.2.1, h.2.2.2.1, h.2.2.2.2.1, h.2.2.2.2.2⟩,
      fun h => ⟨h.1, h.2, h.3, h.4, h.5, h.6⟩⟩

/-! ## The session -/

/-- The rows of the last flush, and what is added or changed since. -/
structure Session where
  flushed : OrderStore
  /-- order codes changed in memory -/
  renamed : List (UUID × String) := []
  newEvents : List OrderEvent := []
  newSnapshots : List OrderSnapshot := []
deriving DecidableEq

namespace Session

/-- The code of a loaded order. -/
def codeOf (session : Session) (order : Order) : String :=
  (session.renamed.lookup order.id).getD order.orderCode

/-- The rows once everything is written. -/
def written (session : Session) : OrderStore :=
  { session.flushed with
    orders := session.flushed.orders.map fun order =>
      { order with orderCode := session.codeOf order }
    events := session.flushed.events ++ session.newEvents
    snapshots := session.flushed.snapshots ++ session.newSnapshots }

/-- `session.flush()`; a key that is taken raises. -/
def flush (session : Session) : Option Session :=
  if session.written.Unique rt then some { flushed := session.written } else none

end Session

/-! ## Attaching a transaction -/

/-- What a transaction finds undetermined: which row `limit(1)` returns, and
whether price attributions were flushed before. -/
structure Choice where
  linkedOrder : Nat
  priceFlush : Bool

/-- Some row, where there is one. -/
def anyRow {α : Type} (choice : Nat) (rows : List α) : Option α := rows[choice % rows.length]?

/-- The hexadecimal digits of a number, in a field of a width. -/
def hexDigits (width n : Nat) : List Char :=
  let digits := Nat.toDigits 16 n
  List.replicate (width - digits.length) '0' ++ digits

/-- `str` on a UUID -/
def uuidText (id : UUID) : String :=
  let digits := hexDigits 32 id
  String.ofList (digits.take 8 ++ '-' :: (digits.drop 8).take 4 ++ '-' ::
    (digits.drop 12).take 4 ++ '-' :: (digits.drop 16).take 4 ++ '-' :: digits.drop 20)

def primaryOf (documents : List Versioned) : Option Versioned :=
  first (if (sources documents).isEmpty then documents else sources documents)

def orderCodeOf (documents : List Versioned) (primary : Versioned) : String :=
  ((sources documents ++ documents).findSome? fun document =>
    document.value.orderCode.filter (· ≠ "")).getD ("AUTO:" ++ uuidText primary.value.id)

/-- `_document_time(primary).astimezone(self.timezone).date()` -/
def businessDateOf (timezone : Int → Int) (document : NormalizedDocument) : Int :=
  let micros := document.documentTime.micros
  ({ micros, utcOffset := timezone micros } : Timestamp).date

/-- A new order, flushed at once. -/
def createOrder (session : Session) (deviceId : UUID) (businessDate : Int) (orderCode : String) :
    Option (UUID × Session) :=
  let order : Order :=
    { id := rt.uuid4 session.flushed.drawn
      sourceDeviceId := deviceId
      businessDate
      orderCode }
  let added : Session :=
    { session with
      flushed :=
        { session.flushed with
          orders := session.flushed.orders ++ [order]
          drawn := session.flushed.drawn + 1 } }
  (added.flush rt).map fun session => (order.id, session)

/-- A found order takes the first printed code, if no other order has it. -/
def renameOrder (session : Session) (order : Order) (deviceId : UUID) (businessDate : Int)
    (orderCode : String) : Session :=
  let collision := session.flushed.orders.any fun other =>
    other.key rt == orderKey rt deviceId businessDate orderCode && other.id != order.id
  if "AUTO:".isPrefixOf (session.codeOf order) && !"AUTO:".isPrefixOf orderCode && !collision then
    { session with renamed := (order.id, orderCode) :: session.renamed }
  else session

def upsertOrder (timezone : Int → Int) (session : Session) (documents : List Versioned)
    (deviceOf : UUID → Option UUID) (choice : Nat) : Option (UUID × Session) :=
  match primaryOf documents with
  | none => none
  | some primary =>
    match deviceOf primary.value.id with
    | none => none
    | some deviceId =>
      let orderCode := orderCodeOf documents primary
      let businessDate := businessDateOf timezone primary.value
      let linkedOrder :=
        anyRow choice (session.flushed.linkedOrders (documents.map (·.value.id)))
      let order := linkedOrder.or <| session.flushed.orders.find? fun order =>
        order.key rt == orderKey rt deviceId businessDate orderCode
      match order with
      | none => createOrder rt session deviceId businessDate orderCode
      | some order => some (order.id, renameOrder rt session order deviceId businessDate orderCode)

/-! ## Appending -/

/-- `order_by(sequence.desc()).limit(1)` -/
def latest {ρ : Type} (sequence : ρ → Nat) (rows : List (Row ρ)) : Option (Row ρ) :=
  (rows.insertionSort fun a b => sequence b.record ≤ sequence a.record).head?

/-- A chain as it grows: its last number and hash, and the rows added. -/
structure Growing (ρ : Type) where
  sequence : Nat
  hash : Digest (List ρ)
  added : List (Row ρ) := []

def Growing.start {ρ : Type} (sequence : ρ → Nat) (rows : List (Row ρ)) : Growing ρ :=
  match latest sequence rows with
  | none => { sequence := 0, hash := zeroHash }
  | some row => { sequence := sequence row.record, hash := row.recordHash }

/-- The record gets the next number, and the hash so far. -/
def Growing.append {ρ : Type} (chain : Growing ρ) (record : Nat → ρ) : Growing ρ :=
  let row := Row.seal (record (chain.sequence + 1)) chain.hash
  { sequence := chain.sequence + 1, hash := row.recordHash, added := chain.added ++ [row] }

def eventId (orderId : UUID) (event : DesiredEvent) : EventId :=
  { orderId, versionId := event.document.versionId, eventType := event.eventType,
    details := event.details }

def eventRecord (orderId : UUID) (event : DesiredEvent) (sequence : Nat) : EventRecord where
  id := eventId orderId event
  orderId
  sourceDocumentId := event.document.value.id
  sequence
  eventType := event.eventType
  occurredAt := event.occurredAt.micros
  operatorCode := event.document.value.operatorCode
  details := event.details

def snapshotRecord (orderId : UUID) (event : DesiredEvent) (sequence : Nat) : SnapshotRecord where
  id := ⟨eventId orderId event⟩
  orderId
  orderEventId := eventId orderId event
  sequence
  capturedAt := event.occurredAt.micros
  grossTotal := event.document.value.grossTotal
  netTotal := event.document.value.netTotal
  discountTotal := event.document.value.discountTotal
  lines := event.snapshotLines

/-- One desired event: a record that is stored is skipped. -/
def appendDesired (store : OrderStore) (orderId : UUID)
    (chains : Growing EventRecord × Growing SnapshotRecord) (event : DesiredEvent) :
    Growing EventRecord × Growing SnapshotRecord :=
  if store.events.any fun row => row.record.id == eventId orderId event then chains
  else
    (chains.1.append (eventRecord orderId event),
      if store.snapshots.any fun row => row.record.id == ⟨eventId orderId event⟩ then chains.2
      else chains.2.append (snapshotRecord orderId event))

/-- `_append_order_evidence`, as the rows it adds. -/
def appendOrderEvidence (session : Session) (orderId : UUID) (evidence : Evidence) :
    List OrderEvent × List OrderSnapshot :=
  let store := session.flushed
  let chains := (desiredEvents rt evidence).foldl (appendDesired store orderId)
    (.start EventRecord.sequence (store.eventsOf orderId),
      .start SnapshotRecord.sequence (store.snapshotsOf orderId))
  (chains.1.added, chains.2.added)

/-! ## A run -/

/-- A processed transaction: what it was and how many rows it added. -/
structure Processed where
  documents : List Versioned
  events : Nat
  snapshots : Nat
deriving DecidableEq

structure RunState where
  db : Database
  session : Session
  processed : List Processed := []

def evidenceOf (loaded : List LoadedDocument) (transaction : CorrelatedTransaction) : Evidence where
  documents := transaction.documents.filterMap fun document =>
    (loaded.find? fun item => item.value.id == document.id).map fun item =>
      ⟨document, item.versionId⟩
  fiscalTotal := transaction.fiscalTotal
  observedFinalTotal := transaction.observedFinalTotal

variable (engine : CorrelationEngine) (timezone : Int → Int)

/-- Whether `_persist_correlation` adds a row, which it flushes. -/
def addsCorrelation (db : Database) (transaction : CorrelatedTransaction)
    (loaded : List LoadedDocument) : Bool :=
  (db.correlations.rows.find? (sameInput transaction.transactionId
    (correlationInputFingerprint transaction.documents loaded))).isNone

def appendEvidence (session : Session) (orderId : UUID) (evidence : Evidence) (db : Database)
    (processed : List Processed) : RunState :=
  let (events, snapshots) := appendOrderEvidence rt session orderId evidence
  { db
    session :=
      { session with
        newEvents := session.newEvents ++ events
        newSnapshots := session.newSnapshots ++ snapshots }
    processed := processed ++ [⟨evidence.documents, events.length, snapshots.length⟩] }

def processTransaction (loaded : List LoadedDocument) (run : RunState)
    (item : CorrelatedTransaction × Choice) : Option RunState :=
  let (transaction, choice) := item
  let evidence := evidenceOf loaded transaction
  let deviceOf := fun id =>
    (loaded.find? fun item => item.value.id == id).map (·.databaseDeviceId)
  let session :=
    if addsCorrelation run.db transaction loaded || choice.priceFlush then run.session.flush rt
    else some run.session
  match session.bind fun session =>
    upsertOrder rt timezone session evidence.documents deviceOf choice.linkedOrder with
  | none => none
  | some (orderId, session) =>
    some (appendEvidence rt session orderId evidence
      (persistCorrelation rt engine run.db transaction loaded) run.processed)

/-- A run with the choices of its transactions; `none` is a run that raised. -/
def runOrders (db : Database) (store : OrderStore) (maxDocuments : Nat) (choices : Nat → Choice) :
    Option (Database × OrderStore × List Processed) :=
  let analysis := prepare rt engine db maxDocuments
  let items := (analysis.persisted rt engine).zipIdx.map fun item => (item.1, choices item.2)
  match items.foldlM (processTransaction rt engine timezone analysis.sales)
    { db := analysis.database, session := { flushed := store } } with
  | none => none
  | some run =>
    (run.session.flush rt).map fun session => (run.db, session.flushed, run.processed)

/-! ## The system -/

structure State where
  db : Database := {}
  store : OrderStore := {}
  /-- the transactions committed runs processed -/
  log : List Processed := []

/-- A step of the system, with the choices a correlation run meets. -/
structure Step where
  step : System.Step
  choices : Nat → Choice

/-- A run that raises is rolled back. -/
def apply (s : State) (step : Step) : State :=
  match step.step with
  | .runOnce maxDocuments =>
    match runOrders rt engine timezone s.db s.store maxDocuments step.choices with
    | some (db, store, processed) => { db, store, log := s.log ++ processed }
    | none => s
  | other => { s with db := System.apply rt engine s.db other }

def run (steps : List Step) : State := steps.foldl (apply rt engine timezone) {}

end

end RetailPrintGuard.Correlation.Orders
