import RetailPrintGuard.Correlation.Scoring
import RetailPrintGuard.Library.ConstrainedMerge

/-! # The correlation engine

Candidate pairs are scored once, sorted by strength and merged greedily under
the episode constraints; auxiliary documents are attached last, each to its
best target. -/
namespace RetailPrintGuard.Correlation.Engine
open RetailPrintGuard.Common.Python RetailPrintGuard.Common.Domain
open RetailPrintGuard.Library.ConstrainedMerge RetailPrintGuard.Library.ListOrder
open RetailPrintGuard.Correlation.Lines RetailPrintGuard.Correlation.Scoring

/-- `ALGORITHM_VERSION` -/
def algorithmVersion : String := "rpg-correlation-1.5.0"

/-- `by_id`: a dictionary keeps the last document of an id. -/
def byId (documents : List NormalizedDocument) (id : UUID) : Option NormalizedDocument :=
  documents.reverse.find? fun document => document.id == id

/-! ## Acceptance of a component -/

/-- `max(times) - min(times)`, in microseconds. -/
def timeSpan (documents : List NormalizedDocument) : Int :=
  let times := documents.map fun item => item.documentTime.micros
  times.max?.getD 0 - times.min?.getD 0

/-- The kitchen tickets and management baselines that open an episode. -/
def openingSource (item : NormalizedDocument) : Bool :=
  item.type == .kitchenOrder || (item.type == .managementDocument && isPrebillSource item)

section
variable (rt : Runtime)

def pairwiseCompatible (proposed : List NormalizedDocument) : Bool :=
  (orderedPairs proposed).all fun pair =>
    (identityConflict rt pair.1 pair.2).isNone && (episodeBoundaryConflict pair.1 pair.2).isNone

/-- A single-link chain of kitchen tickets is not one dispatch. -/
def kitchenChain (proposed : List NormalizedDocument) : Bool :=
  !proposed.isEmpty && proposed.all (fun item => item.type == .kitchenOrder) &&
    seconds crossDepartmentWindowSeconds < timeSpan proposed

/-- Nor does a chain of tickets and baselines join repeated table episodes. -/
def baselineChain (proposed : List NormalizedDocument) : Bool :=
  let openingSources := proposed.filter openingSource
  openingSources.any (fun item => item.type == .kitchenOrder) &&
    openingSources.any (fun item => item.type == .managementDocument) &&
    decide (seconds kitchenBaselineWindowSeconds < timeSpan openingSources) &&
    !sharedStrongSaleIdentity rt openingSources

/-- The tests `union` makes before it joins two components. -/
def acceptable (proposed : List NormalizedDocument) : Bool :=
  pairwiseCompatible rt proposed && !kitchenChain proposed && !baselineChain rt proposed

/-- The same on ids. -/
def accept (documents : List NormalizedDocument) (proposedIds : List UUID) : Bool :=
  acceptable rt (proposedIds.filterMap (byId documents))

end

/-! ## Edges -/

structure Edge where
  left : NormalizedDocument
  right : NormalizedDocument
  pairScore : PairScore

namespace Edge

def score (edge : Edge) : Nat := edge.pairScore.score

def delta (edge : Edge) : Nat := timeDelta edge.left edge.right

def ids (edge : Edge) : UUID × UUID := (edge.left.id, edge.right.id)

/-- `(-score, delta, f"{left_id}:{right_id}")`, the order core edges are
merged in. -/
def Before (a b : Edge) : Prop :=
  b.score < a.score ∨ (a.score = b.score ∧ (a.delta < b.delta ∨ (a.delta = b.delta ∧
    (a.left.id < b.left.id ∨ (a.left.id = b.left.id ∧ a.right.id ≤ b.right.id)))))

instance : DecidableRel Before := fun _ _ => inferInstanceAs (Decidable (_ ∨ _))

instance : Std.Total Before where
  total a b := by unfold Before; grind

instance : IsTrans Edge Before where
  trans a b c := by unfold Before; grind

/-- Neither end is auxiliary. -/
def core (edge : Edge) : Bool := !isAuxiliary edge.left && !isAuxiliary edge.right

/-- Exactly one end is auxiliary. -/
def attaching (edge : Edge) : Bool := isAuxiliary edge.left ^^ isAuxiliary edge.right

/-- The auxiliary end of an attaching edge. -/
def auxiliary (edge : Edge) : NormalizedDocument :=
  if isAuxiliary edge.left then edge.left else edge.right

/-- The other end. -/
def target (edge : Edge) : NormalizedDocument :=
  if isAuxiliary edge.left then edge.right else edge.left

/-- `(-score, delta, str(target_id))`, the order an auxiliary document picks
its target by. -/
def Closer (a b : Edge) : Prop :=
  b.score < a.score ∨ (a.score = b.score ∧ (a.delta < b.delta ∨ (a.delta = b.delta ∧
    a.target.id ≤ b.target.id)))

instance : DecidableRel Closer := fun _ _ => inferInstanceAs (Decidable (_ ∨ _))

instance : Std.Total Closer where
  total a b := by unfold Closer; grind

instance : IsTrans Edge Closer where
  trans a b c := by unfold Closer; grind

end Edge

/-- `sorted(pair, key=str)` -/
def orient (pair : UUID × UUID) : UUID × UUID := (min pair.1 pair.2, max pair.1 pair.2)

/-- The order of sorted pairs of ids. -/
def PairBefore (a b : UUID × UUID) : Prop := a.1 < b.1 ∨ (a.1 = b.1 ∧ a.2 ≤ b.2)

instance : DecidableRel PairBefore := fun _ _ => inferInstanceAs (Decidable (_ ∨ _))

/-- The candidate pairs of known documents, each once. -/
def uniquePairs (documents : List NormalizedDocument) (candidatePairs : List (UUID × UUID)) :
    List (UUID × UUID) :=
  let known := candidatePairs.filter fun pair =>
    pair.1 != pair.2 && (byId documents pair.1).isSome && (byId documents pair.2).isSome
  (known.map orient).dedup.insertionSort PairBefore

section
variable (rt : Runtime) (engine : CorrelationEngine) (documents : List NormalizedDocument)

/-- The pair of two known ids, scored. -/
def scoredEdge (pair : UUID × UUID) : Option Edge :=
  match byId documents pair.1, byId documents pair.2 with
  | some left, some right =>
    some { left, right, pairScore := engine.scoreCandidatePair rt left right }
  | _, _ => none

def edges (candidatePairs : List (UUID × UUID)) : List Edge :=
  (uniquePairs documents candidatePairs).filterMap (scoredEdge rt engine documents)

variable (scored : List Edge)

/-- The edges that reach the minimum score. -/
def linking : List Edge := scored.filter fun edge => engine.minimumScore ≤ edge.score

def coreEdges : List Edge := ((linking engine scored).filter Edge.core).insertionSort Edge.Before

def auxiliaryEdges : List Edge := (linking engine scored).filter Edge.attaching

/-- `min(candidates)` of one auxiliary document. -/
def bestTarget (auxiliaryId : UUID) : Option (UUID × UUID) :=
  let candidates :=
    (auxiliaryEdges engine scored).filter fun edge => edge.auxiliary.id == auxiliaryId
  (candidates.insertionSort Edge.Closer).head?.map fun edge => (auxiliaryId, edge.target.id)

/-- One parent for each auxiliary document, in the order of their ids. -/
def attachments : List (UUID × UUID) :=
  let auxiliaryIds := (auxiliaryEdges engine scored).map fun edge => edge.auxiliary.id
  (auxiliaryIds.dedup.insertionSort (· ≤ ·)).filterMap (bestTarget engine scored)

/-- The unions in the order they are tried. -/
def mergeOrder : List (UUID × UUID) :=
  (coreEdges engine scored).map Edge.ids ++ attachments engine scored

def components : Components UUID :=
  mergeAll (accept rt documents) (mergeOrder engine scored) .start

end

/-! ## Transactions -/

structure CorrelationResult where
  transactionId : UUID
  documentIds : List UUID
  score : Nat
  algorithmVersion : String
  matchedCriteria : List String
  unmatchedCriteria : List String
  explanation : String
deriving DecidableEq

structure TimelineEntry where
  documentId : UUID
  documentType : DocumentType
  occurredAt : Timestamp
  grossTotal : Option Money
  sourceDeviceId : String
  sourceJobId : String
deriving DecidableEq

structure CorrelatedTransaction where
  transactionId : UUID
  correlation : Option CorrelationResult
  documents : List NormalizedDocument
  prebillTotal : Option Money
  fiscalTotal : Money
  observedFinalTotal : Money
  paymentTotal : Money
  differenceAmount : Option Money
  differencePercent : Option Int
  splitPayment : Bool
  lineChanges : List LineChange
  timeline : List TimelineEntry
deriving DecidableEq

def CorrelatedTransaction.ids (transaction : CorrelatedTransaction) : List UUID :=
  transaction.documents.map (·.id)

/-- Fiscal payments, else explicit payment documents, else every payment. -/
def authoritativePayments (documents fiscalDocuments : List NormalizedDocument) :
    List PaymentRecord :=
  let fiscalPayments := fiscalDocuments.flatMap (·.payments)
  let explicitPayments :=
    (documents.filter fun document => document.type == .payment).flatMap (·.payments)
  if !fiscalPayments.isEmpty then fiscalPayments
  else if !explicitPayments.isEmpty then explicitPayments
  else documents.flatMap (·.payments)

/-- `sorted` on a set of texts. -/
def sortedTexts (texts : List String) : List String := texts.dedup.insertionSort (· ≤ ·)

/-- `sum(_total(document) or ZERO for document in documents)` -/
def totalOf (documents : List NormalizedDocument) : Money :=
  (documents.map fun document => document.total.getD 0).sum

section
variable (rt : Runtime)

/-- `uuid5` of the algorithm version and the sorted member ids. -/
def transactionId (documents : List NormalizedDocument) : UUID :=
  rt.uuid5 ((documents.map (·.id)).insertionSort (· ≤ ·))

/-- The scored pairs inside a group that reach the minimum. -/
def relevantEdges (engine : CorrelationEngine) (scored : List Edge)
    (documents : List NormalizedDocument) : List PairScore :=
  (orderedPairs documents).filterMap fun pair =>
    ((linking engine scored).find? fun edge =>
      edge.ids == orient (pair.1.id, pair.2.id)).map Edge.pairScore

def contribution (relevant : List PairScore) (document : NormalizedDocument) : Nat :=
  ((relevant.filter fun edge =>
    edge.leftId == document.id || edge.rightId == document.id).map PairScore.score).max?.getD 0

def correlationResult (engine : CorrelationEngine) (scored : List Edge)
    (documents : List NormalizedDocument) : Option CorrelationResult :=
  if documents.length ≤ 1 then none
  else
    let relevant := relevantEdges engine scored documents
    let criteria := relevant.flatMap PairScore.criteria
    let score := (documents.map (contribution relevant)).min?.getD 0
    let matched := sortedTexts ((criteria.filter Criterion.matched).map Criterion.name)
    let unmatched := sortedTexts <|
      ((criteria.filter fun criterion => !criterion.matched).map Criterion.name).filter fun name =>
        !matched.contains name
    let evidenceDetails := sortedTexts ((criteria.filter Criterion.matched).map Criterion.detail)
    some
      { transactionId := transactionId rt documents
        documentIds := documents.map (·.id)
        score
        algorithmVersion
        matchedCriteria := matched
        unmatchedCriteria := unmatched
        explanation :=
          toString documents.length ++ " documenti collegati con punteggio minimo " ++
            toString score ++ "; criteri: " ++ ", ".intercalate matched ++ "; evidenze: " ++
            "; ".intercalate evidenceDetails }

/-- The commercial documents that count: complete, with a total. -/
def validFiscalDocuments (documents : List NormalizedDocument) : List NormalizedDocument :=
  documents.filter fun document =>
    fiscalTypes document.type && document.complete && document.total.isSome

/-- The comparison baseline: the last prebill not after the first fiscal
document, or else a management document tied to it by table and lines. -/
def prebillOf (documents : List NormalizedDocument) : Option NormalizedDocument :=
  let firstFiscal := (validFiscalDocuments documents).head?
  let notAfter (document fiscal : NormalizedDocument) : Bool :=
    document.documentTime.micros ≤ fiscal.documentTime.micros
  let prebillCandidates := documents.filter fun document =>
    document.type == .preBill && firstFiscal.all (notAfter document)
  match prebillCandidates.getLast?, firstFiscal with
  | some prebill, _ => some prebill
  | none, none => none
  | none, some fiscal =>
    let fiscalTable := rt.normalise fiscal.tableCode
    let managementCandidates := documents.filter fun document =>
      isPrebillSource document && document.type == .managementDocument &&
        notAfter document fiscal && fiscalTable.isSome &&
        rt.normalise document.tableCode == fiscalTable &&
        !(sharedItems rt document.lines fiscal.lines).isEmpty
    managementCandidates.getLast?

/-- The documents that close the sale economically. -/
def economicClosures (documents : List NormalizedDocument) (prebill : Option NormalizedDocument) :
    List NormalizedDocument :=
  let valid := validFiscalDocuments documents
  if !valid.isEmpty then valid
  else
    documents.filter fun document =>
      document.type == .managementDocument && prebill.map (·.id) != some document.id &&
        document.total.isSome && document.economicClose

def buildTransaction (engine : CorrelationEngine) (scored : List Edge)
    (group : List NormalizedDocument) : CorrelatedTransaction :=
  let documents := group.insertionSort NormalizedDocument.Precedes
  let valid := validFiscalDocuments documents
  let prebill := prebillOf rt documents
  let prebillTotal := prebill.bind NormalizedDocument.total
  let closures := economicClosures documents prebill
  let difference := prebillTotal.map fun total => total - totalOf closures
  let finalLines := closures.flatMap (·.lines)
  { transactionId := transactionId rt documents
    correlation := correlationResult rt engine scored documents
    documents
    prebillTotal
    fiscalTotal := totalOf valid
    observedFinalTotal := totalOf closures
    paymentTotal := ((authoritativePayments documents valid).map PaymentRecord.amount).sum
    differenceAmount := difference
    differencePercent :=
      match difference, prebillTotal with
      | some difference, some total =>
        if total = 0 then none else some (roundHalfEven (difference * 1000000) total)
      | _, _ => none
    splitPayment := 1 < valid.length && 0 < totalOf valid
    lineChanges :=
      match prebill with
      | some prebill =>
        if !prebill.lines.isEmpty && !finalLines.isEmpty then
          compareDocumentLines rt prebill.lines finalLines
        else []
      | none => []
    timeline := documents.map fun document =>
      { documentId := document.id
        documentType := document.type
        occurredAt := document.documentTime
        grossTotal := document.total
        sourceDeviceId := document.sourceDeviceId
        sourceJobId := document.sourceJobId } }

/-- `(timeline[0].occurred_at, str(transaction_id))` -/
def CorrelatedTransaction.Before (a b : CorrelatedTransaction) : Prop :=
  let time (transaction : CorrelatedTransaction) : Int :=
    (transaction.timeline.head?.map fun entry => entry.occurredAt.micros).getD 0
  time a < time b ∨ (time a = time b ∧ a.transactionId ≤ b.transactionId)

instance : DecidableRel CorrelatedTransaction.Before :=
  fun _ _ => inferInstanceAs (Decidable (_ ∨ _))

/-- `sorted(documents, key=...)` -/
def sortDocuments (documents : List NormalizedDocument) : List NormalizedDocument :=
  documents.insertionSort NormalizedDocument.Precedes

/-- The documents of each component, by representative. -/
def groups (partition : Components UUID) (ordered : List NormalizedDocument) :
    List (List NormalizedDocument) :=
  let roots := (ordered.map fun document => partition.find document.id).dedup
  (roots.insertionSort (· ≤ ·)).map fun root =>
    ordered.filter fun document => partition.find document.id == root

/-- The transactions before their results are validated, see
`correlatePairsChecked`. -/
def correlatePairs (engine : CorrelationEngine) (ordered : List NormalizedDocument)
    (candidatePairs : List (UUID × UUID)) : List CorrelatedTransaction :=
  let scored := edges rt engine ordered candidatePairs
  let transactions := (groups (components rt engine ordered scored) ordered).map
    (buildTransaction rt engine scored)
  transactions.insertionSort CorrelatedTransaction.Before

/-- Every pair of the documents, in time order. -/
def allPairs (ordered : List NormalizedDocument) : List (UUID × UUID) :=
  (orderedPairs ordered).map fun pair => (pair.1.id, pair.2.id)

def correlate (engine : CorrelationEngine) (documents : List NormalizedDocument) :
    List CorrelatedTransaction :=
  correlatePairs rt engine (sortDocuments documents) (allPairs (sortDocuments documents))

def correlateCandidates (engine : CorrelationEngine) (documents : List NormalizedDocument)
    (candidatePairs : List (UUID × UUID)) : List CorrelatedTransaction :=
  correlatePairs rt engine (sortDocuments documents) candidatePairs

/-! ## Results are validated -/

/-- The validation of a `CorrelationResult`: the bounds of its score and
`at_least_two_documents`. -/
def validResult (result : CorrelationResult) : Bool :=
  decide (result.score ≤ 100) && decide (2 ≤ result.documentIds.dedup.length)

/-- `_correlate_pairs`, which raises when a result is refused. -/
def correlatePairsChecked (engine : CorrelationEngine) (ordered : List NormalizedDocument)
    (candidatePairs : List (UUID × UUID)) : Option (List CorrelatedTransaction) :=
  let transactions := correlatePairs rt engine ordered candidatePairs
  if transactions.all fun transaction => transaction.correlation.all validResult then
    some transactions
  else none

/-- `correlate_candidates` -/
def correlateCandidatesChecked (engine : CorrelationEngine) (documents : List NormalizedDocument)
    (candidatePairs : List (UUID × UUID)) : Option (List CorrelatedTransaction) :=
  correlatePairsChecked rt engine (sortDocuments documents) candidatePairs

end

end RetailPrintGuard.Correlation.Engine
