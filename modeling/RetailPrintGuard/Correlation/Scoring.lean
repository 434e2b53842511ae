import RetailPrintGuard.Correlation.Lines

/-! # Pair scoring

Contradictory identities and closed episodes reject a pair before it is
scored; seven protocol-specific links come before the weighted score. -/
namespace RetailPrintGuard.Correlation.Scoring
open RetailPrintGuard.Common.Python RetailPrintGuard.Common.Domain
open RetailPrintGuard.Correlation.Lines

/-! ## Document types -/

/-- `_SOURCE_TYPES` -/
def sourceTypes : DocumentType → Bool
  | .order | .orderChange | .kitchenOrder | .preBill | .managementDocument => true
  | _ => false

/-- `_FISCAL_TYPES` -/
def fiscalTypes : DocumentType → Bool
  | .commercialDocument => true
  | _ => false

/-- `_FOLLOWUP_TYPES` -/
def followupTypes : DocumentType → Bool
  | .commercialDocument | .refund | .payment | .cancellation => true
  | _ => false

/-- `_FISCAL_SIBLING_TYPES` -/
def fiscalSiblingTypes : DocumentType → Bool
  | .commercialDocument | .refund | .payment => true
  | _ => false

/-- `_AUXILIARY_TYPES` -/
def auxiliaryTypes : DocumentType → Bool
  | .conformingCopy | .reprint | .deviceResponse | .refund | .shiftEndReport | .invoice => true
  | _ => false

/-- The types a commercial reference is printed on. -/
def referringTypes : DocumentType → Bool
  | .managementDocument | .conformingCopy | .reprint => true
  | _ => false

inductive ProgressiveNamespace where
  | management | commercial
deriving DecidableEq

def ProgressiveNamespace.text : ProgressiveNamespace → String
  | management => "MANAGEMENT"
  | commercial => "COMMERCIAL"

def progressiveNamespace (document : NormalizedDocument) : Option ProgressiveNamespace :=
  match document.type with
  | .preBill | .managementDocument => some .management
  | .commercialDocument | .refund => some .commercial
  | _ => none

def isAuxiliary (document : NormalizedDocument) : Bool :=
  auxiliaryTypes document.type ||
    (document.type == .managementDocument && document.commercialReferenceCode.isSome &&
      !document.economicClose)

def isPrebillSource (document : NormalizedDocument) : Bool :=
  document.type == .preBill ||
    (document.type == .managementDocument && document.complete && document.total.isSome &&
      document.commercialReferenceCode.isNone && !document.economicClose)

def compatible (left right : NormalizedDocument) : Bool :=
  if left.type == .deviceResponse || right.type == .deviceResponse then false
  else if left.type == .conformingCopy || left.type == .reprint ||
      right.type == .conformingCopy || right.type == .reprint then
    fiscalTypes left.type || fiscalTypes right.type
  else if fiscalTypes left.type && fiscalTypes right.type then false
  else if sourceTypes left.type && sourceTypes right.type then true
  else (sourceTypes left.type && followupTypes right.type) ||
    (sourceTypes right.type && followupTypes left.type)

/-! ## References -/

section
variable (rt : Runtime)

/-- `_normalise(str(value))` for a metadata value that is not null. -/
def metadataReference (document : NormalizedDocument) (key : String) : Option String :=
  match document.rawMetadata.get key with
  | .null => none
  | value => rt.normalise (some value.text)

def metadataReferences (document : NormalizedDocument) : List String :=
  ["reference", "order_reference", "document_reference", "transaction_reference"].filterMap
    (metadataReference rt document)

/-- `_metadata_references(left) & _metadata_references(right)` -/
def sharedReferences (left right : NormalizedDocument) : List String :=
  (metadataReferences rt left).filter fun reference =>
    (metadataReferences rt right).contains reference

def strongReference (document : NormalizedDocument) : Option String :=
  (metadataReference rt document "order_reference").or
    (metadataReference rt document "transaction_reference")

/-- The last run of digits of the normalised value, when it has at most eight
of them and starts the text or follows a dash or a slash. -/
def printedCounterSuffix (value : Option String) : Option String :=
  (rt.normalise value).bind fun normalized =>
    let reversed := normalized.toList.reverse
    let counter := reversed.takeWhile rt.isDecimal
    if counter.isEmpty || 8 < counter.length then none
    else
      match reversed.dropWhile rt.isDecimal with
      | [] => some (String.ofList counter.reverse)
      | char :: _ =>
        if char = '-' || char = '/' then some (String.ofList counter.reverse) else none

/-! ## Conflicts -/

def identityConflict (left right : NormalizedDocument) : Option String :=
  let leftOrder := rt.normalise left.orderCode
  let rightOrder := rt.normalise right.orderCode
  let leftTable := rt.normalise left.tableCode
  let rightTable := rt.normalise right.tableCode
  let leftReference := strongReference rt left
  let rightReference := strongReference rt right
  if leftOrder.isSome && rightOrder.isSome && leftOrder != rightOrder then
    some "order_code in conflitto"
  else if leftTable.isSome && rightTable.isSome && leftTable != rightTable then
    some "table_code in conflitto"
  else if leftReference.isSome && rightReference.isSome && leftReference != rightReference then
    some "riferimento ordine in conflitto"
  else none

/-- An economic close: a commercial document, or a management document that
settles the sale. -/
def closesEpisode (document : NormalizedDocument) : Bool :=
  document.type == .commercialDocument ||
    (document.type == .managementDocument && document.economicClose)

def startsEpisode (document : NormalizedDocument) : Bool :=
  match document.type with
  | .order | .kitchenOrder | .preBill => true
  | _ => false

def episodeBoundaryConflict (left right : NormalizedDocument) : Option String :=
  let (earlier, later) := if left.Precedes right then (left, right) else (right, left)
  if closesEpisode earlier && startsEpisode later &&
      earlier.documentTime.micros < later.documentTime.micros then
    some "nuovo episodio osservato dopo una chiusura economica"
  else none

/-- Two optional identities do not contradict each other. -/
def Agree (a b : Option String) : Prop := a.isSome → b.isSome → a = b

theorem identityConflict_eq_none {left right : NormalizedDocument} :
    identityConflict rt left right = none ↔
      Agree (rt.normalise left.orderCode) (rt.normalise right.orderCode) ∧
      Agree (rt.normalise left.tableCode) (rt.normalise right.tableCode) ∧
      Agree (strongReference rt left) (strongReference rt right) := by
  simp only [identityConflict, Agree]
  grind

theorem Agree.symm {a b : Option String} (h : Agree a b) : Agree b a :=
  fun hb ha => (h ha hb).symm

theorem Agree.refl (a : Option String) : Agree a a := fun _ _ => rfl

theorem identityConflict_symm {left right : NormalizedDocument}
    (h : identityConflict rt left right = none) : identityConflict rt right left = none := by
  obtain ⟨ho, ht, hr⟩ := (identityConflict_eq_none rt).mp h
  exact (identityConflict_eq_none rt).mpr ⟨ho.symm, ht.symm, hr.symm⟩

theorem identityConflict_refl (document : NormalizedDocument) :
    identityConflict rt document document = none :=
  (identityConflict_eq_none rt).mpr ⟨.refl _, .refl _, .refl _⟩

/-- One document closes an episode before the other starts one. -/
def ClosesBefore (left right : NormalizedDocument) : Prop :=
  closesEpisode left = true ∧ startsEpisode right = true ∧
    left.documentTime.micros < right.documentTime.micros

theorem episodeBoundaryConflict_eq_none {left right : NormalizedDocument} :
    episodeBoundaryConflict left right = none ↔
      ¬ ClosesBefore left right ∧ ¬ ClosesBefore right left := by
  simp only [episodeBoundaryConflict, ClosesBefore]
  by_cases h : left.Precedes right
  · have hle : left.documentTime.micros ≤ right.documentTime.micros := by
      unfold NormalizedDocument.Precedes at h
      omega
    rw [if_pos h]
    grind
  · have hle : right.documentTime.micros ≤ left.documentTime.micros := by
      unfold NormalizedDocument.Precedes at h
      omega
    rw [if_neg h]
    grind

theorem episodeBoundaryConflict_symm {left right : NormalizedDocument}
    (h : episodeBoundaryConflict left right = none) :
    episodeBoundaryConflict right left = none :=
  episodeBoundaryConflict_eq_none.mpr (episodeBoundaryConflict_eq_none.mp h).symm

theorem episodeBoundaryConflict_refl (document : NormalizedDocument) :
    episodeBoundaryConflict document document = none := by
  rw [episodeBoundaryConflict_eq_none]
  unfold ClosesBefore
  omega

/-- Every document carries the same explicit identity. -/
def sharedStrongSaleIdentity (documents : List NormalizedDocument) : Bool :=
  let orderCodes := documents.map fun item => rt.normalise item.orderCode
  let references := documents.map (strongReference rt)
  if documents.length < 2 then false
  else if orderCodes.all Option.isSome && orderCodes.dedup.length == 1 then true
  else references.all Option.isSome && references.dedup.length == 1

end

/-! ## Scores -/

structure Criterion where
  name : String
  weight : Nat
  matched : Bool
  detail : String
deriving DecidableEq

structure PairScore where
  leftId : UUID
  rightId : UUID
  score : Nat
  criteria : List Criterion
deriving DecidableEq

/-- `sum(item.weight for item in criteria if item.matched)` -/
def matchedWeight (criteria : List Criterion) : Nat :=
  ((criteria.filter Criterion.matched).map Criterion.weight).sum

@[simp] theorem matchedWeight_nil : matchedWeight [] = 0 := rfl

@[simp] theorem matchedWeight_cons (item : Criterion) (criteria : List Criterion) :
    matchedWeight (item :: criteria) =
      (if item.matched then item.weight else 0) + matchedWeight criteria := by
  unfold matchedWeight
  by_cases h : item.matched = true
  · rw [List.filter_cons_of_pos h, if_pos h, List.map_cons, List.sum_cons]
  · rw [List.filter_cons_of_neg h, if_neg h, Nat.zero_add]

def rejectedPair (left right : NormalizedDocument) (reason : String) : PairScore where
  leftId := left.id
  rightId := right.id
  score := 0
  criteria := [{ name := "identity_compatibility", weight := 100, matched := false,
                 detail := reason }]

/-- The minimum score and the time window, within the bounds the constructor
checks. -/
structure CorrelationEngine where
  minimumScore : Nat := 60
  timeWindowSeconds : Nat := 7200
  minimumScore_le : minimumScore ≤ 100 := by decide
  timeWindowSeconds_pos : 0 < timeWindowSeconds := by decide

def standardEngine : CorrelationEngine := {}

/-- `_CROSS_DEPARTMENT_WINDOW_SECONDS` -/
def crossDepartmentWindowSeconds : Nat := 30

/-- `_KITCHEN_BASELINE_WINDOW_SECONDS` -/
def kitchenBaselineWindowSeconds : Nat := 30

/-- `_SAME_TABLE_CHANGE_WINDOW_SECONDS` -/
def sameTableChangeWindowSeconds : Nat := 300

/-- `_TABLE_SALE_WINDOW_SECONDS` -/
def tableSaleWindowSeconds : Nat := 300

/-- `abs((_document_time(right) - _document_time(left)).total_seconds())`, in
microseconds. -/
def timeDelta (left right : NormalizedDocument) : Nat :=
  left.documentTime.distance right.documentTime

/-- `(_document_time(later) - _document_time(earlier)).total_seconds()`, in
microseconds. -/
def elapsed (earlier later : NormalizedDocument) : Int :=
  later.documentTime.micros - earlier.documentTime.micros

/-- `int(delta_seconds)` -/
def wholeSeconds (micros : Nat) : String := toString (micros / 1000000)

/-- Two decimals of a number of hundredths. -/
def hundredths (n : Nat) : String :=
  toString (n / 100) ++ "." ++ toString (n % 100 / 10) ++ toString (n % 10)

def distanceDetail (left right : NormalizedDocument) : String :=
  "distanza " ++ wholeSeconds (timeDelta left right) ++ " secondi"

def overlapDetail (shared : List String) : String :=
  toString shared.length ++ " articolo/i comuni per codice o descrizione normalizzata"

def hit (name : String) (weight : Nat) (detail : String) : Criterion :=
  { name, weight, matched := true, detail }

namespace CorrelationEngine
variable (rt : Runtime) (engine : CorrelationEngine)

/-- `time_window_seconds` in microseconds. -/
def window : Nat := engine.timeWindowSeconds * 1000000

/-! ### The weighted score -/

def exact (name : String) (weight : Nat) (first second : Option String) : Criterion :=
  let matched := (rt.normalise first).isSome && rt.normalise first == rt.normalise second
  { name, weight, matched, detail := if matched then "valore esatto" else "assente o differente" }

def progressiveCriterion (left right : NormalizedDocument) : Criterion :=
  let progressive := rt.normalise left.externalDocumentCode
  let same := (progressiveNamespace left).isSome &&
    progressiveNamespace left == progressiveNamespace right &&
    progressive.isSome && progressive == rt.normalise right.externalDocumentCode
  { name := "own_progressive_same_namespace"
    weight := 15
    matched := same
    detail :=
      if same then "progressivo proprio coincidente nel namespace " ++
        ((progressiveNamespace left).map ProgressiveNamespace.text).getD "None"
      else "progressivi propri assenti, differenti o di namespace distinti" }

def referenceCriterion (left right : NormalizedDocument) : Criterion :=
  let matched := !(sharedReferences rt left right).isEmpty
  { name := "embedded_reference"
    weight := 20
    matched
    detail := if matched then "riferimento comune" else "nessun riferimento comune" }

def withinWindow (left right : NormalizedDocument) : Bool := timeDelta left right ≤ engine.window

def timeCriterion (left right : NormalizedDocument) : Criterion where
  name := "time_proximity"
  weight :=
    if timeDelta left right ≤ 120 * 1000000 then 12
    else if timeDelta left right ≤ 900 * 1000000 then 8
    else if engine.withinWindow left right then 4
    else 0
  matched := engine.withinWindow left right
  detail := distanceDetail left right

def dateCriterion (left right : NormalizedDocument) : Criterion :=
  let same := left.documentTime.date == right.documentTime.date
  { name := "business_date"
    weight := 3
    matched := same
    detail := if same then "stessa data" else "data differente" }

/-- `plausible_partial` -/
def plausiblePartial : Option Money → Option Money → Bool
  | some l, some r => decide (0 ≤ min l r) && decide (0 < max l r) && decide (min l r < max l r)
  | _, _ => false

def amountCriterion (left right : NormalizedDocument) : Criterion :=
  let equal := left.total.isSome && left.total == right.total
  { name := "amount_relationship"
    weight := if equal then 8 else if plausiblePartial left.total right.total then 3 else 0
    matched := equal || plausiblePartial left.total right.total
    detail :=
      if equal then "totali uguali"
      else if plausiblePartial left.total right.total then "importo parziale plausibile"
      else "totali non confrontabili" }

def lineCriterion (left right : NormalizedDocument) : Criterion where
  name := "line_similarity"
  weight :=
    match lineSimilarity rt left right with
    | none => 0
    | some (common, all) => (roundHalfEven (12 * common) all).toNat
  matched :=
    match lineSimilarity rt left right with
    | none => false
    | some (common, _) => 0 < common
  detail :=
    match lineSimilarity rt left right with
    | none => "righe non disponibili"
    | some (common, all) => "similarità " ++ hundredths (roundHalfEven (100 * common) all).toNat

def sequenceCriterion (left right : NormalizedDocument) : Criterion where
  name := "document_sequence"
  weight := 8
  matched := compatible left right
  detail := if compatible left right then "tipi compatibili" else "tipi non collegabili"

def deviceCriterion (left right : NormalizedDocument) : Criterion :=
  let same := left.sourceDeviceId == right.sourceDeviceId
  { name := "device_context"
    weight := 2
    matched := same
    detail := if same then "stesso dispositivo" else "dispositivi differenti" }

def scoreCriteria (left right : NormalizedDocument) : List Criterion :=
  [ exact rt "order_code" 35 left.orderCode right.orderCode
  , progressiveCriterion rt left right
  , exact rt "table_code" 12 left.tableCode right.tableCode
  , exact rt "operator_code" 5 left.operatorCode right.operatorCode
  , exact rt "terminal_code" 4 left.terminalCode right.terminalCode
  -- RCH connections stay open across independent sales: no identity weight
  , exact rt "source_session" 0 left.sourceSessionId right.sourceSessionId
  , referenceCriterion rt left right
  , engine.timeCriterion left right
  , dateCriterion left right
  , amountCriterion left right
  , lineCriterion rt left right
  , sequenceCriterion left right
  , deviceCriterion left right ]

def scorePair (left right : NormalizedDocument) : PairScore where
  leftId := left.id
  rightId := right.id
  score :=
    if !compatible left right || !engine.withinWindow left right then 0
    else min 100 (matchedWeight (engine.scoreCriteria rt left right))
  criteria := engine.scoreCriteria rt left right

/-! ### Protocol-specific links -/

/-- The commercial reference of a copy names the fiscal progressive, or its
suffix as observed in the response of the printer. -/
def commercialReferencePair (left right : NormalizedDocument) : Option PairScore :=
  let (fiscal, referring) :=
    if left.type = .commercialDocument then (left, right) else (right, left)
  if fiscal.type ≠ .commercialDocument then none
  else if !referringTypes referring.type then none
  else
    let reference := rt.normalise referring.commercialReferenceCode
    let exactReference :=
      reference.isSome && reference == rt.normalise fiscal.externalDocumentCode
    let referenceSuffix := printedCounterSuffix rt reference
    let suffixReference :=
      reference.isSome && fiscal.externalDocumentCodeSuffix.isSome && referenceSuffix.isSome &&
        referenceSuffix == printedCounterSuffix rt fiscal.externalDocumentCodeSuffix &&
        fiscal.rawMetadata.get "external_document_code_suffix_evidence" ==
          .str "RCH_STATUS_RESPONSE_SUFFIX_SEQUENCE_CONFIRMED"
    if !exactReference && !suffixReference then none
    else if engine.window < timeDelta left right then none
    else if suffixReference then
      let referringTable := rt.normalise referring.tableCode
      let shared := sharedItems rt referring.lines fiscal.lines
      if referringTable.isNone || referringTable != rt.normalise fiscal.tableCode ||
          shared.isEmpty || tableSaleWindowSeconds * 1000000 < timeDelta left right then none
      else
        some
          { leftId := left.id
            rightId := right.id
            score := 100
            criteria :=
              [ hit "commercial_reference_to_observed_fiscal_suffix" 55
                  ("suffisso fiscale osservato nella risposta RCH uguale al suffisso " ++
                    "del riferimento commerciale")
              , hit "table_code" 15 ("stesso tavolo " ++ referringTable.getD "None")
              , hit "line_identity_overlap" 20 (overlapDetail shared)
              , hit "time_proximity" 10 (distanceDetail left right) ] }
    else
      some
        { leftId := left.id
          rightId := right.id
          score := 95
          criteria :=
            [ hit "commercial_reference_to_fiscal_progressive" 85
                "riferimento commerciale uguale al progressivo proprio fiscale"
            , hit "time_proximity" 10 (distanceDetail left right) ] }

/-- Two documents at one table, the second within `limit` seconds after the
first, that share a line. -/
def followsAtTable (earlier later : NormalizedDocument) (limit : Nat) : Bool :=
  (rt.normalise earlier.tableCode).isSome &&
    rt.normalise earlier.tableCode == rt.normalise later.tableCode &&
    decide (0 ≤ elapsed earlier later) && decide (elapsed earlier later ≤ seconds limit) &&
    !(sharedItems rt earlier.lines later.lines).isEmpty

/-- The score of such a sequence. -/
def sequencePair (left right earlier later : NormalizedDocument) (limit : Nat)
    (first : Criterion) (weights : Nat × Nat) (before after : String) : Option PairScore :=
  if followsAtTable rt earlier later limit then
    some
      { leftId := left.id
        rightId := right.id
        score := 100
        criteria :=
          [ first
          , hit "line_identity_overlap" weights.1
              (overlapDetail (sharedItems rt earlier.lines later.lines))
          , hit "time_proximity" weights.2
              (before ++ wholeSeconds (elapsed earlier later).toNat ++ after ++ toString limit) ] }
  else none

def tableText (document : NormalizedDocument) : String :=
  (rt.normalise document.tableCode).getD "None"

/-- A prebill or management source and its prompt fiscal close. -/
def tableSaleSequencePair (left right : NormalizedDocument) : Option PairScore :=
  let (source, fiscal) := if isPrebillSource left then (left, right) else (right, left)
  if !isPrebillSource source then none
  else if fiscal.type ≠ .commercialDocument then none
  else
    sequencePair rt left right source fiscal tableSaleWindowSeconds
      (hit "table_sale_sequence" 40
        ("preconto/gestionale seguito da chiusura fiscale sul tavolo " ++ tableText rt source))
      (35, 25) "chiusura dopo " " secondi; limite episodio "

/-- A kitchen ticket and the management baseline right after it. -/
def kitchenManagementBaselinePair (left right : NormalizedDocument) : Option PairScore :=
  let (kitchen, management) :=
    if left.type = .kitchenOrder then (left, right) else (right, left)
  if kitchen.type ≠ .kitchenOrder then none
  else if management.type ≠ .managementDocument then none
  else if !isPrebillSource management then none
  else
    sequencePair rt left right kitchen management kitchenBaselineWindowSeconds
      (hit "kitchen_to_management_baseline" 40
        ("comanda seguita dalla baseline gestionale sul tavolo " ++ tableText rt kitchen))
      (35, 25) "baseline dopo " " secondi; limite apertura "

/-- A signed change and the recent kitchen ticket of the same device. -/
def sameTableChangePair (left right : NormalizedDocument) : Option PairScore :=
  let kitchen := if left.type = .kitchenOrder then left else right
  let change := if left.type = .orderChange then left else right
  if !((left.type = .kitchenOrder ∧ right.type = .orderChange) ∨
      (left.type = .orderChange ∧ right.type = .kitchenOrder)) then none
  else if kitchen.sourceDeviceId ≠ change.sourceDeviceId then none
  else
    sequencePair rt left right kitchen change sameTableChangeWindowSeconds
      (hit "SAME_TABLE_CHANGE_SEQUENCE" 80
        ("ticket cucina seguito da variazione sullo stesso dispositivo e tavolo " ++
          tableText rt kitchen))
      (10, 10) "variazione dopo " " secondi; limite sequenza "

/-- Simultaneous kitchen copies of one table dispatch. -/
def crossDepartmentDispatchPair (left right : NormalizedDocument) : Option PairScore :=
  if left.type ≠ .kitchenOrder ∨ right.type ≠ .kitchenOrder then none
  else if left.sourceDeviceId = right.sourceDeviceId then none
  else if (rt.normalise left.tableCode).isNone ||
      rt.normalise left.tableCode != rt.normalise right.tableCode then none
  else if crossDepartmentWindowSeconds * 1000000 < timeDelta left right then none
  else
    some
      { leftId := left.id
        rightId := right.id
        score := 85
        criteria :=
          [ hit "CROSS_DEPARTMENT_DISPATCH" 75
              ("stesso tavolo " ++ tableText rt left ++
                ", ticket cucina su dispositivi differenti")
          , hit "time_proximity" 10
              (distanceDetail left right ++ "; limite dispatch " ++
                toString crossDepartmentWindowSeconds) ] }

/-- Partial fiscal documents of one order. -/
def fiscalSiblings (left right : NormalizedDocument) : Option PairScore :=
  if !fiscalSiblingTypes left.type || !fiscalSiblingTypes right.type then none
  else if engine.window < timeDelta left right then none
  else
    let orderMatch := (rt.normalise left.orderCode).isSome &&
      rt.normalise left.orderCode == rt.normalise right.orderCode
    if (sharedReferences rt left right).isEmpty && !orderMatch then none
    else
      some
        { leftId := left.id
          rightId := right.id
          score := 80
          criteria :=
            [ hit "split_fiscal_reference" 70
                "documenti fiscali parziali con riferimento ordine comune"
            , hit "time_proximity" 10 (distanceDetail left right) ] }

/-- A response and the exact duplex job it was observed in. -/
def deviceResponsePair (left right : NormalizedDocument) : Option PairScore :=
  if left.type ≠ .deviceResponse ∧ right.type ≠ .deviceResponse then none
  else if engine.window < timeDelta left right then
    some (rejectedPair left right "risposta RCH fuori dalla finestra del job")
  else if left.sourceJobId = "" ∨ left.sourceJobId ≠ right.sourceJobId then
    some (rejectedPair left right "risposta RCH osservata in un job differente")
  else
    some
      { leftId := left.id
        rightId := right.id
        score := 90
        criteria :=
          [ hit "response_job_context" 80 "stesso job duplex"
          , hit "time_proximity" 10 (distanceDetail left right) ] }

/-- The links tried before the weighted score, in their order. -/
def protocolPair (left right : NormalizedDocument) : Option PairScore :=
  (engine.commercialReferencePair rt left right).or <|
  (tableSaleSequencePair rt left right).or <|
  (kitchenManagementBaselinePair rt left right).or <|
  (engine.fiscalSiblings rt left right).or <|
  (sameTableChangePair rt left right).or <|
  crossDepartmentDispatchPair rt left right

def scoreCandidatePair (left right : NormalizedDocument) : PairScore :=
  match engine.deviceResponsePair left right with
  | some responsePair => responsePair
  | none =>
    match episodeBoundaryConflict left right with
    | some boundary => rejectedPair left right boundary
    | none =>
      match identityConflict rt left right with
      | some conflict => rejectedPair left right conflict
      | none => (engine.protocolPair rt left right).getD (engine.scorePair rt left right)

end CorrelationEngine

end RetailPrintGuard.Correlation.Scoring
