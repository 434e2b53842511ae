import Mathlib.Data.List.ReduceOption
import Mathlib.Data.Prod.Lex
import RetailPrintGuard.Common.Domain
import RetailPrintGuard.Common.Formats
import RetailPrintGuard.Library.Checks
import RetailPrintGuard.Library.DecimalDivision
import RetailPrintGuard.Library.ListOrder
import RetailPrintGuard.Library.Sha256

/-! # The attribution of prices

A line of a POS document gets the prices of the lines of another document that
name the same item, and says when these contradict each other. -/
namespace RetailPrintGuard.Pricing.Attribution
open RetailPrintGuard.Common.Formats
open RetailPrintGuard.Common.Python (UUID Timestamp)
open RetailPrintGuard.Library RetailPrintGuard.Library.Checks
open RetailPrintGuard.Library.DecimalFloat RetailPrintGuard.Library.DecimalDivision
open RetailPrintGuard.Library.ListOrder

/-- `getcontext().prec` -/
def precision : Nat := 28

structure PriceLineEvidence where
  lineId : UUID
  documentId : UUID
  documentVersionId : UUID
  sequence : Int
  itemCode : Option String
  description : Option String
  quantity : Option Decimal
  unitPrice : Option Decimal
  lineTotal : Option Decimal
  observedAt : Timestamp

inductive SourceKind where
  | prebill | management | fiscal
  deriving DecidableEq

inductive MatchBasis where
  | itemCodeExact | descriptionNormalizedExact
  deriving DecidableEq

inductive Status where
  | resolved | agreed | ambiguous
  deriving DecidableEq

inductive UnitOrigin where
  | observedUnitPrice | derivedFromObservedLineTotal | unavailable
  deriving DecidableEq

inductive QuantityBasis where
  | unknown | absoluteExact | conflict
  deriving DecidableEq

inductive TemporalRelation where
  | sourceAfterTarget | sourceBeforeTarget | simultaneous
  deriving DecidableEq

structure Criteria where
  candidateCount : Nat
  candidatePriceSignatures : List (Option String × Option String)
  itemCodePriority : Bool
  quantityCompatibility : QuantityBasis
  unitPriceOrigin : UnitOrigin
  temporalRelation : TemporalRelation
  temporalDistanceSeconds : Nat

structure DerivedPriceAttribution where
  id : UUID
  correlationId : UUID
  targetDocumentId : UUID
  targetDocumentVersionId : UUID
  targetLineId : UUID
  sourceDocumentId : UUID
  sourceDocumentVersionId : UUID
  sourceLineId : UUID
  observedUnitPrice : Option Decimal
  observedLineTotal : Option Decimal
  targetQuantity : Option Decimal
  sourceQuantity : Option Decimal
  sourceKind : SourceKind
  matchBasis : MatchBasis
  algorithmVersion : String
  confidence : ℚ
  status : Status
  criteria : Criteria
  ambiguityGroup : Option String
  attributionFingerprint : String
  sourceObservedAt : Timestamp

/-- What the runtime makes of texts and names. -/
structure Texts where
  /-- `str.strip` -/
  strip : String → String
  /-- NFKC, case folded, with single blanks between the words -/
  fold : String → String
  /-- `uuid5` of a name under the namespace of URLs -/
  uuid5 : String → UUID

/-! ## Amounts -/

/-- `_normalise_money` -/
def normaliseMoney : Option Decimal → Except ArithmeticError (Option Decimal)
  | none => .ok none
  | some value => (quantizeHalfUp precision (-4) value).map some

/-- `_effective_unit_price` -/
def effectiveUnitPrice (line : PriceLineEvidence) :
    Except ArithmeticError (Option Decimal × UnitOrigin) :=
  match line.unitPrice with
  | some unitPrice => do
    return (← normaliseMoney (some unitPrice), .observedUnitPrice)
  | none =>
    match line.lineTotal, line.quantity with
    | some lineTotal, some quantity =>
      if value quantity = 0 then .ok (none, .unavailable)
      else do
        let quotient ← div precision lineTotal (absolute precision quantity)
        return (← normaliseMoney (some quotient), .derivedFromObservedLineTotal)
    | _, _ => .ok (none, .unavailable)

/-- `_quantity_compatibility` -/
def quantityCompatibility (target source : PriceLineEvidence) : Bool × QuantityBasis :=
  match target.quantity, source.quantity with
  | some wanted, some offered =>
    if value (absolute precision wanted) = value (absolute precision offered) then
      (true, .absoluteExact)
    else (false, .conflict)
  | _, _ => (true, .unknown)

/-- `_price_signature` -/
def priceSignature (line : PriceLineEvidence) :
    Except ArithmeticError (Option Decimal × Option Decimal) := do
  let (unitPrice, _) ← effectiveUnitPrice line
  return (unitPrice, ← normaliseMoney line.lineTotal)

/-- `_has_observed_amount` -/
def hasObservedAmount (line : PriceLineEvidence) : Bool :=
  line.unitPrice.isSome || line.lineTotal.isSome

/-- The different values, as a set of `Decimal`s has them. -/
def differentValues (amounts : List (Option Decimal)) : List ℚ :=
  (amounts.filterMap fun amount => amount.map value).dedup

/-- `_sources_agree` -/
def sourcesAgree (candidates : List PriceLineEvidence) : Except ArithmeticError Bool := do
  let signatures ← candidates.mapM priceSignature
  let unitPrices := differentValues (signatures.map Prod.fst)
  let lineTotals := differentValues (signatures.map Prod.snd)
  let allUnitsComparable := signatures.all fun signature => signature.1.isSome
  let allTotalsComparable := signatures.all fun signature => signature.2.isSome
  return if allUnitsComparable then unitPrices.length = 1 ∧ lineTotals.length ≤ 1
    else if allTotalsComparable then lineTotals.length = 1 ∧ unitPrices.length ≤ 1
    else false

/-! ## Candidates -/

section
variable (texts : Texts)

/-- An empty text says nothing. -/
def orNone (text : String) : Option String := if text = "" then none else some text

/-- `_normalise_code` -/
def normaliseCode (code : Option String) : Option String := code.bind (orNone ∘ texts.strip)

/-- `_normalise_description` -/
def normaliseDescription (description : Option String) : Option String :=
  description.bind (orNone ∘ texts.fold)

/-- The source offers an amount under one normalized name with the target. -/
def offers (name : PriceLineEvidence → Option String) (target source : PriceLineEvidence) : Bool :=
  name source = name target && (quantityCompatibility target source).1 && hasObservedAmount source

def codeOf (line : PriceLineEvidence) : Option String := normaliseCode texts line.itemCode

def descriptionOf (line : PriceLineEvidence) : Option String :=
  normaliseDescription texts line.description

/-- `_candidates` -/
def candidatesOf (target : PriceLineEvidence) (sources : List PriceLineEvidence) :
    Option (MatchBasis × List PriceLineEvidence) :=
  let byCode := if (codeOf texts target).isSome then
    sources.filter (offers (codeOf texts) target) else []
  if byCode ≠ [] then some (.itemCodeExact, byCode)
  else
    let byDescription := if (descriptionOf texts target).isSome then
      sources.filter (offers (descriptionOf texts) target) else []
    if byDescription ≠ [] then some (.descriptionNormalizedExact, byDescription) else none

/-! ## Attributions -/

/-- `str` of a UUID -/
def uuidText (id : UUID) : String :=
  let digits := (Nat.toDigits 16 id).leftpad 32 '0'
  String.ofList (digits.take 8 ++ ['-'] ++ (digits.drop 8).take 4 ++ ['-'] ++
    (digits.drop 12).take 4 ++ ['-'] ++ (digits.drop 16).take 4 ++ ['-'] ++ digits.drop 20)

/-- `str` of an amount with four places -/
def amountText (amount : Decimal) : String :=
  let digits := (Nat.toDigits 10 amount.coefficient).leftpad 5 '0'
  String.ofList ((if amount.negative then ['-'] else []) ++ digits.take (digits.length - 4) ++
    ['.'] ++ digits.drop (digits.length - 4))

/-- `_fingerprint` -/
def fingerprint (payload : Json) : String := Sha256.hexdigest payload.dumps

/-- `(item.sequence, str(item.line_id))` -/
def lineKey (line : PriceLineEvidence) : Int ×ₗ Nat := toLex (line.sequence, line.lineId)

def LineOrder (a b : PriceLineEvidence) : Prop := lineKey a ≤ lineKey b

instance : DecidableRel LineOrder := fun a b => inferInstanceAs (Decidable (lineKey a ≤ lineKey b))

def statusOf (candidates : List PriceLineEvidence) (agreement : Bool) : Status :=
  if candidates.length = 1 then .resolved else if agreement then .agreed else .ambiguous

def confidenceOf (basis : MatchBasis) (quantityBasis : QuantityBasis) (unitOrigin : UnitOrigin)
    (status : Status) : ℚ :=
  let base : ℚ := if basis = .itemCodeExact then 98 / 100 else 90 / 100
  let base := if quantityBasis = .unknown then base - 10 / 100 else base
  let base := match unitOrigin with
    | .derivedFromObservedLineTotal => base - 3 / 100
    | .unavailable => base - 15 / 100
    | .observedUnitPrice => base
  match status with
  | .agreed => min (99 / 100) (base + 1 / 100)
  | .ambiguous => min base (49 / 100)
  | .resolved => base

/-- What the attributions of a line to a document share. -/
structure Request where
  correlationId : UUID
  target : PriceLineEvidence
  sourceKind : SourceKind
  sourceDocumentId : UUID
  sourceDocumentVersionId : UUID
  algorithmVersion : String := "line-price-attribution/1.0.0"

/-- The identity of an attribution. -/
def identity (request : Request) (source : PriceLineEvidence) : Json := .obj [
  ("algorithm_version", .str request.algorithmVersion),
  ("correlation_id", .str (uuidText request.correlationId)),
  ("target_line_id", .str (uuidText request.target.lineId)),
  ("source_line_id", .str (uuidText source.lineId))]

def ambiguityGroupOf (request : Request) (candidates : List PriceLineEvidence) : String :=
  fingerprint (.obj [
    ("algorithm_version", .str request.algorithmVersion),
    ("correlation_id", .str (uuidText request.correlationId)),
    ("target_line_id", .str (uuidText request.target.lineId)),
    ("source_document_version_id", .str (uuidText request.sourceDocumentVersionId)),
    ("candidate_line_ids", .arr (candidates.map fun candidate => .str (uuidText candidate.lineId)))])

/-- One candidate of the loop of `derive_document_attributions`. -/
def attribution (request : Request) (basis : MatchBasis) (status : Status)
    (candidates : List PriceLineEvidence) (signatures : List (Option String × Option String))
    (source : PriceLineEvidence) : Except ArithmeticError (Option DerivedPriceAttribution) := do
  let (unitPrice, unitOrigin) ← effectiveUnitPrice source
  let (quantityCompatible, quantityBasis) := quantityCompatibility request.target source
  if !quantityCompatible then return none
  let deltaSeconds := (source.observedAt.micros - request.target.observedAt.micros).tdiv 1000000
  let attributionFingerprint := fingerprint (identity request source)
  return some {
    id := texts.uuid5 ("retailprintguard:" ++ attributionFingerprint)
    correlationId := request.correlationId
    targetDocumentId := request.target.documentId
    targetDocumentVersionId := request.target.documentVersionId
    targetLineId := request.target.lineId
    sourceDocumentId := request.sourceDocumentId
    sourceDocumentVersionId := request.sourceDocumentVersionId
    sourceLineId := source.lineId
    observedUnitPrice := unitPrice
    observedLineTotal := ← normaliseMoney source.lineTotal
    targetQuantity := request.target.quantity
    sourceQuantity := source.quantity
    sourceKind := request.sourceKind
    matchBasis := basis
    algorithmVersion := request.algorithmVersion
    confidence := confidenceOf basis quantityBasis unitOrigin status
    status
    criteria := {
      candidateCount := candidates.length
      candidatePriceSignatures := signatures
      itemCodePriority := basis = .itemCodeExact
      quantityCompatibility := quantityBasis
      unitPriceOrigin := unitOrigin
      temporalRelation :=
        if 0 < deltaSeconds then .sourceAfterTarget
        else if deltaSeconds < 0 then .sourceBeforeTarget
        else .simultaneous
      temporalDistanceSeconds := deltaSeconds.natAbs }
    ambiguityGroup := if status = .ambiguous then some (ambiguityGroupOf request candidates) else none
    attributionFingerprint
    sourceObservedAt := source.observedAt }

/-- One candidate agrees with nothing. -/
def agreementOf (candidates : List PriceLineEvidence) : Except ArithmeticError Bool :=
  if 1 < candidates.length then sourcesAgree candidates else .ok false

/-- `derive_document_attributions` -/
def deriveDocumentAttributions (request : Request) (sourceLines : List PriceLineEvidence) :
    Except ArithmeticError (List DerivedPriceAttribution) :=
  match candidatesOf texts request.target sourceLines with
  | none => .ok []
  | some (basis, candidates) => do
    let candidates := candidates.insertionSort LineOrder
    let agreement ← agreementOf candidates
    let status := statusOf candidates agreement
    let signatures ← candidates.mapM priceSignature
    let texted := signatures.map fun (unit, total) => (unit.map amountText, total.map amountText)
    let items ← candidates.mapM (attribution texts request basis status candidates texted)
    return items.reduceOption

end

/-! ## No division by zero -/

variable {texts : Texts} {request : Request} {line source target : PriceLineEvidence}
variable {amount : Option Decimal} {sources shuffled candidates : List PriceLineEvidence}

theorem never_normaliseMoney : Never .divisionByZero (normaliseMoney amount) := by
  cases amount with
  | none => exact never_ok _ _
  | some value => exact never_map never_quantizeHalfUp

/-- A quantity that is not zero is not rounded to zero. -/
theorem never_effectiveUnitPrice : Never .divisionByZero (effectiveUnitPrice line) := by
  unfold effectiveUnitPrice
  split
  · exact never_bind never_normaliseMoney fun _ _ => never_pure _ _
  · split
    · next lineTotal quantity _ _ =>
      split
      · exact never_ok _ _
      · next hquantity =>
        have hdivisor : (absolute precision quantity).coefficient ≠ 0 :=
          absolute_coefficient_ne_zero (by decide) hquantity
        exact never_bind (never_divisionByZero hdivisor) fun _ _ =>
          never_bind never_normaliseMoney fun _ _ => never_pure _ _
    · exact never_ok _ _

theorem never_priceSignature : Never .divisionByZero (priceSignature line) :=
  never_bind never_effectiveUnitPrice fun _ _ =>
    never_bind never_normaliseMoney fun _ _ => never_pure _ _

theorem never_sourcesAgree : Never .divisionByZero (sourcesAgree candidates) :=
  never_bind (never_mapM fun _ _ => never_priceSignature) fun _ _ => never_pure _ _

theorem never_agreementOf : Never .divisionByZero (agreementOf candidates) := by
  unfold agreementOf
  split
  · exact never_sourcesAgree
  · exact never_ok _ _

theorem never_attribution {basis : MatchBasis} {status : Status}
    {signatures : List (Option String × Option String)} : Never .divisionByZero
      (attribution texts request basis status candidates signatures source) := by
  refine never_bind never_effectiveUnitPrice fun _ _ => ?_
  dsimp only
  split
  · exact never_pure _ _
  · exact never_bind never_normaliseMoney fun _ _ => never_pure _ _

theorem never_deriveDocumentAttributions :
    Never .divisionByZero (deriveDocumentAttributions texts request sources) := by
  unfold deriveDocumentAttributions
  split
  · exact never_ok _ _
  · exact never_bind never_agreementOf fun _ _ =>
      never_bind (never_mapM fun _ _ => never_priceSignature) fun _ _ =>
        never_bind (never_mapM fun _ _ => never_attribution) fun _ _ => never_pure _ _

/-! ## The order of the sources -/

instance : Std.Total LineOrder := ⟨fun a b => le_total (lineKey a) (lineKey b)⟩

instance : IsTrans PriceLineEvidence LineOrder := ⟨fun _ _ _ => le_trans⟩

/-- A line is told by its id. -/
def IdsSeparate (sources : List PriceLineEvidence) : Prop :=
  ∀ a ∈ sources, ∀ b ∈ sources, a.lineId = b.lineId → a = b

theorem separates_of_ids (h : IdsSeparate sources) : Separates LineOrder sources := by
  intro a ha b hb hab hba
  have hkey : (a.sequence, a.lineId) = (b.sequence, b.lineId) := toLex.injective (le_antisymm hab hba)
  exact h a ha b hb (Prod.mk.inj hkey).2

/-- The lines that offer an amount under the same code. -/
def byCode (texts : Texts) (target : PriceLineEvidence) (sources : List PriceLineEvidence) :
    List PriceLineEvidence :=
  if (codeOf texts target).isSome then sources.filter (offers (codeOf texts) target) else []

/-- The lines that offer an amount under the same description. -/
def byDescription (texts : Texts) (target : PriceLineEvidence) (sources : List PriceLineEvidence) :
    List PriceLineEvidence :=
  if (descriptionOf texts target).isSome then sources.filter (offers (descriptionOf texts) target)
  else []

theorem candidatesOf_eq : candidatesOf texts target sources =
    if byCode texts target sources ≠ [] then some (.itemCodeExact, byCode texts target sources)
    else if byDescription texts target sources ≠ [] then
      some (.descriptionNormalizedExact, byDescription texts target sources)
    else none := rfl

theorem byCode_perm (h : sources.Perm shuffled) :
    (byCode texts target sources).Perm (byCode texts target shuffled) := by
  unfold byCode
  split
  · exact h.filter _
  · exact .nil

theorem byDescription_perm (h : sources.Perm shuffled) :
    (byDescription texts target sources).Perm (byDescription texts target shuffled) := by
  unfold byDescription
  split
  · exact h.filter _
  · exact .nil

theorem byCode_subset : byCode texts target sources ⊆ sources := by
  unfold byCode
  split
  · exact List.filter_subset_self _
  · exact List.nil_subset _

theorem byDescription_subset : byDescription texts target sources ⊆ sources := by
  unfold byDescription
  split
  · exact List.filter_subset_self _
  · exact List.nil_subset _

theorem IdsSeparate.subset (h : IdsSeparate sources) (hsubset : candidates ⊆ sources) :
    IdsSeparate candidates :=
  fun a ha b hb heq => h a (hsubset ha) b (hsubset hb) heq

/-- The candidates in another order are the same ones once they are sorted. -/
theorem deriveDocumentAttributions_perm (hids : IdsSeparate sources) (h : sources.Perm shuffled) :
    deriveDocumentAttributions texts request shuffled =
      deriveDocumentAttributions texts request sources := by
  have hcode := @byCode_perm texts request.target _ _ h
  have hdescription := @byDescription_perm texts request.target _ _ h
  have hsameCode := insertionSort_congr (separates_of_ids (hids.subset byCode_subset)) hcode
  have hsameDescription :=
    insertionSort_congr (separates_of_ids (hids.subset byDescription_subset)) hdescription
  have hnoCode : byCode texts request.target shuffled = [] ↔
      byCode texts request.target sources = [] :=
    ⟨fun heq => (heq ▸ hcode).eq_nil, fun heq => (heq ▸ hcode.symm).eq_nil⟩
  have hnoDescription : byDescription texts request.target shuffled = [] ↔
      byDescription texts request.target sources = [] :=
    ⟨fun heq => (heq ▸ hdescription).eq_nil, fun heq => (heq ▸ hdescription.symm).eq_nil⟩
  unfold deriveDocumentAttributions
  rw [candidatesOf_eq, candidatesOf_eq]
  simp only [ne_eq, hnoCode, hnoDescription]
  split_ifs
  · rfl
  · dsimp only
    rw [hsameDescription]
  · dsimp only
    rw [hsameCode]

/-! ## The amounts of the candidates -/

/-- Two observed amounts have one value. -/
def SameAmount (a b : Option Decimal) : Prop :=
  ∀ x, a = some x → ∀ y, b = some y → value x = value y

theorem SameAmount.refl (a : Option Decimal) : SameAmount a a := by
  rintro x hx y hy
  rw [Option.some.inj (hx.symm.trans hy)]

theorem sameAmount_of_length {amounts : List (Option Decimal)}
    (h : (differentValues amounts).length ≤ 1) {a b : Option Decimal} (ha : a ∈ amounts)
    (hb : b ∈ amounts) : SameAmount a b := by
  rintro x rfl y rfl
  have hx : value x ∈ differentValues amounts :=
    List.mem_dedup.mpr (List.mem_filterMap.mpr ⟨_, ha, rfl⟩)
  have hy : value y ∈ differentValues amounts :=
    List.mem_dedup.mpr (List.mem_filterMap.mpr ⟨_, hb, rfl⟩)
  match hvalues : differentValues amounts, h with
  | [], _ => rw [hvalues] at hx; cases hx
  | [only], _ =>
    rw [hvalues] at hx hy
    exact (List.mem_singleton.mp hx).trans (List.mem_singleton.mp hy).symm

/-- Sources that agree have one unit price and one total. -/
theorem sourcesAgree_same (h : sourcesAgree candidates = .ok true) {a b : PriceLineEvidence}
    (ha : a ∈ candidates) (hb : b ∈ candidates) {p q : Option Decimal × Option Decimal}
    (hp : priceSignature a = .ok p) (hq : priceSignature b = .ok q) :
    SameAmount p.1 q.1 ∧ SameAmount p.2 q.2 := by
  obtain ⟨signatures, hsignatures, h⟩ := bind_eq_ok.mp h
  have hmember : ∀ {line signature}, line ∈ candidates → priceSignature line = .ok signature →
      signature ∈ signatures := by
    intro line signature hline hsignature
    obtain ⟨other, hin, hother⟩ := forall₂_mem_left (mapM_eq_ok.mp hsignatures) hline
    rwa [Except.ok.inj (hsignature.symm.trans hother)]
  have hfew : (differentValues (signatures.map Prod.fst)).length ≤ 1 ∧
      (differentValues (signatures.map Prod.snd)).length ≤ 1 := by
    have h := pure_eq_ok.mp h
    split_ifs at h
    · rw [decide_eq_true_eq] at h
      omega
    · rw [decide_eq_true_eq] at h
      omega
  have hin := hmember ha hp
  have hin' := hmember hb hq
  exact ⟨sameAmount_of_length hfew.1 (List.mem_map_of_mem hin) (List.mem_map_of_mem hin'),
    sameAmount_of_length hfew.2 (List.mem_map_of_mem hin) (List.mem_map_of_mem hin')⟩

theorem offers_compatible {name : PriceLineEvidence → Option String}
    (h : offers name target source = true) : (quantityCompatibility target source).1 = true := by
  unfold offers at h
  simp only [Bool.and_eq_true] at h
  exact h.1.2

/-- What an attribution says of its source. -/
structure Derives (basis : MatchBasis) (status : Status) (source : PriceLineEvidence)
    (derived : DerivedPriceAttribution) : Prop where
  lineId : derived.sourceLineId = source.lineId
  matchBasis : derived.matchBasis = basis
  itsStatus : derived.status = status
  confidence : ∃ quantityBasis unitOrigin,
    derived.confidence = confidenceOf basis quantityBasis unitOrigin status
  signature : priceSignature source = .ok (derived.observedUnitPrice, derived.observedLineTotal)

variable {basis : MatchBasis} {status : Status} {signatures : List (Option String × Option String)}

theorem attribution_derives {item : Option DerivedPriceAttribution}
    (hcompatible : (quantityCompatibility request.target source).1 = true)
    (h : attribution texts request basis status candidates signatures source = .ok item) :
    ∃ derived, item = some derived ∧ Derives basis status source derived := by
  obtain ⟨⟨unitPrice, unitOrigin⟩, hunit, h⟩ := bind_eq_ok.mp h
  dsimp only at h
  rw [hcompatible] at h
  obtain ⟨lineTotal, htotal, h⟩ := bind_eq_ok.mp h
  obtain rfl := pure_eq_ok.mp h
  refine ⟨_, rfl, rfl, rfl, rfl, ⟨_, unitOrigin, rfl⟩, ?_⟩
  rw [priceSignature, hunit, ok_bind, htotal]
  rfl

/-- Every candidate has its attribution. -/
theorem attributions_derive {lines : List PriceLineEvidence}
    {items : List (Option DerivedPriceAttribution)}
    (hcompatible : ∀ line ∈ lines, (quantityCompatibility request.target line).1 = true)
    (h : lines.mapM (attribution texts request basis status candidates signatures) = .ok items) :
    List.Forall₂ (Derives basis status) lines items.reduceOption := by
  have hitems := mapM_eq_ok.mp h
  clear h
  induction hitems with
  | nil => exact .nil
  | cons hitem _ ih =>
    obtain ⟨derived, rfl, hderives⟩ :=
      attribution_derives (hcompatible _ List.mem_cons_self) hitem
    rw [List.reduceOption_cons_of_some]
    exact .cons hderives (ih fun line hline => hcompatible line (List.mem_cons_of_mem _ hline))

theorem confidenceOf_bounds (basis : MatchBasis) (quantityBasis : QuantityBasis)
    (unitOrigin : UnitOrigin) (status : Status) :
    0 ≤ confidenceOf basis quantityBasis unitOrigin status ∧
      confidenceOf basis quantityBasis unitOrigin status ≤ 99 / 100 ∧
      (status = .ambiguous → confidenceOf basis quantityBasis unitOrigin status ≤ 49 / 100) := by
  cases basis <;> cases quantityBasis <;> cases unitOrigin <;> cases status <;> decide +kernel

/-! ## What is attributed -/

/-- The attributions of a line to the lines of a document. -/
structure Sound (texts : Texts) (target : PriceLineEvidence) (sources : List PriceLineEvidence)
    (attributions : List DerivedPriceAttribution) : Prop where
  /-- what is not ambiguous contradicts no other candidate -/
  agreed : ∀ a ∈ attributions, a.status ≠ .ambiguous → ∀ b ∈ attributions, ∀ c ∈ attributions,
    SameAmount b.observedUnitPrice c.observedUnitPrice ∧
      SameAmount b.observedLineTotal c.observedLineTotal
  /-- a candidate by its code comes before all candidates by their descriptions -/
  byCode : byCode texts target sources ≠ [] →
    (attributions.map DerivedPriceAttribution.sourceLineId).Perm
      ((byCode texts target sources).map PriceLineEvidence.lineId) ∧
    ∀ a ∈ attributions, a.matchBasis = .itemCodeExact
  byDescription : Attribution.byCode texts target sources = [] →
    (attributions.map DerivedPriceAttribution.sourceLineId).Perm
      ((byDescription texts target sources).map PriceLineEvidence.lineId) ∧
    ∀ a ∈ attributions, a.matchBasis = .descriptionNormalizedExact
  confidence : ∀ a ∈ attributions, 0 ≤ a.confidence ∧ a.confidence ≤ 99 / 100 ∧
    (a.status = .ambiguous → a.confidence ≤ 49 / 100)

/-- The attributions of the candidates of one basis. -/
theorem attributions_of_candidates {attributions : List DerivedPriceAttribution}
    (hcandidates : candidatesOf texts request.target sources = some (basis, candidates))
    (hcompatible : ∀ line ∈ candidates, (quantityCompatibility request.target line).1 = true)
    (h : deriveDocumentAttributions texts request sources = .ok attributions) :
    ∃ (lines : List PriceLineEvidence) (agreement : Bool), lines.Perm candidates ∧
      agreementOf lines = .ok agreement ∧
      List.Forall₂ (Derives basis (statusOf lines agreement)) lines attributions := by
  unfold deriveDocumentAttributions at h
  rw [hcandidates] at h
  obtain ⟨agreement, hagreement, h⟩ := bind_eq_ok.mp h
  obtain ⟨signatures, -, h⟩ := bind_eq_ok.mp h
  obtain ⟨items, hitems, h⟩ := bind_eq_ok.mp h
  obtain rfl := pure_eq_ok.mp h
  exact ⟨_, agreement, List.perm_insertionSort _ _, hagreement,
    attributions_derive (fun line hline => hcompatible line (mem_sorted.mp hline)) hitems⟩

/-- What is not ambiguous has one candidate, or candidates that agree. -/
theorem sameAmount_of_derives {lines : List PriceLineEvidence} {agreement : Bool}
    {attributions : List DerivedPriceAttribution} (hagreement : agreementOf lines = .ok agreement)
    (hstatus : statusOf lines agreement ≠ .ambiguous)
    (hderives : List.Forall₂ (Derives basis (statusOf lines agreement)) lines attributions)
    {b c : DerivedPriceAttribution} (hb : b ∈ attributions) (hc : c ∈ attributions) :
    SameAmount b.observedUnitPrice c.observedUnitPrice ∧
      SameAmount b.observedLineTotal c.observedLineTotal := by
  obtain ⟨first, hfirst, hb⟩ := forall₂_mem_right hderives hb
  obtain ⟨second, hsecond, hc⟩ := forall₂_mem_right hderives hc
  unfold statusOf at hstatus
  split_ifs at hstatus with hone hagrees
  · obtain ⟨only, rfl⟩ := List.length_eq_one_iff.mp hone
    rw [List.mem_singleton] at hfirst hsecond
    subst hfirst hsecond
    have hsame := Prod.mk.inj (Except.ok.inj (hb.signature.symm.trans hc.signature))
    rw [hsame.1, hsame.2]
    exact ⟨SameAmount.refl _, SameAmount.refl _⟩
  · unfold agreementOf at hagreement
    split_ifs at hagreement with hmany
    · rw [hagrees] at hagreement
      exact sourcesAgree_same hagreement hfirst hsecond hb.signature hc.signature
    · rw [hagrees] at hagreement
      cases hagreement
  · exact absurd rfl hstatus

theorem sound_of_candidates {attributions : List DerivedPriceAttribution}
    {lines : List PriceLineEvidence} {agreement : Bool}
    (hagreement : agreementOf lines = .ok agreement)
    (hderives : List.Forall₂ (Derives basis (statusOf lines agreement)) lines attributions) :
    (∀ a ∈ attributions, a.status ≠ .ambiguous → ∀ b ∈ attributions, ∀ c ∈ attributions,
      SameAmount b.observedUnitPrice c.observedUnitPrice ∧
        SameAmount b.observedLineTotal c.observedLineTotal) ∧
    (∀ a ∈ attributions, a.matchBasis = basis) ∧
    ∀ a ∈ attributions, 0 ≤ a.confidence ∧ a.confidence ≤ 99 / 100 ∧
      (a.status = .ambiguous → a.confidence ≤ 49 / 100) := by
  refine ⟨fun a ha hstatus b hb c hc => ?_, fun a ha => ?_, fun a ha => ?_⟩
  · obtain ⟨_, -, hderived⟩ := forall₂_mem_right hderives ha
    rw [hderived.itsStatus] at hstatus
    exact sameAmount_of_derives hagreement hstatus hderives hb hc
  · obtain ⟨_, -, hderived⟩ := forall₂_mem_right hderives ha
    exact hderived.matchBasis
  · obtain ⟨_, -, hderived⟩ := forall₂_mem_right hderives ha
    obtain ⟨quantityBasis, unitOrigin, hconfidence⟩ := hderived.confidence
    rw [hconfidence, hderived.itsStatus]
    exact confidenceOf_bounds basis quantityBasis unitOrigin _

theorem byCode_compatible : ∀ line ∈ byCode texts target sources,
    (quantityCompatibility target line).1 = true := by
  intro line hline
  unfold byCode at hline
  split at hline
  · exact offers_compatible (List.mem_filter.mp hline).2
  · cases hline

theorem byDescription_compatible : ∀ line ∈ byDescription texts target sources,
    (quantityCompatibility target line).1 = true := by
  intro line hline
  unfold byDescription at hline
  split at hline
  · exact offers_compatible (List.mem_filter.mp hline).2
  · cases hline

theorem sound_deriveDocumentAttributions {attributions : List DerivedPriceAttribution}
    (h : deriveDocumentAttributions texts request sources = .ok attributions) :
    Sound texts request.target sources attributions := by
  have hcandidates := @candidatesOf_eq texts request.target sources
  by_cases hcode : byCode texts request.target sources = []
  · rw [if_neg (not_not.mpr hcode)] at hcandidates
    by_cases hdescription : byDescription texts request.target sources = []
    · rw [if_neg (not_not.mpr hdescription)] at hcandidates
      unfold deriveDocumentAttributions at h
      rw [hcandidates] at h
      obtain rfl := Except.ok.inj h
      exact ⟨fun _ hin => absurd hin List.not_mem_nil, fun hsome => absurd hcode hsome,
        fun _ => ⟨by rw [hdescription]; exact .nil, fun _ hin => absurd hin List.not_mem_nil⟩,
        fun _ hin => absurd hin List.not_mem_nil⟩
    · rw [if_pos hdescription] at hcandidates
      obtain ⟨lines, agreement, hperm, hagreement, hderives⟩ :=
        attributions_of_candidates hcandidates byDescription_compatible h
      obtain ⟨hagreed, hbasis, hconfidence⟩ := sound_of_candidates hagreement hderives
      refine ⟨hagreed, fun hsome => absurd hcode hsome, fun _ => ⟨?_, hbasis⟩, hconfidence⟩
      rw [map_eq_of_forall₂ hderives fun _ _ hderived => hderived.lineId]
      exact hperm.map _
  · rw [if_pos hcode] at hcandidates
    obtain ⟨lines, agreement, hperm, hagreement, hderives⟩ :=
      attributions_of_candidates hcandidates byCode_compatible h
    obtain ⟨hagreed, hbasis, hconfidence⟩ := sound_of_candidates hagreement hderives
    refine ⟨hagreed, fun _ => ⟨?_, hbasis⟩, fun hnone => absurd hnone hcode, hconfidence⟩
    rw [map_eq_of_forall₂ hderives fun _ _ hderived => hderived.lineId]
    exact hperm.map _

/-- **The attribution of prices is sound**, and it depends on the lines of the
document only, not on their order. -/
theorem price_attribution_sound (texts : Texts) (request : Request)
    (sources : List PriceLineEvidence) (hids : IdsSeparate sources) :
    deriveDocumentAttributions texts request sources ≠ .error .divisionByZero ∧
    (∀ shuffled, sources.Perm shuffled → deriveDocumentAttributions texts request shuffled =
      deriveDocumentAttributions texts request sources) ∧
    ∀ attributions, deriveDocumentAttributions texts request sources = .ok attributions →
      Sound texts request.target sources attributions :=
  ⟨never_deriveDocumentAttributions, fun _ => deriveDocumentAttributions_perm hids,
    fun _ => sound_deriveDocumentAttributions⟩

/-- A line of the order, and the same item twice on the bill. -/
def sampleLine (lineId : Nat) (unitPrice lineTotal : Option Decimal) : PriceLineEvidence where
  lineId
  documentId := 1
  documentVersionId := 1
  sequence := lineId
  itemCode := some "A1"
  description := none
  quantity := some ⟨false, 20000, -4⟩
  unitPrice
  lineTotal
  observedAt := ⟨0, 0⟩

def sampleTexts : Texts where
  strip text := text
  fold text := text
  uuid5 _ := 0

def sampleSources : List PriceLineEvidence :=
  [sampleLine 2 (some ⟨false, 35000, -4⟩) none, sampleLine 3 none (some ⟨false, 70000, -4⟩)]

def sampleRequest : Request where
  correlationId := 1
  target := sampleLine 1 none none
  sourceKind := .prebill
  sourceDocumentId := 2
  sourceDocumentVersionId := 2

theorem price_attribution_sound_sample : ∃ attributions,
    deriveDocumentAttributions sampleTexts sampleRequest sampleSources = .ok attributions ∧
      attributions.map DerivedPriceAttribution.status = [.agreed, .agreed] ∧
      Sound sampleTexts sampleRequest.target sampleSources attributions := by
  have hrun : (deriveDocumentAttributions sampleTexts sampleRequest sampleSources).map
      (·.map DerivedPriceAttribution.status) = .ok [.agreed, .agreed] := by
    decide +kernel
  obtain ⟨attributions, hattributions, hstatus⟩ := map_eq_ok.mp hrun
  obtain ⟨-, -, hsound⟩ := price_attribution_sound sampleTexts sampleRequest sampleSources
    (by unfold IdsSeparate; simp [sampleSources, sampleLine])
  exact ⟨attributions, hattributions, hstatus, hsound attributions hattributions⟩

end RetailPrintGuard.Pricing.Attribution
