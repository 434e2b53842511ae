import RetailPrintGuard.Fraud.Rules

/-! # Evaluating a transaction

Every enabled rule is asked once; a documented whitelist entry suppresses what
it matches. Only the missing close waits for the clock, and no evidence reads
it. -/
namespace RetailPrintGuard.Fraud.Evaluation
open RetailPrintGuard.Common.Python RetailPrintGuard.Common.Domain
open RetailPrintGuard.Correlation.Lines RetailPrintGuard.Correlation.Engine
open RetailPrintGuard.Fraud.Findings RetailPrintGuard.Fraud.Rules

/-! ## The engine -/

/-- The rules, within what the constructor checks. -/
structure FraudEngine where
  rules : List RuleDefinition := defaultRules
  unique : (rules.map RuleDefinition.code).Nodup := by decide

/-- `_SECONDARY_ECONOMIC_RULES` -/
def secondaryEconomicRules : RuleCode → Bool
  | .prebillFiscalAmountDrop | .itemRemovedAfterPrebill | .priceReducedAfterPrebill
  | .extremePriceChange | .sameReferenceDifferentAmount => true
  | _ => false

/-- `min(100, max(0, int((Decimal(data.score) * rule.weight).to_integral_value())))` -/
def weightedScore (score : Int) (rule : RuleDefinition) : Int :=
  min 100 (max 0 (roundHalfEven (score * rule.weight) 10000))

/-- A rule that asks for the label of a line without one raises. -/
def handlerRaises (context : FraudContext) (rule : RuleDefinition) : Bool :=
  rule.code == .negativeOrZeroValueItem &&
    (context.transaction.documents.filter fun document => pricedTypes document.type).any
      fun document => document.lines.any unlabelledLine

section
variable (rt : Runtime)

/-- The finding of one rule. -/
def ruleFinding (context : FraudContext) (rule : RuleDefinition) : Option FraudFinding :=
  (handler rt rule.code context rule).map fun data =>
    { ruleCode := rule.code
      ruleVersion := rule.version
      severity := rule.severity
      score := weightedScore data.score rule
      transactionId := context.transaction.transactionId
      documentIds :=
        if data.documentIds.isEmpty then context.transaction.ids else data.documentIds
      description := data.description
      explanation := data.explanation
      evidence := data.evidence
      confidence := data.confidence
      openedAt := context.evaluatedAt }

/-- The primary rule takes the place of the secondary ones on a transaction
with a prebill. -/
def primaryApplies (engine : FraudEngine) (context : FraudContext) : Bool :=
  (engine.rules.any fun rule => rule.code == .modificaPostPreconto && rule.enabled) &&
    context.transaction.prebillTotal.isSome

/-- `_evaluate_candidates`: nothing where a rule raises. -/
def evaluateCandidates (engine : FraudEngine) (context : FraudContext) :
    Option (List FraudFinding) :=
  let documents := context.transaction.documents
  if !documents.isEmpty && documents.all (fun document => document.type.nonSale) then some []
  else
    let enabled := engine.rules.filter RuleDefinition.enabled
    if enabled.any (handlerRaises context) then none
    else
      let findings := enabled.filterMap (ruleFinding rt context)
      if primaryApplies engine context then
        some (findings.filter fun finding => !secondaryEconomicRules finding.ruleCode)
      else some findings

/-! ## The whitelist -/

/-- `_normalise_scope_value` -/
def normaliseScopeValue (value : String) : String :=
  " ".intercalate (rt.words (rt.upper (rt.strip value)))

variable (uuidText : UUID → String)

/-- What an entry of a scope is compared with. -/
def scopeValues (transaction : CorrelatedTransaction) : WhitelistScope → List String
  | .global => []
  | .transaction => [uuidText transaction.transactionId]
  | .device => transaction.documents.map (·.sourceDeviceId)
  | .operator => (transaction.documents.filterMap (·.operatorCode)).filter fun code => code != ""
  | .document => transaction.documents.map fun document => uuidText document.id
  | .reference => (transaction.documents.flatMap fun document =>
      document.orderCode.toList ++ document.externalDocumentCode.toList).filter fun code =>
        code != ""

/-- `_whitelist_matches` -/
def whitelistMatches (context : FraudContext) (finding : FraudFinding) (entry : WhitelistEntry) :
    Bool :=
  if context.evaluatedAt.micros < entry.validFrom.micros ||
      entry.validUntil.any (fun until_ => until_.micros < context.evaluatedAt.micros) then false
  else if entry.ruleCode.any fun code => code != finding.ruleCode then false
  else
    let expected := normaliseScopeValue rt entry.scopeValue
    if entry.scope = .global then expected == "*"
    else ((scopeValues uuidText context.transaction entry.scope).map
      (normaliseScopeValue rt)).contains expected

structure SuppressedFinding where
  finding : FraudFinding
  whitelistId : UUID
  reason : String
deriving DecidableEq

structure FraudEvaluation where
  findings : List FraudFinding
  suppressed : List SuppressedFinding
deriving DecidableEq

/-- The entry that suppresses a finding: the first in the order of the ids. -/
def suppressing (context : FraudContext) (finding : FraudFinding) : Option WhitelistEntry :=
  (context.whitelistEntries.insertionSort fun a b => a.id ≤ b.id).find?
    (whitelistMatches rt uuidText context finding)

/-- `evaluate_with_suppressions` -/
def evaluateWithSuppressions (engine : FraudEngine) (context : FraudContext) :
    Option FraudEvaluation :=
  (evaluateCandidates rt engine context).map fun candidates =>
    { findings := candidates.filter fun finding =>
        (suppressing rt uuidText context finding).isNone
      suppressed := candidates.filterMap fun finding =>
        (suppressing rt uuidText context finding).map fun entry =>
          { finding, whitelistId := entry.id, reason := entry.reason } }

def evaluate (engine : FraudEngine) (context : FraudContext) : Option (List FraudFinding) :=
  (evaluateWithSuppressions rt uuidText engine context).map FraudEvaluation.findings

end

/-! ## Evaluating again -/

/-- The same context at another time. -/
def reevaluated (context : FraudContext) (time : Timestamp) : FraudContext :=
  { context with evaluatedAt := time }

section
variable {rt : Runtime} {engine : FraudEngine} {context : FraudContext} {first second : Timestamp}

/-- The other rules do not read the clock. -/
theorem handler_reevaluated {code : RuleCode} (h : code ≠ .orderWithoutFiscalClose)
    (rule : RuleDefinition) (time : Timestamp) :
    handler rt code (reevaluated context time) rule = handler rt code context rule := by
  cases code
  case orderWithoutFiscalClose => exact absurd rfl h
  all_goals rfl

/-- An order that was open long enough stays so. -/
theorem orderWithoutFiscalClose_later {later : FraudContext}
    (htransaction : later.transaction = context.transaction)
    (hle : context.evaluatedAt.micros ≤ later.evaluatedAt.micros) {rule : RuleDefinition}
    {data : FindingData} (h : orderWithoutFiscalClose context rule = some data) :
    orderWithoutFiscalClose later rule = some data := by
  unfold orderWithoutFiscalClose at h ⊢
  rw [htransaction]
  cases hlatest : latestTime ((context.transaction.documents.filter fun document =>
      document.type == .order || document.type == .preBill).map NormalizedDocument.documentTime) with
  | none =>
    simp only [hlatest] at h
    cases h
  | some latest =>
    simp only [hlatest] at h ⊢
    split at h
    · cases h
    · next hopen =>
      rw [Bool.or_eq_true, decide_eq_true_eq, not_or] at hopen
      rw [if_neg, h]
      rw [Bool.or_eq_true, decide_eq_true_eq, not_or]
      exact ⟨hopen.1, by omega⟩

/-- What a rule finds, it finds later as well. -/
theorem handler_later (hle : first.micros ≤ second.micros) {code : RuleCode}
    {rule : RuleDefinition} {data : FindingData}
    (h : handler rt code (reevaluated context first) rule = some data) :
    handler rt code (reevaluated context second) rule = some data := by
  by_cases hcode : code = .orderWithoutFiscalClose
  · subst hcode
    exact @orderWithoutFiscalClose_later (reevaluated context first)
      (reevaluated context second) rfl hle rule data h
  · rw [handler_reevaluated hcode] at h ⊢
    exact h

theorem ruleFinding_later (hle : first.micros ≤ second.micros) {rule : RuleDefinition}
    {finding : FraudFinding} (h : ruleFinding rt (reevaluated context first) rule = some finding) :
    ∃ later, ruleFinding rt (reevaluated context second) rule = some later ∧
      later.toFindingIdentity = finding.toFindingIdentity := by
  obtain ⟨data, hdata, rfl⟩ := Option.map_eq_some_iff.mp h
  exact ⟨_, Option.map_eq_some_iff.mpr ⟨data, handler_later hle hdata, rfl⟩, rfl⟩

theorem mem_evaluateCandidates {findings : List FraudFinding}
    (h : evaluateCandidates rt engine context = some findings) {finding : FraudFinding}
    (hmem : finding ∈ findings) :
    ∃ rule ∈ engine.rules, rule.enabled = true ∧ ruleFinding rt context rule = some finding := by
  have hfound : ∀ {finding : FraudFinding}, finding ∈ (engine.rules.filter
      RuleDefinition.enabled).filterMap (ruleFinding rt context) →
      ∃ rule ∈ engine.rules, rule.enabled = true ∧
        ruleFinding rt context rule = some finding := by
    intro finding hfinding
    obtain ⟨rule, hrule, hfinding⟩ := List.mem_filterMap.mp hfinding
    obtain ⟨hrule, henabled⟩ := List.mem_filter.mp hrule
    exact ⟨rule, hrule, henabled, hfinding⟩
  simp only [evaluateCandidates] at h
  split at h
  · cases h
    cases hmem
  · split at h
    · cases h
    · split at h
      · cases h
        exact hfound (List.mem_of_mem_filter hmem)
      · cases h
        exact hfound hmem

/-- Each rule has at most one finding. -/
theorem eq_of_ruleCode {findings : List FraudFinding}
    (h : evaluateCandidates rt engine context = some findings) {a b : FraudFinding}
    (ha : a ∈ findings) (hb : b ∈ findings) (hcode : a.ruleCode = b.ruleCode) : a = b := by
  obtain ⟨rule, hrule, -, hfinding⟩ := mem_evaluateCandidates h ha
  obtain ⟨other, hother, -, hfinding'⟩ := mem_evaluateCandidates h hb
  have hcodes : rule.code = other.code := by
    obtain ⟨data, -, rfl⟩ := Option.map_eq_some_iff.mp hfinding
    obtain ⟨data', -, rfl⟩ := Option.map_eq_some_iff.mp hfinding'
    exact hcode
  obtain rfl := List.inj_on_of_nodup_map engine.unique hrule hother hcodes
  exact Option.some.inj (hfinding.symm.trans hfinding')

/-- Candidates that every rule finds again are found again. -/
theorem evaluateCandidates_again {later : FraudContext}
    (htransaction : later.transaction = context.transaction)
    (hrules : ∀ rule finding, ruleFinding rt context rule = some finding →
      ∃ other, ruleFinding rt later rule = some other ∧
        other.toFindingIdentity = finding.toFindingIdentity)
    {findings : List FraudFinding} (h : evaluateCandidates rt engine context = some findings) :
    ∃ others, evaluateCandidates rt engine later = some others ∧
      ∀ finding ∈ findings, ∃ other ∈ others,
        other.toFindingIdentity = finding.toFindingIdentity := by
  have hfound : ∀ finding ∈ (engine.rules.filter RuleDefinition.enabled).filterMap
      (ruleFinding rt context), ∃ other ∈ (engine.rules.filter
        RuleDefinition.enabled).filterMap (ruleFinding rt later),
        other.toFindingIdentity = finding.toFindingIdentity := by
    intro finding hfinding
    obtain ⟨rule, hrule, hfinding⟩ := List.mem_filterMap.mp hfinding
    obtain ⟨other, hother, heq⟩ := hrules rule finding hfinding
    exact ⟨other, List.mem_filterMap.mpr ⟨rule, hrule, hother⟩, heq⟩
  have hraise : handlerRaises later = handlerRaises context := by
    funext rule
    rw [handlerRaises, htransaction, handlerRaises]
  have hprimary : primaryApplies engine later = primaryApplies engine context := by
    rw [primaryApplies, htransaction, primaryApplies]
  simp only [evaluateCandidates, htransaction, hraise, hprimary] at h ⊢
  split at h
  · next hnone =>
    cases h
    exact ⟨[], if_pos hnone, by simp⟩
  · next hsale =>
    split at h
    · cases h
    · next hraises =>
      rw [if_neg hsale, if_neg hraises]
      split at h
      · next happlies =>
        cases h
        refine ⟨_, if_pos happlies, fun finding hfinding => ?_⟩
        obtain ⟨hfinding, hkept⟩ := List.mem_filter.mp hfinding
        obtain ⟨other, hother, heq⟩ := hfound finding hfinding
        refine ⟨other, List.mem_filter.mpr ⟨hother, ?_⟩, heq⟩
        rw [congrArg FindingIdentity.ruleCode heq]
        exact hkept
      · next happlies =>
        cases h
        exact ⟨_, if_neg happlies, hfound⟩

/-- Without a whitelist the candidates are the findings. -/
theorem evaluate_of_no_whitelist (uuidText : UUID → String) (h : context.whitelistEntries = []) :
    evaluate rt uuidText engine context = evaluateCandidates rt engine context := by
  have hnone : ∀ finding, suppressing rt uuidText context finding = none := by
    intro finding
    rw [suppressing, h]
    rfl
  rw [evaluate, evaluateWithSuppressions, Option.map_map]
  simp [Function.comp_def, hnone]

end

/-- Without a whitelist, the fingerprint of a finding is found at every later
time, and it stays the only one of its rule. -/
theorem fingerprints_persist (rt : Runtime) (uuidText : UUID → String) (engine : FraudEngine)
    (context : FraudContext) (hempty : context.whitelistEntries = []) {first second : Timestamp}
    (hle : first.micros ≤ second.micros) {findings : List FraudFinding}
    (h : evaluate rt uuidText engine (reevaluated context first) = some findings) :
    ∃ later, evaluate rt uuidText engine (reevaluated context second) = some later ∧
      (∀ fingerprint ∈ findings.map findingFingerprint,
        fingerprint ∈ later.map findingFingerprint) ∧
      ∀ finding ∈ findings, ∀ other ∈ later, other.ruleCode = finding.ruleCode →
        findingFingerprint other = findingFingerprint finding := by
  have hcandidates : ∀ time, evaluate rt uuidText engine (reevaluated context time) =
      evaluateCandidates rt engine (reevaluated context time) :=
    fun time => evaluate_of_no_whitelist uuidText hempty
  rw [hcandidates] at h ⊢
  obtain ⟨later, hlater, hfound⟩ := @evaluateCandidates_again rt engine (reevaluated context first)
    (reevaluated context second) rfl (fun _ _ => ruleFinding_later hle) _ h
  refine ⟨later, hlater, ?_, ?_⟩
  · intro fingerprint hmem
    obtain ⟨finding, hfinding, rfl⟩ := List.mem_map.mp hmem
    obtain ⟨other, hother, heq⟩ := hfound finding hfinding
    exact List.mem_map.mpr ⟨other, hother, congrArg Digest.mk heq⟩
  · intro finding hfinding other hother hcode
    obtain ⟨same, hsame, heq⟩ := hfound finding hfinding
    have hcodes : other.ruleCode = same.ruleCode :=
      hcode.trans (congrArg FindingIdentity.ruleCode heq).symm
    rw [eq_of_ruleCode hlater hother hsame hcodes]
    exact congrArg Digest.mk heq

/-- A prebill of a table that nothing closes. -/
def openTable : FraudContext where
  transaction := buildTransaction asciiRuntime Correlation.Scoring.standardEngine []
    [{ id := 1
       sourceDeviceId := "POS"
       sourceJobId := "J1"
       type := .preBill
       tableCode := some "12"
       capturedAt := { micros := 0 } }]
  evaluatedAt := { micros := 0 }

theorem openTable_persists :
    ∃ findings later, evaluate asciiRuntime toString {} (reevaluated openTable
        { micros := seconds 7200 }) = some findings ∧ findings ≠ [] ∧
      evaluate asciiRuntime toString {} (reevaluated openTable
        { micros := seconds 10800 }) = some later ∧
      ∀ fingerprint ∈ findings.map findingFingerprint,
        fingerprint ∈ later.map findingFingerprint := by
  have hfound : ∃ findings, evaluate asciiRuntime toString {} (reevaluated openTable
      { micros := seconds 7200 }) = some findings ∧ findings ≠ [] := by
    refine ⟨_, (Option.some_get (by decide +kernel)).symm, by decide +kernel⟩
  obtain ⟨findings, hfindings, hne⟩ := hfound
  have hle : ({ micros := seconds 7200 } : Timestamp).micros ≤
      ({ micros := seconds 10800 } : Timestamp).micros := by decide
  obtain ⟨later, hlater, hpersist, -⟩ := fingerprints_persist asciiRuntime toString {} openTable
    rfl hle hfindings
  exact ⟨findings, later, hfindings, hne, hlater, hpersist⟩

end RetailPrintGuard.Fraud.Evaluation
