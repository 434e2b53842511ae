import RetailPrintGuard.Fraud.Rules
import RetailPrintGuard.Common.Formats
import RetailPrintGuard.Library.Periods
import RetailPrintGuard.Library.RowLock
import RetailPrintGuard.Library.Sha256

/-! # Versions of a rule

A run of the fraud worker and a call of the API each lock the latest version of
a rule, and close it and add the next one where the configuration changed. -/
namespace RetailPrintGuard.Fraud.RuleVersions
open RetailPrintGuard.Library RetailPrintGuard.Library.Periods RetailPrintGuard.Library.RowLock
open RetailPrintGuard.Common.Formats RetailPrintGuard.Fraud.Findings RetailPrintGuard.Fraud.Rules

/-! ## Rows -/

def AlertSeverity.value : AlertSeverity → String
  | .low => "LOW"
  | .medium => "MEDIUM"
  | .high => "HIGH"
  | .critical => "CRITICAL"

def fraudEngineVersion : String := "rpg-fraud-1.3.0"

/-- `FraudRuleVersion`; times in microseconds, amounts in ten-thousandths -/
structure RuleVersion where
  version : Nat
  implementationVersion : String
  configurationFingerprint : String
  enabled : Bool
  severity : String
  threshold : Option Int
  weight : Int
  configuration : Json
  effectiveFrom : Int
  effectiveUntil : Option Int := none

/-- `FraudRule` with its versions, the newest first. -/
structure Rule where
  enabled : Bool
  versions : List RuleVersion := []

def versionsOf (rule : Option Rule) : List RuleVersion := (rule.map Rule.versions).getD []

def RuleVersion.period (v : RuleVersion) : Period Int := ⟨v.effectiveFrom, v.effectiveUntil⟩

section
variable (sha256 : Bytes → String)

/-- `rule_configuration_fingerprint` -/
def ruleConfigurationFingerprint (implementationVersion : String) (enabled : Bool)
    (severity : String) (weight : Int) (configuration : Json) : String :=
  sha256 (Json.obj [
    ("implementation_version", .str implementationVersion),
    ("enabled", .bool enabled),
    ("severity", .str severity),
    ("weight", .str (decimalText weight)),
    ("configuration", configuration)]).dumps

/-! ## Writers -/

/-- What a run of the worker brings to a rule. -/
structure Run where
  /-- read when the run starts, before its transaction -/
  now : Int
  /-- `rule.enabled`, read without a lock -/
  ruleEnabled : Bool
  /-- of the default rule, for a rule that is not stored -/
  defaultEnabled : Bool := true
  severity : AlertSeverity
  weight : Int := 10000
  threshold : Option Int := none
  configuration : Json

/-- A call of `set_rule_enabled`. -/
structure Call where
  enabled : Bool
  /-- read under the locks of the rule and of its latest version -/
  now : Int

/-- The rule of a run, inserted where there is none. -/
def Run.enabled (run : Run) (rule : Option Rule) : Bool :=
  match rule with
  | none => run.defaultEnabled
  | some _ => run.ruleEnabled

def Run.desiredFingerprint (run : Run) (rule : Option Rule) : String :=
  ruleConfigurationFingerprint sha256 fraudEngineVersion (run.enabled rule)
    (AlertSeverity.value run.severity) run.weight run.configuration

def Run.version (run : Run) (rule : Option Rule) (version : Nat) : RuleVersion where
  version
  implementationVersion := fraudEngineVersion
  configurationFingerprint := run.desiredFingerprint sha256 rule
  enabled := run.enabled rule
  severity := AlertSeverity.value run.severity
  threshold := run.threshold
  weight := run.weight
  configuration := run.configuration
  effectiveFrom := run.now

def Call.version (call : Call) (latest : RuleVersion) : RuleVersion where
  version := latest.version + 1
  implementationVersion := latest.implementationVersion
  configurationFingerprint := ruleConfigurationFingerprint sha256 latest.implementationVersion
    call.enabled latest.severity latest.weight latest.configuration
  enabled := call.enabled
  severity := latest.severity
  threshold := latest.threshold
  weight := latest.weight
  configuration := latest.configuration
  effectiveFrom := call.now

/-- The latest version is closed, unless it is, and the next one added. -/
def supersede (now : Int) (next latest : RuleVersion) (older : List RuleVersion) :
    List RuleVersion :=
  next :: { latest with effectiveUntil := some (latest.effectiveUntil.getD now) } :: older

/-- `_ensure_and_load_rules`, for one rule -/
def ensureRule (run : Run) (rule : Option Rule) : Option Rule :=
  let enabled := (rule.map Rule.enabled).getD run.defaultEnabled
  match versionsOf rule with
  | [] => some { enabled, versions := [run.version sha256 rule 1] }
  | latest :: older =>
    if latest.configurationFingerprint ≠ run.desiredFingerprint sha256 rule then
      let next := run.version sha256 rule (latest.version + 1)
      some { enabled, versions := supersede run.now next latest older }
    else rule

def setRuleEnabled (call : Call) : Option Rule → Option Rule
  | none => none
  | some rule =>
    match rule.versions with
    | [] => some { rule with enabled := call.enabled }
    | latest :: older =>
      if latest.enabled ≠ call.enabled ∨ rule.enabled ≠ call.enabled then
        let next := call.version sha256 latest
        some { enabled := call.enabled, versions := supersede call.now next latest older }
      else some { rule with enabled := call.enabled }

inductive Writer where
  | ensureRule (run : Run)
  | setRuleEnabled (call : Call)

/-- When the writer read its clock. -/
def Writer.now : Writer → Int
  | .ensureRule run => run.now
  | .setRuleEnabled call => call.now

def Writer.write : Writer → Option Rule → Option Rule
  | .ensureRule run => RuleVersions.ensureRule sha256 run
  | .setRuleEnabled call => RuleVersions.setRuleEnabled sha256 call

/-- The writer replaces the latest version of the rule. -/
def Writer.replaces (writer : Writer) (rule : Option Rule) (latest : RuleVersion) : Bool :=
  match writer with
  | .ensureRule run => latest.configurationFingerprint != run.desiredFingerprint sha256 rule
  | .setRuleEnabled call => latest.enabled != call.enabled || rule.any (·.enabled != call.enabled)

/-- No version that the writer replaces starts after it read its clock. -/
def InTime (writer : Writer) (rule : Option Rule) : Prop :=
  ∀ latest ∈ (versionsOf rule).head?, writer.replaces sha256 rule latest = true →
    latest.effectiveFrom ≤ writer.now

/-- The rows that the transactions of the writers read and write. -/
def Writer.work (writer : Writer) (rule : Option Rule) : Unit × Option Rule :=
  ((), writer.write sha256 rule)

end

/-! ## What the versions of a rule are -/

/-- The numbers of the versions are `n, …, 2, 1`. -/
def Contiguous : List RuleVersion → Prop
  | [] => True
  | v :: rest => v.version = rest.length + 1 ∧ Contiguous rest

/-- The newest version is effective, and every other one until its successor is. -/
structure Succession (versions : List RuleVersion) : Prop where
  contiguous : Contiguous versions
  abutting : Abutting none (versions.map RuleVersion.period)

def InOrder (versions : List RuleVersion) : Prop :=
  Ordered none (versions.map RuleVersion.period)

section
variable {sha256 : Bytes → String}

theorem succession_supersede {now : Int} {next latest : RuleVersion} {older : List RuleVersion}
    (h : Succession (latest :: older)) (hversion : next.version = latest.version + 1)
    (hfrom : next.effectiveFrom = now) (huntil : next.effectiveUntil = none) :
    Succession (supersede now next latest older) ∧
      (InOrder (supersede now next latest older) ↔
        InOrder (latest :: older) ∧ latest.effectiveFrom ≤ now) := by
  obtain ⟨⟨hnumber, hnumbers⟩, hopen, habutting⟩ := h
  have hclosed : latest.effectiveUntil.getD now = next.effectiveFrom := by
    rw [show latest.effectiveUntil = none from hopen, hfrom]
    rfl
  refine ⟨⟨⟨?_, hnumber, hnumbers⟩, huntil, ?_, habutting⟩, ?_⟩
  · rw [hversion, hnumber]
    rfl
  · show some (latest.effectiveUntil.getD now) = some next.effectiveFrom
    rw [hclosed]
  · show ((∀ u ∈ none, next.effectiveFrom ≤ u) ∧ (∀ u ∈ some next.effectiveFrom,
      latest.effectiveFrom ≤ u) ∧ Ordered (some latest.effectiveFrom) _) ↔
      ((∀ u ∈ none, latest.effectiveFrom ≤ u) ∧ Ordered (some latest.effectiveFrom) _) ∧ _
    simp [hfrom, and_comm]

/-- What a writer does to the versions. -/
theorem write_cases (writer : Writer) (rule : Option Rule) :
    (versionsOf (writer.write sha256 rule) = versionsOf rule ∧
        ∀ latest ∈ (versionsOf rule).head?, writer.replaces sha256 rule latest = false) ∨
      (versionsOf rule = [] ∧ ∃ v : RuleVersion, versionsOf (writer.write sha256 rule) = [v] ∧
        v.version = 1 ∧ v.effectiveUntil = none) ∨
      ∃ latest older next, versionsOf rule = latest :: older ∧
        writer.replaces sha256 rule latest = true ∧
        versionsOf (writer.write sha256 rule) = supersede writer.now next latest older ∧
        next.version = latest.version + 1 ∧ next.effectiveFrom = writer.now ∧
        next.effectiveUntil = none := by
  cases writer with
  | ensureRule run =>
    show (versionsOf (ensureRule sha256 run rule) = _ ∧ _) ∨ _
    cases hversions : versionsOf rule with
    | nil =>
      refine .inr (.inl ⟨rfl, run.version sha256 rule 1, ?_, rfl, rfl⟩)
      show versionsOf (ensureRule sha256 run rule) = _
      rw [ensureRule, hversions]
      rfl
    | cons latest older =>
      by_cases hchanged : latest.configurationFingerprint = run.desiredFingerprint sha256 rule
      · refine .inl ⟨?_, ?_⟩
        · rw [ensureRule, hversions]
          dsimp only
          rw [if_neg (not_not.mpr hchanged), hversions]
        · rintro _ ⟨⟩
          simp [Writer.replaces, hchanged]
      · refine .inr (.inr ⟨latest, older, run.version sha256 rule (latest.version + 1), rfl, ?_, ?_,
          rfl, rfl, rfl⟩)
        · simp [Writer.replaces, hchanged]
        · show versionsOf (ensureRule sha256 run rule) = _
          rw [ensureRule, hversions]
          dsimp only
          rw [if_pos hchanged]
          rfl
  | setRuleEnabled call =>
    cases rule with
    | none => exact .inl ⟨rfl, by rintro _ ⟨⟩⟩
    | some rule =>
      obtain ⟨enabled, versions⟩ := rule
      cases versions with
      | nil => exact .inl ⟨rfl, by rintro _ ⟨⟩⟩
      | cons latest older =>
        by_cases hchanged : latest.enabled ≠ call.enabled ∨ enabled ≠ call.enabled
        · refine .inr (.inr ⟨latest, older, call.version sha256 latest, rfl, ?_, ?_, rfl, rfl, rfl⟩)
          · simpa [Writer.replaces] using hchanged
          · show versionsOf (setRuleEnabled sha256 call (some ⟨enabled, latest :: older⟩)) = _
            rw [setRuleEnabled]
            dsimp only
            rw [if_pos hchanged]
            rfl
        · refine .inl ⟨?_, ?_⟩
          · show versionsOf (setRuleEnabled sha256 call (some ⟨enabled, latest :: older⟩)) = _
            rw [setRuleEnabled]
            dsimp only
            rw [if_neg hchanged]
            rfl
          · rintro _ ⟨⟩
            simpa [Writer.replaces] using hchanged

/-- A writer keeps the succession, and the order where it was in time. -/
theorem write_succession {writer : Writer} {rule : Option Rule} (h : Succession (versionsOf rule)) :
    Succession (versionsOf (writer.write sha256 rule)) ∧
      (InOrder (versionsOf (writer.write sha256 rule)) ↔
        InOrder (versionsOf rule) ∧ InTime sha256 writer rule) := by
  rcases @write_cases sha256 writer rule with ⟨hsame, hkept⟩ | ⟨hnil, v, hfirst, hversion, hopen⟩ |
    ⟨latest, older, next, hversions, hreplaces, hwritten, hversion, hfrom, huntil⟩
  · rw [hsame]
    refine ⟨h, iff_self_and.mpr fun _ latest hlatest hreplaces => ?_⟩
    rw [hkept latest hlatest] at hreplaces
    cases hreplaces
  · have htime : InTime sha256 writer rule := by
      intro latest hlatest
      rw [hnil] at hlatest
      cases hlatest
    rw [hfirst, hnil]
    refine ⟨⟨⟨hversion, trivial⟩, hopen, trivial⟩, iff_of_true ⟨?_, trivial⟩ ⟨trivial, htime⟩⟩
    rintro _ ⟨⟩
  · have htime : InTime sha256 writer rule ↔ latest.effectiveFrom ≤ writer.now := by
      rw [InTime, hversions]
      simp [hreplaces]
    rw [hversions] at h
    rw [hwritten, hversions, htime]
    exact succession_supersede h hversion hfrom huntil

theorem serial_succession {ι : Type} {writers : ι → Writer} {rule : Option Rule}
    {log : List (Commit ι (Option Rule) Unit)}
    (hserial : Serial (fun i => (writers i).work sha256) rule log)
    (h : Succession (versionsOf rule)) :
    Succession (versionsOf (final rule log)) ∧
      (InOrder (versionsOf (final rule log)) ↔ InOrder (versionsOf rule) ∧
        ∀ c ∈ log, InTime sha256 (writers c.transaction) c.before) := by
  induction log generalizing rule with
  | nil => exact ⟨h, by simp [final]⟩
  | cons c rest ih =>
    obtain ⟨hbefore, hwork, hrest⟩ := hserial
    have hafter : c.after = (writers c.transaction).write sha256 rule := congrArg Prod.snd hwork
    obtain ⟨hsuccession, hinorder⟩ := @write_succession sha256 (writers c.transaction) rule h
    rw [← hafter] at hsuccession hinorder
    obtain ⟨hfinal, horder⟩ := ih hrest hsuccession
    refine ⟨hfinal, ?_⟩
    rw [List.forall_mem_cons, final, horder, hinorder, hbefore, and_assoc]

end

/-! ## Every interleaving -/

section
variable {sha256 : Bytes → String} {ι : Type} [DecidableEq ι] {writers : ι → Writer}
  {s : State ι (Option Rule) Unit}

/-- The stored versions of the rule. -/
def versions (s : State ι (Option Rule) Unit) : List RuleVersion := versionsOf (s.row.getD none)

/-- The versions are contiguous in every interleaving. They exclude one another
exactly when every writer that replaced a version had read its clock in time. -/
theorem versions_exclusive_iff
    (h : Reachable none (fun i => (writers i).work sha256) none s) :
    Contiguous (versions s) ∧
      (Exclusive ((versions s).map RuleVersion.period) ↔
        ∀ c ∈ s.log, InTime sha256 (writers c.transaction) c.before) := by
  have hs := invariant_of_reachable h
  have hstart : Succession (versionsOf none) := ⟨trivial, trivial⟩
  obtain ⟨hsuccession, hinorder⟩ := serial_succession hs.serial hstart
  rw [← hs.current] at hsuccession hinorder
  refine ⟨hsuccession.contiguous, hsuccession.abutting.exclusive_iff.trans ?_⟩
  refine hinorder.trans ⟨And.right, And.intro trivial⟩

end

/-! ## A run that reads its clock before a call of the API -/

def evening : Int := 1782900000000000

/-- A run, a call ten seconds later that disables the rule, and a second run
that read its clock and the rule five seconds before the call. -/
def writers (i : Fin 3) : Writer :=
  if i.val = 0 then
    .ensureRule { now := evening, ruleEnabled := true, severity := .high, configuration := .obj [] }
  else if i.val = 1 then .setRuleEnabled { enabled := false, now := evening + 10000000 }
  else .ensureRule { now := evening + 5000000, ruleEnabled := true, severity := .high,
                     configuration := .obj [] }

/-- The first two writers are in time. -/
theorem in_time_exclusive : ∃ s : State (Fin 3) (Option Rule) Unit,
    s.log.length = 2 ∧ Contiguous (versions s) ∧
      Exclusive ((versions s).map RuleVersion.period) := by
  have hstart : Reachable none (fun i => (writers i).work Sha256.hexdigest) none { row := none } :=
    .start
  obtain ⟨s, hs, hfree, hrow, hlog, hphase⟩ := @Reachable.turn _ _ _ _ _ _ _ _ hstart 0 rfl rfl
  obtain ⟨t, ht, -, -, hlog', -⟩ := hs.turn (hphase 1 (by decide)) hfree
  have htime : ∀ c ∈ t.log, InTime Sha256.hexdigest (writers c.transaction) c.before := by
    rw [hlog', hlog, hrow]
    intro c hc
    rcases List.mem_cons.mp hc with rfl | hc
    · rintro _ ⟨⟩
    · obtain rfl := List.mem_singleton.mp hc
      rintro _ ⟨⟩ -
      decide
  have hversions := versions_exclusive_iff ht
  refine ⟨t, by rw [hlog', hlog]; rfl, hversions.1, hversions.2.mpr htime⟩

/-- After the second run two versions are effective at once, and one ends before
it starts. -/
theorem late_run_overlaps : ∃ s : State (Fin 3) (Option Rule) Unit,
    Reachable none (fun i => (writers i).work Sha256.hexdigest) none s ∧
      ((versions s).filter fun v => v.period.holds (evening + 7000000)).map RuleVersion.version =
        [3, 1] ∧
      ¬Exclusive ((versions s).map RuleVersion.period) := by
  have hstart : Reachable none (fun i => (writers i).work Sha256.hexdigest) none { row := none } :=
    .start
  obtain ⟨s, hs, hfree, hrow, -, hphase⟩ := @Reachable.turn _ _ _ _ _ _ _ _ hstart 0 rfl rfl
  obtain ⟨t, ht, hfree', hrow', -, hphase'⟩ := hs.turn (hphase 1 (by decide)) hfree
  obtain ⟨u, hu, -, hrow'', -, -⟩ :=
    ht.turn ((hphase' 2 (by decide)).trans (hphase 2 (by decide))) hfree'
  rw [hrow] at hrow'
  rw [hrow'] at hrow''
  refine ⟨u, hu, ?_, fun h => ?_⟩
  · rw [versions, hrow'']
    decide +kernel
  · have hforward := h.forward
    rw [versions, hrow''] at hforward
    revert hforward
    decide +kernel

end RetailPrintGuard.Fraud.RuleVersions
